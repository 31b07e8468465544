import BetSettlement.BetMaker.Serving
import BetSettlement.LineProvider.Publication

/-!
# Both services

Line-provider's messages travel through a channel that may lose, repeat, delay and reorder them, and
carries nothing else. A lookup fails, or answers from line-provider's store at some instant.
-/

namespace BetSettlement
open Python Machine BetMaker

variable [Pydantic]

structure System where
  provider : LineProvider.State
  channel : List EventFinishedMessage
  service : Service

def System.init : System :=
  { provider := LineProvider.init, channel := [], service := Service.start ∅ }

/-- `GET /event/{id}`, as `HttpEventLookup` reads the answer. A record that `EventRead` rejects is a 500. -/
def getEvent (provider : LineProvider.State) (eventId : UUID) : Lookup :=
  match provider.data.lookup eventId with
  | none => .answered none
  | some event =>
    match LineProvider.EventRead.modelValidate event with
    | none => .unavailable
    | some read =>
      .answered (some { eventId := read.eventId, deadline := .aware read.deadline, state := read.state })

inductive Occurrence where
  | provider (action : LineProvider.Action)
  | restart
  | lose (message : EventFinishedMessage)
  | service (event : Event)

/-- The messages that a step of line-provider sent. -/
def sent (before after : LineProvider.State) : List EventFinishedMessage :=
  (after.published.drop before.published.length).map LineProvider.Publication.message

/-- What bet-maker can see of the world outside. -/
def System.observes (s : System) : Event → Bool
  | .tick (.lookup lookup) =>
    match s.service.tick with
    | .ready (eventId :: _) => lookup == .unavailable || lookup == getEvent s.provider eventId
    | _ => false
  | .place _ (.lookup eventId _ lookup _) => lookup == .unavailable || lookup == getEvent s.provider eventId
  | .handler _ (.deliver message) => s.channel.contains message
  | _ => true

def System.step (s : System) : Occurrence → Option System
  | .provider action => (LineProvider.step s.provider action).map fun provider =>
      { s with provider, channel := s.channel ++ sent s.provider provider }
  | .restart => some { s with provider := LineProvider.init }
  | .lose message => some { s with channel := s.channel.erase message }
  | .service event =>
    if s.observes event then (serve s.service event).map fun service => { s with service } else none

inductive Happens (s : System) : Occurrence → System → Prop where
  | provider {action provider} (moved : LineProvider.step s.provider action = some provider) :
      Happens s (.provider action) { s with provider, channel := s.channel ++ sent s.provider provider }
  | restart : Happens s .restart { s with provider := LineProvider.init }
  | lose {message} : Happens s (.lose message) { s with channel := s.channel.erase message }
  | service {event service} (observed : s.observes event = true) (served : serve s.service event = some service) :
      Happens s (.service event) { s with service }

theorem step_happens {s s' : System} {occurrence : Occurrence} (h : s.step occurrence = some s') :
    Happens s occurrence s' := by
  cases occurrence with
  | provider action =>
    obtain ⟨provider, moved, rfl⟩ := Option.map_eq_some_iff.mp h
    exact .provider moved
  | restart =>
    obtain rfl := Option.some.inj h
    exact .restart
  | lose message =>
    obtain rfl := Option.some.inj h
    exact .lose
  | service event =>
    simp only [System.step] at h
    split at h
    · rename_i observed
      obtain ⟨service, served, rfl⟩ := Option.map_eq_some_iff.mp h
      exact .service observed served
    · cases h

theorem happens_db {s s' : System} {occurrence : Occurrence} (h : s.step occurrence = some s') :
    s'.service.db = s.service.db ∨ ∃ action, BetMaker.step s.service.db action = some s'.service.db := by
  cases step_happens h with
  | service observed served => exact serve_db served
  | _ => exact Or.inl rfl

/-- Rows change by the statements of a transaction alone. -/
theorem happens_rows {s s' : System} {occurrence : Occurrence} (h : s.step occurrence = some s') :
    s'.service.db.table = s.service.db.table ∨ ∃ action, occurrence = .service (.transaction action) ∧
      BetMaker.step s.service.db action = some s'.service.db := by
  cases step_happens h with
  | service observed served =>
    cases serve_serves served with
    | transaction moved other => exact Or.inr ⟨_, rfl, moved⟩
    | tickBegin _ begun | attempt _ begun | placeBegin _ begun =>
      cases step_moves begun with
      | begin unused => exact Or.inl rfl
    | _ => exact Or.inl rfl
  | _ => exact Or.inl rfl

theorem getEvent_none {provider : LineProvider.State} {eventId : UUID}
    (h : getEvent provider eventId = .answered none) : provider.data.lookup eventId = none := by
  unfold getEvent at h
  split at h
  · rename_i absent
    exact absent
  · split at h <;> cases h

/-- What the checks of `place_bet` accept. -/
theorem checked_open {provider : LineProvider.State} {eventId eventId' : UUID} {amount amount' : Decimal}
    {now : Instant} {lookup : Lookup} (observed : lookup = .unavailable ∨ lookup = getEvent provider eventId)
    (h : lookup.placed eventId amount now = .checked eventId' amount') :
    eventId' = eventId ∧ amount' = amount ∧ ∃ event, provider.data.lookup eventId = some event ∧
      event.state = .new ∧ now < event.deadline := by
  unfold Lookup.placed at h
  split at h
  · cases h
  · rename_i snapshot
    split at h
    · cases h
    · rename_i passed
      obtain ⟨rfl, rfl⟩ := Placing.checked.inj h
      refine ⟨rfl, rfl, ?_⟩
      rcases observed with failed | answer
      · cases failed
      · unfold getEvent at answer
        split at answer
        · obtain rfl := Lookup.answered.inj answer
          cases passed
        · rename_i event found
          split at answer
          · cases answer
          · rename_i read valid
            obtain rfl := Lookup.answered.inj answer
            obtain ⟨price, -, rfl⟩ := Option.map_eq_some_iff.mp valid
            simp only [checkBettable] at passed
            split at passed
            · cases passed
            · rename_i ahead
              split at passed
              · cases passed
              · rename_i state
                exact ⟨event, found, by simpa using state, not_le.mp ahead⟩

/-- The invariants of the parts. -/
structure System.Sane (s : System) : Prop where
  provider : LineProvider.Inv s.provider
  bets : BetMaker.Inv s.service.db
  accounts : Accounts s.service.db

theorem init_sane : System.init.Sane where
  provider := LineProvider.init_inv
  bets := start_inv ∅
  accounts := start_accounts ∅

theorem sane_step {s s' : System} {occurrence : Occurrence} (h : s.Sane) (next : s.step occurrence = some s') :
    s'.Sane := by
  have bets : BetMaker.Inv s'.service.db ∧ Accounts s'.service.db := by
    rcases happens_db next with same | ⟨action, moved⟩
    · rw [same]
      exact ⟨h.bets, h.accounts⟩
    · exact ⟨step_inv h.bets moved, step_accounts h.bets h.accounts moved⟩
  refine ⟨?_, bets.1, bets.2⟩
  cases step_happens next with
  | provider moved => exact LineProvider.step_inv h.provider moved
  | restart => exact LineProvider.init_inv
  | lose | service => exact h.provider

theorem run_sane {s : System} {occurrences : List Occurrence}
    (h : run System.step System.init occurrences = some s) : s.Sane :=
  run_invariant (fun _ _ _ => sane_step) init_sane h

end BetSettlement
