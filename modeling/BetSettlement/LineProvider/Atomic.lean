import BetSettlement.LineProvider.Publication

/-!
# The store as one caller after another sees it

A call checks the store before it takes the lock and publishes after it has given the lock back. No other
call comes in between, so the calls that overlap might as well have come one after another.
-/

namespace BetSettlement.LineProvider
open Python Machine

/-! ### Calls that nothing runs beside -/

abbrev Store := UUID → Option Event

/-- What a publication tells, but for the time of it. -/
structure Announcement where
  eventId : UUID
  newState : EventTerminalState
  coefficient : Decimal
  correlationId : String
  routingKey : RoutingKey
  deriving DecidableEq

/-- `announced` lists what the call publishes before it ends. -/
structure Reply where
  result : Except Raised Event
  announced : List Announcement := []

section
variable [Pydantic]

def Publication.announcement (p : Publication) : Announcement :=
  { eventId := p.message.eventId, newState := p.message.newState, coefficient := p.message.coefficient,
    correlationId := p.message.correlationId, routingKey := p.routingKey }

/-- A PUT that ends an event announces it. The message may refuse the coefficient, after the write. -/
def conclude (change : StateChange) (event : Event) (previous : EventState) : Reply :=
  match change.newState.terminal with
  | none => { result := .ok event }
  | some terminal =>
    if previous = .new then
      if coefficientAdmitted event.coefficient then
        { result := .ok event
          announced := [⟨event.eventId, terminal, event.coefficient, change.correlationId, terminalToRouting terminal⟩] }
      else { result := .error .validationError }
    else { result := .ok event }

def apply (store : Store) : Call → Store × Reply
  | .createEvent body =>
    match Event.create body.eventId body.coefficient body.deadline .new with
    | none => (store, { result := .error .validationError })
    | some event =>
      match store event.eventId with
      | some _ => (store, { result := .error (.eventAlreadyExists event.eventId) })
      | none => (Function.update store event.eventId (some event), { result := .ok event })
  | .setEventState change =>
    match store change.eventId with
    | none => (store, { result := .error (.eventNotFound change.eventId) })
    | some current =>
      if isTransitionAllowed current.state change.newState then
        (Function.update store change.eventId (some (current.modelCopy change)),
          conclude change (current.modelCopy change) current.state)
      else (store, { result := .error (.transitionForbidden current.state change.newState) })

/-- One call after another, with the reply that each one gets. -/
def replay : Store → List (TaskId × Call) → Store × List (TaskId × Reply)
  | store, [] => (store, [])
  | store, (t, call) :: rest =>
    let (after, reply) := apply store call
    let (final, replies) := replay after rest
    (final, (t, reply) :: replies)

theorem replay_snoc (store : Store) (calls : List (TaskId × Call)) (t : TaskId) (call : Call) :
    replay store (calls ++ [(t, call)]) =
      ((apply (replay store calls).1 call).1,
        (replay store calls).2 ++ [(t, (apply (replay store calls).1 call).2)]) := by
  induction calls generalizing store with
  | nil => rfl
  | cons first rest ih => simp [replay, ih]

theorem replay_tasks (store : Store) (calls : List (TaskId × Call)) :
    (replay store calls).2.map Prod.fst = calls.map Prod.fst := by
  induction calls generalizing store with
  | nil => rfl
  | cons first rest ih => simp [replay, ih]

/-! ### The order of the calls -/

/-- The call that a task begins when the loop resumes it. -/
def begun (s : State) : Action → List (TaskId × Call)
  | .resume t =>
    match s.tasks t with
    | .ready call => [(t, call)]
    | _ => []
  | _ => []

theorem begun_none (s : State) {action : Action} (other : ∀ t, action ≠ .resume t) : begun s action = [] := by
  cases action with
  | resume t => exact absurd rfl (other t)
  | _ => rfl

def order : State → List Action → List (TaskId × Call)
  | _, [] => []
  | s, action :: rest =>
    match step s action with
    | none => []
    | some s' => begun s action ++ order s' rest

theorem order_append {s s' : State} {front back : List Action} (h : run step s front = some s') :
    order s (front ++ back) = order s front ++ order s' back := by
  induction front generalizing s with
  | nil =>
    obtain rfl := run_nil.mp h
    rfl
  | cons action rest ih =>
    obtain ⟨m, first, last⟩ := run_cons.mp h
    simp only [List.cons_append, order, first, ih last, List.append_assoc]

/-! ### One call between its resumption and its next suspension -/

/-- The section that a call has come to. -/
def Pends (store : Store) : Call → Section → Prop
  | .createEvent body, .add event => Event.create body.eventId body.coefficient body.deadline .new = some event
  | .setEventState change, .update change' => change' = change ∧
      ∃ current, store change.eventId = some current ∧ isTransitionAllowed current.state change.newState = true
  | _, _ => False

def State.Holds (s : State) (store : Store) : Prop := ∀ id, s.data.lookup id = store id

/-- `store` is what the call found when it began. -/
inductive Underway (store : Store) (call : Call) (s : State) : Task → Prop
  | ready (same : s.Holds store) : Underway store call s (.ready call)
  | acquiring {body} (same : s.Holds store) (pends : Pends store call body) :
      Underway store call s (.acquiring body)
  | holding {body} (same : s.Holds store) (pends : Pends store call body) : Underway store call s (.holding body)
  | updated {change current} (sets : call = .setEventState change) (found : store change.eventId = some current)
      (allowed : isTransitionAllowed current.state change.newState = true)
      (written : s.Holds (Function.update store change.eventId (some (current.modelCopy change)))) :
      Underway store call s (.updated change (current.modelCopy change) current.state)

/-- A task that has got its reply. A `publish` may still be waited for, or have failed. -/
def Answered (reply : Reply) : Task → Prop
  | .returned event => reply.result = .ok event
  | .publishing event => reply.result = .ok event ∧ reply.announced ≠ []
  | .raised .publishFailed => (∃ event, reply.result = .ok event) ∧ reply.announced ≠ []
  | .raised error => reply.result = .error error
  | _ => False

/-- The call has taken effect, all of it. -/
structure Ended (store : Store) (call : Call) (before after : State) (t : TaskId) : Prop where
  current : after.current = none
  data : after.Holds (apply store call).1
  answered : Answered (apply store call).2 (after.tasks t)
  published : after.published.map Publication.announcement =
    before.published.map Publication.announcement ++ (apply store call).2.announced

theorem start_underway {store : Store} {call : Call} {s : State} {t : TaskId} (current : s.current = some t)
    (same : s.Holds store) : Ended store call s (start s t call) t ∨
      (start s t call).current = some t ∧ Underway store call (start s t call) ((start s t call).tasks t) ∧
        (start s t call).published = s.published := by
  cases call with
  | createEvent body =>
    cases created : Event.create body.eventId body.coefficient body.deadline .new with
    | none =>
      refine Or.inl ⟨?_, ?_, ?_, ?_⟩ <;> simp only [start, created, apply]
      · rfl
      · exact same
      · rw [leave_same]
        rfl
      · simp
    | some event =>
      refine Or.inr ?_
      simp only [start, created]
      refine ⟨current, ?_, rfl⟩
      rw [setTask_same]
      exact .acquiring same created
  | setEventState change =>
    cases found : s.data.lookup change.eventId with
    | none =>
      have absent : store change.eventId = none := (same _).symm.trans found
      refine Or.inl ⟨?_, ?_, ?_, ?_⟩ <;> simp only [start, found, apply, absent]
      · rfl
      · exact same
      · rw [leave_same]
        rfl
      · simp
    | some event =>
      have stored : store change.eventId = some event := (same _).symm.trans found
      by_cases allowed : isTransitionAllowed event.state change.newState = true
      · refine Or.inr ?_
        simp only [start, found, if_pos allowed]
        refine ⟨current, ?_, rfl⟩
        rw [setTask_same]
        exact .acquiring same ⟨rfl, event, stored, allowed⟩
      · refine Or.inl ⟨?_, ?_, ?_, ?_⟩ <;> simp only [start, found, apply, stored, if_neg allowed]
        · rfl
        · exact same
        · rw [leave_same]
          rfl
        · simp

theorem acquire_underway {store : Store} {call : Call} {s : State} {t : TaskId} {body : Section} (inv : Inv s)
    (current : s.current = some t) (here : s.tasks t = .acquiring body) (same : s.Holds store)
    (pends : Pends store call body) : (acquire s t body).current = some t ∧
      Underway store call (acquire s t body) ((acquire s t body).tasks t) ∧
      (acquire s t body).published = s.published := by
  have unlocked : s.lock.locked = false := by
    have focus := inv.focus t current
    rw [here] at focus
    exact focus.1
  have free : s.lock.free = true := by simp [Lock.free, unlocked, inv.uncontended]
  simp only [acquire, if_pos free]
  refine ⟨current, ?_, rfl⟩
  rw [setTask_same]
  exact .holding same pends

theorem setItem_holds {s : State} {store : Store} (same : s.Holds store) (id : UUID) (event : Event) (key : UUID) :
    (s.data.setItem id event).lookup key = Function.update store id (some event) key := by
  rw [Dict.lookup_setItem, Function.update_apply, same key]

theorem runSection_underway {store : Store} {call : Call} {s : State} {t : TaskId} {body : Section}
    (current : s.current = some t) (same : s.Holds store) (pends : Pends store call body) :
    Ended store call s (runSection s t body) t ∨
      (runSection s t body).current = some t ∧ Underway store call (runSection s t body) ((runSection s t body).tasks t) ∧
        (runSection s t body).published = s.published := by
  cases body with
  | add event =>
    cases call with
    | setEventState change => exact pends.elim
    | createEvent body =>
      have created : Event.create body.eventId body.coefficient body.deadline .new = some event := pends
      by_cases present : event.eventId ∈ s.data
      · obtain ⟨old, found⟩ := Option.isSome_iff_exists.mp (AList.lookup_isSome.mpr present)
        have stored : store event.eventId = some old := (same _).symm.trans found
        refine Or.inl ⟨?_, ?_, ?_, ?_⟩ <;> simp only [runSection, if_pos present, apply, created, stored]
        · rfl
        · exact same
        · rw [leave_same]
          rfl
        · exact (List.append_nil _).symm
      · have absent : store event.eventId = none := (same _).symm.trans (AList.lookup_eq_none.mpr present)
        refine Or.inl ⟨?_, ?_, ?_, ?_⟩ <;> simp only [runSection, if_neg present, apply, created, absent]
        · rfl
        · exact fun key => setItem_holds same event.eventId event key
        · rw [leave_same]
          rfl
        · exact (List.append_nil _).symm
  | update change' =>
    cases call with
    | createEvent body => exact pends.elim
    | setEventState change =>
      obtain ⟨rfl, old, stored, allowed⟩ := pends
      have found : s.data.lookup change'.eventId = some old := (same _).trans stored
      refine Or.inr ?_
      simp only [runSection, found]
      refine ⟨current, ?_, rfl⟩
      rw [setTask_same]
      exact .updated rfl stored allowed fun key => setItem_holds same change'.eventId _ key

theorem afterUpdate_ended {store : Store} {s : State} {t : TaskId} {now : Instant} {change : StateChange}
    {old : Event} (found : store change.eventId = some old)
    (allowed : isTransitionAllowed old.state change.newState = true)
    (written : s.Holds (Function.update store change.eventId (some (old.modelCopy change)))) :
    Ended store (.setEventState change) s (afterUpdate s t now change (old.modelCopy change) old.state) t := by
  have served : apply store (.setEventState change) =
      (Function.update store change.eventId (some (old.modelCopy change)),
        conclude change (old.modelCopy change) old.state) := by
    simp only [apply, found, if_pos allowed]
  have quiet : ∀ task, Answered (conclude change (old.modelCopy change) old.state) task →
      (conclude change (old.modelCopy change) old.state).announced = [] →
      Ended store (.setEventState change) s (s.leave t task) t := by
    intro task answered silent
    refine ⟨rfl, ?_, ?_, ?_⟩ <;> rw [served]
    · exact written
    · rw [leave_same]
      exact answered
    · rw [silent]
      exact (List.append_nil _).symm
  cases decided : change.newState.terminal with
  | none =>
    simp only [afterUpdate, decided]
    exact quiet _ (by simp [Answered, conclude, decided]) (by simp [conclude, decided])
  | some terminal =>
    by_cases first : old.state = .new
    · by_cases admitted : coefficientAdmitted (old.modelCopy change).coefficient = true
      · have concludes : conclude change (old.modelCopy change) old.state =
            { result := .ok (old.modelCopy change)
              announced := [⟨(old.modelCopy change).eventId, terminal, (old.modelCopy change).coefficient,
                change.correlationId, terminalToRouting terminal⟩] } := by
          simp only [conclude, decided, if_pos first, if_pos admitted]
        simp only [afterUpdate, decided, if_pos first, EventFinishedMessage.create, dif_pos admitted]
        refine ⟨rfl, ?_, ?_, ?_⟩ <;> rw [served]
        · exact written
        · change Answered _ ((s.leave t _).tasks t)
          rw [leave_same, concludes]
          exact ⟨rfl, List.cons_ne_nil _ _⟩
        · rw [concludes, List.map_append]
          rfl
      · simp only [afterUpdate, decided, if_pos first, EventFinishedMessage.create, dif_neg admitted]
        refine quiet _ ?_ ?_ <;> simp [Answered, conclude, decided, if_pos first, if_neg admitted]
    · simp only [afterUpdate, decided, if_neg first]
      exact quiet _ (by simp [Answered, conclude, decided, if_neg first]) (by simp [conclude, decided, if_neg first])

/-- The task that has control goes on with its call, or ends it. -/
theorem advance_underway {store : Store} {call : Call} {s s' : State} {t : TaskId} {now : Instant} (inv : Inv s)
    (current : s.current = some t) (underway : Underway store call s (s.tasks t))
    (next : advance s t now = some s') : Ended store call s s' t ∨
      s'.current = some t ∧ Underway store call s' (s'.tasks t) ∧ s'.published = s.published := by
  generalize here : s.tasks t = task at underway
  unfold advance at next
  rw [here] at next
  cases underway with
  | ready same =>
    obtain rfl := Option.some.inj next
    exact start_underway current same
  | acquiring same pends =>
    obtain rfl := Option.some.inj next
    exact Or.inr (acquire_underway inv current here same pends)
  | holding same pends =>
    obtain rfl := Option.some.inj next
    exact runSection_underway current same pends
  | updated sets found allowed written =>
    obtain rfl := Option.some.inj next
    subst sets
    exact Or.inl (afterUpdate_ended found allowed written)

/-! ### Runs -/

theorem setTask_tasks (s : State) (t : TaskId) (task : Task) :
    (s.setTask t task).tasks = Function.update s.tasks t task := rfl

def Store.empty : Store := fun _ => none

/-- The tasks of `log` have got their replies. The others, but for `busy`, have not begun. -/
structure Consistent (log : List (TaskId × Call)) (s : State) (busy : Option TaskId) : Prop where
  replies : ∀ t reply, (t, reply) ∈ (replay .empty log).2 → Answered reply (s.tasks t)
  waiting : ∀ t, t ∉ log.map Prod.fst → busy ≠ some t → s.tasks t = .absent ∨ ∃ call, s.tasks t = .ready call
  once : (log.map Prod.fst).Nodup
  published : s.published.map Publication.announcement =
    (replay .empty log).2.flatMap fun entry => entry.2.announced

theorem mem_replies {log : List (TaskId × Call)} {t : TaskId} {reply : Reply}
    (member : (t, reply) ∈ (replay .empty log).2) : t ∈ log.map Prod.fst :=
  replay_tasks .empty log ▸ List.mem_map_of_mem member

/-- A step of a task that has no reply yet. -/
theorem Consistent.step {log : List (TaskId × Call)} {s s' : State} {busy : Option TaskId} {t : TaskId} {task : Task}
    (h : Consistent log s busy) (moved : s'.tasks = Function.update s.tasks t task)
    (published : s'.published = s.published) (outside : t ∉ log.map Prod.fst)
    (fresh : busy ≠ some t → task = .absent ∨ ∃ call, task = .ready call) : Consistent log s' busy where
  replies u reply member := by
    have different : u ≠ t := by
      rintro rfl
      exact outside (mem_replies member)
    rw [moved, Function.update_of_ne different]
    exact h.replies u reply member
  waiting u absent other := by
    rw [moved]
    by_cases same : u = t
    · subst same
      rw [Function.update_self]
      exact fresh other
    · rw [Function.update_of_ne same]
      exact h.waiting u absent other
  once := h.once
  published := published ▸ h.published

/-- A step of a task that keeps its reply. -/
theorem Consistent.settle {log : List (TaskId × Call)} {s s' : State} {t : TaskId} {task : Task}
    (h : Consistent log s none) (moved : s'.tasks = Function.update s.tasks t task)
    (published : s'.published = s.published) (member : t ∈ log.map Prod.fst)
    (answered : ∀ reply, Answered reply (s.tasks t) → Answered reply task) : Consistent log s' none where
  replies u reply listed := by
    rw [moved]
    by_cases same : u = t
    · subst same
      rw [Function.update_self]
      exact answered reply (h.replies u reply listed)
    · rw [Function.update_of_ne same]
      exact h.replies u reply listed
  waiting u absent other := by
    have different : u ≠ t := by
      rintro rfl
      exact absent member
    rw [moved, Function.update_of_ne different]
    exact h.waiting u absent other
  once := h.once
  published := published ▸ h.published

/-- The task ends its call, which takes its place at the end of the log. -/
theorem Consistent.snoc {base : List (TaskId × Call)} {s s' : State} {t : TaskId} {call : Call} {task : Task}
    (h : Consistent base s (some t)) (outside : t ∉ base.map Prod.fst)
    (moved : s'.tasks = Function.update s.tasks t task) (ended : Ended (replay .empty base).1 call s s' t) :
    Consistent (base ++ [(t, call)]) s' none where
  replies u reply member := by
    rw [replay_snoc] at member
    rcases List.mem_append.mp member with before | last
    · have different : u ≠ t := by
        rintro rfl
        exact outside (mem_replies before)
      rw [moved, Function.update_of_ne different]
      exact h.replies u reply before
    · obtain ⟨rfl, rfl⟩ := Prod.mk.inj (List.mem_singleton.mp last)
      exact ended.answered
  waiting u absent _ := by
    rw [List.map_append, List.mem_append, not_or] at absent
    have different : u ≠ t := fun same => absent.2 (same ▸ List.mem_singleton_self u)
    rw [moved, Function.update_of_ne different]
    exact h.waiting u absent.1 fun same => different (Option.some.inj same).symm
  once := by
    rw [List.map_append]
    refine List.nodup_append.mpr ⟨h.once, List.nodup_singleton t, fun u before v last => ?_⟩
    rintro rfl
    obtain rfl := List.mem_singleton.mp last
    exact outside before
  published := by
    rw [replay_snoc, List.flatMap_append, ended.published, h.published]
    simp

/-- The log, without the call that is underway, accounts for the state. -/
def Linear (log : List (TaskId × Call)) (s : State) : Prop :=
  match s.current with
  | none => Consistent log s none ∧ s.Holds (replay .empty log).1
  | some t => ∃ base call, log = base ++ [(t, call)] ∧ t ∉ base.map Prod.fst ∧ Consistent base s (some t) ∧
      Underway (replay .empty base).1 call s (s.tasks t)

theorem linear_idle {log : List (TaskId × Call)} {s : State} (idle : s.current = none) :
    Linear log s ↔ Consistent log s none ∧ s.Holds (replay .empty log).1 := by
  unfold Linear
  rw [idle]

theorem linear_busy {log : List (TaskId × Call)} {s : State} {t : TaskId} (busy : s.current = some t) :
    Linear log s ↔ ∃ base call, log = base ++ [(t, call)] ∧ t ∉ base.map Prod.fst ∧
      Consistent base s (some t) ∧ Underway (replay .empty base).1 call s (s.tasks t) := by
  unfold Linear
  rw [busy]

theorem init_linear : Linear [] init := by
  refine (linear_idle rfl).mpr ⟨⟨?_, ?_, List.nodup_nil, rfl⟩, fun id => rfl⟩
  · intro t reply member
    cases member
  · exact fun t _ _ => Or.inl rfl

theorem advance_linear {log : List (TaskId × Call)} {s s' : State} {t : TaskId} {now : Instant} (inv : Inv s)
    (h : Linear log s) (busy : s.current = some t) (next : advance s t now = some s') : Linear log s' := by
  obtain ⟨base, call, rfl, outside, consistent, underway⟩ := (linear_busy busy).mp h
  obtain ⟨task, moved⟩ := advance_moves next
  rcases advance_underway inv busy underway next with ended | ⟨stays, goesOn, published⟩
  · refine (linear_idle ended.current).mpr ⟨consistent.snoc outside moved ended, ?_⟩
    rw [replay_snoc]
    exact ended.data
  · exact (linear_busy stays).mpr ⟨base, call, rfl, outside,
      consistent.step moved published outside fun other => absurd rfl other, goesOn⟩

/-- A call whose publication is waited for has its reply already. -/
theorem publishing_logged {log : List (TaskId × Call)} {s : State} {t : TaskId} {event : Event}
    (h : Consistent log s none) (here : s.tasks t = .publishing event) : t ∈ log.map Prod.fst := by
  by_contra absent
  rcases h.waiting t absent (by simp) with gone | ⟨call, ready⟩
  · cases here.symm.trans gone
  · cases here.symm.trans ready

theorem schedule_linear {log : List (TaskId × Call)} {s s' : State} {action : Action} (inv : Inv s)
    (h : Linear log s) (idle : s.current = none) (next : schedule s action = some s') :
    Linear (log ++ begun s action) s' := by
  obtain ⟨consistent, holds⟩ := (linear_idle idle).mp h
  cases action with
  | advance now => cases next
  | spawn t call =>
    simp only [schedule] at next
    split at next
    · rename_i absent
      obtain rfl := Option.some.inj next
      have outside : t ∉ log.map Prod.fst := by
        intro member
        rw [← replay_tasks .empty log] at member
        obtain ⟨⟨u, reply⟩, listed, rfl⟩ := List.mem_map.mp member
        have answered := consistent.replies _ reply listed
        rw [absent] at answered
        exact answered
      rw [begun_none s (by simp), List.append_nil]
      exact (linear_idle (s := s.setTask t (.ready call)) idle).mpr
        ⟨consistent.step (setTask_tasks _ _ _) rfl outside fun _ => Or.inr ⟨call, rfl⟩, holds⟩
    · cases next
  | resume t =>
    simp only [schedule] at next
    split at next
    · rename_i call ready
      obtain rfl := Option.some.inj next
      have outside : t ∉ log.map Prod.fst := by
        intro member
        rw [← replay_tasks .empty log] at member
        obtain ⟨⟨u, reply⟩, listed, rfl⟩ := List.mem_map.mp member
        have answered := consistent.replies _ reply listed
        rw [ready] at answered
        exact answered
      refine (linear_busy rfl).mpr ⟨log, call, by simp [begun, ready], outside,
        ⟨consistent.replies, fun u absent _ => consistent.waiting u absent (by simp), consistent.once,
          consistent.published⟩, ?_⟩
      change Underway _ call _ (s.tasks t)
      rw [ready]
      exact .ready holds
    · rename_i body waiting
      split at next
      · rename_i turn
        rw [inv.uncontended] at turn
        cases turn.2
      · cases next
    · cases next
  | publishReturns t =>
    simp only [schedule] at next
    split at next
    · rename_i event here
      obtain rfl := Option.some.inj next
      rw [begun_none s (by simp), List.append_nil]
      have logged := publishing_logged consistent here
      refine (linear_idle (s := s.setTask t (.returned event)) idle).mpr
        ⟨consistent.settle (setTask_tasks _ _ _) rfl logged ?_, holds⟩
      intro reply answered
      rw [here] at answered
      exact answered.1
    · cases next
  | publishRaises t =>
    simp only [schedule] at next
    split at next
    · rename_i event here
      obtain rfl := Option.some.inj next
      rw [begun_none s (by simp), List.append_nil]
      have logged := publishing_logged consistent here
      refine (linear_idle (s := s.setTask t (.raised .publishFailed)) idle).mpr
        ⟨consistent.settle (setTask_tasks _ _ _) rfl logged ?_, holds⟩
      intro reply answered
      rw [here] at answered
      exact ⟨⟨event, answered.1⟩, answered.2⟩
    · cases next

theorem linear_step {log : List (TaskId × Call)} {s s' : State} {action : Action} (inv : Inv s)
    (h : Linear log s) (next : step s action = some s') : Linear (log ++ begun s action) s' := by
  rcases step_ok next with ⟨t, now, busy, rfl, moved⟩ | ⟨idle, scheduled⟩
  · rw [begun_none s (by simp), List.append_nil]
    exact advance_linear inv h busy moved
  · exact schedule_linear inv h idle scheduled

theorem run_linear {actions : List Action} {s : State} (reached : run step init actions = some s) :
    Linear (order init actions) s := by
  have start : run step init [] = some init ∧ Linear (order init []) init := ⟨rfl, init_linear⟩
  have whole := run_history (P := fun front s => run step init front = some s ∧ Linear (order init front) s)
    (fun front s action s' held next => by
      have reached' : run step init (front ++ [action]) = some s' := run_snoc.mpr ⟨s, held.1, next⟩
      refine ⟨reached', ?_⟩
      have last : order s [action] = begun s action := by simp [order, next]
      rw [order_append held.1, last]
      exact linear_step (run_inv held.1) held.2 next)
    start reached
  exact whole.2

/-- A call that has no place in the order has not begun. -/
theorem unordered_waiting {actions : List Action} {s : State} {t : TaskId} (reached : run step init actions = some s)
    (outside : t ∉ (order init actions).map Prod.fst) : s.tasks t = .absent ∨ ∃ call, s.tasks t = .ready call := by
  have linear := run_linear reached
  cases busy : s.current with
  | none => exact ((linear_idle busy).mp linear).1.waiting t outside (by simp)
  | some u =>
    obtain ⟨base, call, same, -, consistent, -⟩ := (linear_busy busy).mp linear
    rw [same, List.map_append, List.mem_append, not_or] at outside
    refine consistent.waiting t outside.1 fun own => outside.2 ?_
    obtain rfl := Option.some.inj own
    exact List.mem_singleton_self u

/-- Where a task can stand after it had control. -/
def Task.advanced : Task → Prop
  | .absent | .ready _ | .raised .publishFailed => False
  | _ => True

theorem advance_advanced {s s' : State} {t : TaskId} {now : Instant} (next : advance s t now = some s') :
    (s'.tasks t).advanced := by
  have moved : ∀ (u : State) task, task.advanced → ((u.setTask t task).tasks t).advanced := by
    intro u task stands
    rwa [setTask_same]
  unfold advance at next
  split at next
  · obtain rfl := Option.some.inj next
    unfold start
    repeat' split
    all_goals exact moved _ _ trivial
  · obtain rfl := Option.some.inj next
    unfold acquire
    split
    all_goals exact moved _ _ trivial
  · obtain rfl := Option.some.inj next
    unfold runSection
    repeat' split
    all_goals exact moved _ _ trivial
  · obtain rfl := Option.some.inj next
    unfold afterUpdate
    repeat' split
    all_goals exact moved _ _ trivial
  · cases next

/-- Only its caller makes a call ready, and only the broker fails its publication. -/
theorem outside_step {s s' : State} {action : Action} {t : TaskId} (next : step s action = some s') :
    (∀ call, s'.tasks t = .ready call → s.tasks t = .ready call ∨ action = .spawn t call) ∧
      (s'.tasks t = .raised .publishFailed → s.tasks t = .raised .publishFailed ∨ action = .publishRaises t) := by
  have placed : ∀ (u : TaskId) task, s'.tasks = Function.update s.tasks u task →
      s'.tasks t = s.tasks t ∨ t = u ∧ s'.tasks t = task := by
    intro u task moved
    by_cases same : t = u
    · subst same
      exact Or.inr ⟨rfl, by rw [moved, Function.update_self]⟩
    · exact Or.inl (by rw [moved, Function.update_of_ne same])
  rcases step_ok next with ⟨u, now, -, rfl, advanced⟩ | ⟨-, scheduled⟩
  · obtain ⟨task, moved⟩ := advance_moves advanced
    rcases placed u task moved with same | ⟨rfl, -⟩
    · exact ⟨fun call here => Or.inl (same ▸ here), fun here => Or.inl (same ▸ here)⟩
    · have stands := advance_advanced advanced
      refine ⟨fun call here => ?_, fun here => ?_⟩ <;> (rw [here] at stands; exact stands.elim)
  · cases action with
    | advance now => cases scheduled
    | spawn u call =>
      simp only [schedule] at scheduled
      split at scheduled
      · obtain rfl := Option.some.inj scheduled
        rcases placed u _ rfl with same | ⟨rfl, here⟩
        · exact ⟨fun call here => Or.inl (same ▸ here), fun here => Or.inl (same ▸ here)⟩
        · rw [here]
          exact ⟨fun call' ready => Or.inr (Task.ready.inj ready ▸ rfl), by simp⟩
      · cases scheduled
    | resume u =>
      simp only [schedule] at scheduled
      split at scheduled
      · obtain rfl := Option.some.inj scheduled
        exact ⟨fun call here => Or.inl here, fun here => Or.inl here⟩
      · split at scheduled
        · obtain rfl := Option.some.inj scheduled
          rcases placed u _ rfl with same | ⟨rfl, here⟩
          · exact ⟨fun call here => Or.inl (same ▸ here), fun here => Or.inl (same ▸ here)⟩
          · rw [here]
            exact ⟨by simp, by simp⟩
        · cases scheduled
      · cases scheduled
    | publishReturns u | publishRaises u =>
      simp only [schedule] at scheduled
      split at scheduled
      · obtain rfl := Option.some.inj scheduled
        rcases placed u _ rfl with same | ⟨rfl, here⟩
        · exact ⟨fun call here => Or.inl (same ▸ here), fun here => Or.inl (same ▸ here)⟩
        · rw [here]
          exact ⟨by simp, by simp⟩
      · cases scheduled

theorem run_failed {actions : List Action} {s : State} {t : TaskId} (reached : run step init actions = some s)
    (failed : s.tasks t = .raised .publishFailed) : .publishRaises t ∈ actions := by
  have start : init.tasks t = .raised .publishFailed → .publishRaises t ∈ ([] : List Action) := by
    intro never
    cases never
  refine run_history (P := fun front s => s.tasks t = .raised .publishFailed → .publishRaises t ∈ front)
    (fun front s action s' held next here => ?_) start reached failed
  rcases (outside_step next).2 here with before | rfl
  · exact List.mem_append_left _ (held before)
  · exact List.mem_append_right _ (List.mem_singleton_self _)

theorem order_asked {actions : List Action} {s : State} (reached : run step init actions = some s) :
    ∀ entry ∈ order init actions, .spawn entry.1 entry.2 ∈ actions := by
  have start : run step init [] = some init ∧ (∀ t call, init.tasks t = .ready call → .spawn t call ∈ ([] : List Action)) ∧
      ∀ entry ∈ order init [], .spawn entry.1 entry.2 ∈ ([] : List Action) := by
    refine ⟨rfl, fun t call ready => ?_, fun entry member => ?_⟩
    · cases ready
    · cases member
  have whole := run_history (P := fun front s => run step init front = some s ∧
      (∀ t call, s.tasks t = .ready call → .spawn t call ∈ front) ∧
      ∀ entry ∈ order init front, .spawn entry.1 entry.2 ∈ front)
    (fun front s action s' held next => by
      obtain ⟨reached, spawned, asked⟩ := held
      refine ⟨run_snoc.mpr ⟨s, reached, next⟩, fun t call ready => ?_, fun entry member => ?_⟩
      · rcases (outside_step next).1 call ready with before | rfl
        · exact List.mem_append_left _ (spawned t call before)
        · exact List.mem_append_right _ (List.mem_singleton_self _)
      · have last : order s [action] = begun s action := by simp [order, next]
        rw [order_append reached, last] at member
        rcases List.mem_append.mp member with before | new
        · exact List.mem_append_left _ (asked entry before)
        · unfold begun at new
          split at new
          · split at new
            · rename_i call ready
              obtain rfl := List.mem_singleton.mp new
              exact List.mem_append_left _ (spawned _ call ready)
            · cases new
          · cases new)
    start reached
  exact whole.2.2

/-- The calls, one after another in `order`, leave the store and the replies that the schedule left. -/
structure Linearizable (actions : List Action) (s : State) : Prop where
  store : s.Holds (replay .empty (order init actions)).1
  replies : ∀ t reply, (t, reply) ∈ (replay .empty (order init actions)).2 → Answered reply (s.tasks t)
  published : s.published.map Publication.announcement =
    (replay .empty (order init actions)).2.flatMap fun entry => entry.2.announced
  once : ((order init actions).map Prod.fst).Nodup
  asked : ∀ entry ∈ order init actions, .spawn entry.1 entry.2 ∈ actions
  complete : ∀ t, t ∉ (order init actions).map Prod.fst →
    s.tasks t = .absent ∨ ∃ call, s.tasks t = .ready call
  realTime : ∀ front back before, actions = front ++ back → run step init front = some before →
    ∃ later, order init actions = order init front ++ later ∧
      ∀ t ∈ later.map Prod.fst, before.tasks t = .absent ∨ ∃ call, before.tasks t = .ready call

/-- Whatever calls overlap, the service behaves as if each had run alone at some moment between its beginning and
its end: the order of those moments is one in which no call comes after one that began when it had ended. -/
theorem calls_linearizable {actions : List Action} {s : State} (reached : run step init actions = some s)
    (idle : s.current = none) : Linearizable actions s := by
  obtain ⟨consistent, holds⟩ := (linear_idle idle).mp (run_linear reached)
  refine ⟨holds, consistent.replies, consistent.published, consistent.once, order_asked reached,
    fun t absent => consistent.waiting t absent (by simp), ?_⟩
  rintro front back before rfl first
  refine ⟨order before back, order_append first, fun t late => unordered_waiting first fun early => ?_⟩
  have once := consistent.once
  rw [order_append first, List.map_append] at once
  exact (List.nodup_append.mp once).2.2 t early t late rfl

end

theorem calls_linearizable_overlappingPuts : ∃ s, run step init overlappingPuts = some s ∧
    Linearizable overlappingPuts s ∧ (order init overlappingPuts).map Prod.fst = [0, 1, 2] := by
  obtain ⟨s, reached⟩ := Option.isSome_iff_exists.mp
    (show (run step init overlappingPuts).isSome = true by decide)
  have idle : (run step init overlappingPuts).map State.current = some none := by decide
  rw [reached] at idle
  exact ⟨s, reached, calls_linearizable reached (Option.some.inj idle), by decide⟩

end BetSettlement.LineProvider
