import BetSettlement.Agreement
import BetSettlement.BetMaker.Consumer
import BetSettlement.Bus

/-!
# No message is lost at the broker

A publication whose call has returned is in the queue, with a handler, or settled; or it came before bet-maker
had declared its queue. A message is acknowledged after its settlement, and rejected after an attempt that failed.
-/

namespace BetSettlement
open Python Machine BetMaker

/-! ### Line-provider's side -/

namespace LineProvider

/-- `publish` has been called, and has not returned. -/
def Task.unconfirmed : Task → Prop
  | .publishing _ | .raised .publishFailed => True
  | _ => False

variable [Pydantic]

theorem unconfirmed_waits {s : State} {t : TaskId} (now : Instant) (h : (s.tasks t).unconfirmed) :
    advance s t now = none := by
  unfold advance
  cases here : s.tasks t with
  | ready | acquiring | holding | updated => simp [here, Task.unconfirmed] at h
  | _ => rfl

theorem unconfirmed_step {s s' : State} {action : Action} {t : TaskId} (next : step s action = some s')
    (other : action ≠ .publishReturns t) (h : (s.tasks t).unconfirmed) : (s'.tasks t).unconfirmed := by
  rcases step_ok next with ⟨u, now, -, rfl, moved⟩ | ⟨-, scheduled⟩
  · obtain ⟨task, tasks⟩ := advance_moves moved
    have different : t ≠ u := by
      rintro rfl
      cases (unconfirmed_waits now h).symm.trans moved
    rw [tasks, Function.update_of_ne different]
    exact h
  · cases action with
    | advance now => cases scheduled
    | spawn u call =>
      simp only [schedule] at scheduled
      split at scheduled
      · rename_i absent
        obtain rfl := Option.some.inj scheduled
        have different : t ≠ u := by
          rintro rfl
          simp [absent, Task.unconfirmed] at h
        rwa [setTask_other different]
      · cases scheduled
    | resume u =>
      simp only [schedule] at scheduled
      split at scheduled
      · obtain rfl := Option.some.inj scheduled
        exact h
      · rename_i body waiting
        split at scheduled
        · obtain rfl := Option.some.inj scheduled
          have different : t ≠ u := by
            rintro rfl
            simp [waiting, Task.unconfirmed] at h
          change ((s.setTask u (.holding body)).tasks t).unconfirmed
          rwa [setTask_other different]
        · cases scheduled
      · cases scheduled
    | publishReturns u =>
      simp only [schedule] at scheduled
      split at scheduled
      · obtain rfl := Option.some.inj scheduled
        have different : t ≠ u := by
          rintro rfl
          exact other rfl
        rwa [setTask_other different]
      · cases scheduled
    | publishRaises u =>
      simp only [schedule] at scheduled
      split at scheduled
      · obtain rfl := Option.some.inj scheduled
        by_cases same : t = u
        · subst same
          rw [setTask_same]
          trivial
        · rwa [setTask_other same]
      · cases scheduled

theorem create_versioned {eventId : UUID} {terminal : EventTerminalState} {coefficient : Decimal} {now : Instant}
    {correlationId : String} {message : EventFinishedMessage}
    (h : EventFinishedMessage.create eventId terminal coefficient now correlationId = some message) :
    message.schemaVersion = schemaVersionSupported := by
  unfold EventFinishedMessage.create at h
  split at h
  · obtain rfl := Option.some.inj h
    rfl
  · cases h

theorem runSection_published (s : State) (t : TaskId) (body : Section) :
    (runSection s t body).published = s.published := by
  cases body with
  | add event =>
    simp only [runSection]
    split <;> rfl
  | update change =>
    simp only [runSection]
    split <;> rfl

/-- A step publishes at most once, and the call that does has yet to return. -/
theorem published_new {s s' : State} {action : Action} (next : step s action = some s') :
    s'.published = s.published ∨ ∃ p, s'.published = s.published ++ [p] ∧
      (s'.tasks p.task).unconfirmed ∧ p.message.schemaVersion = schemaVersionSupported := by
  rcases step_ok next with ⟨t, now, -, rfl, moved⟩ | ⟨-, scheduled⟩
  · unfold advance at moved
    split at moved
    · obtain rfl := Option.some.inj moved
      exact Or.inl (start_quiet s t _).2
    · obtain rfl := Option.some.inj moved
      exact Or.inl (acquire_quiet s t _).2
    · obtain rfl := Option.some.inj moved
      exact Or.inl (runSection_published s t _)
    · obtain rfl := Option.some.inj moved
      unfold afterUpdate
      split
      · split
        · split
          · exact Or.inl rfl
          · rename_i message created
            refine Or.inr ⟨_, rfl, ?_, create_versioned created⟩
            change (((s.leave t _).tasks t)).unconfirmed
            rw [leave_same]
            trivial
        · exact Or.inl rfl
      · exact Or.inl rfl
    · cases moved
  · exact Or.inl (schedule_quiet scheduled).2

end LineProvider

section
variable [Pydantic]

theorem newPublications_of_step {before after : LineProvider.State} {action : LineProvider.Action}
    (next : LineProvider.step before action = some after) : ∀ p ∈ newPublications before after,
      (after.tasks p.task).unconfirmed ∧ p.message.schemaVersion = schemaVersionSupported := by
  intro p member
  rcases LineProvider.published_new next with same | ⟨q, appended, unconfirmed, versioned⟩
  · simp [newPublications, same] at member
  · obtain rfl : p = q := by simpa [newPublications, appended] using member
    exact ⟨unconfirmed, versioned⟩

/-- A call that has returned has its publication with the broker. -/
structure Confirmed (s : Bus) : Prop where
  unconfirmed : ∀ p ∈ s.wire ++ s.lost, (s.provider.tasks p.task).unconfirmed
  versioned : ∀ p ∈ s.sent, p.message.schemaVersion = schemaVersionSupported

theorem init_confirmed : Confirmed Bus.init where
  unconfirmed p member := by cases member
  versioned p member := by cases member

theorem confirmed_step {s s' : Bus} {traffic : Traffic} (h : Confirmed s) (next : s.step traffic = some s') :
    Confirmed s' := by
  cases step_carried next with
  | @provider action provider confirmed moved =>
    have fresh := newPublications_of_step moved
    refine ⟨?_, ?_⟩
    · intro p member
      rcases List.mem_append.mp member with travels | lost
      · rcases List.mem_append.mp travels with before | sent
        · refine LineProvider.unconfirmed_step moved ?_ (h.unconfirmed p (List.mem_append_left _ before))
          rintro rfl
          have other := List.all_eq_true.mp confirmed p (List.mem_append_left _ before)
          simp at other
        · exact (fresh p sent).1
      · refine LineProvider.unconfirmed_step moved ?_ (h.unconfirmed p (List.mem_append_right _ lost))
        rintro rfl
        have other := List.all_eq_true.mp confirmed p (List.mem_append_right _ lost)
        simp at other
    · intro p member
      rcases List.mem_append.mp member with before | sent
      · exact h.versioned p before
      · exact (fresh p sent).2
  | restart => exact ⟨fun p member => (List.not_mem_nil member).elim, h.versioned⟩
  | arrive travels =>
    refine ⟨fun p member => h.unconfirmed p ?_, h.versioned⟩
    rcases List.mem_append.mp member with left | lost
    · exact List.mem_append_left _ (List.mem_of_mem_erase left)
    · exact List.mem_append_right _ lost
  | @lose publication travels =>
    refine ⟨fun p member => h.unconfirmed p ?_, h.versioned⟩
    rcases List.mem_append.mp member with left | lost
    · exact List.mem_append_left _ (List.mem_of_mem_erase left)
    · rcases List.mem_append.mp lost with before | here
      · exact List.mem_append_right _ before
      · obtain rfl := List.mem_singleton.mp here
        exact List.mem_append_left _ travels
  | declare | deliver | acknowledge | deadLetter | reconnect | crash | service =>
    exact ⟨h.unconfirmed, h.versioned⟩

/-! ### The broker's side -/

/-- Where each publication is. -/
structure Accounted (s : Bus) : Prop where
  sent : s.sent.Perm (s.abandoned ++ s.wire ++ s.lost ++ s.broker.unroutable ++ s.broker.received .finished)
  deadLetters : s.broker.ready .dlq = s.broker.rejected .finished
  undeclared : s.declared = false → s.broker.received .finished = []
  prefetched : (s.broker.unacked .finished).length ≤ 10

theorem init_accounted : Accounted Bus.init where
  sent := .refl _
  deadLetters := rfl
  undeclared _ := rfl
  prefetched := Nat.zero_le 10

theorem unacked_declared {s : Bus} (h : Accounted s) {delivery : Nat × LineProvider.Publication}
    (member : delivery ∈ s.broker.unacked .finished) : s.declared = true := by
  cases declared : s.declared with
  | true => rfl
  | false =>
    have empty := h.undeclared declared
    simp only [Broker.received, List.append_eq_nil_iff, List.map_eq_nil_iff] at empty
    rw [empty.1.1.2] at member
    cases member

theorem arrive_accounted {s : Bus} {publication : LineProvider.Publication} (h : Accounted s)
    (travels : publication ∈ s.wire) : Accounted { s with
      wire := s.wire.erase publication
      broker := s.broker.publish s.topology .events publication.routingKey.text publication } := by
  have left := (List.perm_cons_erase travels).count_eq
  have sent := h.sent.count_eq
  cases declared : s.declared with
  | true =>
    have route : s.topology.route .events publication.routingKey.text = [.finished] := by
      rw [Bus.topology, declared]
      exact route_finished _
    have received := (Broker.received_publish s.broker s.topology .events publication.routingKey.text publication
      .finished).count_eq
    refine ⟨List.perm_iff_count.mpr ?_, ?_, ?_, ?_⟩
    · intro p
      have before := left p
      have whole := sent p
      have after := received p
      simp only [route, List.mem_singleton, if_true] at after
      simp only [Broker.unroutable_publish, route, List.cons_ne_nil, if_false, List.append_nil,
        List.count_append, List.count_cons, List.count_nil] at before whole after ⊢
      omega
    · rw [Broker.ready_publish, route, Broker.publish_rejected]
      simpa using h.deadLetters
    · intro undeclared
      cases undeclared
    · rw [Broker.publish_unacked]
      exact h.prefetched
  | false =>
    have route : s.topology.route .events publication.routingKey.text = [] := by
      rw [Bus.topology, declared]
      exact route_undeclared _ _
    have same : (s.broker.publish s.topology .events publication.routingKey.text publication) =
        { s.broker with unroutable := s.broker.unroutable ++ [publication] } := if_pos route
    refine ⟨List.perm_iff_count.mpr ?_, ?_, ?_, ?_⟩
    · intro p
      have before := left p
      have whole := sent p
      simp only [same, Broker.received, List.count_append, List.count_cons, List.count_nil] at before whole ⊢
      omega
    · rw [same]
      exact h.deadLetters
    · intro undeclared
      rw [same]
      exact h.undeclared declared
    · rw [same]
      exact h.prefetched

theorem deadLetter_accounted {s : Bus} {handler : Nat} {broker : Broker Queue LineProvider.Publication}
    (h : Accounted s) (settled : s.broker.reject s.topology .finished handler = some broker) :
    Accounted { s with broker } := by
  obtain ⟨publication, member, same⟩ := Broker.reject_ok settled
  have declared := unacked_declared h member
  have route : s.topology.route .dlx Queue.finished.name = [.dlq] := by
    rw [Bus.topology, declared]
    exact route_dlq
  change broker = (s.broker.refuse .finished handler publication).publish s.topology .dlx Queue.finished.name
    publication at same
  subst same
  have refused := Broker.received_refuse member Queue.finished
  have received := Broker.received_publish (s.broker.refuse .finished handler publication) s.topology .dlx
    Queue.finished.name publication .finished
  simp only [route, List.mem_singleton, reduceCtorEq, if_false, List.append_nil] at received
  refine ⟨h.sent.trans ?_, ?_, ?_, ?_⟩
  · have unroutable : (s.broker.refuse .finished handler publication).unroutable = s.broker.unroutable := rfl
    rw [Broker.unroutable_publish, route, unroutable]
    simpa using (received.trans refused).symm.append_left
      (s.abandoned ++ s.wire ++ s.lost ++ s.broker.unroutable)
  · rw [Broker.ready_publish, route, Broker.publish_rejected]
    simp [Broker.refuse, h.deadLetters]
  · intro undeclared
    cases declared.symm.trans undeclared
  · rw [Broker.publish_unacked]
    have shorter := (List.erase_sublist (a := (handler, publication)) (l := s.broker.unacked .finished)).length_le
    simpa [Broker.refuse] using shorter.trans h.prefetched

theorem accounted_step {s s' : Bus} {traffic : Traffic} (h : Accounted s) (next : s.step traffic = some s') :
    Accounted s' := by
  cases step_carried next with
  | provider confirmed moved =>
    refine ⟨List.perm_iff_count.mpr fun p => ?_, h.deadLetters, h.undeclared, h.prefetched⟩
    have whole := h.sent.count_eq p
    simp only [List.count_append] at whole ⊢
    omega
  | restart =>
    refine ⟨?_, h.deadLetters, h.undeclared, h.prefetched⟩
    simpa using h.sent
  | arrive travels => exact arrive_accounted h travels
  | @lose publication travels =>
    refine ⟨List.perm_iff_count.mpr fun p => ?_, h.deadLetters, h.undeclared, h.prefetched⟩
    have left := (List.perm_cons_erase travels).count_eq p
    have whole := h.sent.count_eq p
    simp only [List.count_append, List.count_cons, List.count_nil] at left whole ⊢
    omega
  | declare => exact ⟨h.sent, h.deadLetters, by simp, h.prefetched⟩
  | @deliver handler publication broker service delivered served =>
    have received := Broker.received_deliver delivered .finished
    obtain ⟨rest, front, room, rfl⟩ := Broker.deliver_ok delivered
    refine ⟨h.sent.trans (received.symm.append_left _), ?_, ?_, ?_⟩
    · simpa using h.deadLetters
    · intro undeclared
      have empty := h.undeclared undeclared
      simp [Broker.received, front] at empty
    · have limit : (s.broker.unacked .finished).length < 10 := room
      simp only [Function.update_self, List.length_append, List.length_singleton]
      omega
  | @acknowledge handler message t broker acked settled =>
    have received := Broker.received_ack settled .finished
    obtain ⟨publication, member, rfl⟩ := Broker.ack_ok settled
    refine ⟨h.sent.trans (received.symm.append_left _), h.deadLetters, ?_, ?_⟩
    · intro undeclared
      cases (unacked_declared h member).symm.trans undeclared
    · have shorter := (List.erase_sublist (a := (handler, publication)) (l := s.broker.unacked .finished)).length_le
      simpa using shorter.trans h.prefetched
  | deadLetter rejected settled => exact deadLetter_accounted h settled
  | reconnect | crash =>
    have received := Broker.received_requeue s.broker .finished .finished
    refine ⟨h.sent.trans (received.symm.append_left _), ?_, ?_, ?_⟩
    · simpa [Broker.requeue] using h.deadLetters
    · intro undeclared
      exact List.perm_nil.mp (h.undeclared undeclared ▸ received)
    · simp [Broker.requeue]
  | service => exact ⟨h.sent, h.deadLetters, h.undeclared, h.prefetched⟩

/-- The publication has come to the broker. -/
def Bus.Arrived (s : Bus) (p : LineProvider.Publication) : Prop :=
  p ∈ s.broker.unroutable ++ s.broker.received .finished

theorem arrive_arrived {s : Bus} {publication p : LineProvider.Publication}
    (h : s.Arrived p ∨ p = publication) : Bus.Arrived { s with
      wire := s.wire.erase publication
      broker := s.broker.publish s.topology .events publication.routingKey.text publication } p := by
  have received := (Broker.received_publish s.broker s.topology .events publication.routingKey.text publication
    .finished).mem_iff (a := p)
  simp only [Bus.Arrived, List.mem_append, Broker.unroutable_publish, received]
  rcases h with before | rfl
  · rcases List.mem_append.mp before with unroutable | kept
    · exact Or.inl (Or.inl unroutable)
    · exact Or.inr (Or.inl kept)
  · cases declared : s.declared with
    | true =>
      refine Or.inr (Or.inr ?_)
      rw [Bus.topology, declared, route_finished]
      simp
    | false =>
      refine Or.inl (Or.inr ?_)
      rw [Bus.topology, declared, route_undeclared]
      simp

theorem arrived_step {s s' : Bus} {traffic : Traffic} {p : LineProvider.Publication} (accounted : Accounted s)
    (h : s.Arrived p) (next : s.step traffic = some s') : s'.Arrived p := by
  have keep : ∀ broker : Broker Queue LineProvider.Publication, broker.unroutable = s.broker.unroutable →
      (broker.received .finished).Perm (s.broker.received .finished) →
      p ∈ broker.unroutable ++ broker.received .finished := by
    intro broker same received
    rw [same]
    exact (received.append_left _).mem_iff.mpr h
  cases step_carried next with
  | arrive travels => exact arrive_arrived (Or.inl h)
  | deliver delivered served =>
    have received := Broker.received_deliver delivered .finished
    obtain ⟨rest, front, room, rfl⟩ := Broker.deliver_ok delivered
    exact keep _ rfl received
  | acknowledge acked settled =>
    have received := Broker.received_ack settled .finished
    obtain ⟨publication, member, rfl⟩ := Broker.ack_ok settled
    exact keep _ rfl received
  | @deadLetter handler broker rejected settled =>
    obtain ⟨publication, member, same⟩ := Broker.reject_ok settled
    have route : s.topology.route .dlx Queue.finished.name = [.dlq] := by
      rw [Bus.topology, unacked_declared accounted member]
      exact route_dlq
    change broker = (s.broker.refuse .finished handler publication).publish s.topology .dlx Queue.finished.name
      publication at same
    subst same
    have received := Broker.received_publish (s.broker.refuse .finished handler publication) s.topology .dlx
      Queue.finished.name publication .finished
    simp only [route, List.mem_singleton, reduceCtorEq, if_false, List.append_nil] at received
    refine keep _ ?_ (received.trans (Broker.received_refuse member Queue.finished))
    rw [Broker.unroutable_publish, route]
    exact List.append_nil _
  | reconnect | crash => exact keep _ rfl (Broker.received_requeue _ _ _)
  | _ => exact h

/-- A publication is on its way, or it was lost on its way, or it has come to the broker. -/
def Located (s : Bus) : Prop := ∀ p ∈ s.provider.published, p ∈ s.wire ++ s.lost ∨ s.Arrived p

theorem located_step {s s' : Bus} {traffic : Traffic} (accounted : Accounted s) (h : Located s)
    (next : s.step traffic = some s') : Located s' := by
  have kept : ∀ p, s.Arrived p → s'.Arrived p := fun p arrived => arrived_step accounted arrived next
  cases step_carried next with
  | @provider action provider confirmed moved =>
    intro p member
    rcases LineProvider.published_new moved with same | ⟨q, appended, -, -⟩
    · have before : p ∈ s.provider.published := same ▸ member
      rcases h p before with travels | arrived
      · refine Or.inl ?_
        rcases List.mem_append.mp travels with left | lost
        · exact List.mem_append_left _ (List.mem_append_left _ left)
        · exact List.mem_append_right _ lost
      · exact Or.inr arrived
    · have whole : p ∈ s.provider.published ++ [q] := appended ▸ member
      rcases List.mem_append.mp whole with before | new
      · rcases h p before with travels | arrived
        · refine Or.inl ?_
          rcases List.mem_append.mp travels with left | lost
          · exact List.mem_append_left _ (List.mem_append_left _ left)
          · exact List.mem_append_right _ lost
        · exact Or.inr arrived
      · refine Or.inl (List.mem_append_left _ (List.mem_append_right _ ?_))
        simpa [newPublications, appended] using new
  | restart => exact fun p member => (List.not_mem_nil member).elim
  | @arrive publication travels =>
    intro p member
    by_cases same : p = publication
    · exact Or.inr (arrive_arrived (Or.inr same))
    · rcases h p member with travels' | arrived
      · refine Or.inl ?_
        rcases List.mem_append.mp travels' with left | lost
        · exact List.mem_append_left _ ((List.mem_erase_of_ne same).mpr left)
        · exact List.mem_append_right _ lost
      · exact Or.inr (kept p arrived)
  | @lose publication travels =>
    intro p member
    rcases h p member with travels' | arrived
    · refine Or.inl ?_
      rcases List.mem_append.mp travels' with left | lost
      · by_cases same : p = publication
        · exact List.mem_append_right _ (List.mem_append_right _ (List.mem_singleton.mpr same))
        · exact List.mem_append_left _ ((List.mem_erase_of_ne same).mpr left)
      · exact List.mem_append_right _ (List.mem_append_left _ lost)
    · exact Or.inr arrived
  | _ => exact fun p member => (h p member).imp_right (kept p)

/-! ### Bet-maker's side -/

/-- A settlement for this message has committed. -/
def SettledBy (db : Database) (message : EventFinishedMessage) : Prop :=
  ∃ t tx, db.slots t = .committed tx ∧ tx.call = settleCall message

def RolledBack (db : Database) (message : EventFinishedMessage) : Prop :=
  ∃ t tx, db.slots t = .aborted tx ∧ tx.call = settleCall message

/-- The last attempt at this message has failed: it was rolled back, or the reply to its COMMIT was lost. -/
def GivenUp (db : Database) (message : EventFinishedMessage) : Prop :=
  RolledBack db message ∨ SettledBy db message

theorem SettledBy.later {db db' : Database} {message : EventFinishedMessage} (later : db.Later db')
    (h : SettledBy db message) : SettledBy db' message := by
  obtain ⟨t, tx, done, call⟩ := h
  exact ⟨t, tx, later.committed done, call⟩

theorem RolledBack.later {db db' : Database} {message : EventFinishedMessage} (later : db.Later db')
    (h : RolledBack db message) : RolledBack db' message := by
  obtain ⟨t, tx, failed, call⟩ := h
  have slot := later.slots t
  rw [failed] at slot
  exact ⟨t, tx, slot, call⟩

theorem GivenUp.later {db db' : Database} {message : EventFinishedMessage} (later : db.Later db')
    (h : GivenUp db message) : GivenUp db' message :=
  h.imp (RolledBack.later later) (SettledBy.later later)

/-- How far the handler of an unsettled delivery has come. -/
def Handles (service : Service) (h : Nat) (message : EventFinishedMessage) : Prop :=
  match service.handlers h with
  | .idle => False
  | .received handled _ | .attempting handled _ _ | .acked handled _ => handled = message
  | .rejected => GivenUp service.db message

theorem serve_later {s s' : Service} {event : Event} (inv : Inv s.db) (next : serve s event = some s') :
    s.db.Later s'.db := by
  rcases serve_db next with same | ⟨action, moved⟩
  · rw [same]
    exact .refl s.db
  · exact step_later inv moved

theorem Handles.kept {s s' : Service} {h : Nat} {message : EventFinishedMessage} (later : s.db.Later s'.db)
    (same : s'.handlers h = s.handlers h) (handles : Handles s h message) : Handles s' h message := by
  unfold Handles at *
  rw [same]
  cases here : s.handlers h with
  | rejected =>
    rw [here] at handles
    exact handles.later later
  | idle => simp [here] at handles
  | received | attempting | acked => simpa [here] using handles

theorem setHandler_handler {s : Service} {h k : Nat} {handler : Handler} :
    (s.setHandler h handler).handlers k = if k = h then handler else s.handlers k := by
  by_cases same : k = h <;> simp [Service.setHandler, same]

theorem handles_step {s s' : Service} {event : Event} {k : Nat} {message : EventFinishedMessage} (inv : Inv s.db)
    (handling : Handling s) (next : serve s event = some s') (handles : Handles s k message) :
    Handles s' k message := by
  have later := serve_later inv next
  have moved : ∀ (h : Nat) (handler : Handler), s'.handlers k = (if k = h then handler else s.handlers k) →
      (k = h → match handler with
        | .idle => False
        | .received handled _ | .attempting handled _ _ | .acked handled _ => handled = message
        | .rejected => GivenUp s'.db message) → Handles s' k message := by
    intro h handler here own
    by_cases same : k = h
    · rw [if_pos same] at here
      unfold Handles
      rw [here]
      exact own same
    · exact handles.kept later (here.trans (if_neg same))
  cases serve_serves next with
  | @deliver h message' idle supported | @poison h message' idle unsupported =>
    have busy : k ≠ h := by
      rintro rfl
      simp [Handles, idle] at handles
    exact handles.kept later (setHandler_handler.trans (if_neg busy))
  | @attempt h message' attempts t clock now db received begun =>
    refine moved h _ setHandler_handler ?_
    rintro rfl
    simpa [Handles, received] using handles
  | @retry h message' attempts t attempting ended left =>
    refine moved h _ setHandler_handler ?_
    rintro rfl
    simpa [Handles, attempting] using handles
  | @ack h message' attempts t tx attempting done =>
    refine moved h _ setHandler_handler ?_
    rintro rfl
    simpa [Handles, attempting] using handles
  | @reject h message' attempts t attempting ended =>
    refine moved h _ setHandler_handler ?_
    rintro rfl
    obtain ⟨tx', found, call⟩ := handling.attempting _ _ _ _ attempting
    obtain rfl : message' = message := by simpa [Handles, attempting] using handles
    obtain ⟨tx, committed | aborted⟩ := ended
    · obtain rfl : tx = tx' := Option.some.inj ((congrArg Slot.tx committed).symm.trans found)
      exact Or.inr ⟨t, tx, committed, call⟩
    · obtain rfl : tx = tx' := Option.some.inj ((congrArg Slot.tx aborted).symm.trans found)
      exact Or.inl ⟨t, tx, aborted, call⟩
  | _ => exact handles.kept later rfl

/-- What bet-maker has done about the messages that were delivered to it. -/
structure Dispatched (s : Bus) : Prop where
  inv : BetMaker.Inv s.service.db
  handling : Handling s.service
  unacked : ∀ delivery ∈ s.broker.unacked .finished, Handles s.service delivery.1 delivery.2.message
  acked : ∀ p ∈ s.broker.acked .finished, SettledBy s.service.db p.message
  rejected : ∀ p ∈ s.broker.rejected .finished, GivenUp s.service.db p.message

theorem init_dispatched : Dispatched Bus.init where
  inv := BetMaker.start_inv ∅
  handling := start_handling ∅
  unacked delivery member := by cases member
  acked p member := by cases member
  rejected p member := by cases member

theorem served_dispatched {s : Bus} {event : Event} {service : Service} (h : Dispatched s)
    (served : serve s.service event = some service) : Dispatched { s with service } := by
  have later := serve_later h.inv served
  refine ⟨?_, handling_step h.inv h.handling served, ?_, ?_, ?_⟩
  · rcases serve_db served with same | ⟨action, moved⟩
    · change Inv service.db
      rw [same]
      exact h.inv
    · exact BetMaker.step_inv h.inv moved
  · exact fun delivery member => handles_step h.inv h.handling served (h.unacked delivery member)
  · exact fun p member => (h.acked p member).later later
  · exact fun p member => (h.rejected p member).later later

theorem broker_dispatched {s s' : Bus} (h : Dispatched s) (same : s'.service = s.service)
    (unacked : ∀ delivery ∈ s'.broker.unacked .finished, Handles s.service delivery.1 delivery.2.message)
    (acked : ∀ p ∈ s'.broker.acked .finished, SettledBy s.service.db p.message)
    (rejected : ∀ p ∈ s'.broker.rejected .finished, GivenUp s.service.db p.message) : Dispatched s' := by
  refine ⟨?_, ?_, ?_, ?_, ?_⟩ <;> rw [same]
  exacts [h.inv, h.handling, unacked, acked, rejected]

/-- The handler of a delivery begins with its message, because the bus carries supported versions only. -/
theorem delivered_dispatched {s : Bus} {h : Nat} {publication : LineProvider.Publication}
    {broker : Broker Queue LineProvider.Publication} {service : Service} (dispatched : Dispatched s)
    (versioned : publication.message.schemaVersion = schemaVersionSupported)
    (delivered : s.broker.deliver s.topology .finished h = some (publication, broker))
    (served : serve s.service (.handler h (.deliver publication.message)) = some service) :
    Dispatched { s with broker, service } := by
  have after := served_dispatched dispatched served
  obtain ⟨rest, front, room, rfl⟩ := Broker.deliver_ok delivered
  refine broker_dispatched after rfl ?_ after.acked after.rejected
  intro delivery member
  simp only [Function.update_self] at member
  rcases List.mem_append.mp member with before | new
  · exact after.unacked delivery before
  · obtain rfl := List.mem_singleton.mp new
    cases serve_serves served with
    | deliver idle supported => simp [Handles, setHandler_handler]
    | poison idle unsupported => exact absurd versioned unsupported

theorem dispatched_step {s s' : Bus} {traffic : Traffic} (confirmed : Confirmed s) (accounted : Accounted s)
    (h : Dispatched s) (next : s.step traffic = some s') : Dispatched s' := by
  cases step_carried next with
  | @deliver handler publication broker service delivered served =>
    refine delivered_dispatched h (confirmed.versioned publication ?_) delivered served
    obtain ⟨rest, front, -, -⟩ := Broker.deliver_ok delivered
    refine accounted.sent.mem_iff.mpr (List.mem_append_right _ ?_)
    simp [Broker.received, front]
  | @acknowledge handler message t broker acked settled =>
    obtain ⟨publication, member, rfl⟩ := Broker.ack_ok settled
    refine broker_dispatched h rfl (fun delivery left => ?_) (fun p listed => ?_) h.rejected
    · simp only [Function.update_self] at left
      exact h.unacked delivery (List.mem_of_mem_erase left)
    · simp only [Function.update_self] at listed
      rcases List.mem_append.mp listed with before | new
      · exact h.acked p before
      · obtain rfl := List.mem_singleton.mp new
        have handles := h.unacked _ member
        obtain rfl : message = p.message := by simpa [Handles, acked] using handles
        obtain ⟨tx, done, call⟩ := h.handling.acked _ _ _ acked
        exact ⟨t, tx, done, call⟩
  | @deadLetter handler broker rejected settled =>
    obtain ⟨publication, member, same⟩ := Broker.reject_ok settled
    change broker = (s.broker.refuse .finished handler publication).publish s.topology .dlx Queue.finished.name
      publication at same
    subst same
    refine broker_dispatched h rfl (fun delivery left => ?_) (fun p listed => ?_) (fun p listed => ?_)
    · simp only [Broker.publish_unacked, Broker.refuse, Function.update_self] at left
      exact h.unacked delivery (List.mem_of_mem_erase left)
    · rw [Broker.publish_acked] at listed
      exact h.acked p listed
    · simp only [Broker.publish_rejected, Broker.refuse, Function.update_self] at listed
      rcases List.mem_append.mp listed with before | new
      · exact h.rejected p before
      · obtain rfl := List.mem_singleton.mp new
        have handles := h.unacked _ member
        simpa [Handles, rejected] using handles
  | reconnect => exact broker_dispatched h rfl (by simp [Broker.requeue]) h.acked h.rejected
  | crash =>
    have later := sever_later s.service.db
    refine ⟨sever_inv s.service.db, crash_handling s.service, by simp [Broker.requeue], ?_, ?_⟩
    · exact fun p listed => (h.acked p listed).later later
    · exact fun p listed => (h.rejected p listed).later later
  | arrive travels =>
    refine broker_dispatched h rfl (fun delivery left => ?_) (fun p listed => ?_) (fun p listed => ?_)
    · rw [Broker.publish_unacked] at left
      exact h.unacked delivery left
    · rw [Broker.publish_acked] at listed
      exact h.acked p listed
    · rw [Broker.publish_rejected] at listed
      exact h.rejected p listed
  | service own observed served => exact served_dispatched h served
  | provider | restart | lose | declare => exact ⟨h.inv, h.handling, h.unacked, h.acked, h.rejected⟩

structure Delivering (s : Bus) : Prop where
  confirmed : Confirmed s
  accounted : Accounted s
  dispatched : Dispatched s
  located : Located s

theorem init_delivering : Delivering Bus.init where
  confirmed := init_confirmed
  accounted := init_accounted
  dispatched := init_dispatched
  located p member := by cases member

theorem delivering_step {s s' : Bus} {traffic : Traffic} (h : Delivering s) (next : s.step traffic = some s') :
    Delivering s' where
  confirmed := confirmed_step h.confirmed next
  accounted := accounted_step h.accounted next
  dispatched := dispatched_step h.confirmed h.accounted h.dispatched next
  located := located_step h.accounted h.located next

theorem run_delivering {traffic : List Traffic} {s : Bus} (reached : run Bus.step Bus.init traffic = some s) :
    Delivering s :=
  run_invariant (fun _ _ _ => delivering_step) init_delivering reached

end

def sevenPublished : LineProvider.Publication := ⟨1, sevenWon, .eventFinishedWin⟩

/-- Event 7 is created and finished, and the publication arrives. -/
def publishSeven : List Traffic :=
  [.provider (.spawn 0 (.createEvent ⟨7, ⟨false, 150, -2⟩, 90⟩)), .provider (.resume 0), .provider (.advance 10),
   .provider (.advance 10), .provider (.advance 10),
   .provider (.spawn 1 (.setEventState ⟨7, ⟨false, 175, -2⟩, 90, .finishedWin, "r"⟩)), .provider (.resume 1),
   .provider (.advance 20), .provider (.advance 20), .provider (.advance 20), .provider (.advance 20),
   .arrive sevenPublished, .provider (.publishReturns 1)]

end BetSettlement
