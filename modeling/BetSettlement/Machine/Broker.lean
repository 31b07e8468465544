import Mathlib.Data.List.Perm.Basic
import Mathlib.Logic.Function.Basic

/-!
# A message broker

Exchanges route a publication to the queues that are bound to them. A delivery stays with its consumer
until it is acknowledged or rejected, and goes back to its queue when the consumer's connection is lost.
-/

namespace BetSettlement.Machine

inductive ExchangeType where
  | direct | topic
  deriving DecidableEq

def keyWords (key : String) : List (List Char) := key.toList.splitOn '.'

/-- `*` stands for one word, `#` for any number of them. -/
def topicMatches : List (List Char) → List (List Char) → Bool
  | [], key => key.isEmpty
  | word :: pattern, key =>
    if word = ['#'] then key.tails.any (topicMatches pattern)
    else match key with
      | [] => false
      | first :: rest => (word = ['*'] || word = first) && topicMatches pattern rest

def ExchangeType.admits (exchange : ExchangeType) (bindingKey routingKey : String) : Bool :=
  match exchange with
  | .direct => bindingKey = routingKey
  | .topic => topicMatches (keyWords bindingKey) (keyWords routingKey)

structure Binding (X Q : Type) where
  exchange : X
  bindingKey : String
  queue : Q

/-- A queue that has no consumer has no prefetch count either. -/
structure Topology (X Q : Type) where
  exchangeType : X → ExchangeType
  bindings : List (Binding X Q) := []
  deadLetter : Q → Option (X × String) := fun _ => none
  prefetch : Q → Nat := fun _ => 0

/-- `acked`, `rejected` and `unroutable` record what has left the queues, or never came to one. -/
structure Broker (Q M : Type) where
  ready : Q → List M := fun _ => []
  unacked : Q → List (Nat × M) := fun _ => []
  acked : Q → List M := fun _ => []
  rejected : Q → List M := fun _ => []
  unroutable : List M := []

variable {X Q M : Type} [DecidableEq Q]

def Topology.route [DecidableEq X] (topology : Topology X Q) (exchange : X) (routingKey : String) : List Q :=
  (topology.bindings.filter fun binding =>
    binding.exchange = exchange ∧ (topology.exchangeType exchange).admits binding.bindingKey routingKey).map
      Binding.queue

namespace Broker

/-- A queue receives one copy, however many of its bindings match. -/
def publish [DecidableEq X] (b : Broker Q M) (topology : Topology X Q) (exchange : X) (routingKey : String) (m : M) :
    Broker Q M :=
  if topology.route exchange routingKey = [] then { b with unroutable := b.unroutable ++ [m] }
  else { b with ready := fun q => if q ∈ topology.route exchange routingKey then b.ready q ++ [m] else b.ready q }

def deliver (b : Broker Q M) (topology : Topology X Q) (q : Q) (tag : Nat) : Option (M × Broker Q M) :=
  match b.ready q with
  | [] => none
  | m :: rest =>
    if (b.unacked q).length < topology.prefetch q then
      some (m, { b with
        ready := Function.update b.ready q rest
        unacked := Function.update b.unacked q (b.unacked q ++ [(tag, m)]) })
    else none

/-- The delivery leaves its consumer. -/
def withdraw [DecidableEq M] (b : Broker Q M) (q : Q) (tag : Nat) : Option (M × Broker Q M) :=
  ((b.unacked q).find? fun delivery => delivery.1 = tag).map fun delivery =>
    (delivery.2, { b with unacked := Function.update b.unacked q ((b.unacked q).erase delivery) })

def ack [DecidableEq M] (b : Broker Q M) (q : Q) (tag : Nat) : Option (Broker Q M) :=
  (b.withdraw q tag).map fun (m, b) => { b with acked := Function.update b.acked q (b.acked q ++ [m]) }

/-- Without requeueing: the message is published again where the queue sends its dead letters. -/
def reject [DecidableEq X] [DecidableEq M] (b : Broker Q M) (topology : Topology X Q) (q : Q) (tag : Nat) :
    Option (Broker Q M) :=
  (b.withdraw q tag).map fun (m, b) =>
    let b := { b with rejected := Function.update b.rejected q (b.rejected q ++ [m]) }
    match topology.deadLetter q with
    | none => b
    | some (exchange, routingKey) => b.publish topology exchange routingKey m

/-- What the lost connection held goes back to the front of its queue. -/
def requeue (b : Broker Q M) (q : Q) : Broker Q M :=
  { b with
    ready := Function.update b.ready q ((b.unacked q).map Prod.snd ++ b.ready q)
    unacked := Function.update b.unacked q [] }

/-- Everything that has come to a queue, wherever it is now. -/
def received (b : Broker Q M) (q : Q) : List M :=
  b.ready q ++ (b.unacked q).map Prod.snd ++ b.acked q ++ b.rejected q

variable {b b' : Broker Q M} {topology : Topology X Q} {exchange : X} {routingKey : String} {q : Q} {tag : Nat} {m : M}

section
variable [DecidableEq X]

theorem received_publish (b : Broker Q M) (topology : Topology X Q) (exchange : X) (routingKey : String) (m : M)
    (q : Q) : ((b.publish topology exchange routingKey m).received q).Perm
      (b.received q ++ if q ∈ topology.route exchange routingKey then [m] else []) := by
  unfold publish received
  by_cases unrouted : topology.route exchange routingKey = []
  · simp [unrouted]
  · rw [if_neg unrouted]
    by_cases bound : q ∈ topology.route exchange routingKey
    · simp only [bound, if_true]
      have moved : ([m] ++ ((b.unacked q).map Prod.snd ++ b.acked q ++ b.rejected q)).Perm
          ((b.unacked q).map Prod.snd ++ b.acked q ++ b.rejected q ++ [m]) := List.perm_append_comm
      simpa [List.append_assoc] using moved.append_left (b.ready q)
    · simp [bound]

theorem ready_publish (q : Q) : (b.publish topology exchange routingKey m).ready q =
    if q ∈ topology.route exchange routingKey then b.ready q ++ [m] else b.ready q := by
  unfold publish
  split
  · rename_i unrouted
    simp [unrouted]
  · rfl

theorem unroutable_publish : (b.publish topology exchange routingKey m).unroutable =
    b.unroutable ++ if topology.route exchange routingKey = [] then [m] else [] := by
  unfold publish
  split <;> simp_all

theorem publish_unacked : (b.publish topology exchange routingKey m).unacked = b.unacked := by
  unfold publish
  split <;> rfl

theorem publish_acked : (b.publish topology exchange routingKey m).acked = b.acked := by
  unfold publish
  split <;> rfl

theorem publish_rejected : (b.publish topology exchange routingKey m).rejected = b.rejected := by
  unfold publish
  split <;> rfl

end

theorem deliver_ok (h : b.deliver topology q tag = some (m, b')) : ∃ rest, b.ready q = m :: rest ∧
    (b.unacked q).length < topology.prefetch q ∧ b' = { b with
      ready := Function.update b.ready q rest
      unacked := Function.update b.unacked q (b.unacked q ++ [(tag, m)]) } := by
  unfold deliver at h
  split at h
  · cases h
  · rename_i first rest front
    split at h
    · rename_i room
      obtain ⟨rfl, rfl⟩ := Prod.mk.inj (Option.some.inj h)
      exact ⟨rest, front, room, rfl⟩
    · cases h

theorem received_deliver (h : b.deliver topology q tag = some (m, b')) (q' : Q) :
    (b'.received q').Perm (b.received q') := by
  obtain ⟨rest, front, -, rfl⟩ := deliver_ok h
  unfold received
  by_cases same : q' = q
  · subst same
    have moved : (rest ++ (b.unacked q').map Prod.snd ++ [m]).Perm ([m] ++ (rest ++ (b.unacked q').map Prod.snd)) :=
      List.perm_append_comm
    simpa [front, List.append_assoc] using moved.append_right (b.acked q' ++ b.rejected q')
  · simp [same]

theorem received_requeue (b : Broker Q M) (q q' : Q) : ((b.requeue q).received q').Perm (b.received q') := by
  unfold received requeue
  by_cases same : q' = q
  · subst same
    have moved : ((b.unacked q').map Prod.snd ++ b.ready q').Perm (b.ready q' ++ (b.unacked q').map Prod.snd) :=
      List.perm_append_comm
    simpa [List.append_assoc] using moved.append_right (b.acked q' ++ b.rejected q')
  · simp [same]

variable [DecidableEq M]

theorem withdraw_ok (h : b.withdraw q tag = some (m, b')) : (tag, m) ∈ b.unacked q ∧
    b' = { b with unacked := Function.update b.unacked q ((b.unacked q).erase (tag, m)) } := by
  obtain ⟨delivery, found, same⟩ := Option.map_eq_some_iff.mp h
  obtain ⟨rfl, rfl⟩ := Prod.mk.inj same
  have tagged : delivery.1 = tag := by simpa using List.find?_some found
  subst tagged
  exact ⟨List.mem_of_find?_eq_some found, rfl⟩

/-- Withdrawing moves one message out of the deliveries. -/
theorem withdraw_perm {deliveries : List (Nat × M)} (member : (tag, m) ∈ deliveries) :
    (deliveries.map Prod.snd).Perm (m :: (deliveries.erase (tag, m)).map Prod.snd) :=
  (List.perm_cons_erase member).map Prod.snd

theorem ack_ok (h : b.ack q tag = some b') : ∃ m, (tag, m) ∈ b.unacked q ∧ b' = { b with
    unacked := Function.update b.unacked q ((b.unacked q).erase (tag, m))
    acked := Function.update b.acked q (b.acked q ++ [m]) } := by
  obtain ⟨⟨m, middle⟩, withdrawn, rfl⟩ := Option.map_eq_some_iff.mp h
  obtain ⟨member, rfl⟩ := withdraw_ok withdrawn
  exact ⟨m, member, rfl⟩

theorem received_ack (h : b.ack q tag = some b') (q' : Q) : (b'.received q').Perm (b.received q') := by
  obtain ⟨m, member, rfl⟩ := ack_ok h
  unfold received
  by_cases same : q' = q
  · subst same
    have moved : (((b.unacked q').erase (tag, m)).map Prod.snd ++ (b.acked q' ++ [m])).Perm
        ((b.unacked q').map Prod.snd ++ b.acked q') := by
      refine .trans ?_ ((withdraw_perm member).symm.append_right _)
      rw [← List.append_assoc]
      exact List.perm_append_singleton m _
    simpa [List.append_assoc] using (moved.append_left (b.ready q')).append_right (b.rejected q')
  · simp [same]

/-- The rejected message and where it stands, before its copy goes to the dead letters. -/
def refuse (b : Broker Q M) (q : Q) (tag : Nat) (m : M) : Broker Q M := { b with
  unacked := Function.update b.unacked q ((b.unacked q).erase (tag, m))
  rejected := Function.update b.rejected q (b.rejected q ++ [m]) }

theorem reject_ok [DecidableEq X] (h : b.reject topology q tag = some b') : ∃ m, (tag, m) ∈ b.unacked q ∧
    b' = match topology.deadLetter q with
      | none => b.refuse q tag m
      | some (exchange, routingKey) => (b.refuse q tag m).publish topology exchange routingKey m := by
  obtain ⟨⟨m, middle⟩, withdrawn, rfl⟩ := Option.map_eq_some_iff.mp h
  obtain ⟨member, rfl⟩ := withdraw_ok withdrawn
  exact ⟨m, member, rfl⟩

theorem received_refuse (member : (tag, m) ∈ b.unacked q) (q' : Q) :
    ((b.refuse q tag m).received q').Perm (b.received q') := by
  unfold received refuse
  by_cases same : q' = q
  · subst same
    have moved : (((b.unacked q').erase (tag, m)).map Prod.snd ++ (b.acked q' ++ (b.rejected q' ++ [m]))).Perm
        ((b.unacked q').map Prod.snd ++ (b.acked q' ++ b.rejected q')) := by
      refine .trans ?_ ((withdraw_perm member).symm.append_right _)
      rw [← List.append_assoc (b.acked q'), ← List.append_assoc]
      exact List.perm_append_singleton m _
    simpa [List.append_assoc] using moved.append_left (b.ready q')
  · simp [same]

end Broker

end BetSettlement.Machine
