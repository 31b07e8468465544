import BetSettlement.BetMaker.Crash
import BetSettlement.Machine.Broker
import BetSettlement.System

/-!
# The bus between the services

`bsw.events` is a topic exchange. Bet-maker's queue is bound to it by a wildcard, holds at most ten deliveries
that are not settled yet, and sends what is rejected to a dead-letter queue. A publication can be lost on
its way to the broker, and a delivery comes again when bet-maker's connection is lost or its process ends.
-/

namespace BetSettlement
open Python Machine BetMaker

def LineProvider.RoutingKey.text : LineProvider.RoutingKey → String
  | .eventFinishedWin => "event.finished.win"
  | .eventFinishedLose => "event.finished.lose"

def eventFinishedWildcard : String := "event.finished.*"

inductive Exchange where
  | events | dlx
  deriving DecidableEq

inductive Queue where
  | finished | dlq
  deriving DecidableEq

def Queue.name : Queue → String
  | .finished => "bet_maker.events.finished"
  | .dlq => "bet_maker.events.finished.dlq"

/-- Line-provider declares the first exchange alone, bet-maker everything. -/
def declarations (betMaker : Bool) : Topology Exchange Queue where
  exchangeType
    | .events => .topic
    | .dlx => .direct
  bindings :=
    if betMaker then [⟨.events, eventFinishedWildcard, .finished⟩, ⟨.dlx, Queue.finished.name, .dlq⟩] else []
  deadLetter
    | .finished => some (.dlx, Queue.finished.name)
    | .dlq => none
  prefetch
    | .finished => 10
    | .dlq => 0

theorem route_finished (key : LineProvider.RoutingKey) :
    (declarations true).route .events key.text = [.finished] := by
  cases key <;> decide

theorem route_dlq : (declarations true).route .dlx Queue.finished.name = [.dlq] := by decide

theorem route_undeclared (exchange : Exchange) (key : String) : (declarations false).route exchange key = [] := rfl

variable [Pydantic]

/-- `sent` lists every call of `publish`. A call that has not returned has its publication on the `wire`, or it
was `lost` there. What a restart of line-provider leaves of them is `abandoned`. -/
structure Bus where
  provider : LineProvider.State
  sent : List LineProvider.Publication := []
  wire : List LineProvider.Publication := []
  lost : List LineProvider.Publication := []
  abandoned : List LineProvider.Publication := []
  declared : Bool := false
  broker : Broker Queue LineProvider.Publication := {}
  service : Service

def Bus.init : Bus := { provider := LineProvider.init, service := Service.start ∅ }

def Bus.topology (s : Bus) : Topology Exchange Queue := declarations s.declared

/-- The same services, on a channel that keeps whatever was sent. -/
def Bus.system (s : Bus) : System :=
  { provider := s.provider, channel := s.sent.map LineProvider.Publication.message, service := s.service }

/-- A delivery is tagged with the number of its handler. `restart` is line-provider's, `crash` is bet-maker's. -/
inductive Traffic where
  | provider (action : LineProvider.Action)
  | restart
  | arrive (publication : LineProvider.Publication)
  | lose (publication : LineProvider.Publication)
  | declare
  | deliver (h : Nat)
  | acknowledge (h : Nat)
  | deadLetter (h : Nat)
  | reconnect
  | crash
  | service (event : Event)

/-- `publish` returns when the broker has confirmed the publication. -/
def Bus.confirms (s : Bus) : LineProvider.Action → Bool
  | .publishReturns t => (s.wire ++ s.lost).all fun publication => publication.task ≠ t
  | _ => true

def newPublications (before after : LineProvider.State) : List LineProvider.Publication :=
  after.published.drop before.published.length

def BetMaker.Event.fromBroker : Event → Bool
  | .handler _ (.deliver _) => true
  | _ => false

def Bus.step (s : Bus) : Traffic → Option Bus
  | .provider action =>
    if s.confirms action then (LineProvider.step s.provider action).map fun provider =>
      { s with
        provider
        sent := s.sent ++ newPublications s.provider provider
        wire := s.wire ++ newPublications s.provider provider }
    else none
  | .restart =>
    some { s with
      provider := LineProvider.init, wire := [], lost := [], abandoned := s.abandoned ++ s.wire ++ s.lost }
  | .arrive publication =>
    if publication ∈ s.wire then
      some { s with
        wire := s.wire.erase publication
        broker := s.broker.publish s.topology .events publication.routingKey.text publication }
    else none
  | .lose publication =>
    if publication ∈ s.wire then
      some { s with wire := s.wire.erase publication, lost := s.lost ++ [publication] }
    else none
  | .declare => some { s with declared := true }
  | .deliver h =>
    match s.broker.deliver s.topology .finished h with
    | none => none
    | some (publication, broker) =>
      (serve s.service (.handler h (.deliver publication.message))).map fun service => { s with broker, service }
  | .acknowledge h =>
    match s.service.handlers h with
    | .acked _ _ => (s.broker.ack .finished h).map fun broker => { s with broker }
    | _ => none
  | .deadLetter h =>
    match s.service.handlers h with
    | .rejected => (s.broker.reject s.topology .finished h).map fun broker => { s with broker }
    | _ => none
  | .reconnect => some { s with broker := s.broker.requeue .finished }
  | .crash => some { s with broker := s.broker.requeue .finished, service := s.service.crash }
  | .service event =>
    if event.fromBroker = false ∧ s.system.observes event = true then
      (serve s.service event).map fun service => { s with service }
    else none

inductive Carried (s : Bus) : Traffic → Bus → Prop where
  | provider {action provider} (confirmed : s.confirms action = true)
      (moved : LineProvider.step s.provider action = some provider) :
      Carried s (.provider action) { s with
        provider
        sent := s.sent ++ newPublications s.provider provider
        wire := s.wire ++ newPublications s.provider provider }
  | restart : Carried s .restart { s with
      provider := LineProvider.init, wire := [], lost := [], abandoned := s.abandoned ++ s.wire ++ s.lost }
  | arrive {publication} (travels : publication ∈ s.wire) : Carried s (.arrive publication) { s with
      wire := s.wire.erase publication
      broker := s.broker.publish s.topology .events publication.routingKey.text publication }
  | lose {publication} (travels : publication ∈ s.wire) : Carried s (.lose publication) { s with
      wire := s.wire.erase publication, lost := s.lost ++ [publication] }
  | declare : Carried s .declare { s with declared := true }
  | deliver {h publication broker service}
      (delivered : s.broker.deliver s.topology .finished h = some (publication, broker))
      (served : serve s.service (.handler h (.deliver publication.message)) = some service) :
      Carried s (.deliver h) { s with broker, service }
  | acknowledge {h message t broker} (acked : s.service.handlers h = .acked message t)
      (settled : s.broker.ack .finished h = some broker) : Carried s (.acknowledge h) { s with broker }
  | deadLetter {h broker} (rejected : s.service.handlers h = .rejected)
      (settled : s.broker.reject s.topology .finished h = some broker) :
      Carried s (.deadLetter h) { s with broker }
  | reconnect : Carried s .reconnect { s with broker := s.broker.requeue .finished }
  | crash : Carried s .crash { s with broker := s.broker.requeue .finished, service := s.service.crash }
  | service {event service} (own : event.fromBroker = false) (observed : s.system.observes event = true)
      (served : serve s.service event = some service) : Carried s (.service event) { s with service }

theorem step_carried {s s' : Bus} {traffic : Traffic} (h : s.step traffic = some s') : Carried s traffic s' := by
  cases traffic with
  | provider action =>
    simp only [Bus.step] at h
    split at h
    · rename_i confirmed
      obtain ⟨provider, moved, rfl⟩ := Option.map_eq_some_iff.mp h
      exact .provider confirmed moved
    · cases h
  | restart =>
    obtain rfl := Option.some.inj h
    exact .restart
  | arrive publication =>
    simp only [Bus.step] at h
    split at h
    · rename_i travels
      obtain rfl := Option.some.inj h
      exact .arrive travels
    · cases h
  | lose publication =>
    simp only [Bus.step] at h
    split at h
    · rename_i travels
      obtain rfl := Option.some.inj h
      exact .lose travels
    · cases h
  | declare =>
    obtain rfl := Option.some.inj h
    exact .declare
  | deliver handler =>
    simp only [Bus.step] at h
    split at h
    · cases h
    · rename_i publication broker delivered
      obtain ⟨service, served, rfl⟩ := Option.map_eq_some_iff.mp h
      exact .deliver delivered served
  | acknowledge handler =>
    simp only [Bus.step] at h
    split at h
    · rename_i message t acked
      obtain ⟨broker, settled, rfl⟩ := Option.map_eq_some_iff.mp h
      exact .acknowledge acked settled
    · cases h
  | deadLetter handler =>
    simp only [Bus.step] at h
    split at h
    · rename_i rejected
      obtain ⟨broker, settled, rfl⟩ := Option.map_eq_some_iff.mp h
      exact .deadLetter rejected settled
    · cases h
  | reconnect =>
    obtain rfl := Option.some.inj h
    exact .reconnect
  | crash =>
    obtain rfl := Option.some.inj h
    exact .crash
  | service event =>
    simp only [Bus.step] at h
    split at h
    · rename_i allowed
      obtain ⟨service, served, rfl⟩ := Option.map_eq_some_iff.mp h
      exact .service allowed.1 allowed.2 served
    · cases h

end BetSettlement
