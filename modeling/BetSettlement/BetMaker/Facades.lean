import BetSettlement.BetMaker.Service
import BetSettlement.BetMaker.UnitOfWork
import BetSettlement.Payload
import BetSettlement.Python.Json

/-!
# Line-provider over HTTP

`HttpEventLookup.get_event` and the proxy of `GET /events` share the retries and the clauses that
turn an exception into `LineProviderUnavailable`.
-/

namespace BetSettlement.BetMaker
open Python Std.Do

set_option mvcgen.warning false

/-- `JSONDecodeError` and `UnicodeDecodeError` are ValueErrors. httpx's `DecodingError` is no `TransportError`. -/
inductive Exn where
  | database (exc : Exc)
  | httpStatusError (statusCode : Nat)
  | transportError (name : String)
  | decodingError
  | keyError (key : String)
  | valueError
  | validationError
  | typeError
  | attributeError
  | recursionError
  | lineProviderUnavailable (reason : String)
  | eventNotBettable (reason : String)
  deriving DecidableEq

structure Response where
  statusCode : Nat
  content : Content

inductive Outcome where
  | transportError (name : String)
  | response (response : Response)

def http5xxFloor : Nat := 500

def isRetryable : Exn → Bool
  | .transportError _ => true
  | .httpStatusError statusCode => http5xxFloor ≤ statusCode
  | _ => false

def Response.isSuccess (response : Response) : Bool := 200 ≤ response.statusCode ∧ response.statusCode ≤ 299

def Response.raiseForStatus (response : Response) : Except Exn Unit :=
  if response.isSuccess then .ok () else .error (.httpStatusError response.statusCode)

/-- The body is read and decoded before the caller sees the status. -/
def Response.aread (response : Response) : Except Exn Response :=
  match response.content with
  | .undecoded => .error .decodingError
  | .rejected | .json _ => .ok response

def Response.json [Interpreter] (response : Response) : Except Exn JsonValue :=
  match response.content with
  | .undecoded => .error .decodingError
  | .rejected => .error .valueError
  | .json value => if Interpreter.recursionLimit < value.depth then .error .recursionError else .ok value

/-! ### Decoding -/

/-- `uuid` is `UUID(s)`, `none` where it raises `ValueError`. `datetime` is pydantic's, with or without an offset. -/
class Decoding extends Lax JsonValue where
  uuidOfHex : String → Option UUID
  datetime : JsonValue → Option Datetime

def EventState.ofValue : String → Option EventState
  | "NEW" => some .new
  | "FINISHED_WIN" => some .finishedWin
  | "FINISHED_LOSE" => some .finishedLose
  | _ => none

/-- `value[key]`. -/
def getItem (value : JsonValue) (key : String) : Except Exn JsonValue :=
  match value with
  | .dict members =>
    match (Dict.ofMembers members).lookup key with
    | some item => .ok item
    | none => .error (.keyError key)
  | _ => .error .typeError

/-- `UUID(value)` asks for one argument that is not None, and calls the `replace` of a string. -/
def uuidOf [Decoding] : JsonValue → Except Exn UUID
  | .str s =>
    match Decoding.uuidOfHex s with
    | some eventId => .ok eventId
    | none => .error .valueError
  | .null => .error .typeError
  | _ => .error .attributeError

def EventSnapshot.create [Decoding] (eventId : UUID) (deadline state : JsonValue) : Except Exn EventSnapshot :=
  match Decoding.datetime deadline, Lax.enum EventState.ofValue state with
  | some deadline, some state => .ok { eventId, deadline, state }
  | _, _ => .error .validationError

def EventSnapshot.ofPayload [Decoding] (payload : JsonValue) : Except Exn EventSnapshot := do
  let eventId ← uuidOf (← getItem payload "event_id")
  let deadline ← getItem payload "deadline"
  let state ← getItem payload "state"
  EventSnapshot.create eventId deadline state

/-- Bet-maker's copy of line-provider's model. -/
structure EventRead where
  eventId : UUID
  coefficient : Decimal
  deadline : Datetime
  state : EventState

def EventRead.fields : List String := ["event_id", "coefficient", "deadline", "state"]

def EventRead.modelValidate [Decoding] : JsonValue → Except Exn EventRead
  | .dict members =>
    let payload := Dict.ofMembers members
    let read : Option EventRead := if ∀ name ∈ payload.keys, name ∈ fields then do
        let eventId ← (payload.lookup "event_id").bind Lax.uuid
        let coefficient ← (payload.lookup "coefficient").bind Lax.decimal
        let deadline ← (payload.lookup "deadline").bind Decoding.datetime
        let state ← (payload.lookup "state").bind (Lax.enum EventState.ofValue)
        some { eventId, coefficient, deadline, state }
      else none
    match read with
    | some read => .ok read
    | none => .error .validationError
  | _ => .error .validationError

/-- `for item in value`: the keys of a dict, the characters of a string. -/
def iterate : JsonValue → Except Exn (List JsonValue)
  | .list items => .ok items
  | .dict members => .ok ((Dict.ofMembers members).keys.reverse.map .str)
  | .str s => .ok (s.toList.map fun c => .str (String.singleton c))
  | _ => .error .typeError

/-! ### Requests -/

/-- A client that has sent `n` requests meets outcome `n` next. -/
def AsyncClient.get (outcomes : Nat → Outcome) : EStateM Exn Nat Response := fun n =>
  match outcomes n with
  | .transportError name => .error (.transportError name) (n + 1)
  | .response response =>
    match response.aread with
    | .ok response => .ok response (n + 1)
    | .error exc => .error exc (n + 1)

def raiseFrom {σ α : Type} : Except Exn α → EStateM Exn σ α
  | .ok a => pure a
  | .error exc => throw exc

/-- The backoff is left out: nothing but the clock changes in it. -/
def makeRetryDecorator [Tenacity] (attempts : Nat) {α : Type} (call : EStateM Exn Nat α) : EStateM Exn Nat α :=
  retry attempts isRetryable (fun _ _ n => n) call

/-- The `except` clauses. -/
def unavailable : Exn → Exn
  | .httpStatusError statusCode => .lineProviderUnavailable ("HTTPStatusError: " ++ toString statusCode)
  | .transportError name => .lineProviderUnavailable name
  | .keyError _ | .valueError | .validationError =>
    .lineProviderUnavailable "malformed payload from line-provider"
  | exc => exc

section
variable [Interpreter] [Decoding]

/-- `_call` once the response is there: 404 comes before `raise_for_status`. -/
def HttpEventLookup.read (response : Response) : Except Exn (Option EventSnapshot) :=
  if response.statusCode = 404 then .ok none
  else do
    response.raiseForStatus
    let payload ← response.json
    return some (← EventSnapshot.ofPayload payload)

def HttpEventLookup.getEvent [Tenacity] (attempts : Nat) (outcomes : Nat → Outcome) :
    EStateM Exn Nat (Option EventSnapshot) := do
  try
    makeRetryDecorator attempts do
      let response ← AsyncClient.get outcomes
      raiseFrom (HttpEventLookup.read response)
  catch exc => throw (unavailable exc)

/-- `_call` of `list_active_events`. -/
def readEvents (response : Response) : Except Exn (List EventRead) := do
  response.raiseForStatus
  let items ← iterate (← response.json)
  items.mapM EventRead.modelValidate

def listActiveEvents [Tenacity] (attempts : Nat) (outcomes : Nat → Outcome) : EStateM Exn Nat (List EventRead) := do
  try
    makeRetryDecorator attempts do
      let response ← AsyncClient.get outcomes
      raiseFrom (readEvents response)
  catch exc => throw (unavailable exc)

end

/-- How a call ends, but for the count of its requests. -/
def answerOf {α : Type} : EStateM.Result Exn Nat α → Except Exn α
  | .ok a _ => .ok a
  | .error exc _ => .error exc

/-- The lookup of an event whose requests meet `outcomes`. -/
def HttpEventLookup.answer [Interpreter] [Decoding] [Tenacity] (attempts : Nat) (outcomes : Nat → Outcome) :
    Except Exn (Option EventSnapshot) :=
  answerOf (HttpEventLookup.getEvent attempts outcomes 0)

/-- The status that `GET /events` answers with. -/
def getEventsStatus : EStateM.Result Exn Nat (List EventRead) → Nat
  | .ok _ _ => 200
  | .error (.lineProviderUnavailable _) _ => 503
  | .error _ _ => 500

/-! ### One decoder -/

def natOf (base : Nat) (digit : Char → Option Nat) (chars : List Char) : Option Nat :=
  chars.foldlM (fun n c => (digit c).map fun value => base * n + value) 0

def decimalDigit (c : Char) : Option Nat := if c.isDigit then some (c.toNat - '0'.toNat) else none

def hexDigit (c : Char) : Option Nat :=
  if c.isDigit then some (c.toNat - '0'.toNat)
  else if 'a' ≤ c ∧ c ≤ 'f' then some (c.toNat - 'a'.toNat + 10)
  else none

def hexUuid (s : String) : Option UUID :=
  let chars := s.toList.filter (· ≠ '-')
  if chars.length = 32 then (natOf 16 hexDigit chars).map (BitVec.ofNat 128) else none

/-- Days since the epoch in the Gregorian calendar, whose years begin in March here. -/
def daysOf (year month day : Nat) : Int :=
  let y : Int := if month ≤ 2 then year - 1 else year
  let m : Int := if month ≤ 2 then month + 9 else month - 3
  365 * y + y / 4 - y / 100 + y / 400 + (153 * m + 2) / 5 + day - 719469

/-- `YYYY-MM-DDTHH:MM:SS`, alone, with `Z` or with the offset of UTC. -/
def isoDatetime (s : String) : Option Datetime := do
  let field := fun start length => natOf 10 decimalDigit ((s.toList.drop start).take length)
  let days := daysOf (← field 0 4) (← field 5 2) (← field 8 2)
  let seconds := 86400 * days + 3600 * (← field 11 2) + 60 * (← field 14 2) + (← field 17 2)
  if s.length < 19 then none
  else if s.length = 19 then some (.naive (1000000 * seconds))
  else if s.toList.drop 19 = ['Z'] ∨ s.toList.drop 19 = "+00:00".toList then some (.aware (1000000 * seconds))
  else none

def plainDecimal (s : String) : Option Decimal :=
  let whole := s.toList.takeWhile (· ≠ '.')
  let places := (s.toList.dropWhile (· ≠ '.')).tail
  (natOf 10 decimalDigit (whole ++ places)).map fun digits => ⟨false, digits, -places.length⟩

instance : Decoding where
  int
    | .number literal => (natOf 10 decimalDigit literal.toList).map Int.ofNat
    | _ => none
  uuid
    | .str s => hexUuid s
    | _ => none
  enum ofValue
    | .str s => ofValue s
    | _ => none
  decimal
    | .number s | .str s => plainDecimal s
    | _ => none
  awareDatetime
    | .str s =>
      match isoDatetime s with
      | some (.aware instant) => some instant
      | _ => none
    | _ => none
  str
    | .str s => some s
    | _ => none
  uuidOfHex := hexUuid
  datetime
    | .str s => isoDatetime s
    | _ => none

instance : Interpreter where
  recursionLimit := 1000

/-- An event of line-provider's as `GET /event/{id}` answers it. -/
def eventSeven (deadline state : String) : JsonValue :=
  .dict [("event_id", .str "00000000-0000-0000-0000-000000000007"), ("coefficient", .str "1.75"),
    ("deadline", .str deadline), ("state", .str state)]

end BetSettlement.BetMaker
