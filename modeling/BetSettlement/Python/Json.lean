import BetSettlement.Python.Dict
import Mathlib.Data.List.Induction

/-! What `json.loads` makes of a document. -/

namespace BetSettlement.Python

/-- `literal` is the text of the number. The members of an object stand as in the document. -/
inductive JsonValue where
  | null
  | bool (b : Bool)
  | number (literal : String)
  | str (s : String)
  | list (items : List JsonValue)
  | dict (members : List (String × JsonValue))

namespace JsonValue

mutual

/-- How many containers the decoder is inside of at the deepest point. -/
def depth : JsonValue → Nat
  | .null | .bool _ | .number _ | .str _ => 0
  | .list items => depthItems items + 1
  | .dict members => depthMembers members + 1

def depthItems : List JsonValue → Nat
  | [] => 0
  | item :: rest => max item.depth (depthItems rest)

def depthMembers : List (String × JsonValue) → Nat
  | [] => 0
  | (_, value) :: rest => max value.depth (depthMembers rest)

end

end JsonValue

/-- A member replaces an earlier one of the same name. -/
def Dict.ofMembers {ν : Type} (members : List (String × ν)) : Dict String ν :=
  members.foldl (fun d member => d.setItem member.1 member.2) ∅

theorem keys_ofMembers {ν : Type} {members : List (String × ν)} :
    (Dict.ofMembers members).keys = [] ↔ members = [] := by
  rcases List.eq_nil_or_concat' members with rfl | ⟨front, last, rfl⟩
  · exact iff_of_true rfl rfl
  · refine iff_of_false (fun empty => ?_) (by simp)
    have found : (Dict.ofMembers (front ++ [last])).lookup last.1 = some last.2 := by
      simp [Dict.ofMembers]
    have member : last.1 ∈ (Dict.ofMembers (front ++ [last])).keys :=
      AList.mem_keys.mp (AList.lookup_isSome.mp (by rw [found]; rfl))
    rw [empty] at member
    cases member

namespace Dict
variable {ν : Type} {members : List (String × ν)}

theorem ofMembers_concat (last : String × ν) :
    ofMembers (members ++ [last]) = (ofMembers members).setItem last.1 last.2 := by
  simp [ofMembers]

theorem mem_ofMembers {name : String} : name ∈ ofMembers members ↔ name ∈ members.map Prod.fst := by
  induction members using List.reverseRecOn with
  | nil => exact iff_of_false (AList.notMem_empty name) List.not_mem_nil
  | append_singleton front last ih =>
    rw [ofMembers_concat, ← AList.lookup_isSome, lookup_setItem, List.map_append, List.mem_append]
    by_cases same : name = last.1
    · subst same
      simp
    · rw [if_neg same, AList.lookup_isSome, ih]
      simp [same]

/-- Members of different names are all found. -/
theorem lookup_ofMembers (distinct : (members.map Prod.fst).Nodup) {name : String} {value : ν}
    (member : (name, value) ∈ members) : (ofMembers members).lookup name = some value := by
  induction members using List.reverseRecOn with
  | nil => cases member
  | append_singleton front last ih =>
    rw [List.map_append, List.nodup_append] at distinct
    obtain ⟨before, -, apart⟩ := distinct
    rw [ofMembers_concat, lookup_setItem]
    rcases List.mem_append.mp member with earlier | here
    · have other : name ≠ last.1 := apart name (List.mem_map_of_mem earlier) last.1 (by simp)
      rw [if_neg other, ih before earlier]
    · obtain rfl := List.mem_singleton.mp here
      exact if_pos rfl

end Dict

/-- How deep the decoder may go from where it is called before the interpreter raises `RecursionError`. -/
class Interpreter where
  recursionLimit : Nat

/-- The body of a response. `undecoded` is one that its Content-Encoding does not decode, and `rejected` is a text
that `json.loads` raises a `ValueError` on. -/
inductive Content where
  | undecoded
  | rejected
  | json (value : JsonValue)

end BetSettlement.Python
