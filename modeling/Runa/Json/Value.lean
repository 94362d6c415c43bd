import Mathlib.Data.Char
import Mathlib.Data.List.Induction
import Mathlib.Data.List.Lex
import Runa.Store.Ordered
import Runa.Stream.Utf8

/-!
# JSON values

`serde_json::Value` of the default build: an object is a `BTreeMap`, which is
a list of members in key order, so that equal values are equal terms.  A
number is a `u64`, a negative `i64` or a float, the last as its bits.
-/

namespace Runa.Json

open Runa.Stream.Utf8
open Runa.Store

/-- `serde_json::Number` -/
inductive Number where
  | nat (value : Nat)
  /-- The number `-(below + 1)`. -/
  | neg (below : Nat)
  | float (bits : UInt64)
deriving DecidableEq, Repr

/-- `serde_json::Value` -/
inductive Value where
  | null
  | bool (value : Bool)
  | number (value : Number)
  | string (value : Text)
  | array (items : List Value)
  | object (members : List (Text × Value))

namespace Value

/-- A `u64`, `u32` or `usize` as a value. -/
def nat (value : Nat) : Value :=
  .number (.nat value)

/-- A string literal as a value. -/
def str (value : String) : Value :=
  .string value.toList

/-- Members put one after the other into an empty object. -/
def ofMembers (members : List (Text × Value)) : Value :=
  .object (members.foldl
    (fun object member => Ordered.put member.1 member.2 object) [])

/-- An object literal of `json!`. -/
def obj (members : List (String × Value)) : Value :=
  ofMembers (members.map fun member => (member.1.toList, member.2))

/-- `Value::get` with a key -/
def get (key : String) : Value → Option Value
  | .object members => Ordered.find key.toList members
  | _ => none

/-- `Value::get` with a position -/
def item (position : Nat) : Value → Option Value
  | .array items => items[position]?
  | _ => none

def asStr : Value → Option Text
  | .string value => some value
  | _ => none

/-- `as_u64`: a number that is a `u64`, which a float never is. -/
def asU64 : Value → Option Nat
  | .number (.nat value) => some value
  | _ => none

def asArray : Value → Option (List Value)
  | .array items => some items
  | _ => none

/-- `get("type")` as a string, which tells what an object is. -/
def type (value : Value) : Option String :=
  ((value.get "type").bind asStr).map String.ofList

/-- `value[key] = member`, which the program only does to objects. -/
def set (value : Value) (key : String) (member : Value) : Value :=
  match value with
  | .object members => .object (Ordered.put key.toList member members)
  | .null => .object [(key.toList, member)]
  | other => other

/-- The member that was put in last is the one that counts. -/
@[simp]
theorem get_obj (key : String) (members : List (String × Value)) :
    (obj members).get key =
      (members.reverse.find? fun member => member.1 = key).map
        Prod.snd := by
  show Ordered.find key.toList (List.foldl _ _ _) = _
  rw [List.foldl_map]
  induction members using List.reverseRecOn with
  | nil => rfl
  | append_singleton before last ih =>
      rw [List.foldl_append, List.reverse_append, List.reverse_singleton,
        List.singleton_append, List.foldl_cons, List.foldl_nil]
      by_cases same : last.1 = key
      · rw [List.find?_cons_of_pos (by simpa using same), same,
          Ordered.find_put_self]
        rfl
      · rw [List.find?_cons_of_neg (by simpa using same), ← ih]
        apply Ordered.find_put_of_ne
        exact fun equal => same (String.toList_inj.mp equal).symm

@[simp]
theorem set_obj (key : String) (member : Value)
    (members : List (String × Value)) :
    (obj members).set key member = obj (members ++ [(key, member)]) := by
  show Value.object (Ordered.put _ _ (List.foldl _ _ _)) = _
  rw [obj, ofMembers, List.map_append, List.foldl_append]
  rfl

/-- A member that is set leaves the others. -/
theorem get_set_of_ne {key other : String} (apart : key ≠ other)
    (value member : Value) :
    (value.set other member).get key = value.get key := by
  have distinct : key.toList ≠ other.toList :=
    fun equal => apart (String.toList_inj.mp equal)
  cases value with
  | object members => exact Ordered.find_put_of_ne distinct member members
  | null => exact Ordered.find_put_of_ne distinct member []
  | _ => rfl

/-- Of two members with one key the last stays. -/
theorem obj_last (members : List (String × Value)) (key : String)
    (old new : Value) :
    obj (members ++ [(key, old)] ++ [(key, new)]) =
      obj (members ++ [(key, new)]) := by
  simp [obj, ofMembers]

@[simp]
theorem asStr_str (value : String) : (str value).asStr = some value.toList :=
  rfl

@[simp]
theorem asStr_string (value : Text) : (string value).asStr = some value :=
  rfl

@[simp]
theorem asU64_nat (value : Nat) : (nat value).asU64 = some value :=
  rfl

end Value

/-! ## Reading and printing -/

/--
What the program uses of `serde_json`: `from_str` into a `Value`, where an
error is the text it prints as, and `to_string` of a `Value`.
-/
structure Serde where
  parse : Text → Except Text Value
  print : Value → Text

/--
The values which are printed so that they read back: no floats, numbers
within `u64` and `i64`, and no more than so many levels of nesting.
-/
inductive Plain : Nat → Value → Prop
  | null {depth : Nat} : Plain depth .null
  | bool {depth : Nat} (value : Bool) : Plain depth (.bool value)
  | nat {depth value : Nat} (fits : value < 2 ^ 64) :
      Plain depth (.number (.nat value))
  | neg {depth below : Nat} (fits : below < 2 ^ 63) :
      Plain depth (.number (.neg below))
  | string {depth : Nat} (value : Text) : Plain depth (.string value)
  | array {depth : Nat} {items : List Value}
      (plain : ∀ item ∈ items, Plain depth item) :
      Plain (depth + 1) (.array items)
  | object {depth : Nat} {members : List (Text × Value)}
      (ascending : Ordered.Ascending members)
      (plain : ∀ member ∈ members, Plain depth member.2) :
      Plain (depth + 1) (.object members)

/-- What `serde_json` says of its reader and its compact printer. -/
structure Serde.Lawful (serde : Serde) : Prop where
  /-- The recursion limit of the reader is 128. -/
  parse_print : ∀ value, Plain 127 value →
    serde.parse (serde.print value) = .ok value
  /-- Control characters are escaped. -/
  print_visible : ∀ value, ∀ char ∈ serde.print value, ' ' ≤ char
  print_object : ∀ members, ∃ more,
    serde.print (.object members) = '{' :: more
  print_empty : serde.print (.object []) = "{}".toList
  /-- Nothing may follow a value. -/
  trailing : ∀ text value, serde.parse text = .ok value →
    ∃ error, serde.parse ("{}".toList ++ text) = .error error

namespace Value

theorem ascending_puts (members entries : List (Text × Value))
    (ascending : Ordered.Ascending entries) :
    Ordered.Ascending
      (members.foldl
        (fun object member => Ordered.put member.1 member.2 object)
        entries) := by
  induction members generalizing entries with
  | nil => exact ascending
  | cons member later ih => exact ih _ (ascending.put _ _)

theorem mem_puts {members entries : List (Text × Value)}
    {entry : Text × Value}
    (member : entry ∈ members.foldl
      (fun object member => Ordered.put member.1 member.2 object)
      entries) :
    entry ∈ members ∨ entry ∈ entries := by
  induction members generalizing entries with
  | nil => exact Or.inr member
  | cons first later ih =>
      rcases ih member with old | held
      · exact Or.inl (List.mem_cons_of_mem _ old)
      · rcases Ordered.mem_put held with rfl | kept
        · exact Or.inl List.mem_cons_self
        · exact Or.inr kept

/-- An object literal is plain if its members are. -/
theorem plain_obj {depth : Nat} {members : List (String × Value)}
    (plain : ∀ member ∈ members, Plain depth member.2) :
    Plain (depth + 1) (obj members) := by
  apply Plain.object
  · exact ascending_puts _ _ List.Pairwise.nil
  · intro entry member
    rcases mem_puts member with named | none
    · rcases List.mem_map.mp named with ⟨origin, listed, same⟩
      rw [← same]
      exact plain origin listed
    · cases none

end Value

end Runa.Json
