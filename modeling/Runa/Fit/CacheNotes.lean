import Runa.Json.Codec
import Runa.Fit.Cache

/-!
# A reader of the notes of the cache

A JSON reader which takes no text but the notes the cache writes.  They read
back, and as none of them begins another one, a note that ends early does not
read.
-/

namespace Runa.Fit.CacheNotes

open Runa.Stream.Utf8
open Runa.Bytes.Lossy
open Runa.Json
open Runa.Json.Codec
open Runa.Fit.Cache

/-- The value of a member, or `null`. -/
def orNull {α : Type} (value : α → Value) : Option α → Value
  | none => .null
  | some held => value held

/-- The members of a note behind the first. -/
def laterMembers (total : Option Nat) (etag : Option Text) :
    List (Text × Value) :=
  [("total_len".toList, orNull .nat total),
    ("etag".toList, orNull .string etag)]

/-- The object a note shows. -/
def noteObject (url : Text) (total : Option Nat) (etag : Option Text) :
    Value :=
  .ofMembers (("url".toList, .string url) :: laterMembers total etag)

theorem print_orNull {α : Type} (value : α → Value) (shown : α → Text)
    (same : ∀ held, print (value held) = shown held) (held : Option α) :
    print (orNull value held) = Cache.orNull shown held := by
  cases held with
  | none => rfl
  | some held => exact same held

/-- A note member by member. -/
theorem noteText_eq (url : Text) (total : Option Nat) (etag : Option Text)
    (rest : Text) :
    noteText quote url total etag ++ rest =
      '{' :: (quote "url".toList ++
        ':' :: (print (.string url) ++
          (printMembers (laterMembers total etag) ++ rest))) := by
  have length : print (orNull .nat total) =
      Cache.orNull (Nat.toDigits 10) total :=
    print_orNull _ _ (fun _ => rfl) total
  have tag : print (orNull .string etag) = Cache.orNull quote etag :=
    print_orNull _ _ (fun _ => rfl) etag
  have first : quote "url".toList = ['"', 'u', 'r', 'l', '"'] := by
    decide
  have second : quote "total_len".toList =
      ['"', 't', 'o', 't', 'a', 'l', '_', 'l', 'e', 'n', '"'] := by
    decide
  have third : quote "etag".toList = ['"', 'e', 't', 'a', 'g', '"'] := by
    decide
  simp only [noteText, ← length, ← tag, laterMembers, printMembers, print,
    first, second, third, List.cons_append, List.nil_append,
    List.append_assoc]

theorem reads_note {url : Text} {total : Option Nat} {etag : Option Text}
    (fits : ∀ length ∈ total, length < 2 ^ 64) :
    ∀ member ∈ ("url".toList, Value.string url) :: laterMembers total etag,
      Reads 126 member.2 := by
  simp only [laterMembers, List.forall_mem_cons]
  refine ⟨reads_string _ _, ?_, ?_, nofun⟩
  · cases total with
    | none => exact reads_null _
    | some length => exact reads_nat (fits length rfl)
  · cases etag with
    | none => exact reads_null _
    | some tag => exact reads_string _ _

/-- A note is read, and what is behind it is left. -/
theorem readValue_note (url : Text) {total : Option Nat}
    (etag : Option Text) (fits : ∀ length ∈ total, length < 2 ^ 64)
    (rest : Text) {fuel : Nat}
    (enough : (noteText quote url total etag).length ≤ fuel) :
    readValue (fuel + 1) 127 (noteText quote url total etag ++ rest) =
      some (noteObject url total etag, rest) := by
  have whole := congrArg List.length (noteText_eq url total etag [])
  simp only [List.append_nil, List.length_cons, List.length_append]
    at whole
  rw [noteText_eq]
  exact readValue_members (reads_note fits) fuel rest (by omega)

theorem parse_note {url : Text} {total : Option Nat} {etag : Option Text}
    (fits : ∀ length ∈ total, length < 2 ^ 64) :
    parse (noteText quote url total etag) =
      .ok (noteObject url total etag) := by
  have read := readValue_note url etag fits []
    (Nat.le_refl _)
  rw [List.append_nil] at read
  rw [parse, read]
  rfl

/-- No note begins another one. -/
theorem note_prefix {url url' : Text} {total total' : Option Nat}
    {etag etag' : Option Text} (fits : ∀ length ∈ total, length < 2 ^ 64)
    (fits' : ∀ length ∈ total', length < 2 ^ 64)
    (begins : noteText quote url total etag <+:
      noteText quote url' total' etag') :
    noteText quote url total etag = noteText quote url' total' etag' := by
  obtain ⟨rest, whole⟩ := begins
  have enough : (noteText quote url total etag).length ≤
      (noteText quote url' total' etag').length := by
    rw [← whole, List.length_append]
    exact Nat.le_add_right _ _
  have one := readValue_note url etag fits rest enough
  have other := readValue_note url' etag' fits' []
    (Nat.le_refl _)
  rw [whole] at one
  rw [List.append_nil, one] at other
  obtain ⟨-, rfl⟩ := Prod.mk.inj (Option.some.inj other)
  rw [← whole, List.append_nil]

/-! ## The reader -/

/-- The note that an object would be written as. -/
def noteOf (value : Value) : Text :=
  noteText quote (((value.get "url").bind Value.asStr).getD [])
    (((value.get "total_len").bind Value.asU64).filter (· < 2 ^ 64))
    ((value.get "etag").bind Value.asStr)

def readNote (bytes : List UInt8) : Except Text Value :=
  match parse (fromUtf8Lossy bytes) with
  | .error msg => .error msg
  | .ok value =>
    if encode (noteOf value) = bytes then .ok value
    else .error "not a note".toList

def notes : Notes where
  fromSlice := readNote
  quote := quote

theorem noteObject_eq (url : Text) (total : Option Nat)
    (etag : Option Text) :
    noteObject url total etag =
      .obj
        [("url", .string url), ("total_len", orNull .nat total),
          ("etag", orNull .string etag)] :=
  rfl

theorem noteOf_noteObject {url : Text} {total : Option Nat}
    {etag : Option Text} (fits : ∀ length ∈ total, length < 2 ^ 64) :
    noteOf (noteObject url total etag) = noteText quote url total etag := by
  rw [noteOf]
  have one : (noteObject url total etag).get "url" =
      some (.string url) := by
    simp [noteObject_eq]
  have two : (noteObject url total etag).get "total_len" =
      some (orNull .nat total) := by
    simp [noteObject_eq]
  have three : (noteObject url total etag).get "etag" =
      some (orNull .string etag) := by
    simp [noteObject_eq]
  have length : ((orNull Value.nat total).asU64).filter (· < 2 ^ 64) =
      total := by
    cases total with
    | none => rfl
    | some length =>
        exact Option.filter_some_pos (decide_eq_true (fits length rfl))
  have tag : (orNull Value.string etag).asStr = etag := by
    cases etag <;> rfl
  rw [one, two, three, Option.bind_some, Option.bind_some,
    Option.bind_some, length, tag]
  rfl

/-- What is read is the note of some address. -/
theorem of_readNote {bytes : List UInt8} {value : Value}
    (read : readNote bytes = .ok value) :
    ∃ url total etag, (∀ length ∈ total, length < 2 ^ 64) ∧
      encode (noteText quote url total etag) = bytes := by
  rw [readNote] at read
  split at read
  · exact absurd read nofun
  split at read
  · next same =>
      refine ⟨_, _, _, ?_, same⟩
      intro length held
      exact of_decide_eq_true (Option.mem_filter_iff.mp held).2
  · exact absurd read nofun

theorem lawful : notes.Lawful where
  reads := by
    intro url total etag fits
    show readNote (encode (noteText quote url total etag)) = _
    rw [readNote, fromUtf8Lossy_encode, parse_note fits]
    simp only [noteOf_noteObject fits, if_true]
    rw [noteObject_eq]
    cases total <;> cases etag <;> rfl
  unfinished := by
    intro url total etag fits part begins apart
    show ∃ error, readNote part = .error error
    cases read : readNote part with
    | error error => exact ⟨error, rfl⟩
    | ok value =>
        obtain ⟨url', total', etag', fits', rfl⟩ := of_readNote read
        have same := note_prefix fits' fits (prefix_of_encode begins)
        exact absurd (congrArg encode same) apart

end Runa.Fit.CacheNotes
