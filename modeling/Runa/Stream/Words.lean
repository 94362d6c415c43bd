import Runa.Stream.Lines

/-!
# Words between blanks

Splitting a text at blanks, and joining texts with one character.
-/

namespace Runa.Stream.Words

open Runa.Stream.Utf8
open Runa.Stream.Lines (isWhitespace trim trim_cons)

/-- `str::split_whitespace` -/
def splitWhitespace (text : Text) : List Text :=
  (text.splitOnP isWhitespace).filter fun word => !word.isEmpty

/-- A text that splits to itself. -/
structure Word (text : Text) : Prop where
  nonempty : text ≠ []
  visible : ∀ char ∈ text, isWhitespace char = false

theorem splitWhitespace_word {word : Text} (here : Word word) :
    splitWhitespace word = [word] := by
  rw [splitWhitespace, List.splitOnP_eq_singleton here.visible,
    List.filter_cons_of_pos (by simp [here.nonempty])]
  rfl

theorem splitWhitespace_word_append {word : Text} (here : Word word)
    (rest : Text) :
    splitWhitespace (word ++ ' ' :: rest) = word :: splitWhitespace rest := by
  rw [splitWhitespace,
    List.splitOnP_append_cons_of_forall_mem here.visible ' ' rfl,
    List.filter_cons_of_pos (by simp [here.nonempty])]
  rfl

/-- Texts with one character between them. -/
def joined (mark : Char) (parts : List Text) : Text :=
  [mark].intercalate parts

@[simp]
theorem joined_singleton (mark : Char) (part : Text) :
    joined mark [part] = part :=
  List.intercalate_singleton

theorem joined_cons (mark : Char) (part : Text) {rest : List Text}
    (more : rest ≠ []) :
    joined mark (part :: rest) = part ++ mark :: joined mark rest := by
  rw [joined, List.intercalate_cons_of_ne_nil more, List.append_assoc]
  rfl

@[simp]
theorem joined_cons_cons (mark : Char) (part next : Text)
    (rest : List Text) :
    joined mark (part :: next :: rest) =
      part ++ mark :: joined mark (next :: rest) :=
  joined_cons mark part (List.cons_ne_nil _ _)

theorem joined_append (mark : Char) {front back : List Text}
    (first : front ≠ []) (more : back ≠ []) :
    joined mark (front ++ back) =
      joined mark front ++ mark :: joined mark back := by
  induction front with
  | nil => exact absurd rfl first
  | cons part rest induction =>
      cases rest with
      | nil => rw [List.singleton_append, joined_cons mark part more,
          joined_singleton]
      | cons next later =>
          have there := induction (List.cons_ne_nil _ _)
          rw [List.cons_append] at there ⊢
          rw [List.cons_append, joined_cons_cons, joined_cons_cons, there,
            List.append_assoc, List.cons_append]

/-- Every part brings one character more, but for the last. -/
theorem length_joined (mark : Char) {parts : List Text}
    (some : parts ≠ []) :
    (joined mark parts).length + 1 =
      (parts.map fun part => part.length + 1).sum := by
  induction parts with
  | nil => exact absurd rfl some
  | cons part rest induction =>
      cases rest with
      | nil => simp
      | cons next later =>
          have there := induction (List.cons_ne_nil _ _)
          rw [joined_cons_cons, List.map_cons, List.sum_cons, ← there,
            List.length_append, List.length_cons]
          omega

/-- Parts of parts, whatever stands between them. -/
theorem length_joined_joined (outer inner : Char)
    {groups : List (List Text)} (some : groups ≠ [])
    (each : ∀ group ∈ groups, group ≠ []) :
    (joined outer (groups.map (joined inner))).length + 1 =
      (groups.flatten.map fun part => part.length + 1).sum := by
  rw [length_joined outer (by simpa using some), List.map_map]
  clear some
  induction groups with
  | nil => rfl
  | cons group rest induction =>
      have here := length_joined inner (each group List.mem_cons_self)
      have there := induction fun other member =>
        each other (List.mem_cons_of_mem _ member)
      rw [List.map_cons, List.sum_cons, there, List.flatten_cons,
        List.map_append, List.sum_append, ← here]
      rfl

/-- Joined words split again. -/
theorem splitWhitespace_joined {words : List Text}
    (each : ∀ word ∈ words, Word word) :
    splitWhitespace (joined ' ' words) = words := by
  induction words with
  | nil => rfl
  | cons word rest induction =>
      have here := each word List.mem_cons_self
      have there := induction fun other member =>
        each other (List.mem_cons_of_mem _ member)
      cases rest with
      | nil =>
          rw [joined_singleton]
          exact splitWhitespace_word here
      | cons next later =>
          rw [joined_cons_cons, splitWhitespace_word_append here, there]

/-- A blank splits what is on its two sides. -/
theorem splitWhitespace_append_cons (front back : Text) {blank : Char}
    (here : isWhitespace blank = true) :
    splitWhitespace (front ++ blank :: back) =
      splitWhitespace front ++ splitWhitespace back := by
  unfold splitWhitespace
  rw [List.splitOnP_append_cons front back here, List.filter_append]

theorem splitWhitespace_joined_texts (texts : List Text) :
    splitWhitespace (joined ' ' texts) = texts.flatMap splitWhitespace := by
  induction texts with
  | nil => rfl
  | cons text rest induction =>
      cases rest with
      | nil => rw [joined_singleton, List.flatMap_singleton]
      | cons next later =>
          rw [joined_cons_cons, splitWhitespace_append_cons _ _ rfl,
            induction]
          rfl

theorem visible_of_mem_splitOnP {text part : Text}
    (member : part ∈ text.splitOnP isWhitespace) :
    ∀ char ∈ part, isWhitespace char = false := by
  induction text generalizing part with
  | nil =>
      rw [List.splitOnP_nil, List.mem_singleton] at member
      rw [member]
      exact fun char none => absurd none List.not_mem_nil
  | cons first rest induction =>
      rw [List.splitOnP_cons_eq_if_modifyHead] at member
      split_ifs at member with blank
      · rcases List.mem_cons.mp member with rfl | later
        · exact fun char none => absurd none List.not_mem_nil
        · exact induction later
      · cases parts : rest.splitOnP isWhitespace with
        | nil => exact absurd parts (List.splitOnP_ne_nil _ _)
        | cons head tail =>
            rw [parts, List.modifyHead_cons] at member
            rw [parts] at induction
            rcases List.mem_cons.mp member with rfl | later
            · intro char listed
              rcases List.mem_cons.mp listed with rfl | inside
              · exact Bool.eq_false_iff.mpr blank
              · exact induction List.mem_cons_self char inside
            · exact induction (List.mem_cons_of_mem _ later)

/-- What a text is split into are words. -/
theorem word_of_mem_splitWhitespace {text word : Text}
    (member : word ∈ splitWhitespace text) : Word word := by
  rcases List.mem_filter.mp member with ⟨part, visible⟩
  exact ⟨by simpa using visible, visible_of_mem_splitOnP part⟩

/-- A text that begins with a word is not blank. -/
theorem trim_joined_ne_nil {word : Text} {rest : List Text}
    (here : Word word) : trim (joined ' ' (word :: rest)) ≠ [] := by
  rcases List.exists_cons_of_ne_nil here.nonempty with ⟨char, more, rfl⟩
  have visible := here.visible char List.mem_cons_self
  cases rest with
  | nil =>
      rw [joined_singleton, trim_cons visible]
      exact List.cons_ne_nil _ _
  | cons next later =>
      rw [joined_cons_cons, List.cons_append, trim_cons visible]
      exact List.cons_ne_nil _ _

end Runa.Stream.Words
