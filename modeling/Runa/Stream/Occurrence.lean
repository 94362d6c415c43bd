import Mathlib.Data.List.Infix
import Mathlib.Tactic.Common

/-!
# First occurrences and held partial matches

A streaming filter that watches a text for a few fixed words has two
questions to answer about the text it has so far: where is the first complete
occurrence of a word, and how much of the end of the text may still grow into
one.  This module answers both for lists over an arbitrary alphabet.

`find` is the offset of the first occurrence and `earliest` the first
occurrence among several words.  `hold` is the longest end of the text which
is a non-empty proper prefix of a word.  The two laws a streaming filter
needs are `find_append_some`, a complete occurrence is not moved by reading
more, and `find_append_hold`, no occurrence can start in front of the held
end.
-/

namespace Runa.Stream.Occurrence

universe u v

variable {Symbol : Type u} [DecidableEq Symbol]

/-! ## The first occurrence of one word -/

/-- Offset of the first occurrence of `word` in a text. -/
def find (word : List Symbol) : List Symbol → Option Nat
  | [] => if word = [] then some 0 else none
  | symbol :: rest =>
      if word.isPrefixOf (symbol :: rest) then some 0
      else (find word rest).map (· + 1)

/-- `find` reports an offset exactly when it is the least occurrence. -/
theorem find_eq_some_iff
    (word text : List Symbol) (offset : Nat) :
    find word text = some offset ↔
      offset ≤ text.length ∧
        word <+: text.drop offset ∧
        ∀ earlier < offset, ¬ word <+: text.drop earlier := by
  induction text generalizing offset with
  | nil =>
      by_cases empty : word = []
      · subst word
        simp only [find, if_true, Option.some.injEq, List.length_nil,
          Nat.le_zero, List.drop_nil, List.nil_prefix, not_true_eq_false,
          imp_false, not_lt, true_and]
        constructor
        · rintro rfl
          exact ⟨rfl, fun _ => Nat.zero_le _⟩
        · rintro ⟨rfl, -⟩
          rfl
      · simp [find, empty]
  | cons symbol rest induction =>
      by_cases here : word <+: symbol :: rest
      · have found : find word (symbol :: rest) = some 0 := by
          simp [find, List.isPrefixOf_iff_prefix, here]
        rw [found, Option.some.injEq]
        constructor
        · rintro rfl
          exact ⟨Nat.zero_le _, by simpa using here, by simp⟩
        · rintro ⟨-, -, least⟩
          by_contra nonzero
          exact least 0 (by omega) (by simpa using here)
      · have passed :
            find word (symbol :: rest) = (find word rest).map (· + 1) := by
          simp [find, List.isPrefixOf_iff_prefix, here]
        rw [passed, Option.map_eq_some_iff]
        constructor
        · rintro ⟨inner, found, rfl⟩
          obtain ⟨bound, occurs, least⟩ := (induction inner).mp found
          refine ⟨by simpa using bound, by simpa using occurs, ?_⟩
          intro earlier smaller
          cases earlier with
          | zero => simpa using here
          | succ earlier => simpa using least earlier (by omega)
        · rintro ⟨bound, occurs, least⟩
          cases offset with
          | zero => exact (here (by simpa using occurs)).elim
          | succ offset =>
              refine ⟨offset, (induction offset).mpr ⟨?_, ?_, ?_⟩, rfl⟩
              · simpa using bound
              · simpa using occurs
              · intro earlier smaller
                simpa using least (earlier + 1) (by omega)

/-- `find` reports nothing exactly when no offset carries the word. -/
theorem find_eq_none_iff
    (word text : List Symbol) :
    find word text = none ↔
      ∀ offset ≤ text.length, ¬ word <+: text.drop offset := by
  induction text with
  | nil =>
      by_cases empty : word = []
      · simp [find, empty]
      · simp [find, empty]
  | cons symbol rest induction =>
      by_cases here : word <+: symbol :: rest
      · have found : find word (symbol :: rest) = some 0 := by
          simp [find, List.isPrefixOf_iff_prefix, here]
        rw [found]
        constructor
        · intro impossible
          cases impossible
        · intro absent
          exact (absent 0 (Nat.zero_le _) (by simpa using here)).elim
      · have passed :
            find word (symbol :: rest) = (find word rest).map (· + 1) := by
          simp [find, List.isPrefixOf_iff_prefix, here]
        rw [passed, Option.map_eq_none_iff, induction]
        constructor
        · intro absent offset bound
          cases offset with
          | zero => simpa using here
          | succ offset =>
              simpa using absent offset (by simpa using bound)
        · intro absent offset bound
          simpa using absent (offset + 1) (by simpa using bound)

/-- A word is found exactly where it stands in the text. -/
theorem find_isSome_iff (word text : List Symbol) :
    (find word text).isSome ↔ word <:+: text := by
  constructor
  · intro found
    obtain ⟨offset, first⟩ := Option.isSome_iff_exists.mp found
    obtain ⟨-, begins, -⟩ := (find_eq_some_iff word text offset).mp first
    exact begins.isInfix.trans (List.drop_suffix offset text).isInfix
  · rintro ⟨front, back, rfl⟩
    by_contra missing
    have absent := (find_eq_none_iff word _).mp
      (Option.not_isSome_iff_eq_none.mp missing)
    refine absent front.length (by simp) ?_
    rw [List.append_assoc, List.drop_left]
    exact List.prefix_append word back

/-- The text in front of, at, and behind the first occurrence. -/
theorem find_split
    {word text : List Symbol} {offset : Nat}
    (found : find word text = some offset) :
    text.take offset ++ word ++ text.drop (offset + word.length) = text := by
  obtain ⟨-, ⟨behind, occurs⟩, -⟩ :=
    (find_eq_some_iff word text offset).mp found
  have behindEq : text.drop (offset + word.length) = behind := by
    rw [← List.drop_drop, ← occurs, List.drop_left]
  rw [behindEq, List.append_assoc, occurs, List.take_append_drop]

theorem find_bound
    {word text : List Symbol} {offset : Nat}
    (found : find word text = some offset) :
    offset + word.length ≤ text.length := by
  have lengths := congrArg List.length (find_split found)
  have bound := ((find_eq_some_iff word text offset).mp found).1
  simp only [List.length_append, List.length_take, List.length_drop]
    at lengths
  omega

omit [DecidableEq Symbol] in
/-- An occurrence that ends inside the first part is one of that part. -/
theorem prefix_drop_of_append
    {word text more : List Symbol} {offset : Nat}
    (occurs : word <+: (text ++ more).drop offset)
    (inside : offset + word.length ≤ text.length) :
    word <+: text.drop offset := by
  rw [List.drop_append_of_le_length (by omega)] at occurs
  exact List.prefix_of_prefix_length_le occurs
    (List.prefix_append _ _) (by simp; omega)

/-- Reading more text does not move a complete first occurrence. -/
theorem find_append_some
    {word text : List Symbol} {offset : Nat}
    (found : find word text = some offset)
    (more : List Symbol) :
    find word (text ++ more) = some offset := by
  have inside := find_bound found
  obtain ⟨bound, occurs, least⟩ :=
    (find_eq_some_iff word text offset).mp found
  refine (find_eq_some_iff _ _ _).mpr ⟨?_, ?_, ?_⟩
  · rw [List.length_append]
    omega
  · rw [List.drop_append_of_le_length bound]
    exact occurs.trans (List.prefix_append _ _)
  · intro earlier smaller early
    exact least earlier smaller
      (prefix_drop_of_append early (by omega))

/-- When no occurrence starts in `front`, `find` looks behind it. -/
theorem find_append_of_absent
    {word : List Symbol} (front back : List Symbol)
    (absent :
      ∀ offset < front.length, ¬ word <+: (front ++ back).drop offset) :
    find word (front ++ back) =
      (find word back).map (· + front.length) := by
  induction front with
  | nil => simp
  | cons symbol front induction =>
      have here : ¬ word <+: symbol :: (front ++ back) := by
        simpa using absent 0 (by simp)
      have behind :
          ∀ offset < front.length,
            ¬ word <+: (front ++ back).drop offset := by
        intro offset smaller
        simpa using absent (offset + 1) (by simpa using smaller)
      have passed :
          find word (symbol :: (front ++ back)) =
            (find word (front ++ back)).map (· + 1) := by
        simp [find, List.isPrefixOf_iff_prefix, here]
      rw [List.cons_append, passed, induction behind, Option.map_map]
      rfl

/-! ## The earliest of several words -/

section Earliest

variable {Item : Type v} (word : Item → List Symbol)

/--
One pass of the search for the earliest word: a later item replaces the best
one so far only when its first occurrence starts strictly in front of it.
-/
def improve
    (text : List Symbol)
    (best : Option (Nat × Item)) (item : Item) :
    Option (Nat × Item) :=
  match find (word item) text, best with
  | none, _ => best
  | some offset, none => some (offset, item)
  | some offset, some (bestOffset, bestItem) =>
      if offset < bestOffset then some (offset, item)
      else some (bestOffset, bestItem)

/-- The item whose word occurs first, earlier items winning ties. -/
def earliest (items : List Item) (text : List Symbol) :
    Option (Nat × Item) :=
  items.foldl (improve word text) none

/-- What the search knows after the items of `seen`. -/
private def BestOf
    (text : List Symbol) (seen : List Item) :
    Option (Nat × Item) → Prop
  | none => ∀ item ∈ seen, find (word item) text = none
  | some (offset, best) =>
      best ∈ seen ∧ find (word best) text = some offset ∧
        ∀ item ∈ seen, ∀ other,
          find (word item) text = some other → offset ≤ other

private theorem bestOf_improve
    {text : List Symbol} {seen : List Item}
    {best : Option (Nat × Item)}
    (known : BestOf word text seen best) (item : Item) :
    BestOf word text (seen ++ [item]) (improve word text best item) := by
  cases found : find (word item) text with
  | none =>
      cases best with
      | none =>
          simp only [improve, found]
          intro candidate member
          rcases List.mem_append.mp member with old | new
          · exact known candidate old
          · rw [List.mem_singleton.mp new]
            exact found
      | some best =>
          obtain ⟨offset, best⟩ := best
          obtain ⟨member, occurs, least⟩ := known
          simp only [improve, found]
          refine ⟨List.mem_append_left _ member, occurs, ?_⟩
          intro candidate candidateMember other candidateFound
          rcases List.mem_append.mp candidateMember with old | new
          · exact least candidate old other candidateFound
          · rw [List.mem_singleton.mp new, found] at candidateFound
            cases candidateFound
  | some offset =>
      cases best with
      | none =>
          simp only [improve, found]
          refine ⟨by simp, found, ?_⟩
          intro candidate candidateMember other candidateFound
          rcases List.mem_append.mp candidateMember with old | new
          · rw [known candidate old] at candidateFound
            cases candidateFound
          · rw [List.mem_singleton.mp new, found] at candidateFound
            cases candidateFound
            exact le_rfl
      | some best =>
          obtain ⟨bestOffset, best⟩ := best
          obtain ⟨member, occurs, least⟩ := known
          simp only [improve, found]
          by_cases smaller : offset < bestOffset
          · rw [if_pos smaller]
            refine ⟨by simp, found, ?_⟩
            intro candidate candidateMember other candidateFound
            rcases List.mem_append.mp candidateMember with old | new
            · exact smaller.le.trans
                (least candidate old other candidateFound)
            · rw [List.mem_singleton.mp new, found] at candidateFound
              cases candidateFound
              exact le_rfl
          · rw [if_neg smaller]
            refine ⟨List.mem_append_left _ member, occurs, ?_⟩
            intro candidate candidateMember other candidateFound
            rcases List.mem_append.mp candidateMember with old | new
            · exact least candidate old other candidateFound
            · rw [List.mem_singleton.mp new, found] at candidateFound
              cases candidateFound
              omega

private theorem bestOf_foldl
    {text : List Symbol} (items : List Item) :
    ∀ {seen : List Item} {best : Option (Nat × Item)},
      BestOf word text seen best →
        BestOf word text (seen ++ items)
          (items.foldl (improve word text) best) := by
  induction items with
  | nil =>
      intro seen best known
      simpa using known
  | cons item items induction =>
      intro seen best known
      have step := induction (bestOf_improve word known item)
      simpa using step

private theorem bestOf_earliest
    (items : List Item) (text : List Symbol) :
    BestOf word text items (earliest word items text) := by
  have start : BestOf word text ([] : List Item) none := by
    intro item member
    cases member
  simpa [earliest] using bestOf_foldl word items start

/-- No word occurs when the search comes back empty. -/
theorem earliest_none
    {items : List Item} {text : List Symbol}
    (absent : earliest word items text = none) :
    ∀ item ∈ items, find (word item) text = none := by
  have known := bestOf_earliest word items text
  rw [absent] at known
  exact known

/-- The reported item occurs first, and no listed word starts before it. -/
theorem earliest_some
    {items : List Item} {text : List Symbol}
    {offset : Nat} {item : Item}
    (found : earliest word items text = some (offset, item)) :
    item ∈ items ∧ find (word item) text = some offset ∧
      ∀ other ∈ items, ∀ otherOffset,
        find (word other) text = some otherOffset →
          offset ≤ otherOffset := by
  have known := bestOf_earliest word items text
  rw [found] at known
  exact known

theorem earliest_eq_none_iff
    {items : List Item} {text : List Symbol} :
    earliest word items text = none ↔
      ∀ item ∈ items, find (word item) text = none := by
  refine ⟨earliest_none word, ?_⟩
  intro absent
  cases found : earliest word items text with
  | none => rfl
  | some best =>
      obtain ⟨offset, item⟩ := best
      obtain ⟨member, occurs, -⟩ := earliest_some word found
      rw [absent item member] at occurs
      cases occurs

@[simp]
theorem earliest_singleton
    (item : Item) (text : List Symbol) :
    earliest word [item] text =
      (find (word item) text).map fun offset => (offset, item) := by
  cases found : find (word item) text <;>
    simp [earliest, improve, found]

/-- Searching renamed items finds the renamed item. -/
theorem earliest_map
    {Other : Type v} (rename : Other → Item)
    (items : List Other) (text : List Symbol) :
    earliest word (items.map rename) text =
      (earliest (word ∘ rename) items text).map
        fun best => (best.1, rename best.2) := by
  have general :
      ∀ (items : List Other) (best : Option (Nat × Other)),
        (items.map rename).foldl (improve word text)
            (best.map fun best => (best.1, rename best.2)) =
          (items.foldl (improve (word ∘ rename) text) best).map
            fun best => (best.1, rename best.2) := by
    intro items
    induction items with
    | nil =>
        intro best
        rfl
    | cons item items induction =>
        intro best
        rw [List.map_cons, List.foldl_cons, List.foldl_cons, ← induction]
        congr 1
        cases found : find (word (rename item)) text with
        | none => cases best <;> simp [improve, found]
        | some offset =>
            cases best with
            | none => simp [improve, found]
            | some best =>
                simp only [improve, found, Function.comp_apply,
                  Option.map_some]
                split <;> rfl
  exact general items none

end Earliest

/-! ## The end of the text that may still grow into a word -/

/-- A non-empty proper prefix of one of the words. -/
def IsPartial (words : List (List Symbol)) (text : List Symbol) : Prop :=
  text ≠ [] ∧ ∃ word ∈ words, text <+: word ∧ text ≠ word

instance (words : List (List Symbol)) (text : List Symbol) :
    Decidable (IsPartial words text) :=
  inferInstanceAs (Decidable (_ ∧ ∃ word ∈ words, _ ∧ _))

/-- The longest end of a text which is a partial word. -/
def hold (words : List (List Symbol)) : List Symbol → List Symbol
  | [] => []
  | symbol :: rest =>
      if IsPartial words (symbol :: rest) then symbol :: rest
      else hold words rest

/-- The text in front of the held end. -/
def release (words : List (List Symbol)) (text : List Symbol) :
    List Symbol :=
  text.take (text.length - (hold words text).length)

/-- `held` is the longest end of `text` which is a partial word. -/
structure HeldTail
    (words : List (List Symbol)) (text held : List Symbol) : Prop where
  suffix : held <:+ text
  emptyOrPartial : held = [] ∨ IsPartial words held
  longest :
    ∀ tail, IsPartial words tail → tail <:+ text →
      tail.length ≤ held.length

theorem hold_heldTail
    (words : List (List Symbol)) (text : List Symbol) :
    HeldTail words text (hold words text) := by
  induction text with
  | nil =>
      refine ⟨List.suffix_rfl, Or.inl rfl, ?_⟩
      rintro tail ⟨nonempty, -⟩ suffix
      exact (nonempty (List.suffix_nil.mp suffix)).elim
  | cons symbol rest induction =>
      by_cases whole : IsPartial words (symbol :: rest)
      · rw [hold, if_pos whole]
        exact
          ⟨List.suffix_rfl, Or.inr whole,
            fun tail _ suffix => suffix.length_le⟩
      · rw [hold, if_neg whole]
        refine
          ⟨induction.suffix.trans (List.suffix_cons _ _),
            induction.emptyOrPartial, ?_⟩
        intro tail isPartial suffix
        rcases List.suffix_cons_iff.mp suffix with equal | inner
        · rw [equal] at isPartial
          exact (whole isPartial).elim
        · exact induction.longest tail isPartial inner

theorem release_append_hold
    (words : List (List Symbol)) (text : List Symbol) :
    release words text ++ hold words text = text := by
  obtain ⟨front, appended⟩ := (hold_heldTail words text).suffix
  have frontLength :
      text.length - (hold words text).length = front.length := by
    have lengths := congrArg List.length appended
    rw [List.length_append] at lengths
    omega
  have frontEq : text.take front.length = front := by
    rw [← appended, List.take_left]
  rw [release, frontLength, frontEq, appended]

omit [DecidableEq Symbol] in
theorem HeldTail.unique
    {words : List (List Symbol)} {text left right : List Symbol}
    (first : HeldTail words text left)
    (second : HeldTail words text right) :
    left = right := by
  have shorter :
      ∀ {a b : List Symbol}, HeldTail words text a →
        HeldTail words text b → a.length ≤ b.length := by
    intro a b heldA heldB
    rcases heldA.emptyOrPartial with rfl | isPartial
    · exact Nat.zero_le _
    · exact heldB.longest a isPartial heldA.suffix
  have lengths : left.length = right.length :=
    le_antisymm (shorter first second) (shorter second first)
  exact
    (List.suffix_of_suffix_length_le first.suffix second.suffix
      lengths.le).eq_of_length lengths

omit [DecidableEq Symbol] in
/-- A partial word cut short from the right is still partial. -/
theorem IsPartial.of_prefix
    {words : List (List Symbol)} {text shorter : List Symbol}
    (isPartial : IsPartial words text)
    (prefixProof : shorter <+: text) (nonempty : shorter ≠ []) :
    IsPartial words shorter := by
  obtain ⟨-, word, member, textPrefix, proper⟩ := isPartial
  refine ⟨nonempty, word, member, prefixProof.trans textPrefix, ?_⟩
  rintro rfl
  exact proper
    (textPrefix.eq_of_length
      (le_antisymm textPrefix.length_le prefixProof.length_le))

omit [DecidableEq Symbol] in
/-- Held ends compose: hold, read more behind the held end, and hold again. -/
theorem HeldTail.append
    {words : List (List Symbol)} {text held more held' : List Symbol}
    (first : HeldTail words text held)
    (second : HeldTail words (held ++ more) held') :
    HeldTail words (text ++ more) held' := by
  obtain ⟨front, appended⟩ := first.suffix
  have behind : held ++ more <:+ text ++ more := by
    refine ⟨front, ?_⟩
    rw [← List.append_assoc, appended]
  refine ⟨second.suffix.trans behind, second.emptyOrPartial, ?_⟩
  intro tail isPartial suffix
  rcases le_total tail.length (held ++ more).length with short | long
  · exact second.longest tail isPartial
      (List.suffix_of_suffix_length_le suffix behind short)
  · by_cases same : tail.length = (held ++ more).length
    · exact second.longest tail isPartial
        (List.suffix_of_suffix_length_le suffix behind same.le)
    · have moreSuffix : more <:+ tail :=
        List.suffix_of_suffix_length_le
          (List.suffix_append text more) suffix
          (by simp only [List.length_append] at long; omega)
      obtain ⟨early, tailEq⟩ := moreSuffix
      subst tail
      have earlySuffix : early <:+ text := by
        obtain ⟨lead, leadEq⟩ := suffix
        rw [← List.append_assoc] at leadEq
        exact ⟨lead, List.append_cancel_right leadEq⟩
      have longer : held.length < early.length := by
        simp only [List.length_append] at long same
        omega
      have earlyPartial : IsPartial words early :=
        isPartial.of_prefix (List.prefix_append _ _)
          (List.ne_nil_of_length_pos (by omega))
      have := first.longest early earlyPartial earlySuffix
      omega

/-- A text ends inside a word: some end of it is a partial word. -/
def EndsInside (words : List (List Symbol)) (text : List Symbol) : Prop :=
  ∃ tail, IsPartial words tail ∧ tail <:+ text

omit [DecidableEq Symbol] in
/-- A text ends inside a word when something is held of it. -/
theorem HeldTail.endsInside_iff
    {words : List (List Symbol)} {text held : List Symbol}
    (heldTail : HeldTail words text held) :
    EndsInside words text ↔ held ≠ [] := by
  constructor
  · rintro ⟨tail, isPartial, suffix⟩ rfl
    have short := heldTail.longest tail isPartial suffix
    exact isPartial.1 (List.length_eq_zero_iff.mp (Nat.le_zero.mp short))
  · intro nonempty
    rcases heldTail.emptyOrPartial with empty | isPartial
    · exact (nonempty empty).elim
    · exact ⟨held, isPartial, heldTail.suffix⟩

/-- Behind a text of which nothing is held, only what follows counts. -/
theorem HeldTail.endsInside_append_iff
    {words : List (List Symbol)} {text : List Symbol}
    (clean : HeldTail words text []) (more : List Symbol) :
    EndsInside words (text ++ more) ↔ EndsInside words more := by
  have behind := hold_heldTail words more
  rw [(clean.append (by simpa using behind)).endsInside_iff,
    behind.endsInside_iff]

/--
No occurrence of a word can start in front of the held end of a text that
contains no complete word, however the text continues.
-/
theorem find_append_hold
    {words : List (List Symbol)} {front held : List Symbol}
    (tail : HeldTail words (front ++ held) held)
    {word : List Symbol} (member : word ∈ words)
    (absent : find word (front ++ held) = none)
    (more : List Symbol) :
    find word (front ++ (held ++ more)) =
      (find word (held ++ more)).map (· + front.length) := by
  apply find_append_of_absent
  intro offset smaller occurs
  rw [← List.append_assoc] at occurs
  rcases le_or_gt (offset + word.length) (front ++ held).length with
    inside | across
  · have bound : offset ≤ (front ++ held).length := by omega
    exact (find_eq_none_iff _ _).mp absent offset bound
      (prefix_drop_of_append occurs inside)
  · have bound : offset ≤ (front ++ held).length := by
      rw [List.length_append]
      omega
    have cut : (front ++ held).drop offset <+: word := by
      rw [List.drop_append_of_le_length bound] at occurs
      exact List.prefix_of_prefix_length_le
        (List.prefix_append _ _) occurs
        (by rw [List.length_drop]; omega)
    have cutLength :
        ((front ++ held).drop offset).length =
          front.length + held.length - offset := by
      rw [List.length_drop, List.length_append]
    have cutPartial :
        IsPartial words ((front ++ held).drop offset) := by
      refine ⟨List.ne_nil_of_length_pos (by omega),
        word, member, cut, ?_⟩
      intro equal
      have lengths := congrArg List.length equal
      rw [List.length_append] at across
      omega
    have := tail.longest _ cutPartial (List.drop_suffix _ _)
    omega

/-! ## Words that start with a guard symbol -/

/--
The word starts with `guard` and the guard occurs nowhere else in it, so two
occurrences of guarded words never overlap.
-/
def Guarded (guard : Symbol) (word : List Symbol) : Prop :=
  word.head? = some guard ∧ guard ∉ word.tail

instance (guard : Symbol) (word : List Symbol) :
    Decidable (Guarded guard word) :=
  inferInstanceAs (Decidable (_ ∧ _))

omit [DecidableEq Symbol] in
theorem Guarded.ne_nil
    {guard : Symbol} {word : List Symbol}
    (guarded : Guarded guard word) :
    word ≠ [] := by
  rintro rfl
  simp [Guarded] at guarded

omit [DecidableEq Symbol] in
/-- Inside an occurrence of a guarded word no guarded word starts. -/
theorem Guarded.not_prefix_drop
    {guard : Symbol} {outer inner more : List Symbol}
    (outerGuarded : Guarded guard outer)
    (innerGuarded : Guarded guard inner)
    {offset : Nat}
    (positive : 0 < offset) (inside : offset < outer.length) :
    ¬ inner <+: (outer ++ more).drop offset := by
  intro occurs
  cases inner with
  | nil => exact innerGuarded.ne_nil rfl
  | cons head inner =>
      have headEq : head = guard := by
        simpa [Guarded] using innerGuarded.1
      subst head
      rw [List.drop_append_of_le_length inside.le] at occurs
      have headMember : guard ∈ outer.drop offset := by
        cases cut : outer.drop offset with
        | nil =>
            have := congrArg List.length cut
            simp at this
            omega
        | cons symbol rest =>
            rw [cut, List.cons_append, List.cons_prefix_cons] at occurs
            simp [occurs.1]
      have tailMember : guard ∈ outer.tail := by
        cases outer with
        | nil => simp at inside
        | cons first outer =>
            obtain ⟨offset, rfl⟩ : ∃ k, offset = k + 1 :=
              ⟨offset - 1, by omega⟩
            exact List.mem_of_mem_drop headMember
      exact outerGuarded.2 tailMember

end Runa.Stream.Occurrence
