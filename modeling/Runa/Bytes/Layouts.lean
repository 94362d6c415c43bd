import Mathlib.Algebra.GroupWithZero.Nat
import Mathlib.Data.List.Basic
import Mathlib.Tactic.Common

/-!
# Layouts

A layout says how a sequence of symbols is put together: of words, each with a
mark behind it, and of chunks of known widths.  How a sequence can be read is
told by its outline, where `false` stands for the mark and `true` for any
other symbol.

Two layouts are compared by the gaps they leave around their words.  Either
an outline of one of them can be continued to outlines of the other, of all
lengths from some on, or they differ in nothing but the gap behind the last
word (`leads_or_joint`).
-/

namespace Runa.Bytes.Layouts

universe u v w

/-! ## Layouts and gaps -/

inductive Part where
  | word
  | chunk (width : Nat)

/-- The outline is put together as the layout says. -/
def Fits : List Part → List Bool → Prop
  | [], outline => outline = []
  | .word :: layout, outline =>
      ∃ word rest, outline = word ++ false :: rest ∧ false ∉ word ∧
        Fits layout rest
  | .chunk width :: layout, outline =>
      ∃ chunk rest, outline = chunk ++ rest ∧ chunk.length = width ∧
        Fits layout rest

/-- What stands in front of the first word, and behind each word. -/
def gapsOf : List Part → Nat × List Nat
  | [] => (0, [])
  | .word :: layout => (0, (gapsOf layout).1 :: (gapsOf layout).2)
  | .chunk width :: layout =>
      (width + (gapsOf layout).1, (gapsOf layout).2)

/-- The size of a part, if a word has this one. -/
def Part.size (word : Nat) : Part → Nat
  | .word => word
  | .chunk width => width

/-- The size of a layout, by its gaps. -/
theorem sum_gapsOf (word : Nat) (layout : List Part) :
    (gapsOf layout).1 + (gapsOf layout).2.sum +
        word * (gapsOf layout).2.length =
      (layout.map (Part.size word)).sum := by
  induction layout with
  | nil => rfl
  | cons part layout induction =>
      rw [List.map_cons, List.sum_cons, ← induction]
      cases part with
      | word =>
          rw [gapsOf, List.sum_cons, List.length_cons, Nat.mul_succ,
            Part.size]
          omega
      | chunk width =>
          rw [gapsOf, Part.size, Nat.add_assoc, Nat.add_assoc,
            Nat.add_assoc]

/-- The outline has these gaps around its words. -/
def Fills : Nat → List Nat → List Bool → Prop
  | gap, [], outline => outline.length = gap
  | gap, next :: gaps, outline =>
      ∃ zone word rest, outline = zone ++ word ++ false :: rest ∧
        zone.length = gap ∧ false ∉ word ∧ Fills next gaps rest

/-- A gap can be divided. -/
theorem Fills.split {width gap : Nat} {gaps : List Nat}
    {outline : List Bool} (fills : Fills (width + gap) gaps outline) :
    ∃ chunk rest, outline = chunk ++ rest ∧ chunk.length = width ∧
      Fills gap gaps rest := by
  cases gaps with
  | nil =>
      have size : outline.length = width + gap := fills
      refine ⟨outline.take width, outline.drop width,
        (List.take_append_drop width outline).symm, ?_, ?_⟩
      · rw [List.length_take, size]
        exact Nat.min_eq_left (Nat.le_add_right width gap)
      · change (outline.drop width).length = gap
        rw [List.length_drop, size, Nat.add_sub_cancel_left]
  | cons next gaps =>
      rcases fills with ⟨zone, word, rest, rfl, size, unmarked, more⟩
      refine ⟨zone.take width, zone.drop width ++ word ++ false :: rest,
        ?_, ?_, zone.drop width, word, rest, rfl, ?_, unmarked, more⟩
      · rw [← List.append_assoc, ← List.append_assoc,
          List.take_append_drop]
      · rw [List.length_take, size]
        exact Nat.min_eq_left (Nat.le_add_right width gap)
      · rw [List.length_drop, size, Nat.add_sub_cancel_left]

/-- The gaps are all that there is to a layout. -/
theorem fits_of_fills {layout : List Part} {outline : List Bool}
    (fills : Fills (gapsOf layout).1 (gapsOf layout).2 outline) :
    Fits layout outline := by
  induction layout generalizing outline with
  | nil => exact List.eq_nil_of_length_eq_zero fills
  | cons part layout induction =>
      cases part with
      | word =>
          rcases fills with ⟨zone, word, rest, rfl, size, unmarked, more⟩
          rw [List.eq_nil_of_length_eq_zero size, List.nil_append]
          exact ⟨word, rest, rfl, unmarked, induction more⟩
      | chunk width =>
          rcases Fills.split fills with ⟨chunk, rest, rfl, size, more⟩
          exact ⟨chunk, rest, rfl, size, induction more⟩

theorem fits_append {layout layout' : List Part} {outline : List Bool}
    (fits : Fits (layout ++ layout') outline) :
    ∃ front back, outline = front ++ back ∧ Fits layout front ∧
      Fits layout' back := by
  induction layout generalizing outline with
  | nil => exact ⟨[], outline, rfl, rfl, fits⟩
  | cons part layout induction =>
      cases part with
      | word =>
          rcases fits with ⟨word, rest, rfl, unmarked, more⟩
          rcases induction more with ⟨front, back, rfl, here, there⟩
          refine ⟨word ++ false :: front, back, ?_, ?_, there⟩
          · rw [List.append_assoc, List.cons_append]
          · exact ⟨word, front, rfl, unmarked, here⟩
      | chunk width =>
          rcases fits with ⟨chunk, rest, rfl, size, more⟩
          rcases induction more with ⟨front, back, rfl, here, there⟩
          refine ⟨chunk ++ front, back, ?_, ?_, there⟩
          · rw [List.append_assoc]
          · exact ⟨chunk, front, rfl, size, here⟩

/-! ## Items behind an outline -/

section Items

variable {Item : Type u} {Item' : Type v} {Symbol : Type w}
  {write : Bool → Symbol} {code : Item → List Symbol}
  {code' : Item' → List Symbol} {layout layout' : List Part}

/-- Every outline of the layout is written by an item. -/
def Expresses (write : Bool → Symbol) (code : Item → List Symbol)
    (layout : List Part) : Prop :=
  ∀ outline, Fits layout outline → ∃ item, code item = outline.map write

theorem expresses_chunk {width : Nat}
    (all : ∀ symbols : List Symbol, symbols.length = width →
      ∃ item, code item = symbols) :
    Expresses write code [.chunk width] := by
  rintro _ ⟨chunk, _, rfl, size, rfl⟩
  rw [List.append_nil]
  apply all
  rw [List.length_map, size]

theorem expresses_word
    (all : ∀ length,
      ∃ item, code item = List.replicate length (write true) ++ [write false]) :
    Expresses write code [.word] := by
  rintro _ ⟨word, _, rfl, unmarked, rfl⟩
  have plain : ∃ length, word = List.replicate length true :=
    ⟨word.length, List.eq_replicate_of_mem fun symbol member => by
      cases symbol with
      | true => rfl
      | false => exact absurd member unmarked⟩
  rcases plain with ⟨length, rfl⟩
  rcases all length with ⟨item, written⟩
  use item
  rw [written, List.map_append, List.map_replicate, List.map_singleton]

theorem Expresses.pair (expresses : Expresses write code layout)
    (expresses' : Expresses write code' layout') :
    Expresses write (fun item : Item × Item' => code item.1 ++ code' item.2)
      (layout ++ layout') := by
  intro outline fits
  rcases fits_append fits with ⟨front, back, rfl, here, there⟩
  rcases expresses front here with ⟨item, written⟩
  rcases expresses' back there with ⟨item', written'⟩
  use (item, item')
  rw [List.map_append, ← written, ← written']

/-- As many items as the layout is repeated. -/
theorem Expresses.repeated (expresses : Expresses write code layout)
    (count : Nat) :
    Expresses write
      (fun items : {items : List Item // items.length = count} =>
        items.1.flatMap code)
      (List.replicate count layout).flatten := by
  induction count with
  | zero =>
      intro outline fits
      rw [show outline = [] from fits]
      exact ⟨⟨[], rfl⟩, rfl⟩
  | succ count induction =>
      intro outline fits
      rw [List.replicate_succ, List.flatten_cons] at fits
      rcases expresses.pair induction outline fits with
        ⟨⟨item, items, rfl⟩, written⟩
      exact ⟨⟨item :: items, rfl⟩, written⟩

end Items

/-! ## Outlines in common -/

/-- The outline whose words have no symbols. -/
def least (gap : Nat) (gaps : List Nat) : List Bool :=
  List.replicate gap true ++
    gaps.flatMap fun next => false :: List.replicate next true

theorem least_cons (gap next : Nat) (gaps : List Nat) :
    least gap (next :: gaps) =
      List.replicate gap true ++ false :: least next gaps := by
  rw [least, List.flatMap_cons, List.cons_append, least]

theorem false_notMem_replicate (count : Nat) :
    false ∉ List.replicate count true := by
  intro member
  cases List.eq_of_mem_replicate member

theorem fills_least (gap : Nat) (gaps : List Nat) :
    Fills gap gaps (least gap gaps) := by
  induction gaps generalizing gap with
  | nil =>
      change (least gap []).length = gap
      rw [least, List.flatMap_nil, List.append_nil, List.length_replicate]
  | cons next gaps induction =>
      refine ⟨List.replicate gap true, [], least next gaps, ?_,
        List.length_replicate, List.not_mem_nil, induction next⟩
      rw [least_cons, List.append_nil]

theorem count_least (gap : Nat) (gaps : List Nat) :
    (least gap gaps).count false = gaps.length := by
  induction gaps generalizing gap with
  | nil =>
      rw [least, List.flatMap_nil, List.append_nil]
      exact List.count_eq_zero.mpr (false_notMem_replicate gap)
  | cons next gaps induction =>
      rw [least_cons, List.count_append,
        List.count_eq_zero.mpr (false_notMem_replicate gap),
        List.count_cons_self, induction, Nat.zero_add, List.length_cons]

/-- Outlines of all lengths begin like this, from the length on at which the
whole layout has room behind it. -/
def Opens (gap : Nat) (gaps : List Nat) (front : List Bool) : Prop :=
  ∀ size, front.length + (gap + gaps.sum + gaps.length) ≤ size →
    ∃ rest, (front ++ rest).length = size ∧ Fills gap gaps (front ++ rest)

/-- One word less is to come. -/
theorem Opens.cons {gap next : Nat} {gaps : List Nat}
    {zone word front : List Bool} (opens : Opens next gaps front)
    (width : zone.length = gap) (unmarked : false ∉ word) :
    Opens gap (next :: gaps) (zone ++ word ++ false :: front) := by
  intro size room
  rw [List.length_append, List.length_cons, List.sum_cons,
    List.length_cons] at room
  rcases opens (size - (zone ++ word).length - 1) (by omega) with
    ⟨rest, total, fills⟩
  use rest
  rw [List.append_assoc, List.cons_append]
  constructor
  · rw [List.length_append, List.length_cons, total]
    omega
  · exact ⟨zone, word, front ++ rest, rfl, width, unmarked, fills⟩

theorem length_least (gap : Nat) (gaps : List Nat) :
    (least gap gaps).length = gap + gaps.sum + gaps.length := by
  induction gaps generalizing gap with
  | nil =>
      rw [least, List.flatMap_nil, List.append_nil, List.length_replicate]
      rfl
  | cons next gaps induction =>
      rw [least_cons, List.length_append, List.length_replicate,
        List.length_cons, induction, List.sum_cons, List.length_cons]
      omega

/-- A word can be of any length. -/
theorem opens_of_notMem {gap next : Nat} {gaps : List Nat}
    {front : List Bool} (unmarked : false ∉ front.drop gap) :
    Opens gap (next :: gaps) front := by
  intro size room
  let tail := false :: least next gaps
  let missing := List.replicate (gap - front.length) true
  let filler :=
    List.replicate (size - front.length - missing.length - tail.length) true
  have behind : tail.length = next + gaps.sum + gaps.length + 1 :=
    congrArg (· + 1) (length_least next gaps)
  have short : missing.length = gap - front.length :=
    List.length_replicate
  have spare : filler.length =
      size - front.length - missing.length - tail.length :=
    List.length_replicate
  have whole : (front ++ missing).length ≥ gap := by
    rw [List.length_append, short]
    omega
  rw [List.sum_cons, List.length_cons] at room
  refine ⟨missing ++ filler ++ tail, ?_, (front ++ missing).take gap,
    (front ++ missing).drop gap ++ filler, least next gaps, ?_, ?_, ?_,
    fills_least next gaps⟩
  · rw [List.length_append, List.length_append, List.length_append, spare]
    omega
  · rw [← List.append_assoc ((front ++ missing).take gap),
      List.take_append_drop]
    simp only [List.append_assoc, tail]
  · rw [List.length_take]
    exact Nat.min_eq_left whole
  · rw [List.drop_append, List.mem_append, List.mem_append]
    rintro ((here | there) | behind)
    · exact unmarked here
    · exact false_notMem_replicate _ (List.mem_of_mem_drop there)
    · exact false_notMem_replicate _ behind

/-- Fewer marks than words leave a word open. -/
theorem opens_of_lt {gap : Nat} {gaps : List Nat} {front : List Bool}
    (few : (front.drop gap).count false < gaps.length) :
    Opens gap gaps front := by
  induction gaps generalizing gap front with
  | nil => exact absurd few (Nat.not_lt_zero _)
  | cons next gaps induction =>
      by_cases marked : false ∈ front.drop gap
      · rcases List.eq_append_cons_of_mem marked with
          ⟨word, rest, split, unmarked⟩
        have long : gap ≤ front.length := by
          by_contra short
          rw [List.drop_eq_nil_of_le (by omega)] at marked
          cases marked
        have joined : front.take gap ++ word ++ false :: rest = front := by
          rw [List.append_assoc, ← split, List.take_append_drop]
        rw [split, List.count_append, List.count_cons_self,
          List.length_cons] at few
        have fewer := (List.drop_sublist next rest).count_le false
        rw [← joined]
        apply (induction (Nat.lt_of_le_of_lt fewer (by omega))).cons _ unmarked
        rw [List.length_take]
        exact Nat.min_eq_left long
      · exact opens_of_notMem marked

/-- An outline of the first layout, with more behind it, can be continued to
outlines of the second one. -/
def Leads (gap : Nat) (gaps : List Nat) (gap' : Nat) (gaps' : List Nat)
    (more : List Bool) : Prop :=
  ∃ outline, Fills gap gaps outline ∧ Opens gap' gaps' (outline ++ more)

/-- The layouts differ at most in the gap behind the last word. -/
def Joint (gap : Nat) (gaps : List Nat) (gap' : Nat) (gaps' : List Nat) :
    Prop :=
  ∃ front last last',
    gap + gaps.sum + last' = gap' + gaps'.sum + last ∧
      (∀ zone, zone.length = last → Fills gap gaps (front ++ zone)) ∧
        ∀ zone, zone.length = last' → Fills gap' gaps' (front ++ zone)

section

variable {gap next gap' next' : Nat} {gaps gaps' : List Nat}
  {more : List Bool}

/-- The outline without symbols leads to a layout that has more words to come
than it has marks. -/
theorem leads_of_lt (unmarked : false ∉ more)
    (few : ((least gap gaps).drop gap').count false < gaps'.length) :
    Leads gap gaps gap' gaps' more := by
  refine ⟨least gap gaps, fills_least gap gaps, opens_of_lt ?_⟩
  rw [List.drop_append, List.count_append]
  have none : (more.drop (gap' - (least gap gaps).length)).count false = 0 :=
    List.count_eq_zero.mpr fun member =>
      unmarked (List.mem_of_mem_drop member)
  rw [none, Nat.add_zero]
  exact few

/-- A word in the zone of the other layout is lost for it. -/
theorem leads_of_gap_lt (unmarked : false ∉ more) (less : gap < gap')
    (same : gaps.length = gaps'.length) :
    Leads gap (next :: gaps) gap' (next' :: gaps') more := by
  apply leads_of_lt unmarked
  rw [least_cons, ← List.singleton_append, ← List.append_assoc,
    List.drop_append, List.count_append]
  have lost :
      (List.replicate gap true ++ [false]).drop gap' = [] := by
    apply List.drop_eq_nil_of_le
    rw [List.length_append, List.length_replicate, List.length_singleton]
    exact less
  rw [lost, List.count_nil, Nat.zero_add, List.length_cons, ← same]
  have fewer := (List.drop_sublist
    (gap' - (List.replicate gap true ++ [false]).length)
    (least next gaps)).count_le false
  rw [count_least] at fewer
  exact Nat.lt_succ_of_le fewer

theorem Leads.cons (leads : Leads next gaps next' gaps' more) (gap : Nat) :
    Leads gap (next :: gaps) gap (next' :: gaps') more := by
  rcases leads with ⟨outline, fills, opens⟩
  use List.replicate gap true ++ [] ++ false :: outline
  constructor
  · exact ⟨_, [], outline, rfl, List.length_replicate, List.not_mem_nil,
      fills⟩
  · rw [List.append_assoc, List.cons_append]
    exact opens.cons List.length_replicate List.not_mem_nil

theorem Joint.cons (joint : Joint next gaps next' gaps') (gap : Nat) :
    Joint gap (next :: gaps) gap (next' :: gaps') := by
  rcases joint with ⟨front, last, last', total, fills, fills'⟩
  have size : (List.replicate gap true).length = gap :=
    List.length_replicate
  refine ⟨List.replicate gap true ++ [] ++ false :: front, last, last', ?_,
    ?_, ?_⟩
  · rw [List.sum_cons, List.sum_cons]
    omega
  · intro zone width
    rw [List.append_assoc, List.cons_append]
    exact ⟨_, [], front ++ zone, rfl, size, List.not_mem_nil,
      fills zone width⟩
  · intro zone width
    rw [List.append_assoc, List.cons_append]
    exact ⟨_, [], front ++ zone, rfl, size, List.not_mem_nil,
      fills' zone width⟩

/-- Layouts of as many words. -/
theorem leads_or_joint_of_length (unmarked : false ∉ more)
    (same : gaps.length = gaps'.length) :
    Leads gap gaps gap' gaps' more ∨ Leads gap' gaps' gap gaps more ∨
      Joint gap gaps gap' gaps' := by
  induction gaps generalizing gap gap' gaps' with
  | nil =>
      rw [List.eq_nil_of_length_eq_zero same.symm]
      exact Or.inr (Or.inr
        ⟨[], gap, gap', by omega, fun _ => id, fun _ => id⟩)
  | cons next gaps induction =>
      cases gaps' with
      | nil => cases same
      | cons next' gaps' =>
          have fewer := Nat.succ.inj same
          rcases Nat.lt_trichotomy gap gap' with less | rfl | more
          · exact Or.inl (leads_of_gap_lt unmarked less fewer)
          · rcases induction fewer with leads | leads | joint
            · exact Or.inl (leads.cons gap)
            · exact Or.inr (Or.inl (leads.cons gap))
            · exact Or.inr (Or.inr (joint.cons gap))
          · exact Or.inr
              (Or.inl (leads_of_gap_lt unmarked more fewer.symm))

/-- Any two layouts. -/
theorem leads_or_joint (gap : Nat) (gaps : List Nat) (gap' : Nat)
    (gaps' : List Nat) (unmarked : false ∉ more) :
    Leads gap gaps gap' gaps' more ∨ Leads gap' gaps' gap gaps more ∨
      Joint gap gaps gap' gaps' := by
  have words {gap gap' : Nat} {gaps gaps' : List Nat}
      (fewer : gaps.length < gaps'.length) :
      Leads gap gaps gap' gaps' more := by
    apply leads_of_lt unmarked
    have most := (List.drop_sublist gap' (least gap gaps)).count_le false
    rw [count_least] at most
    exact Nat.lt_of_le_of_lt most fewer
  rcases Nat.lt_trichotomy gaps.length gaps'.length with less | same | more
  · exact Or.inl (words less)
  · exact leads_or_joint_of_length unmarked same
  · exact Or.inr (Or.inl (words more))

end

end Runa.Bytes.Layouts
