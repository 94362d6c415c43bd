import Mathlib.Algebra.Order.Floor.Div
import Runa.App.Config

/-!
# Warnings about the load

What `runa/src/config.rs` warns of before a run: the memory of the model, the
memory that is in use and the threads, each against the same percentage.
Every warning names the percentage to set; the one about threads also names a
number of threads.  `advises_iff` says when setting them helps.
-/

namespace Runa.App.LoadWarnings

open Runa.Stream.Utf8
open Runa.App.Config (message)

/-! ## The check -/

structure SystemSnapshot where
  totalRamBytes : UInt64
  availRamBytes : UInt64
  cpuCount : UInt32

/-- Smallest integer percent `p` with `total * p / 100 >= part`; the division
is one of `u128`. -/
def needPercent (part total : UInt64) : UInt8 :=
  if part = 0 ∨ total = 0 then 0
  else (min (UInt64.ofNat ((part.toNat * 100) ⌈/⌉ total.toNat)) 100).toUInt8

/-- What the percentage allows of the memory. -/
def budgetOf (total : UInt64) (limit : UInt8) : UInt64 :=
  total * limit.toUInt64 / 100

/-- A warning, with the numbers it shows. -/
inductive LoadWarning where
  | demand (demand : UInt64) (limit : UInt8) (budget total : UInt64)
      (need : UInt8)
  | used (used : UInt64) (pct : UInt8) (total : UInt64) (limit : UInt8)
  | threads (t : Int32) (pct : UInt8) (cpuCount : UInt32) (limit : UInt8)
      (maxT : UInt64)
deriving DecidableEq, Repr

/-- `demand_warning` -/
def demandWarning (snap : SystemSnapshot) (demandBytes : Option UInt64)
    (limit : UInt8) : Option LoadWarning :=
  match demandBytes.filter (0 < ·) with
  | none => none
  | some demand =>
    if snap.totalRamBytes = 0 then none
    else if demand ≤ budgetOf snap.totalRamBytes limit then none
    else
      some (.demand demand limit (budgetOf snap.totalRamBytes limit)
        snap.totalRamBytes (needPercent demand snap.totalRamBytes))

def usedRam (snap : SystemSnapshot) : UInt64 :=
  snap.totalRamBytes - min snap.availRamBytes snap.totalRamBytes

def usedWarning (snap : SystemSnapshot) (limit : UInt8) :
    Option LoadWarning :=
  if usedRam snap > budgetOf snap.totalRamBytes limit then
    some (.used (usedRam snap)
      (needPercent (usedRam snap) snap.totalRamBytes) snap.totalRamBytes
      limit)
  else none

/-- `max_t` -/
def maxThreads (snap : SystemSnapshot) (limit : UInt8) : UInt64 :=
  max (snap.cpuCount.toUInt64 * limit.toUInt64 / 100) 1

def threadsWarning (snap : SystemSnapshot) (threads : Option Int32)
    (limit : UInt8) : Option LoadWarning :=
  match threads.filter (0 < ·) with
  | none => none
  | some t =>
    if 0 < snap.cpuCount ∧
        t.toUInt32.toUInt64 * 100 >
          snap.cpuCount.toUInt64 * limit.toUInt64 then
      some (.threads t
        (needPercent t.toUInt32.toUInt64 snap.cpuCount.toUInt64)
        snap.cpuCount limit (maxThreads snap limit))
    else none

/-- The warnings of `system_load_warnings`. -/
def loadWarnings (snap : SystemSnapshot) (demandBytes : Option UInt64)
    (threads : Option Int32) (limit : UInt8) : List LoadWarning :=
  if snap.totalRamBytes = 0 then []
  else
    (demandWarning snap demandBytes limit).toList ++
      (usedWarning snap limit).toList ++
        (threadsWarning snap threads limit).toList

/-! ## The lines -/

def mib (bytes : UInt64) : Nat :=
  bytes.toNat ⌈/⌉ (1024 * 1024)

def showNat (n : Nat) : Text :=
  Nat.toDigits 10 n

def settings : Text :=
  ("([system] max_load_percent, RUNA_MAX_LOAD_PERCENT, " ++
    "or --max-load-percent)").toList

def LoadWarning.render : LoadWarning → Text
  | .demand bytes limit budget total need => message
      ["warning: model needs ~".toList, showNat (mib bytes),
        " MiB RAM but max_load_percent=".toList, showNat limit.toNat,
        " allows only ~".toList, showNat (mib budget), " MiB of ".toList,
        showNat (mib total),
        " MiB total — set max_load_percent to at least ".toList,
        showNat need.toNat, " ".toList, settings]
  | .used bytes pct total limit => message
      ["warning: system already uses ~".toList, showNat (mib bytes),
        " MiB RAM (".toList, showNat pct.toNat, "% of ".toList,
        showNat (mib total), " MiB), above max_load_percent=".toList,
        showNat limit.toNat, " — set max_load_percent to at least ".toList,
        showNat pct.toNat, " ".toList, settings]
  | .threads t pct cpuCount limit maxT => message
      ["warning: --threads ".toList, (toString t.toInt).toList,
        " wants ~".toList, showNat pct.toNat, "% of ".toList,
        showNat cpuCount.toNat, " CPUs, above max_load_percent=".toList,
        showNat limit.toNat, " — set max_load_percent to at least ".toList,
        showNat pct.toNat, " ".toList, settings,
        " or lower --threads to ".toList, showNat maxT.toNat]

/-- `system_load_warnings` -/
def systemLoadWarnings (snap : SystemSnapshot) (demandBytes : Option UInt64)
    (threads : Option Int32) (limit : UInt8) : List Text :=
  (loadWarnings snap demandBytes threads limit).map LoadWarning.render

/-! ## What a warning says -/

inductive Resource where
  | demand
  | used
  | threads
deriving DecidableEq, Repr

def LoadWarning.resource : LoadWarning → Resource
  | .demand .. => .demand
  | .used .. => .used
  | .threads .. => .threads

/-- The percentage to set. -/
def LoadWarning.percent : LoadWarning → UInt8
  | .demand _ _ _ _ need => need
  | .used _ pct _ _ => pct
  | .threads _ pct _ _ _ => pct

/-- The number of threads to lower `--threads` to. -/
def LoadWarning.fewer : LoadWarning → Option UInt64
  | .threads _ _ _ _ maxT => some maxT
  | _ => none

/-- How the line of a resource begins. -/
def Resource.opening : Resource → Text
  | .demand => "warning: model needs ~".toList
  | .used => "warning: system already uses ~".toList
  | .threads => "warning: --threads ".toList

theorem LoadWarning.opening_prefix (warning : LoadWarning) :
    warning.resource.opening <+: warning.render := by
  cases warning <;>
    · rw [LoadWarning.render, message, List.flatten_cons]
      exact List.prefix_append _ _

/-- The line alone tells what it warns of. -/
theorem LoadWarning.resource_eq_of_render {left right : LoadWarning}
    (same : left.render = right.render) : left.resource = right.resource := by
  have openings : left.resource.opening.take 10 =
      right.resource.opening.take 10 := by
    rcases left.opening_prefix with ⟨rest, leftSplit⟩
    rcases right.opening_prefix with ⟨other, rightSplit⟩
    rw [← leftSplit, ← rightSplit] at same
    have front := congrArg (List.take 10) same
    rw [List.take_append_of_le_length, List.take_append_of_le_length]
      at front
    · exact front
    · cases right.resource <;> decide
    · cases left.resource <;> decide
  revert openings
  cases left.resource <;> cases right.resource <;> decide

/-- Whether the check warns of a resource. -/
def Warns (snap : SystemSnapshot) (demandBytes : Option UInt64)
    (threads : Option Int32) (limit : UInt8) (resource : Resource) : Prop :=
  ∃ warning ∈ loadWarnings snap demandBytes threads limit,
    warning.resource = resource

/-- The least percentage that something does not exceed. -/
structure Least (exceeds : UInt8 → Prop) (percent : UInt8) : Prop where
  positive : 1 ≤ percent
  small : percent ≤ 100
  enough : ¬ exceeds percent
  least : ∀ smaller < percent, exceeds smaller

/-- What a warning names helps: the percentage is the least that silences it,
and the number of threads silences it at the limit as it is. -/
structure Advises (snap : SystemSnapshot) (demandBytes : Option UInt64)
    (threads : Option Int32) (limit : UInt8) (warning : LoadWarning) :
    Prop where
  percent : Least
    (fun percent => Warns snap demandBytes threads percent warning.resource)
    warning.percent
  fewer : ∀ maxT, warning.fewer = some maxT →
    ¬ Warns snap demandBytes (some (Int32.ofNat maxT.toNat)) limit
      warning.resource

/-- The model fits the machine, and so do the threads, with a share of a whole
processor at least, unless the limit allows them. -/
structure WithinReach (snap : SystemSnapshot) (demandBytes : Option UInt64)
    (threads : Option Int32) (limit : UInt8) : Prop where
  demand : ∀ demand, demandBytes = some demand →
    demand ≤ snap.totalRamBytes
  threads : ∀ t, threads = some t →
    t.toInt * 100 ≤ snap.cpuCount.toNat * limit.toNat ∨
      t.toInt ≤ snap.cpuCount.toNat ∧
        100 ≤ snap.cpuCount.toNat * limit.toNat

/-! ## Exceeding a percentage -/

/-- More than a percentage of the whole. -/
def Exceeds (part total limit : Nat) : Prop :=
  total * limit < part * 100

theorem exceeds_iff_lt {part total limit : Nat} (some : 0 < total) :
    Exceeds part total limit ↔ limit < (part * 100) ⌈/⌉ total := by
  rw [Exceeds, ← not_le, ← not_le, ceilDiv_le_iff_le_mul some]

theorem exceeds_of_not_le {part total limit : Nat} (more : ¬ part ≤ total)
    (small : limit ≤ 100) : Exceeds part total limit :=
  calc total * limit
    _ ≤ total * 100 := Nat.mul_le_mul_left total small
    _ < part * 100 := by omega

theorem budget_lt_iff {part total : UInt64} {limit : UInt8}
    (fits : total.toNat * 100 < 2 ^ 64) (small : limit ≤ 100) :
    budgetOf total limit < part ↔
      Exceeds part.toNat total.toNat limit.toNat := by
  have small : limit.toNat ≤ 100 := small
  have below : total.toNat * limit.toNat < 2 ^ 64 :=
    lt_of_le_of_lt (Nat.mul_le_mul_left _ small) fits
  rw [budgetOf, UInt64.lt_iff_toNat_lt, UInt64.toNat_div, UInt64.toNat_mul,
    UInt8.toNat_toUInt64, Nat.mod_eq_of_lt below]
  exact Nat.div_lt_iff_lt_mul (by decide)

theorem usedRam_le (snap : SystemSnapshot) :
    usedRam snap ≤ snap.totalRamBytes := by
  have least : min snap.availRamBytes snap.totalRamBytes ≤
      snap.totalRamBytes := Std.min_le_right
  rw [usedRam, UInt64.le_iff_toNat_le, UInt64.toNat_sub_of_le _ _ least]
  exact Nat.sub_le _ _

/-! ## The percentage to set -/

theorem toNat_needPercent {part total : UInt64} (some : 0 < part)
    (within : part ≤ total) :
    (needPercent part total).toNat =
      (part.toNat * 100) ⌈/⌉ total.toNat := by
  have whole : 0 < total := UInt64.lt_of_lt_of_le some within
  have small : (part.toNat * 100) ⌈/⌉ total.toNat ≤ 100 := by
    rw [ceilDiv_le_iff_le_mul whole]
    exact Nat.mul_le_mul_right 100 within
  have known : ¬ (part = 0 ∨ total = 0) :=
    not_or.mpr
      ⟨UInt64.pos_iff_ne_zero.mp some, UInt64.pos_iff_ne_zero.mp whole⟩
  rw [needPercent, if_neg known]
  generalize (part.toNat * 100) ⌈/⌉ total.toNat = need at small ⊢
  have fits : need < 2 ^ 64 := by omega
  have least : min (UInt64.ofNat need) 100 = UInt64.ofNat need := by
    apply if_pos
    rw [UInt64.le_iff_toNat_le, UInt64.toNat_ofNat_of_lt' fits]
    exact small
  rw [least, UInt64.toNat_toUInt8, UInt64.toNat_ofNat_of_lt' fits]
  exact Nat.mod_eq_of_lt (by omega)

theorem Least.congr {left right : UInt8 → Prop} {percent : UInt8}
    (same : ∀ percent ≤ 100, left percent ↔ right percent)
    (least : Least left percent) : Least right percent where
  positive := least.positive
  small := least.small
  enough := by
    rw [← same percent least.small]
    exact least.enough
  least smaller less := by
    rw [← same smaller (UInt8.le_trans (UInt8.le_of_lt less) least.small)]
    exact least.least smaller less

/-- The percentage that is named is the least one, unless there is none. -/
theorem least_needPercent {part total : UInt64} (some : 0 < part) :
    Least (fun percent => Exceeds part.toNat total.toNat percent.toNat)
        (needPercent part total) ↔
      part ≤ total := by
  constructor
  · intro advised
    by_contra more
    exact advised.enough (exceeds_of_not_le more advised.small)
  · intro within
    have whole : 0 < total.toNat := UInt64.lt_of_lt_of_le some within
    have need := toNat_needPercent some within
    have zero : Exceeds part.toNat total.toNat 0 :=
      Nat.mul_pos some (by decide)
    have all : ¬ Exceeds part.toNat total.toNat 100 :=
      not_lt.mpr (Nat.mul_le_mul_right 100 within)
    constructor
    · rw [exceeds_iff_lt whole, ← need] at zero
      exact zero
    · rw [exceeds_iff_lt whole, ← need, not_lt] at all
      exact all
    · rw [exceeds_iff_lt whole, need]
      exact lt_irrefl _
    · intro smaller less
      rw [exceeds_iff_lt whole, ← need]
      exact less

/-! ## When the check warns -/

section

variable {snap : SystemSnapshot} {demandBytes : Option UInt64}
  {threads : Option Int32} {limit : UInt8}

theorem mem_loadWarnings (ram : 0 < snap.totalRamBytes)
    {warning : LoadWarning} :
    warning ∈ loadWarnings snap demandBytes threads limit ↔
      demandWarning snap demandBytes limit = some warning ∨
        usedWarning snap limit = some warning ∨
          threadsWarning snap threads limit = some warning := by
  have known : snap.totalRamBytes ≠ 0 := UInt64.pos_iff_ne_zero.mp ram
  rw [loadWarnings, if_neg known, List.mem_append, List.mem_append,
    Option.mem_toList, Option.mem_toList, Option.mem_toList, or_assoc]

/-- The warning about the model. -/
theorem demandWarning_eq_some (ram : 0 < snap.totalRamBytes)
    (fits : snap.totalRamBytes.toNat * 100 < 2 ^ 64) (small : limit ≤ 100)
    {warning : LoadWarning} :
    demandWarning snap demandBytes limit = some warning ↔
      ∃ demand, demandBytes = some demand ∧
        Exceeds demand.toNat snap.totalRamBytes.toNat limit.toNat ∧
          .demand demand limit (budgetOf snap.totalRamBytes limit)
            snap.totalRamBytes (needPercent demand snap.totalRamBytes) =
              warning := by
  have known : snap.totalRamBytes ≠ 0 := UInt64.pos_iff_ne_zero.mp ram
  constructor
  · intro warns
    unfold demandWarning at warns
    split at warns
    · cases warns
    case h_2 demand asked =>
      rcases Option.filter_eq_some_iff.mp asked with ⟨given, -⟩
      rw [if_neg known] at warns
      split at warns
      · cases warns
      case isFalse above =>
        rw [UInt64.not_le, budget_lt_iff fits small] at above
        exact ⟨demand, given, above, Option.some.inj warns⟩
  · rintro ⟨demand, rfl, above, rfl⟩
    have asked : 0 < demand := by
      rw [UInt64.lt_iff_toNat_lt]
      unfold Exceeds at above
      exact Nat.pos_of_mul_pos_right (Nat.zero_lt_of_lt above)
    rw [← budget_lt_iff fits small, ← UInt64.not_le] at above
    rw [demandWarning, Option.filter_some, if_pos (decide_eq_true asked)]
    simp only [if_neg known, if_neg above]

/-- The warning about the memory in use. -/
theorem usedWarning_eq_some
    (fits : snap.totalRamBytes.toNat * 100 < 2 ^ 64) (small : limit ≤ 100)
    {warning : LoadWarning} :
    usedWarning snap limit = some warning ↔
      Exceeds (usedRam snap).toNat snap.totalRamBytes.toNat limit.toNat ∧
        .used (usedRam snap)
          (needPercent (usedRam snap) snap.totalRamBytes)
          snap.totalRamBytes limit = warning := by
  rw [usedWarning, ← budget_lt_iff fits small]
  split
  case isTrue above => simp [above]
  case isFalse above => simp [above]

theorem toNat_threads {t : Int32} (positive : 0 < t) :
    t.toUInt32.toUInt64.toNat = t.toNatClampNeg := by
  rw [UInt32.toNat_toUInt64,
    Int32.toNat_toUInt32_of_le (Int32.le_of_lt positive)]

/-- The product of the limit is one of words. -/
theorem toNat_shares :
    (snap.cpuCount.toUInt64 * limit.toUInt64).toNat =
      snap.cpuCount.toNat * limit.toNat := by
  have shares : snap.cpuCount.toNat * limit.toNat < 2 ^ 64 :=
    calc snap.cpuCount.toNat * limit.toNat
      _ ≤ 2 ^ 32 * 2 ^ 8 :=
        Nat.mul_le_mul snap.cpuCount.toNat_lt.le limit.toNat_lt.le
      _ < 2 ^ 64 := by decide
  rw [UInt64.toNat_mul, UInt32.toNat_toUInt64, UInt8.toNat_toUInt64,
    Nat.mod_eq_of_lt shares]

theorem threads_lt_iff {t : UInt32} :
    snap.cpuCount.toUInt64 * limit.toUInt64 < t.toUInt64 * 100 ↔
      Exceeds t.toUInt64.toNat snap.cpuCount.toUInt64.toNat limit.toNat := by
  have wanted : t.toNat * 100 < 2 ^ 64 := by
    have := t.toNat_lt
    omega
  rw [Exceeds, UInt64.lt_iff_toNat_lt, toNat_shares, UInt64.toNat_mul,
    UInt32.toNat_toUInt64, UInt32.toNat_toUInt64]
  change _ < t.toNat * 100 % 2 ^ 64 ↔ _
  rw [Nat.mod_eq_of_lt wanted]

/-- The warning about the threads. -/
theorem threadsWarning_eq_some (cpus : 0 < snap.cpuCount)
    {warning : LoadWarning} :
    threadsWarning snap threads limit = some warning ↔
      ∃ t, threads = some t ∧ 0 < t ∧
        Exceeds t.toUInt32.toUInt64.toNat snap.cpuCount.toUInt64.toNat
            limit.toNat ∧
          .threads t
            (needPercent t.toUInt32.toUInt64 snap.cpuCount.toUInt64)
            snap.cpuCount limit (maxThreads snap limit) = warning := by
  constructor
  · intro warns
    unfold threadsWarning at warns
    split at warns
    · cases warns
    case h_2 t asked =>
      rcases Option.filter_eq_some_iff.mp asked with ⟨given, positive⟩
      have positive : 0 < t := of_decide_eq_true positive
      split at warns
      case isTrue above =>
        exact ⟨t, given, positive, threads_lt_iff.mp above.2,
          Option.some.inj warns⟩
      · cases warns
  · rintro ⟨t, rfl, positive, above, rfl⟩
    rw [← threads_lt_iff] at above
    rw [threadsWarning, Option.filter_some, if_pos (decide_eq_true positive)]
    exact if_pos ⟨cpus, above⟩

end

/-! ## All resources alike -/

/-- A part of a whole that the check compares. -/
structure Load where
  part : UInt64
  total : UInt64

def Load.Exceeds (load : Load) (limit : UInt8) : Prop :=
  LoadWarnings.Exceeds load.part.toNat load.total.toNat limit.toNat

/-- What the check compares, for one resource. -/
def loadOf (snap : SystemSnapshot) (demandBytes : Option UInt64)
    (threads : Option Int32) : Resource → Option Load
  | .demand => demandBytes.map fun demand => ⟨demand, snap.totalRamBytes⟩
  | .used => some ⟨usedRam snap, snap.totalRamBytes⟩
  | .threads => (threads.filter (0 < ·)).map fun t =>
      ⟨t.toUInt32.toUInt64, snap.cpuCount.toUInt64⟩

/-- What a snapshot has where the check can say something. -/
structure Known (snap : SystemSnapshot) : Prop where
  ram : 0 < snap.totalRamBytes
  cpus : 0 < snap.cpuCount
  fits : snap.totalRamBytes.toNat * 100 < 2 ^ 64

section

variable {snap : SystemSnapshot} {demandBytes : Option UInt64}
  {threads : Option Int32} {limit : UInt8}

/-- The three warnings, by what exceeds the limit. -/
theorem mem_loadWarnings_iff (known : Known snap) (small : limit ≤ 100)
    {warning : LoadWarning} :
    warning ∈ loadWarnings snap demandBytes threads limit ↔
      (∃ demand, demandBytes = some demand ∧
        Exceeds demand.toNat snap.totalRamBytes.toNat limit.toNat ∧
          .demand demand limit (budgetOf snap.totalRamBytes limit)
            snap.totalRamBytes (needPercent demand snap.totalRamBytes) =
              warning) ∨
      (Exceeds (usedRam snap).toNat snap.totalRamBytes.toNat limit.toNat ∧
        .used (usedRam snap)
          (needPercent (usedRam snap) snap.totalRamBytes)
          snap.totalRamBytes limit = warning) ∨
      ∃ t, threads = some t ∧ 0 < t ∧
        Exceeds t.toUInt32.toUInt64.toNat snap.cpuCount.toUInt64.toNat
            limit.toNat ∧
          .threads t
            (needPercent t.toUInt32.toUInt64 snap.cpuCount.toUInt64)
            snap.cpuCount limit (maxThreads snap limit) = warning := by
  rw [mem_loadWarnings known.ram, demandWarning_eq_some known.ram known.fits
    small, usedWarning_eq_some known.fits small,
    threadsWarning_eq_some known.cpus]

/-- A warning is about a load that exceeds the limit, and names what it
needs. -/
theorem exists_load (known : Known snap) (small : limit ≤ 100)
    {warning : LoadWarning}
    (member : warning ∈ loadWarnings snap demandBytes threads limit) :
    ∃ load, loadOf snap demandBytes threads warning.resource = some load ∧
      load.Exceeds limit ∧
        warning.percent = needPercent load.part load.total := by
  rcases (mem_loadWarnings_iff known small).mp member with
    ⟨demand, rfl, above, rfl⟩ | ⟨above, rfl⟩ |
      ⟨t, rfl, positive, above, rfl⟩
  · exact ⟨_, rfl, above, rfl⟩
  · exact ⟨_, rfl, above, rfl⟩
  · refine ⟨⟨t.toUInt32.toUInt64, snap.cpuCount.toUInt64⟩, ?_, above, rfl⟩
    rw [LoadWarning.resource, loadOf, Option.filter_some,
      if_pos (decide_eq_true positive), Option.map_some]

/-- The check warns of what exceeds the limit. -/
theorem warns_iff (known : Known snap) (small : limit ≤ 100)
    {resource : Resource} :
    Warns snap demandBytes threads limit resource ↔
      ∃ load, loadOf snap demandBytes threads resource = some load ∧
        load.Exceeds limit := by
  constructor
  · rintro ⟨warning, member, rfl⟩
    rcases exists_load known small member with ⟨load, given, above, -⟩
    exact ⟨load, given, above⟩
  · rintro ⟨load, given, above⟩
    unfold Warns
    simp only [mem_loadWarnings_iff known small]
    cases resource with
    | demand =>
        rcases Option.map_eq_some_iff.mp given with ⟨demand, asked, rfl⟩
        exact ⟨_, Or.inl ⟨demand, asked, above, rfl⟩, rfl⟩
    | used =>
        cases given
        exact ⟨_, Or.inr (Or.inl ⟨above, rfl⟩), rfl⟩
    | threads =>
        rcases Option.map_eq_some_iff.mp given with ⟨t, asked, rfl⟩
        rcases Option.filter_eq_some_iff.mp asked with ⟨asked, positive⟩
        exact ⟨_, Or.inr (Or.inr
          ⟨t, asked, of_decide_eq_true positive, above, rfl⟩), rfl⟩

/-- What a warning names is the least percentage that silences it, where its
load is a part of the whole. -/
theorem least_iff (known : Known snap)
    {warning : LoadWarning} {load : Load}
    (given : loadOf snap demandBytes threads warning.resource = some load)
    (above : load.Exceeds limit)
    (named : warning.percent = needPercent load.part load.total) :
    Least
        (fun percent => Warns snap demandBytes threads percent
          warning.resource)
        warning.percent ↔
      load.part ≤ load.total := by
  have some : 0 < load.part :=
    Nat.pos_of_mul_pos_right (Nat.zero_lt_of_lt above)
  have same : ∀ percent ≤ 100,
      Warns snap demandBytes threads percent warning.resource ↔
        load.Exceeds percent := by
    intro percent small
    rw [warns_iff known small, given]
    simp
  rw [← least_needPercent some, ← named]
  exact ⟨Least.congr same, Least.congr fun percent small =>
    (same percent small).symm⟩

theorem toNat_maxThreads :
    (maxThreads snap limit).toNat =
      max (snap.cpuCount.toNat * limit.toNat / 100) 1 := by
  have quotient :
      (snap.cpuCount.toUInt64 * limit.toUInt64 / 100).toNat =
        snap.cpuCount.toNat * limit.toNat / 100 := by
    rw [UInt64.toNat_div, toNat_shares]
    rfl
  rw [← quotient, maxThreads]
  generalize snap.cpuCount.toUInt64 * limit.toUInt64 / 100 = share
  change (if share ≤ 1 then 1 else share).toNat = _
  split
  case isTrue low => exact (max_eq_right low).symm
  case isFalse high => exact (max_eq_left (not_le.mp high).le).symm

/-- The number of threads that is named is silent where the limit allows a
whole processor. -/
theorem fewer_silent_iff (known : Known snap) (small : limit ≤ 100)
    {t : Int32} (positive : 0 < t)
    (above : Exceeds t.toUInt32.toUInt64.toNat snap.cpuCount.toUInt64.toNat
      limit.toNat) :
    ¬ Warns snap demandBytes
        (some (Int32.ofNat (maxThreads snap limit).toNat)) limit .threads ↔
      100 ≤ snap.cpuCount.toNat * limit.toNat := by
  have one : 1 ≤ t.toNatClampNeg :=
    (Int32.toNatClampNeg_pos_iff t).mpr positive
  have word := t.toNatClampNeg_lt
  rw [toNat_threads positive, UInt32.toNat_toUInt64, Exceeds] at above
  rw [toNat_maxThreads]
  generalize count : max (snap.cpuCount.toNat * limit.toNat / 100) 1 = fewer
  have within : fewer < 2 ^ 31 := by omega
  have some : 0 < Int32.ofNat fewer := by
    rw [← Int32.toNatClampNeg_pos_iff,
      Int32.toNatClampNeg_ofNat_of_lt within]
    omega
  rw [warns_iff known small, loadOf, Option.filter_some,
    if_pos (decide_eq_true some)]
  simp only [Option.map_some, Option.some.injEq, exists_eq_left', Load.Exceeds,
    Exceeds, toNat_threads some, Int32.toNatClampNeg_ofNat_of_lt within,
    UInt32.toNat_toUInt64]
  omega

/-- The threads against the limit, over the integers. -/
theorem threads_exceed_iff {t : Int32} (positive : 0 < t) :
    Exceeds t.toUInt32.toUInt64.toNat snap.cpuCount.toUInt64.toNat
        limit.toNat ↔
      ¬ t.toInt * 100 ≤ snap.cpuCount.toNat * limit.toNat := by
  rw [toNat_threads positive, UInt32.toNat_toUInt64, Exceeds,
    ← Int32.cast_toNatClampNeg t (Int32.le_of_lt positive)]
  omega

theorem threads_le_iff {t : Int32} (positive : 0 < t) :
    t.toUInt32.toUInt64 ≤ snap.cpuCount.toUInt64 ↔
      t.toInt ≤ snap.cpuCount.toNat := by
  rw [UInt64.le_iff_toNat_le, toNat_threads positive, UInt32.toNat_toUInt64,
    ← Int32.cast_toNatClampNeg t (Int32.le_of_lt positive), Int.ofNat_le]

theorem positive_of_exceeds {t : Int32}
    (above : ¬ t.toInt * 100 ≤ snap.cpuCount.toNat * limit.toNat) :
    0 < t := by
  rw [Int32.lt_iff_toInt_lt]
  change 0 < t.toInt
  have shares := Int.natCast_nonneg (snap.cpuCount.toNat * limit.toNat)
  push_cast at shares
  omega

/-- A warning about threads is about those that are asked for. -/
theorem fewer_of_threads (known : Known snap) (small : limit ≤ 100)
    {warning : LoadWarning}
    (member : warning ∈ loadWarnings snap demandBytes threads limit)
    (about : warning.resource = .threads) :
    ∃ t, threads = some t ∧ 0 < t ∧
      Exceeds t.toUInt32.toUInt64.toNat snap.cpuCount.toUInt64.toNat
        limit.toNat ∧
      warning.fewer = some (maxThreads snap limit) := by
  rcases (mem_loadWarnings_iff known small).mp member with
    ⟨demand, rfl, above, rfl⟩ | ⟨above, rfl⟩ |
      ⟨t, rfl, positive, above, rfl⟩
  · cases about
  · cases about
  · exact ⟨t, rfl, positive, above, rfl⟩

/-- What is warned of with good advice is a part of its whole. -/
theorem part_le_of_advised (known : Known snap) (small : limit ≤ 100)
    {warning : LoadWarning}
    (member : warning ∈ loadWarnings snap demandBytes threads limit)
    (advises : Advises snap demandBytes threads limit warning)
    {load : Load}
    (given : loadOf snap demandBytes threads warning.resource = some load) :
    load.part ≤ load.total := by
  rcases exists_load known small member with ⟨same, found, above, named⟩
  rw [given] at found
  cases found
  exact (least_iff known given above named).mp advises.percent

/-- What the warnings name helps where the model and the threads are within
reach of the machine. -/
theorem advises_iff (known : Known snap) (small : limit ≤ 100) :
    (∀ warning ∈ loadWarnings snap demandBytes threads limit,
        Advises snap demandBytes threads limit warning) ↔
      WithinReach snap demandBytes threads limit := by
  constructor
  · intro advised
    constructor
    · intro demand asked
      by_contra more
      have given : loadOf snap demandBytes threads .demand =
          some ⟨demand, snap.totalRamBytes⟩ := by
        rw [loadOf, asked, Option.map_some]
      rcases (warns_iff known small).mpr
        ⟨_, given, exceeds_of_not_le more small⟩ with
        ⟨warning, member, about⟩
      rw [← about] at given
      exact more
        (part_le_of_advised known small member (advised _ member) given)
    · intro t asked
      by_cases within : t.toInt * 100 ≤ snap.cpuCount.toNat * limit.toNat
      · exact Or.inl within
      · right
        have positive := positive_of_exceeds within
        have above := (threads_exceed_iff positive).mpr within
        have given : loadOf snap demandBytes threads .threads =
            some ⟨t.toUInt32.toUInt64, snap.cpuCount.toUInt64⟩ := by
          rw [loadOf, asked, Option.filter_some,
            if_pos (decide_eq_true positive), Option.map_some]
        rcases (warns_iff known small).mpr ⟨_, given, above⟩ with
          ⟨warning, member, about⟩
        rcases fewer_of_threads known small member about with
          ⟨same, _, _, _, fewer⟩
        have silent := (advised warning member).fewer _ fewer
        rw [about, fewer_silent_iff known small positive above] at silent
        rw [← about] at given
        have inside :=
          part_le_of_advised known small member (advised _ member) given
        exact ⟨(threads_le_iff positive).mp inside, silent⟩
  · intro reach warning member
    rcases exists_load known small member with ⟨load, given, above, named⟩
    have inside : load.part ≤ load.total := by
      cases about : warning.resource with
      | demand =>
          rw [about] at given
          rcases Option.map_eq_some_iff.mp given with ⟨demand, asked, rfl⟩
          exact reach.demand demand asked
      | used =>
          rw [about] at given
          cases given
          exact usedRam_le snap
      | threads =>
          rw [about] at given
          rcases Option.map_eq_some_iff.mp given with ⟨t, asked, rfl⟩
          rcases Option.filter_eq_some_iff.mp asked with ⟨asked, positive⟩
          have positive : 0 < t := of_decide_eq_true positive
          rcases reach.threads t asked with within | ⟨inside, -⟩
          · exact absurd within ((threads_exceed_iff positive).mp above)
          · exact (threads_le_iff positive).mpr inside
    constructor
    · exact (least_iff known given above named).mpr inside
    · intro maxT fewer
      have about : warning.resource = .threads := by
        cases warning with
        | threads => rfl
        | demand => cases fewer
        | used => cases fewer
      rcases fewer_of_threads known small member about with
        ⟨t, asked, positive, above, named⟩
      rw [fewer] at named
      cases named
      rw [about, fewer_silent_iff known small positive above]
      rcases reach.threads t asked with within | ⟨-, whole⟩
      · exact absurd within ((threads_exceed_iff positive).mp above)
      · exact whole

end

/-- Half of the memory in use, and 8 threads on 8 processors. -/
def halfUsed : SystemSnapshot :=
  ⟨16384, 8192, 8⟩

theorem known_halfUsed : Known halfUsed :=
  ⟨by decide, by decide, by decide⟩

/-- All three warnings, with advice that helps. -/
theorem advises_halfUsed :
    loadWarnings halfUsed (some 12000) (some 8) 40 =
        [.demand 12000 40 6553 16384 74, .used 8192 50 16384 40,
          .threads 8 100 8 40 3] ∧
      Advises halfUsed (some 12000) (some 8) 40
        (.demand 12000 40 6553 16384 74) ∧
      Advises halfUsed (some 12000) (some 8) 40 (.used 8192 50 16384 40) ∧
      Advises halfUsed (some 12000) (some 8) 40
        (.threads 8 100 8 40 3) := by
  have listed : loadWarnings halfUsed (some 12000) (some 8) 40 =
      [.demand 12000 40 6553 16384 74, .used 8192 50 16384 40,
        .threads 8 100 8 40 3] := by decide +kernel
  have reach : WithinReach halfUsed (some 12000) (some 8) 40 := by
    constructor
    · rintro demand ⟨⟩
      decide
    · rintro t ⟨⟩
      exact Or.inr (by decide)
  have advised := (advises_iff known_halfUsed (by decide)).mpr reach
  rw [listed] at advised
  refine ⟨listed, advised _ ?_, advised _ ?_, advised _ ?_⟩ <;> simp

/-- A model that is larger than the memory: the most there is to set is not
enough. -/
theorem not_advises_large :
    loadWarnings halfUsed (some 20000) none 80 =
        [.demand 20000 80 13107 16384 100] ∧
      loadWarnings halfUsed (some 20000) none 100 =
        [.demand 20000 100 16384 16384 100] ∧
      ¬ Advises halfUsed (some 20000) none 80
        (.demand 20000 80 13107 16384 100) := by
  have again : loadWarnings halfUsed (some 20000) none 100 =
      [.demand 20000 100 16384 16384 100] := by decide +kernel
  refine ⟨by decide +kernel, again, ?_⟩
  intro advises
  apply advises.percent.enough
  change Warns halfUsed (some 20000) none 100 .demand
  rw [Warns, again]
  exact ⟨_, List.mem_singleton_self _, rfl⟩

end Runa.App.LoadWarnings
