import Runa.Feedback.Median
import Runa.Stream.Utf8
import Mathlib.Data.List.Dedup
import Mathlib.Algebra.Order.Ring.Rat

/-!
# The calibration database

The embedding of `CalibrationDb` of `runa-fit/src/calibration.rs` and of
`apply_efficiency` of `speed.rs`.  Speeds are exact numbers.  A file that is
missing or cannot be read is an empty database.

`Calibrated` says that the ratios of one device, backend and quantization are
the ones of a correction that is fed back: each was taken against what the
ones before it predicted.
-/

namespace Runa.Fit.Calibration

open Runa.Feedback.Median
open Runa.Stream.Utf8

/-- A single calibration sample. -/
structure CalibrationSample where
  modelHash : Text
  quant : Text
  placement : Text
  ctx : Nat
  measuredPp : Rat
  measuredTg : Rat
  predictedPp : Rat
  predictedTg : Rat
  device : Text
  backend : Text
  timestamp : Text
deriving DecidableEq, Repr

/-- Computed efficiency factor for a (device, backend, quant) triple. -/
structure Efficiency where
  device : Text
  backend : Text
  quant : Text
  ppEfficiency : Rat
  tgEfficiency : Rat
  sampleCount : Nat
deriving DecidableEq, Repr

structure CalibrationDb where
  samples : List CalibrationSample
deriving DecidableEq, Repr

/-- Device, backend and quantization. -/
structure Key where
  device : Text
  backend : Text
  quant : Text
deriving DecidableEq, Repr

def CalibrationSample.key (sample : CalibrationSample) : Key :=
  ⟨sample.device, sample.backend, sample.quant⟩

/-- The ratios of the samples that predicted anything. -/
def ratios (measured predicted : CalibrationSample → Rat)
    (samples : List CalibrationSample) : List Rat :=
  (samples.filter fun sample => decide (0 < predicted sample)).map
    fun sample => measured sample / predicted sample

/-- The efficiency of a group of samples. -/
def efficiencyOf (key : Key) (samples : List CalibrationSample) :
    Efficiency where
  device := key.device
  backend := key.backend
  quant := key.quant
  ppEfficiency :=
    (median (ratios CalibrationSample.measuredPp
      CalibrationSample.predictedPp samples)).getD 1
  tgEfficiency :=
    (median (ratios CalibrationSample.measuredTg
      CalibrationSample.predictedTg samples)).getD 1
  sampleCount := samples.length

namespace CalibrationDb

def new : CalibrationDb := ⟨[]⟩

def insert (db : CalibrationDb) (sample : CalibrationSample) :
    CalibrationDb :=
  ⟨db.samples ++ [sample]⟩

/-- The samples of a key. -/
def group (db : CalibrationDb) (key : Key) : List CalibrationSample :=
  db.samples.filter fun sample => decide (sample.key = key)

/-- One efficiency a group; the source has them in the order of a hash map,
and looks them up by their key. -/
def computeEfficiencies (db : CalibrationDb) : List Efficiency :=
  (db.samples.map CalibrationSample.key).dedup.map fun key =>
    efficiencyOf key (db.group key)

def getEfficiency (db : CalibrationDb) (device backend quant : Text) :
    Option Efficiency :=
  db.computeEfficiencies.find? fun efficiency =>
    efficiency.device = device ∧ efficiency.backend = backend ∧
      efficiency.quant = quant

end CalibrationDb

/-- A factor that is not positive is taken for missing. -/
def scale (raw factor : Rat) : Rat :=
  if 0 < factor then raw * factor else raw

/-- Scale raw prefill/decode predictions by a calibration efficiency. -/
def applyEfficiency (pp tg : Rat) : Option Efficiency → Rat × Rat
  | none => (pp, tg)
  | some efficiency =>
      (scale pp efficiency.ppEfficiency, scale tg efficiency.tgEfficiency)

/-! ## The samples of one key -/

section Groups

variable {db : CalibrationDb} {key : Key} {sample : CalibrationSample}

theorem group_insert (same : sample.key = key) :
    (db.insert sample).group key = db.group key ++ [sample] := by
  simp [CalibrationDb.group, CalibrationDb.insert, same]

theorem efficiencyOf_matches_iff (samples : List CalibrationSample)
    (other : Key) :
    ((efficiencyOf other samples).device = key.device ∧
        (efficiencyOf other samples).backend = key.backend ∧
          (efficiencyOf other samples).quant = key.quant) ↔
      other = key := by
  constructor
  · rintro ⟨device, backend, quant⟩
    cases other
    cases key
    cases device
    cases backend
    cases quant
    rfl
  · rintro rfl
    exact ⟨rfl, rfl, rfl⟩

/-- The efficiency of a key is the one of its group, if there is one. -/
theorem getEfficiency_eq :
    db.getEfficiency key.device key.backend key.quant =
      if db.group key = [] then none
      else some (efficiencyOf key (db.group key)) := by
  have known : key ∈ (db.samples.map CalibrationSample.key).dedup ↔
      db.group key ≠ [] := by
    rw [List.mem_dedup, List.mem_map, Ne, CalibrationDb.group,
      List.filter_eq_nil_iff]
    simp
  rw [CalibrationDb.getEfficiency, CalibrationDb.computeEfficiencies,
    List.find?_map]
  simp only [Function.comp_def, efficiencyOf_matches_iff]
  split_ifs with empty
  · rw [Option.map_eq_none_iff, List.find?_eq_none]
    intro other member same
    rw [decide_eq_true_eq] at same
    subst same
    exact known.mp member empty
  · have found :
        (db.samples.map CalibrationSample.key).dedup.find?
            (fun other => decide (other = key)) = some key := by
      cases result : (db.samples.map CalibrationSample.key).dedup.find?
          (fun other => decide (other = key)) with
      | none =>
          have absent := List.find?_eq_none.mp result key
            (known.mpr empty)
          simp at absent
      | some other =>
          have same := List.find?_some result
          rw [decide_eq_true_eq] at same
          rw [same]
    rw [found]
    rfl

theorem ratios_append (measured predicted : CalibrationSample → Rat)
    (samples : List CalibrationSample)
    (positive : 0 < predicted sample) :
    ratios measured predicted (samples ++ [sample]) =
      ratios measured predicted samples ++
        [measured sample / predicted sample] := by
  simp [ratios, positive]

end Groups

/-! ## Predictions that are fed back -/

/-- The raw and the measured speed of one axis are positive. -/
structure Speeds where
  raw : Rat
  measured : Rat
  rawPos : 0 < raw
  measuredPos : 0 < measured

namespace Speeds

variable (speeds : Speeds)

/-- What the prediction is off by. -/
def ratio : Rat :=
  speeds.measured / speeds.raw

theorem ratio_pos : 0 < speeds.ratio :=
  div_pos speeds.measuredPos speeds.rawPos

/-- The prediction after a number of samples. -/
def predicted (runs : Nat) : Rat :=
  speeds.raw * factor (settle speeds.ratio runs)

theorem predicted_pos (runs : Nat) : 0 < speeds.predicted runs :=
  mul_pos speeds.rawPos (factor_settle_pos speeds.ratio_pos runs)

/-- The next sample is taken against that prediction. -/
theorem settle_succ (runs : Nat) :
    settle speeds.ratio (runs + 1) =
      settle speeds.ratio runs ++
        [speeds.measured / speeds.predicted runs] := by
  rw [settle, predicted, div_mul_eq_div_div]
  rfl

theorem scale_factor (runs : Nat) :
    scale speeds.raw (factor (settle speeds.ratio runs)) =
      speeds.predicted runs :=
  if_pos (factor_settle_pos speeds.ratio_pos runs)

/-- The prediction is right after one sample, or if it always was. -/
theorem predicted_eq_iff (runs : Nat) :
    speeds.predicted runs = speeds.measured ↔
      runs = 1 ∨ speeds.measured = speeds.raw := by
  have raw := speeds.rawPos.ne'
  have right :
      speeds.predicted runs = speeds.measured ↔
        factor (settle speeds.ratio runs) = speeds.ratio := by
    rw [predicted, mul_comm, ← eq_div_iff raw]
    rfl
  rw [right, factor_settle_eq_iff speeds.ratio_pos, ratio,
    div_eq_one_iff_eq raw]

end Speeds

/-- The database after a number of runs that predicted what it said. -/
structure Calibrated (key : Key) (pp tg : Speeds) (runs : Nat)
    (db : CalibrationDb) : Prop where
  count : (db.group key).length = runs
  ppRatios :
    ratios CalibrationSample.measuredPp CalibrationSample.predictedPp
      (db.group key) = settle pp.ratio runs
  tgRatios :
    ratios CalibrationSample.measuredTg CalibrationSample.predictedTg
      (db.group key) = settle tg.ratio runs

section Calibration

variable {key : Key} {pp tg : Speeds} {runs : Nat} {db : CalibrationDb}
  {sample : CalibrationSample}

theorem calibrated_new : Calibrated key pp tg 0 .new :=
  ⟨rfl, rfl, rfl⟩

theorem Calibrated.predicts (calibrated : Calibrated key pp tg runs db) :
    applyEfficiency pp.raw tg.raw
        (db.getEfficiency key.device key.backend key.quant) =
      (pp.predicted runs, tg.predicted runs) := by
  rw [getEfficiency_eq]
  split_ifs with empty
  · have none : runs = 0 := by
      rw [← calibrated.count, empty]
      rfl
    subst none
    rw [applyEfficiency, ← pp.scale_factor, ← tg.scale_factor]
    simp [settle, factor, median, scale]
  · rw [applyEfficiency, efficiencyOf, calibrated.ppRatios,
      calibrated.tgRatios, ← pp.scale_factor, ← tg.scale_factor]
    rfl

/-- A run records its speeds against the prediction. -/
theorem Calibrated.insert (calibrated : Calibrated key pp tg runs db)
    (same : sample.key = key) (measuredPp : sample.measuredPp = pp.measured)
    (measuredTg : sample.measuredTg = tg.measured)
    (predictedPp : sample.predictedPp = pp.predicted runs)
    (predictedTg : sample.predictedTg = tg.predicted runs) :
    Calibrated key pp tg (runs + 1) (db.insert sample) := by
  constructor
  · rw [group_insert same, List.length_append, calibrated.count]
    rfl
  · rw [group_insert same,
      ratios_append _ _ _ (by rw [predictedPp]; exact pp.predicted_pos runs),
      calibrated.ppRatios, measuredPp, predictedPp, pp.settle_succ]
  · rw [group_insert same,
      ratios_append _ _ _ (by rw [predictedTg]; exact tg.predicted_pos runs),
      calibrated.tgRatios, measuredTg, predictedTg, tg.settle_succ]

end Calibration

end Runa.Fit.Calibration
