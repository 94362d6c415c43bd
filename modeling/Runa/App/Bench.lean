import Runa.App.SameAnswer
import Runa.Fit.Calibration

/-!
# Benchmarks

The embedding of `predicted_speeds` and `cmd_bench` of `runa/src/bench.rs`: a
benchmark measures a model, predicts its speeds with the help of the
calibration database, and records both there.  The speed model, the engine
and the clock are parameters; what the benchmark prints is left out.

`next_prediction_iff` says when the speeds that are predicted after a number
of benchmarks are the ones that they measured.
-/

namespace Runa.App.Bench

open Runa.App.Config
open Runa.App.Loading
open Runa.App.Pool (Path fileStem)
open Runa.App.RunPaths
open Runa.App.SameAnswer (desk qwen)
open Runa.Engine.Placements
open Runa.Fit.Calibration
open Runa.Stream.Utf8

/-! ## Names -/

/-- `to_ascii_uppercase` -/
def upper (text : Text) : Text :=
  text.map Char.toUpper

def quantTags : List Text :=
  ["Q4_K_M".toList, "Q5_K_M".toList, "Q4_K_S".toList, "Q5_K_S".toList,
    "Q3_K_M".toList, "Q6_K".toList, "Q2_K".toList, "IQ4_XS".toList,
    "MXFP4".toList, "Q8_0".toList, "Q5_0".toList, "Q4_0".toList,
    "Q6_0".toList]

def quantFromName (path : Path) : Text :=
  let name := upper ((fileStem path).getD [])
  (quantTags.find? fun tag => decide (tag <:+: name)).getD
    "unknown".toList

def placementName (placement : Placement) : Text :=
  if placement.nGpuLayers = 0 then "cpu".toList
  else if placement.cpuPatterns ≠ [] then "hybrid".toList
  else "gpu".toList

/-- The device and the backend that a placement is filed under. -/
def deviceBackend (macos : Bool) (placement : Text) : Text × Text :=
  if placement = "cpu".toList then ("cpu".toList, "cpu".toList)
  else if macos then ("metal:0".toList, "metal".toList)
  else ("cuda:0".toList, "cuda".toList)

/-! ## A benchmark -/

structure BenchArgs where
  model : Text
  mode : Text
  ctx : UInt32
  nPrompt : UInt32
  nGen : UInt32
  noCalibrate : Bool
  kvK : Option KvKind
  kvV : Option KvKind
  device : Option Text
  tensorSplit : Option Text
  threads : Option Int
  maxLoadPercent : Option Nat

/-- What the engine reports. -/
structure Usage where
  promptTokens : Nat
  generatedTokens : Nat
  ppToksPerS : Rat
  tgToksPerS : Rat

/-- What a benchmark finds around it, besides the machine of a run. -/
structure Rig where
  macos : Bool
  /-- `LoadedModel::bench` -/
  bench : Path → Placement → LoadConfig → UInt32 → UInt32 →
    Except Text Usage
  /-- `estimate_speed_single` on the header of the file, if it reads -/
  rawSpeeds : Path → UInt32 → UInt32 → Text → Text → Option (Rat × Rat)
  modelHash : Path → Except Text Text
  now : Text
  save : CalibrationDb → Except Text Unit

structure BenchResult where
  model : Text
  modelHash : Text
  quant : Text
  placement : Text
  device : Text
  backend : Text
  ctx : UInt32
  nPrompt : UInt32
  nGen : UInt32
  promptTokens : Nat
  generatedTokens : Nat
  ppTokS : Rat
  tgTokS : Rat
  predictedPp : Rat
  predictedTg : Rat

def predictedSpeeds (rig : Rig) (db : CalibrationDb) (path : Path)
    (ctx nPrompt : UInt32) (placement kvType : Text) : Rat × Rat :=
  match rig.rawSpeeds path ctx nPrompt placement kvType with
  | none => (0, 0)
  | some raw =>
    let filed := deviceBackend rig.macos placement
    applyEfficiency raw.1 raw.2
      (db.getEfficiency filed.1 filed.2 (quantFromName path))

/-- One more than both, in 32 bits. -/
def needed (nPrompt nGen : UInt32) : Nat :=
  min (nPrompt.toNat + nGen.toNat + 1) (UInt32.size - 1)

section

variable (machine : Machine) (rig : Rig) (args : BenchArgs)

def benchPlacement (path : Path) (onUnfit : OnUnfit) (kvType : Text) :
    Except Text Placement := do
  let placement ←
    match ← parseModeChoice args.mode with
    | some placement => .ok placement
    | none =>
      match ← machine.autoPlacement
          ⟨path, args.ctx, onUnfit, kvType, none, none, []⟩ with
      | .here placement => .ok placement
      | .cloud _ =>
        .error ("bench requires a local model (cloud on_unfit fallback " ++
          "is not supported)").toList
  let placement ← withFlag args.device parseDeviceList
    (fun placement devices => { placement with devices := devices })
    placement
  withFlag args.tensorSplit (parseTensorSplit machine.std)
    (fun placement split => { placement with tensorSplit := split })
    placement

/-- What is loaded, and how. -/
structure Setup where
  path : Path
  placement : Placement
  config : LoadConfig

def benchConfig (threads : Option Int) : LoadConfig :=
  { LoadConfig.default with
    nCtx := args.ctx
    threads := threads
    kvK := args.kvK
    kvV := args.kvV }

def benchSetup : Except Text Setup := do
  if args.nPrompt = 0 then .error "--pp must be > 0".toList
  else if args.ctx.toNat < needed args.nPrompt args.nGen then
    .error (message
      ["--ctx ".toList, (toString args.ctx.toNat).toList,
        " is too small for pp".toList,
        (toString args.nPrompt.toNat).toList, "+tg".toList,
        (toString args.nGen.toNat).toList, " (need >= ".toList,
        (toString (needed args.nPrompt args.nGen)).toList, ")".toList])
  else
    let path ← machine.resolveModel args.model
    let onUnfit ← resolveOnUnfit none machine.env machine.files
    let threads ← resolveThreads args.threads machine.env machine.files
    let _ ← resolveMaxLoadPercent args.maxLoadPercent machine.env
      machine.files
    let placement ← benchPlacement machine args path onUnfit
      (plannerKvType args.kvK args.kvV)
    return ⟨path, placement, benchConfig args threads⟩

/-- The result of a benchmark of what was set up. -/
def benchResult (db : CalibrationDb) (setup : Setup) (usage : Usage)
    (hash : Text) : BenchResult :=
  let placement := placementName setup.placement
  let filed := deviceBackend rig.macos placement
  let predicted := predictedSpeeds rig db setup.path args.ctx args.nPrompt
    placement (plannerKvType args.kvK args.kvV)
  { model := setup.path
    modelHash := hash
    quant := quantFromName setup.path
    placement := placement
    device := filed.1
    backend := filed.2
    ctx := args.ctx
    nPrompt := args.nPrompt
    nGen := args.nGen
    promptTokens := usage.promptTokens
    generatedTokens := usage.generatedTokens
    ppTokS := usage.ppToksPerS
    tgTokS := usage.tgToksPerS
    predictedPp := predicted.1
    predictedTg := predicted.2 }

def BenchResult.sample (result : BenchResult) (timestamp : Text) :
    CalibrationSample where
  modelHash := result.modelHash
  quant := result.quant
  placement := result.placement
  ctx := result.ctx.toNat
  measuredPp := result.ppTokS
  measuredTg := result.tgTokS
  predictedPp := result.predictedPp
  predictedTg := result.predictedTg
  device := result.device
  backend := result.backend
  timestamp := timestamp

/-- The result, and the database behind it. -/
def cmdBench (db : CalibrationDb) :
    Except Text (BenchResult × CalibrationDb) := do
  let setup ← benchSetup machine args
  machine.load .gguf setup.path setup.placement setup.config
  let usage ← rig.bench setup.path setup.placement setup.config
    args.nPrompt args.nGen
  let hash ← rig.modelHash setup.path
  let result := benchResult rig args db setup usage hash
  if args.noCalibrate then return (result, db)
  else
    let recorded := db.insert (result.sample rig.now)
    rig.save recorded
    return (result, recorded)

end

/-! ## Benchmarks one after the other -/

/-- A call of `cmd_bench`. -/
structure BenchRun where
  machine : Machine
  rig : Rig
  args : BenchArgs

def BenchRun.run (bench : BenchRun) (db : CalibrationDb) :
    Except Text (BenchResult × CalibrationDb) :=
  cmdBench bench.machine bench.rig bench.args db

/-- The database after benchmarks that all succeed. -/
def benchAll (benches : List BenchRun) (db : CalibrationDb) :
    Except Text CalibrationDb :=
  benches.foldlM (fun db bench => (bench.run db).map Prod.snd) db

/-- A benchmark of one device, backend and quantization, whose raw
prediction and whose measurement are known, and which is recorded. -/
structure BenchRun.Measures (bench : BenchRun) (key : Key) (pp tg : Speeds)
    (setup : Setup) (usage : Usage) : Prop where
  sets : benchSetup bench.machine bench.args = .ok setup
  loads : bench.machine.load .gguf setup.path setup.placement
    setup.config = .ok ()
  benches : bench.rig.bench setup.path setup.placement setup.config
    bench.args.nPrompt bench.args.nGen = .ok usage
  measuredPp : usage.ppToksPerS = pp.measured
  measuredTg : usage.tgToksPerS = tg.measured
  raw : bench.rig.rawSpeeds setup.path bench.args.ctx bench.args.nPrompt
    (placementName setup.placement)
    (plannerKvType bench.args.kvK bench.args.kvV) = some (pp.raw, tg.raw)
  filed : deviceBackend bench.rig.macos (placementName setup.placement) =
    (key.device, key.backend)
  quant : quantFromName setup.path = key.quant
  hashes : ∃ hash, bench.rig.modelHash setup.path = .ok hash
  records : bench.args.noCalibrate = false
  saves : ∀ db, bench.rig.save db = .ok ()

section

variable {bench : BenchRun} {key : Key} {pp tg : Speeds} {setup : Setup}
  {usage : Usage} {runs : Nat} {db : CalibrationDb}

/-- A benchmark predicts by the database and adds to it. -/
theorem BenchRun.Measures.run
    (measures : bench.Measures key pp tg setup usage)
    (calibrated : Calibrated key pp tg runs db) :
    ∃ result after, bench.run db = .ok (result, after) ∧
      (result.ppTokS, result.tgTokS) = (pp.measured, tg.measured) ∧
        (result.predictedPp, result.predictedTg) =
            (pp.predicted runs, tg.predicted runs) ∧
          Calibrated key pp tg (runs + 1) after := by
  obtain ⟨hash, hashes⟩ := measures.hashes
  have predicted :
      predictedSpeeds bench.rig db setup.path bench.args.ctx
          bench.args.nPrompt (placementName setup.placement)
          (plannerKvType bench.args.kvK bench.args.kvV) =
        (pp.predicted runs, tg.predicted runs) := by
    rw [predictedSpeeds, measures.raw]
    simp only [measures.filed, measures.quant]
    exact calibrated.predicts
  refine ⟨benchResult bench.rig bench.args db setup usage hash,
    db.insert ((benchResult bench.rig bench.args db setup usage
      hash).sample bench.rig.now), ?_, ?_, predicted, ?_⟩
  · rw [BenchRun.run, cmdBench, measures.sets]
    show (bench.machine.load _ _ _ _ >>= _) = _
    rw [measures.loads]
    show (bench.rig.bench _ _ _ _ _ >>= _) = _
    rw [measures.benches]
    show (bench.rig.modelHash _ >>= _) = _
    rw [hashes]
    show (if bench.args.noCalibrate then _ else _) = _
    rw [measures.records, if_neg Bool.false_ne_true, measures.saves]
    rfl
  · exact Prod.ext measures.measuredPp measures.measuredTg
  · apply calibrated.insert
    · simp only [CalibrationSample.key, BenchResult.sample, benchResult,
        measures.filed, measures.quant]
    · exact measures.measuredPp
    · exact measures.measuredTg
    · exact congrArg Prod.fst predicted
    · exact congrArg Prod.snd predicted

theorem calibrated_benchAll {benches : List BenchRun}
    (measures : ∀ bench ∈ benches, ∃ setup usage,
      bench.Measures key pp tg setup usage)
    (calibrated : Calibrated key pp tg runs db) :
    ∃ after, benchAll benches db = .ok after ∧
      Calibrated key pp tg (runs + benches.length) after := by
  induction benches generalizing runs db with
  | nil => exact ⟨db, rfl, calibrated⟩
  | cons bench benches induction =>
      obtain ⟨⟨setup, usage, here⟩, there⟩ :=
        List.forall_mem_cons.mp measures
      obtain ⟨result, next, ran, -, -, kept⟩ := here.run calibrated
      obtain ⟨after, rest, last⟩ := induction there kept
      refine ⟨after, ?_, ?_⟩
      · rw [benchAll, List.foldlM_cons, ran]
        exact rest
      · rw [List.length_cons, Nat.add_comm benches.length 1,
          ← Nat.add_assoc]
        exact last

end

/--
What a benchmark predicts behind others of the same device, backend and
quantization is what they measured exactly if there was one of them, or if
the raw prediction was right.
-/
theorem next_prediction_iff {key : Key} {pp tg : Speeds}
    {benches : List BenchRun}
    (measures : ∀ bench ∈ benches, ∃ setup usage,
      bench.Measures key pp tg setup usage)
    {last : BenchRun} {setup : Setup} {usage : Usage}
    (next : last.Measures key pp tg setup usage) :
    ∃ db result after, benchAll benches .new = .ok db ∧
      last.run db = .ok (result, after) ∧
        ((result.predictedPp, result.predictedTg) =
            (pp.measured, tg.measured) ↔
          benches.length = 1 ∨
            pp.measured = pp.raw ∧ tg.measured = tg.raw) := by
  obtain ⟨db, ran, calibrated⟩ :=
    calibrated_benchAll measures calibrated_new
  obtain ⟨result, after, runs, -, predicted, -⟩ := next.run calibrated
  refine ⟨db, result, after, ran, runs, ?_⟩
  rw [predicted, Prod.mk.injEq, pp.predicted_eq_iff, tg.predicted_eq_iff,
    Nat.zero_add]
  tauto

/-! ## A model that is four times as fast as predicted -/

def benchArgs : BenchArgs where
  model := qwen
  mode := "cpu".toList
  ctx := 2048
  nPrompt := 512
  nGen := 128
  noCalibrate := false
  kvK := none
  kvV := none
  device := none
  tensorSplit := none
  threads := none
  maxLoadPercent := none

def fastRig : Rig where
  macos := false
  bench _ _ _ _ _ := .ok ⟨512, 128, 400, 40⟩
  rawSpeeds _ _ _ _ _ := some (100, 10)
  modelHash _ := .ok "sha256:00".toList
  now := "2026-01-01T00:00:00Z".toList
  save _ := .ok ()

def fastRun : BenchRun :=
  ⟨desk, fastRig, benchArgs⟩

def fastPp : Speeds :=
  ⟨100, 400, by norm_num, by norm_num⟩

def fastTg : Speeds :=
  ⟨10, 40, by norm_num, by norm_num⟩

def fastSetup : Setup :=
  ⟨qwen, .cpu, benchConfig benchArgs none⟩

theorem fastRun_measures :
    fastRun.Measures ⟨"cpu".toList, "cpu".toList, "unknown".toList⟩ fastPp
      fastTg fastSetup ⟨512, 128, 400, 40⟩ where
  sets := rfl
  loads := rfl
  benches := rfl
  measuredPp := rfl
  measuredTg := rfl
  raw := rfl
  filed := rfl
  quant := by decide +kernel
  hashes := ⟨_, rfl⟩
  records := rfl
  saves := fun _ => rfl

/-- The second benchmark predicts what the first one measured. -/
theorem next_prediction_second :
    ∃ db result after, benchAll [fastRun] .new = .ok db ∧
      fastRun.run db = .ok (result, after) ∧
        (result.predictedPp, result.predictedTg) = (400, 40) := by
  obtain ⟨db, result, after, ran, runs, right⟩ :=
    @next_prediction_iff _ _ _ [fastRun]
      (List.forall_mem_singleton.mpr ⟨_, _, fastRun_measures⟩) _ _ _
      fastRun_measures
  exact ⟨db, result, after, ran, runs, right.mpr (Or.inl rfl)⟩

theorem predicted_second :
    (fastPp.predicted 2, fastTg.predicted 2) = (250, 25) := by
  decide +kernel

/-- The third one is off again, and so is what it records. -/
theorem not_settled_third :
    ∃ db result after, benchAll [fastRun, fastRun] .new = .ok db ∧
      fastRun.run db = .ok (result, after) ∧
        (result.ppTokS, result.tgTokS) = (400, 40) ∧
          (result.predictedPp, result.predictedTg) = (250, 25) := by
  have measures : ∀ bench ∈ [fastRun, fastRun], ∃ setup usage,
      bench.Measures ⟨"cpu".toList, "cpu".toList, "unknown".toList⟩ fastPp
        fastTg setup usage := by
    intro bench member
    have same : bench = fastRun := by simpa using member
    rw [same]
    exact ⟨_, _, fastRun_measures⟩
  obtain ⟨db, ran, calibrated⟩ :=
    calibrated_benchAll measures calibrated_new
  obtain ⟨result, after, runs, measured, predicted, -⟩ :=
    fastRun_measures.run calibrated
  exact ⟨db, result, after, ran, runs, measured,
    predicted.trans predicted_second⟩

end Runa.App.Bench
