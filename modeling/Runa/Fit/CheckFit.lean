import Runa.Fit.PlannerLaws
import Mathlib.Data.Rat.Floor

/-!
# The fit verdict

The embedding of `check_fit` of `runa-fit/src/verdict.rs` and of what it uses
of `runa-fit/src/speed.rs`.  The decode speeds are floating point numbers
which nothing but the warnings depends on, and a parameter; the whole numbers
they are computed from are not.
-/

namespace Runa.Fit.CheckFit

open Runa.Stream.Utf8
open Runa.Word.Checked
open Runa.Packing
open Runa.Fit.GgmlTypes
open Runa.Fit.Estimate
open Runa.Fit.Planner

inductive Verdict where
  | gpu
  | hybrid (gpuLayers totalLayers : Nat)
  | cpu
  | noFit
deriving DecidableEq, Repr

inductive Warning where
  | contextReduced (requested actual : Nat)
  | kvQuantizationNeeded (originalType suggestedType : Text)
  | mmprojNotCounted
  | decodeSlow (tokPerSec : Rat)
  | mediaExceedsContext (need nCtx : Nat)
deriving DecidableEq, Repr

inductive Suggestion where
  | trySiblingQuant
  | reduceContext (recommended : Nat)
  | useKvQuantization (quant : Text)
  | useCloudApi
deriving DecidableEq, Repr

/-- Image, video and audio tokens of a prompt. -/
structure MediaFit where
  frames : Nat
  tokensPerFrame : Nat
  audioSeconds : Rat
  tokensPerAudioSecond : Nat
deriving DecidableEq, Repr

def MediaFit.tokenNeed (media : MediaFit) : Result Nat :=
  let audio := min ⌈media.audioSeconds⌉.toNat (u64Limit - 1)
  add u64Limit
    (saturatingMul u64Limit media.frames media.tokensPerFrame)
    (saturatingMul u64Limit audio media.tokensPerAudioSecond)

/-- Configuration for the fit check, over descriptions of hardware. -/
structure FitConfig (Hw : Type) where
  planner : PlannerConfig
  gpuHw : Option Hw
  cpuHw : Hw
  hasMmproj : Bool
  media : MediaFit

/-- Complete fit report. -/
structure FitReport where
  verdict : Verdict
  warnings : List Warning
  suggestions : List Suggestion
  plan : PlacementPlan
  speedGpu : Option Rat
  speedCpu : Rat
  kvEstimate : KvEstimate
  computeEstimate : ComputeEstimate
  exitCode : Nat
  mediaTokens : Nat
deriving DecidableEq, Repr

/-- A positive speed below five tokens per second is slow. -/
def slowWarning (speed : Rat) : List Warning :=
  if 0 < speed ∧ speed < 5 then [.decodeSlow speed] else []

/-- The verdict on a plan; media that exceed the context never fit. -/
def verdictOf
    (desc : Descriptor) (mediaOverflow : Bool) (result : PlacementPlan) :
    Verdict :=
  if mediaOverflow then .noFit
  else if result.fits && result.allOnGpu then .gpu
  else if result.fits && decide (0 < result.gpuLayers) then
    .hybrid result.gpuLayers desc.nLayer
  else if result.fits then .cpu
  else .noFit

def suggestionsFor (verdict : Verdict) (ctxLen : Nat) :
    List Suggestion :=
  match verdict with
  | .noFit =>
      [.trySiblingQuant, .reduceContext (ctxLen / 2),
        .useKvQuantization "q8_0".toList, .useCloudApi]
  | .cpu => [.trySiblingQuant]
  | .gpu | .hybrid _ _ => []

def exitCodeOf (verdict : Verdict) (warnings : List Warning) : Nat :=
  if verdict = .noFit then 2 else if !warnings.isEmpty then 1 else 0

/-! ## The speed -/

/-- The bytes of weights that are read for each token. -/
def activeWeightBytes (floats : Floats) (desc : Descriptor) : Result Nat :=
  if 0 < desc.nExpert then
    sum u64Limit
      [desc.weightBytesDense,
        floats.expertShare desc.weightBytesExpert desc.nExpertUsed
          desc.nExpert,
        desc.weightBytesEmbedOut]
  else .ok desc.weightBytesTotal

variable {Hw : Type}

/-- The decode speed of a device; `speed` is the floating point of it. -/
def estimateSpeedSingle
    (floats : Floats)
    (speed : Descriptor → KvEstimate → Nat → Hw → Rat)
    (desc : Descriptor) (kv : KvEstimate) (ctxLen : Nat) (hw : Hw) :
    Result Rat := do
  let active ← activeWeightBytes floats desc
  let kvRead := kv.kvBytes / 2
  let _bytesPerToken ← add u64Limit active kvRead
  return speed desc kv ctxLen hw

/-- The decode speed of a device that may not be there. -/
def estimateSpeedOption
    (floats : Floats)
    (speed : Descriptor → KvEstimate → Nat → Hw → Rat)
    (desc : Descriptor) (kv : KvEstimate) (ctxLen : Nat) :
    Option Hw → Result (Option Rat)
  | none => .ok none
  | some hw => do
      let decode ← estimateSpeedSingle floats speed desc kv ctxLen hw
      return some decode

/-! ## The check -/

/-- The planner's configuration, with encoder scratch for the frames. -/
def FitConfig.plannerFor
    (config : FitConfig Hw) (desc : Descriptor) : PlannerConfig :=
  { config.planner with
    encoderComputeBytes :=
      max config.planner.encoderComputeBytes
        (estimateEncoderCompute desc config.media.frames) }

/-- What a fit check reserves next to the weights. -/
def reservedBytes
    (floats : Floats) (desc : Descriptor) (config : FitConfig Hw) : Nat :=
  match estimateCompute floats desc config.planner.nUbatch,
    estimateKv floats desc config.planner.ctxLen config.planner.kvType with
  | .ok compute, .ok kv =>
      (config.plannerFor desc).reserved compute.computeBytes kv.kvBytes
  | _, _ => 0

/-- Run a full fit check; `speed` estimates the decode speed. -/
def checkFit
    (floats : Floats)
    (speed : Descriptor → KvEstimate → Nat → Hw → Rat)
    (desc : Descriptor) (config : FitConfig Hw) : Result FitReport := do
  let mediaTokens ← config.media.tokenNeed
  let mediaOverflow := decide (config.planner.ctxLen < mediaTokens)
  let kv ←
    estimateKv floats desc config.planner.ctxLen config.planner.kvType
  let compute ← estimateCompute floats desc config.planner.nUbatch
  let planner := config.plannerFor desc
  let result ← planPlacement floats desc planner
  let speedGpu ←
    estimateSpeedOption floats speed desc kv config.planner.ctxLen
      config.gpuHw
  let speedCpu ←
    estimateSpeedSingle floats speed desc kv config.planner.ctxLen
      config.cpuHw
  let warnings :=
    (if mediaOverflow then
        [.mediaExceedsContext mediaTokens config.planner.ctxLen]
      else []) ++
      (if config.hasMmproj && decide (planner.mmprojBytes = 0) then
        [.mmprojNotCounted]
      else []) ++
      (speedGpu.elim [] slowWarning ++ slowWarning speedCpu)
  let verdict := verdictOf desc mediaOverflow result
  .ok
    { verdict := verdict
      warnings := warnings
      suggestions := suggestionsFor verdict config.planner.ctxLen
      plan := result
      speedGpu := speedGpu
      speedCpu := speedCpu
      kvEstimate := kv
      computeEstimate := compute
      exitCode := exitCodeOf verdict warnings
      mediaTokens := mediaTokens }

/-- The estimates determine the plan and the verdict of a report. -/
theorem checkFit_of_estimates
    {floats : Floats} {speed : Descriptor → KvEstimate → Nat → Hw → Rat}
    {desc : Descriptor} {config : FitConfig Hw} {report : FitReport}
    {mediaTokens : Nat} {compute : ComputeEstimate} {kv : KvEstimate}
    (checked : checkFit floats speed desc config = .ok report)
    (need : config.media.tokenNeed = .ok mediaTokens)
    (computed :
      estimateCompute floats desc config.planner.nUbatch = .ok compute)
    (estimated :
      estimateKv floats desc config.planner.ctxLen
          config.planner.kvType =
        .ok kv) :
    report.plan =
        plan desc (config.plannerFor desc) compute.computeBytes
          kv.kvBytes ∧
      report.verdict =
        verdictOf desc (decide (config.planner.ctxLen < mediaTokens))
          report.plan := by
  simp only [checkFit, need, computed, estimated, bind_eq_ok,
    Except.ok.injEq, exists_eq_left'] at checked
  obtain ⟨result, planned, speedGpu, -, speedCpu, -, rfl⟩ := checked
  obtain ⟨compute', kv', computed', estimated', rfl⟩ :=
    planPlacement_eq planned
  have sameCompute : compute' = compute :=
    Except.ok.inj (computed'.symm.trans computed)
  have sameKv : kv' = kv := Except.ok.inj (estimated'.symm.trans estimated)
  subst sameCompute sameKv
  exact ⟨rfl, rfl⟩

/-- What a fit check returns. -/
theorem checkFit_eq
    {floats : Floats} {speed : Descriptor → KvEstimate → Nat → Hw → Rat}
    {desc : Descriptor} {config : FitConfig Hw} {report : FitReport}
    (checked : checkFit floats speed desc config = .ok report) :
    ∃ mediaTokens compute kv,
      config.media.tokenNeed = .ok mediaTokens ∧
        estimateCompute floats desc config.planner.nUbatch = .ok compute ∧
        estimateKv floats desc config.planner.ctxLen
            config.planner.kvType =
          .ok kv ∧
        report.plan =
          plan desc (config.plannerFor desc) compute.computeBytes
            kv.kvBytes ∧
        report.verdict =
          verdictOf desc (decide (config.planner.ctxLen < mediaTokens))
            report.plan := by
  have steps := checked
  simp only [checkFit, bind_eq_ok] at steps
  obtain ⟨mediaTokens, need, kv, estimated, compute, computed, -⟩ := steps
  exact
    ⟨mediaTokens, compute, kv, need, computed, estimated,
      checkFit_of_estimates checked need computed estimated⟩

/-- The bytes a token reads stay in range. -/
def SpeedInRange
    (floats : Floats) (desc : Descriptor) (kv : KvEstimate) : Prop :=
  ∃ active,
    activeWeightBytes floats desc = .ok active ∧
      active + kv.kvBytes / 2 < u64Limit

theorem estimateSpeedSingle_eq_ok
    {floats : Floats} {speed : Descriptor → KvEstimate → Nat → Hw → Rat}
    {desc : Descriptor} {kv : KvEstimate} {ctxLen : Nat} {hw : Hw}
    {decode : Rat} :
    estimateSpeedSingle floats speed desc kv ctxLen hw = .ok decode ↔
      SpeedInRange floats desc kv ∧ speed desc kv ctxLen hw = decode := by
  simp only [estimateSpeedSingle, bind_eq_ok, add_eq_ok, pure_eq_ok,
    SpeedInRange]
  constructor
  · rintro ⟨active, actives, -, ⟨small, -⟩, same⟩
    exact ⟨⟨active, actives, small⟩, same⟩
  · rintro ⟨⟨active, actives, small⟩, same⟩
    exact ⟨active, actives, _, ⟨small, rfl⟩, same⟩

theorem estimateSpeedOption_ok
    {floats : Floats} {speed : Descriptor → KvEstimate → Nat → Hw → Rat}
    {desc : Descriptor} {kv : KvEstimate} {ctxLen : Nat} {hw : Option Hw}
    (range : SpeedInRange floats desc kv) :
    estimateSpeedOption floats speed desc kv ctxLen hw =
      .ok (hw.map (speed desc kv ctxLen)) := by
  cases hw with
  | none => rfl
  | some hw =>
      exact bind_eq_ok.mpr
        ⟨_, estimateSpeedSingle_eq_ok.mpr ⟨range, rfl⟩, rfl⟩

/-- A fit check returns a report exactly if everything stays in range. -/
theorem checkFit_ok_iff
    {floats : Floats} {speed : Descriptor → KvEstimate → Nat → Hw → Rat}
    {desc : Descriptor} {config : FitConfig Hw} :
    (∃ report, checkFit floats speed desc config = .ok report) ↔
      (∃ mediaTokens, config.media.tokenNeed = .ok mediaTokens) ∧
        (∃ result,
          planPlacement floats desc (config.plannerFor desc) =
            .ok result) ∧
        ∃ kv,
          estimateKv floats desc config.planner.ctxLen
              config.planner.kvType =
            .ok kv ∧
          SpeedInRange floats desc kv := by
  constructor
  · rintro ⟨report, checked⟩
    simp only [checkFit, bind_eq_ok] at checked
    obtain ⟨mediaTokens, need, kv, estimated, -, -, result, planned, -, -,
      speedCpu, speeds, -⟩ := checked
    exact
      ⟨⟨_, need⟩, ⟨_, planned⟩, kv, estimated,
        (estimateSpeedSingle_eq_ok.mp speeds).1⟩
  · rintro ⟨⟨mediaTokens, need⟩, ⟨result, planned⟩, kv, estimated, range⟩
    obtain ⟨compute, -, computed, -⟩ := planPlacement_eq planned
    simp only [checkFit, bind_eq_ok]
    exact
      ⟨_, mediaTokens, need, kv, estimated, compute, computed, result,
        planned, _, estimateSpeedOption_ok range, _,
        estimateSpeedSingle_eq_ok.mpr ⟨range, rfl⟩, rfl⟩

/-- The ways in which a model can fit. -/
inductive Fitting (desc : Descriptor) (result : PlacementPlan) :
    Verdict → Prop where
  | gpu (all : result.allOnGpu = true) : Fitting desc result .gpu
  | hybrid (split : result.allOnGpu = false)
      (layers : 0 < result.gpuLayers) :
      Fitting desc result (.hybrid result.gpuLayers desc.nLayer)
  | cpu (split : result.allOnGpu = false)
      (none : result.gpuLayers = 0) : Fitting desc result .cpu

/-- A verdict other than no fit comes from a plan that fits. -/
theorem verdictOf_fitting
    {desc : Descriptor} {mediaOverflow : Bool} {result : PlacementPlan}
    (fits : verdictOf desc mediaOverflow result ≠ .noFit) :
    result.fits = true ∧
      Fitting desc result (verdictOf desc mediaOverflow result) := by
  unfold verdictOf at fits ⊢
  cases mediaOverflow with
  | true => exact (fits rfl).elim
  | false =>
      cases fitting : result.fits with
      | false => simp [fitting] at fits
      | true =>
          refine ⟨rfl, ?_⟩
          cases all : result.allOnGpu with
          | true => exact .gpu all
          | false =>
              by_cases layers : 0 < result.gpuLayers
              · simpa [layers] using Fitting.hybrid all layers
              · simpa [layers] using
                  Fitting.cpu all (Nat.eq_zero_of_not_pos layers)

/-- The check of a text model on a machine without a known GPU. -/
def plainFit (planner : PlannerConfig) : FitConfig Unit where
  planner := planner
  gpuHw := none
  cpuHw := ()
  hasMmproj := false
  media :=
    { frames := 0
      tokensPerFrame := 256
      audioSeconds := 0
      tokensPerAudioSecond := 25 }

end Runa.Fit.CheckFit
