import Runa.Fit.MapOrder
import Runa.Fit.Safety

/-!
# Split models

The embedding of `combine_shard_weights` of `runa-fit/src/recommend.rs`, by
which the shards of a split model become one descriptor: the sums of the
groups are added up, but the tensor map stays that of the first shard.  It is
compared with the descriptor of one file that holds all the tensors.
-/

namespace Runa.Fit.Shards

open Runa.Stream.Utf8
open Runa.Word.Checked
open Runa.Packing
open Runa.Fit.GgmlTypes
open Runa.Fit.Estimate
open Runa.Fit.Gguf
open Runa.Fit.Descriptors
open Runa.Fit.Accounts
open Runa.Fit.Planner
open Runa.Fit.CheckFit
open Runa.Fit.MapOrder
open Runa.Fit.Safety

/-- Sum sharded weight bytes into the descriptor of the first part. -/
def combineShardWeights
    (first : Descriptor) (rest : List Descriptor) : Result Descriptor :=
  rest.foldlM
    (fun first shard => do
      let dense ←
        add u64Limit first.weightBytesDense shard.weightBytesDense
      let expert ←
        add u64Limit first.weightBytesExpert shard.weightBytesExpert
      let embedOut ←
        add u64Limit first.weightBytesEmbedOut shard.weightBytesEmbedOut
      let total ←
        add u64Limit first.weightBytesTotal shard.weightBytesTotal
      .ok
        { first with
          weightBytesDense := dense
          weightBytesExpert := expert
          weightBytesEmbedOut := embedOut
          weightBytesTotal := total })
    first

/-- The shards of a model; each tensor is in one of them. -/
structure Split where
  first : Descriptor
  rest : List Descriptor
  distinct :
    ((first.tensorBytes ++
      rest.flatMap Descriptor.tensorBytes).map Prod.fst).Nodup

/-- The first shard with the sums of all. -/
def summed (first : Descriptor) (rest : List Descriptor) : Descriptor :=
  { first with
    weightBytesDense :=
      first.weightBytesDense +
        (rest.map Descriptor.weightBytesDense).sum
    weightBytesExpert :=
      first.weightBytesExpert +
        (rest.map Descriptor.weightBytesExpert).sum
    weightBytesEmbedOut :=
      first.weightBytesEmbedOut +
        (rest.map Descriptor.weightBytesEmbedOut).sum
    weightBytesTotal :=
      first.weightBytesTotal +
        (rest.map Descriptor.weightBytesTotal).sum }

/-- The model in one file. -/
def Split.whole (split : Split) : Descriptor :=
  { summed split.first split.rest with
    tensorBytes :=
      split.first.tensorBytes ++
        split.rest.flatMap Descriptor.tensorBytes
    distinct := split.distinct }

/-- What is combined has the sums of all shards. -/
theorem combineShardWeights_eq
    {first combined : Descriptor} {rest : List Descriptor}
    (combines : combineShardWeights first rest = .ok combined) :
    combined = summed first rest := by
  induction rest generalizing first with
  | nil =>
      cases combines
      rfl
  | cons shard rest induction =>
      simp only [combineShardWeights, List.foldlM_cons, bind_eq_ok,
        add_eq_ok] at combines
      obtain ⟨_, ⟨_, ⟨-, rfl⟩, _, ⟨-, rfl⟩, _, ⟨-, rfl⟩, _, ⟨-, rfl⟩, ends⟩,
        onward⟩ := combines
      cases ends
      rw [induction onward]
      simp only [summed, List.map_cons, List.sum_cons, Nat.add_assoc]

/-! ## The whole model -/

/-- An entry of another name goes behind the entries before. -/
theorem insertEntry_append {entry : Entry} {before : List Entry}
    (apart : entry.1 ∉ before.map Prod.fst) (entries : List Entry) :
    insertEntry entry (before ++ entries) =
      before ++ insertEntry entry entries := by
  induction before with
  | nil => rfl
  | cons first before induction =>
      rw [List.map_cons, List.mem_cons, not_or] at apart
      have other : ¬ first.1 = entry.1 := fun same => apart.1 same.symm
      rw [List.cons_append, insertEntry, if_neg other, induction apart.2]
      rfl

theorem mapOf_append {map later : TensorMap} {before : List Entry}
    {tensors : List TensorInfo}
    (starts : map.entries = before ++ later.entries)
    (apart : ∀ tensor ∈ tensors, tensor.name ∉ before.map Prod.fst) :
    (mapOf map tensors).entries =
      before ++ (mapOf later tensors).entries := by
  induction tensors generalizing map later with
  | nil => exact starts
  | cons tensor tensors induction =>
      obtain ⟨here, others⟩ := List.forall_mem_cons.mp apart
      refine
        @induction (map.insert (entryOf tensor (infoSize tensor)))
          (later.insert (entryOf tensor (infoSize tensor))) ?_ others
      have name : (entryOf tensor (infoSize tensor)).1 = tensor.name := rfl
      change insertEntry _ map.entries = _ ++ insertEntry _ later.entries
      rw [starts, insertEntry_append (by rwa [name])]

/-- Every tensor of a table is in the map by name. -/
theorem mapOf_names (map : TensorMap) {tensors : List TensorInfo} :
    ∀ name,
      name ∈ map.entries.map Prod.fst ∨
          (∃ tensor ∈ tensors, tensor.name = name) →
        name ∈ (mapOf map tensors).entries.map Prod.fst := by
  induction tensors generalizing map with
  | nil =>
      rintro name (listed | ⟨_, member, -⟩)
      · exact listed
      · cases member
  | cons tensor tensors induction =>
      intro name either
      refine
        induction (map.insert (entryOf tensor (infoSize tensor))) name ?_
      have keys :=
        insertEntry_keys (entryOf tensor (infoSize tensor)) map.entries
      have kept :
          name ∈ map.entries.map Prod.fst ∨ tensor.name = name →
            name ∈
              (map.insert (entryOf tensor (infoSize tensor))).entries.map
                Prod.fst := by
        intro known
        change name ∈ (insertEntry _ map.entries).map Prod.fst
        rw [keys]
        split_ifs with there
        · rcases known with listed | rfl
          · exact listed
          · exact there
        · rcases known with listed | rfl
          · exact List.mem_append_left _ listed
          · exact List.mem_append_right _ (List.mem_singleton_self _)
      rcases either with listed | ⟨other, member, rfl⟩
      · exact Or.inl (kept (Or.inl listed))
      · rcases List.mem_cons.mp member with rfl | later
        · exact Or.inl (kept (Or.inr rfl))
        · exact Or.inr ⟨other, later, rfl⟩

/-- Tables without a name in common go into a map one after another. -/
theorem mapOf_flatten {map : TensorMap} {tables : List (List TensorInfo)}
    (distinct :
      ((map.entries ++
          tables.flatMap fun table =>
            (mapOf .empty table).entries).map
        Prod.fst).Nodup) :
    (mapOf map tables.flatten).entries =
      map.entries ++
        tables.flatMap fun table => (mapOf .empty table).entries := by
  induction tables generalizing map with
  | nil => simp [mapOf]
  | cons table tables induction =>
      rw [List.flatMap_cons, ← List.append_assoc] at distinct ⊢
      have apart : ∀ tensor ∈ table,
          tensor.name ∉ map.entries.map Prod.fst := by
        intro tensor member before
        rw [List.map_append, List.map_append] at distinct
        have disjoint :=
          List.disjoint_of_nodup_append
            (List.nodup_append.mp distinct).1
        exact
          disjoint before
            (mapOf_names .empty tensor.name
              (Or.inr ⟨tensor, member, rfl⟩))
      have here :
          (mapOf map table).entries =
            map.entries ++ (mapOf .empty table).entries :=
        mapOf_append (List.append_nil _).symm apart
      have onward := @induction (mapOf map table)
      rw [here] at onward
      rw [List.flatten_cons]
      have both :
          mapOf map (table ++ tables.flatten) =
            mapOf (mapOf map table) tables.flatten :=
        List.foldl_append
      rw [both]
      exact onward distinct

theorem tableBytes_append (group : WeightGroup)
    (front back : List TensorInfo) :
    tableBytes group (front ++ back) =
      tableBytes group front + tableBytes group back := by
  simp [tableBytes]

theorem tableBytes_flatten (group : WeightGroup)
    (tables : List (List TensorInfo)) :
    tableBytes group tables.flatten =
      (tables.map (tableBytes group)).sum := by
  induction tables with
  | nil => rfl
  | cons table tables induction =>
      rw [List.flatten_cons, tableBytes_append, induction, List.map_cons,
        List.sum_cons]

/-- The descriptor of a file with this table and the metadata of another. -/
def tableOf
    (reader : Reader) (fields : Required) (table : List TensorInfo) :
    Descriptor :=
  descriptorOf { reader with tensors := table } fields

/--
Shards that repeat the metadata and split the table make up the descriptor of
the file with the whole table.
-/
theorem whole_eq
    {reader : Reader} {fields : Required} {table : List TensorInfo}
    {tables : List (List TensorInfo)} {split : Split}
    (first : split.first = tableOf reader fields table)
    (rest : split.rest = tables.map (tableOf reader fields)) :
    split.whole = tableOf reader fields (table ++ tables.flatten) := by
  have distinct := split.distinct
  rw [first, rest, List.flatMap_map] at distinct
  have entries :
      (mapOf .empty (table ++ tables.flatten)).entries =
        (mapOf .empty table).entries ++
          tables.flatMap fun table => (mapOf .empty table).entries := by
    have both :
        mapOf .empty (table ++ tables.flatten) =
          mapOf (mapOf .empty table) tables.flatten :=
      List.foldl_append
    rw [both]
    exact mapOf_flatten distinct
  have sums : ∀ group,
      tableBytes group (table ++ tables.flatten) =
        tableBytes group table + (tables.map (tableBytes group)).sum := by
    intro group
    rw [tableBytes_append, tableBytes_flatten]
  have numbers : ∀ table,
      Reader.getU64 { reader with tensors := table } = reader.getU64 :=
    fun _ => rfl
  have tokens : ∀ table,
      tokenCount { reader with tensors := table } = tokenCount reader :=
    fun _ => rfl
  obtain ⟨first', rest', distinct'⟩ := split
  subst first rest
  simp only [Split.whole, summed, tableOf, descriptorOf, List.map_map,
    Function.comp_def, List.flatMap_map, entries, sums, List.sum_map_add,
    numbers, tokens, Descriptor.mk.injEq, true_and, and_true]
  omega

/-! ## Tensors without bytes -/

/-- The entries that have bytes. -/
def solidEntries (desc : Descriptor) : List Entry :=
  Greedy.solid (fun entry : Entry => entry.2.1) desc.tensorBytes

section Alike

variable {desc desc' : Descriptor} {budget : Nat}

theorem solid_sorted (desc : Descriptor) :
    Greedy.solid TensorPlacement.bytes (sorted desc) =
      ((solidEntries desc).map collect).insertionSort Before := by
  rw [Greedy.solid, sorted, Greedy.filter_insertionSort, List.filter_map]
  rfl

/-- Tensors with bytes are packed as if there were no others. -/
theorem packing_solid (alike : solidEntries desc = solidEntries desc') :
    Greedy.solidMarks TensorPlacement.bytes (packing desc budget) =
      Greedy.solidMarks TensorPlacement.bytes (packing desc' budget) := by
  rw [packing, packing, Greedy.solidMarks_fill, Greedy.solidMarks_fill,
    solid_sorted, solid_sorted, alike]

theorem taken_solid (alike : solidEntries desc = solidEntries desc') :
    Greedy.taken TensorPlacement.bytes (packing desc budget) =
      Greedy.taken TensorPlacement.bytes (packing desc' budget) := by
  rw [← Greedy.taken_solidMarks, packing_solid alike,
    Greedy.taken_solidMarks]

theorem refused_solid (alike : solidEntries desc = solidEntries desc') :
    Greedy.refused TensorPlacement.bytes (packing desc budget) =
      Greedy.refused TensorPlacement.bytes (packing desc' budget) := by
  rw [← Greedy.refused_solidMarks, packing_solid alike,
    Greedy.refused_solidMarks]

theorem weightBytes_solid (alike : solidEntries desc = solidEntries desc') :
    desc.weightBytes = desc'.weightBytes := by
  rw [Descriptor.weightBytes, Descriptor.weightBytes, ← Greedy.sum_solid,
    ← @Greedy.sum_solid _ _ desc'.tensorBytes]
  exact
    congrArg
      (fun entries : List Entry => (entries.map fun entry => entry.2.1).sum)
      alike

theorem keepsFirst_solid (alike : solidEntries desc = solidEntries desc') :
    KeepsFirst desc budget ↔ KeepsFirst desc' budget := by
  have here :=
    @Greedy.all_solidMarks_iff _ TensorPlacement.bytes budget 0
      (sorted desc) (Nat.zero_le _) (fun tensor => isFirst tensor.name)
  have there :=
    @Greedy.all_solidMarks_iff _ TensorPlacement.bytes budget 0
      (sorted desc') (Nat.zero_le _) (fun tensor => isFirst tensor.name)
  have same := @packing_solid desc desc' budget alike
  rw [packing, packing] at same
  rw [same] at here
  exact here.symm.trans there

variable {config : PlannerConfig} {compute kv : Nat}

theorem plan_fits_solid (alike : solidEntries desc = solidEntries desc') :
    (plan desc config compute kv).fits =
      (plan desc' config compute kv).fits := by
  have gpu :
      (plan desc config compute kv).gpuWeightBytes =
        (plan desc' config compute kv).gpuWeightBytes :=
    taken_solid alike
  have cpu :
      (plan desc config compute kv).cpuWeightBytes =
        (plan desc' config compute kv).cpuWeightBytes :=
    refused_solid alike
  rw [Bool.eq_iff_iff, plan_fits_iff, plan_fits_iff, gpu, cpu]

theorem plan_all_solid (alike : solidEntries desc = solidEntries desc') :
    (plan desc config compute kv).allOnGpu =
      (plan desc' config compute kv).allOnGpu := by
  rw [Bool.eq_iff_iff, plan_allOnGpu_iff, plan_allOnGpu_iff,
    weightBytes_solid alike]

end Alike

/-! ## The judgement -/

/-- The entries of the later shards. -/
def Split.later (split : Split) : List Entry :=
  split.rest.flatMap Descriptor.tensorBytes

/-- Some tensor belongs to the first layer. -/
def hasFirst (entries : List Entry) : Bool :=
  entries.any fun entry => isFirst entry.1

/-- Two reports judge the model alike. -/
structure SameJudgement (report report' : FitReport) : Prop where
  verdict : report.verdict = report'.verdict
  fits : report.plan.fits = report'.plan.fits
  gpuWeightBytes :
    report.plan.gpuWeightBytes = report'.plan.gpuWeightBytes
  cpuWeightBytes :
    report.plan.cpuWeightBytes = report'.plan.cpuWeightBytes

variable {Hw : Type}

/-- Two descriptors are judged alike under every configuration. -/
def JudgedAlike
    (floats : Floats)
    (speed : Descriptor → KvEstimate → Nat → Hw → Rat)
    (desc desc' : Descriptor) : Prop :=
  ∀ config report report',
    checkFit floats speed desc config = .ok report →
      checkFit floats speed desc' config = .ok report' →
        SameJudgement report report'

/--
Nothing is lost with the maps of the later shards: their tensors have no
bytes, and they do not hide that the model has a first layer.
-/
structure Split.Harmless (split : Split) : Prop where
  empty : ∀ entry ∈ split.later, entry.2.1 = 0
  first :
    hasFirst split.later = true →
      hasFirst split.first.tensorBytes = true ∨
        split.first.nLayer = 0 ∨ split.first.weightBytes = 0

theorem solidEntries_whole {split : Split}
    (empty : ∀ entry ∈ split.later, entry.2.1 = 0) :
    solidEntries (summed split.first split.rest) =
      solidEntries split.whole := by
  have none :
      split.later.filter (fun entry => decide (entry.2.1 ≠ 0)) = [] := by
    rw [List.filter_eq_nil_iff]
    intro entry member
    simp [empty entry member]
  change
    split.first.tensorBytes.filter _ =
      (split.first.tensorBytes ++ split.later).filter _
  rw [List.filter_append, none, List.append_nil]

theorem hasFirst_whole (split : Split) :
    hasFirst split.whole.tensorBytes =
      (hasFirst split.first.tensorBytes || hasFirst split.later) :=
  List.any_append

/-- With all on the GPU it does not matter how layers are counted. -/
theorem verdictOf_of_all {desc desc' : Descriptor} {overflow : Bool}
    {result result' : PlacementPlan}
    (fits : result.fits = result'.fits)
    (all : result.allOnGpu = true) (all' : result'.allOnGpu = true) :
    verdictOf desc overflow result = verdictOf desc' overflow result' := by
  rw [verdictOf, verdictOf, fits, all, all']
  cases overflow <;> cases result'.fits <;> rfl

section Split

variable {floats : Floats}
variable {speed : Descriptor → KvEstimate → Nat → Hw → Rat}
variable {split : Split} {config : FitConfig Hw}

/-- The layers of the whole model, from the shards. -/
theorem whole_layers
    (empty : ∀ entry ∈ split.later, entry.2.1 = 0) (budget : Nat) :
    layersOnGpu ((packing split.whole budget).map mark) = true ↔
      (hasFirst split.first.tensorBytes = true ∨
          hasFirst split.later = true) ∧
        KeepsFirst (summed split.first split.rest) budget := by
  have first := hasFirst_whole split
  rw [layersOnGpu_packing, keepsFirst_solid (solidEntries_whole empty)]
  refine and_congr_left fun _ => ?_
  change hasFirst split.whole.tensorBytes = true ↔ _
  rw [first, Bool.or_eq_true]

theorem judgedAlike_of_harmless (harmless : split.Harmless) :
    JudgedAlike floats speed (summed split.first split.rest)
      split.whole := by
  intro config report report' checked checked'
  obtain ⟨planned, verdict⟩ := checkFit_report checked
  obtain ⟨planned', verdict'⟩ := checkFit_report checked'
  have alike := solidEntries_whole harmless.empty
  have fits : report.plan.fits = report'.plan.fits := by
    rw [planned, planned']
    exact plan_fits_solid alike
  have all : report.plan.allOnGpu = report'.plan.allOnGpu := by
    rw [planned, planned']
    exact plan_all_solid alike
  refine ⟨?_, fits, ?_, ?_⟩
  · rw [verdict, verdict']
    by_cases hidden :
        hasFirst split.later = true ∧
          ¬ hasFirst split.first.tensorBytes = true
    · rcases (harmless.first hidden.1).resolve_left hidden.2 with
        none | weightless
      · have layers : report.plan.gpuLayers = report'.plan.gpuLayers := by
          rw [planned, planned', planFor, planFor, plan_gpuLayers,
            plan_gpuLayers]
          change (if _ then split.first.nLayer else 0) =
            if _ then split.first.nLayer else 0
          rw [none, ite_self, ite_self]
        exact verdictOf_congr fits all layers
      · have everything : report.plan.allOnGpu = true := by
          rw [planned, planFor, plan_allOnGpu_iff]
          exact weightless.trans_le (Nat.zero_le _)
        exact verdictOf_of_all fits everything (all ▸ everything)
    · have layers : report.plan.gpuLayers = report'.plan.gpuLayers := by
        rw [planned, planned', planFor, planFor, plan_gpuLayers,
          plan_gpuLayers]
        refine if_congr ?_ rfl rfl
        rw [layersOnGpu_packing, whole_layers harmless.empty]
        refine and_congr_left fun _ => ?_
        change hasFirst split.first.tensorBytes = true ↔ _
        tauto
      exact verdictOf_congr fits all layers
  · rw [planned, planned']
    exact taken_solid alike
  · rw [planned, planned']
    exact refused_solid alike

/-! ## Configurations that tell them apart -/

/-- A prompt without media. -/
def noMedia : MediaFit where
  frames := 0
  tokensPerFrame := 0
  audioSeconds := 0
  tokensPerAudioSecond := 0

/-- The same reserves, with this VRAM and all RAM there can be. -/
def withVram
    (config : FitConfig Hw) (desc : Descriptor) (vram : Nat) :
    FitConfig Hw :=
  { config with
    planner :=
      { config.plannerFor desc with
        vramBytes := vram
        ramBytes := u64Limit - 1 }
    media := noMedia }

theorem mediaTokens_noMedia : mediaTokens noMedia = 0 := by
  simp [mediaTokens, noMedia, saturatingMul]

theorem withVram_plannerFor
    (config : FitConfig Hw) (desc desc' : Descriptor) (vram : Nat) :
    (withVram config desc vram).plannerFor desc' =
      { config.plannerFor desc with
        vramBytes := vram
        ramBytes := u64Limit - 1 } := by
  simp [withVram, FitConfig.plannerFor, noMedia, estimateEncoderCompute]

/-- A plan that packs everything leaves room for any other. -/
theorem inRange_of_roomy {desc : Descriptor} {budget reserved : Nat}
    (range : InRange desc budget reserved)
    (roomy : desc.weightBytes ≤ budget) (budget' : Nat) :
    InRange desc budget' reserved := by
  have none := packing_roomy roomy
  have total := @packing_total desc budget
  have total' := @packing_total desc budget'
  have gpu := range.gpu
  have reserves := range.reserves
  refine
    { reserves := reserves
      fills := fillGpu_ok_of_sum ?_
      cpu := by omega
      gpu := by omega
      need := ?_ }
  · rw [Nat.zero_add, sorted_weightBytes]
    omega
  · split_ifs with nothing
    · omega
    · omega

/-- Some amount of VRAM holds all but the whole of the weights. -/
theorem exists_tight {config : FitConfig Hw} {reserved : Nat}
    {desc : Descriptor} (weights : 0 < desc.weightBytes) :
    ∃ vram,
      vram - config.planner.vramMargin - reserved < desc.weightBytes ∧
        ∀ desc' : Descriptor,
          desc'.weightBytes = desc.weightBytes →
            InRange desc' (config.planner.weightBudget reserved)
                reserved →
              InRange desc'
                (vram - config.planner.vramMargin - reserved)
                reserved := by
  by_cases roomy :
      desc.weightBytes ≤ config.planner.weightBudget reserved
  · refine
      ⟨config.planner.vramMargin + reserved + (desc.weightBytes - 1),
        by omega, ?_⟩
    intro desc' same range
    exact inRange_of_roomy range (same.trans_le roomy) _
  · exact
      ⟨config.planner.vramBytes, not_le.mp roomy,
        fun _ _ range => range⟩

theorem withVram_reserved {desc desc' : Descriptor}
    (same : config.plannerFor desc' = config.plannerFor desc)
    (vram : Nat) :
    reservedFor floats desc' (withVram config desc vram) =
      reservedFor floats desc' config := by
  rw [reservedFor, withVram_plannerFor, reservedFor, same]
  rfl

theorem withVram_budget {desc desc' : Descriptor}
    (same : config.plannerFor desc' = config.plannerFor desc)
    (vram : Nat) :
    ((withVram config desc vram).plannerFor desc').weightBudget
        (reservedFor floats desc' (withVram config desc vram)) =
      vram - config.planner.vramMargin -
        reservedFor floats desc' config := by
  rw [withVram_reserved same, withVram_plannerFor]
  rfl

/-- Another amount of VRAM is all that has to stay in range. -/
theorem withVram_checks {desc desc' : Descriptor} {report : FitReport}
    {vram : Nat}
    (same : config.plannerFor desc' = config.plannerFor desc)
    (checked : checkFit floats speed desc' config = .ok report)
    (range :
      InRange desc'
          (config.planner.weightBudget (reservedFor floats desc' config))
          (reservedFor floats desc' config) →
        InRange desc'
          (vram - config.planner.vramMargin -
            reservedFor floats desc' config)
          (reservedFor floats desc' config)) :
    ∃ report',
      checkFit floats speed desc' (withVram config desc vram) =
        .ok report' := by
  obtain ⟨-, compute, kv, plan, active⟩ :=
    checkFit_ok_iff_ranges.mp ⟨report, checked⟩
  refine
    checkFit_ok_iff_ranges.mpr ⟨?_, compute, kv, ?_, active⟩
  · exact mediaTokens_noMedia.trans_lt u64Limit_pos
  · rw [withVram_reserved same]
    exact range plan

/-- There is RAM for whatever the GPU does not take. -/
theorem plan_fits_of_ram
    {desc : Descriptor} {config : PlannerConfig} {compute kv : Nat}
    (range :
      InRange desc
        (config.weightBudget (config.reserved compute kv))
        (config.reserved compute kv))
    (ram : u64Limit ≤ config.ramBytes + 1) :
    (plan desc config compute kv).fits = true := by
  have within :
      (plan desc config compute kv).gpuWeightBytes ≤
        config.vramBytes - config.vramMargin -
          config.reserved compute kv :=
    packing_within
  have need :
      (plan desc config compute kv).cpuWeightBytes +
          (if (plan desc config compute kv).gpuWeightBytes = 0 then
            config.reserved compute kv
          else 0) <
        u64Limit :=
    range.need
  rw [plan_fits_iff]
  exact ⟨by omega, by omega⟩

theorem withVram_fits {desc desc' : Descriptor} {vram : Nat}
    {report : FitReport}
    (checked :
      checkFit floats speed desc' (withVram config desc vram) =
        .ok report) :
    report.plan.fits = true := by
  obtain ⟨-, -, -, range, -⟩ := checkFit_ok_iff_ranges.mp ⟨report, checked⟩
  rw [(checkFit_report checked).1]
  exact
    plan_fits_of_ram range
      (Nat.sub_add_cancel u64Limit_pos).ge

/-- There only the layers are left to judge what the GPU cannot take. -/
theorem withVram_verdict {desc desc' : Descriptor} {vram : Nat}
    {report : FitReport}
    (checked :
      checkFit floats speed desc' (withVram config desc vram) =
        .ok report)
    (split : report.plan.allOnGpu = false) :
    report.verdict =
      if 0 < report.plan.gpuLayers then
        .hybrid report.plan.gpuLayers desc'.nLayer
      else .cpu := by
  have fits := withVram_fits checked
  have quiet :
      decide
          ((withVram config desc vram).planner.ctxLen <
            mediaTokens noMedia) =
        false := by
    rw [mediaTokens_noMedia]
    exact decide_eq_false (Nat.not_lt_zero _)
  rw [(checkFit_report checked).2]
  change verdictOf _ (decide (_ < mediaTokens noMedia)) _ = _
  rw [quiet]
  simp [verdictOf, fits, split]

/-- What has no first layer has nothing of it left behind. -/
theorem keepsFirst_of_none {desc : Descriptor}
    (none : ¬ hasFirst desc.tensorBytes = true) (budget : Nat) :
    KeepsFirst desc budget := by
  intro entry member first
  have listed :=
    (@packing_listed desc budget).mem_iff.mp
      (List.mem_map_of_mem (List.mem_map_of_mem member))
  exact (none (List.any_eq_true.mpr ⟨_, listed, first⟩)).elim

theorem weightBytes_whole (split : Split) :
    split.whole.weightBytes =
      split.first.weightBytes +
        (split.later.map fun entry => entry.2.1).sum := by
  change
    ((split.first.tensorBytes ++ split.later).map _).sum = _
  rw [List.map_append, List.sum_append]
  rfl

/-- Bytes in a later shard are missing from every plan. -/
theorem empty_of_judgedAlike {report report' : FitReport}
    (checked :
      checkFit floats speed (summed split.first split.rest) config =
        .ok report)
    (checked' : checkFit floats speed split.whole config = .ok report')
    (same : SameJudgement report report') :
    ∀ entry ∈ split.later, entry.2.1 = 0 := by
  have planned := (checkFit_report checked).1
  have planned' := (checkFit_report checked').1
  have total :
      report.plan.gpuWeightBytes + report.plan.cpuWeightBytes =
        split.first.weightBytes := by
    rw [planned]
    exact packing_total
  have total' :
      report'.plan.gpuWeightBytes + report'.plan.cpuWeightBytes =
        split.whole.weightBytes := by
    rw [planned']
    exact packing_total
  have none : (split.later.map fun entry => entry.2.1).sum = 0 := by
    have gpu := same.gpuWeightBytes
    have cpu := same.cpuWeightBytes
    have whole := weightBytes_whole split
    omega
  intro entry member
  exact
    List.sum_eq_zero_iff.mp none _ (List.mem_map_of_mem member)

/-- A first layer that only a later shard has is missed. -/
theorem first_of_judgedAlike {report report' : FitReport}
    (alike :
      JudgedAlike floats speed (summed split.first split.rest)
        split.whole)
    (checked :
      checkFit floats speed (summed split.first split.rest) config =
        .ok report)
    (checked' : checkFit floats speed split.whole config = .ok report')
    (empty : ∀ entry ∈ split.later, entry.2.1 = 0)
    (hidden : hasFirst split.later = true) :
    hasFirst split.first.tensorBytes = true ∨
      split.first.nLayer = 0 ∨ split.first.weightBytes = 0 := by
  by_contra apart
  obtain ⟨none, layered, weighty⟩ : _ ∧ _ ∧ _ := by
    simpa only [not_or] using apart
  have whole : split.whole.weightBytes = split.first.weightBytes :=
    (weightBytes_solid (solidEntries_whole empty)).symm
  obtain ⟨vram, tight, ranges⟩ :=
    @exists_tight _ config
      (reservedFor floats (summed split.first split.rest) config)
      (summed split.first split.rest) (Nat.pos_of_ne_zero weighty)
  obtain ⟨report₁, checked₁⟩ :=
    @withVram_checks _ floats speed config
      (summed split.first split.rest) (summed split.first split.rest) _
      vram rfl checked (ranges _ rfl)
  obtain ⟨report₂, checked₂⟩ :=
    @withVram_checks _ floats speed config
      (summed split.first split.rest) split.whole _ vram rfl checked'
      (ranges split.whole whole)
  have same := (alike _ _ _ checked₁ checked₂).verdict
  have planned₁ := (checkFit_report checked₁).1
  have planned₂ := (checkFit_report checked₂).1
  have split₁ : report₁.plan.allOnGpu = false := by
    rw [planned₁, planFor, Bool.eq_false_iff, Ne, plan_allOnGpu_iff,
      not_le]
    exact (withVram_budget rfl vram).trans_lt tight
  have split₂ : report₂.plan.allOnGpu = false := by
    rw [← split₁, planned₁, planned₂]
    exact (plan_all_solid (solidEntries_whole empty)).symm
  have layers₁ : report₁.plan.gpuLayers = 0 := by
    rw [planned₁, planFor, plan_gpuLayers, if_neg]
    rw [layersOnGpu_packing]
    exact fun onGpu => none onGpu.1
  have layers₂ : report₂.plan.gpuLayers = split.first.nLayer := by
    rw [planned₂, planFor, plan_gpuLayers, if_pos]
    · rfl
    · exact
        (whole_layers empty _).mpr
          ⟨Or.inr hidden, keepsFirst_of_none none _⟩
  rw [withVram_verdict checked₁ split₁, layers₁,
    if_neg (Nat.lt_irrefl 0), withVram_verdict checked₂ split₂, layers₂,
    if_pos (Nat.pos_of_ne_zero layered)] at same
  cases same

end Split

/--
A split model is judged like the whole model exactly if the later shards have
nothing that counts.
-/
theorem combined_judgedAlike_iff
    (floats : Floats)
    (speed : Descriptor → KvEstimate → Nat → Hw → Rat)
    (split : Split) (combined : Descriptor)
    (combines :
      combineShardWeights split.first split.rest = .ok combined)
    (config : FitConfig Hw) (report report' : FitReport)
    (checked : checkFit floats speed combined config = .ok report)
    (checked' : checkFit floats speed split.whole config = .ok report') :
    JudgedAlike floats speed combined split.whole ↔ split.Harmless := by
  have same := combineShardWeights_eq combines
  subst same
  constructor
  · intro alike
    have empty :=
      empty_of_judgedAlike checked checked'
        (alike config report report' checked checked')
    exact ⟨empty, first_of_judgedAlike alike checked checked' empty⟩
  · exact judgedAlike_of_harmless

/-- A shard with this table of tensors. -/
def smallShard (entries : List Entry)
    (distinct : (entries.map Prod.fst).Nodup) (dense : Nat) :
    Descriptor :=
  { smallModel with
    weightBytesDense := dense
    weightBytesExpert := 0
    weightBytesEmbedOut := 0
    weightBytesTotal := dense
    tensorBytes := entries
    distinct := distinct }

/-- Two shards of 6000 bytes each. -/
def smallSplit : Split where
  first :=
    smallShard [("blk.0.attn_q.weight".toList, 6000, .dense)]
      (by decide +kernel) 6000
  rest :=
    [smallShard [("blk.1.attn_q.weight".toList, 6000, .dense)]
      (by decide +kernel) 6000]
  distinct := by decide +kernel

/-- Room for one of them on the GPU and for none besides. -/
def smallSplitFit : FitConfig Unit := plainFit (smallConfig 5000)

theorem smallSplit_checks :
    ∃ combined report report',
      combineShardWeights smallSplit.first smallSplit.rest =
          .ok combined ∧
        checkFit .exact (fun _ _ _ _ => 0) combined smallSplitFit =
          .ok report ∧
        checkFit .exact (fun _ _ _ _ => 0) smallSplit.whole
            smallSplitFit =
          .ok report' ∧
        report.verdict = .gpu ∧ report'.verdict = .noFit := by
  have apart :
      ∃ combined,
        combineShardWeights smallSplit.first smallSplit.rest =
            .ok combined ∧
          (checkFit .exact (fun _ _ _ _ => 0) combined
              smallSplitFit).map
              FitReport.verdict =
            .ok .gpu :=
    map_eq_ok.mp (by decide +kernel)
  have together :
      (checkFit .exact (fun _ _ _ _ => 0) smallSplit.whole
          smallSplitFit).map
          FitReport.verdict =
        .ok .noFit := by
    decide +kernel
  obtain ⟨combined, combines, judged⟩ := apart
  obtain ⟨report, checked, gpu⟩ := map_eq_ok.mp judged
  obtain ⟨report', checked', none⟩ := map_eq_ok.mp together
  exact
    ⟨combined, report, report', combines, checked, checked', gpu, none⟩

theorem combined_judgedAlike_small :
    ∃ combined report report',
      combineShardWeights smallSplit.first smallSplit.rest =
          .ok combined ∧
        checkFit .exact (fun _ _ _ _ => 0) combined smallSplitFit =
          .ok report ∧
        checkFit .exact (fun _ _ _ _ => 0) smallSplit.whole
            smallSplitFit =
          .ok report' ∧
        (JudgedAlike .exact (fun _ _ _ (_ : Unit) => 0) combined
            smallSplit.whole ↔
          smallSplit.Harmless) := by
  obtain ⟨combined, report, report', combines, checked, checked', -⟩ :=
    smallSplit_checks
  exact
    ⟨combined, report, report', combines, checked, checked',
      combined_judgedAlike_iff .exact (fun _ _ _ _ => 0) smallSplit
        combined combines smallSplitFit report report' checked checked'⟩

/-- A split model that does not fit is found to fit the GPU. -/
theorem combined_misjudged :
    ∃ combined,
      combineShardWeights smallSplit.first smallSplit.rest =
          .ok combined ∧
        ¬ JudgedAlike .exact (fun _ _ _ (_ : Unit) => 0) combined
          smallSplit.whole := by
  obtain ⟨combined, report, report', combines, checked, checked', gpu,
    none⟩ := smallSplit_checks
  refine ⟨combined, combines, ?_⟩
  intro alike
  have same := (alike _ _ _ checked checked').verdict
  rw [gpu, none] at same
  cases same

end Runa.Fit.Shards
