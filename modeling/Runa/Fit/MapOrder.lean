import Runa.Fit.CheckFit

/-!
# The order of the tensor map

The tensors of a descriptor come out of a hash map, in an order that is not
the same in every run.  They are sorted by group and size, and the sort keeps
tensors that agree in both in the order of the map.  How many tensors of such
a class are packed does not depend on that order; which of them are packed
does, and with it the layers and the verdict.
-/

namespace Runa.Fit.MapOrder

open Runa.Stream.Utf8
open Runa.Word.Checked
open Runa.Packing
open Runa.Fit.GgmlTypes
open Runa.Fit.Estimate
open Runa.Fit.Planner
open Runa.Fit.CheckFit

/-- The same map in another order of iteration. -/
def reorder
    (desc : Descriptor) (order : List Entry)
    (same : order.Perm desc.tensorBytes) : Descriptor :=
  { desc with
    tensorBytes := order
    distinct := (same.map Prod.fst).nodup_iff.mpr desc.distinct }

/-! ## Classes of tensors -/

/-- What the order of packing is about. -/
abbrev Class := WeightGroup × Nat

def classOf (tensor : TensorPlacement) : Class :=
  (tensor.group, tensor.bytes)

/-- The class of an entry, before it is collected. -/
def entryClass (entry : Entry) : Class :=
  (entry.2.2, entry.2.1)

/-- The order of packing, which leaves no two classes alike. -/
def ClassBefore (first second : Class) : Prop :=
  evictionPriority second.1 < evictionPriority first.1 ∨
    evictionPriority second.1 = evictionPriority first.1 ∧
      second.2 ≤ first.2

instance : DecidableRel ClassBefore := fun _ _ =>
  inferInstanceAs (Decidable (_ ∨ _ ∧ _))

instance : IsTrans Class ClassBefore where
  trans := by
    intro first second third
    unfold ClassBefore
    omega

instance : Std.Total ClassBefore where
  total := by
    intro first second
    unfold ClassBefore
    omega

theorem evictionPriority_injective :
    Function.Injective evictionPriority := by
  intro first second same
  cases first <;> cases second <;> first | rfl | cases same

instance : Std.Antisymm ClassBefore where
  antisymm := by
    rintro ⟨group, bytes⟩ ⟨group', bytes'⟩ before behind
    simp only [ClassBefore] at before behind
    have groups : evictionPriority group = evictionPriority group' := by
      omega
    have sizes : bytes = bytes' := by
      omega
    rw [evictionPriority_injective groups, sizes]

/-- The classes of the tensors in the order of packing. -/
def classes (desc : Descriptor) : List Class :=
  (desc.tensorBytes.map entryClass).insertionSort ClassBefore

/-- How many tensors of a class there are. -/
def tensorsIn (desc : Descriptor) (kind : Class) : Nat :=
  desc.tensorBytes.countP fun entry => decide (entryClass entry = kind)

/-- The name of a tensor of the first layer. -/
def isFirst (name : Text) : Bool :=
  "blk.0.".toList.isPrefixOf name

/-- How many of them belong to the first layer. -/
def firstIn (desc : Descriptor) (kind : Class) : Nat :=
  desc.tensorBytes.countP fun entry =>
    decide (entryClass entry = kind) && isFirst entry.1

/-- How many of them there is room for, going by sizes alone. -/
def roomFor (desc : Descriptor) (budget : Nat) (kind : Class) : Nat :=
  (Greedy.marksOf (fun item => decide (item = kind))
    (Greedy.fill Prod.snd budget 0 (classes desc))).count true

/--
The order cannot matter: there are no layers to count, or some tensor of the
first layer has to stay behind in any order, or each class with a tensor of
the first layer is packed as a whole.
-/
def TieSafe (desc : Descriptor) (budget : Nat) : Prop :=
  desc.nLayer = 0 ∨
    (∃ kind ∈ classes desc,
      roomFor desc budget kind < firstIn desc kind) ∨
    ∀ kind ∈ classes desc,
      0 < firstIn desc kind →
        roomFor desc budget kind = tensorsIn desc kind

instance (desc : Descriptor) (budget : Nat) :
    Decidable (TieSafe desc budget) :=
  inferInstanceAs (Decidable (_ ∨ _ ∨ _))

/-! ## What no order changes -/

variable {desc : Descriptor} {budget : Nat}

theorem sorted_classes : (sorted desc).map classOf = classes desc := by
  rw [sorted, List.map_insertionSort Before ClassBefore classOf, List.map_map]
  · rfl
  · intro first _ second _
    exact Iff.rfl

theorem packing_classes :
    (packing desc budget).map (Prod.map classOf id) =
      Greedy.fill Prod.snd budget 0 (classes desc) := by
  have sizes :=
    @Greedy.fill_map _ TensorPlacement.bytes budget 0 (sorted desc) _
      (Prod.snd : Class → Nat) classOf fun _ => rfl
  rw [sorted_classes] at sizes
  exact sizes

theorem classes_reorder
    {order : List Entry} (same : order.Perm desc.tensorBytes) :
    classes (reorder desc order same) = classes desc := by
  have shuffled :
      (classes (reorder desc order same)).Perm (classes desc) :=
    ((List.perm_insertionSort ClassBefore _).trans
      (same.map entryClass)).trans
        (List.perm_insertionSort ClassBefore _).symm
  exact shuffled.eq_of_pairwise'
    (List.pairwise_insertionSort ClassBefore _)
    (List.pairwise_insertionSort ClassBefore _)

/-- The bytes on each side come from the classes. -/
theorem taken_classes :
    Greedy.taken TensorPlacement.bytes (packing desc budget) =
      Greedy.taken Prod.snd
        (Greedy.fill Prod.snd budget 0 (classes desc)) := by
  rw [← packing_classes]
  exact
    (@Greedy.taken_map _ TensorPlacement.bytes _ (Prod.snd : Class → Nat)
      classOf (fun _ => rfl) _).symm

theorem refused_classes :
    Greedy.refused TensorPlacement.bytes (packing desc budget) =
      Greedy.refused Prod.snd
        (Greedy.fill Prod.snd budget 0 (classes desc)) := by
  rw [← packing_classes]
  exact
    (@Greedy.refused_map _ TensorPlacement.bytes _
      (Prod.snd : Class → Nat) classOf (fun _ => rfl) _).symm

theorem all_classes :
    (packing desc budget).all Prod.snd =
      (Greedy.fill Prod.snd budget 0 (classes desc)).all Prod.snd := by
  rw [← packing_classes, List.all_map]
  rfl

theorem sorted_bytes :
    (sorted desc).map TensorPlacement.bytes =
      (classes desc).map Prod.snd := by
  rw [← sorted_classes, List.map_map]
  rfl

/-! ## What is packed of a class -/

/-- The tensors of a class, for the packing. -/
def inClass (kind : Class) (tensor : TensorPlacement) : Bool :=
  decide (classOf tensor = kind)

/-- Counting in the packing is counting in the map. -/
theorem packing_countP (among : Entry → Bool) :
    (packing desc budget).countP
        (fun entry =>
          among (entry.1.name, entry.1.bytes, entry.1.group)) =
      desc.tensorBytes.countP among := by
  have listed := (@packing_listed desc budget).countP_eq among
  rw [List.map_map, List.countP_map] at listed
  exact listed

/-- The first tensors of a class are packed, so many as there is room for. -/
theorem class_marks (kind : Class) :
    ∃ count,
      Greedy.marksOf (inClass kind) (packing desc budget) =
          List.replicate (roomFor desc budget kind) true ++
            List.replicate count false ∧
        roomFor desc budget kind + count = tensorsIn desc kind := by
  have marks :
      Greedy.marksOf (inClass kind) (packing desc budget) =
        Greedy.marksOf (fun item => decide (item = kind))
          (Greedy.fill Prod.snd budget 0 (classes desc)) := by
    rw [← packing_classes, Greedy.marksOf_map]
    rfl
  have alike :
      ∀ tensor ∈ sorted desc, inClass kind tensor = true →
        tensor.bytes = kind.2 := by
    intro tensor _ member
    rw [inClass, decide_eq_true_eq] at member
    rw [← member]
    rfl
  obtain ⟨room, count, split⟩ :=
    @Greedy.fill_alike _ TensorPlacement.bytes budget 0 _ _ _ alike
  change
    Greedy.marksOf (inClass kind) (packing desc budget) = _ at split
  have here : roomFor desc budget kind = room := by
    rw [roomFor, ← marks, split]
    simp [List.count_replicate]
  have total :
      (Greedy.marksOf (inClass kind) (packing desc budget)).length =
        tensorsIn desc kind := by
    rw [Greedy.marksOf, List.length_map, ← List.countP_eq_length_filter]
    exact packing_countP fun entry => decide (entryClass entry = kind)
  refine ⟨count, here ▸ split, ?_⟩
  rw [here, ← total, split]
  simp

/-! ## Whether the first layer is packed -/

/-- No tensor of the first layer is left behind. -/
def KeepsFirst (desc : Descriptor) (budget : Nat) : Prop :=
  ∀ entry ∈ packing desc budget,
    isFirst entry.1.name = true → entry.2 = true

theorem layersOnGpu_packing :
    layersOnGpu ((packing desc budget).map mark) = true ↔
      desc.tensorBytes.any (fun entry => isFirst entry.1) = true ∧
        KeepsFirst desc budget := by
  rw [layersOnGpu, Bool.and_eq_true, firstLayer_packing, Bool.not_not,
    List.all_eq_true]
  refine and_congr Iff.rfl ?_
  constructor
  · intro kept entry member first
    exact kept (mark entry)
      (List.mem_filter.mpr ⟨List.mem_map_of_mem member, first⟩)
  · intro kept tensor member
    obtain ⟨listed, first⟩ := List.mem_filter.mp member
    obtain ⟨entry, packed, rfl⟩ := List.mem_map.mp listed
    exact kept entry packed first

/-- A packed tensor is one of its class. -/
theorem mem_class {entry : TensorPlacement × Bool}
    (member : entry ∈ packing desc budget) :
    entry.2 ∈
        Greedy.marksOf (inClass (classOf entry.1))
          (packing desc budget) ∧
      classOf entry.1 ∈ classes desc := by
  constructor
  · exact List.mem_map_of_mem
      (List.mem_filter.mpr ⟨member, decide_eq_true rfl⟩)
  · rw [← sorted_classes]
    refine List.mem_map_of_mem ?_
    rw [← @Greedy.fill_fst _ TensorPlacement.bytes budget 0 (sorted desc)]
    exact List.mem_map_of_mem member

theorem firstIn_pos {entry : TensorPlacement × Bool}
    (member : entry ∈ packing desc budget)
    (first : isFirst entry.1.name = true) :
    0 < firstIn desc (classOf entry.1) := by
  rw [firstIn, ← @packing_countP desc budget, List.countP_pos_iff]
  refine ⟨entry, member, ?_⟩
  rw [Bool.and_eq_true]
  exact ⟨decide_eq_true rfl, first⟩

/-- Where classes are packed as a whole, no order leaves one behind. -/
theorem keepsFirst_of_whole
    (whole :
      ∀ kind ∈ classes desc,
        0 < firstIn desc kind →
          roomFor desc budget kind = tensorsIn desc kind) :
    KeepsFirst desc budget := by
  intro entry member first
  obtain ⟨marked, listed⟩ := mem_class member
  obtain ⟨count, marks, total⟩ :=
    @class_marks desc budget (classOf entry.1)
  have none : count = 0 := by
    have all := whole _ listed (firstIn_pos member first)
    omega
  rw [marks, none, List.replicate_zero, List.append_nil] at marked
  exact List.eq_of_mem_replicate marked

/-- Where no order leaves one behind, there is room for them. -/
theorem firstIn_le_of_keepsFirst (kept : KeepsFirst desc budget)
    (kind : Class) :
    firstIn desc kind ≤ roomFor desc budget kind := by
  obtain ⟨count, marks, -⟩ := @class_marks desc budget kind
  have room :
      (packing desc budget).countP
          (fun entry => inClass kind entry.1 && entry.2) =
        roomFor desc budget kind := by
    have counted :
        (Greedy.marksOf (inClass kind) (packing desc budget)).count
            true =
          roomFor desc budget kind := by
      rw [marks]
      simp [List.count_replicate]
    rw [← counted, Greedy.marksOf, List.count, List.countP_map,
      List.countP_filter]
    refine List.countP_congr fun entry _ => ?_
    simp [and_comm]
  rw [← room, firstIn, ← @packing_countP desc budget]
  refine List.countP_mono_left fun entry member => ?_
  simp only [Bool.and_eq_true]
  rintro ⟨here, first⟩
  exact ⟨here, kept entry member first⟩

/-- The sort keeps the order of the map within a class. -/
theorem class_stable (kind : Class) :
    ((packing desc budget).filter fun entry =>
        inClass kind entry.1).map Prod.fst =
      (desc.tensorBytes.map collect).filter (inClass kind) := by
  have names :
      ((packing desc budget).filter fun entry =>
          inClass kind entry.1).map Prod.fst =
        (sorted desc).filter (inClass kind) := by
    rw [← @Greedy.fill_fst _ TensorPlacement.bytes budget 0 (sorted desc),
      List.filter_map]
    rfl
  rw [names]
  have tied :
      ((desc.tensorBytes.map collect).filter
        (inClass kind)).Pairwise Before := by
    refine List.Pairwise.imp_of_mem ?_
      (List.pairwise_of_forall (R := fun _ _ => True) fun _ _ => trivial)
    intro first second member member' _
    have here := of_decide_eq_true (List.mem_filter.mp member).2
    have here' := of_decide_eq_true (List.mem_filter.mp member').2
    have same : classOf first = classOf second := here.trans here'.symm
    rw [classOf, classOf, Prod.mk.injEq] at same
    rw [Before, same.1, same.2]
    omega
  have kept :=
    (List.sublist_insertionSort tied List.filter_sublist).filter
      (inClass kind)
  simp only [List.filter_filter, Bool.and_self] at kept
  refine (kept.eq_of_length ?_).symm
  exact (((sorted_perm desc).filter (inClass kind)).length_eq).symm

/-! ## Two orders -/

/-- The tensors of the first layer come first. -/
def firstOrder (desc : Descriptor) : List Entry :=
  (desc.tensorBytes.filter fun entry => isFirst entry.1) ++
    desc.tensorBytes.filter fun entry => !isFirst entry.1

/-- They come last. -/
def lastOrder (desc : Descriptor) : List Entry :=
  (desc.tensorBytes.filter fun entry => !isFirst entry.1) ++
    desc.tensorBytes.filter fun entry => isFirst entry.1

theorem firstOrder_perm (desc : Descriptor) :
    (firstOrder desc).Perm desc.tensorBytes :=
  List.filter_append_perm _ _

theorem lastOrder_perm (desc : Descriptor) :
    (lastOrder desc).Perm desc.tensorBytes :=
  List.perm_append_comm.trans (firstOrder_perm desc)

variable {order : List Entry}

theorem firstIn_reorder (same : order.Perm desc.tensorBytes)
    (kind : Class) :
    firstIn (reorder desc order same) kind = firstIn desc kind :=
  same.countP_eq _

theorem tensorsIn_reorder (same : order.Perm desc.tensorBytes)
    (kind : Class) :
    tensorsIn (reorder desc order same) kind = tensorsIn desc kind :=
  same.countP_eq _

theorem roomFor_reorder (same : order.Perm desc.tensorBytes)
    (kind : Class) :
    roomFor (reorder desc order same) budget kind =
      roomFor desc budget kind := by
  rw [roomFor, roomFor, classes_reorder]

theorem collect_append (kind : Class) (front back : List Entry) :
    ((front ++ back).map collect).filter (inClass kind) =
      (front.map collect).filter (inClass kind) ++
        (back.map collect).filter (inClass kind) := by
  rw [List.map_append, List.filter_append]

/-- The tensors of a class that belong to the first layer, or do not. -/
theorem collect_filter (kind : Class) (among : Text → Bool)
    (entries : List Entry) :
    (((entries.filter fun entry => among entry.1).map collect).filter
        (inClass kind)).length =
      entries.countP fun entry =>
        decide (entryClass entry = kind) && among entry.1 := by
  rw [List.filter_map, List.length_map, List.filter_filter,
    ← List.countP_eq_length_filter]
  rfl

theorem collect_among {kind : Class} {among : Text → Bool}
    {entries : List Entry} {tensor : TensorPlacement}
    (member :
      tensor ∈
        ((entries.filter fun entry => among entry.1).map collect).filter
          (inClass kind)) :
    among tensor.name = true := by
  obtain ⟨listed, -⟩ := List.mem_filter.mp member
  obtain ⟨entry, here, rfl⟩ := List.mem_map.mp listed
  exact (List.mem_filter.mp here).2

/-- If they come first, room for them is enough. -/
theorem keepsFirst_firstOrder
    (room :
      ∀ kind ∈ classes desc,
        firstIn desc kind ≤ roomFor desc budget kind) :
    KeepsFirst (reorder desc (firstOrder desc) (firstOrder_perm desc))
      budget := by
  intro entry member first
  obtain ⟨-, listed⟩ := mem_class member
  rw [classes_reorder] at listed
  have small := room _ listed
  obtain ⟨count, marks, -⟩ :=
    @class_marks
      (reorder desc (firstOrder desc) (firstOrder_perm desc)) budget
      (classOf entry.1)
  obtain ⟨front, back, parts, fronts, backs⟩ :=
    List.map_eq_append_iff.mp
      ((@class_stable
        (reorder desc (firstOrder desc) (firstOrder_perm desc)) budget
        (classOf entry.1)).trans (collect_append _ _ _))
  have here :
      entry ∈ front ++ back := by
    rw [← parts]
    exact List.mem_filter.mpr ⟨member, decide_eq_true rfl⟩
  rcases List.mem_append.mp here with early | late
  · rw [Greedy.marksOf, parts, roomFor_reorder, List.map_append] at marks
    have length :
        (front.map Prod.snd).length = firstIn desc (classOf entry.1) := by
      rw [List.length_map, ← List.length_map (f := Prod.fst), fronts]
      exact collect_filter _ isFirst _
    have taken := congrArg (List.take (firstIn desc (classOf entry.1))) marks
    rw [List.take_left' length,
      List.take_append_of_le_length (by simpa using small),
      List.take_replicate] at taken
    have mark : entry.2 ∈ front.map Prod.snd := List.mem_map_of_mem early
    rw [taken] at mark
    exact List.eq_of_mem_replicate mark
  · have other : entry.1 ∈ back.map Prod.fst := List.mem_map_of_mem late
    rw [backs] at other
    have absent :=
      @collect_among _ (fun name => !isFirst name) _ _ other
    rw [first] at absent
    cases absent

/-- If they come last, their class has to be packed as a whole. -/
theorem whole_of_keepsFirst_lastOrder
    (kept :
      KeepsFirst (reorder desc (lastOrder desc) (lastOrder_perm desc))
        budget)
    {kind : Class} (some : 0 < firstIn desc kind) :
    roomFor desc budget kind = tensorsIn desc kind := by
  obtain ⟨count, marks, total⟩ :=
    @class_marks
      (reorder desc (lastOrder desc) (lastOrder_perm desc)) budget kind
  rw [roomFor_reorder, tensorsIn_reorder] at total
  obtain ⟨front, back, parts, fronts, backs⟩ :=
    List.map_eq_append_iff.mp
      ((@class_stable
        (reorder desc (lastOrder desc) (lastOrder_perm desc)) budget
        kind).trans (collect_append _ _ _))
  have length : back.length = firstIn desc kind := by
    rw [← List.length_map (f := Prod.fst), backs]
    exact collect_filter _ isFirst _
  have nonempty : back ≠ [] := by
    rintro rfl
    rw [← length] at some
    exact Nat.lt_irrefl 0 some
  have last := List.getLast_mem nonempty
  have packed :
      back.getLast nonempty ∈
        packing (reorder desc (lastOrder desc) (lastOrder_perm desc))
          budget := by
    have member : back.getLast nonempty ∈ front ++ back :=
      List.mem_append_right _ last
    rw [← parts] at member
    exact List.mem_of_mem_filter member
  have first : isFirst (back.getLast nonempty).1.name = true := by
    have here : (back.getLast nonempty).1 ∈ back.map Prod.fst :=
      List.mem_map_of_mem last
    rw [backs] at here
    exact collect_among here
  have mark := kept _ packed first
  rw [Greedy.marksOf, parts, List.map_append] at marks
  cases count with
  | zero => omega
  | succ count =>
      have ends := congrArg List.getLast? marks
      rw [List.getLast?_append_of_ne_nil _ (by simpa using nonempty),
        List.getLast?_map, List.getLast?_eq_some_getLast nonempty,
        List.getLast?_append_of_ne_nil _ (by simp),
        List.getLast?_replicate] at ends
      simp [mark] at ends

/-! ## Answers -/

section Plans

variable {config : PlannerConfig} {compute kv : Nat}

theorem plan_gpu_reorder (same : order.Perm desc.tensorBytes) :
    (plan (reorder desc order same) config compute kv).gpuWeightBytes =
      (plan desc config compute kv).gpuWeightBytes := by
  simp only [plan]
  rw [taken_classes, taken_classes, classes_reorder]

theorem plan_cpu_reorder (same : order.Perm desc.tensorBytes) :
    (plan (reorder desc order same) config compute kv).cpuWeightBytes =
      (plan desc config compute kv).cpuWeightBytes := by
  simp only [plan]
  rw [refused_classes, refused_classes, classes_reorder]

theorem plan_all_reorder (same : order.Perm desc.tensorBytes) :
    (plan (reorder desc order same) config compute kv).allOnGpu =
      (plan desc config compute kv).allOnGpu := by
  simp only [plan]
  rw [all_classes, all_classes, classes_reorder]

theorem plan_fits_reorder (same : order.Perm desc.tensorBytes) :
    (plan (reorder desc order same) config compute kv).fits =
      (plan desc config compute kv).fits := by
  rw [Bool.eq_iff_iff, plan_fits_iff, plan_fits_iff, plan_gpu_reorder,
    plan_cpu_reorder]

/-- The layers of a plan are counted by the first one. -/
theorem plan_gpuLayers :
    (plan desc config compute kv).gpuLayers =
      if layersOnGpu
          ((packing desc
            (config.weightBudget (config.reserved compute kv))).map
              mark) then
        desc.nLayer
      else 0 := by
  simp only [plan]
  split_ifs with some
  · rfl
  · rfl
  · omega
  · rfl

end Plans

theorem inRange_reorder {reserved : Nat}
    (same : order.Perm desc.tensorBytes)
    (range : InRange desc budget reserved) :
    InRange (reorder desc order same) budget reserved where
  reserves := range.reserves
  fills := by
    obtain ⟨filled, fills⟩ := range.fills
    refine fillGpu_ok_of_bytes ?_ fills
    rw [sorted_bytes, sorted_bytes, classes_reorder]
  cpu := by
    rw [refused_classes, classes_reorder, ← refused_classes]
    exact range.cpu
  gpu := by
    rw [taken_classes, classes_reorder, ← taken_classes]
    exact range.gpu
  need := by
    rw [refused_classes, taken_classes, classes_reorder, ← refused_classes,
      ← taken_classes]
    exact range.need

/-- Two reports answer alike. -/
structure SameAnswer (report report' : FitReport) : Prop where
  gpuWeightBytes :
    report.plan.gpuWeightBytes = report'.plan.gpuWeightBytes
  fits : report.plan.fits = report'.plan.fits
  allOnGpu : report.plan.allOnGpu = report'.plan.allOnGpu
  gpuLayers : report.plan.gpuLayers = report'.plan.gpuLayers
  verdict : report.verdict = report'.verdict

variable {Hw : Type}

/-- The fit check answers alike in any two orders of the tensor map. -/
def OrderFree
    (floats : Floats)
    (speed : Descriptor → KvEstimate → Nat → Hw → Rat)
    (desc : Descriptor) (config : FitConfig Hw) : Prop :=
  ∀ order order'
    (same : order.Perm desc.tensorBytes)
    (same' : order'.Perm desc.tensorBytes),
    ∃ report report',
      checkFit floats speed (reorder desc order same) config =
          .ok report ∧
        checkFit floats speed (reorder desc order' same') config =
          .ok report' ∧
        SameAnswer report report'

section Checks

variable {floats : Floats}
variable {speed : Descriptor → KvEstimate → Nat → Hw → Rat}
variable {config : FitConfig Hw} {report : FitReport}

/-- A fit check that returns a report does so in any order. -/
theorem checkFit_reorder
    (checked : checkFit floats speed desc config = .ok report) :
    ∃ compute kv overflow,
      reservedBytes floats desc config =
          (config.plannerFor desc).reserved compute kv ∧
        ∀ order (same : order.Perm desc.tensorBytes),
          ∃ report',
            checkFit floats speed (reorder desc order same) config =
                .ok report' ∧
              report'.plan =
                plan (reorder desc order same) (config.plannerFor desc)
                  compute kv ∧
              report'.verdict = verdictOf desc overflow report'.plan := by
  obtain ⟨⟨media, need⟩, planned, kv, estimated, range⟩ :=
    checkFit_ok_iff.mp ⟨report, checked⟩
  obtain ⟨compute, kv', computed, estimated', ranges⟩ :=
    planPlacement_ok_iff.mp planned
  have sameKv : kv' = kv :=
    Except.ok.inj (estimated'.symm.trans estimated)
  subst sameKv
  refine
    ⟨compute.computeBytes, kv'.kvBytes,
      decide (config.planner.ctxLen < media), ?_, ?_⟩
  · change
      estimateCompute floats desc config.planner.nUbatch =
        .ok compute at computed
    rw [reservedBytes, computed, estimated]
  · intro order same
    have planned' :
        ∃ result,
          planPlacement floats (reorder desc order same)
              (config.plannerFor (reorder desc order same)) =
            .ok result :=
      planPlacement_ok_iff.mpr
        ⟨compute, kv', computed, estimated', inRange_reorder same ranges⟩
    obtain ⟨report', checked'⟩ :
        ∃ report',
          checkFit floats speed (reorder desc order same) config =
            .ok report' :=
      checkFit_ok_iff.mpr
        ⟨⟨media, need⟩, planned', kv', estimated, range⟩
    -- the estimates do not look at the tensor map
    exact
      ⟨report', checked',
        checkFit_of_estimates checked' need computed estimated⟩

theorem verdictOf_congr {overflow : Bool} {result result' : PlacementPlan}
    (fits : result.fits = result'.fits)
    (all : result.allOnGpu = result'.allOnGpu)
    (layers : result.gpuLayers = result'.gpuLayers) :
    verdictOf desc overflow result = verdictOf desc overflow result' := by
  rw [verdictOf, verdictOf, fits, all, layers]

end Checks

/-- The first layer is packed in every order or in none. -/
theorem layersOnGpu_reorder (safe : TieSafe desc budget)
    (some : desc.nLayer ≠ 0)
    (same : order.Perm desc.tensorBytes) :
    layersOnGpu
        ((packing (reorder desc order same) budget).map mark) = true ↔
      desc.tensorBytes.any (fun entry => isFirst entry.1) = true ∧
        ∀ kind ∈ classes desc,
          0 < firstIn desc kind →
            roomFor desc budget kind = tensorsIn desc kind := by
  have any :
      (reorder desc order same).tensorBytes.any
          (fun entry => isFirst entry.1) =
        desc.tensorBytes.any fun entry => isFirst entry.1 :=
    same.any_eq
  rw [layersOnGpu_packing, any]
  refine and_congr Iff.rfl ?_
  constructor
  · intro kept
    rcases safe with none | ⟨kind, -, small⟩ | whole
    · exact (some none).elim
    · have room := firstIn_le_of_keepsFirst kept kind
      rw [firstIn_reorder, roomFor_reorder] at room
      omega
    · exact whole
  · intro whole
    apply keepsFirst_of_whole
    intro kind member
    rw [classes_reorder] at member
    rw [firstIn_reorder, roomFor_reorder, tensorsIn_reorder]
    exact whole kind member

/-- If the answers agree in the two orders, ties are safe. -/
theorem tieSafe_of_orders
    (agree :
      layersOnGpu
          ((packing
            (reorder desc (firstOrder desc) (firstOrder_perm desc))
            budget).map mark) = true →
        layersOnGpu
          ((packing
            (reorder desc (lastOrder desc) (lastOrder_perm desc))
            budget).map mark) = true) :
    TieSafe desc budget := by
  by_cases room :
      ∀ kind ∈ classes desc,
        firstIn desc kind ≤ roomFor desc budget kind
  · refine Or.inr (Or.inr ?_)
    intro kind member some
    have any :
        (reorder desc (firstOrder desc)
            (firstOrder_perm desc)).tensorBytes.any
            (fun entry => isFirst entry.1) = true := by
      obtain ⟨entry, listed, here⟩ := List.countP_pos_iff.mp some
      rw [Bool.and_eq_true] at here
      exact List.any_eq_true.mpr
        ⟨entry, (firstOrder_perm desc).mem_iff.mpr listed, here.2⟩
    have first :=
      layersOnGpu_packing.mpr ⟨any, keepsFirst_firstOrder room⟩
    exact whole_of_keepsFirst_lastOrder
      (layersOnGpu_packing.mp (agree first)).2 some
  · push Not at room
    exact Or.inr (Or.inl room)

/--
A fit check answers alike in all orders of the tensor map exactly if ties are
safe.
-/
theorem checkFit_orderFree_iff
    (floats : Floats)
    (speed : Descriptor → KvEstimate → Nat → Hw → Rat)
    (desc : Descriptor) (config : FitConfig Hw) (report : FitReport)
    (checked : checkFit floats speed desc config = .ok report) :
    OrderFree floats speed desc config ↔
      TieSafe desc
        (config.planner.weightBudget
          (reservedBytes floats desc config)) := by
  obtain ⟨compute, kv, overflow, reserved, reports⟩ :=
    checkFit_reorder checked
  rw [reserved]
  constructor
  · intro free
    by_cases none : desc.nLayer = 0
    · exact Or.inl none
    apply tieSafe_of_orders
    intro first
    obtain ⟨report, report', checked, checked', answers⟩ :=
      free _ _ (firstOrder_perm desc) (lastOrder_perm desc)
    obtain ⟨report₁, checked₁, planned₁, -⟩ :=
      reports _ (firstOrder_perm desc)
    obtain ⟨report₂, checked₂, planned₂, -⟩ :=
      reports _ (lastOrder_perm desc)
    have same₁ : report₁ = report :=
      Except.ok.inj (checked₁.symm.trans checked)
    have same₂ : report₂ = report' :=
      Except.ok.inj (checked₂.symm.trans checked')
    subst same₁ same₂
    have layers := answers.gpuLayers
    rw [planned₁, planned₂, plan_gpuLayers, plan_gpuLayers] at layers
    change
      (if layersOnGpu
          ((packing _ (config.planner.weightBudget _)).map mark) = true
        then desc.nLayer else 0) =
        if layersOnGpu
          ((packing _ (config.planner.weightBudget _)).map mark) = true
        then desc.nLayer else 0 at layers
    rw [if_pos first] at layers
    by_contra behind
    rw [if_neg behind] at layers
    exact none layers
  · intro safe order order' same same'
    obtain ⟨report, checked, planned, verdict⟩ := reports order same
    obtain ⟨report', checked', planned', verdict'⟩ := reports order' same'
    have fits : report.plan.fits = report'.plan.fits := by
      rw [planned, planned', plan_fits_reorder, plan_fits_reorder]
    have all : report.plan.allOnGpu = report'.plan.allOnGpu := by
      rw [planned, planned', plan_all_reorder, plan_all_reorder]
    have layers : report.plan.gpuLayers = report'.plan.gpuLayers := by
      rw [planned, planned', plan_gpuLayers, plan_gpuLayers]
      by_cases none : desc.nLayer = 0
      · simp [reorder, none]
      · have alike :=
          (layersOnGpu_reorder safe none same).trans
            (layersOnGpu_reorder safe none same').symm
        exact if_congr alike rfl rfl
    refine ⟨report, report', checked, checked', ?_, fits, all, layers, ?_⟩
    · rw [planned, planned', plan_gpu_reorder, plan_gpu_reorder]
    · rw [verdict, verdict']
      exact verdictOf_congr fits all layers

theorem checkFit_orderFree_small :
    ∃ report,
      checkFit .exact (fun _ _ _ _ => 10) smallModel
          (plainFit (smallConfig 5000)) = .ok report ∧
        (OrderFree .exact (fun _ _ _ _ => 10) smallModel
            (plainFit (smallConfig 5000)) ↔
          TieSafe smallModel
            ((smallConfig 5000).weightBudget
              (reservedBytes .exact smallModel
                (plainFit (smallConfig 5000))))) := by
  have checked :
      ∃ report,
        checkFit .exact (fun _ _ _ _ => 10) smallModel
              (plainFit (smallConfig 5000)) =
            .ok report ∧
          report.verdict = .cpu :=
    map_eq_ok.mp (by decide +kernel)
  obtain ⟨report, checked, -⟩ := checked
  exact
    ⟨report, checked,
      checkFit_orderFree_iff .exact (fun _ _ _ _ => 10) smallModel
        (plainFit (smallConfig 5000)) report checked⟩

/-- Two layers of one tensor each, of the same size. -/
def tiedModel : Descriptor :=
  { smallModel with
    nLayer := 2
    weightBytesDense := 12000
    weightBytesEmbedOut := 0
    weightBytesTotal := 12000
    tensorBytes :=
      [("blk.0.attn_q.weight".toList, 6000, .dense),
        ("blk.1.attn_q.weight".toList, 6000, .dense)]
    distinct := by decide +kernel }

/-- A machine that has room for one of them on the GPU. -/
def tiedFit : FitConfig Unit :=
  plainFit { smallConfig 50000 with vramBytes := 16800 }

/-- Whether the first layer is kept depends on the order of the map. -/
theorem checkFit_order_matters :
    ¬ OrderFree .exact (fun _ _ _ _ => 10) tiedModel tiedFit := by
  intro free
  obtain ⟨report, report', checked, checked', answers⟩ :=
    free _ _ (List.Perm.refl _) (List.reverse_perm _)
  have hybrid :
      (checkFit .exact (fun _ _ _ _ => 10)
          (reorder tiedModel tiedModel.tensorBytes (List.Perm.refl _))
          tiedFit).map FitReport.verdict =
        .ok (.hybrid 2 2) := by
    decide +kernel
  have cpu :
      (checkFit .exact (fun _ _ _ _ => 10)
          (reorder tiedModel tiedModel.tensorBytes.reverse
            (List.reverse_perm _))
          tiedFit).map FitReport.verdict =
        .ok .cpu := by
    decide +kernel
  rw [checked] at hybrid
  rw [checked'] at cpu
  have verdict : Verdict.hybrid 2 2 = .cpu :=
    (Except.ok.inj hybrid).symm.trans
      (answers.verdict.trans (Except.ok.inj cpu))
  cases verdict

end Runa.Fit.MapOrder
