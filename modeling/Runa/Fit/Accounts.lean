import Runa.Fit.Descriptors
import Runa.Fit.GgufLaws
import Runa.Fit.PlannerLaws
import Mathlib.Algebra.Order.BigOperators.Group.List

/-!
# The two accounts of bytes

A descriptor counts the bytes of its tensors twice: in sums by group, which
the speed is estimated from, and in a map by name, which the planner packs.
Both are made in one walk over the table of tensors; they differ by what a
later tensor of the same name has replaced in the map.
-/

namespace Runa.Fit.Accounts

open Runa.Stream.Utf8
open Runa.Word.Checked
open Runa.Fit.GgmlTypes
open Runa.Fit.Estimate
open Runa.Fit.Gguf
open Runa.Fit.Descriptors
open Runa.Fit.Planner

/-! ## Sizes -/

/-- The bytes of a tensor, over natural numbers. -/
def infoSize (tensor : TensorInfo) : Nat :=
  match typeInfo tensor.ggmlType with
  | none => 0
  | some info =>
      divCeil (tensor.dims.map UInt64.toNat).prod info.blockSize *
        info.bytesPerBlock

/-- The size of a tensor stays in range; a type not known has no size. -/
def SizeInRange (tensor : TensorInfo) : Prop :=
  ∀ info,
    typeInfo tensor.ggmlType = some info →
      Multiplies u64Limit (tensor.dims.map UInt64.toNat) ∧
        infoSize tensor < u64Limit

theorem infoBytes_eq_ok {tensor : TensorInfo} {bytes : Nat} :
    infoBytes tensor = .ok bytes ↔
      SizeInRange tensor ∧ infoSize tensor = bytes := by
  rw [infoBytes, tensorBytes, SizeInRange, infoSize]
  cases known : typeInfo tensor.ggmlType with
  | none =>
      simp only [bind_eq_ok, pure_eq_ok, Except.ok.injEq, reduceCtorEq,
        false_imp_iff, implies_true, true_and]
      constructor
      · rintro ⟨_, rfl, same⟩
        exact same
      · intro same
        exact ⟨_, rfl, same⟩
  | some info =>
      simp only [bind_eq_ok, pure_eq_ok, mul_eq_ok, nElements,
        product_eq_ok, Option.some.injEq, forall_eq']
      constructor
      · rintro ⟨_, ⟨_, ⟨dims, rfl⟩, _, ⟨small, rfl⟩, rfl⟩, same⟩
        exact ⟨⟨dims, small⟩, same⟩
      · rintro ⟨⟨dims, small⟩, same⟩
        exact ⟨_, ⟨_, ⟨dims, rfl⟩, _, ⟨small, rfl⟩, rfl⟩, same⟩

/-- The bytes of the entries of a group. -/
def groupBytes (group : WeightGroup) (entries : List Entry) : Nat :=
  (entries.map fun entry =>
    if entry.2.2 = group then entry.2.1 else 0).sum

@[simp]
theorem groupBytes_cons (group : WeightGroup) (entry : Entry)
    (entries : List Entry) :
    groupBytes group (entry :: entries) =
      (if entry.2.2 = group then entry.2.1 else 0) +
        groupBytes group entries := by
  simp [groupBytes]

/-- The bytes of the tensors of a group. -/
def tableBytes (group : WeightGroup) (tensors : List TensorInfo) : Nat :=
  (tensors.map fun tensor =>
    if classifyTensor tensor.name = group then infoSize tensor else 0).sum

@[simp]
theorem tableBytes_cons (group : WeightGroup) (tensor : TensorInfo)
    (tensors : List TensorInfo) :
    tableBytes group (tensor :: tensors) =
      (if classifyTensor tensor.name = group then infoSize tensor
        else 0) +
        tableBytes group tensors := by
  simp [tableBytes]

/-- The sum that a descriptor has for a group. -/
def groupSum (desc : Descriptor) : WeightGroup → Nat
  | .dense => desc.weightBytesDense
  | .expert => desc.weightBytesExpert
  | .embedOut => desc.weightBytesEmbedOut

def sumOf (sums : Sums) : WeightGroup → Nat
  | .dense => sums.dense
  | .expert => sums.expert
  | .embedOut => sums.embedOut

/-! ## Replaced tensors -/

/-- The name comes among the tensors. -/
def named (name : Text) (tensors : List TensorInfo) : Bool :=
  tensors.any fun tensor => decide (tensor.name = name)

/-- The tensors that a later one of the same name replaces. -/
def replaced : List TensorInfo → List TensorInfo
  | [] => []
  | tensor :: rest =>
      if named tensor.name rest then tensor :: replaced rest
      else replaced rest

/-- The tensors that stay in the map. -/
def kept : List TensorInfo → List TensorInfo
  | [] => []
  | tensor :: rest =>
      if named tensor.name rest then kept rest
      else tensor :: kept rest

theorem kept_add_replaced (group : WeightGroup)
    (tensors : List TensorInfo) :
    tableBytes group (kept tensors) +
        tableBytes group (replaced tensors) =
      tableBytes group tensors := by
  induction tensors with
  | nil => rfl
  | cons tensor rest induction =>
      rw [kept, replaced]
      split_ifs with again
      · simp only [tableBytes, List.map_cons, List.sum_cons] at induction ⊢
        omega
      · simp only [tableBytes, List.map_cons, List.sum_cons] at induction ⊢
        omega

/-! ## The walk over the table -/

/-- An entry whose name is not looked at leaves the others as they are. -/
theorem insertEntry_filter_out {among : Text → Bool} {entry : Entry}
    (out : among entry.1 = false) (entries : List Entry) :
    (insertEntry entry entries).filter (fun other => among other.1) =
      entries.filter fun other => among other.1 := by
  induction entries with
  | nil => simp [insertEntry, out]
  | cons first rest induction =>
      rw [insertEntry]
      split_ifs with same
      · rw [← same] at out
        simp [same ▸ out, out]
      · rw [List.filter_cons, List.filter_cons, induction]

/-- An entry counts in place of the one it replaces. -/
theorem insertEntry_groupBytes {among : Text → Bool} {entry : Entry}
    (member : among entry.1 = true) (group : WeightGroup)
    {entries : List Entry} (distinct : (entries.map Prod.fst).Nodup) :
    groupBytes group
        ((insertEntry entry entries).filter fun other =>
          among other.1) =
      (if entry.2.2 = group then entry.2.1 else 0) +
        groupBytes group
          (entries.filter fun other =>
            among other.1 && !decide (other.1 = entry.1)) := by
  induction entries with
  | nil => simp [insertEntry, member, groupBytes]
  | cons first rest induction =>
      rw [List.map_cons, List.nodup_cons] at distinct
      rw [insertEntry]
      by_cases same : first.1 = entry.1
      · have others :
            rest.filter
                (fun other => among other.1 && !decide (other.1 = entry.1)) =
              rest.filter fun other => among other.1 := by
          refine List.filter_congr fun other listed => ?_
          have apart : other.1 ≠ entry.1 := by
            intro equal
            apply distinct.1
            rw [same, ← equal]
            exact List.mem_map_of_mem listed
          simp [apart]
        rw [if_pos same, List.filter_cons_of_pos (by simpa using member),
          List.filter_cons_of_neg (by simp [same]), groupBytes_cons,
          others]
      · rw [if_neg same]
        by_cases here : among first.1 = true
        · rw [List.filter_cons_of_pos (by simpa using here),
            List.filter_cons_of_pos (by simp [here, same]),
            groupBytes_cons, groupBytes_cons, induction distinct.2]
          omega
        · rw [List.filter_cons_of_neg (by simpa using here),
            List.filter_cons_of_neg (by simp [here]),
            induction distinct.2]

/-- The sums after a tensor of a group. -/
def addTo (sums : Sums) (bytes : Nat) (group : WeightGroup) : Sums where
  dense := sums.dense + if group = .dense then bytes else 0
  expert := sums.expert + if group = .expert then bytes else 0
  embedOut := sums.embedOut + if group = .embedOut then bytes else 0

theorem count_eq_ok {sums more : Sums} {bytes : Nat}
    {group : WeightGroup} :
    sums.count bytes group = .ok more ↔
      sumOf sums group + bytes < u64Limit ∧
        addTo sums bytes group = more := by
  cases group
  all_goals
    simp only [Sums.count, bind_eq_ok, add_eq_ok, pure_eq_ok, sumOf]
    constructor
    · rintro ⟨_, ⟨small, rfl⟩, rfl⟩
      exact ⟨small, by simp [addTo]⟩
    · rintro ⟨small, rfl⟩
      exact ⟨_, ⟨small, rfl⟩, by simp [addTo]⟩

@[simp]
theorem sumOf_addTo (sums : Sums) (bytes : Nat)
    (group other : WeightGroup) :
    sumOf (addTo sums bytes group) other =
      sumOf sums other + if group = other then bytes else 0 := by
  cases other <;> rfl

/-- The sums after a table. -/
def sumsOf (sums : Sums) (tensors : List TensorInfo) : Sums where
  dense := sums.dense + tableBytes .dense tensors
  expert := sums.expert + tableBytes .expert tensors
  embedOut := sums.embedOut + tableBytes .embedOut tensors

theorem sumsOf_addTo (sums : Sums) (tensor : TensorInfo)
    (rest : List TensorInfo) :
    sumsOf
        (addTo sums (infoSize tensor) (classifyTensor tensor.name))
        rest =
      sumsOf sums (tensor :: rest) := by
  simp only [sumsOf, addTo, tableBytes_cons, Nat.add_assoc]

/-- The map after a table. -/
def mapOf (map : TensorMap) (tensors : List TensorInfo) : TensorMap :=
  tensors.foldl
    (fun map tensor => map.insert (entryOf tensor (infoSize tensor))) map

/-- The walk has a value exactly if the sizes and the sums stay in range. -/
theorem account_eq_ok
    {sums : Sums} {map : TensorMap} {tensors : List TensorInfo}
    {result : Sums × TensorMap}
    (below : ∀ group, sumOf sums group < u64Limit) :
    account sums map tensors = .ok result ↔
      (∀ tensor ∈ tensors, SizeInRange tensor) ∧
        (∀ group,
          sumOf sums group + tableBytes group tensors < u64Limit) ∧
        (sumsOf sums tensors, mapOf map tensors) = result := by
  induction tensors generalizing sums map with
  | nil =>
      have none : sumsOf sums [] = sums := rfl
      simp [account, tableBytes, below, none, mapOf]
  | cons tensor rest induction =>
      simp only [account, bind_eq_ok, infoBytes_eq_ok, count_eq_ok,
        List.forall_mem_cons]
      constructor
      · rintro ⟨_, ⟨sized, rfl⟩, _, ⟨small, rfl⟩, onward⟩
        have below' : ∀ group,
            sumOf
                (addTo sums (infoSize tensor)
                  (classifyTensor tensor.name))
                group <
              u64Limit := by
          intro group
          rw [sumOf_addTo]
          split_ifs with same
          · rwa [← same]
          · exact below group
        obtain ⟨sizes, sums', rfl⟩ := (induction below').mp onward
        rw [sumsOf_addTo]
        refine ⟨⟨sized, sizes⟩, ?_, rfl⟩
        intro group
        have bound := sums' group
        rw [sumOf_addTo] at bound
        rw [tableBytes_cons]
        omega
      · rintro ⟨⟨sized, sizes⟩, bounds, rfl⟩
        have bounds' : ∀ group,
            sumOf
                  (addTo sums (infoSize tensor)
                    (classifyTensor tensor.name))
                  group +
                tableBytes group rest <
              u64Limit := by
          intro group
          have bound := bounds group
          rw [tableBytes_cons] at bound
          rw [sumOf_addTo]
          omega
        have small :
            sumOf sums (classifyTensor tensor.name) + infoSize tensor <
              u64Limit := by
          have bound := bounds (classifyTensor tensor.name)
          rw [tableBytes_cons, if_pos rfl] at bound
          omega
        have below' : ∀ group,
            sumOf
                (addTo sums (infoSize tensor)
                  (classifyTensor tensor.name))
                group <
              u64Limit :=
          fun group => (Nat.le_add_right _ _).trans_lt (bounds' group)
        refine
          ⟨_, ⟨sized, rfl⟩, _, ⟨small, rfl⟩,
            (induction below').mpr ⟨sizes, bounds', ?_⟩⟩
        rw [sumsOf_addTo]
        rfl

/-- The map keeps the last tensor of each name. -/
theorem mapOf_groupBytes
    (map : TensorMap) (tensors : List TensorInfo) (group : WeightGroup) :
    groupBytes group (mapOf map tensors).entries =
      groupBytes group
          (map.entries.filter fun entry => !named entry.1 tensors) +
        tableBytes group (kept tensors) := by
  induction tensors generalizing map with
  | nil => simp [mapOf, named, kept, tableBytes]
  | cons tensor rest induction =>
      have onward :=
        induction (map.insert (entryOf tensor (infoSize tensor)))
      have outside :
          (map.entries.filter fun entry =>
              !named entry.1 (tensor :: rest)) =
            map.entries.filter fun entry =>
              !named entry.1 rest && !decide (entry.1 = tensor.name) := by
        refine List.filter_congr fun entry _ => ?_
        rw [named, List.any_cons, Bool.not_or, Bool.and_comm, named]
        simp only [eq_comm]
      rw [mapOf, List.foldl_cons]
      refine onward.trans ?_
      rw [kept, outside]
      by_cases again : named tensor.name rest = true
      · have skipped :
            (map.entries.filter fun entry =>
                !named entry.1 rest &&
                  !decide (entry.1 = tensor.name)) =
              map.entries.filter fun entry => !named entry.1 rest := by
          refine List.filter_congr fun entry _ => ?_
          by_cases same : entry.1 = tensor.name
          · simp [same, again]
          · simp [same]
        have out : (!named tensor.name rest) = false := by
          rw [again]
          rfl
        have unchanged :=
          @insertEntry_filter_out (fun name => !named name rest)
            (entryOf tensor (infoSize tensor)) out map.entries
        rw [if_pos again, skipped, TensorMap.insert, unchanged]
      · have fresh : (!named tensor.name rest) = true := by
          simpa using again
        have inserted :=
          @insertEntry_groupBytes (fun name => !named name rest)
            (entryOf tensor (infoSize tensor)) fresh group map.entries
            map.distinct
        have swap : ∀ first second third : Nat,
            first + second + third = second + (first + third) := by
          omega
        rw [if_neg again, TensorMap.insert, inserted, tableBytes_cons]
        exact swap _ _ _

/-! ## The descriptor -/

/-- What a descriptor is computed from stays in range. -/
structure DescribeInRange (reader : Reader) (fields : Required) :
    Prop where
  heads :
    reader.getU64 (archKey fields.arch "attention.key_length") = none →
      fields.nHead ≠ 0
  sizes : ∀ tensor ∈ reader.tensors, SizeInRange tensor
  total :
    tableBytes .dense reader.tensors + tableBytes .expert reader.tensors +
        tableBytes .embedOut reader.tensors <
      u64Limit

/-- The descriptor over natural numbers. -/
def descriptorOf (reader : Reader) (fields : Required) : Descriptor :=
  let key := archKey fields.arch
  let map := mapOf .empty reader.tensors
  let nVocab :=
    (reader.getU64 (key "vocab_size")).getD (tokenCount reader)
  { arch := fields.arch
    nLayer := fields.nLayer
    nEmbd := fields.nEmbd
    nHead := fields.nHead
    nHeadKv :=
      (reader.getU64 (key "attention.head_count_kv")).getD fields.nHead
    headDim :=
      (reader.getU64 (key "attention.key_length")).getD
        (fields.nEmbd / fields.nHead)
    nCtxTrain := fields.nCtxTrain
    nVocab := nVocab
    nVocabOut := (reader.getU64 (key "output.vocab_size")).getD nVocab
    nExpert := (reader.getU64 (key "expert_count")).getD 0
    nExpertUsed := (reader.getU64 (key "expert_used_count")).getD 0
    slidingWindow := (reader.getU64 (key "sliding_window")).getD 0
    kvLoraRank :=
      (reader.getU64 (key "attention.kv_lora_rank")).getD 0
    nRecurrent :=
      (reader.getU64 (key "recurrent_layer_count")).getD 0
    weightBytesDense := tableBytes .dense reader.tensors
    weightBytesExpert := tableBytes .expert reader.tensors
    weightBytesEmbedOut := tableBytes .embedOut reader.tensors
    weightBytesTotal :=
      tableBytes .dense reader.tensors +
        tableBytes .expert reader.tensors +
        tableBytes .embedOut reader.tensors
    tensorBytes := map.entries
    distinct := map.distinct
    version := reader.version.toNat }

theorem headDim_eq_ok
    {reader : Reader} {fields : Required} {dim : Nat} :
    headDim reader fields = .ok dim ↔
      (reader.getU64 (archKey fields.arch "attention.key_length") =
            none →
          fields.nHead ≠ 0) ∧
        (reader.getU64
              (archKey fields.arch "attention.key_length")).getD
            (fields.nEmbd / fields.nHead) =
          dim := by
  rw [headDim]
  cases reader.getU64 (archKey fields.arch "attention.key_length") with
  | none => simp [div_eq_ok]
  | some dim => simp

/-- There is a descriptor exactly if what it is from stays in range. -/
theorem describe_eq_ok
    {reader : Reader} {fields : Required} {desc : Descriptor} :
    describe reader fields = .ok desc ↔
      DescribeInRange reader fields ∧ descriptorOf reader fields = desc := by
  have nothing : ∀ group, sumOf ⟨0, 0, 0⟩ group = 0 := by
    intro group
    cases group <;> rfl
  have below : ∀ group, sumOf ⟨0, 0, 0⟩ group < u64Limit := by
    intro group
    rw [nothing]
    exact u64Limit_pos
  have sums :
      sumsOf ⟨0, 0, 0⟩ reader.tensors =
        ⟨tableBytes .dense reader.tensors,
          tableBytes .expert reader.tensors,
          tableBytes .embedOut reader.tensors⟩ := by
    simp only [sumsOf, Nat.zero_add]
  have total : ∀ first second third : Nat,
      [first, second, third].sum = first + second + third := by
    simp [Nat.add_assoc]
  simp only [describe, bind_eq_ok, headDim_eq_ok, account_eq_ok below,
    nothing, Nat.zero_add, sums]
  constructor
  · rintro ⟨_, ⟨heads, rfl⟩, _, ⟨sizes, -, rfl⟩, _, summed, ends⟩
    rw [sum_eq_ok u64Limit_pos, total] at summed
    obtain ⟨small, rfl⟩ := summed
    exact ⟨⟨heads, sizes, small⟩, Except.ok.inj ends⟩
  · rintro ⟨range, rfl⟩
    have small := range.total
    refine
      ⟨_, ⟨range.heads, rfl⟩, _, ⟨range.sizes, ?_, rfl⟩, _,
        (sum_eq_ok u64Limit_pos).mpr ⟨?_, total _ _ _⟩, rfl⟩
    · intro group
      cases group <;> omega
    · rw [total]
      exact small

/-! ## When the accounts agree -/

/-- The groups of a map are what the table keeps. -/
theorem descriptorOf_groupBytes
    (reader : Reader) (fields : Required) (group : WeightGroup) :
    groupBytes group (descriptorOf reader fields).tensorBytes =
      tableBytes group (kept reader.tensors) := by
  refine (mapOf_groupBytes .empty reader.tensors group).trans ?_
  simp [TensorMap.empty, groupBytes]

theorem descriptorOf_groupSum
    (reader : Reader) (fields : Required) (group : WeightGroup) :
    groupSum (descriptorOf reader fields) group =
      tableBytes group reader.tensors := by
  cases group <;> rfl

/-- The bytes of a map are those of its groups. -/
theorem weightBytes_eq_groups (desc : Descriptor) :
    desc.weightBytes =
      groupBytes .dense desc.tensorBytes +
        groupBytes .expert desc.tensorBytes +
        groupBytes .embedOut desc.tensorBytes := by
  rw [Descriptor.weightBytes]
  induction desc.tensorBytes with
  | nil => rfl
  | cons entry entries induction =>
      rw [List.map_cons, List.sum_cons, groupBytes_cons, groupBytes_cons,
        groupBytes_cons, induction]
      cases entry.2.2 <;> simp <;> omega

/--
The two accounts agree: for each group the bytes of the map are the sum, and
what any plan puts on either side is the total.
-/
def AccountsAgree (desc : Descriptor) : Prop :=
  (∀ group, groupBytes group desc.tensorBytes = groupSum desc group) ∧
    ∀ floats config result,
      planPlacement floats desc config = .ok result →
        result.gpuWeightBytes + result.cpuWeightBytes =
          desc.weightBytesTotal

/-- No tensor with bytes is followed by one of the same name. -/
def NothingReplaced (buffer : List UInt8) : Prop :=
  ∀ reader,
    Reader.parse buffer = .ok reader →
      ∀ tensor ∈ replaced reader.tensors, infoSize tensor = 0

/-- Tensors without bytes in any group have no bytes. -/
theorem tableBytes_eq_zero_iff (tensors : List TensorInfo) :
    (∀ group, tableBytes group tensors = 0) ↔
      ∀ tensor ∈ tensors, infoSize tensor = 0 := by
  constructor
  · intro none tensor member
    have zero := none (classifyTensor tensor.name)
    rw [tableBytes, List.sum_eq_zero_iff] at zero
    have here := zero _ (List.mem_map_of_mem member)
    rwa [if_pos rfl] at here
  · intro none group
    rw [tableBytes, List.sum_eq_zero_iff]
    intro bytes member
    obtain ⟨tensor, listed, rfl⟩ := List.mem_map.mp member
    rw [none tensor listed, ite_self]

/--
The accounts of a descriptor agree exactly if no tensor with bytes was
replaced in the map.
-/
theorem accountsAgree_iff
    (buffer : List UInt8) (desc : Descriptor)
    (described : fromBuffer buffer = .ok (.ok desc)) :
    AccountsAgree desc ↔ NothingReplaced buffer := by
  obtain ⟨reader, fields, parsed, -, built⟩ :=
    fromBuffer_eq_ok.mp described
  obtain ⟨-, rfl⟩ := describe_eq_ok.mp built
  have lost :
      (∀ group,
          groupBytes group (descriptorOf reader fields).tensorBytes =
            groupSum (descriptorOf reader fields) group) ↔
        ∀ tensor ∈ replaced reader.tensors, infoSize tensor = 0 := by
    rw [← tableBytes_eq_zero_iff]
    refine forall_congr' fun group => ?_
    have split := kept_add_replaced group reader.tensors
    rw [descriptorOf_groupBytes, descriptorOf_groupSum]
    omega
  constructor
  · rintro ⟨agree, -⟩ reader' parsed'
    rw [parsed] at parsed'
    cases parsed'
    exact lost.mp agree
  · intro nothing
    have agree := lost.mpr (nothing reader parsed)
    refine ⟨agree, ?_⟩
    intro floats config result planned
    obtain ⟨compute, kv, -, -, rfl⟩ := planPlacement_eq planned
    have sides :
        (plan (descriptorOf reader fields) config compute.computeBytes
              kv.kvBytes).gpuWeightBytes +
            (plan (descriptorOf reader fields) config compute.computeBytes
              kv.kvBytes).cpuWeightBytes =
          (descriptorOf reader fields).weightBytes :=
      packing_total
    rw [sides, weightBytes_eq_groups, agree, agree, agree]
    rfl

/-- The metadata of a small model with one layer. -/
def plainMetadata (nEmbd nHead : UInt32) : List (Text × Value) :=
  [("general.architecture".toList, .string "llama".toList),
    ("llama.block_count".toList, .uint32 1),
    ("llama.embedding_length".toList, .uint32 nEmbd),
    ("llama.attention.head_count".toList, .uint32 nHead),
    ("llama.context_length".toList, .uint32 4096)]

/-- A header with these tensors. -/
def plainHeader (nEmbd nHead : UInt32) (tensors : List TensorEntry) :
    Header where
  version := 3
  metadata := plainMetadata nEmbd nHead
  tensors := tensors
  supported := supported_three

theorem plainHeader_counted
    {nEmbd nHead : UInt32} {tensors : List TensorEntry}
    (few : tensors.length < 2 ^ 32)
    (dims : ∀ entry ∈ tensors, entry.dims.length < 2 ^ 32) :
    (plainHeader nEmbd nHead tensors).Counted where
  metadata := (by decide : 5 < 2 ^ 32)
  tensors := few
  arrays := by
    intro entry member
    simp only [plainHeader, plainMetadata, List.mem_cons,
      List.not_mem_nil, or_false] at member
    rcases member with rfl | rfl | rfl | rfl | rfl <;> trivial
  dims := dims

/-- Two tensors of one name, of 16 and 8 bytes. -/
def twiceTensors : List TensorEntry :=
  [{ name := "blk.0.attn_q.weight".toList
     dims := [4]
     tag := 0
     offset := 0 },
    { name := "blk.0.attn_q.weight".toList
      dims := [2]
      tag := 0
      offset := 32 }]

/-- The header with both. -/
def twiceHeader : Header := plainHeader 64 1 twiceTensors

theorem twiceHeader_parse :
    Reader.parse twiceHeader.write =
      .ok
        { twiceHeader.reader with
          dataStart := roundUp twiceHeader.write.length } := by
  have counted : twiceHeader.Counted := by
    refine plainHeader_counted (by decide) ?_
    intro entry member
    simp only [twiceTensors, List.mem_cons, List.not_mem_nil,
      or_false] at member
    rcases member with rfl | rfl <;> exact (by decide : 1 < 2 ^ 32)
  have short : twiceHeader.write.length < u64Limit := by
    decide +kernel
  have parsed := parse_write counted short []
  rwa [List.append_nil] at parsed

/-- It has a descriptor, with 24 bytes in one account and 8 in the other. -/
theorem twiceHeader_describes :
    ∃ desc,
      fromBuffer twiceHeader.write = .ok (.ok desc) ∧
        desc.weightBytesDense = 24 ∧
        groupBytes .dense desc.tensorBytes = 8 := by
  have described :
      ∃ desc,
        fromBuffer twiceHeader.write = .ok (.ok desc) ∧
          (desc.weightBytesDense, groupBytes .dense desc.tensorBytes) =
            (24, 8) :=
    fromBuffer_of_map twiceHeader_parse (by decide +kernel)
  obtain ⟨desc, built, facts⟩ := described
  obtain ⟨dense, entries⟩ := Prod.mk.inj facts
  exact ⟨desc, built, dense, entries⟩

theorem accountsAgree_twice :
    ∃ desc,
      fromBuffer twiceHeader.write = .ok (.ok desc) ∧
        (AccountsAgree desc ↔ NothingReplaced twiceHeader.write) := by
  obtain ⟨desc, described, -⟩ := twiceHeader_describes
  exact
    ⟨desc, described, accountsAgree_iff twiceHeader.write desc described⟩

/-- A header with a name twice, whose accounts do not agree. -/
theorem accounts_differ :
    ∃ desc,
      fromBuffer twiceHeader.write = .ok (.ok desc) ∧
        ¬ AccountsAgree desc := by
  obtain ⟨desc, described, dense, entries⟩ := twiceHeader_describes
  refine ⟨desc, described, ?_⟩
  rintro ⟨agree, -⟩
  have same := agree .dense
  rw [entries, groupSum, dense] at same
  exact absurd same (by decide)

end Runa.Fit.Accounts
