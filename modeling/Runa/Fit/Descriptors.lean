import Runa.Fit.Estimate
import Runa.Fit.Gguf
import Runa.Stream.Occurrence

/-!
# Descriptors from headers

The embedding of `Descriptor::from_reader` of `runa-fit/src/descriptor.rs`:
the parameters of an architecture from the metadata of a header, and the
bytes of its tensors, added up by group and kept by name.  A name that comes
again replaces the bytes that were kept, but not those that were added up.
-/

namespace Runa.Fit.Descriptors

open Runa.Stream.Utf8
open Runa.Stream.Occurrence
open Runa.Word.Checked
open Runa.Fit.GgmlTypes
open Runa.Fit.Estimate
open Runa.Fit.Gguf

inductive DescriptorError where
  | missingArch
  | missingKey (key : Text)
deriving DecidableEq, Repr

/-! ## The architecture -/

/-- The key of a field of an architecture. -/
def archKey (arch : Text) (field : String) : Text :=
  arch ++ '.' :: field.toList

def requireU64 (reader : Reader) (key : Text) :
    Except DescriptorError Nat :=
  match reader.getU64 key with
  | some n => .ok n
  | none => .error (.missingKey key)

/-- What every architecture must have. -/
structure Required where
  arch : Text
  nLayer : Nat
  nEmbd : Nat
  nHead : Nat
  nCtxTrain : Nat
deriving DecidableEq, Repr

def required (reader : Reader) : Except DescriptorError Required := do
  let arch ←
    match reader.getStr "general.architecture".toList with
    | some arch => .ok arch
    | none => .error .missingArch
  let nLayer ← requireU64 reader (archKey arch "block_count")
  let nEmbd ← requireU64 reader (archKey arch "embedding_length")
  let nHead ← requireU64 reader (archKey arch "attention.head_count")
  let nCtxTrain ← requireU64 reader (archKey arch "context_length")
  return ⟨arch, nLayer, nEmbd, nHead, nCtxTrain⟩

/-- The explicit head dimension, or the one that follows. -/
def headDim (reader : Reader) (fields : Required) : Result Nat :=
  match reader.getU64 (archKey fields.arch "attention.key_length") with
  | some n => .ok n
  | none => div fields.nEmbd fields.nHead

/-- The number of tokens of the tokenizer. -/
def tokenCount (reader : Reader) : Nat :=
  match reader.get "tokenizer.ggml.tokens".toList with
  | some (.array (.string items)) => items.length
  | _ => 0

/-! ## The tensors -/

/-- The word occurs somewhere in the name. -/
def contains (name : Text) (word : String) : Bool :=
  (find word.toList name).isSome

def classifyTensor (name : Text) : WeightGroup :=
  if contains name "_exps" then .expert
  else if "token_embd".toList.isPrefixOf name ||
      "output".toList.isPrefixOf name ||
      "position_embd".toList.isPrefixOf name then
    .embedOut
  else if contains name "_norm" then .embedOut
  else .dense

/-- The bytes of a tensor; a type that is not known has none. -/
def infoBytes (tensor : TensorInfo) : Result Nat := do
  let bytes ←
    tensorBytes (tensor.dims.map UInt64.toNat) tensor.ggmlType
  return bytes.getD 0

/-- The sums of the groups. -/
structure Sums where
  dense : Nat
  expert : Nat
  embedOut : Nat
deriving DecidableEq, Repr

def Sums.count (sums : Sums) (bytes : Nat) :
    WeightGroup → Result Sums
  | .dense => do
      return { sums with dense := ← add u64Limit sums.dense bytes }
  | .expert => do
      return { sums with expert := ← add u64Limit sums.expert bytes }
  | .embedOut => do
      return { sums with embedOut := ← add u64Limit sums.embedOut bytes }

/-- Put an entry into a list, in place of one of the same name. -/
def insertEntry (entry : Entry) : List Entry → List Entry
  | [] => [entry]
  | first :: rest =>
      if first.1 = entry.1 then entry :: rest
      else first :: insertEntry entry rest

theorem insertEntry_keys (entry : Entry) (entries : List Entry) :
    (insertEntry entry entries).map Prod.fst =
      if entry.1 ∈ entries.map Prod.fst then entries.map Prod.fst
      else entries.map Prod.fst ++ [entry.1] := by
  induction entries with
  | nil => simp [insertEntry]
  | cons first rest induction =>
      rw [insertEntry]
      by_cases same : first.1 = entry.1
      · simp [same]
      · have other : ¬ entry.1 = first.1 := fun back => same back.symm
        rw [if_neg same, List.map_cons, induction, List.map_cons]
        by_cases later : entry.1 ∈ rest.map Prod.fst
        · rw [if_pos later, if_pos (List.mem_cons_of_mem _ later)]
        · rw [if_neg later, if_neg, List.cons_append]
          rw [List.mem_cons]
          exact not_or.mpr ⟨other, later⟩

theorem insertEntry_nodup {entry : Entry} {entries : List Entry}
    (distinct : (entries.map Prod.fst).Nodup) :
    ((insertEntry entry entries).map Prod.fst).Nodup := by
  rw [insertEntry_keys]
  split_ifs with known
  · exact distinct
  · refine distinct.append (List.nodup_singleton _) ?_
    rw [List.disjoint_singleton]
    exact known

/-- A map that keeps each name once. -/
structure TensorMap where
  entries : List Entry
  distinct : (entries.map Prod.fst).Nodup

def TensorMap.empty : TensorMap where
  entries := []
  distinct := List.nodup_nil

def TensorMap.insert (map : TensorMap) (entry : Entry) : TensorMap where
  entries := insertEntry entry map.entries
  distinct := insertEntry_nodup map.distinct

/-- The entry of a tensor of these bytes. -/
def entryOf (tensor : TensorInfo) (bytes : Nat) : Entry :=
  (tensor.name, bytes, classifyTensor tensor.name)

/-- Walk over the tensors, classify them and add up their bytes. -/
def account :
    Sums → TensorMap → List TensorInfo → Result (Sums × TensorMap)
  | sums, map, [] => .ok (sums, map)
  | sums, map, tensor :: rest => do
      let bytes ← infoBytes tensor
      let more ← sums.count bytes (classifyTensor tensor.name)
      account more (map.insert (entryOf tensor bytes)) rest

/-! ## The descriptor -/

/-- The descriptor for an architecture that has what is required. -/
def describe (reader : Reader) (fields : Required) :
    Result Descriptor := do
  let key := archKey fields.arch
  let headDim ← headDim reader fields
  let nVocab :=
    (reader.getU64 (key "vocab_size")).getD (tokenCount reader)
  let (sums, map) ← account ⟨0, 0, 0⟩ .empty reader.tensors
  let total ← sum u64Limit [sums.dense, sums.expert, sums.embedOut]
  .ok
    { arch := fields.arch
      nLayer := fields.nLayer
      nEmbd := fields.nEmbd
      nHead := fields.nHead
      nHeadKv :=
        (reader.getU64 (key "attention.head_count_kv")).getD fields.nHead
      headDim := headDim
      nCtxTrain := fields.nCtxTrain
      nVocab := nVocab
      nVocabOut := (reader.getU64 (key "output.vocab_size")).getD nVocab
      nExpert := (reader.getU64 (key "expert_count")).getD 0
      nExpertUsed := (reader.getU64 (key "expert_used_count")).getD 0
      slidingWindow := (reader.getU64 (key "sliding_window")).getD 0
      kvLoraRank :=
        (reader.getU64 (key "attention.kv_lora_rank")).getD 0
      nRecurrent :=
        (reader.getU64 (key "recurrent_layer_count")).getD 0
      weightBytesDense := sums.dense
      weightBytesExpert := sums.expert
      weightBytesEmbedOut := sums.embedOut
      weightBytesTotal := total
      tensorBytes := map.entries
      distinct := map.distinct
      version := reader.version.toNat }

/-- Build a descriptor from a parsed header. -/
def fromReader (reader : Reader) :
    Result (Except DescriptorError Descriptor) :=
  match required reader with
  | .error error => .ok (.error error)
  | .ok fields => do return .ok (← describe reader fields)

/-- Why a buffer gives no descriptor. -/
inductive HeaderError where
  | read (error : ReadError)
  | descriptor (error : DescriptorError)
deriving DecidableEq, Repr

/-- Parse a header and describe it. -/
def fromBuffer (buffer : List UInt8) :
    Result (Except HeaderError Descriptor) :=
  match Reader.parse buffer with
  | .error error => .ok (.error (.read error))
  | .ok reader => do
      return (← fromReader reader).mapError .descriptor

/-- A descriptor comes from a header that has what is required. -/
theorem fromBuffer_eq_ok
    {buffer : List UInt8} {desc : Descriptor} :
    fromBuffer buffer = .ok (.ok desc) ↔
      ∃ reader fields,
        Reader.parse buffer = .ok reader ∧
          required reader = .ok fields ∧
          describe reader fields = .ok desc := by
  rw [fromBuffer]
  cases parsed : Reader.parse buffer with
  | error error => simp
  | ok reader =>
      simp only [bind_eq_ok, pure_eq_ok, fromReader]
      cases has : required reader with
      | error error =>
          constructor
          · rintro ⟨result, same, ends⟩
            cases same
            cases ends
          · rintro ⟨reader', fields, same, has', -⟩
            cases same
            rw [has] at has'
            cases has'
      | ok fields =>
          simp only [bind_eq_ok, pure_eq_ok]
          constructor
          · rintro ⟨result, ⟨desc', described, rfl⟩, same⟩
            cases same
            exact ⟨reader, fields, rfl, has, described⟩
          · rintro ⟨reader', fields', same, has', described⟩
            cases same
            rw [has] at has'
            cases has'
            exact ⟨.ok desc, ⟨desc, described, rfl⟩, rfl⟩

/-- A descriptor is known to be there from something about it. -/
theorem fromBuffer_of_map
    {β : Type} {buffer : List UInt8} {reader : Reader}
    {about : Descriptor → β} {fact : β}
    (parsed : Reader.parse buffer = .ok reader)
    (read :
      (fromReader reader).map (fun result => result.map about) =
        .ok (.ok fact)) :
    ∃ desc, fromBuffer buffer = .ok (.ok desc) ∧ about desc = fact := by
  obtain ⟨result, reads, facts⟩ := map_eq_ok.mp read
  cases result with
  | error error => cases facts
  | ok desc =>
      refine ⟨desc, ?_, Except.ok.inj facts⟩
      rw [fromBuffer, parsed]
      exact bind_eq_ok.mpr ⟨_, reads, rfl⟩

end Runa.Fit.Descriptors
