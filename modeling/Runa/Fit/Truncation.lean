import Runa.Bytes.Completions
import Runa.Fit.GgufLaws

/-!
# Headers that are cut off

Whether more bytes can help a header that the reader finds truncated.  They
can where the least number of bytes that are missing, as far as the header
says what it holds, is a number of bytes that there can be; `headerMissing`
says how many that is, place by place.  An array of arrays is found truncated
too, and no bytes help.
-/

namespace Runa.Fit.Truncation

open Runa.Stream.Utf8
open Runa.Bytes.LittleEndian
open Runa.Bytes.Scans
open Runa.Bytes.Completions
open Runa.Fit.GgmlTypes
open Runa.Fit.Gguf

/-! ## What is missing -/

def stringMissing (rest : List UInt8 → ℕ∞) : List UInt8 → ℕ∞ :=
  number 8 fun len => skip len rest

/-- A tag that is cut off can still be one that is not known. -/
def tagMissing (rest : DataType → List UInt8 → ℕ∞)
    (buffer : List UInt8) : ℕ∞ :=
  if buffer.length < 4 then ((4 - buffer.length : Nat) : ℕ∞)
  else
    match DataType.fromRaw (leNat (buffer.take 4)) with
    | some type => rest type (buffer.drop 4)
    | none => 0

/-- The bytes of a value that is neither a string nor an array. -/
def width : DataType → Nat
  | .uint8 => 1
  | .int8 => 1
  | .uint16 => 2
  | .int16 => 2
  | .uint32 => 4
  | .int32 => 4
  | .float32 => 4
  | .bool => 1
  | .string => 0
  | .array => 0
  | .uint64 => 8
  | .int64 => 8
  | .float64 => 8

/-- No bytes help an array of arrays. -/
def itemsMissing (count : Nat) (type : DataType)
    (rest : List UInt8 → ℕ∞) : List UInt8 → ℕ∞ :=
  match type with
  | .string => repeated stringMissing count rest
  | .array => fun _ => ⊤
  | type => skip (count * width type) rest

def arrayMissing (rest : List UInt8 → ℕ∞) : List UInt8 → ℕ∞ :=
  tagMissing fun type => number 8 fun count => itemsMissing count type rest

def valueMissing (type : DataType) (rest : List UInt8 → ℕ∞) :
    List UInt8 → ℕ∞ :=
  match type with
  | .string => stringMissing rest
  | .array => arrayMissing rest
  | type => skip (width type) rest

def pairMissing (rest : List UInt8 → ℕ∞) : List UInt8 → ℕ∞ :=
  stringMissing (tagMissing fun type => valueMissing type rest)

/-- The dimensions are followed by a tag of any value and the offset. -/
def tensorMissing (rest : List UInt8 → ℕ∞) : List UInt8 → ℕ∞ :=
  stringMissing (number 4 fun nDims => skip (nDims * 8) (skip 12 rest))

/-- The tensors end the header. -/
def tensorsMissing (tensorCount : Nat) : List UInt8 → ℕ∞ :=
  repeated tensorMissing tensorCount fun _ => 0

/--
A number of pairs that is cut off can still be positive, and then a pair of
twelve bytes can have a tag that is not known.
-/
def pairsMissing (tensorCount : Nat) (buffer : List UInt8) : ℕ∞ :=
  if 8 ≤ buffer.length then
    repeated pairMissing (leNat (buffer.take 8))
      (tensorsMissing tensorCount) (buffer.drop 8)
  else
    ((8 - buffer.length : Nat) : ℕ∞) +
      if leNat buffer = 0 then ((min 12 (tensorCount * 24) : Nat) : ℕ∞)
      else 12

def tablesMissing : List UInt8 → ℕ∞ :=
  number 8 pairsMissing

/-- A version that is cut off can still be one that is not supported. -/
def versionMissing (buffer : List UInt8) : ℕ∞ :=
  if buffer.length < 4 then ((4 - buffer.length : Nat) : ℕ∞)
  else if leNat (buffer.take 4) ≠ 2 ∧ leNat (buffer.take 4) ≠ 3 then 0
  else tablesMissing (buffer.drop 4)

/-- How many bytes are missing at least; none if the header is decided. -/
def headerMissing (buffer : List UInt8) : ℕ∞ :=
  if buffer.length < 4 then ((4 - buffer.length : Nat) : ℕ∞)
  else if buffer.take 4 ≠ ggufMagic then 0
  else versionMissing (buffer.drop 4)

/-! ## The parts of a header -/

section Parts

variable {β : Type} {after : β → List UInt8 → ℕ∞}
variable {buffer : List UInt8} {rest : List UInt8 → ℕ∞}

theorem missing_u64 {next : UInt64 → Cursor β}
    {costs : Nat → List UInt8 → ℕ∞}
    (each :
      ∀ item rest,
        missing isTruncation (next item) after rest =
          costs item.toNat rest)
    (least : ∀ low n, low ≤ n → costs low [] ≤ costs n []) :
    missing isTruncation (u64 >>= next) after buffer =
      number 8 costs buffer :=
  missing_word_bind
    (fun _ small => UInt64.toNat_ofNat_of_lt small) each least

theorem missing_u32 {next : UInt32 → Cursor β}
    {costs : Nat → List UInt8 → ℕ∞}
    (each :
      ∀ item rest,
        missing isTruncation (next item) after rest =
          costs item.toNat rest)
    (least : ∀ low n, low ≤ n → costs low [] ≤ costs n []) :
    missing isTruncation (u32 >>= next) after buffer =
      number 4 costs buffer :=
  missing_word_bind
    (fun _ small => UInt32.toNat_ofNat_of_lt small) each least

theorem skip_least (rest : List UInt8 → ℕ∞) (width low n : Nat)
    (below : low ≤ n) :
    skip (low * width) rest [] ≤ skip (n * width) rest [] := by
  rw [skip_nil, skip_nil]
  gcongr

theorem needs_string : Needs isTruncation string stringMissing := by
  intro rest buffer
  refine missing_u64 ?_ ?_
  · intro len
    exact needs_map _ (needs_bytes len.toNat _) rest
  · intro low n below
    rw [skip_nil, skip_nil]
    gcongr

theorem stringMissing_nil (rest : List UInt8 → ℕ∞) :
    stringMissing rest [] = (8 : Nat) + rest [] := by
  rw [stringMissing, number_nil, skip_nil, Nat.cast_zero, zero_add]

theorem fromRaw_of_large {n : Nat} (large : 13 ≤ n) :
    DataType.fromRaw n = none := by
  unfold DataType.fromRaw
  split <;> first | omega | rfl

/-- The tag of a value, or the error that names it. -/
def tagged (next : DataType → Cursor β) (bytes : List UInt8) : Cursor β :=
  match DataType.fromRaw (UInt32.ofNat (leNat bytes)).toNat with
  | some type => next type
  | none => .fail (.unknownValueType (UInt32.ofNat (leNat bytes)))

theorem dataType_bind (next : DataType → Cursor β) :
    (dataType >>= next) = .take 4 .unexpectedEof (tagged next) := by
  refine congrArg (Scan.take 4 _) (funext fun bytes => ?_)
  rw [tagged]
  change
    (match DataType.fromRaw (UInt32.ofNat (leNat bytes)).toNat with
      | some type => Scan.done type
      | none => .fail (.unknownValueType (UInt32.ofNat (leNat bytes)))) >>=
        next = _
  cases DataType.fromRaw (UInt32.ofNat (leNat bytes)).toNat with
  | some type => rfl
  | none => rfl

theorem missing_dataType (next : DataType → Cursor β) :
    missing isTruncation (dataType >>= next) after buffer =
      tagMissing
        (fun type rest => missing isTruncation (next type) after rest)
        buffer := by
  rw [dataType_bind, tagMissing]
  split_ifs with lacking
  · refine missing_take_of_escape lacking ?_
    obtain ⟨more, large⟩ := exists_large lacking
    refine ⟨more, ?_⟩
    have small := leNat_lt (buffer ++ more.1)
    rw [List.length_append, more.2, Nat.add_sub_cancel' lacking.le] at small
    rw [tagged, UInt32.toNat_ofNat_of_lt' small,
      fromRaw_of_large (by omega)]
    rfl
  · have enough : 4 ≤ buffer.length := not_lt.mp lacking
    have small := leNat_lt (buffer.take 4)
    rw [List.length_take, Nat.min_eq_left enough] at small
    rw [missing, if_pos enough, tagged, UInt32.toNat_ofNat_of_lt' small]
    cases DataType.fromRaw (leNat (buffer.take 4)) with
    | some type => rfl
    | none => rfl

theorem needs_u8 : Needs isTruncation u8 (skip 1) :=
  needs_map _ (needs_bytes 1 _)

theorem needs_e16 : Needs isTruncation e16 (skip 2) :=
  needs_map _ (needs_bytes 2 _)

theorem needs_u32 : Needs isTruncation u32 (skip 4) :=
  needs_map _ (needs_bytes 4 _)

theorem needs_u64 : Needs isTruncation u64 (skip 8) :=
  needs_map _ (needs_bytes 8 _)

/-- Values of a fixed width, one after another. -/
theorem needs_fixed {α : Type} {scan : Cursor α} {width : Nat}
    (single : Needs isTruncation scan (skip width)) (count : Nat) :
    Needs isTruncation (scan.times count) (skip (count * width)) := by
  have all := needs_times single count
  rwa [repeated_skip] at all

theorem needs_take (count : Nat) :
    Needs isTruncation (take count) (skip (count * 1)) := by
  rw [Nat.mul_one]
  exact needs_bytes count _

theorem needs_items (count : Nat) (type : DataType) :
    Needs isTruncation (items count type) (itemsMissing count type) := by
  cases type with
  | uint8 => exact needs_map _ (needs_take count)
  | int8 => exact needs_map _ (needs_take count)
  | uint16 => exact needs_map _ (needs_fixed needs_e16 count)
  | int16 => exact needs_map _ (needs_fixed needs_e16 count)
  | uint32 => exact needs_map _ (needs_fixed needs_u32 count)
  | int32 => exact needs_map _ (needs_fixed needs_u32 count)
  | float32 => exact needs_map _ (needs_fixed needs_u32 count)
  | bool => exact needs_map _ (needs_take count)
  | string => exact needs_map _ (needs_times needs_string count)
  | array => exact fun rest buffer => rfl
  | uint64 => exact needs_map _ (needs_fixed needs_u64 count)
  | int64 => exact needs_map _ (needs_fixed needs_u64 count)
  | float64 => exact needs_map _ (needs_fixed needs_u64 count)

/-- Fewer items never take more. -/
theorem itemsMissing_least (type : DataType) (rest : List UInt8 → ℕ∞)
    (low n : Nat) (below : low ≤ n) :
    itemsMissing low type rest [] ≤ itemsMissing n type rest [] := by
  cases type with
  | string =>
      simp only [itemsMissing, repeated_nil stringMissing_nil]
      gcongr
  | array => exact le_refl _
  | _ => exact skip_least rest _ low n below

theorem needs_array : Needs isTruncation array arrayMissing := by
  intro rest buffer
  refine (missing_dataType _).trans ?_
  refine congrArg (tagMissing · buffer) (funext fun type => ?_)
  funext buffer
  exact
    missing_u64 (fun count => needs_items count.toNat type rest)
      (itemsMissing_least type rest)

theorem needs_value (type : DataType) :
    Needs isTruncation (value type) (valueMissing type) := by
  cases type with
  | uint8 => exact needs_map _ needs_u8
  | int8 => exact needs_map _ needs_u8
  | uint16 => exact needs_map _ needs_e16
  | int16 => exact needs_map _ needs_e16
  | uint32 => exact needs_map _ needs_u32
  | int32 => exact needs_map _ needs_u32
  | float32 => exact needs_map _ needs_u32
  | bool => exact needs_map _ needs_u8
  | string => exact needs_map _ needs_string
  | array => exact needs_map _ needs_array
  | uint64 => exact needs_map _ needs_u64
  | int64 => exact needs_map _ needs_u64
  | float64 => exact needs_map _ needs_u64

/-- What comes after the key of a pair. -/
theorem needs_entry (key : Text) :
    Needs isTruncation
      (dataType >>= fun type =>
        value type >>= fun value => pure (key, value))
      fun rest => tagMissing fun type => valueMissing type rest := by
  intro rest buffer
  refine (missing_dataType _).trans ?_
  refine congrArg (tagMissing · buffer) (funext fun type => ?_)
  funext buffer
  exact needs_map _ (needs_value type) rest buffer

theorem needs_pair : Needs isTruncation pair pairMissing := by
  have both := needs_bind needs_string needs_entry
  exact both

/-- What comes after the name of a tensor. -/
theorem needs_shape (name : Text) :
    Needs isTruncation
      (u32 >>= fun nDims =>
        u64.times nDims.toNat >>= fun dims =>
          u32 >>= fun tag =>
            u64 >>= fun offset =>
              pure
                ({ name := name, dims := dims,
                   ggmlType := .fromRaw tag.toNat, offset := offset } :
                  TensorInfo))
      fun rest => number 4 fun nDims => skip (nDims * 8) (skip 12 rest) := by
  intro rest buffer
  refine missing_u32 ?_ fun low n below => skip_least _ 8 low n below
  intro nDims buffer
  have tail := fun dims : List UInt64 =>
    needs_bind needs_u32 fun tag =>
      needs_map
        (fun offset : UInt64 =>
          ({ name := name, dims := dims, ggmlType := .fromRaw tag.toNat,
             offset := offset } :
            TensorInfo))
        needs_u64
  refine
    (needs_bind (needs_fixed needs_u64 nDims.toNat) tail rest
      buffer).trans ?_
  exact
    congrArg (fun tail => skip (nDims.toNat * 8) tail buffer)
      (skip_skip 4 8 rest)

theorem needs_tensorInfo : Needs isTruncation tensorInfo tensorMissing := by
  have both := needs_bind needs_string needs_shape
  exact both

/-! ## The tables -/

theorem tagMissing_nil (rest : DataType → List UInt8 → ℕ∞) :
    tagMissing rest [] = (4 : Nat) := by
  rw [tagMissing, if_pos (by decide)]
  rfl

/-- A pair that is still to come ends the header with twelve bytes. -/
theorem pairs_nil (count : Nat) (rest : List UInt8 → ℕ∞) :
    repeated pairMissing count rest [] =
      if count = 0 then rest [] else 12 := by
  cases count with
  | zero => rfl
  | succ count =>
      rw [repeated, pairMissing, stringMissing_nil, tagMissing_nil,
        if_neg (Nat.succ_ne_zero count), ← Nat.cast_add]
      rfl

theorem tensorMissing_nil (rest : List UInt8 → ℕ∞) :
    tensorMissing rest [] = (24 : Nat) + rest [] := by
  rw [tensorMissing, stringMissing_nil, number_nil, skip_nil, skip_nil,
    Nat.zero_mul, Nat.cast_zero, zero_add, ← add_assoc, ← add_assoc,
    ← Nat.cast_add, ← Nat.cast_add]

theorem tensorsMissing_nil (count : Nat) :
    tensorsMissing count [] = ((count * 24 : Nat) : ℕ∞) := by
  rw [tensorsMissing, repeated_nil tensorMissing_nil, add_zero]

/-- What comes after the numbers of tensors and pairs. -/
theorem missing_loops
    (version : UInt32) (tensorCount kvCount : UInt64)
    (buffer : List UInt8) :
    missing isTruncation
        (pair.times kvCount.toNat >>= fun metadata =>
          tensorInfo.times tensorCount.toNat >>= fun tensors =>
            pure
              ({ version := version, tensorCount := tensorCount,
                 metadata := metadata, tensors := tensors,
                 dataStart := 0 } :
                Reader))
        (fun _ _ => 0) buffer =
      repeated pairMissing kvCount.toNat
        (tensorsMissing tensorCount.toNat) buffer := by
  have tail := fun metadata : List (Text × Value) =>
    needs_map
      (fun tensors : List TensorInfo =>
        ({ version := version, tensorCount := tensorCount,
           metadata := metadata, tensors := tensors, dataStart := 0 } :
          Reader))
      (needs_times needs_tensorInfo tensorCount.toNat)
  exact
    needs_bind (needs_times needs_pair kvCount.toNat) tail (fun _ => 0)
      buffer

/-- A number that is cut off may be zero, if it can, or not. -/
theorem iInf_pairs (lacking : buffer.length < 8) (empty : Nat) :
    (⨅ more : Fill (8 - buffer.length),
        if leNat (buffer ++ more.1) = 0 then (empty : ℕ∞) else 12) =
      if leNat buffer = 0 then ((min 12 empty : Nat) : ℕ∞) else 12 := by
  split_ifs with zero
  · have cast :
        ((min 12 empty : Nat) : ℕ∞) = min 12 (empty : ℕ∞) :=
      Nat.mono_cast.map_min
    rw [cast]
    apply le_antisymm
    · apply le_min
      · obtain ⟨more, large⟩ := exists_large lacking
        refine (iInf_le _ more).trans (le_of_eq (if_neg ?_))
        omega
      · let zeros : Fill (8 - buffer.length) :=
          ⟨List.replicate _ 0, List.length_replicate⟩
        refine (iInf_le _ zeros).trans (le_of_eq (if_pos ?_))
        rw [leNat_append, leNat_replicate_zero, zero, Nat.mul_zero]
    · refine le_iInf fun more => ?_
      split_ifs
      · exact min_le_right _ _
      · exact min_le_left _ _
  · have never : ∀ more : Fill (8 - buffer.length),
        (if leNat (buffer ++ more.1) = 0 then (empty : ℕ∞) else 12) = 12 := by
      intro more
      refine if_neg ?_
      rw [leNat_append]
      omega
    rw [iInf_congr never, ciInf_const]

/-- The number of pairs, if it is cut off, is none or some. -/
theorem missing_pairs
    (version : UInt32) (tensorCount : UInt64) (buffer : List UInt8) :
    missing isTruncation
        (u64 >>= fun kvCount =>
          pair.times kvCount.toNat >>= fun metadata =>
            tensorInfo.times tensorCount.toNat >>= fun tensors =>
              pure
                ({ version := version, tensorCount := tensorCount,
                   metadata := metadata, tensors := tensors,
                   dataStart := 0 } :
                  Reader))
        (fun _ _ => 0) buffer =
      pairsMissing tensorCount.toNat buffer := by
  have onward := missing_loops version tensorCount
  rw [missing_bind]
  simp only [onward]
  rw [pairsMissing]
  change missing isTruncation (Scan.take 8 _ _) _ _ = _
  rw [missing]
  by_cases enough : 8 ≤ buffer.length
  · have small := leNat_lt (buffer.take 8)
    rw [List.length_take, Nat.min_eq_left enough] at small
    rw [if_pos enough, if_pos enough]
    change
      repeated pairMissing (UInt64.ofNat (leNat (buffer.take 8))).toNat _
        _ = _
    rw [UInt64.toNat_ofNat_of_lt' small]
  · have lacking : buffer.length < 8 := not_le.mp enough
    rw [if_neg enough, if_neg enough]
    have each : ∀ more : Fill (8 - buffer.length),
        repeated pairMissing
            (UInt64.ofNat (leNat (buffer ++ more.1))).toNat
            (tensorsMissing tensorCount.toNat) [] =
          if leNat (buffer ++ more.1) = 0 then
            ((tensorCount.toNat * 24 : Nat) : ℕ∞)
          else 12 := by
      intro more
      have small := leNat_lt (buffer ++ more.1)
      rw [List.length_append, more.2,
        Nat.add_sub_cancel' lacking.le] at small
      rw [UInt64.toNat_ofNat_of_lt' small, pairs_nil, tensorsMissing_nil]
    refine congrArg _ ((iInf_congr each).trans ?_)
    exact iInf_pairs lacking _

theorem pairsMissing_nil (tensorCount : Nat) :
    pairsMissing tensorCount [] =
      8 + ((min 12 (tensorCount * 24) : Nat) : ℕ∞) := by
  have zero : leNat [] = 0 := rfl
  rw [pairsMissing, if_neg (by decide), if_pos zero]
  rfl

theorem missing_tables (version : UInt32) (buffer : List UInt8) :
    missing isTruncation (tables version) (fun _ _ => 0) buffer =
      tablesMissing buffer := by
  refine missing_u64 (fun count => missing_pairs version count) ?_
  intro low n below
  rw [pairsMissing_nil, pairsMissing_nil]
  gcongr

/-- A version is supported by the number that its bytes stand for. -/
theorem unsupported_iff {n : Nat} (small : n < 256 ^ 4) :
    (UInt32.ofNat n ≠ 2 ∧ UInt32.ofNat n ≠ 3) ↔ n ≠ 2 ∧ n ≠ 3 := by
  have same : ∀ word : UInt32,
      UInt32.ofNat n = word ↔ n = word.toNat := by
    intro word
    rw [← UInt32.toNat_inj, UInt32.toNat_ofNat_of_lt' small]
  exact and_congr (not_congr (same 2)) (not_congr (same 3))

theorem missing_versioned (buffer : List UInt8) :
    missing isTruncation versioned (fun _ _ => 0) buffer =
      versionMissing buffer := by
  change
    missing isTruncation
        (Scan.take 4 _ fun bytes =>
          if UInt32.ofNat (leNat bytes) ≠ 2 ∧
              UInt32.ofNat (leNat bytes) ≠ 3 then
            .fail (.unsupportedVersion (UInt32.ofNat (leNat bytes)))
          else tables (UInt32.ofNat (leNat bytes)))
        _ _ =
      _
  rw [versionMissing]
  by_cases lacking : buffer.length < 4
  · rw [if_pos lacking]
    refine missing_take_of_escape lacking ?_
    obtain ⟨more, large⟩ := exists_large lacking
    refine ⟨more, ?_⟩
    have small := leNat_lt (buffer ++ more.1)
    rw [List.length_append, more.2, Nat.add_sub_cancel' lacking.le] at small
    rw [if_pos ((unsupported_iff small).mpr ⟨by omega, by omega⟩)]
    rfl
  · have enough : 4 ≤ buffer.length := not_lt.mp lacking
    have small := leNat_lt (buffer.take 4)
    rw [List.length_take, Nat.min_eq_left enough] at small
    rw [if_neg lacking, missing, if_pos enough]
    by_cases other :
        leNat (buffer.take 4) ≠ 2 ∧ leNat (buffer.take 4) ≠ 3
    · rw [if_pos ((unsupported_iff small).mpr other), if_pos other]
      rfl
    · rw [if_neg (mt (unsupported_iff small).mp other), if_neg other,
        missing_tables]

theorem missing_header (buffer : List UInt8) :
    missing isTruncation header (fun _ _ => 0) buffer =
      headerMissing buffer := by
  rw [header, headerMissing]
  split_ifs with lacking wrong
  · refine missing_take_of_escape lacking ?_
    let zeros : Fill (4 - buffer.length) :=
      ⟨List.replicate _ 0, List.length_replicate⟩
    refine ⟨zeros, ?_⟩
    have wrong : buffer ++ zeros.1 ≠ ggufMagic := by
      intro same
      have zero : (0 : UInt8) ∈ buffer ++ zeros.1 :=
        List.mem_append_right _
          (List.mem_replicate.mpr ⟨by omega, rfl⟩)
      rw [same] at zero
      exact absurd zero (by decide)
    rw [if_pos wrong]
    rfl
  · rw [missing, if_pos (not_lt.mp lacking), if_pos wrong]
    rfl
  · rw [missing, if_pos (not_lt.mp lacking), if_neg wrong,
      missing_versioned]

end Parts

/-! ## When more bytes can help -/

/-- One above the largest length of a buffer. -/
def sliceLimit : Nat := 2 ^ 63

/-- The reader finds the buffer truncated. -/
def Truncated (buffer : List UInt8) : Prop :=
  ∃ error,
    Reader.parse buffer = .error error ∧ isTruncation error = true

/-- With some bytes more it parses, or fails for good. -/
def MoreBytesHelp (buffer : List UInt8) : Prop :=
  ∃ more : List UInt8,
    (buffer ++ more).length < sliceLimit ∧ ¬ Truncated (buffer ++ more)

theorem truncated_iff (buffer : List UInt8) :
    Truncated buffer ↔
      Stuck isTruncation (header.outcome u64Limit 0 buffer) := by
  rw [Truncated, Reader.parse, Scan.run]
  cases header.outcome u64Limit 0 buffer with
  | ended read stop => simp [Outcome.result, Except.map, Stuck]
  | failed error stop => simp [Outcome.result, Except.map, Stuck]
  | short error wanted => simp [Outcome.result, Except.map, Stuck]

theorem moreBytesHelp_iff (buffer : List UInt8) :
    MoreBytesHelp buffer ↔
      (buffer.length : ℕ∞) + headerMissing buffer < sliceLimit := by
  have completes :=
    @completes_iff _ _ isTruncation header buffer u64Limit sliceLimit 0
      asks_header (by decide)
  rw [missing_header, Nat.zero_add] at completes
  rw [← completes, MoreBytesHelp]
  refine exists_congr fun more => ?_
  rw [Nat.zero_add, truncated_iff]

/--
A buffer that is found truncated can be completed exactly if what it is
missing, as far as it says what it holds, is not more than a buffer has room
for.
-/
theorem truncated_completes_iff (buffer : List UInt8)
    (slice : buffer.length < sliceLimit) :
    (Truncated buffer → MoreBytesHelp buffer) ↔
      (buffer.length : ℕ∞) + headerMissing buffer < sliceLimit := by
  rw [← moreBytesHelp_iff]
  constructor
  · intro helps
    by_cases truncated : Truncated buffer
    · exact helps truncated
    · refine ⟨[], ?_, ?_⟩
      · rwa [List.append_nil]
      · rwa [List.append_nil]
  · intro helps _
    exact helps

theorem truncated_completes_magic :
    Truncated ggufMagic ∧
      (ggufMagic.length : ℕ∞) + headerMissing ggufMagic < sliceLimit := by
  have truncated : Truncated ggufMagic :=
    ⟨.unexpectedEof, by decide +kernel, rfl⟩
  have fails :
      Reader.parse (ggufMagic ++ [0, 0, 0, 0]) =
        .error (.unsupportedVersion 0) := by
    decide +kernel
  refine ⟨truncated, ?_⟩
  refine (truncated_completes_iff ggufMagic (by decide)).mp fun _ => ?_
  refine ⟨[0, 0, 0, 0], by decide, ?_⟩
  rintro ⟨error, parsed, asks⟩
  rw [fails] at parsed
  cases parsed
  cases asks

/-- A header with one pair, whose value is an array of arrays. -/
def nestedHeader : List UInt8 :=
  ggufMagic ++ leBytes 4 3 ++ leBytes 8 0 ++ leBytes 8 1 ++ leBytes 8 0 ++
    leBytes 4 9 ++ leBytes 4 9 ++ leBytes 8 0

theorem nestedHeader_outcome :
    header.outcome u64Limit 0 nestedHeader =
      .failed .unexpectedEof 48 := by
  decide +kernel

/-- No bytes help an array of arrays. -/
theorem nested_never_completes :
    Truncated nestedHeader ∧
      ∀ more : List UInt8, Truncated (nestedHeader ++ more) := by
  have ends : (header.outcome u64Limit 0 nestedHeader).EndsAt 48 := by
    rw [nestedHeader_outcome]
    rfl
  have truncated : Truncated nestedHeader :=
    ⟨.unexpectedEof,
      parse_eq_error.mpr (Or.inl ⟨48, nestedHeader_outcome⟩), rfl⟩
  refine ⟨truncated, ?_⟩
  intro more
  rw [Truncated, parse_append ends more]
  exact truncated

end Runa.Fit.Truncation
