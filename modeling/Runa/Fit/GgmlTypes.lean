import Runa.Word.Checked

/-!
# Tensor types and tensor bytes

The embedding of `GgmlType` of `runa-fit/src/gguf.rs` and of
`runa-fit/src/ggml_types.rs`, next to the tables of ggml they are copied
from: `enum ggml_type` of `ggml.h` and the block structures of
`ggml-common.h`.  `tensorBytes_agrees_iff` says for which tensors the copy
computes what ggml stores.

A `u64` is a natural number, and an operation that leaves its range is a
fault.
-/

namespace Runa.Fit.GgmlTypes

open Runa.Word.Checked

/-- One above the largest `u64`. -/
def u64Limit : Nat := 2 ^ 64

/-! ## The types the reader knows -/

/-- ggml tensor type tag. -/
inductive GgmlType where
  | f32
  | f16
  | bf16
  | q4_0
  | q4_1
  | q5_0
  | q5_1
  | q8_0
  | q8_1
  | q2_K
  | q3_K
  | q4_K
  | q5_K
  | q6_K
  | q8_K
  | iq2_XXS
  | iq2_XS
  | iq3_XXS
  | iq3_S
  | iq2_S
  | iq4_XS
  | iq1_S
  | iq4_NL
  | iq3_XS
  | iq1_M
  | mxfp4
  | tq1_0
  | tq2_0
  | f64
  | i8
  | i16
  | i32
  | i64
  | unknown (raw : Nat)
deriving DecidableEq, Repr

def GgmlType.fromRaw : Nat → GgmlType
  | 0 => .f32
  | 1 => .f16
  | 30 => .bf16
  | 2 => .q4_0
  | 3 => .q4_1
  | 6 => .q5_0
  | 7 => .q5_1
  | 8 => .q8_0
  | 9 => .q8_1
  | 10 => .q2_K
  | 11 => .q3_K
  | 12 => .q4_K
  | 13 => .q5_K
  | 14 => .q6_K
  | 15 => .q8_K
  | 16 => .iq2_XXS
  | 17 => .iq2_XS
  | 18 => .iq3_XXS
  | 19 => .iq3_S
  | 20 => .iq2_S
  | 21 => .iq4_XS
  | 22 => .iq1_S
  | 23 => .iq4_NL
  | 24 => .iq3_XS
  | 25 => .iq1_M
  | 26 => .mxfp4
  | 27 => .tq1_0
  | 28 => .tq2_0
  | 29 => .f64
  | 31 => .i8
  | 32 => .i16
  | 33 => .i32
  | 34 => .i64
  | other => .unknown other

/-- Elements per block and bytes per block. -/
structure TypeInfo where
  blockSize : Nat
  bytesPerBlock : Nat
deriving DecidableEq, Repr

/-- The block encoding of a type; none for unknown types. -/
def typeInfo : GgmlType → Option TypeInfo
  | .f32 => some ⟨1, 4⟩
  | .f64 => some ⟨1, 8⟩
  | .f16 => some ⟨1, 2⟩
  | .bf16 => some ⟨1, 2⟩
  | .i8 => some ⟨1, 1⟩
  | .i16 => some ⟨1, 2⟩
  | .i32 => some ⟨1, 4⟩
  | .i64 => some ⟨1, 8⟩
  | .q4_0 => some ⟨32, 18⟩
  | .q4_1 => some ⟨32, 20⟩
  | .q5_0 => some ⟨32, 22⟩
  | .q5_1 => some ⟨32, 24⟩
  | .q8_0 => some ⟨32, 34⟩
  | .q8_1 => some ⟨32, 40⟩
  | .q2_K => some ⟨256, 84⟩
  | .q3_K => some ⟨256, 110⟩
  | .q4_K => some ⟨256, 144⟩
  | .q5_K => some ⟨256, 176⟩
  | .q6_K => some ⟨256, 210⟩
  | .q8_K => some ⟨256, 292⟩
  | .iq2_XXS => some ⟨256, 66⟩
  | .iq2_XS => some ⟨256, 74⟩
  | .iq3_XXS => some ⟨256, 98⟩
  | .iq3_S => some ⟨256, 110⟩
  | .iq2_S => some ⟨256, 66⟩
  | .iq4_XS => some ⟨256, 136⟩
  | .iq1_S => some ⟨256, 74⟩
  | .iq4_NL => some ⟨32, 18⟩
  | .iq3_XS => some ⟨256, 110⟩
  | .iq1_M => some ⟨256, 66⟩
  | .mxfp4 => some ⟨32, 17⟩
  | .tq1_0 => some ⟨32, 22⟩
  | .tq2_0 => some ⟨32, 24⟩
  | .unknown _ => none

/-- Number of elements of a tensor. -/
def nElements (dims : List Nat) : Result Nat :=
  product u64Limit dims

/-- `u64::div_ceil` -/
def divCeil (n size : Nat) : Nat :=
  if 0 < n % size then n / size + 1 else n / size

/-- Bytes of a tensor, in whole blocks. -/
def tensorBytes (dims : List Nat) (type : GgmlType) :
    Result (Option Nat) :=
  match typeInfo type with
  | none => .ok none
  | some info => do
      let n ← nElements dims
      let blocks := divCeil n info.blockSize
      return some (← mul u64Limit blocks info.bytesPerBlock)

/-! ## The types of ggml -/

/-- `enum ggml_type`, without removed tags. -/
inductive GgmlTag where
  | f32
  | f16
  | q4_0
  | q4_1
  | q5_0
  | q5_1
  | q8_0
  | q8_1
  | q2_K
  | q3_K
  | q4_K
  | q5_K
  | q6_K
  | q8_K
  | iq2_XXS
  | iq2_XS
  | iq3_XXS
  | iq1_S
  | iq4_NL
  | iq3_S
  | iq2_S
  | iq4_XS
  | i8
  | i16
  | i32
  | i64
  | f64
  | iq1_M
  | bf16
  | tq1_0
  | tq2_0
  | mxfp4
deriving DecidableEq, Repr

/-- The number of a tag in the enumeration. -/
def GgmlTag.raw : GgmlTag → Nat
  | .f32 => 0
  | .f16 => 1
  | .q4_0 => 2
  | .q4_1 => 3
  | .q5_0 => 6
  | .q5_1 => 7
  | .q8_0 => 8
  | .q8_1 => 9
  | .q2_K => 10
  | .q3_K => 11
  | .q4_K => 12
  | .q5_K => 13
  | .q6_K => 14
  | .q8_K => 15
  | .iq2_XXS => 16
  | .iq2_XS => 17
  | .iq3_XXS => 18
  | .iq1_S => 19
  | .iq4_NL => 20
  | .iq3_S => 21
  | .iq2_S => 22
  | .iq4_XS => 23
  | .i8 => 24
  | .i16 => 25
  | .i32 => 26
  | .i64 => 27
  | .f64 => 28
  | .iq1_M => 29
  | .bf16 => 30
  | .tq1_0 => 34
  | .tq2_0 => 35
  | .mxfp4 => 39

/-- `QK_K`, the elements of a super-block. -/
def qkK : Nat := 256

/-- `QK4_0` and the like, the elements of a small block. -/
def qkSmall : Nat := 32

/-- `sizeof(ggml_half)` -/
def half : Nat := 2

/-- `K_SCALE_SIZE` -/
def kScaleSize : Nat := 12

/-- `IQ3S_N_SCALE` -/
def iq3sNScale : Nat := qkK / 64

/-- The block size of a type, `blck_size`. -/
def GgmlTag.blckSize : GgmlTag → Nat
  | .f32 | .f16 | .bf16 | .f64 | .i8 | .i16 | .i32 | .i64 => 1
  | .q4_0 | .q4_1 | .q5_0 | .q5_1 | .q8_0 | .q8_1 | .iq4_NL
  | .mxfp4 => qkSmall
  | .q2_K | .q3_K | .q4_K | .q5_K | .q6_K | .q8_K | .iq2_XXS | .iq2_XS
  | .iq3_XXS | .iq1_S | .iq3_S | .iq2_S | .iq4_XS | .iq1_M | .tq1_0
  | .tq2_0 => qkK

/-- The size of the block structure, `type_size`. -/
def GgmlTag.typeSize : GgmlTag → Nat
  | .f32 => 4
  | .f16 => 2
  | .bf16 => 2
  | .f64 => 8
  | .i8 => 1
  | .i16 => 2
  | .i32 => 4
  | .i64 => 8
  | .q4_0 => half + qkSmall / 2
  | .q4_1 => 2 * half + qkSmall / 2
  | .q5_0 => half + 4 + qkSmall / 2
  | .q5_1 => 2 * half + 4 + qkSmall / 2
  | .q8_0 => half + qkSmall
  | .q8_1 => 2 * half + qkSmall
  | .mxfp4 => 1 + qkSmall / 2
  | .tq1_0 => half + qkK / 64 + (qkK - 4 * qkK / 64) / 5
  | .tq2_0 => half + qkK / 4
  | .q2_K => 2 * half + qkK / 16 + qkK / 4
  | .q3_K => half + qkK / 4 + qkK / 8 + 12
  | .q4_K => 2 * half + kScaleSize + qkK / 2
  | .q5_K => 2 * half + kScaleSize + qkK / 2 + qkK / 8
  | .q6_K => half + qkK / 16 + 3 * qkK / 4
  | .q8_K => 4 + qkK + qkK / 16 * 2
  | .iq2_XXS => half + qkK / 8 * 2
  | .iq2_XS => half + qkK / 8 * 2 + qkK / 32
  | .iq2_S => half + qkK / 4 + qkK / 16
  | .iq3_XXS => half + 3 * (qkK / 8)
  | .iq3_S => half + 13 * (qkK / 32) + iq3sNScale
  | .iq1_S => half + qkK / 8 + qkK / 16
  | .iq1_M => qkK / 8 + qkK / 16 + qkK / 32
  | .iq4_NL => half + qkSmall / 2
  | .iq4_XS => half + 2 + qkK / 64 + qkK / 2

/-- The bytes ggml stores for so many elements. -/
def GgmlTag.bytes (tag : GgmlTag) (elements : Nat) : Nat :=
  elements / tag.blckSize * tag.typeSize

/-! ## Where the copy agrees -/

/--
The numbers of elements for which the copied tables give the bytes of ggml.
Seventeen tags were copied right; two are unknown to the reader; the others
are taken for another type, which costs the same only by accident.
-/
def GgmlTag.Agrees (tag : GgmlTag) (elements : Nat) : Prop :=
  match tag with
  | .q8_1 | .iq1_S | .iq4_NL | .iq3_S | .iq2_S | .iq4_XS | .i32 | .i64
  | .iq1_M | .tq1_0 => elements = 0
  | .i8 => elements = 0 ∨ elements = 110
  | .i16 => elements = 0 ∨ elements = 33
  | .f64 => elements = 0 ∨ elements = 3
  | .tq2_0 | .mxfp4 => False
  | .f32 | .f16 | .q4_0 | .q4_1 | .q5_0 | .q5_1 | .q8_0 | .q2_K | .q3_K
  | .q4_K | .q5_K | .q6_K | .q8_K | .iq2_XXS | .iq2_XS | .iq3_XXS
  | .bf16 => True

theorem divCeil_eq {n size : Nat} (positive : 0 < size) :
    divCeil n size = (n + (size - 1)) / size := by
  have split := Nat.div_add_mod n size
  have small := Nat.mod_lt n positive
  unfold divCeil
  split_ifs with partly
  · symm
    rw [Nat.div_eq_iff positive]
    constructor
    · rw [Nat.succ_mul, Nat.mul_comm]
      omega
    · rw [Nat.succ_mul, Nat.mul_comm]
      omega
  · symm
    rw [Nat.div_eq_iff positive]
    constructor
    · rw [Nat.mul_comm]
      omega
    · rw [Nat.mul_comm]
      omega

theorem typeInfo_blockSize_pos
    {type : GgmlType} {info : TypeInfo}
    (known : typeInfo type = some info) : 0 < info.blockSize := by
  cases type <;> cases known <;> exact Nat.succ_pos _

/-- What is computed for a known type. -/
theorem tensorBytes_known
    {dims : List Nat} {type : GgmlType} {info : TypeInfo}
    {bytes : Option Nat}
    (known : typeInfo type = some info)
    (computed : tensorBytes dims type = .ok bytes) :
    bytes = some (divCeil dims.prod info.blockSize * info.bytesPerBlock) := by
  simp only [tensorBytes, known, bind_eq_ok, mul_eq_ok,
    pure_eq_ok] at computed
  obtain ⟨n, elements, _, ⟨_, rfl⟩, rfl⟩ := computed
  rw [product_eq elements]

theorem tensorBytes_unknown
    {dims : List Nat} {type : GgmlType} {bytes : Option Nat}
    (unknown : typeInfo type = none)
    (computed : tensorBytes dims type = .ok bytes) :
    bytes = none := by
  simp only [tensorBytes, unknown] at computed
  cases computed
  rfl

theorem GgmlTag.not_agrees_of_unknown
    {tag : GgmlTag} {elements : Nat}
    (unknown : typeInfo (.fromRaw tag.raw) = none) :
    ¬ tag.Agrees elements := by
  cases tag
  case tq2_0 => exact id
  case mxfp4 => exact id
  all_goals cases unknown

/-- Whole blocks, counted with either table. -/
theorem GgmlTag.bytes_eq_iff
    {tag : GgmlTag} {elements : Nat} {info : TypeInfo}
    (aligned : tag.blckSize ∣ elements)
    (known : typeInfo (.fromRaw tag.raw) = some info) :
    divCeil elements info.blockSize * info.bytesPerBlock =
        tag.bytes elements ↔
      tag.Agrees elements := by
  obtain ⟨blocks, rfl⟩ := aligned
  rw [divCeil_eq (typeInfo_blockSize_pos known)]
  cases tag <;> cases known <;>
    simp only [GgmlTag.bytes, GgmlTag.Agrees, GgmlTag.blckSize,
      GgmlTag.typeSize, qkK, qkSmall, half, kScaleSize, iq3sNScale,
      iff_true] <;>
    omega

/--
A tensor whose rows are whole blocks gets the bytes that ggml stores exactly
where its tag agrees.
-/
theorem tensorBytes_agrees_iff
    (tag : GgmlTag) {first : Nat} (rest : List Nat)
    (aligned : tag.blckSize ∣ first) {bytes : Option Nat}
    (computed :
      tensorBytes (first :: rest) (.fromRaw tag.raw) = .ok bytes) :
    bytes = some (tag.bytes (first :: rest).prod) ↔
      tag.Agrees (first :: rest).prod := by
  have whole : tag.blckSize ∣ (first :: rest).prod := by
    rw [List.prod_cons]
    exact Dvd.dvd.mul_right aligned _
  cases known : typeInfo (.fromRaw tag.raw) with
  | some info =>
      rw [tensorBytes_known known computed, Option.some.injEq]
      exact GgmlTag.bytes_eq_iff whole known
  | none =>
      rw [tensorBytes_unknown known computed]
      exact iff_of_false (Option.some_ne_none _).symm
        (GgmlTag.not_agrees_of_unknown known)

theorem tensorBytes_agrees_q4_K :
    tensorBytes [512, 3] (.fromRaw GgmlTag.q4_K.raw) =
        .ok (some 864) ∧
      (some 864 = some (GgmlTag.q4_K.bytes [512, 3].prod) ↔
        GgmlTag.q4_K.Agrees [512, 3].prod) :=
  ⟨by decide,
    tensorBytes_agrees_iff .q4_K [3] (by decide) (by decide)⟩

/-- A block of `IQ1_S` is counted as one of `IQ3_S`. -/
theorem tensorBytes_iq1_S :
    GgmlTag.iq1_S.blckSize ∣ 256 ∧
      tensorBytes [256] (.fromRaw GgmlTag.iq1_S.raw) = .ok (some 110) ∧
      tensorBytes [256] (.fromRaw GgmlTag.iq1_S.raw) ≠
        .ok (some (GgmlTag.iq1_S.bytes [256].prod)) := by
  decide

end Runa.Fit.GgmlTypes
