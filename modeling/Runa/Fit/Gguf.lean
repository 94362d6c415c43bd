import Runa.Bytes.LittleEndian
import Runa.Bytes.Lossy
import Runa.Bytes.Scans
import Runa.Fit.GgmlTypes

/-!
# The GGUF reader

The embedding of `Reader` and its `Cursor` of `runa-fit/src/gguf.rs`: the
header, the metadata and the table of tensors at the front of a model file.
The cursor is a scan, which takes bytes at a position of 64 bits and is short
where the buffer ends; which of the errors ask for more bytes is said by
`is_truncation` of `runa-fit/src/remote.rs`.  A `usize` has 64 bits, so a
count always fits one.  A floating point number is its bits.
-/

namespace Runa.Fit.Gguf

open Runa.Stream.Utf8
open Runa.Bytes.LittleEndian
open Runa.Bytes.Lossy
open Runa.Bytes.Scans
open Runa.Fit.GgmlTypes

/-- The four bytes at the start of every file. -/
def ggufMagic : List UInt8 := [0x47, 0x47, 0x55, 0x46]

/-! ## Values -/

/-- GGUF value types. -/
inductive DataType where
  | uint8
  | int8
  | uint16
  | int16
  | uint32
  | int32
  | float32
  | bool
  | string
  | array
  | uint64
  | int64
  | float64
deriving DecidableEq, Repr

def DataType.fromRaw : Nat → Option DataType
  | 0 => some .uint8
  | 1 => some .int8
  | 2 => some .uint16
  | 3 => some .int16
  | 4 => some .uint32
  | 5 => some .int32
  | 6 => some .float32
  | 7 => some .bool
  | 8 => some .string
  | 9 => some .array
  | 10 => some .uint64
  | 11 => some .int64
  | 12 => some .float64
  | _ => none

/-- An array of values of one type. -/
inductive ArrayValue where
  | uint8 (items : List UInt8)
  | int8 (items : List Int8)
  | uint16 (items : List UInt16)
  | int16 (items : List Int16)
  | uint32 (items : List UInt32)
  | int32 (items : List Int32)
  | float32 (items : List UInt32)
  | bool (items : List Bool)
  | string (items : List Text)
  | uint64 (items : List UInt64)
  | int64 (items : List Int64)
  | float64 (items : List UInt64)
deriving DecidableEq

/-- A metadata value. -/
inductive Value where
  | uint8 (item : UInt8)
  | int8 (item : Int8)
  | uint16 (item : UInt16)
  | int16 (item : Int16)
  | uint32 (item : UInt32)
  | int32 (item : Int32)
  | float32 (item : UInt32)
  | bool (item : Bool)
  | string (item : Text)
  | array (item : ArrayValue)
  | uint64 (item : UInt64)
  | int64 (item : Int64)
  | float64 (item : UInt64)
deriving DecidableEq

/-- A single tensor's entry. -/
structure TensorInfo where
  name : Text
  dims : List UInt64
  ggmlType : GgmlType
  offset : UInt64
deriving DecidableEq

/-- Errors that can occur while reading a header. -/
inductive ReadError where
  | truncated
  | badMagic
  | unsupportedVersion (version : UInt32)
  | stringTooLong
  | unexpectedEof
  | unknownValueType (tag : UInt32)
  | countOverflow
  | tensorTableTruncated
deriving DecidableEq, Repr

/-- `is_truncation`: errors that mean that more bytes are needed. -/
def isTruncation : ReadError → Bool
  | .truncated => true
  | .unexpectedEof => true
  | .tensorTableTruncated => true
  | .stringTooLong => true
  | .badMagic => false
  | .unsupportedVersion _ => false
  | .unknownValueType _ => false
  | .countOverflow => false

/-- A parsed header. -/
structure Reader where
  version : UInt32
  tensorCount : UInt64
  metadata : List (Text × Value)
  tensors : List TensorInfo
  dataStart : Nat
deriving DecidableEq

/-! ## The cursor -/

/-- Reading at a position of the buffer. -/
abbrev Cursor := Scan ReadError

def take (count : Nat) : Cursor (List UInt8) :=
  Scan.bytes count .unexpectedEof

/-- `take(1)?[0]` -/
def u8 : Cursor UInt8 := do
  let bytes ← take 1
  return bytes.headD 0

def e16 : Cursor UInt16 := do
  let bytes ← take 2
  return UInt16.ofNat (leNat bytes)

def u32 : Cursor UInt32 := do
  let bytes ← take 4
  return UInt32.ofNat (leNat bytes)

def u64 : Cursor UInt64 := do
  let bytes ← take 8
  return UInt64.ofNat (leNat bytes)

def string : Cursor Text := do
  let len ← u64
  let bytes ← take len.toNat
  return fromUtf8Lossy bytes

/-- A value-type tag, or the error that names it. -/
def dataType : Cursor DataType := do
  let tag ← u32
  match DataType.fromRaw tag.toNat with
  | some type => return type
  | none => .fail (.unknownValueType tag)

/-- The items of an array; an array of arrays is not read. -/
def items (count : Nat) : DataType → Cursor ArrayValue
  | .uint8 => do return .uint8 (← take count)
  | .int8 => do return .int8 ((← take count).map UInt8.toInt8)
  | .uint16 => do return .uint16 (← e16.times count)
  | .int16 => do return .int16 ((← e16.times count).map UInt16.toInt16)
  | .uint32 => do return .uint32 (← u32.times count)
  | .int32 => do return .int32 ((← u32.times count).map UInt32.toInt32)
  | .float32 => do return .float32 (← u32.times count)
  | .bool => do return .bool ((← take count).map fun byte => byte != 0)
  | .string => do return .string (← string.times count)
  | .uint64 => do return .uint64 (← u64.times count)
  | .int64 => do return .int64 ((← u64.times count).map UInt64.toInt64)
  | .float64 => do return .float64 (← u64.times count)
  | .array => .fail .unexpectedEof

def array : Cursor ArrayValue := do
  let type ← dataType
  let count ← u64
  items count.toNat type

def value : DataType → Cursor Value
  | .uint8 => do return .uint8 (← u8)
  | .int8 => do return .int8 (← u8).toInt8
  | .uint16 => do return .uint16 (← e16)
  | .int16 => do return .int16 (← e16).toInt16
  | .uint32 => do return .uint32 (← u32)
  | .int32 => do return .int32 (← u32).toInt32
  | .float32 => do return .float32 (← u32)
  | .bool => do return .bool ((← u8) != 0)
  | .string => do return .string (← string)
  | .array => do return .array (← array)
  | .uint64 => do return .uint64 (← u64)
  | .int64 => do return .int64 (← u64).toInt64
  | .float64 => do return .float64 (← u64)

/-- One round of the loop over the metadata. -/
def pair : Cursor (Text × Value) := do
  let key ← string
  let type ← dataType
  let value ← value type
  return (key, value)

/-- One round of the loop over the tensors. -/
def tensorInfo : Cursor TensorInfo := do
  let name ← string
  let nDims ← u32
  let dims ← u64.times nDims.toNat
  let tag ← u32
  let offset ← u64
  .done
    { name := name, dims := dims, ggmlType := .fromRaw tag.toNat,
      offset := offset }

/-- What follows the version. -/
def tables (version : UInt32) : Cursor Reader := do
  let tensorCount ← u64
  let kvCount ← u64
  let metadata ← pair.times kvCount.toNat
  let tensors ← tensorInfo.times tensorCount.toNat
  .done
    { version := version, tensorCount := tensorCount,
      metadata := metadata, tensors := tensors, dataStart := 0 }

/-- What follows the magic bytes. -/
def versioned : Cursor Reader := do
  let version ← u32
  if version ≠ 2 ∧ version ≠ 3 then .fail (.unsupportedVersion version)
  else tables version

/-- The whole header; where the data begins is not known yet. -/
def header : Cursor Reader :=
  .take 4 .truncated fun magic =>
    if magic ≠ ggufMagic then .fail .badMagic else versioned

/-- The data begin at the next multiple of 32. -/
def Reader.located (reader : Reader) (position : Nat) : Reader :=
  { reader with dataStart := divCeil position 32 * 32 }

/-- Parse a GGUF header from a buffer. -/
def Reader.parse (buffer : List UInt8) : Except ReadError Reader :=
  (header.run u64Limit buffer).map fun (reader, position) =>
    reader.located position

/-! ## Access -/

/-- Look up a metadata value by key. -/
def Reader.get (reader : Reader) (key : Text) : Option Value :=
  (reader.metadata.find? fun entry => decide (entry.1 = key)).map Prod.snd

def Reader.getStr (reader : Reader) (key : Text) : Option Text :=
  match reader.get key with
  | some (.string item) => some item
  | _ => none

/-- Whole numbers that are not negative, of any width from 32 bits. -/
def Reader.getU64 (reader : Reader) (key : Text) : Option Nat :=
  match reader.get key with
  | some (.uint64 item) => some item.toNat
  | some (.uint32 item) => some item.toNat
  | some (.int64 item) =>
      if 0 ≤ item.toInt then some item.toInt.toNat else none
  | some (.int32 item) =>
      if 0 ≤ item.toInt then some item.toInt.toNat else none
  | _ => none

end Runa.Fit.Gguf
