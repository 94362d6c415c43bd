import Runa.Fit.Gguf

/-!
# Laws of the GGUF reader

The format of the module documentation of `runa-fit/src/gguf.rs` as an
encoder, with the wide dimensions that the reader and its test writer use,
and that the reader undoes it (`parse_encode`).  What the reader has decided
is not changed by more bytes, and less than what it has read is reported as
truncated (`parse_stable`).
-/

namespace Runa.Fit.Gguf

open Runa.Stream.Utf8
open Runa.Bytes.LittleEndian
open Runa.Bytes.Lossy
open Runa.Bytes.Scans
open Runa.Fit.GgmlTypes

/-! ## The format -/

def writeU16 (item : UInt16) : List UInt8 := leBytes 2 item.toNat

def writeU32 (item : UInt32) : List UInt8 := leBytes 4 item.toNat

def writeU64 (item : UInt64) : List UInt8 := leBytes 8 item.toNat

/-- The number of items or bytes that follow. -/
def writeCount (count : Nat) : List UInt8 := leBytes 8 count

def writeString (text : Text) : List UInt8 :=
  writeCount (encode text).length ++ encode text

def writeBool (item : Bool) : List UInt8 := [if item then 1 else 0]

def DataType.raw : DataType → Nat
  | .uint8 => 0
  | .int8 => 1
  | .uint16 => 2
  | .int16 => 3
  | .uint32 => 4
  | .int32 => 5
  | .float32 => 6
  | .bool => 7
  | .string => 8
  | .array => 9
  | .uint64 => 10
  | .int64 => 11
  | .float64 => 12

def writeType (type : DataType) : List UInt8 := leBytes 4 type.raw

/-- The type of the items of an array. -/
def ArrayValue.type : ArrayValue → DataType
  | .uint8 _ => .uint8
  | .int8 _ => .int8
  | .uint16 _ => .uint16
  | .int16 _ => .int16
  | .uint32 _ => .uint32
  | .int32 _ => .int32
  | .float32 _ => .float32
  | .bool _ => .bool
  | .string _ => .string
  | .uint64 _ => .uint64
  | .int64 _ => .int64
  | .float64 _ => .float64

def ArrayValue.count : ArrayValue → Nat
  | .uint8 items => items.length
  | .int8 items => items.length
  | .uint16 items => items.length
  | .int16 items => items.length
  | .uint32 items => items.length
  | .int32 items => items.length
  | .float32 items => items.length
  | .bool items => items.length
  | .string items => items.length
  | .uint64 items => items.length
  | .int64 items => items.length
  | .float64 items => items.length

def ArrayValue.writeItems : ArrayValue → List UInt8
  | .uint8 items => items
  | .int8 items => items.map Int8.toUInt8
  | .uint16 items => items.flatMap writeU16
  | .int16 items => items.flatMap fun item => writeU16 item.toUInt16
  | .uint32 items => items.flatMap writeU32
  | .int32 items => items.flatMap fun item => writeU32 item.toUInt32
  | .float32 items => items.flatMap writeU32
  | .bool items => items.flatMap writeBool
  | .string items => items.flatMap writeString
  | .uint64 items => items.flatMap writeU64
  | .int64 items => items.flatMap fun item => writeU64 item.toUInt64
  | .float64 items => items.flatMap writeU64

def ArrayValue.write (item : ArrayValue) : List UInt8 :=
  writeType item.type ++ (writeCount item.count ++ item.writeItems)

def Value.type : Value → DataType
  | .uint8 _ => .uint8
  | .int8 _ => .int8
  | .uint16 _ => .uint16
  | .int16 _ => .int16
  | .uint32 _ => .uint32
  | .int32 _ => .int32
  | .float32 _ => .float32
  | .bool _ => .bool
  | .string _ => .string
  | .array _ => .array
  | .uint64 _ => .uint64
  | .int64 _ => .int64
  | .float64 _ => .float64

def Value.write : Value → List UInt8
  | .uint8 item => [item]
  | .int8 item => [item.toUInt8]
  | .uint16 item => writeU16 item
  | .int16 item => writeU16 item.toUInt16
  | .uint32 item => writeU32 item
  | .int32 item => writeU32 item.toUInt32
  | .float32 item => writeU32 item
  | .bool item => writeBool item
  | .string item => writeString item
  | .array item => item.write
  | .uint64 item => writeU64 item
  | .int64 item => writeU64 item.toUInt64
  | .float64 item => writeU64 item

def writePair (entry : Text × Value) : List UInt8 :=
  writeString entry.1 ++ (writeType entry.2.type ++ entry.2.write)

/-- A tensor's entry as it is written, with any tag for its type. -/
structure TensorEntry where
  name : Text
  dims : List UInt64
  tag : UInt32
  offset : UInt64
deriving DecidableEq

def TensorEntry.write (entry : TensorEntry) : List UInt8 :=
  writeString entry.name ++
    (leBytes 4 entry.dims.length ++
      (entry.dims.flatMap writeU64 ++
        (writeU32 entry.tag ++ writeU64 entry.offset)))

/-- The entry that is read. -/
def TensorEntry.info (entry : TensorEntry) : TensorInfo where
  name := entry.name
  dims := entry.dims
  ggmlType := .fromRaw entry.tag.toNat
  offset := entry.offset

/-- A header of one of the versions. -/
structure Header where
  version : UInt32
  metadata : List (Text × Value)
  tensors : List TensorEntry
  supported : version = 2 ∨ version = 3

def Header.write (header : Header) : List UInt8 :=
  ggufMagic ++
    (writeU32 header.version ++
      (writeCount header.tensors.length ++
        (writeCount header.metadata.length ++
          (header.metadata.flatMap writePair ++
            header.tensors.flatMap TensorEntry.write))))

/-! ## Reading numbers and strings -/

theorem reads_u8 (item : UInt8) : Reads u64Limit u8 [item] item :=
  reads_map (fun bytes : List UInt8 => bytes.headD 0)
    (reads_bytes ReadError.unexpectedEof rfl)

/-- A number of some width is read back. -/
theorem reads_number {α : Type} {width n : Nat} (convert : Nat → α)
    (small : n < 256 ^ width) :
    Reads u64Limit
      (take width >>= fun bytes => pure (convert (leNat bytes)))
      (leBytes width n) (convert n) := by
  have bytes : Reads u64Limit (take width) (leBytes width n) _ :=
    reads_bytes ReadError.unexpectedEof (leBytes_length width n)
  have reads := reads_map (fun bytes => convert (leNat bytes)) bytes
  rwa [leNat_leBytes small] at reads

theorem reads_e16 (item : UInt16) :
    Reads u64Limit e16 (writeU16 item) item := by
  have reads := @reads_number _ 2 item.toNat UInt16.ofNat item.toNat_lt
  rwa [UInt16.ofNat_toNat] at reads

theorem reads_u32 (item : UInt32) :
    Reads u64Limit u32 (writeU32 item) item := by
  have reads := @reads_number _ 4 item.toNat UInt32.ofNat item.toNat_lt
  rwa [UInt32.ofNat_toNat] at reads

theorem reads_u64 (item : UInt64) :
    Reads u64Limit u64 (writeU64 item) item := by
  have reads := @reads_number _ 8 item.toNat UInt64.ofNat item.toNat_lt
  rwa [UInt64.ofNat_toNat] at reads

/-- A count is read back as a number of 64 bits. -/
theorem reads_count {count : Nat} (small : count < u64Limit) :
    Reads u64Limit u64 (writeCount count) (UInt64.ofNat count) :=
  reads_number UInt64.ofNat small

theorem count_toNat {count : Nat} (small : count < u64Limit) :
    (UInt64.ofNat count).toNat = count :=
  UInt64.toNat_ofNat_of_lt' small

theorem reads_taken (bytes : List UInt8) :
    Reads u64Limit (take bytes.length) bytes bytes :=
  reads_bytes ReadError.unexpectedEof rfl

theorem reads_string (text : Text) :
    Reads u64Limit string (writeString text) text := by
  apply reads_of_short
  intro short
  have small : (encode text).length < u64Limit := by
    rw [writeString, List.length_append] at short
    omega
  refine reads_bind (reads_count small) ?_
  have reads := reads_map fromUtf8Lossy (reads_taken (encode text))
  rwa [fromUtf8Lossy_encode, ← count_toNat small] at reads

theorem fromRaw_raw (type : DataType) :
    DataType.fromRaw type.raw = some type := by
  cases type <;> rfl

theorem raw_lt (type : DataType) : type.raw < 256 ^ 4 := by
  cases type <;> decide

theorem reads_type (type : DataType) :
    Reads u64Limit dataType (writeType type) type := by
  have tag : Reads u64Limit u32 (writeType type) (UInt32.ofNat type.raw) :=
    reads_number UInt32.ofNat (raw_lt type)
  have back : (UInt32.ofNat type.raw).toNat = type.raw :=
    UInt32.toNat_ofNat_of_lt' (raw_lt type)
  rw [← List.append_nil (writeType type)]
  refine reads_bind tag ?_
  rw [back, fromRaw_raw]
  exact reads_done type

/-! ## Reading values -/

/-- A list of numbers is read back, after a conversion of each. -/
theorem reads_converted {α β γ : Type}
    {scan : Cursor α} {each : α → List UInt8} {convert : α → β}
    {back : β → α} {items : List β} (wrap : List β → γ)
    (reads : ∀ value, Reads u64Limit scan (each value) value)
    (inverse : ∀ item, convert (back item) = item) :
    Reads u64Limit
      (scan.times items.length >>= fun values =>
        pure (wrap (values.map convert)))
      (items.flatMap fun item => each (back item)) (wrap items) := by
  have all :=
    @reads_times _ _ u64Limit scan _ items (fun item => each (back item))
      back fun item _ => reads (back item)
  have converted := reads_map (fun values => wrap (values.map convert)) all
  have same : convert ∘ back = id := funext inverse
  rwa [List.map_map, same, List.map_id] at converted

/-- A list of values is read back as it is. -/
theorem reads_list {α γ : Type}
    {scan : Cursor α} {each : α → List UInt8} (items : List α)
    (wrap : List α → γ)
    (reads : ∀ value, Reads u64Limit scan (each value) value) :
    Reads u64Limit
      (scan.times items.length >>= fun values => pure (wrap values))
      (items.flatMap each) (wrap items) := by
  have all :=
    @reads_times _ _ u64Limit scan _ items each id
      fun value _ => reads value
  rw [List.map_id] at all
  exact reads_map wrap all

/-- A list of bytes is read back, after a conversion of each. -/
theorem reads_converted_bytes {β γ : Type}
    {convert : UInt8 → β} {back : β → UInt8} (items : List β)
    (wrap : List β → γ)
    (inverse : ∀ item, convert (back item) = item) :
    Reads u64Limit
      (take items.length >>= fun bytes => pure (wrap (bytes.map convert)))
      (items.map back) (wrap items) := by
  have all := reads_taken (items.map back)
  rw [List.length_map] at all
  have converted := reads_map (fun bytes => wrap (bytes.map convert)) all
  have same : convert ∘ back = id := funext inverse
  rwa [List.map_map, same, List.map_id] at converted

theorem writeBool_flatMap (items : List Bool) :
    items.flatMap writeBool =
      items.map fun item => if item then (1 : UInt8) else 0 := by
  rw [List.map_eq_flatMap]
  rfl

theorem reads_items (item : ArrayValue) :
    Reads u64Limit (items item.count item.type) item.writeItems item := by
  cases item with
  | uint8 items => exact reads_map ArrayValue.uint8 (reads_taken items)
  | int8 items =>
      exact reads_converted_bytes items ArrayValue.int8
        fun item => Int8.toInt8_toUInt8 item
  | uint16 items => exact reads_list items ArrayValue.uint16 reads_e16
  | int16 items =>
      exact reads_converted ArrayValue.int16 reads_e16
        fun item => Int16.toInt16_toUInt16 item
  | uint32 items => exact reads_list items ArrayValue.uint32 reads_u32
  | int32 items =>
      exact reads_converted ArrayValue.int32 reads_u32
        fun item => Int32.toInt32_toUInt32 item
  | float32 items => exact reads_list items ArrayValue.float32 reads_u32
  | bool items =>
      have reads :=
        @reads_converted_bytes _ _ (fun byte => byte != 0)
          (fun item => if item then 1 else 0) items ArrayValue.bool
          fun item => by cases item <;> rfl
      rwa [← writeBool_flatMap] at reads
  | string items => exact reads_list items ArrayValue.string reads_string
  | uint64 items => exact reads_list items ArrayValue.uint64 reads_u64
  | int64 items =>
      exact reads_converted ArrayValue.int64 reads_u64
        fun item => Int64.toInt64_toUInt64 item
  | float64 items => exact reads_list items ArrayValue.float64 reads_u64

theorem reads_array {item : ArrayValue} (small : item.count < 2 ^ 32) :
    Reads u64Limit array item.write item := by
  have count : item.count < u64Limit :=
    small.trans (by decide)
  refine reads_bind (reads_type item.type)
    (reads_bind (reads_count count) ?_)
  rw [count_toNat count]
  exact reads_items item

/-- The arrays of a value have fewer than 2³² items. -/
def Value.Counted : Value → Prop
  | .array item => item.count < 2 ^ 32
  | _ => True

theorem reads_value {item : Value} (counted : item.Counted) :
    Reads u64Limit (value item.type) item.write item := by
  cases item with
  | uint8 item => exact reads_map Value.uint8 (reads_u8 item)
  | int8 item =>
      have reads :=
        reads_map (fun byte => Value.int8 byte.toInt8)
          (reads_u8 item.toUInt8)
      rwa [Int8.toInt8_toUInt8] at reads
  | uint16 item => exact reads_map Value.uint16 (reads_e16 item)
  | int16 item =>
      have reads :=
        reads_map (fun bits => Value.int16 bits.toInt16)
          (reads_e16 item.toUInt16)
      rwa [Int16.toInt16_toUInt16] at reads
  | uint32 item => exact reads_map Value.uint32 (reads_u32 item)
  | int32 item =>
      have reads :=
        reads_map (fun bits => Value.int32 bits.toInt32)
          (reads_u32 item.toUInt32)
      rwa [Int32.toInt32_toUInt32] at reads
  | float32 item => exact reads_map Value.float32 (reads_u32 item)
  | bool item =>
      have reads :=
        reads_map (fun byte => Value.bool (byte != 0))
          (reads_u8 (if item then 1 else 0))
      cases item <;> exact reads
  | string item => exact reads_map Value.string (reads_string item)
  | array item => exact reads_map Value.array (reads_array counted)
  | uint64 item => exact reads_map Value.uint64 (reads_u64 item)
  | int64 item =>
      have reads :=
        reads_map (fun bits => Value.int64 bits.toInt64)
          (reads_u64 item.toUInt64)
      rwa [Int64.toInt64_toUInt64] at reads
  | float64 item => exact reads_map Value.float64 (reads_u64 item)

/-! ## Reading the header -/

theorem reads_pair {entry : Text × Value}
    (counted : entry.2.Counted) :
    Reads u64Limit pair (writePair entry) entry :=
  reads_bind (reads_string entry.1)
    (reads_bind (reads_type entry.2.type)
      (reads_map (fun item => (entry.1, item)) (reads_value counted)))

theorem reads_tensorInfo {entry : TensorEntry}
    (counted : entry.dims.length < 2 ^ 32) :
    Reads u64Limit tensorInfo entry.write entry.info := by
  have nDims :
      Reads u64Limit u32 (leBytes 4 entry.dims.length)
        (UInt32.ofNat entry.dims.length) :=
    reads_number UInt32.ofNat counted
  refine reads_bind (reads_string entry.name) (reads_bind nDims ?_)
  rw [UInt32.toNat_ofNat_of_lt' counted]
  have dims :=
    @reads_times _ _ u64Limit u64 _ entry.dims writeU64 id
      fun value _ => reads_u64 value
  rw [List.map_id] at dims
  refine reads_bind dims (reads_bind (reads_u32 entry.tag) ?_)
  exact reads_map (fun offset => TensorInfo.mk _ _ _ offset)
    (reads_u64 entry.offset)

/-- All counts of the header are below 2³². -/
structure Header.Counted (header : Header) : Prop where
  metadata : header.metadata.length < 2 ^ 32
  tensors : header.tensors.length < 2 ^ 32
  arrays : ∀ entry ∈ header.metadata, entry.2.Counted
  dims : ∀ entry ∈ header.tensors, entry.dims.length < 2 ^ 32

/-- The reader that a header is read as, but for where the data begin. -/
def Header.reader (header : Header) : Reader where
  version := header.version
  tensorCount := UInt64.ofNat header.tensors.length
  metadata := header.metadata
  tensors := header.tensors.map TensorEntry.info
  dataStart := 0

theorem reads_tables {header : Header} (counted : header.Counted) :
    Reads u64Limit (tables header.version)
      (writeCount header.tensors.length ++
        (writeCount header.metadata.length ++
          (header.metadata.flatMap writePair ++
            header.tensors.flatMap TensorEntry.write)))
      header.reader := by
  have tensorCount : header.tensors.length < u64Limit :=
    counted.tensors.trans (by decide)
  have kvCount : header.metadata.length < u64Limit :=
    counted.metadata.trans (by decide)
  have metadata :=
    @reads_times _ _ u64Limit pair _ header.metadata writePair id
      fun entry member => reads_pair (counted.arrays entry member)
  have tensors :=
    @reads_times _ _ u64Limit tensorInfo _ header.tensors
      TensorEntry.write TensorEntry.info
      fun entry member => reads_tensorInfo (counted.dims entry member)
  refine reads_bind (reads_count tensorCount)
    (reads_bind (reads_count kvCount) ?_)
  rw [count_toNat tensorCount, count_toNat kvCount]
  rw [List.map_id] at metadata
  exact reads_bind metadata
    (reads_map (fun tensors => Reader.mk _ _ _ tensors 0) tensors)

theorem reads_header {header : Header} (counted : header.Counted) :
    Reads u64Limit Gguf.header header.write header.reader := by
  refine reads_take rfl ?_
  rw [if_neg (not_not_intro rfl)]
  refine reads_bind (reads_u32 header.version) ?_
  have supported : ¬ (header.version ≠ 2 ∧ header.version ≠ 3) := by
    rintro ⟨two, three⟩
    rcases header.supported with version | version
    · exact two version
    · exact three version
  rw [if_neg supported]
  exact reads_tables counted

/-- The next multiple of 32. -/
def roundUp (n : Nat) : Nat := (n + 31) / 32 * 32

/-- The reader undoes the writer, whatever follows. -/
theorem parse_write {header : Header} (counted : header.Counted)
    (short : header.write.length < u64Limit) (tail : List UInt8) :
    Reader.parse (header.write ++ tail) =
      .ok
        { header.reader with
          dataStart := roundUp header.write.length } := by
  have reads :=
    reads_header counted 0 tail (by rwa [Nat.zero_add])
  rw [Reader.parse, Scan.run, reads, Nat.zero_add]
  simp only [Outcome.result, Except.map, Reader.located, roundUp,
    divCeil_eq (Nat.succ_pos 31)]

/--
Reading undoes writing over the whole format: the version, the metadata and
the tensors come back in order, and the data begin at the next multiple of 32
behind the header.
-/
theorem parse_undoes_write
    (header : Header) (tail : List UInt8)
    (counted : header.Counted)
    (short : header.write.length < u64Limit) :
    Reader.parse (header.write ++ tail) =
      .ok
        { version := header.version
          tensorCount := UInt64.ofNat header.tensors.length
          metadata := header.metadata
          tensors :=
            header.tensors.map fun entry =>
              { name := entry.name
                dims := entry.dims
                ggmlType := .fromRaw entry.tag.toNat
                offset := entry.offset }
          dataStart := roundUp header.write.length } :=
  parse_write counted short tail

theorem supported_three : (3 : UInt32) = 2 ∨ (3 : UInt32) = 3 :=
  Or.inr rfl

/-- A header with an array and a tensor of two dimensions. -/
def smallHeader : Header where
  version := 3
  metadata :=
    [("general.architecture".toList, .string "llama".toList),
      ("llama.scores".toList, .array (.int16 [-1, 2]))]
  tensors :=
    [{ name := "token_embd.weight".toList
       dims := [4, 2]
       tag := 12
       offset := 0 }]
  supported := supported_three

theorem smallHeader_counted : smallHeader.Counted where
  metadata := by decide
  tensors := by decide
  arrays := by
    intro entry member
    simp only [smallHeader, List.mem_cons, List.not_mem_nil,
      or_false] at member
    rcases member with rfl | rfl
    · trivial
    · exact (by decide : 2 < 2 ^ 32)
  dims := by
    intro entry member
    simp only [smallHeader, List.mem_cons, List.not_mem_nil,
      or_false] at member
    subst member
    exact (by decide : 2 < 2 ^ 32)

theorem smallHeader_length : smallHeader.write.length = 166 := by
  decide +kernel

theorem parse_undoes_write_small :
    smallHeader.write.length = 166 ∧
      (Reader.parse (smallHeader.write ++ [1, 2, 3])).map
          Reader.dataStart =
        .ok 192 := by
  have short : smallHeader.write.length < u64Limit := by
    rw [smallHeader_length]
    decide
  refine ⟨smallHeader_length, ?_⟩
  rw [parse_undoes_write smallHeader [1, 2, 3] smallHeader_counted short,
    smallHeader_length]
  rfl

/-! ## What more bytes and fewer bytes change -/

/-- The reader is short only with errors that ask for more. -/
def AsksForMore {α : Type} (scan : Cursor α) : Prop :=
  Shorts (fun error => isTruncation error = true) scan

section Asking

variable {α β : Type} {scan : Cursor α}

theorem asks_take (count : Nat) : AsksForMore (take count) :=
  ⟨rfl, fun _ => trivial⟩

theorem asks_map (asks : AsksForMore scan) (convert : α → β) :
    AsksForMore (scan >>= fun value => pure (convert value)) :=
  shorts_bind asks fun _ => trivial

theorem asks_u8 : AsksForMore u8 := asks_map (asks_take 1) _

theorem asks_e16 : AsksForMore e16 := asks_map (asks_take 2) _

theorem asks_u32 : AsksForMore u32 := asks_map (asks_take 4) _

theorem asks_u64 : AsksForMore u64 := asks_map (asks_take 8) _

theorem asks_string : AsksForMore string :=
  shorts_bind asks_u64 fun _ => asks_map (asks_take _) _

theorem asks_dataType : AsksForMore dataType := by
  refine shorts_bind asks_u32 fun tag => ?_
  split
  · trivial
  · trivial

theorem asks_items (count : Nat) (type : DataType) :
    AsksForMore (items count type) := by
  cases type with
  | uint8 => exact asks_map (asks_take _) _
  | int8 => exact asks_map (asks_take _) _
  | bool => exact asks_map (asks_take _) _
  | uint16 => exact asks_map (shorts_times asks_e16 _) _
  | int16 => exact asks_map (shorts_times asks_e16 _) _
  | uint32 => exact asks_map (shorts_times asks_u32 _) _
  | int32 => exact asks_map (shorts_times asks_u32 _) _
  | float32 => exact asks_map (shorts_times asks_u32 _) _
  | string => exact asks_map (shorts_times asks_string _) _
  | uint64 => exact asks_map (shorts_times asks_u64 _) _
  | int64 => exact asks_map (shorts_times asks_u64 _) _
  | float64 => exact asks_map (shorts_times asks_u64 _) _
  | array => trivial

theorem asks_array : AsksForMore array :=
  shorts_bind asks_dataType fun _ =>
    shorts_bind asks_u64 fun _ => asks_items _ _

theorem asks_value (type : DataType) : AsksForMore (value type) := by
  cases type with
  | uint8 => exact asks_map asks_u8 _
  | int8 => exact asks_map asks_u8 _
  | bool => exact asks_map asks_u8 _
  | uint16 => exact asks_map asks_e16 _
  | int16 => exact asks_map asks_e16 _
  | uint32 => exact asks_map asks_u32 _
  | int32 => exact asks_map asks_u32 _
  | float32 => exact asks_map asks_u32 _
  | string => exact asks_map asks_string _
  | array => exact asks_map asks_array _
  | uint64 => exact asks_map asks_u64 _
  | int64 => exact asks_map asks_u64 _
  | float64 => exact asks_map asks_u64 _

theorem asks_pair : AsksForMore pair :=
  shorts_bind asks_string fun _ =>
    shorts_bind asks_dataType fun _ => asks_map (asks_value _) _

theorem asks_tensorInfo : AsksForMore tensorInfo :=
  shorts_bind asks_string fun _ =>
    shorts_bind asks_u32 fun _ =>
      shorts_bind (shorts_times asks_u64 _) fun _ =>
        shorts_bind asks_u32 fun _ => asks_map asks_u64 _

theorem asks_tables (version : UInt32) : AsksForMore (tables version) :=
  shorts_bind asks_u64 fun _ =>
    shorts_bind asks_u64 fun _ =>
      shorts_bind (shorts_times asks_pair _) fun _ =>
        asks_map (shorts_times asks_tensorInfo _) _

theorem asks_versioned : AsksForMore versioned := by
  refine shorts_bind asks_u32 fun version => ?_
  split_ifs
  · trivial
  · exact asks_tables version

theorem asks_header : AsksForMore header := by
  refine ⟨rfl, fun magic => ?_⟩
  beta_reduce
  split_ifs
  · trivial
  · exact asks_versioned

end Asking

variable {buffer : List UInt8} {reader : Reader} {error : ReadError}

/-- A parse that succeeds is a run that ends. -/
theorem parse_eq_ok :
    Reader.parse buffer = .ok reader ↔
      ∃ read stop,
        header.outcome u64Limit 0 buffer = .ended read stop ∧
          read.located stop = reader := by
  rw [Reader.parse, Scan.run]
  cases header.outcome u64Limit 0 buffer with
  | ended read stop => simp [Outcome.result, Except.map]
  | failed error stop => simp [Outcome.result, Except.map]
  | short error wanted => simp [Outcome.result, Except.map]

/-- A parse that fails is a run that fails or is short. -/
theorem parse_eq_error :
    Reader.parse buffer = .error error ↔
      (∃ stop, header.outcome u64Limit 0 buffer = .failed error stop) ∨
        ∃ wanted,
          header.outcome u64Limit 0 buffer = .short error wanted := by
  rw [Reader.parse, Scan.run]
  cases header.outcome u64Limit 0 buffer with
  | ended read stop => simp [Outcome.result, Except.map]
  | failed error stop => simp [Outcome.result, Except.map]
  | short error wanted => simp [Outcome.result, Except.map]

/-- What a run has decided, it decides with more bytes too. -/
theorem parse_append {stop : Nat}
    (ends : (header.outcome u64Limit 0 buffer).EndsAt stop)
    (more : List UInt8) :
    Reader.parse (buffer ++ more) = Reader.parse buffer := by
  rw [Reader.parse, Reader.parse, Scan.run, Scan.run,
    outcome_append ends more]

theorem asks_outcome {wanted : Nat}
    (short :
      header.outcome u64Limit 0 buffer = .short error wanted) :
    isTruncation error = true := by
  have asks : Shorts (fun error => isTruncation error = true) header :=
    asks_header
  have allowed := shorts_outcome asks short
  exact allowed

/-- A failure that does not ask for more is a failure of the run. -/
theorem failed_of_not_truncation
    (parsed : Reader.parse buffer = .error error)
    (final : isTruncation error = false) :
    ∃ stop, header.outcome u64Limit 0 buffer = .failed error stop := by
  rcases parse_eq_error.mp parsed with failed | ⟨wanted, short⟩
  · exact failed
  · have asks := asks_outcome short
    rw [final] at asks
    cases asks

/-- On less than what a run has taken, the reader asks for more. -/
theorem parse_take {stop cut : Nat}
    (ends : (header.outcome u64Limit 0 buffer).EndsAt stop)
    (less : cut < stop) :
    ∃ error,
      Reader.parse (buffer.take cut) = .error error ∧
        isTruncation error = true := by
  obtain ⟨error, wanted, short, -, -⟩ :=
    outcome_take ends (by omega : 0 + cut < stop)
  exact
    ⟨error, parse_eq_error.mpr (Or.inr ⟨wanted, short⟩),
      asks_outcome short⟩

/--
Parsing is stable under reading more: what succeeds and what fails for good
stays so, and whatever ends before the end of the tensor table asks for more.
The end is the one that the start of the data is computed from.
-/
theorem parse_stable (buffer more : List UInt8) :
    (∀ reader,
        Reader.parse buffer = .ok reader →
          Reader.parse (buffer ++ more) = .ok reader) ∧
      (∀ error,
        Reader.parse buffer = .error error →
          isTruncation error = false →
            Reader.parse (buffer ++ more) = .error error) ∧
      ∀ reader,
        Reader.parse buffer = .ok reader →
          ∃ read tableEnd,
            header.run u64Limit buffer = .ok (read, tableEnd) ∧
              reader.dataStart = roundUp tableEnd ∧
              ∀ front,
                front <+: buffer →
                  front.length < tableEnd →
                    ∃ error,
                      Reader.parse front = .error error ∧
                        isTruncation error = true := by
  refine ⟨?_, ?_, ?_⟩
  · intro reader parsed
    obtain ⟨read, stop, ended, -⟩ := parse_eq_ok.mp parsed
    have ends : (header.outcome u64Limit 0 buffer).EndsAt stop := by
      rw [ended]
      rfl
    rw [parse_append ends, parsed]
  · intro error parsed final
    obtain ⟨stop, failed⟩ := failed_of_not_truncation parsed final
    have ends : (header.outcome u64Limit 0 buffer).EndsAt stop := by
      rw [failed]
      rfl
    rw [parse_append ends, parsed]
  · intro reader parsed
    obtain ⟨read, stop, ended, rfl⟩ := parse_eq_ok.mp parsed
    have ends : (header.outcome u64Limit 0 buffer).EndsAt stop := by
      rw [ended]
      rfl
    refine ⟨read, stop, ?_, ?_, ?_⟩
    · rw [Scan.run, ended]
      rfl
    · exact congrArg (· * 32) (divCeil_eq (Nat.succ_pos 31))
    · intro front leads less
      rw [List.prefix_iff_eq_take.mp leads]
      exact parse_take ends less

theorem parse_stable_small :
    Reader.parse (smallHeader.write ++ [1, 2, 3]) =
        .ok { smallHeader.reader with dataStart := 192 } ∧
      Reader.parse ([0x47, 0x47, 0x55, 0x46, 9, 0, 0, 0] ++ [1]) =
        .error (.unsupportedVersion 9) := by
  have short : smallHeader.write.length < u64Limit := by
    rw [smallHeader_length]
    decide
  have parsed := parse_write smallHeader_counted short []
  rw [List.append_nil, smallHeader_length] at parsed
  exact
    ⟨(parse_stable smallHeader.write [1, 2, 3]).1 _ parsed,
      (parse_stable [0x47, 0x47, 0x55, 0x46, 9, 0, 0, 0] [1]).2.1 _
        (by decide +kernel) rfl⟩

end Runa.Fit.Gguf
