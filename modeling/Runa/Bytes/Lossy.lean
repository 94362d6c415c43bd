import Runa.Stream.Utf8

/-!
# Decoding UTF-8 with replacements

The text that bytes stand for as `String::from_utf8_lossy` gives it: each
longest beginning of a character that does not become one is replaced by
U+FFFD, and decoding goes on with the byte that did not belong.
`fromUtf8Lossy_encode` says that text comes back from its own encoding.
-/

namespace Runa.Bytes.Lossy

open Runa.Stream.Utf8

/-- U+FFFD -/
def replacement : Char := Char.ofNat 0xFFFD

/-- A character of which some bytes are read. -/
structure Begun where
  /-- the least next byte -/
  low : Nat
  /-- the greatest next byte -/
  high : Nat
  /-- how many bytes come after the next one -/
  more : Nat
  /-- the bits so far -/
  code : Nat
deriving DecidableEq, Repr

/-- What a first byte gives at once, and what it begins. -/
def begin (byte : Nat) : Text × Option Begun :=
  if byte < 0x80 then ([Char.ofNat byte], none)
  else if byte < 0xC2 then ([replacement], none)
  else if byte < 0xE0 then ([], some ⟨0x80, 0xBF, 0, byte - 0xC0⟩)
  else if byte = 0xE0 then ([], some ⟨0xA0, 0xBF, 1, 0⟩)
  else if byte = 0xED then ([], some ⟨0x80, 0x9F, 1, 0xD⟩)
  else if byte < 0xF0 then ([], some ⟨0x80, 0xBF, 1, byte - 0xE0⟩)
  else if byte = 0xF0 then ([], some ⟨0x90, 0xBF, 2, 0⟩)
  else if byte < 0xF4 then ([], some ⟨0x80, 0xBF, 2, byte - 0xF0⟩)
  else if byte = 0xF4 then ([], some ⟨0x80, 0x8F, 2, 4⟩)
  else ([replacement], none)

/-- Decode the rest, in the middle of a character or not. -/
def decode : Option Begun → List UInt8 → Text
  | none, [] => []
  | some _, [] => [replacement]
  | none, byte :: rest =>
      let (chars, begun) := begin byte.toNat
      chars ++ decode begun rest
  | some begun, byte :: rest =>
      if begun.low ≤ byte.toNat ∧ byte.toNat ≤ begun.high then
        let code := begun.code * 64 + (byte.toNat - 0x80)
        if begun.more = 0 then Char.ofNat code :: decode none rest
        else decode (some ⟨0x80, 0xBF, begun.more - 1, code⟩) rest
      else
        let (chars, begun) := begin byte.toNat
        replacement :: chars ++ decode begun rest

/-- `String::from_utf8_lossy` -/
def fromUtf8Lossy (bytes : List UInt8) : Text :=
  decode none bytes

/-- The UTF-8 bytes of a text. -/
def encode (text : Text) : List UInt8 :=
  text.flatMap String.utf8EncodeChar

/-! ## Decoding undoes encoding -/

theorem byte_toNat {n : Nat} (small : n < 256) :
    (UInt8.ofNat n).toNat = n := by
  rw [UInt8.toNat_ofNat']
  omega

/-- A scalar value is below the limit and no surrogate. -/
theorem char_range (char : Char) :
    char.val.toNat < 0xD800 ∨
      0xDFFF < char.val.toNat ∧ char.val.toNat < 0x110000 := by
  rcases char.valid with low | ⟨high, top⟩
  · exact Or.inl low
  · exact Or.inr ⟨high, top⟩

section Steps

variable {low high more code : Nat} {byte : UInt8} {rest : List UInt8}

theorem decode_first {chars : Text} {begun : Option Begun}
    (first : begin byte.toNat = (chars, begun)) :
    decode none (byte :: rest) = chars ++ decode begun rest := by
  rw [decode, first]

theorem decode_next
    (within : low ≤ byte.toNat ∧ byte.toNat ≤ high) :
    decode (some ⟨low, high, more + 1, code⟩) (byte :: rest) =
      decode
        (some ⟨0x80, 0xBF, more, code * 64 + (byte.toNat - 0x80)⟩)
        rest := by
  rw [decode, if_pos within, if_neg (Nat.succ_ne_zero _)]
  rfl

theorem decode_last
    (within : low ≤ byte.toNat ∧ byte.toNat ≤ high) :
    decode (some ⟨low, high, 0, code⟩) (byte :: rest) =
      Char.ofNat (code * 64 + (byte.toNat - 0x80)) ::
        decode none rest := by
  rw [decode, if_pos within, if_pos rfl]

end Steps

theorem begin_two {byte : Nat} (low : 0xC2 ≤ byte) (high : byte < 0xE0) :
    begin byte = ([], some ⟨0x80, 0xBF, 0, byte - 0xC0⟩) := by
  rw [begin, if_neg (by omega), if_neg (by omega), if_pos high]

/-- A byte that begins three, with a second byte that may follow it. -/
theorem begin_three {byte second : Nat}
    (low : 0xE0 ≤ byte) (high : byte < 0xF0)
    (long : byte = 0xE0 → 0xA0 ≤ second)
    (scalar : byte = 0xED → second ≤ 0x9F)
    (continues : 0x80 ≤ second ∧ second ≤ 0xBF) :
    ∃ least greatest,
      begin byte = ([], some ⟨least, greatest, 1, byte - 0xE0⟩) ∧
        least ≤ second ∧ second ≤ greatest := by
  by_cases first : byte = 0xE0
  · subst first
    exact ⟨0xA0, 0xBF, rfl, long rfl, continues.2⟩
  by_cases surrogate : byte = 0xED
  · subst surrogate
    exact ⟨0x80, 0x9F, rfl, continues.1, scalar rfl⟩
  · refine ⟨0x80, 0xBF, ?_, continues⟩
    rw [begin, if_neg (by omega), if_neg (by omega), if_neg (by omega),
      if_neg first, if_neg surrogate, if_pos high]

/-- A byte that begins four, with a second byte that may follow it. -/
theorem begin_four {byte second : Nat}
    (low : 0xF0 ≤ byte) (high : byte ≤ 0xF4)
    (long : byte = 0xF0 → 0x90 ≤ second)
    (scalar : byte = 0xF4 → second ≤ 0x8F)
    (continues : 0x80 ≤ second ∧ second ≤ 0xBF) :
    ∃ least greatest,
      begin byte = ([], some ⟨least, greatest, 2, byte - 0xF0⟩) ∧
        least ≤ second ∧ second ≤ greatest := by
  by_cases first : byte = 0xF0
  · subst first
    exact ⟨0x90, 0xBF, rfl, long rfl, continues.2⟩
  by_cases last : byte = 0xF4
  · subst last
    exact ⟨0x80, 0x8F, rfl, continues.1, scalar rfl⟩
  · refine ⟨0x80, 0xBF, ?_, continues⟩
    rw [begin, if_neg (by omega), if_neg (by omega), if_neg (by omega),
      if_neg (by omega), if_neg (by omega), if_neg (by omega),
      if_neg first, if_pos (by omega)]

section Lengths

variable {n : Nat} {rest : List UInt8}

theorem decode_one (range : n ≤ 0x7F) :
    decode none ([UInt8.ofNat n] ++ rest) =
      Char.ofNat n :: decode none rest := by
  have byte := byte_toNat (n := n) (by omega)
  have first : begin (UInt8.ofNat n).toNat = ([Char.ofNat n], none) := by
    rw [byte, begin, if_pos (by omega)]
  rw [List.singleton_append, decode_first first]
  rfl

theorem decode_two (low : 0x7F < n) (high : n ≤ 0x7FF) :
    decode none
        ([UInt8.ofNat (n / 64 % 0x20 + 0xC0),
            UInt8.ofNat (n % 0x40 + 0x80)] ++ rest) =
      Char.ofNat n :: decode none rest := by
  have lead := byte_toNat (n := n / 64 % 0x20 + 0xC0) (by omega)
  have last := byte_toNat (n := n % 0x40 + 0x80) (by omega)
  have first := @begin_two (n / 64 % 0x20 + 0xC0) (by omega) (by omega)
  have whole :
      (n / 64 % 0x20 + 0xC0 - 0xC0) * 64 + (n % 0x40 + 0x80 - 0x80) =
        n := by
    omega
  rw [← lead] at first
  rw [List.cons_append, List.singleton_append, decode_first first,
    List.nil_append, decode_last (by omega), lead, last, whole]

theorem decode_three (low : 0x7FF < n) (high : n ≤ 0xFFFF)
    (scalar : n < 0xD800 ∨ 0xDFFF < n) :
    decode none
        ([UInt8.ofNat (n / 4096 % 0x10 + 0xE0),
            UInt8.ofNat (n / 64 % 0x40 + 0x80),
            UInt8.ofNat (n % 0x40 + 0x80)] ++ rest) =
      Char.ofNat n :: decode none rest := by
  have lead := byte_toNat (n := n / 4096 % 0x10 + 0xE0) (by omega)
  have second := byte_toNat (n := n / 64 % 0x40 + 0x80) (by omega)
  have last := byte_toNat (n := n % 0x40 + 0x80) (by omega)
  obtain ⟨least, greatest, first, within⟩ :=
    @begin_three (n / 4096 % 0x10 + 0xE0) (n / 64 % 0x40 + 0x80)
      (by omega) (by omega) (by omega) (by omega) (by omega)
  have whole :
      ((n / 4096 % 0x10 + 0xE0 - 0xE0) * 64 +
            (n / 64 % 0x40 + 0x80 - 0x80)) * 64 +
          (n % 0x40 + 0x80 - 0x80) = n := by
    omega
  rw [← lead] at first
  rw [← second] at within
  rw [List.cons_append, List.cons_append, List.singleton_append,
    decode_first first, List.nil_append, decode_next within,
    decode_last (by omega), lead, second, last, whole]

theorem decode_four (low : 0xFFFF < n) (high : n < 0x110000) :
    decode none
        ([UInt8.ofNat (n / 262144 % 0x08 + 0xF0),
            UInt8.ofNat (n / 4096 % 0x40 + 0x80),
            UInt8.ofNat (n / 64 % 0x40 + 0x80),
            UInt8.ofNat (n % 0x40 + 0x80)] ++ rest) =
      Char.ofNat n :: decode none rest := by
  have lead := byte_toNat (n := n / 262144 % 0x08 + 0xF0) (by omega)
  have second := byte_toNat (n := n / 4096 % 0x40 + 0x80) (by omega)
  have third := byte_toNat (n := n / 64 % 0x40 + 0x80) (by omega)
  have last := byte_toNat (n := n % 0x40 + 0x80) (by omega)
  obtain ⟨least, greatest, first, within⟩ :=
    @begin_four (n / 262144 % 0x08 + 0xF0) (n / 4096 % 0x40 + 0x80)
      (by omega) (by omega) (by omega) (by omega) (by omega)
  have whole :
      (((n / 262144 % 0x08 + 0xF0 - 0xF0) * 64 +
              (n / 4096 % 0x40 + 0x80 - 0x80)) * 64 +
            (n / 64 % 0x40 + 0x80 - 0x80)) * 64 +
          (n % 0x40 + 0x80 - 0x80) = n := by
    omega
  rw [← lead] at first
  rw [← second] at within
  rw [List.cons_append, List.cons_append, List.cons_append,
    List.singleton_append, decode_first first, List.nil_append,
    decode_next within, decode_next (by omega), decode_last (by omega),
    lead, second, third, last, whole]

end Lengths

/-- One character comes back, by the length of its encoding. -/
theorem decode_char (char : Char) (rest : List UInt8) :
    decode none (String.utf8EncodeChar char ++ rest) =
      char :: decode none rest := by
  have range := char_range char
  have back : Char.ofNat char.val.toNat = char := Char.ofNat_toNat char
  simp only [String.utf8EncodeChar]
  split_ifs with one two three
  · rw [decode_one one, back]
  · rw [decode_two (by omega) two, back]
  · rw [decode_three (by omega) three (by omega), back]
  · rw [decode_four (by omega) (by omega), back]

/-- Text comes back from its encoding, whatever bytes are behind it. -/
theorem fromUtf8Lossy_encode_append (text : Text) (rest : List UInt8) :
    fromUtf8Lossy (encode text ++ rest) = text ++ fromUtf8Lossy rest := by
  unfold fromUtf8Lossy
  induction text with
  | nil => rfl
  | cons char text induction =>
      rw [encode, List.flatMap_cons, List.append_assoc, decode_char]
      exact congrArg _ induction

theorem fromUtf8Lossy_encode (text : Text) :
    fromUtf8Lossy (encode text) = text := by
  have whole := fromUtf8Lossy_encode_append text []
  rw [List.append_nil] at whole
  exact whole.trans (List.append_nil text)

theorem encode_injective : Function.Injective encode :=
  Function.LeftInverse.injective fromUtf8Lossy_encode

theorem zero_ne_byte {n : Nat} (positive : 0 < n) (small : n < 256) :
    0 ≠ UInt8.ofNat n := by
  intro same
  have numbers := congrArg UInt8.toNat same
  rw [byte_toNat small] at numbers
  exact positive.ne numbers

/-- Only the character NUL has a zero byte. -/
theorem zero_notMem_utf8EncodeChar {char : Char}
    (nonzero : char.val.toNat ≠ 0) : 0 ∉ String.utf8EncodeChar char := by
  have range := char_range char
  simp only [String.utf8EncodeChar]
  split_ifs with one two three
  · rw [List.mem_singleton]
    exact zero_ne_byte (by omega) (by omega)
  · simp only [List.mem_cons, List.not_mem_nil, or_false, not_or]
    exact ⟨zero_ne_byte (by omega) (by omega),
      zero_ne_byte (by omega) (by omega)⟩
  · simp only [List.mem_cons, List.not_mem_nil, or_false, not_or]
    exact ⟨zero_ne_byte (by omega) (by omega),
      zero_ne_byte (by omega) (by omega),
      zero_ne_byte (by omega) (by omega)⟩
  · simp only [List.mem_cons, List.not_mem_nil, or_false, not_or]
    exact ⟨zero_ne_byte (by omega) (by omega),
      zero_ne_byte (by omega) (by omega),
      zero_ne_byte (by omega) (by omega),
      zero_ne_byte (by omega) (by omega)⟩

theorem zero_notMem_encode {text : Text} (plain : '\x00' ∉ text) :
    0 ∉ encode text := by
  intro member
  obtain ⟨char, inside, byte⟩ := List.mem_flatMap.mp member
  apply zero_notMem_utf8EncodeChar _ byte
  intro zero
  apply plain
  have same : char = '\x00' := by
    rw [← Char.ofNat_toNat char]
    exact congrArg Char.ofNat zero
  rwa [← same]

/-- A text whose bytes begin those of another one begins that one. -/
theorem prefix_of_encode {text other : Text}
    (begins : encode text <+: encode other) : text <+: other := by
  obtain ⟨rest, whole⟩ := begins
  refine ⟨fromUtf8Lossy rest, ?_⟩
  rw [← fromUtf8Lossy_encode_append, whole, fromUtf8Lossy_encode]

end Runa.Bytes.Lossy
