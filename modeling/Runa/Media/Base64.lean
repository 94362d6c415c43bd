import Mathlib.Data.List.Basic
import Runa.Bytes.Base64
import Runa.Bytes.Lossy
import Runa.Fallible.Steps

/-!
# Base64

`wav_base64` of `runa-media/src/audio.rs`, `b64` of `runa-cloud/src/media.rs`
and `b64_decode` of `runa/src/serve.rs`.  The two encoders take bytes apart in
their own ways, into the same signs; the decoder, which stops at the first
padding sign, reads the bytes back.
-/

namespace Runa.Media.Base64

open Runa.Bytes.Base64
open Runa.Stream.Utf8 (Text)

/-! ## Encoding -/

def alphabet : Text :=
  ("ABCDEFGHIJKLMNOPQRSTUVWXYZabcdefghijklmnopqrstuvwxyz" ++
    "0123456789+/").toList

/-- `T[index] as char`, where the index is in range -/
def letter (index : Nat) : Option Char :=
  alphabet[index]?

/-- A sign for a byte that is there, and padding for one that is not. -/
def letterIf (present : Bool) (index : Nat) : Option Char :=
  if present then letter index else some '='

/-- Four signs behind a text. -/
def pushSigns (out : Text) (first second third fourth : Option Char) :
    Option Text := do
  return out ++ [← first, ← second, ← third, ← fourth]

/-- `chunks(3)` -/
def chunks : List UInt8 → List (List UInt8)
  | a :: b :: c :: rest => [a, b, c] :: chunks rest
  | [] => []
  | chunk => [chunk]

/-- The body of the loop of `wav_base64`. -/
def pushChunk (out : Text) (chunk : List UInt8) : Option Text := do
  let a : UInt32 := (← chunk[0]?).toUInt32
  let b : UInt32 := (chunk[1]?.getD 0).toUInt32
  let c : UInt32 := (chunk[2]?.getD 0).toUInt32
  let n : UInt32 := a <<< 16 ||| b <<< 8 ||| c
  pushSigns out (letter (n >>> 18).toNat) (letter (n >>> 12 &&& 63).toNat)
    (letterIf (1 < chunk.length) (n >>> 6 &&& 63).toNat)
    (letterIf (2 < chunk.length) (n &&& 63).toNat)

def wavBase64 (wav : List UInt8) : Option Text :=
  (chunks wav).foldlM pushChunk []

section

variable (bytes : List UInt8)

/-- `if i < bytes.len() { bytes[i] } else { 0 }` -/
def byteAt (i : Nat) : Option UInt8 :=
  if i < bytes.length then bytes[i]? else some 0

/-- The loop of `b64`, from an index on. -/
def b64From (i : Nat) (out : Text) : Option Text :=
  if i < bytes.length then do
    let b0 ← bytes[i]?
    let b1 ← byteAt bytes (i + 1)
    let b2 ← byteAt bytes (i + 2)
    let n := bytes.length - i
    let out ←
      pushSigns out (letter (b0 >>> 2).toNat)
        (letter ((b0 &&& 3) <<< 4 ||| b1 >>> 4).toNat)
        (letterIf (2 ≤ n) ((b1 &&& 15) <<< 2 ||| b2 >>> 6).toNat)
        (letterIf (3 ≤ n) (b2 &&& 63).toNat)
    b64From (i + 3) out
  else some out
termination_by bytes.length - i

def b64 : Option Text :=
  b64From bytes 0 []

end

/-! ## Decoding -/

/-- The values of the bytes that are signs, and 255. -/
def table : List UInt8 :=
  (List.range 64).foldl
    (fun t i => t.set (alphabet.getD i '=').toNat (UInt8.ofNat i))
    (List.replicate 256 255)

/-- `T[b as usize]` -/
def value (b : UInt8) : UInt8 :=
  table.getD b.toNat 255

def isAsciiWhitespace (b : UInt8) : Bool :=
  b == 32 || b == 9 || b == 10 || b == 12 || b == 13

/-- What was read, and the values of a group that is not complete. -/
structure Decoder where
  out : List UInt8
  buf : Fin 4 → UInt8
  n : Fin 4

namespace Decoder

def start : Decoder :=
  ⟨[], fun _ => 0, 0⟩

/-- One value more; the fourth completes a group. -/
def push (decoder : Decoder) (v : UInt8) : Decoder :=
  let buf := Function.update decoder.buf decoder.n v
  if decoder.n = 3 then
    { out := decoder.out ++
        [buf 0 <<< 2 ||| buf 1 >>> 4, buf 1 <<< 4 ||| buf 2 >>> 2,
          buf 2 <<< 6 ||| buf 3]
      buf := buf
      n := 0 }
  else { decoder with buf := buf, n := decoder.n + 1 }

/-- The bytes of a group that is not complete. -/
def finish (decoder : Decoder) : List UInt8 :=
  let buf := decoder.buf
  if decoder.n = 2 then decoder.out ++ [buf 0 <<< 2 ||| buf 1 >>> 4]
  else if decoder.n = 3 then
    decoder.out ++
      [buf 0 <<< 2 ||| buf 1 >>> 4, buf 1 <<< 4 ||| buf 2 >>> 2]
  else decoder.out

end Decoder

/-- The loop of `b64_decode`. -/
def decodeLoop (decoder : Decoder) : List UInt8 → Except Text Decoder
  | [] => .ok decoder
  | b :: rest =>
      if b = 61 then .ok decoder
      else if isAsciiWhitespace b then decodeLoop decoder rest
      else if value b = 255 then .error "invalid base64".toList
      else decodeLoop (decoder.push (value b)) rest

def b64Decode (input : Text) : Except Text (List UInt8) :=
  (decodeLoop .start (Bytes.Lossy.encode input)).map Decoder.finish

/-! ## What both encoders write -/

/-- The sign of a number of six bits. -/
def sign (index : Nat) : Char :=
  alphabet.getD index '='

theorem letter_eq {index : Nat} (small : index < 64) :
    letter index = some (sign index) := by
  have within : index < alphabet.length := by
    rw [show alphabet.length = 64 by decide +kernel]
    exact small
  rw [letter, sign, List.getD_eq_getElem?_getD,
    List.getElem?_eq_getElem within, Option.getD_some]

section

variable (a b c : UInt8)

/-- Three bytes in one word of 24 bits. -/
theorem toNat_word :
    (a.toUInt32 <<< 16 ||| b.toUInt32 <<< 8 ||| c.toUInt32).toNat =
      (a.toNat * 2 ^ 8 + b.toNat) * 2 ^ 8 + c.toNat := by
  have topA := a.toNat_lt
  have topB := b.toNat_lt
  have topC := c.toNat_lt
  have first : (a.toUInt32 <<< 16).toNat = a.toNat * 2 ^ 8 * 2 ^ 8 := by
    rw [UInt32.toNat_shiftLeft, UInt8.toNat_toUInt32, Nat.shiftLeft_eq]
    change a.toNat * 65536 % 4294967296 = _
    omega
  have second : (b.toUInt32 <<< 8).toNat = b.toNat * 2 ^ 8 := by
    rw [UInt32.toNat_shiftLeft, UInt8.toNat_toUInt32, Nat.shiftLeft_eq]
    change b.toNat * 256 % 4294967296 = _
    omega
  have high : a.toNat * 2 ^ 8 * 2 ^ 8 ||| b.toNat * 2 ^ 8 =
      (a.toNat * 2 ^ 8 + b.toNat) * 2 ^ 8 := by
    rw [← Nat.shiftLeft_eq _ 8, ← Nat.shiftLeft_eq b.toNat,
      ← Nat.shiftLeft_or_distrib, or_eq_add topB, Nat.shiftLeft_eq]
  rw [UInt32.toNat_or, UInt32.toNat_or, first, second, high,
    UInt8.toNat_toUInt32]
  exact or_eq_add topC _

theorem toNat_and_sixtyThree (word : UInt32) :
    (word &&& 63).toNat = word.toNat % 64 := by
  rw [UInt32.toNat_and]
  exact Nat.and_two_pow_sub_one_eq_mod word.toNat 6

/-- The word of three bytes, six bits at a time. -/
theorem word_sextets {n : UInt32}
    (word : n = a.toUInt32 <<< 16 ||| b.toUInt32 <<< 8 ||| c.toUInt32) :
    [(n >>> 18).toNat, (n >>> 12 &&& 63).toNat, (n >>> 6 &&& 63).toNat,
      (n &&& 63).toNat] = sextets a b c := by
  have topA := a.toNat_lt
  have topB := b.toNat_lt
  have topC := c.toNat_lt
  have whole := toNat_word a b c
  rw [← word] at whole
  rw [toNat_and_sixtyThree, toNat_and_sixtyThree, toNat_and_sixtyThree,
    UInt32.toNat_shiftRight, UInt32.toNat_shiftRight,
    UInt32.toNat_shiftRight, Nat.shiftRight_eq_div_pow,
    Nat.shiftRight_eq_div_pow, Nat.shiftRight_eq_div_pow, whole]
  change [_ / 262144, _ / 4096 % 64, _ / 64 % 64, _] = _
  simp only [sextets, List.cons.injEq, and_true]
  omega

/-- The same numbers, byte by byte. -/
theorem byte_sextets :
    [(a >>> 2).toNat, ((a &&& 3) <<< 4 ||| b >>> 4).toNat,
      ((b &&& 15) <<< 2 ||| c >>> 6).toNat, (c &&& 63).toNat] =
        sextets a b c := by
  have topA := a.toNat_lt
  have topB := b.toNat_lt
  have topC := c.toNat_lt
  have low : (a &&& 3).toNat = a.toNat % 4 :=
    (UInt8.toNat_and a 3).trans
      (Nat.and_two_pow_sub_one_eq_mod a.toNat 2)
  have half : (b &&& 15).toNat = b.toNat % 16 :=
    (UInt8.toNat_and b 15).trans
      (Nat.and_two_pow_sub_one_eq_mod b.toNat 4)
  have most : (c &&& 63).toNat = c.toNat % 64 :=
    (UInt8.toNat_and c 63).trans
      (Nat.and_two_pow_sub_one_eq_mod c.toNat 6)
  have first : (a >>> 2).toNat = a.toNat / 4 :=
    toNat_shiftRight a (by decide : 2 < 8)
  have second : (b >>> 4).toNat = b.toNat / 16 :=
    toNat_shiftRight b (by decide : 4 < 8)
  have third : (c >>> 6).toNat = c.toNat / 64 :=
    toNat_shiftRight c (by decide : 6 < 8)
  have joined : ((a &&& 3) <<< 4 ||| b >>> 4).toNat =
      a.toNat % 4 % 16 * 16 + b.toNat / 16 := by
    rw [← low, ← second]
    apply toNat_join _ _ (by decide : 4 < 8)
    rw [second]
    omega
  have joined' : ((b &&& 15) <<< 2 ||| c >>> 6).toNat =
      b.toNat % 16 % 64 * 4 + c.toNat / 64 := by
    rw [← half, ← third]
    apply toNat_join _ _ (by decide : 2 < 8)
    rw [third]
    omega
  rw [first, joined, joined', most]
  simp only [sextets, List.cons.injEq, and_true, true_and]
  omega

/-- The letters of the numbers of three bytes. -/
theorem letters_of_sextets {w x y z : Nat}
    (same : [w, x, y, z] = sextets a b c) :
    [letter w, letter x, letter y, letter z] =
      (sextets a b c).map fun index => some (sign index) := by
  have each := sextets_lt a b c
  rw [← same] at each ⊢
  simp only [List.forall_mem_cons] at each
  rcases each with ⟨first, second, third, fourth, -⟩
  rw [letter_eq first, letter_eq second, letter_eq third, letter_eq fourth]
  rfl

end

/-- How many bytes there are decides what is padding. -/
theorem pushSigns_sextets (out : Text) {a b c : UInt8} {w x y z : Nat}
    (same : [w, x, y, z] = sextets a b c) (two three : Bool) :
    pushSigns out (letter w) (letter x) (letterIf two y)
        (letterIf three z) =
      some (out ++ (((sextets a b c).take 2).map sign ++
        [if two then sign (b.toNat % 16 * 4 + c.toNat / 64) else '=',
          if three then sign (c.toNat % 64) else '='])) := by
  have letters := letters_of_sextets a b c same
  simp only [sextets, List.map_cons, List.map_nil, List.cons.injEq,
    and_true] at letters
  rcases letters with ⟨first, second, third, fourth⟩
  rw [letterIf, letterIf, first, second, third, fourth]
  cases two <;> cases three <;> rfl

/-- The text of some bytes. -/
abbrev text (bytes : List UInt8) : Text :=
  encoded sign '=' bytes

theorem wavBase64_eq (wav : List UInt8) : wavBase64 wav = some (text wav) := by
  have run : ∀ (rest : List UInt8) (out : Text),
      (chunks rest).foldlM pushChunk out = some (out ++ text rest) := by
    intro rest
    induction rest using encoded.induct with
    | case1 a b c rest induction =>
        intro out
        have here : pushChunk out [a, b, c] =
            some (out ++ (sextets a b c).map sign) :=
          pushSigns_sextets out (word_sextets a b c rfl) true true
        rw [chunks, List.foldlM_cons, here]
        refine (induction _).trans ?_
        rw [List.append_assoc]
        rfl
    | case2 a b =>
        intro out
        exact Option.bind_eq_some_iff.mpr
          ⟨_, pushSigns_sextets out (word_sextets a b 0 rfl) true false, rfl⟩
    | case3 a =>
        intro out
        exact Option.bind_eq_some_iff.mpr
          ⟨_, pushSigns_sextets out (word_sextets a 0 0 rfl) false false,
            rfl⟩
    | case4 =>
        intro out
        exact congrArg some (List.append_nil out).symm
  exact run wav []

/-- The byte so far ahead, or zero. -/
theorem byteAt_append (front rest : List UInt8) (ahead : Nat) :
    byteAt (front ++ rest) (front.length + ahead) =
      some (rest[ahead]?.getD 0) := by
  rw [byteAt, List.length_append,
    List.getElem?_append_right (Nat.le_add_right _ _),
    Nat.add_sub_cancel_left]
  split
  · next within =>
      rw [List.getElem?_eq_getElem (Nat.lt_of_add_lt_add_left within)]
      rfl
  · next beyond =>
      rw [List.getElem?_eq_none (by omega)]
      rfl

/-- One pass of the loop, and the passes behind it. -/
theorem b64From_pass (front rest : List UInt8) (a b c : UInt8) (out : Text)
    (second : rest[0]?.getD 0 = b) (third : rest[1]?.getD 0 = c) :
    b64From (front ++ a :: rest) front.length out =
      b64From (front ++ a :: rest) (front.length + 3)
        (out ++ (((sextets a b c).take 2).map sign ++
          [if 1 ≤ rest.length then sign (b.toNat % 16 * 4 + c.toNat / 64)
            else '=',
            if 2 ≤ rest.length then sign (c.toNat % 64) else '='])) := by
  have here : (front ++ a :: rest)[front.length]? = some a := by simp
  have within : front.length < (front ++ a :: rest).length := by simp
  have left : (front ++ a :: rest).length - front.length = rest.length + 1 := by
    simp
  have ahead := byteAt_append front (a :: rest) 1
  have behind := byteAt_append front (a :: rest) 2
  rw [List.getElem?_cons_succ] at ahead behind
  rw [second] at ahead
  rw [third] at behind
  rw [b64From, if_pos within, here, ahead, behind, left]
  change (pushSigns out _ _ _ _).bind _ = _
  rw [pushSigns_sextets out (byte_sextets a b c)]
  simp only [Option.bind_some, decide_eq_true_eq, Nat.succ_le_succ_iff]

theorem b64_eq (bytes : List UInt8) : b64 bytes = some (text bytes) := by
  have run : ∀ (rest front : List UInt8) (out : Text),
      b64From (front ++ rest) front.length out = some (out ++ text rest) := by
    intro rest
    induction rest using encoded.induct with
    | case1 a b c rest induction =>
        intro front out
        have onward := induction (front ++ [a, b, c])
          (out ++ (sextets a b c).map sign)
        rw [List.append_assoc, List.length_append, List.append_assoc]
          at onward
        rw [b64From_pass front (b :: c :: rest) a b c out rfl rfl]
        exact onward
    | case2 a b =>
        intro front out
        rw [b64From_pass front [b] a b 0 out rfl rfl, b64From, if_neg]
        · rfl
        · simp
    | case3 a =>
        intro front out
        rw [b64From_pass front [] a 0 0 out rfl rfl, b64From, if_neg]
        · rfl
        · simp
    | case4 =>
        intro front out
        rw [b64From, if_neg]
        · exact congrArg some (List.append_nil out).symm
        · simp
  exact run bytes [] []

/-! ## What the decoder reads -/

/-- A sign is one byte, which has the value that the sign was chosen for. -/
theorem sign_byte : ∀ index < 64,
    (String.utf8EncodeChar (sign index)).map (fun byte =>
        (byte == 61, isAsciiWhitespace byte, value byte)) =
      [(false, false, UInt8.ofNat index)] := by
  decide +kernel

theorem decodeLoop_sign (decoder : Decoder) {index : Nat} (small : index < 64)
    (rest : Text) :
    decodeLoop decoder (Bytes.Lossy.encode (sign index :: rest)) =
      decodeLoop (decoder.push (UInt8.ofNat index))
        (Bytes.Lossy.encode rest) := by
  have known := sign_byte index small
  rw [List.map_eq_singleton_iff] at known
  rcases known with ⟨byte, bytes, told⟩
  simp only [Prod.mk.injEq, beq_eq_false_iff_ne] at told
  rcases told with ⟨noPad, noBlank, stands⟩
  have proper : UInt8.ofNat index ≠ 255 := by
    intro same
    have number := congrArg UInt8.toNat same
    rw [UInt8.toNat_ofNat', Nat.mod_eq_of_lt (by omega)] at number
    change index = 255 at number
    omega
  rw [Bytes.Lossy.encode, List.flatMap_cons, bytes, List.singleton_append,
    decodeLoop, if_neg noPad, noBlank, if_neg Bool.false_ne_true, stands,
    if_neg proper]
  rfl

/-- Signs are read one after the other. -/
theorem decodeLoop_signs {indices : List Nat}
    (small : ∀ index ∈ indices, index < 64) (decoder : Decoder)
    (rest : Text) :
    decodeLoop decoder (Bytes.Lossy.encode (indices.map sign ++ rest)) =
      decodeLoop
        (indices.foldl
          (fun decoder index => decoder.push (UInt8.ofNat index)) decoder)
        (Bytes.Lossy.encode rest) := by
  induction indices generalizing decoder with
  | nil => rfl
  | cons index indices induction =>
      rcases List.forall_mem_cons.mp small with ⟨here, there⟩
      rw [List.map_cons, List.cons_append, decodeLoop_sign decoder here,
        List.foldl_cons, induction there]

theorem decodeLoop_pad (decoder : Decoder) (rest : Text) :
    decodeLoop decoder (Bytes.Lossy.encode ('=' :: rest)) = .ok decoder :=
  rfl

section

variable {decoder : Decoder} (w x y z : UInt8)

theorem push_two (empty : decoder.n = 0) :
    ((decoder.push w).push x).finish =
      decoder.out ++ (ofSextets w x 0 0).take 1 := by
  rcases decoder with ⟨out, buf, n⟩
  subst empty
  rfl

theorem push_three (empty : decoder.n = 0) :
    (((decoder.push w).push x).push y).finish =
      decoder.out ++ (ofSextets w x y 0).take 2 := by
  rcases decoder with ⟨out, buf, n⟩
  subst empty
  rfl

theorem push_four (empty : decoder.n = 0) :
    ((((decoder.push w).push x).push y).push z).n = 0 ∧
      ((((decoder.push w).push x).push y).push z).out =
        decoder.out ++ ofSextets w x y z := by
  rcases decoder with ⟨out, buf, n⟩
  subst empty
  exact ⟨rfl, rfl⟩

end

/-- The numbers of three bytes, as bytes, make them again. -/
theorem ofSextets_ofNat (a b c : UInt8) :
    ofSextets (UInt8.ofNat (a.toNat / 4))
        (UInt8.ofNat (a.toNat % 4 * 16 + b.toNat / 16))
        (UInt8.ofNat (b.toNat % 16 * 4 + c.toNat / 64))
        (UInt8.ofNat (c.toNat % 64)) = [a, b, c] := by
  apply ofSextets_sextets
  have each := sextets_lt a b c
  simp only [sextets, List.forall_mem_cons] at each
  rcases each with ⟨first, second, third, fourth, -⟩
  simp only [List.map_cons, List.map_nil, UInt8.toNat_ofNat', sextets,
    List.cons.injEq, and_true]
  omega

/-- A text is read as the bytes it is of. -/
theorem decode_text (bytes : List UInt8) :
    b64Decode (text bytes) = .ok bytes := by
  have run : ∀ (rest : List UInt8) (decoder : Decoder), decoder.n = 0 →
      (decodeLoop decoder (Bytes.Lossy.encode (text rest))).map
          Decoder.finish = .ok (decoder.out ++ rest) := by
    intro rest
    induction rest using encoded.induct with
    | case1 a b c rest induction =>
        intro decoder empty
        rcases push_four (UInt8.ofNat (a.toNat / 4))
            (UInt8.ofNat (a.toNat % 4 * 16 + b.toNat / 16))
            (UInt8.ofNat (b.toNat % 16 * 4 + c.toNat / 64))
            (UInt8.ofNat (c.toNat % 64)) empty with ⟨again, out⟩
        rw [text, encoded, decodeLoop_signs (sextets_lt a b c)]
        refine (induction _ again).trans ?_
        rw [out, ofSextets_ofNat, List.append_assoc]
        rfl
    | case2 a b =>
        intro decoder empty
        have small : ∀ index ∈ (sextets a b 0).take 3, index < 64 :=
          fun index member =>
            sextets_lt a b 0 index (List.mem_of_mem_take member)
        rw [text, encoded, decodeLoop_signs small, decodeLoop_pad]
        refine congrArg Except.ok ((push_three _ _ _ empty).trans ?_)
        exact congrArg (decoder.out ++ List.take 2 ·) (ofSextets_ofNat a b 0)
    | case3 a =>
        intro decoder empty
        have small : ∀ index ∈ (sextets a 0 0).take 2, index < 64 :=
          fun index member =>
            sextets_lt a 0 0 index (List.mem_of_mem_take member)
        rw [text, encoded, decodeLoop_signs small, decodeLoop_pad]
        refine congrArg Except.ok ((push_two _ _ empty).trans ?_)
        exact congrArg (decoder.out ++ List.take 1 ·) (ofSextets_ofNat a 0 0)
    | case4 =>
        intro decoder empty
        rcases decoder with ⟨out, buf, n⟩
        subst empty
        exact congrArg Except.ok (List.append_nil out).symm
  exact run bytes .start rfl

/--
The two encoders write the same text for all bytes, and it is decoded to
them.
-/
theorem base64_round_trip (bytes : List UInt8) :
    ∃ encoding, wavBase64 bytes = some encoding ∧
      b64 bytes = some encoding ∧ b64Decode encoding = .ok bytes :=
  ⟨text bytes, wavBase64_eq bytes, b64_eq bytes, decode_text bytes⟩

end Runa.Media.Base64
