import Mathlib.Algebra.GroupWithZero.Nat
import Mathlib.Algebra.Order.Group.Nat
import Mathlib.Tactic.Common

/-!
# Base 64

Bytes as numbers of six bits: three bytes are four of them, one byte behind
the last three is two and two bytes are three.  The signs of the numbers and
the padding to four of them are added in `encoded`.  Putting the bits of two
numbers side by side is `toNat_join`, for machine integers that a reader of
sextets and a writer of them compute with.
-/

namespace Runa.Bytes.Base64

/-! ## Bits side by side -/

section

variable {low shift : Nat}

theorem or_eq_add (small : low < 2 ^ shift) (high : Nat) :
    high * 2 ^ shift ||| low = high * 2 ^ shift + low := by
  rw [Nat.mul_comm]
  exact (Nat.two_pow_add_eq_or_of_lt small high).symm

theorem toNat_ofNat_shift (within : shift < 8) :
    (UInt8.ofNat shift).toNat % 8 = shift := by
  rw [UInt8.toNat_ofNat']
  omega

theorem toNat_shiftRight (byte : UInt8) (within : shift < 8) :
    (byte >>> UInt8.ofNat shift).toNat = byte.toNat / 2 ^ shift := by
  rw [UInt8.toNat_shiftRight, toNat_ofNat_shift within,
    Nat.shiftRight_eq_div_pow]

/-- The bits that are moved out of a byte are lost. -/
theorem toNat_shiftLeft (byte : UInt8) (within : shift < 8) :
    (byte <<< UInt8.ofNat shift).toNat =
      byte.toNat % 2 ^ (8 - shift) * 2 ^ shift := by
  have whole : 2 ^ 8 = 2 ^ shift * 2 ^ (8 - shift) := by
    rw [← Nat.pow_add, Nat.add_sub_cancel' (Nat.le_of_lt within)]
  rw [UInt8.toNat_shiftLeft, toNat_ofNat_shift within, Nat.shiftLeft_eq,
    whole, Nat.mul_comm byte.toNat, Nat.mul_mod_mul_left, Nat.mul_comm]

theorem toNat_join (high byte : UInt8) (within : shift < 8)
    (small : byte.toNat < 2 ^ shift) :
    (high <<< UInt8.ofNat shift ||| byte).toNat =
      high.toNat % 2 ^ (8 - shift) * 2 ^ shift + byte.toNat := by
  rw [UInt8.toNat_or, toNat_shiftLeft high within, or_eq_add small]

end

/-! ## Sextets -/

/-- The numbers of six bits of three bytes. -/
def sextets (a b c : UInt8) : List Nat :=
  [a.toNat / 4, a.toNat % 4 * 16 + b.toNat / 16,
    b.toNat % 16 * 4 + c.toNat / 64, c.toNat % 64]

theorem sextets_lt (a b c : UInt8) : ∀ sextet ∈ sextets a b c, sextet < 64 := by
  have first := a.toNat_lt
  have second := b.toNat_lt
  have third := c.toNat_lt
  simp only [sextets, List.forall_mem_cons]
  exact ⟨by omega, by omega, by omega, by omega, nofun⟩

/-- The signs of the numbers, and the padding. -/
def encoded (sign : Nat → Char) (pad : Char) : List UInt8 → List Char
  | a :: b :: c :: rest => (sextets a b c).map sign ++ encoded sign pad rest
  | [a, b] => ((sextets a b 0).take 3).map sign ++ [pad]
  | [a] => ((sextets a 0 0).take 2).map sign ++ [pad, pad]
  | [] => []

/-! ## Bytes of sextets -/

/-- Three bytes of four numbers of six bits. -/
def ofSextets (w x y z : UInt8) : List UInt8 :=
  [w <<< 2 ||| x >>> 4, x <<< 4 ||| y >>> 2, y <<< 6 ||| z]

section

variable {w x y z : UInt8}

theorem toNat_first (small : x.toNat < 64) :
    (w <<< 2 ||| x >>> 4).toNat = w.toNat % 64 * 4 + x.toNat / 16 := by
  have low : (x >>> 4).toNat = x.toNat / 16 :=
    toNat_shiftRight x (by decide : 4 < 8)
  rw [← low]
  apply toNat_join w (x >>> 4) (by decide : 2 < 8)
  rw [low]
  omega

theorem toNat_second (small : y.toNat < 64) :
    (x <<< 4 ||| y >>> 2).toNat = x.toNat % 16 * 16 + y.toNat / 4 := by
  have low : (y >>> 2).toNat = y.toNat / 4 :=
    toNat_shiftRight y (by decide : 2 < 8)
  rw [← low]
  apply toNat_join x (y >>> 2) (by decide : 4 < 8)
  rw [low]
  omega

theorem toNat_third (small : z.toNat < 64) :
    (y <<< 6 ||| z).toNat = y.toNat % 4 * 64 + z.toNat :=
  toNat_join y z (by decide : 6 < 8) small

end

/-- Taking bytes apart is undone. -/
theorem ofSextets_sextets {a b c w x y z : UInt8}
    (same : [w, x, y, z].map UInt8.toNat = sextets a b c) :
    ofSextets w x y z = [a, b, c] := by
  have each := sextets_lt a b c
  rw [← same] at each
  simp only [List.map_cons, List.map_nil, List.forall_mem_cons, sextets,
    List.cons.injEq, and_true] at each same
  rcases each with ⟨_, smallX, smallY, smallZ, -⟩
  rcases same with ⟨sameW, sameX, sameY, sameZ⟩
  have topA := a.toNat_lt
  have topB := b.toNat_lt
  have topC := c.toNat_lt
  have first : w <<< 2 ||| x >>> 4 = a := by
    apply UInt8.toNat_inj.mp
    rw [toNat_first smallX]
    omega
  have second : x <<< 4 ||| y >>> 2 = b := by
    apply UInt8.toNat_inj.mp
    rw [toNat_second smallY]
    omega
  have third : y <<< 6 ||| z = c := by
    apply UInt8.toNat_inj.mp
    rw [toNat_third smallZ]
    omega
  rw [ofSextets, first, second, third]

end Runa.Bytes.Base64
