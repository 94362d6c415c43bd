import Mathlib.Algebra.GroupWithZero.Nat
import Mathlib.Algebra.Order.Group.Nat
import Mathlib.Tactic.Common

/-!
# Little-endian numbers

Natural numbers as bytes, the lowest first: reading any bytes, writing a
number with so many bytes, and that reading undoes writing.
-/

namespace Runa.Bytes.LittleEndian

/-- The number that bytes stand for. -/
def leNat : List UInt8 → Nat
  | [] => 0
  | byte :: rest => byte.toNat + 256 * leNat rest

/-- The lowest bytes of a number. -/
def leBytes : Nat → Nat → List UInt8
  | 0, _ => []
  | width + 1, n => UInt8.ofNat n :: leBytes width (n / 256)

@[simp]
theorem leBytes_length (width n : Nat) :
    (leBytes width n).length = width := by
  induction width generalizing n with
  | zero => rfl
  | succ width induction => rw [leBytes, List.length_cons, induction]

/-- Reading undoes writing, where there are enough bytes. -/
theorem leNat_leBytes {width n : Nat} (small : n < 256 ^ width) :
    leNat (leBytes width n) = n := by
  induction width generalizing n with
  | zero =>
      rw [Nat.pow_zero] at small
      rw [leBytes, leNat]
      omega
  | succ width induction =>
      rw [Nat.pow_succ] at small
      have rest : n / 256 < 256 ^ width :=
        Nat.div_lt_of_lt_mul (by omega)
      rw [leBytes, leNat, induction rest, UInt8.toNat_ofNat']
      omega

/-- Writing undoes reading. -/
theorem leBytes_leNat (bytes : List UInt8) :
    leBytes bytes.length (leNat bytes) = bytes := by
  induction bytes with
  | nil => rfl
  | cons byte rest induction =>
      have low := byte.toNat_lt
      have here : UInt8.ofNat (byte.toNat + 256 * leNat rest) = byte := by
        apply UInt8.toNat_inj.mp
        rw [UInt8.toNat_ofNat']
        omega
      have there : (byte.toNat + 256 * leNat rest) / 256 = leNat rest := by
        omega
      rw [leNat, List.length_cons, leBytes, here, there, induction]

/-- What does not fit is dropped. -/
theorem leBytes_add_mul (width n more : Nat) :
    leBytes width (n + 256 ^ width * more) = leBytes width n := by
  induction width generalizing n with
  | zero => rfl
  | succ width induction =>
      have low : n + 256 ^ (width + 1) * more =
          n + 256 * (256 ^ width * more) := by
        rw [Nat.pow_succ, Nat.mul_comm (256 ^ width), Nat.mul_assoc]
      have byte : UInt8.ofNat (n + 256 * (256 ^ width * more)) =
          UInt8.ofNat n := by
        apply UInt8.toNat_inj.mp
        rw [UInt8.toNat_ofNat', UInt8.toNat_ofNat']
        omega
      have rest : (n + 256 * (256 ^ width * more)) / 256 =
          n / 256 + 256 ^ width * more := by
        omega
      rw [low, leBytes, leBytes, byte, rest, induction]

theorem leNat_lt (bytes : List UInt8) :
    leNat bytes < 256 ^ bytes.length := by
  induction bytes with
  | nil => decide
  | cons byte rest induction =>
      have low := byte.toNat_lt
      rw [leNat, List.length_cons, Nat.pow_succ]
      omega

/-- The first bytes are the low part of a number. -/
theorem leNat_append (front back : List UInt8) :
    leNat (front ++ back) =
      leNat front + 256 ^ front.length * leNat back := by
  induction front with
  | nil => simp [leNat]
  | cons byte front induction =>
      rw [List.cons_append, leNat, leNat, induction, List.length_cons,
        Nat.pow_succ, Nat.mul_add, ← Nat.add_assoc, ← Nat.mul_assoc,
        Nat.mul_comm 256 (256 ^ front.length)]

@[simp]
theorem leNat_replicate_zero (count : Nat) :
    leNat (List.replicate count 0) = 0 := by
  induction count with
  | zero => rfl
  | succ count induction =>
      rw [List.replicate_succ, leNat, induction]
      rfl

end Runa.Bytes.LittleEndian
