import Mathlib.Algebra.Order.Group.Nat
import Mathlib.Data.UInt
import Mathlib.Tactic.Ring

/-!
# Little-endian numbers

A stream of bits, least significant first, is a number; its bytes are the number's digits in base
256, the least significant one first. Cutting the stream is division, joining two streams is a sum.

## Main definitions

* `toLittleEndian width n` — the `width` lowest bytes of `n`

## Main results

* `toLittleEndian_add` — the lowest bytes, and then those of the quotient
* `toLittleEndian_add_mul` — what is joined above does not change the bytes below
* `toLittleEndian_succ_byte` — a byte that is joined above is the last one
* `or_shiftLeft` — joining by a bitwise or
-/

namespace OpenQSP

/-- `n.to_bytes(width, "little")`, of the lowest bytes. -/
def toLittleEndian : ℕ → ℕ → List UInt8
  | 0, _ => []
  | width + 1, n => UInt8.ofNat n :: toLittleEndian width (n / 256)

theorem two_pow_eight_mul_succ (width : ℕ) : 2 ^ (8 * (width + 1)) = 256 * 2 ^ (8 * width) := by
  rw [Nat.mul_succ, pow_add, Nat.mul_comm]
  rfl

@[simp] theorem length_toLittleEndian (width n : ℕ) : (toLittleEndian width n).length = width := by
  induction width generalizing n with
  | zero => rfl
  | succ width ih => rw [toLittleEndian, List.length_cons, ih]

theorem toLittleEndian_add (width width' n : ℕ) : toLittleEndian (width + width') n =
    toLittleEndian width n ++ toLittleEndian width' (n / 2 ^ (8 * width)) := by
  induction width generalizing n with
  | zero => rw [Nat.zero_add, Nat.mul_zero, pow_zero, Nat.div_one]; rfl
  | succ width ih =>
    rw [Nat.succ_add, toLittleEndian, toLittleEndian, ih, List.cons_append, Nat.div_div_eq_div_mul,
      two_pow_eight_mul_succ]

theorem toLittleEndian_add_mul (width n k : ℕ) :
    toLittleEndian width (n + 2 ^ (8 * width) * k) = toLittleEndian width n := by
  induction width generalizing n with
  | zero => rfl
  | succ width ih =>
    have hbyte : UInt8.ofNat (n + 2 ^ (8 * (width + 1)) * k) = UInt8.ofNat n := by
      refine UInt8.toNat_inj.mp ?_
      show (n + 2 ^ (8 * (width + 1)) * k) % 256 = n % 256
      rw [two_pow_eight_mul_succ, Nat.mul_assoc, Nat.add_mul_mod_self_left]
    have hdiv : (n + 2 ^ (8 * (width + 1)) * k) / 256 = n / 256 + 2 ^ (8 * width) * k := by
      rw [two_pow_eight_mul_succ, Nat.mul_assoc, Nat.add_mul_div_left _ _ (by decide)]
    rw [toLittleEndian, toLittleEndian, hbyte, hdiv, ih]

theorem toLittleEndian_succ_byte {width n : ℕ} (h : n < 2 ^ (8 * width)) (byte : UInt8) :
    toLittleEndian (width + 1) (n + 2 ^ (8 * width) * byte.toNat) =
      toLittleEndian width n ++ [byte] := by
  rw [toLittleEndian_add, toLittleEndian_add_mul, Nat.add_mul_div_left _ _ (Nat.two_pow_pos _),
    Nat.div_eq_of_lt h, Nat.zero_add, toLittleEndian, toLittleEndian]
  have hbyte : UInt8.ofNat byte.toNat = byte := UInt8.ofNat_toNat
  rw [hbyte]

/-- Bits that are joined above others are added. -/
theorem or_shiftLeft {a width : ℕ} (h : a < 2 ^ width) (b : ℕ) :
    a ||| b <<< width = a + 2 ^ width * b := by
  rw [Nat.or_comm, ← Nat.shiftLeft_add_eq_or_of_lt h, Nat.shiftLeft_eq, Nat.mul_comm, Nat.add_comm]

end OpenQSP
