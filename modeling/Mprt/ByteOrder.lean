import Mathlib.Data.Nat.ModEq
import Mathlib.Algebra.Order.Ring.Int

/-!
# Fixed-width integers as bytes

A number is written with a given number of bytes, the least significant one first
or last; digits that do not fit are dropped. Bytes are read back as the number they
write, or as a signed number in two's complement.

Reading what was written gives the number modulo the power of the width, and a
signed number of the width gives itself.
-/

namespace ByteOrder

/-- The bytes of a number, the least significant one first. -/
def littleEndian : Nat → Nat → List UInt8
  | 0, _ => []
  | width + 1, value => UInt8.ofNat value :: littleEndian width (value / 256)

/-- The bytes of a number, the most significant one first. -/
def bigEndian (width value : Nat) : List UInt8 := (littleEndian width value).reverse

/-- The number with the given bytes, of which the least significant one is first. -/
def unsigned : List UInt8 → Nat
  | [] => 0
  | byte :: rest => byte.toNat + 256 * unsigned rest

/-- The number in two's complement. -/
def signed (bytes : List UInt8) : Int := Int.bmod (unsigned bytes) (256 ^ bytes.length)

@[simp] theorem littleEndian_length (width value : Nat) :
    (littleEndian width value).length = width := by
  induction width generalizing value with
  | zero => rfl
  | succ width inductionHypothesis => rw [littleEndian, List.length_cons, inductionHypothesis]

@[simp] theorem bigEndian_length (width value : Nat) : (bigEndian width value).length = width := by
  rw [bigEndian, List.length_reverse, littleEndian_length]

/-- Fewer bytes are the first ones. -/
theorem littleEndian_take (width value : Nat) {fewer : Nat} (less : fewer ≤ width) :
    (littleEndian width value).take fewer = littleEndian fewer value := by
  induction fewer generalizing width value with
  | zero => rw [List.take_zero, littleEndian]
  | succ fewer inductionHypothesis =>
    cases width with
    | zero => omega
    | succ width =>
      rw [littleEndian, littleEndian, List.take_succ_cons,
        inductionHypothesis width (value / 256) (Nat.le_of_succ_le_succ less)]

/-- A zero byte below the others multiplies the number by 256. -/
theorem littleEndian_shifted (width value : Nat) :
    littleEndian (width + 1) (256 * value) = 0 :: littleEndian width value := by
  have digit : UInt8.ofNat (256 * value) = 0 := by
    apply UInt8.toNat_inj.mp
    rw [UInt8.toNat_ofNat', Nat.mul_mod_right]
    rfl
  rw [littleEndian, digit, Nat.mul_div_cancel_left value (by decide)]

/-- What is written is read back up to the width. -/
theorem unsigned_littleEndian (width value : Nat) :
    unsigned (littleEndian width value) = value % 256 ^ width := by
  induction width generalizing value with
  | zero => rw [littleEndian, unsigned, Nat.pow_zero, Nat.mod_one]
  | succ width inductionHypothesis =>
    have power : (256 : Nat) ^ (width + 1) = 256 * 256 ^ width := Nat.pow_succ'
    rw [littleEndian, unsigned, inductionHypothesis, UInt8.toNat_ofNat', power]
    exact Nat.mod_mul.symm

/-- Two numbers that agree modulo the width are the same signed number. -/
theorem bmod_congr {first second : Int} {modulus : Nat}
    (same : first % modulus = second % modulus) : first.bmod modulus = second.bmod modulus := by
  rw [Int.bmod, Int.bmod, same]

/-- A signed number is read back from the bytes of a number that agrees with it. -/
theorem signed_littleEndian {width value : Nat} {number : Int}
    (agrees : (value : Int) % (256 ^ width : Nat) = number % (256 ^ width : Nat))
    (least : -((256 ^ width : Nat) : Int) ≤ 2 * number)
    (most : 2 * number < ((256 ^ width : Nat) : Int)) :
    signed (littleEndian width value) = number := by
  have written : ((value % 256 ^ width : Nat) : Int) % (256 ^ width : Nat) =
      number % (256 ^ width : Nat) := by
    rw [Int.natCast_mod, Int.emod_emod_of_dvd _ (Int.dvd_refl _), agrees]
  rw [signed, unsigned_littleEndian, littleEndian_length, bmod_congr written]
  exact Int.bmod_eq_of_le_mul_two (by omega) (by omega)

/-- The most significant byte comes first in the other order. -/
theorem bigEndian_succ (width value : Nat) :
    bigEndian (width + 1) value = UInt8.ofNat (value / 256 ^ width) :: bigEndian width value := by
  have last : ∀ value, littleEndian (width + 1) value =
      littleEndian width value ++ [UInt8.ofNat (value / 256 ^ width)] := by
    induction width with
    | zero => intro value; simp [littleEndian]
    | succ width inductionHypothesis =>
      intro value
      rw [littleEndian, inductionHypothesis (value / 256), Nat.div_div_eq_div_mul, ← Nat.pow_succ']
      rfl
  rw [bigEndian, last, List.reverse_append]
  rfl

end ByteOrder
