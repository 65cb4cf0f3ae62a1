import Mathlib.Algebra.Group.Int.Defs
import Mathlib.Data.Nat.Notation

/-!
# Decimal numbers as text

An integer is written with its decimal digits, behind a minus sign when it is negative.
Different integers are written differently, and no byte but digits and the sign is used. So a
number can be told from what follows it behind any other byte.
-/

namespace Decimal

/-- The digits of a number, in ASCII. -/
def digits (number : Nat) : List UInt8 :=
  (Nat.toDigits 10 number).map (fun digit => UInt8.ofNat digit.toNat)

/-- The minus sign. -/
def minus : UInt8 := 45

/-- The text of an integer. -/
def text : Int → List UInt8
  | .ofNat number => digits number
  | .negSucc number => minus :: digits (number + 1)

/-- The number that some digits stand for. -/
def value (bytes : List UInt8) : Nat :=
  Nat.ofDigitChars 10 (bytes.map (fun byte => Char.ofNat byte.toNat)) 0

/-- A digit is one of ten bytes, and is read back from it. -/
theorem byte_of_digit {digit : Char} (isDigit : digit.isDigit = true) :
    48 ≤ (UInt8.ofNat digit.toNat).toNat ∧ (UInt8.ofNat digit.toNat).toNat ≤ 57 ∧
      Char.ofNat (UInt8.ofNat digit.toNat).toNat = digit := by
  have range : 48 ≤ digit.toNat ∧ digit.toNat ≤ 57 := by
    simpa [Char.isDigit, UInt32.le_iff_toNat_le] using isDigit
  have small : (UInt8.ofNat digit.toNat).toNat = digit.toNat := by
    rw [UInt8.toNat_ofNat']
    omega
  rw [small]
  exact ⟨range.1, range.2, Char.ofNat_toNat digit⟩

/-- Only bytes of digits are used. -/
theorem mem_digits {number : Nat} {byte : UInt8} (member : byte ∈ digits number) :
    48 ≤ byte.toNat ∧ byte.toNat ≤ 57 := by
  obtain ⟨digit, there, rfl⟩ := List.mem_map.mp member
  have isDigit := Nat.isDigit_of_mem_toDigits (by decide) (by decide) there
  exact ⟨(byte_of_digit isDigit).1, (byte_of_digit isDigit).2.1⟩

/-- The number is read back from its digits. -/
theorem value_digits (number : Nat) : value (digits number) = number := by
  have characters : (digits number).map (fun byte => Char.ofNat byte.toNat) =
      Nat.toDigits 10 number := by
    rw [digits, List.map_map]
    refine (List.map_congr_left fun digit there => ?_).trans (List.map_id _)
    exact (byte_of_digit (Nat.isDigit_of_mem_toDigits (by decide) (by decide) there)).2.2
  rw [value, characters, Nat.ofDigitChars_ten_toDigits]

/-- Different numbers have different digits. -/
theorem digits_inj {first second : Nat} : digits first = digits second ↔ first = second := by
  constructor
  · intro same
    rw [← value_digits first, same, value_digits]
  · exact congrArg digits

/-- The sign is no digit. -/
theorem minus_notMem (number : Nat) : minus ∉ digits number :=
  fun member => absurd (mem_digits member).1 (by decide)

/-- Different integers have different texts. -/
theorem text_inj {first second : Int} : text first = text second ↔ first = second := by
  constructor
  · intro same
    cases first with
    | ofNat first =>
      cases second with
      | ofNat second => rw [digits_inj.mp same]
      | negSucc second =>
        refine absurd ?_ (minus_notMem first)
        rw [show digits first = _ from same]
        exact List.mem_cons_self
    | negSucc first =>
      cases second with
      | ofNat second =>
        refine absurd ?_ (minus_notMem second)
        rw [← show _ = digits second from same]
        exact List.mem_cons_self
      | negSucc second =>
        have numbers := digits_inj.mp (List.cons.inj same).2
        rw [Nat.succ.inj numbers]
  · exact congrArg text

/-- A byte that is neither a digit nor the sign is not in a text. -/
theorem notMem_text {byte : UInt8} (noSign : byte ≠ minus)
    (noDigit : byte.toNat < 48 ∨ 57 < byte.toNat) (number : Int) : byte ∉ text number := by
  intro member
  cases number with
  | ofNat number =>
    have range := mem_digits member
    omega
  | negSucc number =>
    rcases List.mem_cons.mp member with same | later
    · exact noSign same
    · have range := mem_digits later
      omega

/-- Two parts before a byte that is in neither are told from what follows. -/
theorem append_cons_inj {first second rest other : List UInt8} {byte : UInt8}
    (notFirst : byte ∉ first) (notSecond : byte ∉ second) :
    first ++ byte :: rest = second ++ byte :: other ↔ first = second ∧ rest = other := by
  induction first generalizing second with
  | nil =>
    cases second with
    | nil => simp
    | cons head tail => simp at notSecond ⊢; exact fun same => absurd same notSecond.1
  | cons head tail inductionHypothesis =>
    cases second with
    | nil => simp at notFirst ⊢; exact fun same => absurd same.symm notFirst.1
    | cons secondHead secondTail =>
      have later := inductionHypothesis (fun member => notFirst (List.mem_cons_of_mem _ member))
        (fun member => notSecond (List.mem_cons_of_mem _ member))
      rw [List.cons_append, List.cons_append, List.cons.injEq, later, List.cons.injEq, and_assoc]

/-- A number is told from what follows behind a byte that no number has. -/
theorem text_append_inj {first second : Int} {rest other : List UInt8} {byte : UInt8}
    (noSign : byte ≠ minus) (noDigit : byte.toNat < 48 ∨ 57 < byte.toNat) :
    text first ++ byte :: rest = text second ++ byte :: other ↔ first = second ∧ rest = other := by
  rw [append_cons_inj (notMem_text noSign noDigit first) (notMem_text noSign noDigit second),
    text_inj]

/-- The number that a text stands for, which may have zeros in front. -/
def read (bytes : List UInt8) : Int :=
  match bytes.dropWhile (fun byte => byte == 48) with
  | [] => 0
  | first :: rest => if first = minus then -(value rest : Int) else value (first :: rest)

theorem value_zero_cons (bytes : List UInt8) : value (48 :: bytes) = value bytes := rfl

/-- Zeros in front are no matter. -/
theorem value_dropWhile (bytes : List UInt8) :
    value (bytes.dropWhile (fun byte => byte == 48)) = value bytes := by
  induction bytes with
  | nil => rfl
  | cons byte rest inductionHypothesis =>
    rw [List.dropWhile_cons]
    split
    · rename_i zero
      rw [inductionHypothesis, eq_of_beq zero, value_zero_cons]
    · rfl

theorem read_text (number : Int) : read (text number) = number := by
  cases number with
  | ofNat number =>
    have same := value_dropWhile (digits number)
    rw [value_digits] at same
    rw [read, show text (.ofNat number) = digits number from rfl]
    split
    · rename_i empty
      rw [empty] at same
      rw [← same]
      rfl
    · rename_i first rest kept
      have member : first ∈ digits number := by
        refine List.dropWhile_subset (fun byte => byte == 48) ?_
        rw [kept]
        exact List.mem_cons_self
      rw [kept] at same
      have unsigned : first ≠ minus := by
        rintro rfl
        exact minus_notMem number member
      rw [if_neg unsigned, same]
      rfl
  | negSucc number =>
    have signed : read (minus :: digits (number + 1)) = -(value (digits (number + 1)) : Int) := rfl
    rw [text, signed, value_digits]
    rfl

/-- A number is read back from a text that is filled up with zeros. -/
theorem read_filled (count : Nat) (number : Int) :
    read (List.replicate count 48 ++ text number) = number := by
  induction count with
  | zero => exact read_text number
  | succ count inductionHypothesis => exact inductionHypothesis

end Decimal
