import Mathlib.Data.List.Basic
import Mathlib.Data.UInt

/-!
# Base64

Three bytes are written as four characters of six bits each. One or two bytes at the
end are written as two or three characters, and the text is padded to a multiple of
four.

A text is read as far as it consists of characters of the alphabet; its bits are cut
into bytes, and those that fill no byte are dropped. What was written is read back.
-/

namespace Base64

/-- The character of six bits. -/
def character (sextet : Nat) : UInt8 :=
  if sextet < 26 then .ofNat (65 + sextet)
  else if sextet < 52 then .ofNat (71 + sextet)
  else if sextet < 62 then .ofNat (sextet - 4)
  else if sextet = 62 then 43
  else 47

/-- The six bits of a character, if it is one of the alphabet. -/
def value (char : UInt8) : Option Nat :=
  if 65 ≤ char ∧ char ≤ 90 then some (char.toNat - 65)
  else if 97 ≤ char ∧ char ≤ 122 then some (char.toNat - 71)
  else if 48 ≤ char ∧ char ≤ 57 then some (char.toNat + 4)
  else if char = 43 then some 62
  else if char = 47 then some 63
  else none

/-- The character that pads a text. -/
def padding : UInt8 := 61

def encode : List UInt8 → List UInt8
  | first :: second :: third :: rest =>
      character (first.toNat / 4) :: character (first.toNat % 4 * 16 + second.toNat / 16) ::
        character (second.toNat % 16 * 4 + third.toNat / 64) :: character (third.toNat % 64) ::
          encode rest
  | [first, second] =>
      [character (first.toNat / 4), character (first.toNat % 4 * 16 + second.toNat / 16),
        character (second.toNat % 16 * 4), padding]
  | [first] =>
      [character (first.toNat / 4), character (first.toNat % 4 * 16), padding, padding]
  | [] => []

/-- The values of the characters up to the first that is not in the alphabet. -/
def sextets : List UInt8 → List Nat
  | [] => []
  | char :: rest =>
    match value char with
    | some sextet => sextet :: sextets rest
    | none => []

/-- The whole bytes of a sequence of six bits each. -/
def bytes : List Nat → List UInt8
  | first :: second :: third :: fourth :: rest =>
      .ofNat (first * 4 + second / 16) :: .ofNat (second % 16 * 16 + third / 4) ::
        .ofNat (third % 4 * 64 + fourth) :: bytes rest
  | [first, second, third] =>
      [.ofNat (first * 4 + second / 16), .ofNat (second % 16 * 16 + third / 4)]
  | [first, second] => [.ofNat (first * 4 + second / 16)]
  | [_] => []
  | [] => []

/-- The decoding of the longest prefix of characters of the alphabet. -/
def decode (text : List UInt8) : List UInt8 := bytes (sextets text)

/-- Each character stands for its six bits. -/
theorem value_character {sextet : Nat} (below : sextet < 64) :
    value (character sextet) = some sextet := by
  have all : ∀ sextet : Fin 64, value (character sextet) = some sextet.val := by decide
  exact all ⟨sextet, below⟩

/-- No byte past those of ASCII is a character of the alphabet. -/
theorem value_high {char : UInt8} (high : 128 ≤ char.toNat) : value char = none := by
  simp only [value, UInt8.le_iff_toNat_le, ← UInt8.toNat_inj, UInt8.reduceToNat]
  grind

theorem value_padding : value padding = none := by decide

/-- A value has six bits. -/
theorem value_lt {char : UInt8} {sextet : Nat} (found : value char = some sextet) :
    sextet < 64 := by
  simp only [value, UInt8.le_iff_toNat_le, UInt8.reduceToNat] at found
  grind

/-- A character of the alphabet is read first. -/
theorem sextets_cons {char : UInt8} {sextet : Nat} (found : value char = some sextet)
    (rest : List UInt8) : sextets (char :: rest) = sextet :: sextets rest := by
  rw [sextets, found]

/-- Any other character ends the reading. -/
theorem sextets_stop {char : UInt8} (missing : value char = none) (rest : List UInt8) :
    sextets (char :: rest) = [] := by
  rw [sextets, missing]

theorem sextets_character {sextet : Nat} (below : sextet < 64) (rest : List UInt8) :
    sextets (character sextet :: rest) = sextet :: sextets rest :=
  sextets_cons (value_character below) rest

theorem sextets_padding (rest : List UInt8) : sextets (padding :: rest) = [] :=
  sextets_stop value_padding rest

/-- No more values are read than there are characters. -/
theorem sextets_length_le (text : List UInt8) : (sextets text).length ≤ text.length := by
  induction text with
  | nil => exact Nat.le_refl 0
  | cons char rest inductionHypothesis =>
    cases found : value char with
    | none =>
      rw [sextets_stop found]
      exact Nat.zero_le _
    | some first =>
      rw [sextets_cons found]
      exact Nat.succ_le_succ inductionHypothesis

/-- A byte is its number. -/
theorem ofNat_eq (byte : UInt8) {number : Nat} (same : number = byte.toNat) :
    UInt8.ofNat number = byte := by
  rw [same, UInt8.ofNat_toNat]

/-- What was written is read back. The induction takes three bytes at a time. -/
theorem decode_encode (data : List UInt8) : decode (encode data) = data := by
  rw [decode]
  induction data using encode.induct with
  | case1 first second third rest inductionHypothesis =>
    have firstBelow := first.toNat_lt
    have secondBelow := second.toNat_lt
    have thirdBelow := third.toNat_lt
    rw [encode, sextets_character (by omega), sextets_character (by omega),
      sextets_character (by omega), sextets_character (by omega), bytes, inductionHypothesis,
      ofNat_eq first (by omega), ofNat_eq second (by omega),
      ofNat_eq third (by omega)]
  | case2 first second =>
    have firstBelow := first.toNat_lt
    have secondBelow := second.toNat_lt
    rw [encode, sextets_character (by omega), sextets_character (by omega),
      sextets_character (by omega), sextets_padding, bytes]
    congr 1
    · exact ofNat_eq first (by omega)
    · congr 1
      exact ofNat_eq second (by omega)
  | case3 first =>
    have firstBelow := first.toNat_lt
    rw [encode, sextets_character (by omega), sextets_character (by omega), sextets_padding,
      bytes]
    congr 1
    exact ofNat_eq first (by omega)
  | case4 => rfl

end Base64
