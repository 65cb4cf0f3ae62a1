import Mprt.Base64

/-!
# Embedded art as base64 text

`convert_base_64` reads a NUL-terminated text character by character and writes each
byte to the destination as soon as its bits are known. It keeps the bits of the last
character, and in one of four levels how many of them have been written.

The callers give it a destination with as many bytes as the text has characters. The
counter of the loop is a signed number of 32 bits that is compared with this size; past
its range it is never equal to the size, and the loop ends with the text.
-/

namespace Mprt.ConvertBase64

/-- `b64`: the values of the 256 characters. -/
def b64 : List Int :=
  [-1,-1,-1,-1,-1,-1,-1,-1,-1,-1,-1,-1,-1,-1,-1,-1,
   -1,-1,-1,-1,-1,-1,-1,-1,-1,-1,-1,-1,-1,-1,-1,-1,
   -1,-1,-1,-1,-1,-1,-1,-1,-1,-1,-1,62,-1,-1,-1,63,
   52,53,54,55,56,57,58,59,60,61,-1,-1,-1,-1,-1,-1,
   -1, 0, 1, 2, 3, 4, 5, 6, 7, 8, 9,10,11,12,13,14,
   15,16,17,18,19,20,21,22,23,24,25,-1,-1,-1,-1,-1,
   -1,26,27,28,29,30,31,32,33,34,35,36,37,38,39,40,
   41,42,43,44,45,46,47,48,49,50,51,-1,-1,-1,-1,-1,
   -1,-1,-1,-1,-1,-1,-1,-1,-1,-1,-1,-1,-1,-1,-1,-1,
   -1,-1,-1,-1,-1,-1,-1,-1,-1,-1,-1,-1,-1,-1,-1,-1,
   -1,-1,-1,-1,-1,-1,-1,-1,-1,-1,-1,-1,-1,-1,-1,-1,
   -1,-1,-1,-1,-1,-1,-1,-1,-1,-1,-1,-1,-1,-1,-1,-1,
   -1,-1,-1,-1,-1,-1,-1,-1,-1,-1,-1,-1,-1,-1,-1,-1,
   -1,-1,-1,-1,-1,-1,-1,-1,-1,-1,-1,-1,-1,-1,-1,-1,
   -1,-1,-1,-1,-1,-1,-1,-1,-1,-1,-1,-1,-1,-1,-1,-1,
   -1,-1,-1,-1,-1,-1,-1,-1,-1,-1,-1,-1,-1,-1,-1,-1]

/-- The variables of the loop besides the pointer into the text: the level, the last
value, the counter, the distance of the pointer from the beginning of the destination,
and the destination. -/
structure Loop where
  iLevel : Nat
  iLast : Nat
  loopIdx : Int
  pDst : Nat
  albumArt : List UInt8
deriving DecidableEq

/-- `*p_dst++ = byte`, which is no result outside of the destination. -/
def put (byte : Nat) (state : Loop) : Option Loop :=
  if state.pDst < state.albumArt.length then
    some { state with
      pDst := state.pDst + 1
      albumArt := state.albumArt.set state.pDst (.ofNat byte) }
  else none

/-- The switch of the levels. -/
def switch (c : Nat) (state : Loop) : Option Loop :=
  match state.iLevel with
  | 0 => some { state with iLevel := 1 }
  | 1 => (put ((state.iLast <<< 2) ||| ((c >>> 4) &&& 0x03)) state).map
      (fun written => { written with iLevel := 2 })
  | 2 => (put (((state.iLast <<< 4) &&& 0xf0) ||| ((c >>> 2) &&& 0x0f)) state).map
      (fun written => { written with iLevel := 3 })
  | 3 => (put (((state.iLast &&& 0x03) <<< 6) ||| c) state).map
      (fun written => { written with iLevel := 0 })
  | _ => some state

/-- A signed number as it is compared with a size of 64 bits. -/
def toSize (number : Int) : Int := number % 2 ^ 64

/-- The loop, with the bytes from the pointer into the text on. Reading behind them is
no result. -/
def loop : List UInt8 → Loop → Option Loop
  | [], state => if toSize state.loopIdx = state.albumArt.length then some state else none
  | byte :: rest, state =>
    if toSize state.loopIdx ≠ state.albumArt.length ∧ byte ≠ 0 then
      match b64[byte.toNat]? with
      | none => none
      | some c =>
        if c = -1 then some state
        else
          (switch c.toNat state).bind (fun switched =>
            loop rest { switched with
              iLast := c.toNat
              loopIdx := (state.loopIdx + 1).bmod (2 ^ 32) })
    else some state

/-- `convert_base_64`: the destination afterwards. -/
def convertBase64 (albumArt : List UInt8) (src : List UInt8) : Option (List UInt8) :=
  (loop src ⟨0, 0, 0, 0, albumArt⟩).map (fun state => state.albumArt.take state.pDst)

/-- `toCString` of a text: its characters in UTF-8 with a NUL behind them. -/
def toCString (text : List Char) : List UInt8 := text.flatMap String.utf8EncodeChar ++ [0]

/-! ## The levels -/

/-- The table has the values of the alphabet. -/
theorem b64_eq (byte : UInt8) :
    b64[byte.toNat]? = some ((Base64.value byte).elim (-1) (fun sextet => (sextet : Int))) := by
  have table : b64 = (List.range 256).map (fun number =>
      (Base64.value (UInt8.ofNat number)).elim (-1) (fun sextet => (sextet : Int))) := by
    decide +kernel
  rw [table, List.getElem?_map, List.getElem?_range byte.toNat_lt, Option.map_some,
    UInt8.ofNat_toNat]

theorem b64_value {byte : UInt8} {sextet : Nat} (found : Base64.value byte = some sextet) :
    b64[byte.toNat]? = some (sextet : Int) := by
  rw [b64_eq, found, Option.elim_some]

theorem b64_none {byte : UInt8} (missing : Base64.value byte = none) :
    b64[byte.toNat]? = some (-1) := by
  rw [b64_eq, missing, Option.elim_none]

/-- The bits that level 1 writes. -/
theorem first_byte {last c : Nat} (below : c < 64) :
    (last <<< 2) ||| ((c >>> 4) &&& 0x03) = last * 4 + c / 16 := by
  have low : ∀ c : Fin 64, (c.val >>> 4) &&& 0x03 = c.val / 16 := by decide
  have small : c / 2 ^ 4 < 2 ^ 2 := by omega
  have joined := Nat.two_pow_add_eq_or_of_lt small last
  rw [low ⟨c, below⟩, Nat.shiftLeft_eq, Nat.mul_comm last]
  exact joined.symm

/-- The bits that level 2 writes. -/
theorem second_byte {last c : Nat} (lastBelow : last < 64) (below : c < 64) :
    ((last <<< 4) &&& 0xf0) ||| ((c >>> 2) &&& 0x0f) = last % 16 * 16 + c / 4 := by
  have high : ∀ last : Fin 64, (last.val <<< 4) &&& 0xf0 = 2 ^ 4 * (last.val % 16) := by decide
  have low : ∀ c : Fin 64, (c.val >>> 2) &&& 0x0f = c.val / 4 := by decide
  have small : c / 4 < 2 ^ 4 := by omega
  have joined := Nat.two_pow_add_eq_or_of_lt small (last % 16)
  rw [low ⟨c, below⟩, high ⟨last, lastBelow⟩, Nat.mul_comm (last % 16)]
  exact joined.symm

/-- The bits that level 3 writes. -/
theorem third_byte {last c : Nat} (below : c < 64) :
    ((last &&& 0x03) <<< 6) ||| c = last % 4 * 64 + c := by
  have masked : last &&& 0x03 = last % 4 := Nat.and_two_pow_sub_one_eq_mod last 2
  have small : c < 2 ^ 6 := below
  have joined := Nat.two_pow_add_eq_or_of_lt small (last % 4)
  rw [masked, Nat.shiftLeft_eq, Nat.mul_comm (last % 4)]
  exact joined.symm

/-- The bytes that are written for further values, from a level and a last value on. -/
def pending : Nat → Nat → List Nat → List UInt8
  | _, _, [] => []
  | 0, _, c :: rest => pending 1 c rest
  | 1, last, c :: rest => .ofNat (last * 4 + c / 16) :: pending 2 c rest
  | 2, last, c :: rest => .ofNat (last % 16 * 16 + c / 4) :: pending 3 c rest
  | _, last, c :: rest => .ofNat (last % 4 * 64 + c) :: pending 0 c rest

/-- From the first level on these are the bytes of the values. -/
theorem pending_eq_bytes (last : Nat) (values : List Nat) :
    pending 0 last values = Base64.bytes values := by
  induction values using Base64.bytes.induct generalizing last with
  | case1 first second third fourth rest inductionHypothesis =>
    simp only [pending, Base64.bytes, inductionHypothesis]
  | case2 first second third => rfl
  | case3 first second => rfl
  | case4 first => rfl
  | case5 => rfl

/-- A byte that is written inside of the destination follows those before it. -/
theorem put_inside {state : Loop} (byte : Nat) (room : state.pDst < state.albumArt.length) :
    ∃ written, put byte state = some written ∧ written.pDst = state.pDst + 1 ∧
      written.albumArt.length = state.albumArt.length ∧
      written.albumArt.take written.pDst = state.albumArt.take state.pDst ++ [.ofNat byte] := by
  refine ⟨_, if_pos room, rfl, List.length_set, ?_⟩
  simp only
  rw [List.take_add_one, List.take_set_of_le (Nat.le_refl _), List.getElem?_set_self room]
  rfl

/-- A character writes what its level says inside of the destination, and leaves the
rest to the next level. -/
theorem switch_pending {state : Loop} {c : Nat} (level : state.iLevel < 4) (below : c < 64)
    (lastBelow : state.iLast < 64) (room : state.pDst < state.albumArt.length) :
    ∃ switched, switch c state = some switched ∧ switched.iLevel < 4 ∧
      switched.pDst ≤ state.pDst + 1 ∧ switched.albumArt.length = state.albumArt.length ∧
      ∀ rest, switched.albumArt.take switched.pDst ++ pending switched.iLevel c rest =
        state.albumArt.take state.pDst ++ pending state.iLevel state.iLast (c :: rest) := by
  obtain ⟨iLevel, iLast, loopIdx, pDst, albumArt⟩ := state
  have writes : ∀ (byte next : Nat), next < 4 →
      ∃ switched, (put byte ⟨iLevel, iLast, loopIdx, pDst, albumArt⟩).map
          (fun written => { written with iLevel := next }) = some switched ∧
        switched.iLevel < 4 ∧ switched.pDst ≤ pDst + 1 ∧
        switched.albumArt.length = albumArt.length ∧
        ∀ rest, switched.albumArt.take switched.pDst ++ pending switched.iLevel c rest =
          albumArt.take pDst ++ .ofNat byte :: pending next c rest := by
    intro byte next small
    obtain ⟨written, put, moved, length, bytes⟩ := put_inside byte room
    refine ⟨{ written with iLevel := next }, ?_, small, Nat.le_of_eq moved, length, ?_⟩
    · rw [put, Option.map_some]
    · intro rest
      rw [bytes, List.append_assoc, List.singleton_append]
  match iLevel, level with
  | 0, _ =>
    have next : 1 < 4 := by decide
    exact ⟨_, rfl, next, Nat.le_succ pDst, rfl, fun _ => rfl⟩
  | 1, _ =>
    simp only [switch, first_byte below]
    exact writes _ 2 (by decide)
  | 2, _ =>
    simp only [switch, second_byte lastBelow below]
    exact writes _ 3 (by decide)
  | 3, _ =>
    simp only [switch, third_byte below]
    exact writes _ 0 (by decide)

/-! ## The loop -/

/-- Before the size is reached the counter is not equal to it, whether it is past its
range or not. -/
theorem toSize_ne {count size : Nat} (before : count < size) (below : size < 2 ^ 63) :
    toSize (Int.bmod count (2 ^ 32)) ≠ size := by
  rw [toSize, Int.bmod]
  split <;> omega

/-- The loop writes the bytes of the characters up to the first that is not in the
alphabet. The induction is on the text before the NUL; the counter is the number of
characters read, of which no more than one byte each has been written. -/
theorem loop_decodes {text : List UInt8} (behind : List UInt8) {state : Loop} {count : Nat}
    (below : state.albumArt.length < 2 ^ 63) (level : state.iLevel < 4)
    (lastBelow : state.iLast < 64) (counted : state.loopIdx = Int.bmod count (2 ^ 32))
    (written : state.pDst ≤ count)
    (room : count + (Base64.sextets text).length ≤ state.albumArt.length) :
    ∃ final, loop (text ++ 0 :: behind) state = some final ∧
      final.albumArt.take final.pDst = state.albumArt.take state.pDst ++
        pending state.iLevel state.iLast (Base64.sextets text) := by
  induction text generalizing state count with
  | nil =>
    refine ⟨state, ?_, ?_⟩
    · rw [List.nil_append, loop, if_neg (fun both => both.2 rfl)]
    · rw [Base64.sextets, pending, List.append_nil]
  | cons byte rest inductionHypothesis =>
    rw [List.cons_append, loop]
    cases found : Base64.value byte with
    | none =>
      rw [Base64.sextets_stop found, pending, List.append_nil, b64_none found]
      refine ⟨state, ?_, rfl⟩
      split <;> rfl
    | some sextet =>
      rw [Base64.sextets_cons found] at room ⊢
      rw [List.length_cons] at room
      have goesOn : toSize state.loopIdx ≠ state.albumArt.length ∧ byte ≠ 0 := by
        constructor
        · rw [counted]
          exact toSize_ne (by omega) below
        · rintro rfl
          cases found
      obtain ⟨switched, switches, nextLevel, moved, length, bytes⟩ :=
        switch_pending level (Base64.value_lt found) lastBelow (by omega)
      have counts : (state.loopIdx + 1).bmod (2 ^ 32) = Int.bmod (count + 1 : Nat) (2 ^ 32) := by
        rw [counted, Int.bmod_add_bmod, Int.natCast_succ]
      obtain ⟨final, ran, result⟩ := @inductionHypothesis
        { switched with iLast := sextet, loopIdx := (state.loopIdx + 1).bmod (2 ^ 32) }
        (count + 1) (by rw [length]; exact below) nextLevel (Base64.value_lt found)
        counts (by simp only; omega) (by simp only; omega)
      refine ⟨final, ?_, ?_⟩
      · rw [if_pos goesOn, b64_value found]
        simp only [Int.toNat_natCast, switches, Option.bind_some]
        rw [if_neg (by omega)]
        exact ran
      · rw [result]
        exact bytes _

/-- Every text is decoded into a destination that has a byte for each character of the
alphabet up to the first other one. -/
theorem convertBase64_eq {albumArt text : List UInt8} (behind : List UInt8)
    (below : albumArt.length < 2 ^ 63)
    (room : (Base64.sextets text).length ≤ albumArt.length) :
    convertBase64 albumArt (text ++ 0 :: behind) = some (Base64.decode text) := by
  have counted : (0 : Int) = Int.bmod (0 : Nat) (2 ^ 32) := by decide
  have enough : 0 + (Base64.sextets text).length ≤ albumArt.length := by omega
  obtain ⟨final, ran, result⟩ := @loop_decodes text behind ⟨0, 0, 0, 0, albumArt⟩ 0 below
    (Nat.succ_pos 3) (Nat.succ_pos 63) counted (Nat.le_refl 0) enough
  rw [convertBase64, ran, Option.map_some, result, List.take_zero, List.nil_append,
    pending_eq_bytes, Base64.decode]

/-! ## The texts of tags -/

/-- A byte of more than seven bits is no character of the alphabet. -/
theorem value_or {byte mask : UInt8} (high : 128 ≤ mask.toNat) :
    Base64.value (byte ||| mask) = none := by
  apply Base64.value_high
  rw [UInt8.toNat_or]
  exact Nat.le_trans high Nat.right_le_or

/-- A character is written as itself, or begins with such a byte. -/
theorem utf8EncodeChar_cases (char : Char) :
    (∃ byte, String.utf8EncodeChar char = [byte]) ∨
      ∃ byte rest, String.utf8EncodeChar char = byte :: rest ∧ Base64.value byte = none := by
  rcases Char.utf8Size_eq char with size | size | size | size
  · exact Or.inl ⟨_, String.utf8EncodeChar_eq_singleton size⟩
  · exact Or.inr ⟨_, _, String.utf8EncodeChar_eq_cons_cons size, value_or (by decide)⟩
  · exact Or.inr ⟨_, _, String.utf8EncodeChar_eq_cons_cons_cons size, value_or (by decide)⟩
  · exact Or.inr ⟨_, _, String.utf8EncodeChar_eq_cons_cons_cons_cons size, value_or (by decide)⟩

/-- No more characters of the alphabet are read from a text than it has characters. -/
theorem sextets_utf8_le (text : List Char) :
    (Base64.sextets (text.flatMap String.utf8EncodeChar)).length ≤ text.length := by
  induction text with
  | nil => exact Nat.le_refl 0
  | cons char rest inductionHypothesis =>
    rw [List.flatMap_cons, List.length_cons]
    obtain ⟨byte, single⟩ | ⟨byte, others, several, missing⟩ := utf8EncodeChar_cases char
    · rw [single, List.singleton_append]
      cases found : Base64.value byte with
      | none =>
        rw [Base64.sextets_stop found]
        exact Nat.zero_le _
      | some sextet =>
        rw [Base64.sextets_cons found]
        exact Nat.succ_le_succ inductionHypothesis
    · rw [several, List.cons_append, Base64.sextets_stop missing]
      exact Nat.zero_le _

/-- A text of a tag is decoded into a destination that has a byte for each character. -/
theorem convertBase64_text {albumArt : List UInt8} (text : List Char)
    (below : albumArt.length < 2 ^ 63) (presized : albumArt.length = text.length) :
    convertBase64 albumArt (toCString text) =
      some (Base64.decode (text.flatMap String.utf8EncodeChar)) :=
  convertBase64_eq [] below (presized ▸ sextets_utf8_le text)

/-- A destination with as many bytes as the text has characters holds exactly the
encoded bytes afterwards, and for any text the decoding of its longest prefix of
characters of the alphabet; nothing is written outside of it. No vector has more bytes
than the bound. -/
theorem convertBase64_presized (albumArt : List UInt8) (below : albumArt.length < 2 ^ 63) :
    (∀ bs, albumArt.length = (Base64.encode bs).length →
      convertBase64 albumArt (Base64.encode bs ++ [0]) = some bs) ∧
    (∀ text, albumArt.length = text.length → ∀ behind,
      convertBase64 albumArt (text ++ 0 :: behind) = some (Base64.decode text)) ∧
    (∀ text : List Char, albumArt.length = text.length →
      convertBase64 albumArt (toCString text) =
        some (Base64.decode (text.flatMap String.utf8EncodeChar))) := by
  refine ⟨?_, ?_, ?_⟩
  · intro bs presized
    have room := presized ▸ Base64.sextets_length_le (Base64.encode bs)
    rw [convertBase64_eq [] below room, Base64.decode_encode]
  · intro text presized behind
    exact convertBase64_eq behind below (presized ▸ Base64.sextets_length_le text)
  · intro text presized
    exact convertBase64_text text below presized

/-- Four characters give three bytes, and a fifth one that is left over gives none. -/
theorem five_characters_decoded :
    convertBase64 (List.replicate 4 0) (Base64.encode [77, 97, 110] ++ [0]) =
        some [77, 97, 110] ∧
      convertBase64 (List.replicate 5 0) (toCString ['T', 'W', 'F', 'u', 'T']) =
        some [77, 97, 110] := by
  obtain ⟨encoded, _, _⟩ := convertBase64_presized (List.replicate 4 0) (by decide)
  obtain ⟨_, _, texts⟩ := convertBase64_presized (List.replicate 5 0) (by decide)
  exact ⟨encoded [77, 97, 110] rfl, texts ['T', 'W', 'F', 'u', 'T'] rfl⟩

end Mprt.ConvertBase64
