import Mathlib.Data.List.Rotate
import Mathlib.Data.Nat.ModEq

/-!
# The contents of a ring from a position on

A ring is a list of places. Seen from a position, it is the list that begins there and
goes on past the end at the beginning. What is done at a distance from the position is
done at that place of the list seen from it, and to move the position forward is to move
the first places to the end.
-/

namespace RotatedRing

universe u
variable {α : Type u} {ring : List α} {start : Nat}

/-- The next position. -/
def advance (size position : Nat) : Nat := if position + 1 = size then 0 else position + 1

/-- A position goes past the end at the last place. -/
theorem advance_eq {size position : Nat} (inside : position < size) :
    advance size position = (position + 1) % size := by
  rw [advance]
  split
  · rename_i last
    rw [last, Nat.mod_self]
  · rw [Nat.mod_eq_of_lt (by omega)]

theorem advance_lt {size position : Nat} (inside : position < size) :
    advance size position < size := by
  rw [advance]
  split <;> omega

/-- Places at different distances are different. -/
theorem place_inj {size first second : Nat} (firstInside : first < size)
    (secondInside : second < size) :
    (start + first) % size = (start + second) % size ↔ first = second := by
  constructor
  · intro same
    have congruent : Nat.ModEq size first second := Nat.ModEq.add_left_cancel' start same
    exact Nat.ModEq.eq_of_lt_of_lt congruent firstInside secondInside
  · rintro rfl
    rfl

/-- What stands at a distance from the position. -/
theorem getElem?_rotate {distance : Nat} (inside : distance < ring.length) :
    (ring.rotate start)[distance]? = ring[(start + distance) % ring.length]? := by
  rw [List.getElem?_eq_getElem (by rw [List.length_rotate]; exact inside), List.getElem_rotate,
    List.getElem?_eq_getElem (Nat.mod_lt _ (by omega))]
  simp only [Nat.add_comm]

/-- A change at a distance from the position. -/
theorem rotate_set (start : Nat) {distance : Nat} (inside : distance < ring.length) (item : α) :
    (ring.set ((start + distance) % ring.length) item).rotate start =
      (ring.rotate start).set distance item := by
  apply List.ext_getElem?
  intro index
  by_cases there : index < ring.length
  · rw [getElem?_rotate (by rw [List.length_set]; exact there), List.length_set]
    by_cases same : distance = index
    · subst same
      rw [List.getElem?_set_self (Nat.mod_lt _ (by omega)),
        List.getElem?_set_self (by rw [List.length_rotate]; exact there)]
    · have apart : (start + distance) % ring.length ≠ (start + index) % ring.length :=
        fun meet => same ((place_inj inside there).mp meet)
      rw [List.getElem?_set_ne apart, List.getElem?_set_ne same, getElem?_rotate there]
  · rw [List.getElem?_eq_none (by simpa using there), List.getElem?_eq_none (by simpa using there)]

/-- The ring from the next position on. -/
theorem rotate_advance (inside : start < ring.length) :
    ring.rotate (advance ring.length start) = (ring.rotate start).rotate 1 := by
  rw [List.rotate_rotate, advance_eq inside, List.rotate_mod]

/-- The first place comes last. -/
theorem rotate_advance_cons {first : α} {rest : List α} (inside : start < ring.length)
    (seen : ring.rotate start = first :: rest) :
    ring.rotate (advance ring.length start) = rest ++ [first] := by
  rw [rotate_advance inside, seen, List.rotate_cons_succ, List.rotate_zero]

/-! ## Several places -/

/-- The places from a position on are replaced, past the end at the beginning. -/
def overwrite (ring : List α) (position : Nat) : List α → List α
  | [] => ring
  | item :: rest => overwrite (ring.set (position % ring.length) item) (position + 1) rest

@[simp] theorem overwrite_length (ring : List α) (position : Nat) (items : List α) :
    (overwrite ring position items).length = ring.length := by
  induction items generalizing ring position with
  | nil => rfl
  | cons item rest inductionHypothesis =>
    rw [overwrite, inductionHypothesis, List.length_set]

theorem overwrite_append (ring : List α) (position : Nat) (first second : List α) :
    overwrite ring position (first ++ second) =
      overwrite (overwrite ring position first) (position + first.length) second := by
  induction first generalizing ring position with
  | nil => rfl
  | cons item rest inductionHypothesis =>
    rw [List.cons_append, overwrite, inductionHypothesis, overwrite, List.length_cons,
      Nat.add_right_comm, Nat.add_assoc]

/-- Positions are the same a whole ring apart. -/
theorem overwrite_mod (ring : List α) (position : Nat) (items : List α) :
    overwrite ring (position % ring.length) items = overwrite ring position items := by
  induction items generalizing ring position with
  | nil => rfl
  | cons item rest inductionHypothesis =>
    have further := inductionHypothesis (ring.set (position % ring.length) item) (position + 1)
    have wrapped := inductionHypothesis (ring.set (position % ring.length) item)
      (position % ring.length + 1)
    rw [List.length_set] at further wrapped
    rw [overwrite, overwrite, Nat.mod_mod, ← further, ← wrapped, Nat.mod_add_mod]

/-- Items that do not go past the end replace a part of the list. -/
theorem overwrite_straight {position : Nat} {items : List α}
    (fits : position + items.length ≤ ring.length) :
    overwrite ring position items =
      ring.take position ++ items ++ ring.drop (position + items.length) := by
  induction items generalizing ring position with
  | nil => simp [overwrite]
  | cons item rest inductionHypothesis =>
    rw [List.length_cons] at fits
    have inside : position < ring.length := by omega
    have first : (ring.set position item).take (position + 1) = ring.take position ++ [item] := by
      rw [List.take_add_one, List.take_set_of_le (Nat.le_refl position),
        List.getElem?_set_self inside]
      rfl
    have later : (ring.set position item).drop (position + 1 + rest.length) =
        ring.drop (position + 1 + rest.length) := List.drop_set_of_lt (by omega)
    rw [overwrite, Nat.mod_eq_of_lt inside, inductionHypothesis (by rw [List.length_set]; omega),
      first, later, List.append_assoc _ [item], List.singleton_append, List.length_cons,
      Nat.add_assoc, Nat.add_comm 1]

/-- What is written at a distance from the position. -/
theorem rotate_overwrite (start distance : Nat) (items : List α) :
    (overwrite ring (start + distance) items).rotate start =
      overwrite (ring.rotate start) distance items := by
  induction items generalizing ring distance with
  | nil => rfl
  | cons item rest inductionHypothesis =>
    rw [overwrite, overwrite, Nat.add_assoc, inductionHypothesis, List.length_rotate]
    congr 1
    rcases Nat.eq_zero_or_pos ring.length with none | some
    · rw [List.length_eq_zero_iff.mp none]
      rfl
    · rw [← Nat.add_mod_mod start, rotate_set start (Nat.mod_lt _ some)]

end RotatedRing
