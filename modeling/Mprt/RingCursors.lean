import Mathlib.Algebra.Order.Ring.Int

/-!
# The two positions of a ring

A ring has a position at which its contents are read and one at which it is written,
and the number of places between them that are occupied. Writing and reading move one
of the positions forward, past the end back to the beginning.

The distance from the position of writing to that of reading is the number of free
places, except that the positions of a full ring are those of an empty one.
-/

namespace RingCursors

/-- The position of writing is the occupied places ahead of the position of reading. -/
structure Placed (size read write count : Int) : Prop where
  read_nonneg : 0 ≤ read
  read_lt : read < size
  write_nonneg : 0 ≤ write
  write_lt : write < size
  count_nonneg : 0 ≤ count
  count_le : count ≤ size
  ahead : write = read + count ∨ write = read + count - size

/-- A position that is moved forward. -/
def move (size position by_ : Int) : Int := (position + by_) % size

/-- The distance from one position forward to another, which is not zero. -/
def gap (size read write : Int) : Int :=
  if 0 < read - write then read - write else size + (read - write)

/-- A position goes past the end at most once. -/
theorem move_cases {size position by_ : Int} (inside : 0 ≤ position) (below : position < size)
    (forward : 0 ≤ by_) (once : by_ ≤ size) :
    position + by_ < size ∧ move size position by_ = position + by_ ∨
      size ≤ position + by_ ∧ move size position by_ = position + by_ - size := by
  by_cases stays : position + by_ < size
  · exact Or.inl ⟨stays, Int.emod_eq_of_lt (by omega) stays⟩
  · refine Or.inr ⟨Int.not_lt.mp stays, ?_⟩
    rw [move, ← Int.sub_emod_right]
    exact Int.emod_eq_of_lt (by omega) (by omega)

/-- An empty ring, with both positions at one place. -/
theorem placed_empty {size position : Int} (inside : 0 ≤ position) (below : position < size) :
    Placed size position position 0 :=
  ⟨inside, below, inside, below, Int.le_refl 0, by omega, Or.inl (by omega)⟩

variable {size read write count : Int}

/-- Places are occupied while there is room. -/
theorem Placed.produce (placed : Placed size read write count) {by_ : Int} (forward : 0 ≤ by_)
    (room : count + by_ ≤ size) : Placed size read (move size write by_) (count + by_) := by
  obtain ⟨readInside, readBelow, writeInside, writeBelow, atLeast, atMost, ahead⟩ := placed
  have moved := move_cases writeInside writeBelow forward (by omega)
  constructor <;> omega

/-- Occupied places are freed. -/
theorem Placed.consume (placed : Placed size read write count) {by_ : Int} (forward : 0 ≤ by_)
    (there : by_ ≤ count) : Placed size (move size read by_) write (count - by_) := by
  obtain ⟨readInside, readBelow, writeInside, writeBelow, atLeast, atMost, ahead⟩ := placed
  have moved := move_cases readInside readBelow forward (by omega)
  constructor <;> omega

/-- The distance is the number of free places unless the ring is full. -/
theorem Placed.gap_eq (placed : Placed size read write count) (free : count < size) :
    gap size read write = size - count := by
  obtain ⟨readInside, readBelow, writeInside, writeBelow, atLeast, atMost, ahead⟩ := placed
  rw [gap]
  split <;> omega

/-- A full ring has the positions of an empty one. -/
theorem Placed.gap_full (placed : Placed size read write size) :
    gap size read write = size := by
  obtain ⟨readInside, readBelow, writeInside, writeBelow, atLeast, atMost, ahead⟩ := placed
  rw [gap]
  split <;> omega

end RingCursors
