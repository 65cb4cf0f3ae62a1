import Mathlib.Data.List.Basic
import Mathlib.Tactic.Common

/-!
# A circular buffer

Elements from the first to the last, with a capacity that is never exceeded.
Insertion beyond the free space follows the usual circular contract: the front
of the inserted range is skipped when it cannot be kept, and elements at the
beginning of the buffer give way to the rest of it. While the free space
suffices, insertion is plain list insertion.
-/

universe u
variable {α : Type u}

/-- The stored elements in order, never more than the capacity. -/
@[ext] structure CircularBuffer (α : Type u) where
  capacity : Nat
  items : List α
  bounded : items.length ≤ capacity

namespace CircularBuffer

instance [DecidableEq α] : DecidableEq (CircularBuffer α) := fun first second =>
  decidable_of_iff (first.capacity = second.capacity ∧ first.items = second.items)
    CircularBuffer.ext_iff.symm

/-- A buffer with no element. -/
def vacant (capacity : Nat) : CircularBuffer α := ⟨capacity, [], Nat.zero_le capacity⟩

def size (buffer : CircularBuffer α) : Nat := buffer.items.length

def empty (buffer : CircularBuffer α) : Bool := buffer.items.isEmpty

def full (buffer : CircularBuffer α) : Bool := buffer.items.length == buffer.capacity

/-- The number of elements that can be added before others are overwritten. -/
def reserve (buffer : CircularBuffer α) : Nat := buffer.capacity - buffer.items.length

def clear (buffer : CircularBuffer α) : CircularBuffer α := vacant buffer.capacity

/-- Remove the given number of elements from the beginning. -/
def eraseBegin (buffer : CircularBuffer α) (count : Nat) : CircularBuffer α :=
  ⟨buffer.capacity, buffer.items.drop count, by
    have bounded := buffer.bounded
    rw [List.length_drop]
    omega⟩

/-- Change the capacity; elements beyond a smaller one are removed at the end. -/
def setCapacity (buffer : CircularBuffer α) (capacity : Nat) : CircularBuffer α :=
  ⟨capacity, buffer.items.take capacity, List.length_take_le capacity buffer.items⟩

/-- Insert a range before a position. The first part of the range that fits
neither the free space nor the places before the position is skipped, and as
many elements at the beginning are overwritten as the free space lacks. -/
def insert (buffer : CircularBuffer α) (position : Nat) (range : List α) : CircularBuffer α :=
  let before := buffer.items.take position
  let skipped := range.length - (before.length + buffer.reserve)
  let overwritten := min before.length (range.length - buffer.reserve)
  ⟨buffer.capacity,
    before.drop overwritten ++ range.drop skipped ++ buffer.items.drop position, by
      have bounded := buffer.bounded
      simp only [List.length_append, List.length_drop, List.length_take, reserve,
        before, skipped, overwritten]
      omega⟩

/-- Insert a range after the last element. -/
def append (buffer : CircularBuffer α) (range : List α) : CircularBuffer α :=
  buffer.insert buffer.items.length range

@[simp] theorem clear_items (buffer : CircularBuffer α) : buffer.clear.items = [] := rfl

@[simp] theorem clear_capacity (buffer : CircularBuffer α) :
    buffer.clear.capacity = buffer.capacity := rfl

@[simp] theorem eraseBegin_items (buffer : CircularBuffer α) (count : Nat) :
    (buffer.eraseBegin count).items = buffer.items.drop count := rfl

@[simp] theorem insert_capacity (buffer : CircularBuffer α) (position : Nat) (range : List α) :
    (buffer.insert position range).capacity = buffer.capacity := rfl

theorem empty_iff {buffer : CircularBuffer α} : buffer.empty = true ↔ buffer.items = [] :=
  List.isEmpty_iff

theorem full_iff {buffer : CircularBuffer α} :
    buffer.full = true ↔ buffer.items.length = buffer.capacity := by
  simp [full]

/-- A buffer that can hold something is not empty when it is full. -/
theorem full_not_empty {buffer : CircularBuffer α} (positive : 0 < buffer.capacity)
    (isFull : buffer.full = true) : buffer.items ≠ [] := by
  intro vacant
  have length := full_iff.mp isFull
  rw [vacant, List.length_nil] at length
  omega

/-- Within the free space nothing is skipped or overwritten. -/
theorem insert_items {buffer : CircularBuffer α} {range : List α} (position : Nat)
    (fits : range.length ≤ buffer.reserve) :
    (buffer.insert position range).items =
      buffer.items.take position ++ range ++ buffer.items.drop position := by
  have kept : range.length - ((buffer.items.take position).length + buffer.reserve) = 0 := by omega
  have spared : range.length - buffer.reserve = 0 := by omega
  simp only [insert, kept, spared, Nat.min_zero, List.drop_zero]

/-- Within the free space a range is appended whole. -/
theorem append_items {buffer : CircularBuffer α} {range : List α}
    (fits : range.length ≤ buffer.reserve) :
    (buffer.append range).items = buffer.items ++ range := by
  rw [append, insert_items buffer.items.length fits, List.take_length, List.drop_length,
    List.append_nil]

/-- A larger capacity keeps every element. -/
theorem setCapacity_items {buffer : CircularBuffer α} {capacity : Nat}
    (larger : buffer.capacity ≤ capacity) : (buffer.setCapacity capacity).items = buffer.items :=
  List.take_of_length_le (Nat.le_trans buffer.bounded larger)

end CircularBuffer
