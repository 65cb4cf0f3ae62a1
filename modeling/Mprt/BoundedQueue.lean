import Mathlib.Data.List.Basic

/-!
# A bounded first-in first-out queue

A queue carries its capacity and the proof that it is not exceeded. Writing to
a full queue changes nothing and says so; reading takes the oldest element; the
element at the front can be replaced in place. The order of the elements is the
order in which they were written.
-/

universe u
variable {α : Type u}

/-- Elements from the oldest to the newest, never more than the capacity. -/
@[ext]
structure BoundedQueue (α : Type u) where
  capacity : Nat
  items : List α
  bounded : items.length ≤ capacity
deriving DecidableEq

namespace BoundedQueue

/-- A queue with no element. -/
def vacant (capacity : Nat) : BoundedQueue α := ⟨capacity, [], Nat.zero_le capacity⟩

def isEmpty (queue : BoundedQueue α) : Bool := queue.items.isEmpty

def isFull (queue : BoundedQueue α) : Bool := queue.items.length == queue.capacity

def front (queue : BoundedQueue α) : Option α := queue.items.head?

/-- Append an element, or leave a full queue as it is; the flag tells which. -/
def write (queue : BoundedQueue α) (element : α) : Bool × BoundedQueue α :=
  if room : queue.items.length < queue.capacity then
    (true, ⟨queue.capacity, queue.items ++ [element], by rw [List.length_append]; exact room⟩)
  else (false, queue)

/-- Take the oldest element, if there is one. -/
def read (queue : BoundedQueue α) : Option (α × BoundedQueue α) :=
  match queue with
  | ⟨_, [], _⟩ => none
  | ⟨capacity, element :: rest, bounded⟩ =>
      some (element, ⟨capacity, rest, Nat.le_of_succ_le bounded⟩)

/-- Replace the front element by its image. -/
def modifyFront (queue : BoundedQueue α) (change : α → α) : BoundedQueue α :=
  match queue with
  | ⟨capacity, [], bounded⟩ => ⟨capacity, [], bounded⟩
  | ⟨capacity, element :: rest, bounded⟩ => ⟨capacity, change element :: rest, bounded⟩

/-- Write copies of one element until the queue is full; the count bounds the
number of writes. -/
def fill (element : α) : Nat → BoundedQueue α → BoundedQueue α
  | 0, queue => queue
  | remaining + 1, queue =>
      if queue.isFull then queue else fill element remaining (queue.write element).2

@[simp] theorem vacant_items (capacity : Nat) : (vacant capacity : BoundedQueue α).items = [] := rfl

@[simp] theorem vacant_capacity (capacity : Nat) :
    (vacant capacity : BoundedQueue α).capacity = capacity := rfl

@[simp] theorem write_capacity (queue : BoundedQueue α) (element : α) :
    (queue.write element).2.capacity = queue.capacity := by
  rw [write]
  split <;> rfl

/-- A write succeeds exactly when there is room. -/
theorem write_succeeds_iff (queue : BoundedQueue α) (element : α) :
    (queue.write element).1 = true ↔ queue.items.length < queue.capacity := by
  rw [write]
  split <;> simp_all

/-- With room the element becomes the newest. -/
theorem write_items {queue : BoundedQueue α} (room : queue.items.length < queue.capacity)
    (element : α) : (queue.write element).2.items = queue.items ++ [element] := by
  simp [write, room]

@[simp] theorem modifyFront_capacity (queue : BoundedQueue α) (change : α → α) :
    (queue.modifyFront change).capacity = queue.capacity := by
  obtain ⟨capacity, items, bounded⟩ := queue
  cases items <;> rfl

/-- An empty queue has no front to replace. -/
theorem modifyFront_nil {queue : BoundedQueue α} (vacant : queue.items = [])
    (change : α → α) : (queue.modifyFront change).items = [] := by
  obtain ⟨capacity, items, bounded⟩ := queue
  subst vacant
  rfl

/-- Only the front element changes. -/
theorem modifyFront_cons {queue : BoundedQueue α} {element : α} {rest : List α}
    (items : queue.items = element :: rest) (change : α → α) :
    (queue.modifyFront change).items = change element :: rest := by
  obtain ⟨capacity, elements, bounded⟩ := queue
  subst items
  rfl

/-- Replacing the front keeps the number of elements. -/
@[simp] theorem modifyFront_length (queue : BoundedQueue α) (change : α → α) :
    (queue.modifyFront change).items.length = queue.items.length := by
  obtain ⟨capacity, items, bounded⟩ := queue
  cases items <;> rfl

/-- Nothing can be read exactly from an empty queue. -/
theorem read_none_iff {queue : BoundedQueue α} : queue.read = none ↔ queue.items = [] := by
  obtain ⟨capacity, items, bounded⟩ := queue
  cases items <;> simp [read]

/-- A read returns the oldest element and leaves the others in order. -/
theorem read_some_iff {queue rest : BoundedQueue α} {element : α} :
    queue.read = some (element, rest) ↔
      queue.items = element :: rest.items ∧ rest.capacity = queue.capacity := by
  obtain ⟨capacity, items, bounded⟩ := queue
  obtain ⟨restCapacity, restItems, restBounded⟩ := rest
  cases items with
  | nil => simp [read]
  | cons head tail =>
    simp only [read, Option.some.injEq, Prod.mk.injEq, mk.injEq, List.cons.injEq]
    constructor
    · rintro ⟨rfl, rfl, rfl⟩
      exact ⟨⟨rfl, rfl⟩, rfl⟩
    · rintro ⟨⟨rfl, rfl⟩, rfl⟩
      exact ⟨rfl, rfl, rfl⟩

/-- A queue with a front can be read. -/
theorem read_cons {queue : BoundedQueue α} {element : α} {rest : List α}
    (items : queue.items = element :: rest) :
    ∃ remaining, queue.read = some (element, remaining) ∧ remaining.items = rest ∧
      remaining.capacity = queue.capacity := by
  obtain ⟨capacity, elements, bounded⟩ := queue
  subst items
  exact ⟨_, rfl, rfl, rfl⟩

theorem front_eq_some_iff {queue : BoundedQueue α} {element : α} :
    queue.front = some element ↔ ∃ rest, queue.items = element :: rest := by
  obtain ⟨capacity, items, bounded⟩ := queue
  cases items with
  | nil => simp [front]
  | cons head tail => simp [front]

theorem front_eq_none_iff {queue : BoundedQueue α} : queue.front = none ↔ queue.items = [] :=
  List.head?_eq_none_iff

@[simp] theorem fill_capacity (element : α) (count : Nat) (queue : BoundedQueue α) :
    (fill element count queue).capacity = queue.capacity := by
  induction count generalizing queue with
  | zero => rfl
  | succ count inductionHypothesis =>
    rw [fill]
    split
    · rfl
    · exact (inductionHypothesis _).trans (write_capacity queue element)

/-- Filling with enough writes appends one copy for each free place. -/
theorem fill_items (element : α) (count : Nat) (queue : BoundedQueue α)
    (enough : queue.capacity ≤ queue.items.length + count) :
    (fill element count queue).items =
      queue.items ++ List.replicate (queue.capacity - queue.items.length) element := by
  induction count generalizing queue with
  | zero =>
    have none : queue.capacity - queue.items.length = 0 := by omega
    simp [fill, none]
  | succ count inductionHypothesis =>
    rw [fill]
    by_cases full : queue.items.length = queue.capacity
    · simp [isFull, full]
    · have room : queue.items.length < queue.capacity := by
        have bounded := queue.bounded
        omega
      have written := write_items room element
      rw [if_neg (by simp [isFull, full]), inductionHypothesis _ (by simp [written]; omega)]
      have places : queue.capacity - queue.items.length =
          queue.capacity - (queue.items.length + 1) + 1 := by omega
      simp [written, places, List.replicate_succ]

end BoundedQueue
