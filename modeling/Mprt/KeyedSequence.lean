import Mathlib.Data.List.Lemmas
import Mathlib.Data.List.InsertIdx
import Mathlib.Data.List.Nodup
import Mathlib.Data.List.Perm.Basic

/-!
# Sequences with distinct keys

A sequence holds items in an order, and no two of them have the same key. Items
are addressed by their row. An operation that has a key gets the row from it,
where a key that is missing stands for the end of the sequence.

Two ways of moving an item differ when it moves down. A splice names the row
before which the item goes in the sequence as it is, a row move names the row in
the sequence without the item. Inserting several items also has two ways: before
an anchor that is looked up each time, or in rows counted from the first one.
-/

universe u v

/-- A list of items whose keys differ. -/
structure KeyedSequence {α : Type u} {κ : Type v} (key : α → κ) where
  items : List α
  distinct : (items.map key).Nodup

namespace KeyedSequence

variable {α : Type u} {κ : Type v}

/-! ## Rows of lists -/

/-- Take the item in one row out and insert it in another row of what remains. -/
def moveRow (items : List α) (source target : Nat) : List α :=
  match items[source]? with
  | none => items
  | some item => (items.eraseIdx source).insertIdx target item

/-- The row of the remaining items before which a splice puts its item. -/
def landing (source target : Nat) : Nat := if source < target then target - 1 else target

/-- Insert items in consecutive rows. -/
def insertRows : List α → Nat → List α → List α
  | items, _, [] => items
  | items, row, item :: rest => insertRows (items.insertIdx row item) (row + 1) rest

/-- Insert items one by one before an anchor, or at the end while it is missing. -/
def insertEach [DecidableEq κ] (anchor : κ) : List κ → List κ → List κ
  | keys, [] => keys
  | keys, new :: rest => insertEach anchor (keys.insertIdx (keys.idxOf anchor) new) rest

/-- An item inserted after a first part stands between the parts. -/
theorem insertIdx_append (first second : List α) (item : α) :
    (first ++ second).insertIdx first.length item = first ++ item :: second := by
  induction first with
  | nil => rfl
  | cons head rest inductionHypothesis =>
    simp only [List.cons_append, List.length_cons, List.insertIdx_succ_cons, inductionHypothesis]

/-- An item that is new keeps the items different, in whatever row it is put. Behind the end it is
not put at all. -/
theorem nodup_insertIdx {items : List α} {row : Nat} {item : α} (fresh : item ∉ items)
    (distinct : items.Nodup) : (items.insertIdx row item).Nodup := by
  by_cases inside : row ≤ items.length
  · have permuted := List.perm_insertIdx item items inside
    exact permuted.nodup_iff.mpr (List.nodup_cons.mpr ⟨fresh, distinct⟩)
  · rw [List.insertIdx_of_length_lt (Nat.lt_of_not_le inside)]
    exact distinct

/-- Moving rows commutes with taking anything from the items, such as their keys. -/
theorem map_moveRow {β : Type*} (f : α → β) (items : List α) (source target : Nat) :
    (moveRow items source target).map f = moveRow (items.map f) source target := by
  unfold moveRow
  rw [List.getElem?_map]
  cases items[source]? with
  | none => rfl
  | some item => simp only [Option.map_some, List.map_insertIdx, List.eraseIdx_map]

/-- The item taken out of a row is not among those that remain. -/
theorem notMem_eraseIdx {items : List α} (distinct : items.Nodup) {row : Nat} {item : α}
    (found : items[row]? = some item) : item ∉ items.eraseIdx row := by
  obtain ⟨inside, rfl⟩ := List.getElem?_eq_some_iff.mp found
  intro member
  obtain ⟨other, bound, differs, same⟩ := List.mem_eraseIdx_iff_getElem.mp member
  exact differs ((distinct.getElem_inj_iff).mp same)

/-- A moved item was taken out before it is put back, so no item comes twice. -/
theorem nodup_moveRow {items : List α} (distinct : items.Nodup) (source target : Nat) :
    (moveRow items source target).Nodup := by
  rw [moveRow]
  cases found : items[source]? with
  | none => exact distinct
  | some item =>
    exact nodup_insertIdx (notMem_eraseIdx distinct found)
      (distinct.sublist (List.eraseIdx_sublist items source))

/-- A move brings nothing that was not there. -/
theorem mem_of_mem_moveRow {items : List α} {source target : Nat} {item : α}
    (member : item ∈ moveRow items source target) : item ∈ items := by
  rw [moveRow] at member
  split at member
  · exact member
  · rename_i moved found
    rcases List.eq_or_mem_of_mem_insertIdx member with rfl | other
    · exact List.mem_of_getElem? found
    · exact List.mem_of_mem_eraseIdx other

/-- Moving a row loses no item. -/
theorem mem_moveRow {items : List α} {item : α} (member : item ∈ items) {source target : Nat}
    (inside : target < items.length) : item ∈ moveRow items source target := by
  rw [moveRow]
  cases found : items[source]? with
  | none => exact member
  | some moved =>
    obtain ⟨sourceInside, rfl⟩ := List.getElem?_eq_some_iff.mp found
    have shorter : (items.eraseIdx source).length = items.length - 1 :=
      List.length_eraseIdx_of_lt sourceInside
    rw [List.mem_insertIdx (by omega)]
    by_cases same : item = items[source]
    · exact Or.inl same
    · obtain ⟨row, bound, there⟩ := List.mem_iff_getElem.mp member
      refine Or.inr (List.mem_eraseIdx_iff_getElem.mpr ⟨row, bound, ?_, there⟩)
      intro sameRow
      subst sameRow
      exact same there.symm

/-- A row moved to itself stays where it is. -/
theorem moveRow_self (items : List α) (row : Nat) : moveRow items row row = items := by
  rw [moveRow]
  cases found : items[row]? with
  | none => rfl
  | some item =>
    obtain ⟨inside, rfl⟩ := List.getElem?_eq_some_iff.mp found
    exact List.insertIdx_eraseIdx_getElem inside

/-- One item moved to two different rows gives two different orders. -/
theorem moveRow_inj {items : List α} (distinct : items.Nodup) {source first second : Nat}
    (inside : source < items.length) (firstInside : first < items.length)
    (secondInside : second < items.length) :
    moveRow items source first = moveRow items source second ↔ first = second := by
  have found : items[source]? = some items[source] := List.getElem?_eq_getElem inside
  have shorter : (items.eraseIdx source).length = items.length - 1 :=
    List.length_eraseIdx_of_lt inside
  constructor
  · intro same
    simp only [moveRow, found] at same
    have fresh := notMem_eraseIdx distinct found
    exact List.injOn_insertIdx_index_of_notMem _ _ fresh (by simp only [Set.mem_ofPred_eq]; omega)
      (by simp only [Set.mem_ofPred_eq]; omega) same
  · intro same
    rw [same]

/-- Rows counted from the end of a first part lie between the parts. -/
theorem insertRows_append (first second new : List α) :
    insertRows (first ++ second) first.length new = first ++ (new ++ second) := by
  induction new generalizing first with
  | nil => rfl
  | cons item rest inductionHypothesis =>
    have following := inductionHypothesis (first ++ [item])
    simp only [List.append_assoc, List.singleton_append, List.length_append, List.length_singleton]
      at following
    rw [insertRows, insertIdx_append, following, List.cons_append]

/-- Items that keep their keys when they change keep the list of keys. -/
theorem modify_keys {key : α → κ} (items : List α) (row : Nat) (change : α → α)
    (kept : ∀ item, key (change item) = key item) :
    (items.modify row change).map key = items.map key := by
  induction items generalizing row with
  | nil => cases row <;> rfl
  | cons head rest inductionHypothesis =>
    cases row with
    | zero => simp only [List.modify_zero_cons, List.map_cons, kept]
    | succ earlier => simp only [List.modify_succ_cons, List.map_cons, inductionHypothesis]

section Anchored

variable [DecidableEq κ]

/-- The row at which a key is found is its first one. -/
theorem idxOf?_of_mem {keys : List κ} {wanted : κ} (there : wanted ∈ keys) :
    keys.idxOf? wanted = some (keys.idxOf wanted) := by
  induction keys with
  | nil => cases there
  | cons first rest inductionHypothesis =>
    by_cases same : first = wanted
    · rw [same, List.idxOf_cons_self, List.idxOf?_cons, beq_self_eq_true]
      rfl
    · have later : wanted ∈ rest := (List.mem_cons.mp there).resolve_left (Ne.symm same)
      rw [List.idxOf?_cons, List.idxOf_cons, beq_eq_false_iff_ne.mpr same,
        inductionHypothesis later]
      rfl

/-- Inserting items in two parts is inserting them all, since the anchor is looked up for each. -/
theorem insertEach_append (anchor : κ) (keys first second : List κ) :
    insertEach anchor keys (first ++ second) =
      insertEach anchor (insertEach anchor keys first) second := by
  induction first generalizing keys with
  | nil => rfl
  | cons item rest inductionHypothesis =>
    simp only [List.cons_append, insertEach, inductionHypothesis]

/-- Where a second part starts with the anchor or is empty, other items go between
the parts in their order. -/
theorem insertEach_parts {anchor : κ} {first second new : List κ} (before : anchor ∉ first)
    (starts : second.idxOf anchor = 0) (others : anchor ∉ new) :
    insertEach anchor (first ++ second) new = first ++ (new ++ second) := by
  induction new generalizing first with
  | nil => rfl
  | cons item rest inductionHypothesis =>
    have row : (first ++ second).idxOf anchor = first.length := by
      rw [List.idxOf_append, if_neg before, starts, Nat.zero_add]
    have differs : anchor ≠ item := fun same => others (same ▸ List.mem_cons_self)
    have beforeItem : anchor ∉ first ++ [item] := by
      simp only [List.mem_append, List.mem_singleton, not_or]
      exact ⟨before, differs⟩
    have following := inductionHypothesis beforeItem
      (fun member => others (List.mem_cons_of_mem item member))
    simp only [List.append_assoc, List.singleton_append] at following
    rw [insertEach, row, insertIdx_append, following, List.cons_append]

/-- Every list splits where an anchor is looked up. -/
theorem parts_at (anchor : κ) (keys : List κ) :
    ∃ first second, keys = first ++ second ∧ keys.idxOf anchor = first.length ∧
      anchor ∉ first ∧ second.idxOf anchor = 0 := by
  by_cases there : anchor ∈ keys
  · obtain ⟨first, rest, split, before⟩ := List.eq_append_cons_of_mem there
    refine ⟨first, anchor :: rest, split, ?_, before, List.idxOf_cons_self⟩
    rw [split, List.idxOf_append, if_neg before, List.idxOf_cons_self, Nat.zero_add]
  · exact ⟨keys, [], (List.append_nil keys).symm, List.idxOf_eq_length there, there, rfl⟩

/-- Inserting before an anchor fills the rows from the anchor's on, exactly when
the anchor is not among the new items, or is the last of them. -/
theorem insertEach_eq_insertRows_iff {anchor : κ} {keys new : List κ}
    (distinct : (keys ++ new).Nodup) :
    insertEach anchor keys new = insertRows keys (keys.idxOf anchor) new ↔
      anchor ∉ new.dropLast := by
  obtain ⟨first, second, split, row, before, starts⟩ := parts_at anchor keys
  by_cases among : anchor ∈ new
  · obtain ⟨early, late, order, notEarly⟩ := List.eq_append_cons_of_mem among
    have missing : anchor ∉ keys := by
      intro there
      exact (List.nodup_append.mp distinct).2.2 anchor there anchor among rfl
    have notLate : anchor ∉ late := by
      have tail := (List.nodup_append.mp distinct).2.1
      rw [order] at tail
      exact (List.nodup_cons.mp (List.nodup_append.mp tail).2.1).1
    have appended : insertEach anchor keys early = keys ++ early := by
      have atEnd := @insertEach_parts κ _ anchor keys [] early missing rfl notEarly
      simpa only [List.append_nil] using atEnd
    have notBefore : anchor ∉ keys ++ early := by
      simp only [List.mem_append, not_or]
      exact ⟨missing, notEarly⟩
    have anchored : insertEach anchor (keys ++ early) (anchor :: late) =
        keys ++ early ++ (late ++ [anchor]) := by
      have inserted : (keys ++ early).insertIdx ((keys ++ early).idxOf anchor) anchor =
          keys ++ early ++ [anchor] := by
        rw [List.idxOf_eq_length notBefore, List.insertIdx_length_self]
      rw [insertEach, inserted]
      exact insertEach_parts notBefore List.idxOf_cons_self notLate
    have each : insertEach anchor keys new = keys ++ (early ++ (late ++ [anchor])) := by
      rw [order, insertEach_append, appended, anchored, List.append_assoc]
    have rows : insertRows keys (keys.idxOf anchor) new = keys ++ (early ++ anchor :: late) := by
      have atEnd := insertRows_append keys [] new
      simp only [List.append_nil] at atEnd
      rw [List.idxOf_eq_length missing, atEnd, order]
    rw [each, rows, List.append_cancel_left_eq, List.append_cancel_left_eq, order]
    cases late with
    | nil => simpa [List.dropLast_concat] using notEarly
    | cons item rest =>
      have differs : anchor ≠ item := fun same => notLate (same ▸ List.mem_cons_self)
      rw [List.dropLast_append_of_ne_nil (List.cons_ne_nil anchor (item :: rest))]
      simp [differs.symm]
  · have rows := insertRows_append first second new
    have each := insertEach_parts before starts among
    rw [row, split, each, rows]
    constructor
    · intro _ member
      exact among (List.dropLast_subset new member)
    · intro _
      rfl

/-- Wherever the anchor is, what comes out are the old keys and the new ones in some order. -/
theorem insertEach_perm (anchor : κ) (keys new : List κ) :
    (insertEach anchor keys new).Perm (keys ++ new) := by
  induction new generalizing keys with
  | nil => rw [insertEach, List.append_nil]
  | cons key rest inductionHypothesis =>
    have inserted : (keys.insertIdx (keys.idxOf anchor) key).Perm (key :: keys) :=
      List.perm_insertIdx key keys List.idxOf_le_length
    exact (inductionHypothesis _).trans ((inserted.append_right rest).trans
      List.perm_middle.symm)

end Anchored

/-- Consecutive rows are new ones besides the others. -/
theorem insertRows_perm {items : List α} {row : Nat} (inside : row ≤ items.length)
    (new : List α) : (insertRows items row new).Perm (items ++ new) := by
  have placed := insertRows_append (items.take row) (items.drop row) new
  rw [List.take_append_drop, List.length_take_of_le inside] at placed
  have swapped : (items.take row ++ (new ++ items.drop row)).Perm
      (items.take row ++ (items.drop row ++ new)) := List.perm_append_comm.append_left _
  rw [← List.append_assoc, ← List.append_assoc, List.take_append_drop, List.append_assoc]
    at swapped
  exact placed ▸ swapped

/-- A move within the list only changes the order. Beyond the end the item would be lost. -/
theorem moveRow_perm {items : List α} {target : Nat} (inside : target < items.length)
    (source : Nat) : (moveRow items source target).Perm items := by
  rw [moveRow]
  cases found : items[source]? with
  | none => rfl
  | some item =>
    obtain ⟨bound, rfl⟩ := List.getElem?_eq_some_iff.mp found
    have shorter : target ≤ (items.eraseIdx source).length := by
      rw [List.length_eraseIdx_of_lt bound]
      omega
    exact (List.perm_insertIdx _ _ shorter).trans (List.getElem_cons_eraseIdx_perm bound)

/-! ## Operations of a sequence -/

variable {key : α → κ}

def empty (key : α → κ) : KeyedSequence key := ⟨[], List.nodup_nil⟩

def keys (sequence : KeyedSequence key) : List κ := sequence.items.map key

def endRow (sequence : KeyedSequence key) : Nat := sequence.items.length

/-- Move the item in one row before the item in another. -/
def splice (sequence : KeyedSequence key) (source target : Nat) : KeyedSequence key :=
  ⟨moveRow sequence.items source (landing source target), by
    rw [map_moveRow]
    exact nodup_moveRow sequence.distinct source (landing source target)⟩

def eraseRow (sequence : KeyedSequence key) (row : Nat) : KeyedSequence key :=
  ⟨sequence.items.eraseIdx row, by
    rw [← List.eraseIdx_map]
    exact sequence.distinct.sublist (List.eraseIdx_sublist _ row)⟩

/-- Change the item in one row, but not its key. -/
def modify (sequence : KeyedSequence key) (row : Nat) (change : α → α)
    (kept : ∀ item, key (change item) = key item) : KeyedSequence key :=
  ⟨sequence.items.modify row change, by
    rw [modify_keys sequence.items row change kept]
    exact sequence.distinct⟩

/-- The keys move as the items do. -/
theorem keys_splice (sequence : KeyedSequence key) (source target : Nat) :
    (sequence.splice source target).keys =
      moveRow sequence.keys source (landing source target) :=
  map_moveRow key sequence.items source (landing source target)

/-- With the item of a row its key goes. -/
theorem keys_eraseRow (sequence : KeyedSequence key) (row : Nat) :
    (sequence.eraseRow row).keys = sequence.keys.eraseIdx row :=
  (List.eraseIdx_map key sequence.items row).symm

/-- An item may change in everything but its key, and then the keys are as before. -/
theorem keys_modify (sequence : KeyedSequence key) (row : Nat) (change : α → α)
    (kept : ∀ item, key (change item) = key item) :
    (sequence.modify row change kept).keys = sequence.keys :=
  modify_keys sequence.items row change kept

/-- There are as many keys as rows. -/
theorem length_keys (sequence : KeyedSequence key) : sequence.keys.length = sequence.endRow :=
  List.length_map key

variable [DecidableEq κ]

/-- The row of the item with a key, or of the end. -/
def row (sequence : KeyedSequence key) (wanted : κ) : Nat := sequence.keys.idxOf wanted

def find (sequence : KeyedSequence key) (wanted : κ) : Option α :=
  sequence.items[sequence.row wanted]?

/-- An item whose key is taken is refused. -/
def insert (sequence : KeyedSequence key) (row : Nat) (item : α) : Option (KeyedSequence key) :=
  if fresh : key item ∈ sequence.keys then none
  else some ⟨sequence.items.insertIdx row item, by
    rw [List.map_insertIdx]
    exact nodup_insertIdx fresh sequence.distinct⟩

/-- An item that is accepted is in its row. -/
theorem items_insert {sequence inserted : KeyedSequence key} {row : Nat} {item : α}
    (accepted : sequence.insert row item = some inserted) :
    inserted.items = sequence.items.insertIdx row item := by
  rw [insert] at accepted
  split at accepted
  · cases accepted
  · obtain rfl := Option.some.inj accepted
    rfl

/-- And its key is in the same row of the keys. -/
theorem keys_insert {sequence inserted : KeyedSequence key} {row : Nat} {item : α}
    (accepted : sequence.insert row item = some inserted) :
    inserted.keys = sequence.keys.insertIdx row (key item) := by
  unfold keys
  rw [items_insert accepted, List.map_insertIdx]

/-- An item is accepted when its key is new. The row does not matter. -/
theorem insert_isSome {sequence : KeyedSequence key} {item : α} (fresh : key item ∉ sequence.keys)
    (row : Nat) : ∃ inserted, sequence.insert row item = some inserted := by
  simp only [insert, dif_neg fresh]
  exact ⟨_, rfl⟩

/-- A key has a row before the end exactly when it is in the sequence. -/
theorem row_lt_iff {sequence : KeyedSequence key} {wanted : κ} :
    sequence.row wanted < sequence.endRow ↔ wanted ∈ sequence.keys := by
  rw [← length_keys]
  exact List.idxOf_lt_length_iff

/-- A key leads to the end exactly when no item has it, which is how a missing anchor is told. -/
theorem row_eq_endRow_iff {sequence : KeyedSequence key} {wanted : κ} :
    sequence.row wanted = sequence.endRow ↔ wanted ∉ sequence.keys := by
  have bounded : sequence.row wanted ≤ sequence.endRow := by
    rw [← length_keys]
    exact List.idxOf_le_length
  rw [← row_lt_iff]
  omega

/-- What is found has the key it was looked up by. -/
theorem find_key {sequence : KeyedSequence key} {wanted : κ} {item : α}
    (found : sequence.find wanted = some item) : key item = wanted := by
  have inKeys : sequence.keys[sequence.row wanted]? = some (key item) := by
    rw [keys, List.getElem?_map]
    rw [find] at found
    rw [found]
    rfl
  obtain ⟨inside, same⟩ := List.getElem?_eq_some_iff.mp inKeys
  rw [← same]
  exact List.getElem_idxOf inside

/-- An item is found by its key exactly when the key is there. -/
theorem find_isSome_iff {sequence : KeyedSequence key} {wanted : κ} :
    (sequence.find wanted).isSome = true ↔ wanted ∈ sequence.keys := by
  rw [← row_lt_iff, find, Option.isSome_iff_exists]
  constructor
  · rintro ⟨item, found⟩
    exact (List.getElem?_eq_some_iff.mp found).1
  · intro inside
    exact ⟨_, List.getElem?_eq_getElem inside⟩

end KeyedSequence
