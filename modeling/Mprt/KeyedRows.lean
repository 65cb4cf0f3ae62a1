import Mprt.KeyedSequence

/-!
# Rows that are remembered

A row number names an item only while the rows around it stay. In a list of different items, a
remembered row holds the same item after a row is erased exactly when it stands before that row,
and after a row is moved exactly when it stands outside the rows between the two places.

A row that is found by its key is the only one with that key, so that changing or erasing it
leaves exactly the items with other keys.
-/

namespace KeyedSequence

universe u v
variable {α : Type u} {κ : Type v} {key : α → κ} {items : List α}

/-- Erasing a row leaves the item of another row in place exactly when that row comes before it,
because items are different. -/
theorem getElem?_eraseIdx_eq_iff (distinct : items.Nodup) {row erased : Nat}
    (inside : row < items.length) :
    (items.eraseIdx erased)[row]? = items[row]? ↔ row < erased := by
  rw [List.getElem?_eraseIdx]
  split
  · rename_i before
    exact iff_of_true rfl before
  · rename_i after
    refine iff_of_false ?_ after
    intro same
    have shifted : items[row]? ≠ items[row + 1]? := by
      intro equal
      exact absurd ((List.getElem?_inj inside distinct).mp equal) (by omega)
    exact shifted same.symm

/-- Where the item of a row comes from after a move. -/
theorem getElem?_moveRow {source target : Nat} (sourceInside : source < items.length)
    (targetInside : target < items.length) (row : Nat) :
    (moveRow items source target)[row]? =
      items[if row = target then source else if source ≤ row ∧ row < target then row + 1
        else if target < row ∧ row ≤ source then row - 1 else row]? := by
  have found : items[source]? = some items[source] := List.getElem?_eq_getElem sourceInside
  have shorter : (items.eraseIdx source).length = items.length - 1 :=
    List.length_eraseIdx_of_lt sourceInside
  simp only [moveRow, found]
  rw [List.getElem?_insertIdx]
  rcases Nat.lt_trichotomy row target with before | rfl | after
  · rw [if_pos before, if_neg (by omega : row ≠ target), List.getElem?_eraseIdx]
    by_cases earlier : row < source
    · rw [if_pos earlier, if_neg (by omega), if_neg (by omega)]
    · rw [if_neg earlier, if_pos (by omega)]
  · rw [if_neg (Nat.lt_irrefl row), if_pos rfl, if_pos rfl, if_pos (by omega), found]
  · rw [if_neg (by omega), if_neg (by omega : row ≠ target), if_neg (by omega : row ≠ target),
      List.getElem?_eraseIdx]
    by_cases earlier : row - 1 < source
    · rw [if_pos earlier, if_neg (by omega), if_pos (by omega)]
    · rw [if_neg earlier, if_neg (by omega), if_neg (by omega), Nat.sub_add_cancel (by omega)]

/-- Moving a row leaves an item in place exactly when its row is outside of the rows between the
two places. -/
theorem getElem?_moveRow_eq_iff (distinct : items.Nodup) {source target row : Nat}
    (sourceInside : source < items.length) (targetInside : target < items.length)
    (inside : row < items.length) :
    (moveRow items source target)[row]? = items[row]? ↔
      source = target ∨ row < min source target ∨ max source target < row := by
  rw [getElem?_moveRow sourceInside targetInside]
  constructor
  · intro same
    have kept := (List.getElem?_inj inside distinct).mp same.symm
    split_ifs at kept <;> omega
  · intro outside
    congr 1
    split_ifs <;> omega

/-- A row with the key of another one is that row. -/
theorem same_row (distinct : (items.map key).Nodup) {first second : Nat} {item other : α}
    (there : items[first]? = some item) (found : items[second]? = some other)
    (same : key item = key other) : first = second := by
  have firstKey : (items.map key)[first]? = some (key item) := by
    rw [List.getElem?_map, there]
    rfl
  have secondKey : (items.map key)[second]? = some (key other) := by
    rw [List.getElem?_map, found]
    rfl
  have inside : first < (items.map key).length := (List.getElem?_eq_some_iff.mp firstKey).1
  exact (List.getElem?_inj inside distinct).mp (by rw [firstKey, secondKey, same])

variable [DecidableEq κ]

/-- The first row with a key. -/
def rowOf? (key : α → κ) (items : List α) (wanted : κ) : Option Nat :=
  items.findIdx? (fun item => key item = wanted)

/-- The row that is found for a key has an item with this key. -/
theorem rowOf?_some {wanted : κ} {row : Nat} (found : rowOf? key items wanted = some row) :
    ∃ item, items[row]? = some item ∧ key item = wanted := by
  obtain ⟨inside, named, _⟩ := List.findIdx?_eq_some_iff_getElem.mp found
  exact ⟨items[row], List.getElem?_eq_getElem inside, of_decide_eq_true named⟩

/-- A row is found exactly when some item has the key. -/
theorem rowOf?_isSome {wanted : κ} :
    (rowOf? key items wanted).isSome = true ↔ wanted ∈ items.map key := by
  simp [rowOf?]

/-- Erasing the row of a key leaves the items with other keys. -/
theorem mem_eraseIdx_rowOf (distinct : (items.map key).Nodup) {wanted : κ} {row : Nat}
    (found : rowOf? key items wanted = some row) (item : α) :
    item ∈ items.eraseIdx row ↔ item ∈ items ∧ key item ≠ wanted := by
  obtain ⟨old, there, named⟩ := rowOf?_some found
  rw [List.mem_eraseIdx_iff_getElem?]
  constructor
  · rintro ⟨other, differs, at_other⟩
    refine ⟨List.mem_of_getElem? at_other, fun same => differs ?_⟩
    exact same_row distinct at_other there (same.trans named.symm)
  · rintro ⟨member, differs⟩
    obtain ⟨other, at_other⟩ := List.mem_iff_getElem?.mp member
    refine ⟨other, ?_, at_other⟩
    rintro rfl
    rw [there] at at_other
    exact differs (Option.some.inj at_other ▸ named)

/-- Changing the row of a key leaves the items with other keys. -/
theorem mem_modify_rowOf (distinct : (items.map key).Nodup) {wanted : κ} {row : Nat}
    (found : rowOf? key items wanted = some row) (change : α → α) (item : α) :
    item ∈ items.modify row change ↔
      (item ∈ items ∧ key item ≠ wanted) ∨
        ∃ old ∈ items, key old = wanted ∧ item = change old := by
  obtain ⟨old, there, named⟩ := rowOf?_some found
  rw [List.mem_iff_getElem?]
  constructor
  · rintro ⟨other, at_other⟩
    rw [List.getElem?_modify] at at_other
    by_cases here : row = other
    · subst here
      rw [there] at at_other
      simp only [if_true, Option.map_eq_map, Option.map_some, Option.some.injEq] at at_other
      exact Or.inr ⟨old, List.mem_of_getElem? there, named, at_other.symm⟩
    · simp only [if_neg here, id_map'] at at_other
      refine Or.inl ⟨List.mem_of_getElem? at_other, fun same => here ?_⟩
      exact same_row distinct there at_other (named.trans same.symm)
  · rintro (⟨member, differs⟩ | ⟨other, member, same, rfl⟩)
    · obtain ⟨place, at_place⟩ := List.mem_iff_getElem?.mp member
      refine ⟨place, ?_⟩
      have apart : row ≠ place := by
        rintro rfl
        rw [there] at at_place
        exact differs (Option.some.inj at_place ▸ named)
      simp only [List.getElem?_modify, if_neg apart, id_map', at_place]
    · obtain ⟨place, at_place⟩ := List.mem_iff_getElem?.mp member
      have here : row = place := same_row distinct there at_place (named.trans same.symm)
      refine ⟨place, ?_⟩
      simp only [List.getElem?_modify, if_pos here, at_place, Option.map_eq_map, Option.map_some]

end KeyedSequence
