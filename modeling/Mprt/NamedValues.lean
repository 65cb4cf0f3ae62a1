import Mathlib.Data.List.AList
import Mathlib.Data.List.Perm.Subperm

/-!
# Values stored under names

Named values are inserted into a map one by one, and a name that comes again replaces the
value stored before. From the empty map on every value is kept under a name of its own exactly
when the names are distinct.
-/

namespace NamedValues

variable {Name Value : Type} [DecidableEq Name]

/-- The named values are inserted in their order. -/
def insertAll (named : List (Name × Value)) (map : AList (fun _ : Name => Value)) :
    AList (fun _ : Name => Value) :=
  named.foldl (fun map entry => map.insert entry.1 entry.2) map

theorem insertAll_cons (entry : Name × Value) (named : List (Name × Value))
    (map : AList (fun _ : Name => Value)) :
    insertAll (entry :: named) map = insertAll named (map.insert entry.1 entry.2) := rfl

/-- A map holds exactly these values, each under a name of its own. -/
def Kept (values : List Value) (map : AList (fun _ : Name => Value)) : Prop :=
  ∃ names : List Name, names.Perm map.keys ∧ names.map map.lookup = values.map some

/-- The names of a map are those that it had and those that were inserted. -/
theorem mem_keys_insertAll {named : List (Name × Value)} {map : AList (fun _ : Name => Value)}
    {name : Name} :
    name ∈ (insertAll named map).keys ↔ name ∈ named.map Prod.fst ∨ name ∈ map.keys := by
  induction named generalizing map with
  | nil => simp [insertAll]
  | cons entry rest inductionHypothesis =>
    have later := @inductionHypothesis (map.insert entry.1 entry.2)
    rw [insertAll_cons, later, ← AList.mem_keys, AList.mem_insert,
      AList.mem_keys, List.map_cons, List.mem_cons]
    tauto

/-- Another name keeps its value. -/
theorem lookup_insertAll_of_notMem {named : List (Name × Value)} {name : Name}
    (absent : name ∉ named.map Prod.fst) (map : AList (fun _ : Name => Value)) :
    (insertAll named map).lookup name = map.lookup name := by
  induction named generalizing map with
  | nil => rfl
  | cons entry rest inductionHypothesis =>
    rw [List.map_cons, List.mem_cons, not_or] at absent
    rw [insertAll_cons, inductionHypothesis absent.2,
      AList.lookup_insert_ne absent.1]

/-- Under distinct names every value is found. -/
theorem map_lookup_insertAll {named : List (Name × Value)}
    (distinct : (named.map Prod.fst).Nodup) (map : AList (fun _ : Name => Value)) :
    (named.map Prod.fst).map (insertAll named map).lookup = (named.map Prod.snd).map some := by
  induction named generalizing map with
  | nil => rfl
  | cons entry rest inductionHypothesis =>
    rw [List.map_cons, List.nodup_cons] at distinct
    have first : (insertAll (entry :: rest) map).lookup entry.1 = some entry.2 := by
      rw [insertAll_cons, lookup_insertAll_of_notMem distinct.1,
        AList.lookup_insert]
    have later := inductionHypothesis distinct.2 (map.insert entry.1 entry.2)
    rw [List.map_cons, List.map_cons, first, List.map_cons, List.map_cons]
    exact congrArg _ later

/-- A map that keeps some values has a name for each. -/
theorem Kept.length_eq {values : List Value} {map : AList (fun _ : Name => Value)}
    (kept : Kept values map) : map.keys.length = values.length := by
  obtain ⟨names, perm, found⟩ := kept
  rw [← perm.length_eq, ← List.length_map map.lookup, found, List.length_map]

/-- Every inserted value is kept exactly when the names are distinct. -/
theorem kept_insertAll_iff (named : List (Name × Value)) :
    Kept (named.map Prod.snd) (insertAll named ∅) ↔ (named.map Prod.fst).Nodup := by
  have sameNames : ∀ name, name ∈ (insertAll named ∅).keys ↔ name ∈ named.map Prod.fst := by
    intro name
    rw [mem_keys_insertAll, AList.keys_empty]
    simp
  have keysNodup := AList.keys_nodup (insertAll named ∅)
  constructor
  · intro kept
    have within := List.subperm_of_subset keysNodup (fun name member => (sameNames name).mp member)
    have enough : (named.map Prod.fst).length ≤ (insertAll named ∅).keys.length := by
      rw [kept.length_eq, List.length_map, List.length_map]
    exact (within.perm_of_length_le enough).nodup_iff.mp keysNodup
  · intro distinct
    refine ⟨named.map Prod.fst, ?_, map_lookup_insertAll distinct ∅⟩
    exact (List.perm_ext_iff_of_nodup distinct keysNodup).mpr (fun name => (sameNames name).symm)

omit [DecidableEq Name] in
/-- The names and the values of numbered elements. -/
theorem map_fst_mapIdx {α : Type} (name : Nat → α → Name) (value : α → Value)
    (elements : List α) :
    (elements.mapIdx (fun number element => (name number element, value element))).map Prod.fst =
      elements.mapIdx name :=
  List.ext_getElem (by simp) (by simp)

omit [DecidableEq Name] in
theorem map_snd_mapIdx {α : Type} (name : Nat → α → Name) (value : α → Value)
    (elements : List α) :
    (elements.mapIdx (fun number element => (name number element, value element))).map Prod.snd =
      elements.map value :=
  List.ext_getElem (by simp) (by simp)

/-- Names with different numbers are distinct. -/
theorem nodup_mapIdx {α β : Type} {name : Nat → α → β}
    (numbered : ∀ {first second a b}, name first a = name second b → first = second)
    (elements : List α) : (elements.mapIdx name).Nodup := by
  rw [List.Nodup, List.pairwise_iff_getElem]
  intro first second _ _ before same
  rw [List.getElem_mapIdx, List.getElem_mapIdx] at same
  exact absurd (numbered same) (Nat.ne_of_lt before)

end NamedValues
