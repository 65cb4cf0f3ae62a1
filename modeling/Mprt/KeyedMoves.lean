import Mathlib.Data.List.Induction
import Mathlib.Data.List.Nodup
import Mprt.KeyedSequence

/-!
# Moving several items of a sequence

Several items of a sequence with distinct keys are brought before an anchor that is not
one of them. A splice of a whole range does it at once. Single splices, each before the
anchor, put every item behind those that were moved earlier, so the order in which the
items are moved is the order in which they stand.
-/

universe u v

namespace KeyedSequence

variable {α : Type u} {κ : Type v}

section Lists

/-- Take a range of rows out and insert it before the item in another row, which is not
in the range. -/
def moveRows (items : List α) (source count target : Nat) : List α :=
  let rest := items.take source ++ items.drop (source + count)
  let row := if target ≤ source then target else target - count
  rest.take row ++ (((items.drop source).take count) ++ rest.drop row)

/-- Moving a range of rows is a rearrangement. -/
theorem moveRows_perm (items : List α) (source count target : Nat) :
    (moveRows items source count target).Perm items := by
  have parts : items = items.take source ++
      ((items.drop source).take count ++ items.drop (source + count)) := by
    rw [← List.drop_drop, List.take_append_drop, List.take_append_drop]
  have middle : ∀ rest segment : List α, ∀ row, (rest.take row ++ (segment ++ rest.drop row)).Perm
      (segment ++ rest) := by
    intro rest segment row
    have swapped := List.perm_append_comm_assoc (rest.take row) segment (rest.drop row)
    rwa [List.take_append_drop] at swapped
  refine (middle _ _ _).trans ?_
  refine (List.perm_append_comm_assoc _ _ _).trans ?_
  exact List.Perm.of_eq parts.symm

/-- The rows of a range between two parts. -/
theorem range_parts (first segment last : List α) :
    let items := first ++ (segment ++ last)
    items.take first.length = first ∧ (items.drop first.length).take segment.length = segment ∧
      items.drop (first.length + segment.length) = last := by
  refine ⟨List.take_left, ?_, ?_⟩
  · rw [List.drop_left, List.take_left]
  · rw [← List.drop_drop, List.drop_left, List.drop_left]

/-- Rows that are there are a range between two parts. -/
theorem exists_range {items : List α} {source count : Nat}
    (inside : source + count ≤ items.length) :
    ∃ first segment last, items = first ++ (segment ++ last) ∧ first.length = source ∧
      segment.length = count := by
  refine ⟨items.take source, (items.drop source).take count, (items.drop source).drop count,
    ?_, ?_, ?_⟩
  · rw [List.take_append_drop, List.take_append_drop]
  · rw [List.length_take]
    omega
  · rw [List.length_take, List.length_drop]
    omega

/-- A range is moved from behind its target. -/
theorem moveRows_up (first mid segment last : List α) :
    moveRows (first ++ (mid ++ (segment ++ last))) (first.length + mid.length) segment.length
      first.length = first ++ (segment ++ (mid ++ last)) := by
  obtain ⟨taken, range, dropped⟩ := range_parts (first ++ mid) segment last
  rw [← List.append_assoc first mid, ← List.length_append]
  have ahead : first.length ≤ (first ++ mid).length := by simp
  simp only [moveRows, taken, range, dropped, if_pos ahead]
  rw [List.append_assoc, List.take_left, List.drop_left]

/-- A range is moved from in front of its target. -/
theorem moveRows_down (first segment mid last : List α) :
    moveRows (first ++ (segment ++ (mid ++ last))) first.length segment.length
      (first.length + (segment.length + mid.length)) =
      first ++ (mid ++ (segment ++ last)) := by
  obtain ⟨taken, range, dropped⟩ := range_parts first segment (mid ++ last)
  simp only [moveRows, taken, range, dropped]
  split
  · rename_i behind
    have noSegment : segment = [] := List.eq_nil_of_length_eq_zero (by omega)
    have noMid : mid = [] := List.eq_nil_of_length_eq_zero (by omega)
    simp [noSegment, noMid]
  · have row : first.length + (segment.length + mid.length) - segment.length =
        (first ++ mid).length := by
      rw [List.length_append]
      omega
    rw [row, ← List.append_assoc first mid, List.take_left, List.drop_left, List.append_assoc]

/-- Take an item out between two parts and insert it where the rest splits. -/
theorem moveRow_split {first rest front back : List α} {item : α} {source target : Nat}
    (split : first ++ rest = front ++ back) (row : first.length = source)
    (inserted : front.length = target) :
    moveRow (first ++ item :: rest) source target = front ++ item :: back := by
  subst row inserted
  have found : (first ++ item :: rest)[first.length]? = some item := by simp
  have erased : (first ++ item :: rest).eraseIdx first.length = front ++ back := by
    rw [List.eraseIdx_append_of_length_le (Nat.le_refl _), Nat.sub_self, List.eraseIdx_cons_zero,
      split]
  rw [moveRow, found]
  simp only [erased, insertIdx_append]

end Lists

variable [DecidableEq κ] {key : α → κ}

/-- The items without some of them, and these right before the anchor. -/
def bringBefore (key : α → κ) (anchor : κ) (moved : List κ) (items : List α) : List α :=
  (items.filter (key · ∉ moved)).flatMap (fun item =>
    if key item = anchor then items.filter (key · ∈ moved) ++ [item] else [item])

section Parts

variable {first rest before after items : List α} {item anchor : α} {moved : List κ}

/-- The row of an item is the number of items in front of it. -/
theorem idxOf_split (distinct : ((first ++ item :: rest).map key).Nodup) :
    ((first ++ item :: rest).map key).idxOf (key item) = first.length := by
  rw [List.map_append, List.map_cons] at distinct ⊢
  have new : key item ∉ first.map key := fun member =>
    (List.nodup_append.mp distinct).2.2 _ member _ List.mem_cons_self rfl
  rw [List.idxOf_append_of_notMem new, List.idxOf_cons_self, List.length_map, Nat.add_zero]

/-- All items but those with one key. -/
theorem filter_ne_self (absent : key item ∉ items.map key) :
    items.filter (key · ≠ key item) = items := by
  refine List.filter_eq_self.mpr fun other member => decide_eq_true ?_
  intro same
  exact absent (same ▸ List.mem_map_of_mem member)

theorem filter_ne_split (distinct : ((first ++ item :: rest).map key).Nodup) :
    (first ++ item :: rest).filter (key · ≠ key item) = first ++ rest := by
  rw [List.map_append, List.map_cons] at distinct
  obtain ⟨-, right, apart⟩ := List.nodup_append.mp distinct
  have notFirst : key item ∉ first.map key := fun member =>
    apart _ member _ List.mem_cons_self rfl
  rw [List.filter_append, List.filter_cons_of_neg (by simp), filter_ne_self notFirst,
    filter_ne_self (List.nodup_cons.mp right).1]

/-- One item is moved right before another. -/
theorem moveRow_before (distinct : ((before ++ anchor :: after).map key).Nodup)
    (member : item ∈ before ++ after) :
    let items := before ++ anchor :: after
    moveRow items ((items.map key).idxOf (key item))
        (landing ((items.map key).idxOf (key item)) ((items.map key).idxOf (key anchor))) =
      before.filter (key · ≠ key item) ++ item :: anchor :: after.filter (key · ≠ key item) := by
  intro items
  have anchorRow : (items.map key).idxOf (key anchor) = before.length := idxOf_split distinct
  have apart := distinct
  rw [List.map_append, List.map_cons] at apart
  obtain ⟨left, right, apart⟩ := List.nodup_append.mp apart
  rcases List.mem_append.mp member with ahead | behind
  · obtain ⟨first, mid, rfl⟩ := List.append_of_mem ahead
    have shape : items = first ++ item :: (mid ++ anchor :: after) := by simp [items]
    have row : (items.map key).idxOf (key item) = first.length := by
      rw [shape]
      exact idxOf_split (shape ▸ distinct)
    have elsewhere : key item ∉ after.map key := fun also =>
      apart _ (List.mem_map_of_mem ahead) _ (List.mem_cons_of_mem _ also) rfl
    have lower : first.length < (first ++ item :: mid).length := by simp
    rw [anchorRow, row, landing, if_pos lower, filter_ne_split left, filter_ne_self elsewhere, shape]
    exact moveRow_split (List.append_assoc _ _ _).symm rfl (by simp)
  · obtain ⟨mid, last, rfl⟩ := List.append_of_mem behind
    have shape : items = (before ++ anchor :: mid) ++ item :: last := by simp [items]
    have row : (items.map key).idxOf (key item) = (before ++ anchor :: mid).length := by
      rw [shape]
      exact idxOf_split (shape ▸ distinct)
    have elsewhere : key item ∉ before.map key := fun also =>
      apart _ also _ (List.mem_cons_of_mem _ (List.mem_map_of_mem behind)) rfl
    have higher : ¬ (before ++ anchor :: mid).length < before.length := by simp
    rw [anchorRow, row, landing, if_neg higher, filter_ne_self elsewhere,
      filter_ne_split (List.nodup_cons.mp right).2, shape]
    exact moveRow_split (by simp) rfl rfl

/-- The items that stand before and behind the anchor, with the moved ones between. -/
theorem bringBefore_parts (distinct : ((before ++ anchor :: after).map key).Nodup)
    (other : key anchor ∉ moved) :
    bringBefore key (key anchor) moved (before ++ anchor :: after) =
      before.filter (key · ∉ moved) ++ ((before ++ after).filter (key · ∈ moved) ++
        anchor :: after.filter (key · ∉ moved)) := by
  rw [List.map_append, List.map_cons] at distinct
  obtain ⟨-, right, apart⟩ := List.nodup_append.mp distinct
  have still : ∀ part : List α, key anchor ∉ part.map key → ∀ put : List α,
      (part.filter (key · ∉ moved)).flatMap (fun item =>
        if key item = key anchor then put ++ [item] else [item]) =
        part.filter (key · ∉ moved) := by
    intro part absent put
    have each : ∀ item ∈ part.filter (key · ∉ moved),
        (if key item = key anchor then put ++ [item] else [item]) = [item] := by
      intro item member
      refine if_neg fun same => absent ?_
      exact same ▸ List.mem_map_of_mem (List.mem_of_mem_filter member)
    rw [List.flatMap_congr each, List.flatMap_singleton']
  have kept : (anchor :: after).filter (key · ∉ moved) = anchor :: after.filter (key · ∉ moved) :=
    List.filter_cons_of_pos (by simp [other])
  have dropped : (anchor :: after).filter (key · ∈ moved) = after.filter (key · ∈ moved) :=
    List.filter_cons_of_neg (by simp [other])
  have before' := fun member => apart _ member _ List.mem_cons_self rfl
  simp only [bringBefore, List.filter_append, kept, dropped, List.flatMap_append,
    List.flatMap_cons, if_true]
  rw [still before before', still after (List.nodup_cons.mp right).1]
  simp

/-- Items that are not moved. -/
theorem filter_apart (apart : ∀ item ∈ items, key item ∉ moved) :
    items.filter (key · ∉ moved) = items ∧ items.filter (key · ∈ moved) = [] := by
  constructor
  · exact List.filter_eq_self.mpr fun item member => decide_eq_true (apart item member)
  · refine List.filter_eq_nil_iff.mpr fun item member chosen => ?_
    exact apart item member (of_decide_eq_true chosen)

/-- Items that are all moved. -/
theorem filter_moved : items.filter (key · ∉ items.map key) = [] ∧
    items.filter (key · ∈ items.map key) = items := by
  constructor
  · refine List.filter_eq_nil_iff.mpr fun item member left => ?_
    exact of_decide_eq_true left (List.mem_map_of_mem member)
  · exact List.filter_eq_self.mpr fun item member => decide_eq_true (List.mem_map_of_mem member)

/-- Moving a range brings its items before the anchor. -/
theorem moveRows_eq_bringBefore {source count : Nat}
    (distinct : (items.map key).Nodup) (target : anchor ∈ items)
    (inside : source + count ≤ items.length)
    (other : key anchor ∉ ((items.map key).drop source).take count) :
    moveRows items source count ((items.map key).idxOf (key anchor)) =
      bringBefore key (key anchor) (((items.map key).drop source).take count) items := by
  obtain ⟨first, segment, last, rfl, rfl, rfl⟩ := exists_range inside
  have range : (((first ++ (segment ++ last)).map key).drop first.length).take segment.length =
      segment.map key := by
    rw [← List.map_drop, ← List.map_take, List.drop_left, List.take_left]
  rw [range] at other ⊢
  have parts := distinct
  simp only [List.map_append] at parts
  obtain ⟨-, right, fromFirst⟩ := List.nodup_append.mp parts
  obtain ⟨-, -, fromLast⟩ := List.nodup_append.mp right
  have firstApart : ∀ item ∈ first, key item ∉ segment.map key := fun item member also =>
    fromFirst _ (List.mem_map_of_mem member) _ (List.mem_append_left _ also) rfl
  have lastApart : ∀ item ∈ last, key item ∉ segment.map key := fun item member also =>
    fromLast _ also _ (List.mem_map_of_mem member) rfl
  -- The anchor is in front of the range or behind it.
  rw [List.mem_append, List.mem_append] at target
  rcases target with ahead | among | behind
  · obtain ⟨before, mid, rfl⟩ := List.append_of_mem ahead
    have shape : before ++ anchor :: mid ++ (segment ++ last) =
        before ++ anchor :: (mid ++ (segment ++ last)) := by simp
    have ofBefore := filter_apart fun item member =>
      firstApart item (List.mem_append_left _ member)
    have ofMid := filter_apart fun item member =>
      firstApart item (List.mem_append_right _ (List.mem_cons_of_mem _ member))
    have moved := moveRows_up before (anchor :: mid) segment last
    rw [shape, idxOf_split (shape ▸ distinct), bringBefore_parts (shape ▸ distinct) other]
    simp only [List.filter_append, ofBefore, ofMid, filter_apart lastApart, filter_moved]
    simpa using moved
  · exact absurd (List.mem_map_of_mem among) other
  · obtain ⟨mid, after, rfl⟩ := List.append_of_mem behind
    have shape : first ++ (segment ++ (mid ++ anchor :: after)) =
        (first ++ (segment ++ mid)) ++ anchor :: after := by simp
    have ofMid := filter_apart fun item member =>
      lastApart item (List.mem_append_left _ member)
    have ofAfter := filter_apart fun item member =>
      lastApart item (List.mem_append_right _ (List.mem_cons_of_mem _ member))
    have moved := moveRows_down first segment mid (anchor :: after)
    rw [shape, idxOf_split (shape ▸ distinct), bringBefore_parts (shape ▸ distinct) other]
    simp only [List.filter_append, filter_apart firstApart, ofMid, ofAfter, filter_moved]
    simpa using moved

end Parts

/-! ## Operations of a sequence -/

/-- Move a range of rows before the item in another row. -/
def spliceRange (sequence : KeyedSequence key) (source count target : Nat) : KeyedSequence key :=
  ⟨moveRows sequence.items source count target,
    ((moveRows_perm sequence.items source count target).map key).nodup_iff.mpr sequence.distinct⟩

/-- Move items one by one before an anchor. -/
def bringEach (sequence : KeyedSequence key) (anchor : κ) (order : List κ) : KeyedSequence key :=
  order.foldl (fun reached moved => reached.splice (reached.row moved) (reached.row anchor)) sequence

variable {sequence : KeyedSequence key} {before after moved : List α} {anchor : α}

/-- Items moved one by one stand before the anchor in the order in which they were moved.
The induction is on the items from the last one on. -/
theorem bringEach_items (parts : sequence.items = before ++ anchor :: after)
    (members : ∀ item ∈ moved, item ∈ before ++ after) (distinct : (moved.map key).Nodup) :
    (sequence.bringEach (key anchor) (moved.map key)).items =
      before.filter (key · ∉ moved.map key) ++ moved ++
        anchor :: after.filter (key · ∉ moved.map key) := by
  induction moved using List.reverseRecOn with
  | nil => simpa [bringEach] using parts
  | append_singleton earlier item inductionHypothesis =>
    rw [List.map_append, List.nodup_append] at distinct
    obtain ⟨distinct, -, apart⟩ := distinct
    have new : key item ∉ earlier.map key := fun member =>
      apart _ member _ (List.mem_map_of_mem List.mem_cons_self) rfl
    have reached := inductionHypothesis
      (fun other member => members other (List.mem_append_left _ member)) distinct
    have there : item ∈ before.filter (key · ∉ earlier.map key) ++ earlier ++
        after.filter (key · ∉ earlier.map key) := by
      have kept : ∀ part : List α, item ∈ part → item ∈ part.filter (key · ∉ earlier.map key) :=
        fun part member => List.mem_filter.mpr ⟨member, decide_eq_true new⟩
      rcases List.mem_append.mp (members item (by simp)) with ahead | behind
      · exact List.mem_append_left _ (List.mem_append_left _ (kept before ahead))
      · exact List.mem_append_right _ (kept after behind)
    have keys := (sequence.bringEach (key anchor) (earlier.map key)).distinct
    rw [reached] at keys
    have next := moveRow_before keys there
    have later : ∀ part : List α,
        (part.filter (key · ∉ earlier.map key)).filter (key · ≠ key item) =
          part.filter (key · ∉ (earlier ++ [item]).map key) := by
      intro part
      rw [List.filter_filter]
      refine List.filter_congr fun other _ => ?_
      simp only [List.map_append, List.mem_append, List.map_cons, List.map_nil,
        List.mem_singleton, not_or, Bool.decide_and, Bool.and_comm]
    have taken : (sequence.bringEach (key anchor) ((earlier ++ [item]).map key)).items =
        ((sequence.bringEach (key anchor) (earlier.map key)).splice
          ((sequence.bringEach (key anchor) (earlier.map key)).row (key item))
          ((sequence.bringEach (key anchor) (earlier.map key)).row (key anchor))).items := by
      rw [bringEach, List.map_append, List.foldl_append]
      rfl
    rw [taken]
    simp only [splice, row, KeyedSequence.keys, reached]
    rw [next, List.filter_append, later, later, filter_ne_self new]
    simp

/-- The items with keys that are given in their order. -/
theorem filter_keys {items : List α} {chosen : List κ} (distinct : (items.map key).Nodup)
    (order : chosen.Sublist (items.map key)) :
    (items.filter (key · ∈ chosen)).map key = chosen := by
  have filtered : (items.filter (key · ∈ chosen)).map key =
      (items.map key).filter (· ∈ chosen) := by
    rw [List.filter_map]
    rfl
  have within : chosen.Sublist ((items.map key).filter (· ∈ chosen)) := by
    have kept := order.filter (fun wanted => decide (wanted ∈ chosen))
    rwa [List.filter_eq_self.mpr fun wanted member => decide_eq_true member] at kept
  have same : ((items.map key).filter (· ∈ chosen)).Perm chosen := by
    refine (List.perm_ext_iff_of_nodup (distinct.filter _) (distinct.sublist order)).mpr ?_
    intro wanted
    simp only [List.mem_filter, decide_eq_true_eq]
    exact ⟨And.right, fun member => ⟨order.subset member, member⟩⟩
  rw [filtered]
  exact (within.eq_of_length same.length_eq.symm).symm

/-- Items that differ are in the order of their reverse only when there is at most one. -/
theorem reverse_eq_iff {items : List α} (distinct : items.Nodup) :
    items.reverse = items ↔ items.length ≤ 1 := by
  constructor
  · intro same
    by_contra several
    have firstLast : items[items.length - 1] = items[0] := by
      have entry := List.getElem_reverse (l := items) (i := 0) (by simp; omega)
      simp only [same] at entry
      rw [entry]
      congr 1
    have rows := (distinct.getElem_inj_iff).mp firstLast
    omega
  · intro few
    rcases items with _ | ⟨first, _ | ⟨second, rest⟩⟩
    · rfl
    · rfl
    · simp at few

/-- Items moved in the reverse of their order stand in their order only when there is at
most one. -/
theorem bringEach_reverse_iff (sequence : KeyedSequence key) {anchor : κ} {chosen : List κ}
    (order : chosen.Sublist sequence.keys) (target : anchor ∈ sequence.keys)
    (other : anchor ∉ chosen) :
    (sequence.bringEach anchor chosen.reverse).items =
      bringBefore key anchor chosen sequence.items ↔ chosen.length ≤ 1 := by
  obtain ⟨item, there, rfl⟩ := List.mem_map.mp target
  obtain ⟨before, after, parts⟩ := List.append_of_mem there
  have distinct := sequence.distinct
  rw [parts] at distinct
  have keys := filter_keys sequence.distinct order
  have among : sequence.items.filter (key · ∈ chosen) =
      (before ++ after).filter (key · ∈ chosen) := by
    rw [parts, List.filter_append, List.filter_append, List.filter_cons_of_neg (by simp [other])]
  obtain ⟨moved, isMoved⟩ : ∃ moved, moved = (before ++ after).filter (key · ∈ chosen) := ⟨_, rfl⟩
  rw [among, ← isMoved] at keys
  have reversed : chosen.reverse = moved.reverse.map key := by rw [List.map_reverse, keys]
  have members : ∀ item ∈ moved.reverse, item ∈ before ++ after := by
    intro item member
    rw [isMoved] at member
    exact List.mem_of_mem_filter (List.mem_reverse.mp member)
  have chosenDistinct : (moved.reverse.map key).Nodup := by
    rw [← reversed, List.nodup_reverse]
    exact sequence.distinct.sublist order
  have same : ∀ item, key item ∈ moved.reverse.map key ↔ key item ∈ chosen := by
    intro item
    rw [← reversed, List.mem_reverse]
  have movedDistinct : moved.Nodup := by
    refine List.Nodup.of_map key ?_
    rw [keys]
    exact sequence.distinct.sublist order
  rw [reversed, bringEach_items parts members chosenDistinct, parts, bringBefore_parts distinct other,
    ← isMoved]
  simp only [same, List.append_assoc, List.append_cancel_left_eq, List.append_cancel_right_eq]
  rw [reverse_eq_iff movedDistinct, ← keys, List.length_map]

end KeyedSequence
