import Mathlib.Data.List.Basic
import Mathlib.Tactic.Ring

/-!
# Interleaved channels

Several channels with the same number of samples are stored frame by frame: all
channels of the first sample, then all channels of the second one, and so on. Each
sample of a channel is a list of one width, so its place is known from its index and
its channel alone.
-/

namespace Interleaving

universe u
variable {α : Type u}

/-- The first blocks of a sequence, one after another. -/
def concatenate (count : Nat) (block : Nat → List α) : List α := (List.range count).flatMap block

/-- The samples of all channels, of which `item index channel` is one. -/
def frames (count channels : Nat) (item : Nat → Nat → List α) : List α :=
  concatenate count (fun index => concatenate channels (item index))

@[simp] theorem concatenate_zero (block : Nat → List α) : concatenate 0 block = [] := rfl

theorem concatenate_succ (count : Nat) (block : Nat → List α) :
    concatenate (count + 1) block = concatenate count block ++ block count := by
  rw [concatenate, concatenate, List.range_succ, List.flatMap_append, List.flatMap_singleton]

/-- Blocks of one width have the width in all, times their number. -/
theorem concatenate_length {count width : Nat} {block : Nat → List α}
    (widths : ∀ index < count, (block index).length = width) :
    (concatenate count block).length = count * width := by
  induction count with
  | zero => rw [concatenate_zero, List.length_nil, Nat.zero_mul]
  | succ count inductionHypothesis =>
    rw [concatenate_succ, List.length_append, widths count (Nat.lt_succ_self count),
      inductionHypothesis (fun index below => widths index (Nat.lt_succ_of_lt below)),
      Nat.succ_mul]

/-- A block stands behind the ones before it. -/
theorem concatenate_split {count index : Nat} (block : Nat → List α) (below : index < count) :
    ∃ following, concatenate count block =
      concatenate index block ++ (block index ++ following) := by
  induction count with
  | zero => omega
  | succ count inductionHypothesis =>
    rw [concatenate_succ]
    rcases Nat.lt_succ_iff_lt_or_eq.mp below with earlier | rfl
    · obtain ⟨following, split⟩ := inductionHypothesis earlier
      exact ⟨following ++ block count, by rw [split, List.append_assoc, List.append_assoc]⟩
    · exact ⟨[], by rw [List.append_nil]⟩

/-- A part of a block of one width, read at its place in the sequence. -/
theorem concatenate_slice {count width index start size : Nat} {block : Nat → List α}
    (widths : ∀ index < count, (block index).length = width) (below : index < count)
    (inside : start + size ≤ width) :
    ((concatenate count block).drop (index * width + start)).take size =
      ((block index).drop start).take size := by
  obtain ⟨following, split⟩ := concatenate_split block below
  have before : (concatenate index block).length = index * width :=
    concatenate_length (fun other earlier => widths other (Nat.lt_trans earlier below))
  have whole := widths index below
  rw [split, ← before, List.drop_length_add_append, List.drop_append_of_le_length (by omega),
    List.take_append_of_le_length (by rw [List.length_drop]; omega)]

/-- All samples have their widths in all. -/
theorem frames_length {count channels width : Nat} {item : Nat → Nat → List α}
    (widths : ∀ index < count, ∀ channel < channels, (item index channel).length = width) :
    (frames count channels item).length = count * (channels * width) :=
  concatenate_length (fun index below => concatenate_length (widths index below))

/-- A sample of a channel is read at its own place. -/
theorem frames_slice {count channels width : Nat} {item : Nat → Nat → List α}
    (widths : ∀ index < count, ∀ channel < channels, (item index channel).length = width)
    {index channel : Nat} (below : index < count) (among : channel < channels) :
    ((frames count channels item).drop ((index * channels + channel) * width)).take width =
      item index channel := by
  have fits : channel * width + width ≤ channels * width := by
    rw [← Nat.succ_mul]
    exact Nat.mul_le_mul_right width among
  have place : (index * channels + channel) * width =
      index * (channels * width) + channel * width := by ring
  have row := concatenate_slice (fun index below => concatenate_length (widths index below)) below
    fits
  have entry : ((concatenate channels (item index)).drop (channel * width + 0)).take width =
      ((item index channel).drop 0).take width :=
    concatenate_slice (widths index below) among (Nat.le_of_eq (Nat.zero_add width))
  rw [Nat.add_zero, List.drop_zero, List.take_of_length_le
    (Nat.le_of_eq (widths index below channel among))] at entry
  rw [frames, place, row, entry]

end Interleaving
