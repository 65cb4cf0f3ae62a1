import Mathlib.Data.List.Nodup
import Mprt.InputFileLoop

/-!
# Removing a file of the input plugin

`remove_file` and `input_close` both remove the file with a url id from the list it is
in, with a search of their own. The search of `remove_file_helper` never moves its
iterator. It looks at the first file of the list until that file is the one, which no
other file in front of it will ever be.
-/

namespace Mprt.FileRemoval

open InputFileLoop

/-- The loop of `remove_file_helper` from an iterator on, with the number of passes it is
given. It returns whether a file was erased, and the list. -/
def removeFileLoop (cnt : List FileEntry) (urlId : Int) : Nat → Nat → Option (Bool × List FileEntry)
  | 0, _ => none
  | fuel + 1, fileIter =>
    match cnt[fileIter]? with
    | none => some (false, cnt)
    | some entry =>
      if entry.urlId = urlId then some (true, cnt.eraseIdx fileIter)
      -- The iterator is the same in the next pass.
      else removeFileLoop cnt urlId fuel fileIter

def removeFileHelper (fuel : Nat) (cnt : List FileEntry) (urlId : Int) :
    Option (Bool × List FileEntry) :=
  removeFileLoop cnt urlId fuel 0

def removeFile (fuel : Nat) (state : InputFileLoop) (urlId : Int) : Option InputFileLoop :=
  (removeFileHelper fuel state.files urlId).bind (fun removed =>
    let after := { state with files := removed.2 }
    if removed.1 then some after
    else (removeFileHelper fuel after.finishedFiles urlId).map (fun finished =>
      { after with finishedFiles := finished.2 }))

/-- The plugin without the file, wherever it is. -/
def without (state : InputFileLoop) (urlId : Int) : InputFileLoop :=
  { state with
    files := state.files.filter (fun entry => entry.urlId ≠ urlId)
    finishedFiles := state.finishedFiles.filter (fun entry => entry.urlId ≠ urlId) }

/-- Each url id occurs once over both lists. -/
def Unique (state : InputFileLoop) : Prop :=
  ((state.files ++ state.finishedFiles).map (·.urlId)).Nodup

/-- `remove_file` returns, has removed the file and nothing else, and has done what
`input_close` does. -/
def Removes (state : InputFileLoop) (urlId : Int) : Prop :=
  ∃ fuel after, removeFile fuel state urlId = some after ∧ after = without state urlId ∧
    after = state.inputClose urlId

/-- The file that is looked at first, if there is any file, has the url id. -/
def FoundAtOnce (state : InputFileLoop) (urlId : Int) : Prop :=
  ∀ first ∈ (state.files ++ state.finishedFiles).head?, first.urlId = urlId

section Search

variable {entries : List FileEntry} {first : FileEntry} {rest : List FileEntry} {urlId : Int}

/-- An erased file with its own url id was the only file with it. -/
theorem eraseFirst_eq_filter (distinct : (entries.map (·.urlId)).Nodup) (urlId : Int) :
    FileEntry.eraseFirst urlId entries = entries.filter (fun entry => entry.urlId ≠ urlId) := by
  induction entries with
  | nil => rfl
  | cons entry others inductionHypothesis =>
    obtain ⟨new, distinct⟩ := List.nodup_cons.mp distinct
    rw [FileEntry.eraseFirst]
    by_cases found : entry.urlId = urlId
    · rw [List.eraseP_cons_of_pos (by simp [found]), List.filter_cons_of_neg (by simp [found])]
      refine (List.filter_eq_self.mpr ?_).symm
      intro other member
      have different : other.urlId ≠ urlId := by
        rintro rfl
        exact new (List.mem_map.mpr ⟨other, member, found.symm⟩)
      exact decide_eq_true different
    · rw [List.eraseP_cons_of_neg (by simp [found]), List.filter_cons_of_pos (by simp [found]),
        ← inductionHypothesis distinct]
      rfl

/-- A search in an empty list ends at once. -/
theorem removeFileHelper_nil (fuel : Nat) (urlId : Int) :
    removeFileHelper (fuel + 1) [] urlId = some (false, []) := rfl

/-- A search ends at once when the first file is the one. -/
theorem removeFileHelper_first (fuel : Nat) (found : first.urlId = urlId) :
    removeFileHelper (fuel + 1) (first :: rest) urlId = some (true, rest) := by
  simp [removeFileHelper, removeFileLoop, found]

/-- A search that starts at another file never ends. -/
theorem removeFileHelper_stuck (fuel : Nat) (other : first.urlId ≠ urlId) :
    removeFileHelper fuel (first :: rest) urlId = none := by
  rw [removeFileHelper]
  induction fuel with
  | zero => rfl
  | succ fuel inductionHypothesis =>
    simpa [removeFileLoop, other] using inductionHypothesis

end Search

section Removal

variable {state : InputFileLoop} {urlId : Int}

/-- `input_close` removes exactly the file. -/
theorem inputClose_eq (unique : Unique state) (urlId : Int) :
    state.inputClose urlId = without state urlId := by
  rw [Unique, List.map_append] at unique
  obtain ⟨waiting, finished, apart⟩ := List.nodup_append.mp unique
  rw [inputClose, eraseFirst_eq_filter waiting, eraseFirst_eq_filter finished, without]
  by_cases found : state.finishedFiles.any (fun entry => entry.urlId = urlId) = true
  · rw [if_pos found]
    obtain ⟨closed, closedMember, same⟩ := List.any_eq_true.mp found
    have rest : state.files.filter (fun entry => entry.urlId ≠ urlId) = state.files := by
      refine List.filter_eq_self.mpr fun entry member => decide_eq_true ?_
      rintro rfl
      exact apart _ (List.mem_map_of_mem member) _ (List.mem_map_of_mem closedMember)
        (of_decide_eq_true same).symm
    rw [rest]
  · rw [if_neg found]
    have rest : state.finishedFiles.filter (fun entry => entry.urlId ≠ urlId) =
        state.finishedFiles := by
      refine List.filter_eq_self.mpr fun entry member => decide_eq_true ?_
      intro same
      exact found (List.any_eq_true.mpr ⟨entry, member, decide_eq_true same⟩)
    rw [rest]

/-- With the file in front, or no file at all, `remove_file` removes it. -/
theorem removeFile_found (unique : Unique state) (found : FoundAtOnce state urlId) (fuel : Nat) :
    removeFile (fuel + 1) state urlId = some (without state urlId) := by
  rw [← inputClose_eq unique, removeFile, inputClose]
  cases waiting : state.files with
  | nil =>
    rw [removeFileHelper_nil, Option.bind_some, if_neg Bool.false_ne_true]
    cases finished : state.finishedFiles with
    | nil =>
      simp only [removeFileHelper_nil, Option.map_some]
      rfl
    | cons first rest =>
      have same : first.urlId = urlId := found first (by rw [waiting, finished]; rfl)
      simp only [removeFileHelper_first fuel same, Option.map_some]
      simp [FileEntry.eraseFirst, same]
  | cons first rest =>
    have same : first.urlId = urlId := found first (by rw [waiting]; rfl)
    have elsewhere : state.finishedFiles.any (fun entry => entry.urlId = urlId) = false := by
      refine Bool.eq_false_iff.mpr fun also => ?_
      obtain ⟨closed, member, closedSame⟩ := List.any_eq_true.mp also
      rw [Unique, waiting, List.map_append] at unique
      obtain ⟨_, _, apart⟩ := List.nodup_append.mp unique
      exact apart _ List.mem_cons_self _ (List.mem_map_of_mem member)
        (same.trans (of_decide_eq_true closedSame).symm)
    rw [removeFileHelper_first fuel same, Option.bind_some, if_pos rfl, elsewhere]
    simp [FileEntry.eraseFirst, same]

/-- With another file in front, `remove_file` never returns. -/
theorem removeFile_stuck (ahead : ¬ FoundAtOnce state urlId) (fuel : Nat) :
    removeFile fuel state urlId = none := by
  rw [FoundAtOnce] at ahead
  push Not at ahead
  obtain ⟨first, front, other⟩ := ahead
  rw [removeFile]
  cases waiting : state.files with
  | nil =>
    rw [waiting, List.nil_append] at front
    obtain ⟨rest, finished⟩ := List.head?_eq_some_iff.mp front
    cases fuel with
    | zero => rfl
    | succ fuel =>
      rw [removeFileHelper_nil, Option.bind_some, if_neg Bool.false_ne_true]
      simp only [finished, removeFileHelper_stuck _ other, Option.map_none]
  | cons head rest =>
    rw [waiting] at front
    obtain rfl := Option.some.inj front
    rw [removeFileHelper_stuck fuel other, Option.bind_none]

end Removal

/-- When each url id occurs once, `remove_file` removes the file as `input_close` does
exactly when the first file there is has the url id, or there is no file. -/
theorem removes_iff (state : InputFileLoop) (urlId : Int) (unique : Unique state) :
    Removes state urlId ↔ FoundAtOnce state urlId := by
  constructor
  · rintro ⟨fuel, after, returned, -⟩
    by_contra ahead
    rw [removeFile_stuck ahead fuel] at returned
    contradiction
  · intro found
    exact ⟨1, without state urlId, removeFile_found unique found 0, rfl,
      (inputClose_eq unique urlId).symm⟩

/-- Two files that wait, and one that is finished. -/
def threeFiles : InputFileLoop :=
  { start 16 3 4 .play (fun _ => CacheBuffer.make 8 4 0 0) with
    files := [.make "first" 1, .make "second" 2]
    finishedFiles := [.make "third" 3] }

/-- The first of them is removed. -/
theorem removes_first : Removes threeFiles 1 :=
  (removes_iff threeFiles 1 (by simp [Unique, threeFiles, start, FileEntry.make])).mpr
    (fun _ found => Option.some.inj found ▸ rfl)

/-- The search for the second of them never ends. -/
theorem second_not_removed : Unique threeFiles ∧ ¬ Removes threeFiles 2 := by
  refine ⟨by simp [Unique, threeFiles, start, FileEntry.make], ?_⟩
  rintro ⟨fuel, after, returned, -⟩
  have ahead : ¬ FoundAtOnce threeFiles 2 := fun found =>
    absurd (found (.make "first" 1) rfl) (by decide)
  rw [removeFile_stuck ahead fuel] at returned
  contradiction

end Mprt.FileRemoval
