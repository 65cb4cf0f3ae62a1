import Mprt.LabelledRuns
import Mprt.InputFileLoop

/-!
# The files of the input plugin

A file is waiting, open, or finished. Files wait and are read in one list and
stay in another after their end, from which a seek brings them back to the
front. Seen as url ids with a flag whether the file is open, every job adds a
waiting file, opens the first one, finishes it, brings a finished one back, or
erases one.

A file is opened only while there are fewer finished files than the maximum and
no other file is open, so the open and the finished files together are never
more than the maximum.
-/

namespace Mprt.FileQueue

open InputFileLoop

/-- A url id with the flag that the file is open. -/
abbrev Key := Int × Bool

def key (entry : FileEntry) : Key := (entry.urlId, entry.isOpen)

def keys (entries : List FileEntry) : List Key := entries.map key

/-- The url ids of the files that are still to be added. -/
def pendingIds (posted : List (Posted InputJob)) : List Int :=
  posted.filterMap (fun handler =>
    match handler with
    | .job (.addFile _ urlId) => some urlId
    | _ => none)

/-- Every url id is used once, no file is open behind one that is not, finished
files are open, and the open and finished files are not too many. -/
structure Queued (maxFinishFiles counter : Int) (files finished : List Key)
    (pending : List Int) : Prop where
  unique : ((files ++ finished).map Prod.fst ++ pending).Nodup
  below : ∀ urlId ∈ (files ++ finished).map Prod.fst ++ pending, urlId ≤ counter
  ordered : files.Pairwise (fun earlier later => later.2 = true → earlier.2 = true)
  finishedOpen : ∀ file ∈ finished, file.2 = true
  bounded : ((files.countP Prod.snd + finished.length : Nat) : Int) ≤ maxFinishFiles

namespace Queued

variable {maxFinishFiles counter : Int} {files finished : List Key} {pending : List Int}

/-- Fewer files are no less in order. -/
theorem sublist {fewer : List Key} {fewerFinished : List Key} {fewerPending : List Int}
    (queued : Queued maxFinishFiles counter files finished pending) (kept : fewer.Sublist files)
    (keptFinished : fewerFinished.Sublist finished) (keptPending : fewerPending.Sublist pending) :
    Queued maxFinishFiles counter fewer fewerFinished fewerPending := by
  have all : ((fewer ++ fewerFinished).map Prod.fst ++ fewerPending).Sublist
      ((files ++ finished).map Prod.fst ++ pending) :=
    ((kept.append keptFinished).map _).append keptPending
  refine ⟨queued.unique.sublist all, fun urlId member => queued.below urlId (all.mem member),
    queued.ordered.sublist kept, fun file member => queued.finishedOpen file
      (keptFinished.mem member), ?_⟩
  have count := kept.countP_le (p := Prod.snd)
  have length := keptFinished.length_le
  have bounded := queued.bounded
  omega

/-- The next number of the counter is new. -/
theorem post (queued : Queued maxFinishFiles counter files finished pending) :
    Queued maxFinishFiles (counter + 1) files finished (pending ++ [counter + 1]) := by
  refine ⟨?_, ?_, queued.ordered, queued.finishedOpen, queued.bounded⟩
  · rw [← List.append_assoc, List.nodup_append_comm, List.singleton_append, List.nodup_cons]
    refine ⟨?_, queued.unique⟩
    intro member
    have below := queued.below _ member
    omega
  · intro urlId member
    rw [← List.append_assoc, List.mem_append, List.mem_singleton] at member
    rcases member with old | rfl
    · have below := queued.below urlId old
      omega
    · exact Int.le_refl _

/-- A pending file is added behind the others. -/
theorem add {urlId : Int}
    (queued : Queued maxFinishFiles counter files finished (urlId :: pending)) :
    Queued maxFinishFiles counter (files ++ [(urlId, false)]) finished pending := by
  have moved : ((files ++ [(urlId, false)] ++ finished).map Prod.fst ++ pending).Perm
      ((files ++ finished).map Prod.fst ++ urlId :: pending) := by
    simp only [List.map_append, List.map_cons, List.append_assoc, List.cons_append,
      List.nil_append]
    refine List.Perm.append_left _ ?_
    exact List.perm_middle.symm
  refine ⟨moved.nodup_iff.mpr queued.unique,
    fun other member => queued.below other (moved.mem_iff.mp member), ?_, queued.finishedOpen, ?_⟩
  · rw [List.pairwise_append]
    refine ⟨queued.ordered, List.pairwise_singleton _ _, ?_⟩
    intro earlier _ later last isOpen
    rw [List.mem_singleton.mp last] at isOpen
    exact absurd isOpen Bool.false_ne_true
  · have bounded := queued.bounded
    rw [List.countP_append, List.countP_singleton]
    simpa using bounded

/-- With fewer finished files than the maximum the first file may be opened. -/
theorem openFirst {urlId : Int}
    (queued : Queued maxFinishFiles counter ((urlId, false) :: files) finished pending)
    (room : (finished.length : Int) < maxFinishFiles) :
    Queued maxFinishFiles counter ((urlId, true) :: files) finished pending := by
  obtain ⟨first, others⟩ := List.pairwise_cons.mp queued.ordered
  have closed : ∀ file ∈ files, file.2 = false := by
    intro file member
    apply Bool.eq_false_iff.mpr
    intro isOpen
    exact absurd (first file member isOpen) Bool.false_ne_true
  have none : files.countP Prod.snd = 0 := by
    rw [List.countP_eq_zero]
    intro file member isOpen
    exact absurd isOpen (by rw [closed file member]; exact Bool.false_ne_true)
  refine ⟨queued.unique, queued.below, ?_, queued.finishedOpen, ?_⟩
  · exact List.pairwise_cons.mpr ⟨fun _ _ _ => rfl, others⟩
  · rw [List.countP_cons_of_pos rfl, none]
    omega

/-- The first file, when it is open, may be finished. -/
theorem close {urlId : Int}
    (queued : Queued maxFinishFiles counter ((urlId, true) :: files) finished pending) :
    Queued maxFinishFiles counter files (finished ++ [(urlId, true)]) pending := by
  have moved : ((files ++ (finished ++ [(urlId, true)])).map Prod.fst ++ pending).Perm
      ((((urlId, true) :: files) ++ finished).map Prod.fst ++ pending) := by
    refine List.Perm.append_right _ (List.Perm.map _ ?_)
    rw [← List.append_assoc]
    exact List.perm_append_singleton _ _
  refine ⟨moved.nodup_iff.mpr queued.unique,
    fun other member => queued.below other (moved.mem_iff.mp member),
    (List.pairwise_cons.mp queued.ordered).2, ?_, ?_⟩
  · intro file member
    rcases List.mem_append.mp member with before | last
    · exact queued.finishedOpen file before
    · rw [List.mem_singleton.mp last]
  · have bounded := queued.bounded
    rw [List.countP_cons_of_pos rfl] at bounded
    rw [List.length_append, List.length_singleton]
    omega

/-- A finished file may come back to the front. -/
theorem reopen {before after : List Key} {file : Key}
    (queued : Queued maxFinishFiles counter files (before ++ file :: after) pending) :
    Queued maxFinishFiles counter (file :: files) (before ++ after) pending := by
  have isOpen : file.2 = true := queued.finishedOpen file (by simp)
  have moved : ((file :: files ++ (before ++ after)).map Prod.fst ++ pending).Perm
      ((files ++ (before ++ file :: after)).map Prod.fst ++ pending) := by
    refine List.Perm.append_right _ (List.Perm.map _ ?_)
    rw [List.cons_append, ← List.append_assoc files, ← List.append_assoc files]
    exact List.perm_middle.symm
  refine ⟨moved.nodup_iff.mpr queued.unique,
    fun other member => queued.below other (moved.mem_iff.mp member), ?_, ?_, ?_⟩
  · exact List.pairwise_cons.mpr ⟨fun _ _ _ => isOpen, queued.ordered⟩
  · intro other member
    refine queued.finishedOpen other ?_
    rcases List.mem_append.mp member with first | last
    · exact List.mem_append_left _ first
    · exact List.mem_append_right _ (List.mem_cons_of_mem _ last)
  · have bounded := queued.bounded
    rw [List.countP_cons_of_pos isOpen]
    simp only [List.length_append, List.length_cons] at bounded ⊢
    omega

end Queued

/-- The invariant of the plugin. -/
def Invariant (state : InputFileLoop) : Prop :=
  Queued state.maxFinishFiles state.urlId (keys state.files) (keys state.finishedFiles)
    (pendingIds state.tasker.posted)

/-- What the invariant is for: url ids are unique, the open files come first and
are, with the finished ones, not more than the maximum, and so the test of the
finished files never stops a file that is open. -/
structure Bounded (state : InputFileLoop) : Prop where
  unique : ((state.files ++ state.finishedFiles).map (·.urlId)).Nodup
  openFirst : state.files.filter (·.isOpen) <+: state.files
  bounded : ((state.files.countP (·.isOpen) + state.finishedFiles.length : Nat) : Int) ≤
    state.maxFinishFiles
  reads : ∀ entry ∈ state.files, entry.isOpen = true → state.gateClosed = false

/-- Changes that keep the keys are not seen. -/
theorem keys_changeFirst (urlId : Int) {change : FileEntry → FileEntry}
    (keeps : ∀ entry, key (change entry) = key entry) (entries : List FileEntry) :
    keys (FileEntry.changeFirst urlId change entries) = keys entries := by
  induction entries with
  | nil => rfl
  | cons entry rest inductionHypothesis =>
    rw [FileEntry.changeFirst]
    split
    · exact congrArg (· :: keys rest) (keeps entry)
    · exact congrArg (key entry :: ·) inductionHypothesis

theorem keys_eraseFirst (urlId : Int) (entries : List FileEntry) :
    (keys (FileEntry.eraseFirst urlId entries)).Sublist (keys entries) :=
  List.eraseP_sublist.map key

theorem keys_length (entries : List FileEntry) : (keys entries).length = entries.length :=
  List.length_map key

/-- The gate is open only while there are fewer finished files than the maximum. -/
theorem Invariant.room {state : InputFileLoop} (invariant : Invariant state)
    (gate : state.gateClosed = false) :
    ((keys state.finishedFiles).length : Int) < state.maxFinishFiles := by
  have bounded := invariant.bounded
  have closed := of_decide_eq_false gate
  rw [keys_length] at bounded ⊢
  omega

/-- Reading the open first file keeps the invariant. -/
theorem readFile_invariant {state : InputFileLoop} {entry : FileEntry} {rest : List FileEntry}
    (invariant : Invariant state) (first : state.files = entry :: rest)
    (isOpen : entry.isOpen = true) : Invariant (state.readFile entry rest).2 := by
  rw [readFile]
  split
  · exact invariant
  · rename_i address buffer
    split
    · exact invariant
    · rename_i details filled isFileFinished read
      have same : keys ({ entry with details := details } :: rest) = keys state.files := by
        rw [first]
        rfl
      have kept : Invariant ({ state with
          files := { entry with details := details } :: rest }.setBuffer address filled) := by
        simp only [Invariant, setBuffer, same]
        exact invariant
      cases isFileFinished with
      | false => exact kept
      | true =>
        have opened : keys state.files = (entry.urlId, true) :: keys rest := by
          rw [first, ← isOpen]
          rfl
        have finished : keys (state.finishedFiles ++ [{ entry with details := details }]) =
            keys state.finishedFiles ++ [(entry.urlId, true)] := by
          simp only [keys, List.map_append, List.map_cons, List.map_nil, key, isOpen]
        simp only [if_true, Invariant, setBuffer, closeFile, finished]
        rw [Invariant, opened] at invariant
        exact invariant.close

/-- What `open_file` does to the list of files: it fails and erases the file or
does nothing, or the file is the first one and open. -/
theorem openFile_invariant {state opened : InputFileLoop} {disk : Disk} {entry : FileEntry}
    {rest : List FileEntry} {isOpened : Bool} (invariant : Invariant state)
    (first : state.files = entry :: rest) (closed : entry.isOpen = false)
    (gate : state.gateClosed = false)
    (taken : state.openFile disk entry rest = some (isOpened, opened)) :
    Invariant opened ∧
      (isOpened = true → ∃ entry rest, opened.files = entry :: rest ∧ entry.isOpen = true) := by
  have waiting : keys state.files = (entry.urlId, false) :: keys rest := by
    rw [first, ← closed]
    rfl
  have erased : ∀ told, Invariant ({ state with files := rest }.callInputOpened false told) := by
    intro told
    refine Queued.sublist invariant ?_ (List.Sublist.refl _) (List.Sublist.refl _)
    rw [waiting]
    exact List.sublist_cons_self _ _
  simp only [openFile] at taken
  split at taken
  · simp only [Option.some.injEq, Prod.mk.injEq] at taken
    obtain ⟨rfl, rfl⟩ := taken
    exact ⟨invariant, fun impossible => absurd impossible Bool.false_ne_true⟩
  · cases disk with
    | missing | unopened size =>
      simp only [Option.some.injEq, Prod.mk.injEq] at taken
      obtain ⟨rfl, rfl⟩ := taken
      exact ⟨erased _, fun impossible => absurd impossible Bool.false_ne_true⟩
    | sizeError => contradiction
    | opened size content =>
      simp only [Option.some.injEq, Prod.mk.injEq] at taken
      obtain ⟨rfl, rfl⟩ := taken
      refine ⟨?_, fun _ => ⟨_, _, rfl, rfl⟩⟩
      have room := invariant.room gate
      rw [Invariant, waiting] at invariant
      exact invariant.openFirst room

/-- `try_read` keeps the invariant. -/
theorem tryRead_invariant {state : InputFileLoop} (invariant : Invariant state) (disk : Disk) :
    Invariant (state.tryRead disk) := by
  have rearmed : ∀ (read : InputFileLoop) (nextDur : Int), Invariant read →
      Invariant (read.rearm nextDur) := by
    intro read nextDur kept
    rw [rearm]
    split
    · exact kept
    · obtain ⟨_, _, posted, _⟩ := read.tasker.createGetTimer_armed .tryRead nextDur
      simp only [Invariant, AsyncTasker.addAsyncJobThreadInternal, posted]
      exact kept
  rw [tryRead]
  split
  · exact invariant
  · split
    · exact invariant
    · rename_i entry rest first
      split
      · exact invariant
      · apply rearmed
        rw [tryReadBody]
        split
        · exact invariant
        · rename_i gate
          split
          · rename_i isOpen
            exact readFile_invariant invariant first isOpen
          · rename_i closed
            split
            · exact invariant
            · rename_i isOpened opened taken
              obtain ⟨kept, read⟩ := openFile_invariant invariant first
                (Bool.eq_false_iff.mpr closed) (Bool.eq_false_iff.mpr gate) taken
              split
              · rename_i entry rest found
                obtain ⟨_, _, same, isOpen⟩ := read rfl
                rw [found, List.cons.injEq] at same
                exact readFile_invariant kept found (same.1 ▸ isOpen)
              · exact kept

/-- Seeking a file keeps the invariant: a finished file that comes back to the
front is open. -/
theorem seekFiles_invariant {state sought : InputFileLoop} {urlId seekPoint : Int}
    (invariant : Invariant state) (taken : state.seekFiles urlId seekPoint = some sought) :
    Invariant sought := by
  simp only [seekFiles, clearCache, Option.map_map] at taken
  split at taken
  · rw [Option.map_eq_some_iff] at taken
    obtain ⟨address, _, rfl⟩ := taken
    have same := keys_changeFirst urlId
      (fun (entry : FileEntry) => (rfl : key (entry.seek seekPoint) = key entry)) state.files
    simp only [Invariant, Function.comp_apply, setBuffer, same]
    exact invariant
  · split at taken
    · exact Option.some.inj taken ▸ invariant
    · rename_i entry found
      rw [Option.map_eq_some_iff] at taken
      obtain ⟨address, _, rfl⟩ := taken
      obtain ⟨matching, before, after, split, others⟩ := List.find?_eq_some_iff_append.mp found
      have erased : FileEntry.eraseFirst urlId state.finishedFiles = before ++ after := by
        rw [FileEntry.eraseFirst, split, List.eraseP_append_right]
        · simp only [List.eraseP_cons, matching, cond_true]
        · intro other member
          simpa using others other member
      have parts : keys state.finishedFiles =
          keys before ++ key (entry.seek seekPoint) :: keys after := by
        rw [split, keys, List.map_append, List.map_cons]
        rfl
      rw [Invariant, parts] at invariant
      simp only [Invariant, Function.comp_apply, setBuffer, erased, keys, List.map_append,
        List.map_cons]
      exact invariant.reopen

/-- Closing a file keeps the invariant, wherever the file is. -/
theorem inputClose_invariant {state : InputFileLoop} (invariant : Invariant state) (urlId : Int) :
    Invariant (state.inputClose urlId) := by
  rw [inputClose]
  split
  · exact Queued.sublist invariant (List.Sublist.refl _) (keys_eraseFirst urlId _)
      (List.Sublist.refl _)
  · exact Queued.sublist invariant (keys_eraseFirst urlId _) (List.Sublist.refl _)
      (List.Sublist.refl _)

/-- A job keeps the invariant; the file it adds, if any, is still pending before. -/
theorem handle_invariant {state next : InputFileLoop} {disk : Disk} {job : InputJob}
    (queued : Queued state.maxFinishFiles state.urlId (keys state.files)
      (keys state.finishedFiles) (pendingIds (.job job :: state.tasker.posted)))
    (taken : state.handle disk job = some next) : Invariant next := by
  have kept : Invariant state := by
    refine Queued.sublist queued (List.Sublist.refl _) (List.Sublist.refl _) ?_
    exact (List.sublist_cons_self _ _).filterMap _
  cases job with
  | addFile filename urlId =>
    obtain rfl := Option.some.inj taken
    simp only [addFile]
    split
    · exact kept
    · have added : Invariant { state with files := state.files ++ [.make filename urlId] } := by
        simp only [Invariant, keys, List.map_append, List.map_cons, List.map_nil]
        exact Queued.add queued
      split
      · simp only [Invariant, addJob, AsyncTasker.addAsyncJob, pendingIds, List.filterMap_append,
          List.filterMap_cons, List.filterMap_nil, List.append_nil]
        exact added
      · exact added
  | setCacheBuffer urlId cacheBuf =>
    obtain rfl := Option.some.inj taken
    have same := keys_changeFirst urlId (fun (entry : FileEntry) =>
      (rfl : key { entry with cacheBuf := some cacheBuf } = key entry)) state.files
    simp only [Invariant, setCacheBuffer, same]
    exact kept
  | seekCallback urlId seekPoint =>
    simp only [handle, seekCallbackInternal, Option.map_eq_some_iff] at taken
    obtain ⟨sought, found, rfl⟩ := taken
    have after := seekFiles_invariant kept found
    split
    · have playing : Invariant { sought with currentState := .play } := after
      exact tryRead_invariant playing disk
    · exact after
  | inputClose urlId =>
    obtain rfl := Option.some.inj taken
    exact inputClose_invariant kept urlId
  | cont =>
    obtain rfl := Option.some.inj taken
    have playing : Invariant { state with currentState := .play } := kept
    exact tryRead_invariant playing disk
  | tryRead =>
    obtain rfl := Option.some.inj taken
    exact tryRead_invariant kept disk
  | stop | pause | quit =>
    obtain rfl := Option.some.inj taken
    exact kept

/-- Every step keeps the invariant. -/
theorem step_invariant {state next : InputFileLoop} {action : Action}
    (invariant : Invariant state) (reads : TimersRead state.tasker)
    (taken : step state action = some next) : Invariant next := by
  have posted : ∀ job, pendingIds [.job job] = [] → Invariant (state.addJob job) := by
    intro job noIds
    rw [pendingIds] at noIds
    simp only [Invariant, addJob, AsyncTasker.addAsyncJob, pendingIds, List.filterMap_append, noIds,
      List.append_nil]
    exact invariant
  cases action with
  | addInputItem filename =>
    obtain rfl := Option.some.inj taken
    simp only [Invariant, addJob, AsyncTasker.addAsyncJob, pendingIds, List.filterMap_append,
      List.filterMap_cons, List.filterMap_nil]
    exact Queued.post invariant
  | setCacheBuffer urlId cacheBuf | seekCallbackJob urlId seekPoint | decoderFinish urlId
  | stop | pause | cont | quit =>
    obtain rfl := Option.some.inj taken
    exact posted _ rfl
  | runPosted disk =>
    obtain ⟨job, rest, front, handled⟩ := runPosted_some reads taken
    rw [Invariant, front] at invariant
    exact handle_invariant invariant handled
  | handleTimeout call disk =>
    obtain ⟨wait, _, rfl⟩ := handleTimeout_some reads taken
    have retired : Invariant { state with tasker := state.tasker.retire wait } := invariant
    exact tryRead_invariant retired disk
  | changeBuffer address buffer =>
    obtain rfl := Option.some.inj taken
    exact invariant

/-- In a list in which no open file comes after one that is not, the open ones
are a prefix. -/
theorem filter_prefix {entries : List FileEntry}
    (ordered : (keys entries).Pairwise (fun earlier later => later.2 = true → earlier.2 = true)) :
    entries.filter (·.isOpen) <+: entries := by
  induction entries with
  | nil => exact List.nil_prefix
  | cons entry rest inductionHypothesis =>
    obtain ⟨first, others⟩ := List.pairwise_cons.mp ordered
    by_cases isOpen : entry.isOpen = true
    · rw [List.filter_cons_of_pos isOpen, List.prefix_cons_inj]
      exact inductionHypothesis others
    · have closed : rest.filter (·.isOpen) = [] := by
        rw [List.filter_eq_nil_iff]
        intro other member later
        exact isOpen (first (key other) (List.mem_map_of_mem member) later)
      rw [List.filter_cons_of_neg isOpen, closed]
      exact List.nil_prefix

/-- The invariant bounds the files. -/
theorem Invariant.gives_bounded {state : InputFileLoop} (invariant : Invariant state) :
    Bounded state := by
  have ids : ∀ entries : List FileEntry, (keys entries).map Prod.fst = entries.map (·.urlId) := by
    intro entries
    rw [keys, List.map_map]
    rfl
  have opens : (keys state.files).countP Prod.snd = state.files.countP (·.isOpen) := by
    rw [keys, List.countP_map]
    rfl
  have bounded := invariant.bounded
  rw [opens, keys_length] at bounded
  refine ⟨?_, filter_prefix invariant.ordered, bounded, ?_⟩
  · have unique := invariant.unique.sublist (List.sublist_append_left _ _)
    rw [List.map_append, ids, ids] at unique
    rw [List.map_append]
    exact unique
  · intro entry member isOpen
    have one : 0 < state.files.countP (·.isOpen) := List.countP_pos_iff.mpr ⟨entry, member, isOpen⟩
    apply decide_eq_false
    rintro ⟨_, full⟩
    omega

/-- In every state of every run of the plugin, url ids are unique, the open files
come first, the open and finished files are not more than the maximum, and the
test of the finished files stops no open file. -/
theorem files_bounded (maxFileChunkSize maxTimerCount : Nat) (maxFinishFiles : Int)
    (currentState : PluginState) (buffers : Nat → CacheBuffer) (enough : 1 ≤ maxFinishFiles)
    (actions : List Action) (finish : InputFileLoop)
    (ran : LabelledRuns.run step
      (start maxFileChunkSize maxFinishFiles maxTimerCount currentState buffers) actions =
        some finish) : Bounded finish := by
  have initial : Invariant
      (start maxFileChunkSize maxFinishFiles maxTimerCount currentState buffers) := by
    refine ⟨List.nodup_nil, by simp [start, keys, pendingIds, AsyncTasker.make],
      List.Pairwise.nil, by simp [start, keys], ?_⟩
    simp only [start, keys, List.map_nil, List.countP_nil, List.length_nil]
    omega
  have both := LabelledRuns.run_preserves
    (fun state action next (before : Invariant state ∧ TimersRead state.tasker) taken =>
      And.intro (step_invariant before.1 before.2 taken) (step_timersRead before.2 taken))
    ⟨initial, TimersRead.make maxTimerCount⟩ ran
  exact both.1.gives_bounded

/-- Two files of two bytes with at most one finished file: the first is read to
its end, and the second is not opened before the decoder closes it. -/
theorem files_bounded_two_files :
    ∃ finish, LabelledRuns.run step
        (start 16 1 10 .play (fun _ => CacheBuffer.make 32 16 0 0))
        [.addInputItem "a", .addInputItem "b", .runPosted (.opened 2 [1, 2]),
          .runPosted (.opened 2 [1, 2]), .runPosted (.opened 2 [1, 2]), .setCacheBuffer 1 0,
          .runPosted .missing, .runPosted .missing, .handleTimeout 0 .missing] = some finish ∧
      finish.finishedFiles.length = 1 ∧ finish.files.countP (·.isOpen) = 0 ∧
      finish.files.length = 1 ∧ Bounded finish := by
  have ran : ∃ finish, LabelledRuns.run step
      (start 16 1 10 .play (fun _ => CacheBuffer.make 32 16 0 0))
      [.addInputItem "a", .addInputItem "b", .runPosted (.opened 2 [1, 2]),
        .runPosted (.opened 2 [1, 2]), .runPosted (.opened 2 [1, 2]), .setCacheBuffer 1 0,
        .runPosted .missing, .runPosted .missing, .handleTimeout 0 .missing] = some finish ∧
      finish.finishedFiles.length = 1 ∧ finish.files.countP (·.isOpen) = 0 ∧
      finish.files.length = 1 := ⟨_, rfl, rfl, rfl, rfl⟩
  obtain ⟨finish, ran, finished, opened, waiting⟩ := ran
  exact ⟨finish, ran, finished, opened, waiting,
    files_bounded 16 10 1 .play _ (by decide) _ finish ran⟩

end Mprt.FileQueue
