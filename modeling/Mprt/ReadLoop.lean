import Mprt.LabelledRuns
import Mprt.InputFileLoop

/-!
# The file-read loop keeps its wake-up

`try_read` starts its own timer again when it ends with files left. Where it
returns without doing so the plugin is not in state play, there is no file, or
the timer is active. Every other job that makes files or sets the state play
posts `cont` or calls `try_read` itself.

Only `try_read` is ever scheduled, and only while the last timer it was
scheduled with is not active, so one timer at most is armed. That timer may be
an old one used again; it is the one in `_file_read_timer` all the same.
-/

namespace Mprt.ReadLoop

open InputFileLoop

/-- A timer of `try_read` is armed, or a job that calls it is posted. -/
def Awaits (state : InputFileLoop) : Prop :=
  (∃ wait ∈ state.tasker.waits, wait.job = .tryRead) ∨ .job .cont ∈ state.tasker.posted

/-- The wake-up is not lost, and it is armed once at most. -/
structure Awake (state : InputFileLoop) : Prop where
  wakes : state.currentState = .play → state.files ≠ [] → Awaits state
  once : (state.tasker.waits.filter (fun wait => wait.job = .tryRead)).length ≤ 1

/-- The timers of a sound tasker all run `try_read`, and each is the one that
`_file_read_timer` points to. -/
structure OneTimer (state : InputFileLoop) : Prop where
  sound : state.tasker.Sound
  reads : TimersRead state.tasker
  timer : ∀ wait ∈ state.tasker.waits, state.fileReadTimer = some wait.timer

/-- The invariant of the loop. -/
structure Invariant (state : InputFileLoop) : Prop where
  one : OneTimer state
  wakes : state.currentState = .play → state.files ≠ [] → Awaits state

/-- While the timer is not active no timer is armed. -/
theorem OneTimer.inactive {state : InputFileLoop} (one : OneTimer state)
    (inactive : state.fileReadTimerActive = false) : state.tasker.waits = [] := by
  rw [List.eq_nil_iff_forall_not_mem]
  intro wait waiting
  have active : state.tasker.isActiveTimer wait.timer = true :=
    decide_eq_true ((one.sound.active wait.timer).mpr ⟨wait, waiting, rfl⟩)
  rw [fileReadTimerActive, one.timer wait waiting, Option.any_some, active] at inactive
  contradiction

/-- While the timer is active it is armed for `try_read`. -/
theorem OneTimer.active {state : InputFileLoop} (one : OneTimer state)
    (active : state.fileReadTimerActive = true) : Awaits state := by
  rw [fileReadTimerActive, Option.any_eq_true] at active
  obtain ⟨timer, _, isActive⟩ := active
  obtain ⟨wait, waiting, _⟩ := (one.sound.active timer).mp (of_decide_eq_true isActive)
  exact .inl ⟨wait, waiting, one.reads.waits wait waiting⟩

/-- Nothing but the loop decides about its timer. -/
theorem OneTimer.of_sameLoop {before after : InputFileLoop} (one : OneTimer before)
    (same : SameLoop before after) : OneTimer after := by
  refine ⟨same.tasker ▸ one.sound, same.tasker ▸ one.reads, ?_⟩
  rw [same.tasker, same.timer]
  exact one.timer

theorem OneTimer.setState {state : InputFileLoop} (one : OneTimer state)
    (currentState : PluginState) : OneTimer { state with currentState := currentState } :=
  ⟨one.sound, one.reads, one.timer⟩

/-- The scope exit arms the timer when files are left. -/
theorem rearm_invariant {state : InputFileLoop} (one : OneTimer state) (nextDur : Int) :
    Invariant (state.rearm nextDur) := by
  rw [rearm]
  split
  · rename_i rests
    refine ⟨one, fun _ files => ?_⟩
    rcases Bool.or_eq_true_iff.mp rests with none | active
    · exact absurd (List.isEmpty_iff.mp none) files
    · exact one.active active
  · rename_i goesOn
    simp only [Bool.or_eq_true, not_or, Bool.not_eq_true] at goesOn
    obtain ⟨_, waits, _, _⟩ := state.tasker.createGetTimer_armed .tryRead nextDur
    rw [one.inactive goesOn.2, List.nil_append] at waits
    refine ⟨⟨one.sound.createGetTimer .tryRead nextDur, one.reads.createGetTimer nextDur, ?_⟩, ?_⟩
    · intro wait waiting
      simp only [AsyncTasker.addAsyncJobThreadInternal, waits, List.mem_singleton] at waiting ⊢
      rw [waiting]
    · intro _ _
      have armed := List.mem_singleton_self
        (⟨(state.tasker.createGetTimer .tryRead nextDur).1, .tryRead, nextDur,
          state.tasker.calls⟩ : Wait InputJob)
      exact .inl ⟨_, waits ▸ armed, rfl⟩

/-- After `try_read` the wake-up is there, whether it was before or not. -/
theorem tryRead_invariant {state : InputFileLoop} (one : OneTimer state) (disk : Disk) :
    Invariant (state.tryRead disk) := by
  rw [tryRead]
  split
  · rename_i paused
    exact ⟨one, fun playing _ => absurd playing paused⟩
  · split
    · rename_i noFiles
      exact ⟨one, fun _ files => absurd noFiles files⟩
    · rename_i entry rest _
      split
      · rename_i active
        exact ⟨one, fun _ _ => one.active active⟩
      · exact rearm_invariant (one.of_sameLoop (state.tryReadBody_sameLoop disk entry rest)) _

/-- A job that is not posted any more but has not run takes no wake-up away,
unless it is `cont`. -/
theorem Awaits.popped {state : InputFileLoop} {job : InputJob} {rest : List (Posted InputJob)}
    (awaits : Awaits state) (posted : state.tasker.posted = .job job :: rest)
    (other : job ≠ .cont) :
    Awaits { state with tasker := { state.tasker with posted := rest } } := by
  refine awaits.imp id (fun member => ?_)
  rw [posted, List.mem_cons] at member
  rcases member with same | later
  · exact absurd (Posted.job.inj same).symm other
  · exact later

/-- The list of files is empty after a search exactly when it was before, unless
a finished file has come back to it. -/
theorem changeFirst_eq_nil {urlId : Int} {change : FileEntry → FileEntry}
    {entries : List FileEntry} :
    FileEntry.changeFirst urlId change entries = [] ↔ entries = [] := by
  cases entries with
  | nil => exact Iff.rfl
  | cons entry rest =>
    rw [FileEntry.changeFirst]
    split <;> simp

/-- A job that runs with its wake-up there, or that is `cont`, leaves it there. -/
theorem handle_invariant {state next : InputFileLoop} {disk : Disk} {job : InputJob}
    (one : OneTimer state)
    (wakes : job ≠ .cont → state.currentState = .play → state.files ≠ [] → Awaits state)
    (taken : state.handle disk job = some next) : Invariant next := by
  cases job with
  | addFile filename urlId =>
    obtain rfl := Option.some.inj taken
    simp only [addFile]
    split
    · exact ⟨one, wakes (by simp)⟩
    · split
      · refine ⟨⟨one.sound.setPosted _, one.reads.addJob .cont, one.timer⟩, fun _ _ => .inr ?_⟩
        exact List.mem_append_right _ (List.mem_singleton_self _)
      · rename_i paused
        exact ⟨⟨one.sound, one.reads, one.timer⟩, fun playing _ => absurd playing paused⟩
  | setCacheBuffer urlId cacheBuf =>
    obtain rfl := Option.some.inj taken
    refine ⟨⟨one.sound, one.reads, one.timer⟩, fun playing files => ?_⟩
    exact wakes (by simp) playing (fun noFiles => files (changeFirst_eq_nil.mpr noFiles))
  | seekCallback urlId seekPoint =>
    simp only [handle, seekCallbackInternal, Option.map_eq_some_iff] at taken
    obtain ⟨sought, found, rfl⟩ := taken
    have same := seekFiles_sameLoop found
    have after := one.of_sameLoop same
    split
    · exact tryRead_invariant (after.setState .play) disk
    · rename_i remaining
      refine ⟨after, fun playing _ => ?_⟩
      rw [Awaits, same.tasker]
      refine wakes (by simp) (same.currentState ▸ playing) ?_
      simpa [isNoJob] using remaining
  | inputClose urlId =>
    obtain rfl := Option.some.inj taken
    simp only [inputClose]
    split
    · exact ⟨⟨one.sound, one.reads, one.timer⟩, wakes (by simp)⟩
    · refine ⟨⟨one.sound, one.reads, one.timer⟩, fun playing files => ?_⟩
      refine wakes (by simp) playing (fun noFiles => files ?_)
      simp only [noFiles, FileEntry.eraseFirst, List.eraseP_nil]
  | cont =>
    obtain rfl := Option.some.inj taken
    exact tryRead_invariant (one.setState .play) disk
  | tryRead =>
    obtain rfl := Option.some.inj taken
    exact tryRead_invariant one disk
  | stop | pause | quit =>
    obtain rfl := Option.some.inj taken
    exact ⟨one.setState _, fun playing _ => by contradiction⟩

/-- Posting a job takes no wake-up away. -/
theorem addJob_invariant {state : InputFileLoop} (invariant : Invariant state) (job : InputJob) :
    Invariant (state.addJob job) := by
  refine ⟨⟨invariant.one.sound.setPosted _, invariant.one.reads.addJob job, invariant.one.timer⟩,
    fun playing files => ?_⟩
  exact (invariant.wakes playing files).imp id (fun member => List.mem_append_left _ member)

/-- Every step keeps the invariant. -/
theorem step_invariant (state : InputFileLoop) (action : Action) (next : InputFileLoop)
    (invariant : Invariant state) (taken : step state action = some next) : Invariant next := by
  have reads := invariant.one.reads
  cases action with
  | runPosted disk =>
    obtain ⟨job, rest, posted, handled⟩ := runPosted_some reads taken
    refine handle_invariant ?_ ?_ handled
    · refine ⟨invariant.one.sound.setPosted rest, ⟨reads.waits, ?_⟩, invariant.one.timer⟩
      intro other dur member
      exact reads.posted other dur (posted ▸ List.mem_cons_of_mem _ member)
    · intro other playing files
      exact (invariant.wakes playing files).popped posted other
  | handleTimeout call disk =>
    obtain ⟨wait, waiting, rfl⟩ := handleTimeout_some reads taken
    have one : OneTimer { state with tasker := state.tasker.retire wait } :=
      ⟨invariant.one.sound.retire waiting, reads.retire wait, fun other member =>
        invariant.one.timer other (List.mem_of_mem_filter member)⟩
    exact tryRead_invariant one disk
  | changeBuffer address buffer =>
    obtain rfl := Option.some.inj taken
    exact ⟨⟨invariant.one.sound, reads, invariant.one.timer⟩, invariant.wakes⟩
  | addInputItem filename =>
    obtain rfl := Option.some.inj taken
    have counted : Invariant { state with urlId := state.urlId + 1 } :=
      ⟨⟨invariant.one.sound, reads, invariant.one.timer⟩, invariant.wakes⟩
    exact addJob_invariant counted _
  | setCacheBuffer urlId cacheBuf | seekCallbackJob urlId seekPoint | decoderFinish urlId
  | stop | pause | cont | quit =>
    obtain rfl := Option.some.inj taken
    exact addJob_invariant invariant _

/-- The invariant keeps the loop awake. Two armed timers would both be the one in
`_file_read_timer`, and a sound tasker has one waiting job for each timer. -/
theorem Invariant.awake {state : InputFileLoop} (invariant : Invariant state) : Awake state := by
  refine ⟨invariant.wakes, ?_⟩
  have short : state.tasker.waits.length ≤ 1 := by
    cases waits : state.tasker.waits with
    | nil => exact Nat.zero_le 1
    | cons first others =>
      cases others with
      | nil => exact Nat.le_refl 1
      | cons second rest =>
        have single := invariant.one.sound.single
        have firstTimer := invariant.one.timer first (by simp [waits])
        have secondTimer := invariant.one.timer second (by simp [waits])
        rw [waits, List.map_cons, List.map_cons, List.nodup_cons] at single
        rw [firstTimer, Option.some.injEq] at secondTimer
        exact absurd (secondTimer ▸ List.mem_cons_self) single.1
  exact Nat.le_trans (List.length_filter_le _ _) short

/-- In every state of every run in state play with files left, a timer of
`try_read` is armed or `cont` is posted, and no two such timers are armed. -/
theorem read_loop_awake (maxFileChunkSize maxTimerCount : Nat) (maxFinishFiles : Int)
    (currentState : PluginState) (buffers : Nat → CacheBuffer) (actions : List Action)
    (finish : InputFileLoop)
    (ran : LabelledRuns.run step
      (start maxFileChunkSize maxFinishFiles maxTimerCount currentState buffers) actions =
        some finish) : Awake finish := by
  have initial : Invariant
      (start maxFileChunkSize maxFinishFiles maxTimerCount currentState buffers) := by
    refine ⟨⟨AsyncTasker.make_sound maxTimerCount, TimersRead.make maxTimerCount, ?_⟩,
      fun _ files => absurd rfl files⟩
    simp [start, AsyncTasker.make]
  exact (LabelledRuns.run_preserves step_invariant initial ran).awake

/-- A file is read in two pieces with the timer in between, which is the same one
both times, and it is armed again at the end. -/
theorem read_loop_awake_two_pieces :
    ∃ finish, LabelledRuns.run step
        (start 2 3 10 .play (fun _ => CacheBuffer.make 64 16 0 0))
        [.addInputItem "a", .runPosted (.opened 9 [1, 2, 3, 4, 5, 6, 7, 8, 9]),
          .runPosted (.opened 9 [1, 2, 3, 4, 5, 6, 7, 8, 9]), .setCacheBuffer 1 0,
          .runPosted .missing, .handleTimeout 0 .missing, .handleTimeout 1 .missing] =
            some finish ∧
      finish.files ≠ [] ∧ finish.fileReadTimer = some 0 ∧ Awake finish := by
  have ran : ∃ finish, LabelledRuns.run step
      (start 2 3 10 .play (fun _ => CacheBuffer.make 64 16 0 0))
      [.addInputItem "a", .runPosted (.opened 9 [1, 2, 3, 4, 5, 6, 7, 8, 9]),
        .runPosted (.opened 9 [1, 2, 3, 4, 5, 6, 7, 8, 9]), .setCacheBuffer 1 0,
        .runPosted .missing, .handleTimeout 0 .missing, .handleTimeout 1 .missing] =
          some finish ∧ finish.files.length = 1 ∧ finish.fileReadTimer = some 0 :=
    ⟨_, rfl, rfl, rfl⟩
  obtain ⟨finish, ran, files, timer⟩ := ran
  refine ⟨finish, ran, ?_, timer, read_loop_awake 2 10 3 .play _ _ finish ran⟩
  intro noFiles
  rw [noFiles] at files
  contradiction

end Mprt.ReadLoop
