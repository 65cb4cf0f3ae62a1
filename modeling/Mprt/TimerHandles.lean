import Mprt.LabelledRuns
import Mprt.AsyncTasker

/-!
# What the handle of a timer says

Whoever schedules a job on the thread of a tasker gets the timer as a handle,
and asks later whether that timer is active to find out whether the job has
started. The timer may meanwhile have been taken for another job. The answers
are right in every state of a run exactly when no call takes an expired timer
that is somebody's handle.
-/

namespace Mprt.TimerHandles

/-- A returned timer with the number of the call that returned it. -/
structure Handle where
  timer : Nat
  call : Nat
deriving DecidableEq

/-- The tasker, the handles returned so far, and the numbers of the calls whose
job has started. -/
structure State (Job : Type) where
  tasker : AsyncTasker Job
  handles : List Handle
  started : List Nat
deriving DecidableEq

/-- The calls made by jobs and by other threads, and what the loop does itself.
A job that calls is one that is running, so its own start comes before. -/
inductive Action (Job : Type) where
  | addAsyncJob (f : Job)
  | addAsyncJobAfter (f : Job) (dur : Int)
  | addAsyncJobThreadInternal (f : Job) (dur : Int)
  | runPosted
  | handleTimeout (call : Nat)
deriving DecidableEq

variable {Job : Type}

def step (state : State Job) : Action Job → Option (State Job)
  | .addAsyncJob f => some { state with tasker := state.tasker.addAsyncJob f }
  | .addAsyncJobAfter f dur => some { state with tasker := state.tasker.addAsyncJobAfter f dur }
  | .addAsyncJobThreadInternal f dur =>
      let created := state.tasker.addAsyncJobThreadInternal f dur
      some { state with
        tasker := created.2
        handles := state.handles ++ [⟨created.1, state.tasker.calls⟩] }
  | .runPosted => state.tasker.runPosted.map (fun ran => { state with tasker := ran.2 })
  | .handleTimeout call =>
      (state.tasker.handleTimeout call).map (fun ran =>
        { state with tasker := ran.2, started := state.started ++ [call] })

def start (maxTimerCount : Nat) : State Job := ⟨.make maxTimerCount, [], []⟩

/-- Every handle is active exactly while the job of its own call has not started. -/
def OwnJobs (state : State Job) : Prop :=
  ∀ handle ∈ state.handles,
    state.tasker.isActiveTimer handle.timer = true ↔ handle.call ∉ state.started

/-- A step that calls `create_get_timer`. -/
def creates (state : State Job) : Action Job → Bool
  | .addAsyncJobThreadInternal _ _ => true
  | .runPosted =>
      match state.tasker.posted with
      | .createGetTimer _ _ :: _ => true
      | _ => false
  | _ => false

/-- A call of `create_get_timer` takes no expired timer that is a handle. -/
def TakesNoHandle (state : State Job) (action : Action Job) : Prop :=
  creates state action = true →
    ∀ timer ∈ state.tasker.expiredTimers.head?, ∀ handle ∈ state.handles, handle.timer ≠ timer

instance (state : State Job) : Decidable (OwnJobs state) := by
  unfold OwnJobs
  infer_instance

instance (state : State Job) (action : Action Job) : Decidable (TakesNoHandle state action) := by
  unfold TakesNoHandle
  infer_instance

/-- The tasker is sound, every call of a handle either waits on the timer of that
handle or has started, and the answers are right so far. -/
structure Invariant (state : State Job) : Prop where
  sound : state.tasker.Sound
  known : ∀ handle ∈ state.handles, handle.call ∈ state.started ∨
    ∃ wait ∈ state.tasker.waits, wait.call = handle.call ∧ wait.timer = handle.timer
  allocated : ∀ handle ∈ state.handles, handle.timer < state.tasker.allocated
  counted : ∀ call ∈ state.started, call < state.tasker.calls
  own : OwnJobs state

theorem start_invariant (maxTimerCount : Nat) : Invariant (start maxTimerCount : State Job) where
  sound := AsyncTasker.make_sound maxTimerCount
  known := by simp [start]
  allocated := by simp [start]
  counted := by simp [start]
  own := by simp [start, OwnJobs]

/-- What is posted has no part in the invariant. -/
theorem Invariant.setPosted {state : State Job} (invariant : Invariant state)
    (posted : List (Posted Job)) :
    Invariant { state with tasker := { state.tasker with posted := posted } } :=
  ⟨invariant.sound.setPosted posted, invariant.known, invariant.allocated, invariant.counted,
    invariant.own⟩

/-- A state after `create_get_timer`, whose timer is returned as a handle or not. -/
def created (state : State Job) (f : Job) (dur : Int) (returned : Bool) : State Job :=
  let timer := state.tasker.createGetTimer f dur
  { state with
    tasker := timer.2
    handles := state.handles ++ if returned then [⟨timer.1, state.tasker.calls⟩] else [] }

/-- After a call the answers are right exactly when its timer was no handle. -/
theorem created_own_iff {state : State Job} (invariant : Invariant state) (f : Job) (dur : Int)
    (returned : Bool) : OwnJobs (created state f dur returned) ↔
      ∀ timer ∈ state.tasker.expiredTimers.head?, ∀ handle ∈ state.handles,
        handle.timer ≠ timer := by
  obtain ⟨actives, _, _, _⟩ := state.tasker.createGetTimer_armed f dur
  have source := state.tasker.createGetTimer_source f dur
  let timer := (state.tasker.createGetTimer f dur).1
  have active : ∀ other, (created state f dur returned).tasker.isActiveTimer other = true ↔
      other = timer ∨ state.tasker.isActiveTimer other = true := by
    intro other
    simp only [created, AsyncTasker.isActiveTimer, actives, Finset.mem_insert, decide_eq_true_eq,
      timer]
  constructor
  · intro right other oldest handle member same
    have rests : other ∈ state.tasker.expiredTimers := List.mem_of_mem_head? oldest
    have taken : other = timer := by
      rcases source with ⟨recycled, _⟩ | ⟨none, _⟩
      · rw [recycled] at oldest
        exact (Option.some.inj oldest).symm
      · rw [none] at rests
        exact absurd rests List.not_mem_nil
    have ended : handle.call ∈ state.started := by
      by_contra waiting
      have stillActive := of_decide_eq_true ((invariant.own handle member).mpr waiting)
      exact invariant.sound.rested other rests (same ▸ stillActive)
    have answer := right handle (List.mem_append_left _ member)
    exact answer.mp ((active handle.timer).mpr (.inl (same.trans taken))) ended
  · intro free handle member
    rcases List.mem_append.mp member with old | new
    · have other : handle.timer ≠ timer := by
        rcases source with ⟨recycled, _⟩ | ⟨_, _, fresh, _⟩
        · exact free timer (by rw [recycled]; rfl) handle old
        · exact fun same => Nat.ne_of_lt (invariant.allocated handle old) (same.trans fresh)
      rw [active handle.timer, or_iff_right other]
      exact invariant.own handle old
    · cases returned with
      | false => exact absurd new List.not_mem_nil
      | true =>
        obtain rfl := List.mem_singleton.mp new
        rw [active]
        refine iff_of_true (.inl rfl) ?_
        intro ended
        exact Nat.lt_irrefl _ (invariant.counted _ ended)

/-- A call with right answers keeps the invariant. -/
theorem created_invariant {state : State Job} (invariant : Invariant state) (f : Job) (dur : Int)
    (returned : Bool) (own : OwnJobs (created state f dur returned)) :
    Invariant (created state f dur returned) := by
  obtain ⟨_, waits, _, calls⟩ := state.tasker.createGetTimer_armed f dur
  have source := state.tasker.createGetTimer_source f dur
  have sound := invariant.sound.createGetTimer f dur
  have armed : ∀ handle ∈ (created state f dur returned).handles, handle ∈ state.handles ∨
      handle = ⟨(state.tasker.createGetTimer f dur).1, state.tasker.calls⟩ := by
    intro handle member
    rcases List.mem_append.mp member with old | new
    · exact .inl old
    · cases returned with
      | false => exact absurd new List.not_mem_nil
      | true => exact .inr (List.mem_singleton.mp new)
  refine ⟨sound, ?_, ?_, ?_, own⟩
  · intro handle member
    simp only [created, waits, List.mem_append, List.mem_singleton]
    rcases armed handle member with old | rfl
    · rcases invariant.known handle old with ended | ⟨wait, waiting, same⟩
      · exact .inl ended
      · exact .inr ⟨wait, .inl waiting, same⟩
    · exact .inr ⟨_, .inr rfl, rfl, rfl⟩
  · intro handle member
    simp only [created]
    rcases armed handle member with old | rfl
    · have below := invariant.allocated handle old
      rcases source with ⟨_, same⟩ | ⟨_, _, _, grown⟩ <;> omega
    · have waiting : ⟨(state.tasker.createGetTimer f dur).1, f, dur, state.tasker.calls⟩ ∈
          (state.tasker.createGetTimer f dur).2.waits := by
        rw [waits]
        exact List.mem_append_right _ List.mem_cons_self
      exact sound.allocatedActive _ ((sound.active _).mpr ⟨_, waiting, rfl⟩)
  · intro call ended
    have below := invariant.counted call ended
    simp only [created, calls]
    omega

/-- The start of a job leaves all answers right. -/
theorem handleTimeout_invariant {state : State Job} (invariant : Invariant state)
    {wait : Wait Job} (waiting : wait ∈ state.tasker.waits) :
    Invariant { state with
      tasker := state.tasker.retire wait, started := state.started ++ [wait.call] } := by
  have retired : ∀ other ∈ state.tasker.waits, other.call ≠ wait.call →
      other ∈ (state.tasker.retire wait).waits := by
    intro other member different
    exact List.mem_filter.mpr ⟨member, decide_eq_true different⟩
  refine ⟨invariant.sound.retire waiting, ?_, invariant.allocated, ?_, ?_⟩
  · intro handle member
    rcases invariant.known handle member with ended | ⟨other, otherWaiting, number, timer⟩
    · exact .inl (List.mem_append_left _ ended)
    · by_cases same : other.call = wait.call
      · exact .inl (List.mem_append_right _ (List.mem_singleton.mpr (number.symm.trans same)))
      · exact .inr ⟨other, retired other otherWaiting same, number, timer⟩
  · intro call ended
    rcases List.mem_append.mp ended with before | now
    · exact invariant.counted call before
    · exact List.mem_singleton.mp now ▸ invariant.sound.counted wait waiting
  · intro handle member
    have before := invariant.own handle member
    simp only [AsyncTasker.isActiveTimer, AsyncTasker.retire, Finset.mem_erase, decide_eq_true_eq,
      List.mem_append, List.mem_singleton, not_or] at before ⊢
    rw [before, and_comm]
    refine and_congr_right (fun notStarted => ?_)
    rcases invariant.known handle member with ended | ⟨other, otherWaiting, number, timer⟩
    · exact absurd ended notStarted
    · rw [← number, ← timer]
      constructor
      · intro different same
        exact different (congrArg Wait.timer
          (invariant.sound.call_unique otherWaiting waiting same))
      · intro different same
        exact different (congrArg Wait.call
          (invariant.sound.wait_unique otherWaiting waiting same))

/-- A step leaves the answers right exactly when it takes no handle's timer, and
then it keeps the invariant. -/
theorem step_own_iff {state next : State Job} {action : Action Job}
    (invariant : Invariant state) (taken : step state action = some next) :
    (OwnJobs next ↔ TakesNoHandle state action) ∧ (OwnJobs next → Invariant next) := by
  cases action with
  | addAsyncJob f =>
    obtain rfl := Option.some.inj taken
    have kept := invariant.setPosted (state.tasker.posted ++ [.job f])
    exact ⟨iff_of_true kept.own (fun creating => absurd creating Bool.false_ne_true), fun _ => kept⟩
  | addAsyncJobAfter f dur =>
    obtain rfl := Option.some.inj taken
    have kept := invariant.setPosted (state.tasker.posted ++ [.createGetTimer f dur])
    exact ⟨iff_of_true kept.own (fun creating => absurd creating Bool.false_ne_true), fun _ => kept⟩
  | addAsyncJobThreadInternal f dur =>
    have same : next = created state f dur true := (Option.some.inj taken).symm
    rw [same, created_own_iff invariant f dur true]
    refine ⟨⟨fun free _ => free, fun free => free rfl⟩, fun free => ?_⟩
    exact created_invariant invariant f dur true ((created_own_iff invariant f dur true).mpr free)
  | runPosted =>
    cases posted : state.tasker.posted with
    | nil => simp [step, AsyncTasker.runPosted, posted] at taken
    | cons first rest =>
      have popped := invariant.setPosted rest
      cases first with
      | job f =>
        simp only [step, AsyncTasker.runPosted, posted, Option.map_some, Option.some.injEq] at taken
        subst taken
        refine ⟨iff_of_true popped.own ?_, fun _ => popped⟩
        simp [TakesNoHandle, creates, posted]
      | createGetTimer f dur =>
        simp only [step, AsyncTasker.runPosted, posted, Option.map_some, Option.some.injEq] at taken
        have same : next = created
            { state with tasker := { state.tasker with posted := rest } } f dur false := by
          rw [← taken, created, if_neg Bool.false_ne_true, List.append_nil]
        rw [same, created_own_iff popped f dur false]
        refine ⟨?_, fun free => created_invariant popped f dur false
          ((created_own_iff popped f dur false).mpr free)⟩
        simp [TakesNoHandle, creates, posted]
  | handleTimeout call =>
    simp only [step, Option.map_eq_some_iff] at taken
    obtain ⟨⟨f, tasker⟩, fired, rfl⟩ := taken
    obtain ⟨wait, waiting, rfl, rfl, rfl⟩ := AsyncTasker.handleTimeout_some fired
    have kept := handleTimeout_invariant invariant waiting
    exact ⟨iff_of_true kept.own (fun creating => absurd creating Bool.false_ne_true), fun _ => kept⟩

/-- The answers are right after every step of a run exactly when no call takes a
timer that is a handle. -/
theorem own_jobs_iff (maxTimerCount : Nat) (actions : List (Action Job)) (finish : State Job)
    (ran : LabelledRuns.run step (start maxTimerCount) actions = some finish) :
    LabelledRuns.Along step (fun _ _ next => OwnJobs next) (start maxTimerCount) actions ↔
      LabelledRuns.Meets step TakesNoHandle (start maxTimerCount) actions :=
  LabelledRuns.along_iff_meets
    (fun _ _ _ invariant taken => (step_own_iff invariant taken).1)
    (fun _ _ _ invariant taken => (step_own_iff invariant taken).2)
    (start_invariant maxTimerCount) ran

/-- A pool that keeps no expired timer never takes one again: two jobs are
scheduled one after the other. -/
theorem own_jobs_without_pool :
    LabelledRuns.Along step (fun _ _ next => OwnJobs next) (start 0 : State Unit)
      [.addAsyncJobThreadInternal () 100000, .handleTimeout 0,
        .addAsyncJobThreadInternal () 100000] := by
  have ran : ∃ finish, LabelledRuns.run step (start 0 : State Unit)
      [.addAsyncJobThreadInternal () 100000, .handleTimeout 0,
        .addAsyncJobThreadInternal () 100000] = some finish := ⟨_, rfl⟩
  obtain ⟨finish, ran⟩ := ran
  exact (own_jobs_iff 0 _ finish ran).mpr (by decide)

/-- With a pool of five timers the one of a job that has started is taken for a
posted job, and the handle of the first job is active again. -/
theorem handle_of_started_job_active :
    ∃ finish, LabelledRuns.run step (start 5 : State Unit)
        [.addAsyncJobThreadInternal () 100000, .handleTimeout 0, .addAsyncJobAfter () 100000,
          .runPosted] = some finish ∧
      ⟨0, 0⟩ ∈ finish.handles ∧ 0 ∈ finish.started ∧ finish.tasker.isActiveTimer 0 = true ∧
        ¬ OwnJobs finish :=
  ⟨_, rfl, by decide, by decide, by decide, by decide⟩

end Mprt.TimerHandles
