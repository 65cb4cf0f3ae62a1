import Mprt.LabelledRuns
import Mprt.AsyncTasker
import Mathlib.Data.List.Range

/-!
# The pool of timers over whole runs

A timer goes back into the pool before the job it waited for runs, and that job
may take it again at once. A run is therefore any order of calls of
`create_get_timer` and of timeouts: what a job schedules comes after the timeout
that starts the job, and before the next timeout.

Arming a timer cancels what still waits for it. The history keeps every wait that
is cancelled in this way, besides the jobs scheduled and the jobs started.
-/

namespace Mprt.TimerPool

/-- The tasker, the job of every call so far, the calls whose job has started with
that job, and the waits on a timer at the time it was armed again. -/
structure State (Job : Type) where
  tasker : AsyncTasker Job
  scheduled : List Job
  started : List (Nat × Job)
  cancelled : List (Wait Job)
deriving DecidableEq

/-- A call of `create_get_timer`, and a timeout of the wait with a number. The
error code of a timeout decides only what is logged. -/
inductive Action (Job : Type) where
  | createGetTimer (f : Job) (dur : Int)
  | handleTimeout (call : Nat)
deriving DecidableEq

variable {Job : Type}

/-- `expires_after` cancels the waits that the timer has when it is armed. -/
def waitsOn (tasker : AsyncTasker Job) (timer : Nat) : List (Wait Job) :=
  tasker.waits.filter (fun wait => wait.timer = timer)

def step (state : State Job) : Action Job → Option (State Job)
  | .createGetTimer f dur =>
      let created := state.tasker.createGetTimer f dur
      some { state with
        tasker := created.2
        scheduled := state.scheduled ++ [f]
        cancelled := state.cancelled ++ waitsOn state.tasker created.1 }
  | .handleTimeout call =>
      (state.tasker.handleTimeout call).map (fun fired =>
        { state with tasker := fired.2, started := state.started ++ [(call, fired.1)] })

def start (maxTimerCount : Nat) : State Job := ⟨.make maxTimerCount, [], [], []⟩

/-- No timer is active and expired, or expired twice, there are no more expired
timers than the pool may hold, and the active timers are those with one
outstanding wait, the others having none. -/
structure Exclusive (tasker : AsyncTasker Job) (maxTimerCount : Nat) : Prop where
  apart : ∀ timer ∈ tasker.expiredTimers, timer ∉ tasker.activeTimers
  once : tasker.expiredTimers.Nodup
  bounded : tasker.expiredTimers.length ≤ maxTimerCount
  outstanding : ∀ timer,
    (waitsOn tasker timer).length = if timer ∈ tasker.activeTimers then 1 else 0

/-- Every scheduled call has either started once or waits once, and no call has
both; what starts for a call, or waits for it, is the job that it scheduled. -/
structure ScheduledOnce (state : State Job) : Prop where
  accounted : (state.started.map (·.1) ++ state.tasker.waits.map (·.call)).Perm
    (List.range state.scheduled.length)
  startedOwn : ∀ begun ∈ state.started, state.scheduled[begun.1]? = some begun.2
  waitingOwn : ∀ wait ∈ state.tasker.waits, state.scheduled[wait.call]? = some wait.job

/-- What every step keeps. -/
structure Invariant (maxTimerCount : Nat) (state : State Job) : Prop where
  sound : state.tasker.Sound
  limit : state.tasker.maxTimerCount = maxTimerCount
  bounded : state.tasker.expiredTimers.length ≤ maxTimerCount
  counted : state.tasker.calls = state.scheduled.length
  uncancelled : state.cancelled = []
  scheduledOnce : ScheduledOnce state

theorem start_invariant (maxTimerCount : Nat) :
    Invariant maxTimerCount (start maxTimerCount : State Job) where
  sound := AsyncTasker.make_sound maxTimerCount
  limit := rfl
  bounded := Nat.zero_le _
  counted := rfl
  uncancelled := rfl
  scheduledOnce := ⟨List.Perm.nil, by simp [start], by simp [start, AsyncTasker.make]⟩

/-- In a sound tasker a timer has one wait when it is active and none otherwise. -/
theorem waitsOn_length {tasker : AsyncTasker Job} (sound : tasker.Sound) (timer : Nat) :
    (waitsOn tasker timer).length = if timer ∈ tasker.activeTimers then 1 else 0 := by
  have counted : (waitsOn tasker timer).length = (tasker.waits.map (·.timer)).count timer := by
    rw [waitsOn, ← List.countP_eq_length_filter, List.count, List.countP_map]
    apply List.countP_congr
    intro wait _
    simp
  rw [counted]
  split
  · rename_i active
    obtain ⟨wait, waiting, same⟩ := (sound.active timer).mp active
    exact List.count_eq_one_of_mem sound.single (List.mem_map.mpr ⟨wait, waiting, same⟩)
  · rename_i idle
    apply List.count_eq_zero_of_not_mem
    intro member
    obtain ⟨wait, waiting, same⟩ := List.mem_map.mp member
    exact idle ((sound.active timer).mpr ⟨wait, waiting, same⟩)

/-- A sound tasker with a bounded pool keeps its timers apart. -/
theorem Invariant.exclusive {maxTimerCount : Nat} {state : State Job}
    (invariant : Invariant maxTimerCount state) : Exclusive state.tasker maxTimerCount :=
  ⟨invariant.sound.rested, invariant.sound.restedOnce, invariant.bounded,
    waitsOn_length invariant.sound⟩

/-- A job that is scheduled later leaves the jobs of the earlier calls. -/
theorem scheduled_append {scheduled : List Job} {call : Nat} {f : Job} (new : Job)
    (own : scheduled[call]? = some f) : (scheduled ++ [new])[call]? = some f := by
  obtain ⟨below, _⟩ := List.getElem?_eq_some_iff.mp own
  rw [List.getElem?_append_left below]
  exact own

/-- `create_get_timer` arms a timer that nothing waits for, for a call of its own. -/
theorem createGetTimer_invariant {maxTimerCount : Nat} {state next : State Job}
    (invariant : Invariant maxTimerCount state) (f : Job) (dur : Int)
    (taken : step state (.createGetTimer f dur) = some next) : Invariant maxTimerCount next := by
  obtain rfl := Option.some.inj taken
  obtain ⟨_, waits, _, calls⟩ := state.tasker.createGetTimer_armed f dur
  have limit : (state.tasker.createGetTimer f dur).2.maxTimerCount = state.tasker.maxTimerCount := by
    simp only [AsyncTasker.createGetTimer]
    split <;> rfl
  have shrunk : (state.tasker.createGetTimer f dur).2.expiredTimers.length ≤
      state.tasker.expiredTimers.length := by
    rcases state.tasker.createGetTimer_source f dur with ⟨recycled, _⟩ | ⟨_, none, _⟩
    · rw [recycled, List.length_cons]
      exact Nat.le_succ _
    · rw [none]
      exact Nat.zero_le _
  have unwaited : waitsOn state.tasker (state.tasker.createGetTimer f dur).1 = [] := by
    apply List.eq_nil_of_length_eq_zero
    rw [waitsOn_length invariant.sound, if_neg (invariant.sound.created_rests f dur)]
  obtain ⟨accounted, startedOwn, waitingOwn⟩ := invariant.scheduledOnce
  constructor
  · exact invariant.sound.createGetTimer f dur
  · exact limit.trans invariant.limit
  · exact shrunk.trans invariant.bounded
  · rw [calls, invariant.counted, List.length_append, List.length_singleton]
  · simp only [invariant.uncancelled, unwaited, List.append_nil]
  · constructor
    · simp only [waits, List.map_append, List.map_singleton, List.length_append,
        List.length_singleton, List.range_succ, invariant.counted, ← List.append_assoc]
      exact accounted.append_right _
    · intro begun member
      exact scheduled_append f (startedOwn begun member)
    · intro wait waiting
      simp only [waits, List.mem_append, List.mem_singleton] at waiting
      rcases waiting with before | rfl
      · exact scheduled_append f (waitingOwn wait before)
      · simp [invariant.counted]

/-- A timeout moves its call from the waits to the starts. -/
theorem retire_accounted {tasker : AsyncTasker Job} (sound : tasker.Sound) {wait : Wait Job}
    (waiting : wait ∈ tasker.waits) :
    (wait.call :: (tasker.retire wait).waits.map (·.call)).Perm (tasker.waits.map (·.call)) := by
  have split := List.filter_append_perm (fun other : Wait Job => other.call = wait.call)
    tasker.waits
  have alone : tasker.waits.filter (fun other => other.call = wait.call) = [wait] := by
    have single : (tasker.waits.filter (fun other => other.call = wait.call)).length = 1 := by
      have counted := List.count_eq_one_of_mem sound.numbered (List.mem_map_of_mem waiting)
      rw [List.count, List.countP_map] at counted
      rw [← List.countP_eq_length_filter, ← counted]
      apply List.countP_congr
      intro other _
      simp
    obtain ⟨only, found⟩ := List.length_eq_one_iff.mp single
    have member : wait ∈ tasker.waits.filter (fun other => other.call = wait.call) :=
      List.mem_filter.mpr ⟨waiting, decide_eq_true rfl⟩
    rw [found, List.mem_singleton] at member
    rw [found, member]
  rw [alone] at split
  have mapped := split.map (·.call)
  simpa only [List.singleton_append, List.map_cons, AsyncTasker.retire, ← decide_not] using mapped

/-- A timeout starts the job of its call, which waits no longer. -/
theorem handleTimeout_invariant {maxTimerCount : Nat} {state next : State Job}
    (invariant : Invariant maxTimerCount state) (call : Nat)
    (taken : step state (.handleTimeout call) = some next) : Invariant maxTimerCount next := by
  simp only [step, Option.map_eq_some_iff] at taken
  obtain ⟨⟨f, tasker⟩, fired, rfl⟩ := taken
  obtain ⟨wait, waiting, rfl, rfl, rfl⟩ := AsyncTasker.handleTimeout_some fired
  have bounded : (state.tasker.retire wait).expiredTimers.length ≤ maxTimerCount := by
    have room := invariant.limit
    have before := invariant.bounded
    simp only [AsyncTasker.retire]
    split
    · rw [List.length_append, List.length_singleton]
      omega
    · exact before
  obtain ⟨accounted, startedOwn, waitingOwn⟩ := invariant.scheduledOnce
  refine ⟨invariant.sound.retire waiting, invariant.limit, bounded, invariant.counted,
    invariant.uncancelled, ?_, ?_, ?_⟩
  · have moved := (retire_accounted invariant.sound waiting).append_left (state.started.map (·.1))
    rw [List.map_append, List.map_singleton, List.append_assoc, List.singleton_append]
    exact moved.trans accounted
  · intro begun member
    rcases List.mem_append.mp member with before | now
    · exact startedOwn begun before
    · rw [List.mem_singleton.mp now]
      exact waitingOwn wait waiting
  · intro other remains
    exact waitingOwn other (List.mem_of_mem_filter remains)

theorem step_invariant {maxTimerCount : Nat} {state next : State Job} {action : Action Job}
    (invariant : Invariant maxTimerCount state) (taken : step state action = some next) :
    Invariant maxTimerCount next := by
  cases action with
  | createGetTimer f dur => exact createGetTimer_invariant invariant f dur taken
  | handleTimeout call => exact handleTimeout_invariant invariant call taken

/-- The invariant holds at the end of every run. -/
theorem run_invariant {maxTimerCount : Nat} {actions : List (Action Job)} {finish : State Job}
    (ran : LabelledRuns.run step (start maxTimerCount) actions = some finish) :
    Invariant maxTimerCount finish :=
  LabelledRuns.run_preserves (fun _ _ _ invariant taken => step_invariant invariant taken)
    (start_invariant maxTimerCount) ran

/-- The wait of every call that has not started can time out. -/
theorem handleTimeout_enabled {state : State Job} {wait : Wait Job}
    (waiting : wait ∈ state.tasker.waits) : (step state (.handleTimeout wait.call)).isSome := by
  simp only [step, AsyncTasker.handleTimeout, Option.isSome_map, List.find?_isSome]
  exact ⟨wait, waiting, decide_eq_true rfl⟩

/-- In every state of every run the timers are kept apart, no wait has been
cancelled by arming its timer again, and every scheduled job has started exactly
once or waits to start, which it can. Once nothing waits, the jobs started are
the jobs scheduled. -/
theorem jobs_run_exactly_once (maxTimerCount : Nat) (actions : List (Action Job))
    (finish : State Job)
    (ran : LabelledRuns.run step (start maxTimerCount) actions = some finish) :
    Exclusive finish.tasker maxTimerCount ∧ finish.cancelled = [] ∧ ScheduledOnce finish ∧
      (∀ wait ∈ finish.tasker.waits, (step finish (.handleTimeout wait.call)).isSome) ∧
      (finish.tasker.waits = [] →
        (finish.started.map (·.1)).Perm (List.range finish.scheduled.length)) := by
  have invariant := run_invariant ran
  refine ⟨invariant.exclusive, invariant.uncancelled, invariant.scheduledOnce, ?_, ?_⟩
  · intro wait waiting
    exact handleTimeout_enabled waiting
  · intro quiet
    have accounted := invariant.scheduledOnce.accounted
    rw [quiet, List.map_nil, List.append_nil] at accounted
    exact accounted

/-- A job takes back the timer it waited for, and a second job then needs a new
timer, for which the pool of one has no place when both have started. -/
theorem nested_jobs_run_exactly_once :
    ∃ finish, LabelledRuns.run step (start 1 : State Bool)
        [.createGetTimer true 0, .handleTimeout 0, .createGetTimer false 5,
          .createGetTimer true 7, .handleTimeout 2, .handleTimeout 1] = some finish ∧
      finish.tasker.expiredTimers = [1] ∧ Exclusive finish.tasker 1 ∧
      (finish.started.map (·.1)).Perm (List.range 3) := by
  have ran : LabelledRuns.run step (start 1 : State Bool)
      [.createGetTimer true 0, .handleTimeout 0, .createGetTimer false 5,
        .createGetTimer true 7, .handleTimeout 2, .handleTimeout 1] =
      some ⟨⟨1, ∅, [1], [], [], 2, 3⟩, [true, false, true],
        [(0, true), (2, true), (1, false)], []⟩ := by decide
  obtain ⟨exclusive, _, _, _, complete⟩ := jobs_run_exactly_once 1 _ _ ran
  exact ⟨_, ran, rfl, exclusive, complete rfl⟩

end Mprt.TimerPool
