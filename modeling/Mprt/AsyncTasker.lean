import Mathlib.Data.Finset.Insert
import Mathlib.Data.Finset.Erase

/-!
# The event loop of a thread and its timers

`async_tasker` runs posted jobs in order on one thread and starts other jobs
when their timers expire. A timer whose job starts goes into a queue of expired
timers, as long as that queue is shorter than a given length, and the next call
that needs a timer takes the oldest one out of the queue before it makes a new
one. A timer is named by its address, and a new timer has a new address.

Every job that waits for a timer carries the number of the call that scheduled
it. The numbers are history: no function decides by them. Which timer expires
next is up to the clock, so any waiting job may be next.
-/

namespace Mprt

/-- A handler that waits for its timer, with its duration in microseconds and
the number of the call of `create_get_timer` that scheduled it. -/
structure Wait (Job : Type) where
  timer : Nat
  job : Job
  dur : Int
  call : Nat
deriving DecidableEq

/-- What has been posted: a job, or a call of `create_get_timer` for a job. -/
inductive Posted (Job : Type) where
  | job (f : Job)
  | createGetTimer (f : Job) (dur : Int)
deriving DecidableEq

/-- The members of `async_tasker`, with the posted handlers and the waiting ones
that its `io_context` keeps, and the number of timers and of calls so far. -/
structure AsyncTasker (Job : Type) where
  maxTimerCount : Nat
  activeTimers : Finset Nat
  expiredTimers : List Nat
  posted : List (Posted Job)
  waits : List (Wait Job)
  allocated : Nat
  calls : Nat
deriving DecidableEq

namespace AsyncTasker

variable {Job : Type}

def make (maxTimerCount : Nat) : AsyncTasker Job := ⟨maxTimerCount, ∅, [], [], [], 0, 0⟩

def isActiveTimer (tasker : AsyncTasker Job) (timer : Nat) : Bool :=
  decide (timer ∈ tasker.activeTimers)

/-- `async_wait` and the insertion into the active timers. -/
def asyncWait (tasker : AsyncTasker Job) (timer : Nat) (f : Job) (dur : Int) : AsyncTasker Job :=
  { tasker with
    activeTimers := insert timer tasker.activeTimers
    waits := tasker.waits ++ [⟨timer, f, dur, tasker.calls⟩]
    calls := tasker.calls + 1 }

/-- `create_get_timer`: the oldest expired timer is used again. -/
def createGetTimer (tasker : AsyncTasker Job) (f : Job) (dur : Int) : Nat × AsyncTasker Job :=
  match tasker.expiredTimers with
  | [] =>
      (tasker.allocated,
        { tasker.asyncWait tasker.allocated f dur with allocated := tasker.allocated + 1 })
  | timer :: rest => (timer, { tasker.asyncWait timer f dur with expiredTimers := rest })

/-- `add_async_job_thread_internal`. -/
def addAsyncJobThreadInternal (tasker : AsyncTasker Job) (f : Job) (dur : Int) :
    Nat × AsyncTasker Job := tasker.createGetTimer f dur

/-- `add_async_job` without a duration. -/
def addAsyncJob (tasker : AsyncTasker Job) (f : Job) : AsyncTasker Job :=
  { tasker with posted := tasker.posted ++ [.job f] }

/-- `add_async_job` with a duration: the timer is created by a posted handler. -/
def addAsyncJobAfter (tasker : AsyncTasker Job) (f : Job) (dur : Int) : AsyncTasker Job :=
  { tasker with posted := tasker.posted ++ [.createGetTimer f dur] }

/-- `handle_timeout` up to the call of the job. -/
def retire (tasker : AsyncTasker Job) (wait : Wait Job) : AsyncTasker Job :=
  { tasker with
    activeTimers := tasker.activeTimers.erase wait.timer
    expiredTimers :=
      if tasker.expiredTimers.length < tasker.maxTimerCount then
        tasker.expiredTimers ++ [wait.timer]
      else tasker.expiredTimers
    waits := tasker.waits.filter (fun other => other.call ≠ wait.call) }

/-- `handle_timeout` for the job scheduled by a call, with the job to be run. -/
def handleTimeout (tasker : AsyncTasker Job) (call : Nat) : Option (Job × AsyncTasker Job) :=
  (tasker.waits.find? (fun wait => wait.call = call)).map (fun wait =>
    (wait.job, tasker.retire wait))

/-- The next posted handler, with the job to be run when it is one. -/
def runPosted (tasker : AsyncTasker Job) : Option (Option Job × AsyncTasker Job) :=
  match tasker.posted with
  | [] => none
  | .job f :: rest => some (some f, { tasker with posted := rest })
  | .createGetTimer f dur :: rest =>
      some (none, ({ tasker with posted := rest }.createGetTimer f dur).2)

/-- Every active timer has one waiting job, a timer that waits to be used again
is not active and is there once, and calls have different numbers. -/
structure Sound (tasker : AsyncTasker Job) : Prop where
  active : ∀ timer, timer ∈ tasker.activeTimers ↔ ∃ wait ∈ tasker.waits, wait.timer = timer
  single : (tasker.waits.map (·.timer)).Nodup
  rested : ∀ timer ∈ tasker.expiredTimers, timer ∉ tasker.activeTimers
  restedOnce : tasker.expiredTimers.Nodup
  allocatedRested : ∀ timer ∈ tasker.expiredTimers, timer < tasker.allocated
  allocatedActive : ∀ timer ∈ tasker.activeTimers, timer < tasker.allocated
  numbered : (tasker.waits.map (·.call)).Nodup
  counted : ∀ wait ∈ tasker.waits, wait.call < tasker.calls

/-- A new tasker is sound. -/
theorem make_sound (maxTimerCount : Nat) : (make maxTimerCount : AsyncTasker Job).Sound where
  active := by simp [make]
  single := List.nodup_nil
  rested := by simp [make]
  restedOnce := List.nodup_nil
  allocatedRested := by simp [make]
  allocatedActive := by simp [make]
  numbered := List.nodup_nil
  counted := by simp [make]

/-- What is posted has no part in soundness. -/
theorem Sound.setPosted {tasker : AsyncTasker Job} (sound : tasker.Sound)
    (posted : List (Posted Job)) : ({ tasker with posted := posted } : AsyncTasker Job).Sound :=
  ⟨sound.active, sound.single, sound.rested, sound.restedOnce, sound.allocatedRested,
    sound.allocatedActive, sound.numbered, sound.counted⟩

/-- `create_get_timer` arms one timer, which is the oldest expired one or a new
one, and leaves everything else. -/
theorem createGetTimer_armed (tasker : AsyncTasker Job) (f : Job) (dur : Int) :
    let created := tasker.createGetTimer f dur
    created.2.activeTimers = insert created.1 tasker.activeTimers ∧
      created.2.waits = tasker.waits ++ [⟨created.1, f, dur, tasker.calls⟩] ∧
      created.2.posted = tasker.posted ∧ created.2.calls = tasker.calls + 1 := by
  intro created
  simp only [created, createGetTimer]
  split <;> exact ⟨rfl, rfl, rfl, rfl⟩

/-- Where the armed timer comes from. -/
theorem createGetTimer_source (tasker : AsyncTasker Job) (f : Job) (dur : Int) :
    let created := tasker.createGetTimer f dur
    (tasker.expiredTimers = created.1 :: created.2.expiredTimers ∧
        created.2.allocated = tasker.allocated) ∨
      (tasker.expiredTimers = [] ∧ created.2.expiredTimers = [] ∧
        created.1 = tasker.allocated ∧ created.2.allocated = tasker.allocated + 1) := by
  intro created
  simp only [created, createGetTimer]
  split
  · rename_i vacant
    exact .inr ⟨vacant, vacant, rfl, rfl⟩
  · rename_i timer rest found
    exact .inl ⟨found, rfl⟩

/-- The timer that is armed was not active. -/
theorem Sound.created_rests {tasker : AsyncTasker Job} (sound : tasker.Sound) (f : Job)
    (dur : Int) : (tasker.createGetTimer f dur).1 ∉ tasker.activeTimers := by
  rcases tasker.createGetTimer_source f dur with ⟨recycled, _⟩ | ⟨_, _, fresh, _⟩
  · exact sound.rested _ (by rw [recycled]; exact List.mem_cons_self)
  · intro active
    have below := sound.allocatedActive _ active
    omega

/-- A new key at the end leaves the keys different. -/
theorem nodup_map_snoc {Item Key : Type} {key : Item → Key} {items : List Item} {new : Item}
    (distinct : (items.map key).Nodup) (fresh : ∀ item ∈ items, key item ≠ key new) :
    ((items ++ [new]).map key).Nodup := by
  rw [List.map_append, List.map_singleton, List.nodup_append_comm, List.singleton_append,
    List.nodup_cons]
  refine ⟨?_, distinct⟩
  intro member
  obtain ⟨item, listed, same⟩ := List.mem_map.mp member
  exact fresh item listed same

/-- Arming a timer keeps the tasker sound. -/
theorem Sound.createGetTimer {tasker : AsyncTasker Job} (sound : tasker.Sound) (f : Job)
    (dur : Int) : (tasker.createGetTimer f dur).2.Sound := by
  have rests := sound.created_rests f dur
  obtain ⟨actives, waits, _, calls⟩ := tasker.createGetTimer_armed f dur
  have source := tasker.createGetTimer_source f dur
  generalize tasker.createGetTimer f dur = created at *
  obtain ⟨timer, next⟩ := created
  simp only at *
  have remaining : ∀ other ∈ next.expiredTimers,
      other ∈ tasker.expiredTimers ∧ other ≠ timer ∧ other < next.allocated := by
    intro other member
    rcases source with ⟨recycled, same⟩ | ⟨_, none, _⟩
    · have once := sound.restedOnce
      rw [recycled, List.nodup_cons] at once
      have before : other ∈ tasker.expiredTimers := recycled ▸ List.mem_cons_of_mem timer member
      refine ⟨before, ?_, same ▸ sound.allocatedRested other before⟩
      rintro rfl
      exact once.1 member
    · rw [none] at member
      exact absurd member List.not_mem_nil
  refine ⟨?_, ?_, ?_, ?_, ?_, ?_, ?_, ?_⟩
  · intro other
    rw [actives, waits, Finset.mem_insert, sound.active other]
    simp only [List.mem_append, List.mem_singleton, or_and_right, exists_or, exists_eq_left]
    constructor
    · rintro (rfl | waiting)
      · exact .inr rfl
      · exact .inl waiting
    · rintro (waiting | rfl)
      · exact .inr waiting
      · exact .inl rfl
  · rw [waits]
    apply nodup_map_snoc sound.single
    intro wait waiting same
    exact rests ((sound.active timer).mpr ⟨wait, waiting, same⟩)
  · intro other member
    obtain ⟨before, different, _⟩ := remaining other member
    rw [actives, Finset.mem_insert]
    rintro (same | active)
    · exact different same
    · exact sound.rested other before active
  · rcases source with ⟨recycled, _⟩ | ⟨_, none, _⟩
    · have once := sound.restedOnce
      rw [recycled, List.nodup_cons] at once
      exact once.2
    · exact none ▸ List.nodup_nil
  · exact fun other member => (remaining other member).2.2
  · intro other active
    rw [actives, Finset.mem_insert] at active
    rcases active with rfl | active
    · rcases source with ⟨recycled, same⟩ | ⟨_, _, fresh, grown⟩
      · exact same ▸ sound.allocatedRested other (recycled ▸ List.mem_cons_self)
      · omega
    · have below := sound.allocatedActive other active
      rcases source with ⟨_, same⟩ | ⟨_, _, _, grown⟩ <;> omega
  · rw [waits]
    exact nodup_map_snoc sound.numbered
      (fun wait waiting => Nat.ne_of_lt (sound.counted wait waiting))
  · intro wait waiting
    rw [waits] at waiting
    rw [calls]
    rcases List.mem_append.mp waiting with before | new
    · exact Nat.lt_succ_of_lt (sound.counted wait before)
    · rw [List.mem_singleton.mp new]
      exact Nat.lt_succ_self _

/-- Waits of one timer are one wait. -/
theorem Sound.wait_unique {tasker : AsyncTasker Job} (sound : tasker.Sound) {wait other : Wait Job}
    (waiting : wait ∈ tasker.waits) (otherWaiting : other ∈ tasker.waits)
    (same : wait.timer = other.timer) : wait = other :=
  List.inj_on_of_nodup_map sound.single waiting otherWaiting same

/-- Waits of one call are one wait. -/
theorem Sound.call_unique {tasker : AsyncTasker Job} (sound : tasker.Sound) {wait other : Wait Job}
    (waiting : wait ∈ tasker.waits) (otherWaiting : other ∈ tasker.waits)
    (same : wait.call = other.call) : wait = other :=
  List.inj_on_of_nodup_map sound.numbered waiting otherWaiting same

/-- The start of a job keeps the tasker sound. -/
theorem Sound.retire {tasker : AsyncTasker Job} (sound : tasker.Sound) {wait : Wait Job}
    (waiting : wait ∈ tasker.waits) : (tasker.retire wait).Sound := by
  have wasActive := (sound.active wait.timer).mpr ⟨wait, waiting, rfl⟩
  have notRested : wait.timer ∉ tasker.expiredTimers := fun member =>
    sound.rested wait.timer member wasActive
  have rested : ∀ timer ∈ (tasker.retire wait).expiredTimers,
      timer ∈ tasker.expiredTimers ∨ timer = wait.timer := by
    intro timer member
    simp only [AsyncTasker.retire] at member
    split at member
    · simpa using member
    · exact .inl member
  have kept : (tasker.retire wait).waits.Sublist tasker.waits := List.filter_sublist
  refine ⟨?_, sound.single.sublist (kept.map _), ?_, ?_, ?_, ?_, sound.numbered.sublist (kept.map _),
    fun other member => sound.counted other (kept.mem member)⟩
  · intro timer
    simp only [AsyncTasker.retire, Finset.mem_erase, sound.active, List.mem_filter,
      decide_eq_true_eq]
    constructor
    · rintro ⟨different, other, member, rfl⟩
      refine ⟨other, ⟨member, ?_⟩, rfl⟩
      intro same
      exact different (congrArg Wait.timer (sound.call_unique member waiting same))
    · rintro ⟨other, ⟨member, different⟩, rfl⟩
      refine ⟨?_, other, member, rfl⟩
      intro same
      exact different (congrArg Wait.call (sound.wait_unique member waiting same))
  · intro timer member active
    simp only [AsyncTasker.retire, Finset.mem_erase] at active
    rcases rested timer member with before | same
    · exact sound.rested timer before active.2
    · exact active.1 same
  · simp only [AsyncTasker.retire]
    split
    · rw [List.nodup_append_comm, List.singleton_append, List.nodup_cons]
      exact ⟨notRested, sound.restedOnce⟩
    · exact sound.restedOnce
  · intro timer member
    rcases rested timer member with before | rfl
    · exact sound.allocatedRested timer before
    · exact sound.allocatedActive _ wasActive
  · intro timer active
    simp only [AsyncTasker.retire, Finset.mem_erase] at active
    exact sound.allocatedActive timer active.2

/-- The job that a timeout starts is that of the wait with the number. -/
theorem handleTimeout_some {tasker next : AsyncTasker Job} {call : Nat} {f : Job}
    (taken : tasker.handleTimeout call = some (f, next)) :
    ∃ wait ∈ tasker.waits, wait.call = call ∧ f = wait.job ∧ next = tasker.retire wait := by
  simp only [handleTimeout, Option.map_eq_some_iff, Prod.mk.injEq] at taken
  obtain ⟨wait, found, rfl, rfl⟩ := taken
  have number := List.find?_some found
  exact ⟨wait, List.mem_of_find?_eq_some found, of_decide_eq_true number, rfl, rfl⟩

end AsyncTasker

end Mprt
