import Mprt.TimerPool

/-!
# The end of a tasker

The destructor of `async_tasker` posts two handlers, of which the first gives up the work guard
and lets every active timer expire, and the second stops the event loop. It then waits for the
thread, which runs handlers until the loop is stopped, until nothing is left to wait for, or
until a hundred jobs have thrown.

A timer whose time has come puts its handler into the same queue in which the posted handlers
are, so one queue decides the order. Other threads and the clock go on between the two posts,
and a handler that comes after the second one does not run any more.
-/

namespace Mprt.TaskerQuit

variable {Job : Type}

/-- What the queue of the `io_context` holds: what was posted, the timeout of a call, and the two
handlers of `quit`. -/
inductive Handler (Job : Type) where
  | posted (handler : Posted Job)
  | timeout (call : Nat)
  | cancelTimers
  | stopIo
deriving DecidableEq

/-- How far the destructor is in `quit`. -/
inductive Quit where
  | notCalled
  | cancelPosted
  | stopPosted
deriving DecidableEq

/-- The timers, the queue, the work guard, whether the `io_context` is stopped and the thread has
returned, and the exceptions caught by `process_events`. `handled` has the handlers that were
run, and `before` those that were run or queued when the second handler of `quit` was posted. -/
structure State (Job : Type) where
  pool : TimerPool.State Job
  queue : List (Handler Job)
  workGuard : Bool
  stopped : Bool
  returned : Bool
  tryCount : Nat
  quit : Quit
  handled : List (Handler Job)
  before : List (Handler Job)
deriving DecidableEq

/-- A post and the expiry of a timer come from outside or from a job, the call of
`create_get_timer` from a job. The order in which `quit` goes through the active timers is that
of a hash table, and any order is possible. -/
inductive Action (Job : Type) where
  | post (handler : Posted Job)
  | createGetTimer (f : Job) (dur : Int)
  | expire (call : Nat)
  | run (throws : Bool) (order : List Nat)
  | quitCancel
  | quitStop
  | leave

namespace Handler

def timeoutCall : Handler Job → Option Nat
  | .timeout call => some call
  | _ => none

def isStop : Handler Job → Bool
  | .stopIo => true
  | _ => false

/-- Only a job may throw. -/
def runsJob : Handler Job → Bool
  | .posted (.job _) | .timeout _ => true
  | _ => false

end Handler

/-- The calls whose handlers are in the queue. -/
def queuedCalls (handlers : List (Handler Job)) : List Nat :=
  handlers.filterMap Handler.timeoutCall

/-- The calls whose timers have not expired. -/
def pending (state : State Job) : List Nat :=
  (state.pool.tasker.waits.map (·.call)).filter (fun call => call ∉ queuedCalls state.queue)

/-- A step of the timers. -/
def withPool (state : State Job) (action : TimerPool.Action Job) : Option (State Job) :=
  (TimerPool.step state.pool action).map (fun pool => { state with pool := pool })

/-- A handler that the loop has taken out of the queue. `expires_at` in the first handler of
`quit` puts the handlers of the timers that have not expired into the queue. -/
def invoke (state : State Job) (order : List Nat) : Handler Job → Option (State Job)
  | .posted (.job _) => some state
  | .posted (.createGetTimer f dur) => withPool state (.createGetTimer f dur)
  | .timeout call => withPool state (.handleTimeout call)
  | .cancelTimers =>
      if order.Perm (pending state) then
        some { state with workGuard := false, queue := state.queue ++ order.map .timeout }
      else none
  | .stopIo => some { state with stopped := true }

/-- The loop of `process_events` calls `run` again after an exception, a hundred times. -/
def caught (state : State Job) : State Job :=
  { state with tryCount := state.tryCount + 1, returned := decide (state.tryCount + 1 = 100) }

def step (state : State Job) : Action Job → Option (State Job)
  | .post handler =>
      if state.quit = .notCalled ∨ state.returned = false then
        some { state with queue := state.queue ++ [.posted handler] }
      else none
  | .createGetTimer f dur =>
      if state.returned = false then withPool state (.createGetTimer f dur) else none
  | .expire call =>
      if state.returned = false ∧ call ∈ pending state then
        some { state with queue := state.queue ++ [.timeout call] }
      else none
  | .run throws order =>
      match state.queue with
      | [] => none
      | handler :: rest =>
          if state.stopped = false ∧ state.returned = false ∧ (throws → handler.runsJob) then
            (invoke { state with queue := rest, handled := state.handled ++ [handler] } order
              handler).map (fun next => if throws then caught next else next)
          else none
  | .quitCancel =>
      if state.quit = .notCalled then
        some { state with quit := .cancelPosted, queue := state.queue ++ [.cancelTimers] }
      else none
  | .quitStop =>
      if state.quit = .cancelPosted then
        some { state with
          quit := .stopPosted
          before := state.handled ++ state.queue
          queue := state.queue ++ [.stopIo] }
      else none
  | .leave =>
      -- `run` returns when the loop is stopped or has nothing left to wait for
      if state.returned = false ∧ (state.stopped = true ∨
          state.workGuard = false ∧ state.queue = [] ∧ state.pool.tasker.waits = []) then
        some { state with returned := true }
      else none

def start (maxTimerCount : Nat) : State Job :=
  ⟨TimerPool.start maxTimerCount, [], true, false, false, 0, .notCalled, [], []⟩

/-! ## What every step keeps -/

/-- How far the second handler of `quit` is: not posted, in the queue behind all that was there
when it was posted, or run as the last one. -/
inductive Stopping (handled before queue : List (Handler Job)) : Quit → Bool → Prop where
  | unposted {quit : Quit} (earlier : quit ≠ .stopPosted)
      (unstopped : ∀ handler ∈ handled ++ queue, handler.isStop = false) :
      Stopping handled before queue quit false
  | queued (remaining later : List (Handler Job)) (split : before = handled ++ remaining)
      (behind : queue = remaining ++ .stopIo :: later)
      (unstopped : ∀ handler ∈ before, handler.isStop = false) :
      Stopping handled before queue .stopPosted false
  | last (all : handled = before ++ [.stopIo]) : Stopping handled before queue .stopPosted true

/-- The guard is given up by the first handler of `quit` only. A loop that returned without a
hundred exceptions was stopped, or had run all that was queued. -/
structure Leaving (state : State Job) : Prop where
  guarded : state.quit = .notCalled →
    state.workGuard = true ∧ ∀ handler ∈ state.queue, handler ≠ .cancelTimers
  left : state.returned = true → state.tryCount ≠ 100 → state.stopped = true ∨
    state.quit = .cancelPosted ∧ state.queue = [] ∨
      state.quit = .stopPosted ∧ state.handled = state.before

structure Invariant (maxTimerCount : Nat) (state : State Job) : Prop where
  pool : TimerPool.Invariant maxTimerCount state.pool
  queuedOnce : (queuedCalls state.queue).Nodup
  queuedWaits : ∀ call ∈ queuedCalls state.queue, call ∈ state.pool.tasker.waits.map (·.call)
  started : state.pool.started.map (·.1) = queuedCalls state.handled
  stopping : Stopping state.handled state.before state.queue state.quit state.stopped
  leaving : Leaving state

section Queue

variable {handled before queue rest : List (Handler Job)} {handler : Handler Job} {quit : Quit}
  {stopped : Bool}

@[simp]
theorem queuedCalls_append (first second : List (Handler Job)) :
    queuedCalls (first ++ second) = queuedCalls first ++ queuedCalls second :=
  List.filterMap_append

/-- A handler that is not a timeout adds no call. -/
theorem queuedCalls_silent {handler : Handler Job} (silent : queuedCalls [handler] = [])
    (queue : List (Handler Job)) : queuedCalls (queue ++ [handler]) = queuedCalls queue := by
  rw [queuedCalls_append, silent, List.append_nil]

theorem queuedCalls_cons (handler : Handler Job) (rest : List (Handler Job)) :
    queuedCalls (handler :: rest) = queuedCalls [handler] ++ queuedCalls rest :=
  queuedCalls_append [handler] rest

@[simp]
theorem queuedCalls_timeouts (order : List Nat) :
    queuedCalls (order.map .timeout : List (Handler Job)) = order := by
  induction order with
  | nil => rfl
  | cons call rest inductionHypothesis =>
    rw [List.map_cons, queuedCalls_cons, inductionHypothesis]
    rfl

/-- What comes later is behind the second handler of `quit`. -/
theorem Stopping.appended (stopping : Stopping handled before queue quit stopped)
    (new : List (Handler Job)) (unstopped : ∀ handler ∈ new, handler.isStop = false) :
    Stopping handled before (queue ++ new) quit stopped := by
  cases stopping with
  | unposted earlier present =>
    refine .unposted earlier (fun handler member => ?_)
    rw [← List.append_assoc] at member
    exact (List.mem_append.mp member).elim (present handler) (unstopped handler)
  | queued remaining later split behind present =>
    refine .queued remaining (later ++ new) split ?_ present
    rw [behind, List.append_assoc, List.cons_append]
  | last all => exact .last all

/-- A handler that does not stop the loop is run in its place. -/
theorem Stopping.ran (stopping : Stopping handled before (handler :: rest) quit false)
    (goes : handler.isStop = false) :
    Stopping (handled ++ [handler]) before rest quit false := by
  cases stopping with
  | unposted earlier present =>
    refine .unposted earlier ?_
    rw [List.append_assoc]
    exact present
  | queued remaining later split behind present =>
    cases remaining with
    | nil =>
      obtain ⟨rfl, _⟩ := List.cons.inj behind
      cases goes
    | cons first others =>
      obtain ⟨rfl, rfl⟩ := List.cons.inj behind
      refine .queued others later ?_ rfl present
      rw [split, List.append_assoc]
      rfl

/-- The handler that stops the loop is the second one of `quit`, and nothing of what was there
when it was posted is left. -/
theorem Stopping.halts (stopping : Stopping handled before (.stopIo :: rest) quit false) :
    Stopping (handled ++ [.stopIo]) before rest quit true := by
  cases stopping with
  | unposted earlier present =>
    cases present .stopIo (List.mem_append_right handled List.mem_cons_self)
  | queued remaining later split behind present =>
    cases remaining with
    | nil =>
      rw [List.append_nil] at split
      rw [← split]
      exact .last rfl
    | cons first others =>
      obtain ⟨rfl, _⟩ := List.cons.inj behind
      rw [split] at present
      cases present .stopIo (List.mem_append_right handled List.mem_cons_self)

end Queue

section Steps

variable {maxTimerCount : Nat} {state next : State Job}

/-- A call of `create_get_timer` waits behind those that wait. -/
theorem pool_created {pool later : TimerPool.State Job} {f : Job} {dur : Int}
    (taken : TimerPool.step pool (.createGetTimer f dur) = some later) :
    later.started = pool.started ∧
      later.tasker.waits.map (·.call) = pool.tasker.waits.map (·.call) ++ [pool.tasker.calls] := by
  obtain rfl := Option.some.inj taken
  refine ⟨rfl, ?_⟩
  simp only [(pool.tasker.createGetTimer_armed f dur).2.1, List.map_append, List.map_singleton]

/-- A timeout starts the job of its call, which waits no longer. -/
theorem pool_timedOut {pool later : TimerPool.State Job} {call : Nat}
    (taken : TimerPool.step pool (.handleTimeout call) = some later) :
    later.started.map (·.1) = pool.started.map (·.1) ++ [call] ∧
      later.tasker.waits.map (·.call) =
        (pool.tasker.waits.map (·.call)).filter (fun other => other ≠ call) := by
  simp only [TimerPool.step, Option.map_eq_some_iff] at taken
  obtain ⟨⟨f, tasker⟩, fired, rfl⟩ := taken
  obtain ⟨wait, _, rfl, rfl, rfl⟩ := AsyncTasker.handleTimeout_some fired
  refine ⟨by rw [List.map_append, List.map_singleton], ?_⟩
  simp only [AsyncTasker.retire, List.filter_map, Function.comp_def]

theorem withPool_some {action : TimerPool.Action Job}
    (taken : withPool state action = some next) :
    ∃ pool, TimerPool.step state.pool action = some pool ∧ next = { state with pool := pool } := by
  obtain ⟨pool, stepped, rfl⟩ := Option.map_eq_some_iff.mp taken
  exact ⟨pool, stepped, rfl⟩

/-- A new timer waits besides those whose handlers are in the queue. -/
theorem Invariant.created (invariant : Invariant maxTimerCount state) {f : Job} {dur : Int}
    (taken : withPool state (.createGetTimer f dur) = some next) :
    Invariant maxTimerCount next ∧ next.returned = state.returned := by
  obtain ⟨pool, stepped, rfl⟩ := withPool_some taken
  obtain ⟨started, waits⟩ := pool_created stepped
  refine ⟨⟨TimerPool.step_invariant invariant.pool stepped, invariant.queuedOnce, ?_, ?_,
    invariant.stopping, invariant.leaving.guarded, invariant.leaving.left⟩, rfl⟩
  · intro call queued
    rw [waits]
    exact List.mem_append_left _ (invariant.queuedWaits call queued)
  · rw [started]
    exact invariant.started

/-- A handler that is posted, or that a timer puts into the queue. -/
theorem Invariant.appended (invariant : Invariant maxTimerCount state) {handler : Handler Job}
    (goes : handler.isStop = false) (keeps : handler ≠ .cancelTimers)
    (going : state.quit = .notCalled ∨ state.returned = false)
    (expired : ∀ call ∈ queuedCalls [handler], call ∈ pending state) :
    Invariant maxTimerCount { state with queue := state.queue ++ [handler] } := by
  have fresh : ∀ call ∈ queuedCalls [handler],
      call ∈ state.pool.tasker.waits.map (·.call) ∧ call ∉ queuedCalls state.queue := by
    intro call queued
    obtain ⟨waits, new⟩ := List.mem_filter.mp (expired call queued)
    exact ⟨waits, of_decide_eq_true new⟩
  refine ⟨invariant.pool, ?_, ?_, invariant.started,
    invariant.stopping.appended [handler] ?_, ?_, ?_⟩
  · have single : (queuedCalls [handler]).Nodup := by
      cases handler with
      | timeout call => exact List.nodup_singleton call
      | _ => exact List.nodup_nil
    rw [queuedCalls_append, List.nodup_append]
    refine ⟨invariant.queuedOnce, single, ?_⟩
    rintro call queued other new rfl
    exact (fresh call new).2 queued
  · intro call queued
    rw [queuedCalls_append] at queued
    rcases List.mem_append.mp queued with present | new
    · exact invariant.queuedWaits call present
    · exact (fresh call new).1
  · intro other member
    rw [List.mem_singleton.mp member]
    exact goes
  · intro early
    obtain ⟨guard, present⟩ := invariant.leaving.guarded early
    refine ⟨guard, fun other member => ?_⟩
    rcases List.mem_append.mp member with queued | new
    · exact present other queued
    · rw [List.mem_singleton.mp new]
      exact keeps
  · intro returned few
    rcases going with early | running
    · rcases invariant.leaving.left returned few with stopped | ⟨posted, _⟩ | ⟨posted, _⟩
      · exact .inl stopped
      · rw [early] at posted
        cases posted
      · rw [early] at posted
        cases posted
    · exact absurd (running.symm.trans returned) Bool.false_ne_true

/-- What is left in the queue when its first handler is taken. -/
theorem Invariant.rest (invariant : Invariant maxTimerCount state) {handler : Handler Job}
    {rest : List (Handler Job)} (first : state.queue = handler :: rest) :
    (queuedCalls [handler]).Disjoint (queuedCalls rest) ∧ (queuedCalls rest).Nodup ∧
      (∀ call ∈ queuedCalls rest, call ∈ state.pool.tasker.waits.map (·.call)) ∧
      ∀ call ∈ queuedCalls [handler], call ∈ state.pool.tasker.waits.map (·.call) := by
  have once := invariant.queuedOnce
  have waits := invariant.queuedWaits
  rw [first, queuedCalls_cons] at once waits
  exact ⟨List.disjoint_of_nodup_append once, (List.nodup_append.mp once).2.1,
    fun call member => waits call (List.mem_append_right _ member),
    fun call member => waits call (List.mem_append_left _ member)⟩

/-- Before `quit` is called the work guard is held, and no handler of it is among those behind the
first one. -/
theorem Invariant.behind (invariant : Invariant maxTimerCount state) {handler : Handler Job}
    {rest : List (Handler Job)} (first : state.queue = handler :: rest)
    (early : state.quit = .notCalled) :
    state.workGuard = true ∧ ∀ other ∈ rest, other ≠ .cancelTimers := by
  have guarded := invariant.leaving.guarded early
  rw [first] at guarded
  exact ⟨guarded.1, fun other member => guarded.2 other (List.mem_cons_of_mem handler member)⟩

/-- A handler without a timeout leaves the calls, and is handled behind the others. -/
theorem Invariant.taking (invariant : Invariant maxTimerCount state) {handler : Handler Job}
    {rest : List (Handler Job)} (first : state.queue = handler :: rest)
    (running : state.stopped = false) (going : state.returned = false)
    (silent : queuedCalls [handler] = []) (goes : handler.isStop = false) :
    Invariant maxTimerCount { state with
      queue := rest, handled := state.handled ++ [handler] } := by
  obtain ⟨_, once, waits, _⟩ := invariant.rest first
  have stopping := invariant.stopping
  rw [first, running] at stopping
  refine ⟨invariant.pool, once, waits, ?_, ?_, invariant.behind first, fun returned =>
    absurd (going.symm.trans returned) Bool.false_ne_true⟩
  · rw [queuedCalls_silent silent]
    exact invariant.started
  · rw [running]
    exact stopping.ran goes

/-- A timeout starts the job that waits for it. Its call is in the queue no more, so no other
timeout is for the same call. -/
theorem Invariant.timedOut (invariant : Invariant maxTimerCount state) {call : Nat}
    {rest : List (Handler Job)} {pool : TimerPool.State Job}
    (first : state.queue = .timeout call :: rest) (running : state.stopped = false)
    (going : state.returned = false)
    (stepped : TimerPool.step state.pool (.handleTimeout call) = some pool) :
    Invariant maxTimerCount { state with
      queue := rest, handled := state.handled ++ [.timeout call], pool := pool } := by
  obtain ⟨apart, once, waits, _⟩ := invariant.rest first
  have stopping := invariant.stopping
  rw [first, running] at stopping
  obtain ⟨started, remaining⟩ := pool_timedOut stepped
  refine ⟨TimerPool.step_invariant invariant.pool stepped, once, ?_, ?_, ?_,
    invariant.behind first, fun returned =>
      absurd (going.symm.trans returned) Bool.false_ne_true⟩
  · intro other queued
    rw [remaining]
    refine List.mem_filter.mpr ⟨waits other queued, decide_eq_true ?_⟩
    rintro rfl
    exact apart List.mem_cons_self queued
  · rw [started, invariant.started, queuedCalls_append]
    rfl
  · rw [running]
    exact stopping.ran rfl

/-- The first handler of `quit` puts the timeouts of all timers that wait into the queue, except
for those that are there already, and lets go of the work guard. -/
theorem Invariant.cancelsTimers (invariant : Invariant maxTimerCount state)
    {rest : List (Handler Job)} {order : List Nat}
    (first : state.queue = .cancelTimers :: rest) (running : state.stopped = false)
    (going : state.returned = false)
    (permuted : order.Perm (pending
      { state with queue := rest, handled := state.handled ++ [.cancelTimers] })) :
    Invariant maxTimerCount { state with
      queue := rest ++ order.map .timeout
      handled := state.handled ++ [.cancelTimers]
      workGuard := false } := by
  obtain ⟨_, once, waits, _⟩ := invariant.rest first
  have taken := invariant.taking first running going rfl rfl
  have cancelled : ∀ call ∈ order,
      call ∈ state.pool.tasker.waits.map (·.call) ∧ call ∉ queuedCalls rest := by
    intro call member
    obtain ⟨waiting, unqueued⟩ := List.mem_filter.mp (permuted.subset member)
    exact ⟨waiting, of_decide_eq_true unqueued⟩
  refine ⟨invariant.pool, ?_, ?_, taken.started, ?_, fun early => ?_, fun returned =>
    absurd (going.symm.trans returned) Bool.false_ne_true⟩
  · rw [queuedCalls_append, queuedCalls_timeouts, List.nodup_append]
    refine ⟨once, permuted.nodup_iff.mpr
      (List.Nodup.filter _ invariant.pool.sound.numbered), ?_⟩
    rintro call queued other member rfl
    exact (cancelled call member).2 queued
  · intro call queued
    rw [queuedCalls_append, queuedCalls_timeouts] at queued
    exact (List.mem_append.mp queued).elim (waits call) (fun member => (cancelled call member).1)
  · refine taken.stopping.appended _ (fun other member => ?_)
    obtain ⟨call, _, rfl⟩ := List.mem_map.mp member
    rfl
  · -- `quit` has been called, since its first handler was there
    have unquit := (invariant.leaving.guarded early).2
    rw [first] at unquit
    exact absurd rfl (unquit _ List.mem_cons_self)

/-- The loop runs the first handler of the queue. The cases are those of the handler, each by its
own lemma, and none of them lets the loop return. -/
theorem Invariant.invoked (invariant : Invariant maxTimerCount state) {handler : Handler Job}
    {rest : List (Handler Job)} {order : List Nat} (first : state.queue = handler :: rest)
    (running : state.stopped = false) (going : state.returned = false)
    (taken : invoke { state with queue := rest, handled := state.handled ++ [handler] } order
      handler = some next) :
    Invariant maxTimerCount next ∧ next.returned = false := by
  match handler with
  | .posted (.job _) =>
    obtain rfl := Option.some.inj taken
    exact ⟨invariant.taking first running going rfl rfl, going⟩
  | .posted (.createGetTimer f dur) =>
    obtain ⟨kept, same⟩ := (invariant.taking first running going rfl rfl).created taken
    exact ⟨kept, same.trans going⟩
  | .timeout call =>
    obtain ⟨pool, stepped, rfl⟩ := withPool_some taken
    exact ⟨invariant.timedOut first running going stepped, going⟩
  | .cancelTimers =>
    simp only [invoke] at taken
    split at taken
    case isFalse => cases taken
    case isTrue permuted =>
      obtain rfl := Option.some.inj taken
      exact ⟨invariant.cancelsTimers first running going permuted, going⟩
  | .stopIo =>
    obtain rfl := Option.some.inj taken
    obtain ⟨_, once, waits, _⟩ := invariant.rest first
    have stopping := invariant.stopping
    rw [first, running] at stopping
    refine ⟨⟨invariant.pool, once, waits, ?_, stopping.halts, invariant.behind first,
      fun returned => absurd (going.symm.trans returned) Bool.false_ne_true⟩, going⟩
    rw [queuedCalls_silent rfl]
    exact invariant.started

/-- An exception does not end the loop before the hundredth one does. -/
theorem Invariant.caught (invariant : Invariant maxTimerCount state) :
    Invariant maxTimerCount (caught state) := by
  refine ⟨invariant.pool, invariant.queuedOnce, invariant.queuedWaits, invariant.started,
    invariant.stopping, invariant.leaving.guarded, ?_⟩
  intro returned few
  exact absurd (of_decide_eq_true returned) few

theorem start_invariant (maxTimerCount : Nat) :
    Invariant maxTimerCount (start maxTimerCount : State Job) where
  pool := TimerPool.start_invariant maxTimerCount
  queuedOnce := List.nodup_nil
  queuedWaits := fun _ member => absurd member List.not_mem_nil
  started := rfl
  stopping := .unposted (by simp [start]) (fun _ member => absurd member List.not_mem_nil)
  leaving := ⟨fun _ => ⟨rfl, fun _ member => absurd member List.not_mem_nil⟩,
    fun returned => absurd returned Bool.false_ne_true⟩

/-- Nothing of what was queued is left to a loop that returns without being stopped. -/
theorem Invariant.drained (invariant : Invariant maxTimerCount state)
    (unguarded : state.workGuard = false) (empty : state.queue = []) :
    state.stopped = true ∨ state.quit = .cancelPosted ∧ state.queue = [] ∨
      state.quit = .stopPosted ∧ state.handled = state.before := by
  have stopping := invariant.stopping
  have guarded := invariant.leaving.guarded
  rw [empty] at stopping ⊢
  generalize state.quit = quit, state.stopped = stopped at stopping guarded ⊢
  cases stopping with
  | unposted earlier _ =>
    cases quit with
    | notCalled => exact absurd ((guarded rfl).1.symm.trans unguarded) (by decide)
    | cancelPosted => exact .inr (.inl ⟨rfl, rfl⟩)
    | stopPosted => exact absurd rfl earlier
  | queued remaining later _ behind _ => exact absurd behind.symm (by simp)
  | last _ => exact .inl rfl

/-- The first handler of `quit` is posted. -/
theorem Invariant.cancels (invariant : Invariant maxTimerCount state)
    (early : state.quit = .notCalled) :
    Invariant maxTimerCount { state with
      quit := .cancelPosted
      queue := state.queue ++ [.cancelTimers] } := by
  refine ⟨invariant.pool, ?_, ?_, invariant.started, ?_, ?_, ?_⟩
  · rw [queuedCalls_silent rfl]
    exact invariant.queuedOnce
  · rw [queuedCalls_silent rfl]
    exact invariant.queuedWaits
  · have stopping := invariant.stopping.appended [.cancelTimers] (by simp [Handler.isStop])
    simp only [early] at stopping ⊢
    generalize state.stopped = stopped at stopping
    cases stopping with
    | unposted _ unstopped => exact .unposted (by decide) unstopped
  · exact fun posted => by cases posted
  · intro returned few
    rcases invariant.leaving.left returned few with stopped | ⟨posted, _⟩ | ⟨posted, _⟩
    · exact .inl stopped
    · cases early.symm.trans posted
    · cases early.symm.trans posted

/-- The second handler of `quit` is posted. -/
theorem Invariant.stops (invariant : Invariant maxTimerCount state)
    (posted : state.quit = .cancelPosted) :
    Invariant maxTimerCount { state with
      quit := .stopPosted
      before := state.handled ++ state.queue
      queue := state.queue ++ [.stopIo] } := by
  have stopping := invariant.stopping
  rw [posted] at stopping
  have unstopped : state.stopped = false ∧
      ∀ handler ∈ state.handled ++ state.queue, handler.isStop = false := by
    generalize state.stopped = stopped at stopping
    cases stopping with
    | unposted _ unstopped => exact ⟨rfl, unstopped⟩
  refine ⟨invariant.pool, ?_, ?_, invariant.started, ?_, (by simp), ?_⟩
  · rw [queuedCalls_silent rfl]
    exact invariant.queuedOnce
  · rw [queuedCalls_silent rfl]
    exact invariant.queuedWaits
  · simp only [unstopped.1]
    exact .queued state.queue [] rfl rfl unstopped.2
  · intro returned few
    rcases invariant.leaving.left returned few with stopped | ⟨_, empty⟩ | ⟨later, _⟩
    · exact .inl stopped
    · refine .inr (.inr ⟨rfl, ?_⟩)
      simp only [empty, List.append_nil]
    · cases posted.symm.trans later

/-- Every step keeps the invariant. -/
theorem step_invariant {action : Action Job} (invariant : Invariant maxTimerCount state)
    (taken : step state action = some next) : Invariant maxTimerCount next := by
  cases action with
  | post handler =>
    simp only [step] at taken
    split at taken
    case isFalse => cases taken
    case isTrue going =>
      obtain rfl := Option.some.inj taken
      exact invariant.appended rfl (by simp) going (fun _ member => absurd member List.not_mem_nil)
  | createGetTimer f dur =>
    simp only [step] at taken
    split at taken
    · exact (invariant.created taken).1
    · cases taken
  | expire call =>
    simp only [step] at taken
    split at taken
    case isFalse => cases taken
    case isTrue expired =>
      obtain rfl := Option.some.inj taken
      refine invariant.appended rfl (by simp) (.inr expired.1) (fun other member => ?_)
      rw [List.mem_singleton.mp member]
      exact expired.2
  | run throws order =>
    simp only [step] at taken
    split at taken
    case h_1 => cases taken
    case h_2 handler rest first =>
      split at taken
      case isFalse => cases taken
      case isTrue going =>
        obtain ⟨done, invoked, rfl⟩ := Option.map_eq_some_iff.mp taken
        have kept := (invariant.invoked first going.1 going.2.1 invoked).1
        cases throws with
        | false => exact kept
        | true => exact kept.caught
  | quitCancel =>
    simp only [step] at taken
    split at taken
    case isFalse => cases taken
    case isTrue early =>
      obtain rfl := Option.some.inj taken
      exact invariant.cancels early
  | quitStop =>
    simp only [step] at taken
    split at taken
    case isFalse => cases taken
    case isTrue posted =>
      obtain rfl := Option.some.inj taken
      exact invariant.stops posted
  | leave =>
    simp only [step] at taken
    split at taken
    case isFalse => cases taken
    case isTrue ready =>
      obtain rfl := Option.some.inj taken
      refine ⟨invariant.pool, invariant.queuedOnce, invariant.queuedWaits, invariant.started,
        invariant.stopping, invariant.leaving.guarded, fun _ _ => ?_⟩
      rcases ready.2 with stopped | ⟨unguarded, empty, _⟩
      · exact .inl stopped
      · exact invariant.drained unguarded empty

/-- Until it is stopped, the loop can run the first handler of its queue. -/
theorem Invariant.run_enabled (invariant : Invariant maxTimerCount state) {handler : Handler Job}
    {rest : List (Handler Job)} (first : state.queue = handler :: rest)
    (running : state.stopped = false) (going : state.returned = false) :
    ∃ order next, step state (.run false order) = some next := by
  have enabled : ∃ order next, invoke { state with
      queue := rest, handled := state.handled ++ [handler] } order handler = some next := by
    match handler with
    | .posted (.job _) => exact ⟨[], _, rfl⟩
    | .posted (.createGetTimer _ _) => exact ⟨[], _, rfl⟩
    | .timeout call =>
      obtain ⟨wait, waiting, rfl⟩ :=
        List.mem_map.mp ((invariant.rest first).2.2.2 call List.mem_cons_self)
      obtain ⟨pool, stepped⟩ := Option.isSome_iff_exists.mp (TimerPool.handleTimeout_enabled waiting)
      exact ⟨[], { state with
        pool := pool, queue := rest, handled := state.handled ++ [.timeout wait.call] },
        Option.map_eq_some_iff.mpr ⟨pool, stepped, rfl⟩⟩
    | .cancelTimers =>
      refine ⟨pending { state with queue := rest, handled := state.handled ++ [.cancelTimers] }, ?_⟩
      simp only [invoke, if_pos (List.Perm.refl _), Option.some.injEq, exists_eq']
    | .stopIo => exact ⟨[], _, rfl⟩
  obtain ⟨order, next, invoked⟩ := enabled
  refine ⟨order, next, ?_⟩
  simp only [step, first]
  rw [if_pos ⟨running, going, by simp⟩, invoked]
  rfl

/-- Once both handlers of `quit` are posted, the loop runs what was there before the second one,
in order, and stops. It can go on until it returns. When no hundred jobs have thrown it has then
run all that was there, and the jobs with timers that were started are those whose timeouts were
there, each once. -/
theorem quit_drains {actions : List (Action Job)}
    (ran : LabelledRuns.run step (start maxTimerCount) actions = some state)
    (posted : state.quit = .stopPosted) :
    state.handled <+: state.before ++ [.stopIo] ∧
      (state.returned = false →
        (∃ order next, step state (.run false order) = some next) ∨
          ∃ next, step state .leave = some next) ∧
      (state.returned = true → state.tryCount ≠ 100 →
        state.before <+: state.handled ∧
          state.pool.started.map (·.1) = queuedCalls state.before) ∧
      TimerPool.ScheduledOnce state.pool := by
  have invariant : Invariant maxTimerCount state :=
    LabelledRuns.run_preserves (fun _ _ _ kept taken => step_invariant kept taken)
      (start_invariant maxTimerCount) ran
  have stopping := invariant.stopping
  rw [posted] at stopping
  refine ⟨?_, ?_, ?_, invariant.pool.scheduledOnce⟩
  · generalize state.stopped = stopped at stopping
    cases stopping with
    | unposted earlier _ => exact absurd rfl earlier
    | queued remaining later split _ _ =>
      rw [split, List.append_assoc]
      exact List.prefix_append _ _
    | last all => rw [all]
  · intro going
    cases stopped : state.stopped with
    | true => exact .inr ⟨_, if_pos ⟨going, .inl stopped⟩⟩
    | false =>
      rw [stopped] at stopping
      cases stopping with
      | unposted earlier _ => exact absurd rfl earlier
      | queued remaining later _ behind _ =>
        obtain ⟨handler, rest, first⟩ : ∃ handler rest, state.queue = handler :: rest :=
          List.exists_cons_of_ne_nil (by rw [behind]; simp)
        exact .inl (invariant.run_enabled first stopped going)
  · intro returned few
    have all : state.handled = state.before ∨ state.handled = state.before ++ [.stopIo] := by
      rcases invariant.leaving.left returned few with stopped | ⟨early, _⟩ | ⟨_, same⟩
      · rw [stopped] at stopping
        cases stopping with
        | last all => exact .inr all
      · cases posted.symm.trans early
      · exact .inl same
    rw [invariant.started]
    rcases all with same | same
    · rw [same]
      exact ⟨List.prefix_rfl, rfl⟩
    · rw [same, queuedCalls_append]
      exact ⟨List.prefix_append _ _, List.append_nil _⟩

/-- A job throws, and the first handler of `quit` lets a timer expire before the second one is
posted, so the job that waits for it is started. -/
theorem quit_drains_one_timer :
    ∃ finish, LabelledRuns.run step (start 1 : State Bool)
        [.post (.job true), .post (.createGetTimer false 5), .run true [], .run false [],
          .quitCancel, .run false [0], .quitStop, .run false [], .run false [], .leave] =
          some finish ∧
      finish.before <+: finish.handled ∧ finish.pool.started.map (·.1) = [0] := by
  refine ⟨⟨⟨⟨1, ∅, [0], [], [], 1, 1⟩, [false], [(0, false)], []⟩, [], false, true, true, 1,
    .stopPosted, [.posted (.job true), .posted (.createGetTimer false 5), .cancelTimers,
      .timeout 0, .stopIo], [.posted (.job true), .posted (.createGetTimer false 5), .cancelTimers,
      .timeout 0]⟩, by decide, ?_⟩
  exact (quit_drains (show LabelledRuns.run step (start 1 : State Bool)
    [.post (.job true), .post (.createGetTimer false 5), .run true [], .run false [],
      .quitCancel, .run false [0], .quitStop, .run false [], .run false [], .leave] = some _ from
        by decide) rfl).2.2.1 rfl (by decide)

end Steps

end Mprt.TaskerQuit
