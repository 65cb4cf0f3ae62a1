import Mprt.AsyncTasker
import Mprt.LabelledRuns
import Mprt.PlayRelease

/-!
# The loop that plays

An output plugin writes to its device in `play`, which starts a timer for itself when there is
something left to play. `cont_internal` waits for a first track with a timer, and posts a job
that calls `play` when there is one.

A plugin without a track starts no timer, and the job that adds a track does not start one
either: the plugin goes on because whoever adds a track posts `cont` behind it. In the same way
a job that resumes follows the one that sets the position of a seek. Nothing follows the report
of a new number of samples. Where that alone makes something to play, it is not played until
the next call of `cont` or the next seek.
-/

namespace Mprt

/-- The jobs of an output plugin's thread. -/
inductive PlayJob where
  | addSoundDetails (soundDets : SoundDetails) (cacheLastSize dataLastSize : Int)
  | updateTotalSamples (urlId totalSamples : Int)
  | setSeekDurationMs (urlId durationMs : Int)
  | clearPlayData (urlId : Int)
  | stop
  | pause
  | quit
  | cont
  | contInternal
  | pausePlay
  | fillDrain
  | resumePlay
  | resumeClearPlay
  | play
deriving DecidableEq

/-- The derived classes, as far as the loop depends on them: what a call is told about the
timer, that `play` does nothing in another state, and that `stop_internal` leaves the state. -/
structure PlayVirtuals (Device Env : Type) extends OutputPluginVirtuals Device Env where
  setTimerActive : Bool → Env → Env
  playStopped : ∀ env state, state.currentState ≠ .play → play env state = some state
  stopKeepsState : ∀ state, (stopInternal state).currentState = state.currentState

/-- During one handler: what the device and the decoder do, and the duration of the timer that
`play` starts, which is computed from what is left in the device. -/
structure PlayEnv (Env : Type) where
  answers : Env
  nextDuration : Int

/-- The plugin with its loop and `_play_timer`. As history, a thread that has added a track, or
has set the position of a seek, and has not yet posted the job that follows. -/
structure PlayLoop (Device : Type) where
  plugin : OutputPlugin Device
  tasker : AsyncTasker PlayJob
  playTimer : Option Nat
  owesCont : Bool
  owesResume : Bool

namespace PlayLoop

variable {Device Env : Type}

/-- `_play_timer && is_active_timer(_play_timer)`. -/
def playTimerActive (state : PlayLoop Device) : Bool :=
  state.playTimer.any state.tasker.isActiveTimer

/-- What `play` does at its exit. -/
def rearm (state : PlayLoop Device) (nextDuration : Int) : PlayLoop Device :=
  if state.plugin.isNoJob = false ∧ state.plugin.currentState = .play then
    let timer := state.tasker.addAsyncJobThreadInternal .play nextDuration
    { state with tasker := timer.2, playTimer := some timer.1 }
  else state

/-- `play`. Its exit code comes after the tests of the state and of the timer. -/
def play (virtuals : PlayVirtuals Device Env) (env : PlayEnv Env) (state : PlayLoop Device) :
    Option (PlayLoop Device) :=
  let active := state.playTimerActive
  (virtuals.play (virtuals.setTimerActive active env.answers) state.plugin).map (fun plugin =>
    let played := { state with plugin := plugin }
    if state.plugin.currentState ≠ .play ∨ active = true then played
    else played.rearm env.nextDuration)

/-- `cont_internal`. -/
def contInternal (virtuals : PlayVirtuals Device Env) (env : PlayEnv Env)
    (state : PlayLoop Device) : PlayLoop Device :=
  if state.plugin.soundDetailsQueue.isEmpty then
    { state with tasker := state.tasker.addAsyncJobAfter .contInternal 100000 }
  else
    { state with
      plugin := OutputPlugin.contInternal virtuals.toOutputPluginVirtuals env.answers state.plugin
      tasker := state.tasker.addAsyncJob .resumePlay }

/-- A job that only concerns the members of the plugin. -/
def change (virtuals : PlayVirtuals Device Env) (job : OutputJob Env) (state : PlayLoop Device) :
    Option (PlayLoop Device) :=
  (OutputPlugin.step virtuals.toOutputPluginVirtuals state.plugin job).map (fun plugin =>
    { state with plugin := plugin })

/-- One job of the loop. A pause of the device and the drain at a seek do not touch the members
that matter here. -/
def handle (virtuals : PlayVirtuals Device Env) (env : PlayEnv Env) (state : PlayLoop Device) :
    PlayJob → Option (PlayLoop Device)
  | .addSoundDetails soundDets cacheLastSize dataLastSize =>
      change virtuals (.addSoundDetails soundDets cacheLastSize dataLastSize) state
  | .updateTotalSamples urlId totalSamples =>
      change virtuals (.updateTotalSamples urlId totalSamples) state
  | .setSeekDurationMs urlId durationMs =>
      change virtuals (.setSeekDurationMs urlId durationMs) state
  | .clearPlayData urlId => change virtuals (.clearPlayData urlId) state
  | .stop => change virtuals .stop state
  | .pause => change virtuals .pause state
  | .quit => change virtuals .quit state
  | .pausePlay | .fillDrain => some state
  | .cont => some (contInternal virtuals env
      { state with plugin := { state.plugin with currentState := .play } })
  | .contInternal => some (contInternal virtuals env state)
  | .resumePlay | .resumeClearPlay | .play => play virtuals env state

/-- What happens next: another thread posts a job or writes to a buffer, or the loop runs the
next posted handler or a timer's job. -/
inductive Action (Env : Type) where
  | post (job : PlayJob)
  | decoderWrite (address : Nat) (arrival : Arrival)
  | runPosted (env : PlayEnv Env)
  | handleTimeout (call : Nat) (env : PlayEnv Env)

/-- A track is added in front of a call of `cont`. -/
def opensCont : PlayJob → Bool
  | .addSoundDetails _ _ _ => true
  | _ => false

/-- The position of a seek is set in front of a job that resumes. -/
def opensResume : PlayJob → Bool
  | .setSeekDurationMs _ _ => true
  | _ => false

/-- Whether a thread owes a job after it has posted another one. -/
def owesAfter (opens : PlayJob → Bool) (closes job : PlayJob) (owes : Bool) : Bool :=
  if job = closes then false else opens job || owes

def post (state : PlayLoop Device) (job : PlayJob) : PlayLoop Device :=
  { state with
    tasker := state.tasker.addAsyncJob job
    owesCont := owesAfter opensCont .cont job state.owesCont
    owesResume := owesAfter opensResume .resumeClearPlay job state.owesResume }

/-- The next posted handler, which may be a call of `create_get_timer`. -/
def runPosted (virtuals : PlayVirtuals Device Env) (env : PlayEnv Env) (state : PlayLoop Device) :
    Option (PlayLoop Device) :=
  state.tasker.runPosted.bind (fun ran =>
    match ran.1 with
    | none => some { state with tasker := ran.2 }
    | some job => handle virtuals env { state with tasker := ran.2 } job)

def step (virtuals : PlayVirtuals Device Env) (state : PlayLoop Device) :
    Action Env → Option (PlayLoop Device)
  | .post job => some (state.post job)
  | .decoderWrite address arrival => change virtuals (.decoderWrite address arrival) state
  | .runPosted env => runPosted virtuals env state
  | .handleTimeout call env =>
      (state.tasker.handleTimeout call).bind (fun ran =>
        handle virtuals env { state with tasker := ran.2 } ran.1)

/-- A plugin without tracks and without a timer. -/
def start (plugin : OutputPlugin Device) (maxTimerCount : Nat) : PlayLoop Device :=
  ⟨{ plugin with soundDetailsQueue := [] }, .make maxTimerCount, none, false, false⟩

/-! ## The wake-up -/

/-- The jobs that come to call `play` when there is a track. -/
def callsPlay : PlayJob → Bool
  | .cont | .contInternal | .resumePlay | .resumeClearPlay | .play => true
  | _ => false

def leads : Posted PlayJob → Bool
  | .job job | .createGetTimer job _ => callsPlay job

/-- A job that calls `play` waits for a timer, or is posted. -/
def awaits (tasker : AsyncTasker PlayJob) : Bool :=
  tasker.waits.any (fun wait => callsPlay wait.job) || tasker.posted.any leads

/-- A call of `play` is to come, or a thread is about to post one. -/
def pending (state : PlayLoop Device) : Bool :=
  awaits state.tasker || state.owesCont || state.owesResume

/-- The plugin in state play with something to play is going to call `play`. -/
def Awake (state : PlayLoop Device) : Prop :=
  state.plugin.currentState = .play → state.plugin.isNoJob = false → state.pending = true

instance (state : PlayLoop Device) : Decidable (Awake state) :=
  inferInstanceAs (Decidable (_ → _))

/-- A report of the number of samples makes something to play for a plugin that waits for
nothing. -/
def Revives (state : PlayLoop Device) : Action Env → Prop
  | .runPosted _ =>
      match state.tasker.posted with
      | .job (.updateTotalSamples urlId totalSamples) :: rest =>
          state.plugin.currentState = .play ∧ state.plugin.isNoJob = true ∧
            (state.plugin.updateTotalSamplesInternal urlId totalSamples).isNoJob = false ∧
            pending { state with tasker := { state.tasker with posted := rest } } = false
      | _ => False
  | _ => False

/-- Every job that waits for a timer, or is going to, calls `play`. -/
structure TimersPlay (tasker : AsyncTasker PlayJob) : Prop where
  sound : tasker.Sound
  waits : ∀ wait ∈ tasker.waits, callsPlay wait.job = true
  posted : ∀ job dur, .createGetTimer job dur ∈ tasker.posted → callsPlay job = true

/-- Behind each posted job that opens something comes one that closes it, or a thread owes it. -/
def Followed (opens : PlayJob → Bool) (closes : PlayJob) (owes : Bool) :
    List (Posted PlayJob) → Prop
  | [] => True
  | first :: rest =>
      (∀ job, first = .job job → opens job = true → owes = true ∨ .job closes ∈ rest) ∧
        Followed opens closes owes rest

/-- What every step keeps, whether the loop is awake or not. -/
structure Kept (state : PlayLoop Device) : Prop where
  timers : TimersPlay state.tasker
  contFollows : Followed opensCont .cont state.owesCont state.tasker.posted
  resumeFollows : Followed opensResume .resumeClearPlay state.owesResume state.tasker.posted

section Tasker

variable {tasker : AsyncTasker PlayJob} {first : Posted PlayJob} {rest : List (Posted PlayJob)}

/-- A new tasker has no timers. -/
theorem TimersPlay.make (maxTimerCount : Nat) : TimersPlay (.make maxTimerCount) :=
  ⟨AsyncTasker.make_sound maxTimerCount, by simp [AsyncTasker.make], by simp [AsyncTasker.make]⟩

/-- A posted handler that starts a timer starts it for a job that calls `play`. -/
theorem TimersPlay.append (timers : TimersPlay tasker)
    (calls : ∀ job dur, first = .createGetTimer job dur → callsPlay job = true) :
    TimersPlay { tasker with posted := tasker.posted ++ [first] } := by
  refine ⟨timers.sound.setPosted _, timers.waits, fun job dur member => ?_⟩
  rcases List.mem_append.mp member with before | last
  · exact timers.posted job dur before
  · exact calls job dur (List.mem_singleton.mp last).symm

/-- A timer is made only for a job that calls `play`. -/
theorem TimersPlay.createGetTimer (timers : TimersPlay tasker) (dur : Int) {job : PlayJob}
    (calls : callsPlay job = true) : TimersPlay (tasker.createGetTimer job dur).2 := by
  obtain ⟨_, waits, posted, _⟩ := tasker.createGetTimer_armed job dur
  refine ⟨timers.sound.createGetTimer job dur, ?_, posted ▸ timers.posted⟩
  intro wait member
  rw [waits] at member
  rcases List.mem_append.mp member with before | last
  · exact timers.waits wait before
  · exact List.mem_singleton.mp last ▸ calls

/-- Taking a handler from the queue leaves the timers. -/
theorem TimersPlay.popped (timers : TimersPlay tasker) (posted : tasker.posted = first :: rest) :
    TimersPlay { tasker with posted := rest } :=
  ⟨timers.sound.setPosted rest, timers.waits, fun job dur member =>
    timers.posted job dur (posted ▸ List.mem_cons_of_mem first member)⟩

/-- The loop is awaited when a timer waits to call it, or when a handler is posted that leads to a
call. -/
theorem awaits_iff : awaits tasker = true ↔
    (∃ wait ∈ tasker.waits, callsPlay wait.job = true) ∨ ∃ job ∈ tasker.posted, leads job = true := by
  rw [awaits, Bool.or_eq_true, List.any_eq_true, List.any_eq_true]

/-- What is posted behind takes no wake-up away. -/
theorem awaits_append (awake : awaits tasker = true) :
    awaits { tasker with posted := tasker.posted ++ [first] } = true := by
  rw [awaits_iff] at awake ⊢
  exact awake.imp id (fun ⟨job, member, leading⟩ =>
    ⟨job, List.mem_append_left _ member, leading⟩)

/-- A handler that leads to a call does so from the end of the queue. -/
theorem awaits_last (leading : leads first = true) :
    awaits { tasker with posted := tasker.posted ++ [first] } = true :=
  awaits_iff.mpr (.inr ⟨first, List.mem_append_right _ (List.mem_singleton_self _), leading⟩)

/-- A timer started for `play` is a wake-up. -/
theorem awaits_createGetTimer (job : PlayJob) (dur : Int) (calls : callsPlay job = true) :
    awaits (tasker.createGetTimer job dur).2 = true := by
  obtain ⟨_, waits, _, _⟩ := tasker.createGetTimer_armed job dur
  refine awaits_iff.mpr (.inl
    ⟨⟨(tasker.createGetTimer job dur).1, job, dur, tasker.calls⟩, ?_, calls⟩)
  rw [waits]
  exact List.mem_append_right _ (List.mem_singleton_self _)

/-- A handler that does not call `play` takes no wake-up with it. -/
theorem awaits_popped (posted : tasker.posted = first :: rest) (idle : leads first = false) :
    awaits { tasker with posted := rest } = awaits tasker := by
  simp only [awaits, posted, List.any_cons, idle, Bool.false_or]

end Tasker

section Follow

variable {opens : PlayJob → Bool} {closes : PlayJob} {owes later : Bool}
  {handlers : List (Posted PlayJob)} {new : Posted PlayJob}

/-- A job is posted behind the others. The induction is on those, and the new one closes what
was open or leaves it to be owed. -/
theorem Followed.append (followed : Followed opens closes owes handlers)
    (kept : owes = true → later = true ∨ new = .job closes)
    (opened : ∀ job, new = .job job → opens job = true → later = true) :
    Followed opens closes later (handlers ++ [new]) := by
  induction handlers with
  | nil => exact ⟨fun job same opening => .inl (opened job same opening), trivial⟩
  | cons first rest inductionHypothesis =>
    refine ⟨fun job same opening => ?_, inductionHypothesis followed.2⟩
    rcases followed.1 job same opening with owed | member
    · refine (kept owed).imp id (fun closing => ?_)
      rw [closing]
      exact List.mem_append_right _ (List.mem_singleton_self _)
    · exact .inr (List.mem_append_left _ member)

/-- A job that another thread posts. -/
theorem Followed.posted (followed : Followed opens closes owes handlers)
    (apart : opens closes = false) (job : PlayJob) :
    Followed opens closes (owesAfter opens closes job owes) (handlers ++ [.job job]) := by
  refine followed.append (fun owed => ?_) ?_
  · by_cases closing : job = closes
    · exact .inr (by rw [closing])
    · rw [owesAfter, if_neg closing, owed, Bool.or_true]
      exact .inl rfl
  · rintro other ⟨⟩ opening
    have different : job ≠ closes := by
      rintro rfl
      exact absurd (apart.symm.trans opening) Bool.false_ne_true
    rw [owesAfter, if_neg different, opening, Bool.true_or]

end Follow

/-! ## One handler -/

section Handlers

variable {virtuals : PlayVirtuals Device Env} {env : PlayEnv Env} {state next : PlayLoop Device}
  {job : PlayJob}

/-- What is awaited is pending, since a call that a thread owes is another way of being so. -/
theorem pending_of_awaits (awake : awaits state.tasker = true) : state.pending = true := by
  rw [pending, awake]
  rfl

/-- A job that calls `play` opens nothing. -/
theorem opens_of_callsPlay (calls : callsPlay job = true) :
    opensCont job = false ∧ opensResume job = false := by
  cases job with
  | cont | contInternal | resumePlay | resumeClearPlay | play => exact ⟨rfl, rfl⟩
  | _ => cases calls

/-- What the loop itself posts is no job that opens something. -/
theorem Kept.append (kept : Kept state) {new : Posted PlayJob} (calls : leads new = true) :
    Kept { state with tasker := { state.tasker with posted := state.tasker.posted ++ [new] } } := by
  refine ⟨kept.timers.append ?_, kept.contFollows.append .inl ?_, kept.resumeFollows.append .inl ?_⟩
  · rintro job dur rfl
    exact calls
  · rintro job rfl opening
    exact absurd ((opens_of_callsPlay calls).1.symm.trans opening) Bool.false_ne_true
  · rintro job rfl opening
    exact absurd ((opens_of_callsPlay calls).2.symm.trans opening) Bool.false_ne_true

/-- Arming the timer keeps what the loop keeps. -/
theorem Kept.createGetTimer (kept : Kept state) (dur : Int) (calls : callsPlay job = true) :
    Kept { state with tasker := (state.tasker.createGetTimer job dur).2 } := by
  have posted := (state.tasker.createGetTimer_armed job dur).2.2.1
  exact ⟨kept.timers.createGetTimer dur calls, posted ▸ kept.contFollows,
    posted ▸ kept.resumeFollows⟩

/-- A timer that is active waits with a job that calls `play`. -/
theorem awaits_of_active (timers : TimersPlay state.tasker) (active : state.playTimerActive = true) :
    awaits state.tasker = true := by
  rw [playTimerActive, Option.any_eq_true] at active
  obtain ⟨timer, _, isActive⟩ := active
  obtain ⟨wait, waiting, _⟩ := (timers.sound.active timer).mp (of_decide_eq_true isActive)
  exact awaits_iff.mpr (.inl ⟨wait, waiting, timers.waits wait waiting⟩)

/-- After the exit code the wake-up is there. -/
theorem rearm_awake (kept : Kept state) (nextDuration : Int) :
    Kept (state.rearm nextDuration) ∧ Awake (state.rearm nextDuration) := by
  rw [rearm]
  split
  · have armed : Kept { state with
        tasker := (state.tasker.createGetTimer .play nextDuration).2 } :=
      kept.createGetTimer nextDuration rfl
    exact ⟨⟨armed.timers, armed.contFollows, armed.resumeFollows⟩,
      fun _ _ => pending_of_awaits (awaits_createGetTimer .play nextDuration rfl)⟩
  · rename_i idle
    exact ⟨kept, fun playing work => absurd ⟨work, playing⟩ idle⟩

/-- After `play` the wake-up is there, whether it was before or not. -/
theorem play_awake (kept : Kept state) (taken : play virtuals env state = some next) :
    Kept next ∧ Awake next := by
  simp only [play, Option.map_eq_some_iff] at taken
  obtain ⟨plugin, played, rfl⟩ := taken
  have same : Kept { state with plugin := plugin } :=
    ⟨kept.timers, kept.contFollows, kept.resumeFollows⟩
  split
  · rename_i entered
    refine ⟨same, fun playing _ => ?_⟩
    rcases entered with stopped | active
    · rw [virtuals.playStopped _ _ stopped] at played
      exact absurd (Option.some.inj played ▸ playing) stopped
    · exact pending_of_awaits (awaits_of_active kept.timers active)
  · exact rearm_awake same env.nextDuration

/-- `cont_internal` waits for a timer, or posts the job that resumes. -/
theorem contInternal_awake (kept : Kept state) :
    Kept (contInternal virtuals env state) ∧ Awake (contInternal virtuals env state) := by
  rw [contInternal]
  split
  · have waiting : leads (.createGetTimer .contInternal 100000) = true := rfl
    exact ⟨kept.append waiting, fun _ _ => pending_of_awaits (awaits_last waiting)⟩
  · have resuming : leads (.job .resumePlay) = true := rfl
    have posted := kept.append resuming
    exact ⟨⟨posted.timers, posted.contFollows, posted.resumeFollows⟩,
      fun _ _ => pending_of_awaits (awaits_last resuming)⟩

/-- A job on the members leaves the loop. -/
theorem change_some {outputJob : OutputJob Env} (taken : change virtuals outputJob state = some next) :
    ∃ plugin, OutputPlugin.step virtuals.toOutputPluginVirtuals state.plugin outputJob =
      some plugin ∧ next = { state with plugin := plugin } := by
  obtain ⟨plugin, stepped, rfl⟩ := Option.map_eq_some_iff.mp taken
  exact ⟨plugin, stepped, rfl⟩

/-- A buffer does not decide whether there is something to play. -/
theorem clearPlayData_turn (plugin : OutputPlugin Device) (urlId : Int) :
    (plugin.clearPlayDataInternal urlId).currentState = plugin.currentState ∧
      (plugin.clearPlayDataInternal urlId).isNoJob = plugin.isNoJob := by
  simp only [OutputPlugin.clearPlayDataInternal]
  split
  · exact ⟨rfl, rfl⟩
  · simp only [OutputPlugin.clearBuffer]
    split <;> exact ⟨rfl, rfl⟩

/-- Each handler keeps the loop awake, except for a report that makes something to play. The
cases are those of the job. -/
theorem handle_awake (kept : Kept state) (before : callsPlay job = false → Awake state)
    (opened : opensCont job = true ∨ opensResume job = true → state.pending = true)
    (revived : ∀ urlId totalSamples, job = .updateTotalSamples urlId totalSamples →
      state.plugin.isNoJob = true → Awake { state with
        plugin := state.plugin.updateTotalSamplesInternal urlId totalSamples })
    (taken : handle virtuals env state job = some next) : Kept next ∧ Awake next := by
  have same : ∀ plugin : OutputPlugin Device,
      Kept ({ state with plugin := plugin } : PlayLoop Device) := fun plugin =>
    ⟨kept.timers, kept.contFollows, kept.resumeFollows⟩
  cases job with
  | addSoundDetails | setSeekDurationMs =>
    obtain ⟨plugin, _, rfl⟩ := change_some taken
    exact ⟨same plugin, fun _ _ => opened (by simp [opensCont, opensResume])⟩
  | updateTotalSamples urlId totalSamples =>
    obtain ⟨plugin, stepped, rfl⟩ := change_some taken
    obtain rfl := Option.some.inj stepped
    refine ⟨same _, ?_⟩
    cases idle : state.plugin.isNoJob with
    | true => exact revived urlId totalSamples rfl idle
    | false => exact fun playing _ => before rfl playing idle
  | clearPlayData urlId =>
    obtain ⟨plugin, stepped, rfl⟩ := change_some taken
    obtain rfl := Option.some.inj stepped
    obtain ⟨turn, idle⟩ := clearPlayData_turn state.plugin urlId
    exact ⟨same _, fun playing work => before rfl (turn.symm.trans playing) (idle.symm.trans work)⟩
  | stop =>
    obtain ⟨plugin, stepped, rfl⟩ := change_some taken
    obtain rfl := Option.some.inj stepped
    refine ⟨same _, fun playing => ?_⟩
    cases (virtuals.stopKeepsState _).symm.trans playing
  | pause | quit =>
    obtain ⟨plugin, stepped, rfl⟩ := change_some taken
    obtain rfl := Option.some.inj stepped
    exact ⟨same _, fun playing => by cases playing⟩
  | pausePlay | fillDrain =>
    obtain rfl := Option.some.inj taken
    exact ⟨kept, before rfl⟩
  | cont =>
    obtain rfl := Option.some.inj taken
    exact contInternal_awake (same _)
  | contInternal =>
    obtain rfl := Option.some.inj taken
    exact contInternal_awake kept
  | resumePlay | resumeClearPlay | play => exact play_awake kept taken

end Handlers

/-! ## Whole runs -/

section Runs

variable {virtuals : PlayVirtuals Device Env} {env : PlayEnv Env} {state next : PlayLoop Device}

/-- What a thread posts takes no wake-up away, and what it owed is then posted. -/
theorem post_awake (kept : Kept state) (awake : Awake state) (job : PlayJob) :
    Kept (state.post job) ∧ Awake (state.post job) := by
  refine ⟨⟨kept.timers.append (by simp), kept.contFollows.posted rfl job,
    kept.resumeFollows.posted rfl job⟩, fun playing work => ?_⟩
  have before := awake playing work
  simp only [pending, post, Bool.or_eq_true] at before ⊢
  rcases before with (awaiting | owed) | owed
  · exact .inl (.inl (awaits_append awaiting))
  · by_cases closing : job = .cont
    · subst closing
      exact .inl (.inl (awaits_last rfl))
    · exact .inl (.inr (by simp [owesAfter, closing, owed]))
  · by_cases closing : job = .resumeClearPlay
    · subst closing
      exact .inl (.inl (awaits_last rfl))
    · exact .inr (by simp [owesAfter, closing, owed])

/-- The next posted handler keeps the loop awake unless it revives the plugin. -/
theorem runPosted_awake (kept : Kept state) (awake : Awake state)
    (idle : ¬ Revives state (.runPosted env)) (taken : runPosted virtuals env state = some next) :
    Kept next ∧ Awake next := by
  simp only [runPosted, Option.bind_eq_some_iff] at taken
  obtain ⟨⟨ran, tasker⟩, popped, handled⟩ := taken
  cases posted : state.tasker.posted with
  | nil => simp [AsyncTasker.runPosted, posted] at popped
  | cons first rest =>
    obtain ⟨timers, contFollows, resumeFollows⟩ := kept
    rw [posted] at contFollows resumeFollows
    have remaining : Kept { state with tasker := { state.tasker with posted := rest } } :=
      ⟨timers.popped posted, contFollows.2, resumeFollows.2⟩
    cases first with
    | job job =>
      simp only [AsyncTasker.runPosted, posted, Option.some.injEq, Prod.mk.injEq] at popped
      obtain ⟨rfl, rfl⟩ := popped
      refine handle_awake remaining ?_ ?_ ?_ handled
      · intro other playing work
        have before := awake playing work
        simp only [pending] at before ⊢
        rw [awaits_popped posted other]
        exact before
      · rintro (opening | opening)
        · rcases contFollows.1 job rfl opening with owed | member
          · simp [pending, owed]
          · exact pending_of_awaits (awaits_iff.mpr (.inr ⟨_, member, rfl⟩))
        · rcases resumeFollows.1 job rfl opening with owed | member
          · simp [pending, owed]
          · exact pending_of_awaits (awaits_iff.mpr (.inr ⟨_, member, rfl⟩))
      · rintro urlId totalSamples rfl none playing work
        by_contra asleep
        simp only [Revives, posted] at idle
        exact idle ⟨playing, none, work, Bool.eq_false_iff.mpr asleep⟩
    | createGetTimer job dur =>
      simp only [AsyncTasker.runPosted, posted, Option.some.injEq, Prod.mk.injEq] at popped
      obtain ⟨rfl, rfl⟩ := popped
      obtain rfl := Option.some.inj handled
      have calls := timers.posted job dur (posted ▸ List.mem_cons_self)
      exact ⟨remaining.createGetTimer dur calls,
        fun _ _ => pending_of_awaits (awaits_createGetTimer job dur calls)⟩

/-- A plugin that is revived sleeps. -/
theorem runPosted_asleep (revives : Revives state (.runPosted env))
    (taken : runPosted virtuals env state = some next) : ¬ Awake next := by
  simp only [Revives] at revives
  split at revives
  case h_2 => exact revives.elim
  case h_1 urlId totalSamples rest posted =>
    obtain ⟨playing, _, work, asleep⟩ := revives
    simp only [runPosted, AsyncTasker.runPosted, posted, Option.bind_some] at taken
    obtain ⟨plugin, stepped, rfl⟩ := change_some taken
    obtain rfl := Option.some.inj stepped
    intro awake
    exact absurd (asleep.symm.trans (awake playing work)) Bool.false_ne_true

/-- A step leaves the loop awake exactly when it does not revive the plugin. -/
theorem step_awake {action : Action Env} (kept : Kept state) (awake : Awake state)
    (taken : step virtuals state action = some next) :
    (Awake next ↔ ¬ Revives state action) ∧ (Awake next → Kept next) := by
  have keeps : ¬ Revives state action → Kept next ∧ Awake next →
      (Awake next ↔ ¬ Revives state action) ∧ (Awake next → Kept next) :=
    fun idle both => ⟨iff_of_true both.2 idle, fun _ => both.1⟩
  cases action with
  | post job =>
    obtain rfl := Option.some.inj taken
    exact keeps not_false (post_awake kept awake job)
  | decoderWrite address arrival =>
    obtain ⟨plugin, stepped, rfl⟩ := change_some taken
    obtain rfl := Option.some.inj stepped
    exact keeps not_false
      ⟨⟨kept.timers, kept.contFollows, kept.resumeFollows⟩, awake⟩
  | runPosted env =>
    by_cases revives : Revives state (.runPosted env)
    · have asleep := runPosted_asleep revives taken
      exact ⟨iff_of_false asleep (not_not_intro revives), fun awake => absurd awake asleep⟩
    · exact keeps revives (runPosted_awake kept awake revives taken)
  | handleTimeout call env =>
    simp only [step, Option.bind_eq_some_iff] at taken
    obtain ⟨⟨job, tasker⟩, fired, handled⟩ := taken
    obtain ⟨wait, waiting, _, rfl, rfl⟩ := AsyncTasker.handleTimeout_some fired
    have calls := kept.timers.waits wait waiting
    have remaining : Kept { state with tasker := state.tasker.retire wait } :=
      ⟨⟨kept.timers.sound.retire waiting, fun other member =>
        kept.timers.waits other (List.mem_of_mem_filter member), kept.timers.posted⟩,
        kept.contFollows, kept.resumeFollows⟩
    refine keeps not_false (handle_awake remaining ?_ ?_ ?_ handled)
    · intro other
      exact absurd (other.symm.trans calls) Bool.false_ne_true
    · obtain ⟨cont, resume⟩ := opens_of_callsPlay calls
      rintro (opening | opening)
      · exact absurd (cont.symm.trans opening) Bool.false_ne_true
      · exact absurd (resume.symm.trans opening) Bool.false_ne_true
    · intro urlId totalSamples same
      obtain same : wait.job = .updateTotalSamples urlId totalSamples := same
      rw [same] at calls
      cases calls

/-- In every state of a run, a plugin in state play with something to play has a call of `play`
posted, waiting for a timer or owed by a thread, exactly when no report of a number of samples
makes something to play for a plugin that waits for nothing. -/
theorem play_loop_awake (virtuals : PlayVirtuals Device Env) (plugin : OutputPlugin Device)
    (maxTimerCount : Nat) {actions : List (Action Env)} {finish : PlayLoop Device}
    (ran : LabelledRuns.run (step virtuals) (start plugin maxTimerCount) actions = some finish) :
    LabelledRuns.Along (step virtuals) (fun _ _ next => Awake next)
        (start plugin maxTimerCount) actions ↔
      LabelledRuns.Meets (step virtuals) (fun state action => ¬ Revives state action)
        (start plugin maxTimerCount) actions := by
  have initial : Kept (start plugin maxTimerCount) ∧ Awake (start plugin maxTimerCount) :=
    ⟨⟨.make maxTimerCount, trivial, trivial⟩, fun _ work => by cases work⟩
  have exact : ∀ (state : PlayLoop Device) (action : Action Env) next, Kept state ∧ Awake state →
      step virtuals state action = some next → (Awake next ↔ ¬ Revives state action) :=
    fun _ _ _ both taken => (step_awake both.1 both.2 taken).1
  have carried : ∀ (state : PlayLoop Device) (action : Action Env) next, Kept state ∧ Awake state →
      step virtuals state action = some next → Awake next → Kept next ∧ Awake next :=
    fun _ _ _ both taken awake => ⟨(step_awake both.1 both.2 taken).2 awake, awake⟩
  exact LabelledRuns.along_iff_meets exact carried initial ran

end Runs

/-! ## The two plugins -/

section Plugins

/-- Clearing a buffer does not change whether the plugin plays. -/
theorem clearBuffer_currentState (plugin : OutputPlugin Device) (cacheBuf : Option Nat) :
    (plugin.clearBuffer cacheBuf).currentState = plugin.currentState := by
  cases cacheBuf <;> rfl

/-- Neither does dropping the tracks, since the state is set by the job itself. -/
theorem stopInternal_currentState (plugin : OutputPlugin Device) :
    plugin.stopInternal.currentState = plugin.currentState :=
  clearBuffer_currentState plugin _

/-- The reports of a stop leave the state. -/
theorem foldl_currentState {report : OutputPlugin Device → SoundDetails → OutputPlugin Device}
    (keeps : ∀ plugin soundDets, (report plugin soundDets).currentState = plugin.currentState)
    (queue : List SoundDetails) (plugin : OutputPlugin Device) :
    (queue.foldl report plugin).currentState = plugin.currentState := by
  induction queue generalizing plugin with
  | nil => rfl
  | cons soundDets rest inductionHypothesis =>
    exact (inductionHypothesis (report plugin soundDets)).trans (keeps plugin soundDets)

/-- Stopping the device of ALSA leaves the state to the job. -/
theorem alsa_stopKeepsState (plugin : OutputPlugin AlsaDevice) :
    (OutputPluginAlsa.stopInternal plugin).currentState = plugin.currentState := by
  have reports : ∀ (reached : OutputPlugin AlsaDevice) (soundDets : SoundDetails),
      ((reached.decoderPlayFinished soundDets.urlId).giveCacheBufBack
        soundDets.urlId).currentState = reached.currentState := fun reached soundDets =>
    clearBuffer_currentState (reached.decoderPlayFinished soundDets.urlId) _
  exact (stopInternal_currentState _).trans (foldl_currentState reports _ plugin)

/-- So does stopping the device of DirectSound. -/
theorem dsound_stopKeepsState (plugin : OutputPlugin DsoundDevice) :
    (OutputPluginDsound.stopInternal plugin).currentState = plugin.currentState := by
  have reports : ∀ (reached : OutputPlugin DsoundDevice) (soundDets : SoundDetails),
      (reached.decoderPlayFinished soundDets.urlId).currentState = reached.currentState :=
    fun _ _ => rfl
  exact (stopInternal_currentState _).trans
    (foldl_currentState reports _ { plugin with initApi := false })

def alsa : PlayVirtuals AlsaDevice AlsaEnv where
  toOutputPluginVirtuals := OutputPluginAlsa.virtuals
  setTimerActive := fun active env => { env with timerActive := active }
  playStopped := fun _ _ stopped => if_pos (.inl stopped)
  stopKeepsState := alsa_stopKeepsState

def dsound : PlayVirtuals DsoundDevice DsoundEnv where
  toOutputPluginVirtuals := OutputPluginDsound.virtuals
  setTimerActive := fun active env => { env with timerActive := active }
  playStopped := fun _ _ stopped => if_pos (.inl stopped)
  stopKeepsState := dsound_stopKeepsState

/-- The device takes one sample. -/
def oneSample : PlayEnv AlsaEnv := ⟨⟨false, some 4, true, true, [], 1, 1⟩, 1000⟩

/-- A track of two samples is added, and the job that plays it comes from the call of `cont`
behind it. A timer waits for the second sample. -/
def oneTrack : List (Action AlsaEnv) :=
  [.post (.addSoundDetails PlayRelease.shortTrack 0 0), .post .cont, .runPosted oneSample,
    .runPosted oneSample, .decoderWrite 0 ([1, 2], true), .runPosted oneSample,
    .handleTimeout 0 oneSample]

/-- The loop stays awake over the whole of one track, from its arrival to its end. -/
theorem play_loop_awake_one_track :
    LabelledRuns.Along (step alsa) (fun _ _ next => Awake next)
      (start (PlayRelease.newPlugin PlayRelease.alsaDevice) 2) oneTrack :=
  (play_loop_awake alsa (PlayRelease.newPlugin PlayRelease.alsaDevice) 2 (show
    LabelledRuns.run (step alsa) (start (PlayRelease.newPlugin PlayRelease.alsaDevice) 2)
      oneTrack = some _ from rfl)).mpr
    ⟨not_false, not_false, not_false, not_false, not_false, not_false, not_false, trivial⟩

end Plugins

end PlayLoop

end Mprt
