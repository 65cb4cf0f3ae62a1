import Mprt.LabelledRuns
import Mprt.AsyncTasker
import Mprt.DecoderPluginsManager

/-!
# The decode loop keeps its wake-up

The thread of the manager runs posted jobs and the jobs of timers. `decode_cont`
decodes a piece of the front track and posts itself again, or starts a timer for
itself when the outputs are not ready. Where it does neither, the manager is not
in state play, the list is empty, or its timer is active.

Its timer may have been used again for `cont_internal`, which waits for a first
track with a timer of its own. That is no loss, since `cont_internal` goes on to
`decode_cont`: every job that ever waits for a timer of this thread does.

What a handler's library and the output thread do to the buffers while the
handler runs is given with the handler, and so is what the libraries answer. The
jobs posted by a handler are the events of the manager's model.
-/

namespace Mprt

/-- The jobs of the manager's thread. -/
inductive DecoderJob where
  | addInputUrlJob (urlExt : String) (urlId : Int)
  | stop
  | pause
  | cont
  | quit
  | contInternal
  | decodeCont
  | seekDuration (urlId seekDurationMs : Int)
  | playFinished (decoderPlugin : Nat) (urlId : Int)
deriving DecidableEq

/-- All buffers, and the samples written of the front track, after frames have
been written. -/
structure Written where
  buffers : Nat → CacheBuffer
  samples : Int

/-- During one handler: the opening of the front track, what is written by a
seek, the buffers when the output caches are tested, what `decode` writes,
whether the stream ends, and the opening of the next track. -/
structure HandlerEnv where
  opened : OpenResult
  sought : Written
  seen : Nat → CacheBuffer
  written : Written
  endOfStream : Bool
  next : OpenResult

/-- The manager with its loop and `_decode_timer`. -/
structure DecodeLoop where
  manager : DecoderPluginsManager
  tasker : AsyncTasker DecoderJob
  decodeTimer : Option Nat

namespace DecoderPluginsManager

/-- The manager after frames of the front track have been written. -/
def write (state : DecoderPluginsManager) (front : Nat) (written : Written) :
    DecoderPluginsManager :=
  { state.setDetails front { state.details front with
      currentSamplesWritten := written.samples } with buffers := written.buffers }

end DecoderPluginsManager

namespace DecodeLoop

def setManager (state : DecodeLoop) (manager : DecoderPluginsManager) : DecodeLoop :=
  { state with manager := manager }

/-- `_decode_timer && is_active_timer(_decode_timer)`. -/
def decodeTimerActive (state : DecodeLoop) : Bool :=
  state.decodeTimer.any state.tasker.isActiveTimer

/-- The start of the timer for `decode_cont`, unless it is active. -/
def startDecodeTimer (state : DecodeLoop) (dur : Int) : DecodeLoop :=
  if state.decodeTimerActive then state
  else
    let timer := state.tasker.addAsyncJobThreadInternal .decodeCont dur
    { state with tasker := timer.2, decodeTimer := some timer.1 }

/-- `decode_cont`. -/
def decodeCont (state : DecodeLoop) (env : HandlerEnv) : Option DecodeLoop :=
  if state.manager.currentState ≠ .play then some state
  else
    match state.manager.decoderDetailList with
    | [] => some state
    | front :: _ =>
      if state.decodeTimerActive then some state
      else
        let seen := { state.manager with buffers := env.seen }
        let outputBufList := (seen.details front).outputBufList
        if outputBufList = [] then some ((state.setManager seen).startDecodeTimer 100000)
        else if outputBufList.any (fun address => (seen.buffers address).cacheSizeGuess == 0) then
          some ((state.setManager seen).startDecodeTimer 1000000)
        else
          ((seen.write front env.written).decode front
            ⟨false, [], env.endOfStream, env.next⟩).map (fun decoded =>
              state.setManager (if decoded.isNoJob then decoded
                else decoded.emit [.decodeContPosted]))

/-- `cont_internal`. -/
def contInternal (state : DecodeLoop) (env : HandlerEnv) : Option DecodeLoop :=
  if state.manager.isNoJob then
    some (state.setManager (state.manager.emit [.contInternalPosted]))
  else (state.setManager (state.manager.initDecodeInternalSingle env.opened)).decodeCont env

/-- The job of `seek_duration`. -/
def seekDuration (state : DecodeLoop) (urlId seekDurationMs : Int) (env : HandlerEnv) :
    Option DecodeLoop :=
  let brought := state.manager.bringToFront urlId
  let sought :=
    match brought.decoderDetailList with
    | [] => some (state.setManager brought)
    | front :: _ =>
        ((brought.write front env.sought).seekFront front seekDurationMs []).bind (fun moved =>
          (state.setManager moved).decodeCont env)
  sought.map (fun ended => ended.setManager (ended.manager.emit [.decoderSeekFinished]))

/-- One job of the loop. -/
def handle (state : DecodeLoop) (env : HandlerEnv) : DecoderJob → Option DecodeLoop
  | .addInputUrlJob urlExt urlId =>
      (state.manager.addInputUrlJobInternal urlExt urlId).map state.setManager
  | .stop => some (state.setManager { state.manager with currentState := .stop })
  | .pause => some (state.setManager { state.manager with currentState := .pause })
  | .quit => some (state.setManager { state.manager with currentState := .quit })
  | .cont => (state.setManager { state.manager with currentState := .play }).contInternal env
  | .contInternal => state.contInternal env
  | .decodeCont => state.decodeCont env
  | .seekDuration urlId seekDurationMs => state.seekDuration urlId seekDurationMs env
  | .playFinished index urlId =>
      (state.manager.playFinished index urlId env.next).map state.setManager

/-- A job that the manager has posted to its own thread. -/
def post (tasker : AsyncTasker DecoderJob) : ManagerEvent → AsyncTasker DecoderJob
  | .contPosted => tasker.addAsyncJob .cont
  | .contInternalPosted => tasker.addAsyncJobAfter .contInternal 100000
  | .decodeContPosted => tasker.addAsyncJob .decodeCont
  | .playFinishedPosted index urlId => tasker.addAsyncJob (.playFinished index urlId)
  | _ => tasker

/-- The end of a handler: its posted jobs are in the queue. -/
def settle (state : DecodeLoop) : DecodeLoop :=
  { state with
    tasker := state.manager.events.foldl post state.tasker
    manager := { state.manager with events := [] } }

/-- One handler from its start to its end. -/
def runHandler (state : DecodeLoop) (env : HandlerEnv) (job : DecoderJob) : Option DecodeLoop :=
  (state.handle env job).map settle

/-- What happens next: another thread posts a job, supplies an output buffer or
changes a buffer, or the loop runs the next posted handler or a timer's job. -/
inductive Action where
  | addInputUrlJob (urlExt : String) (urlId : Int)
  | stop
  | pause
  | cont
  | quit
  | seekDuration (urlId seekDurationMs : Int)
  | playFinishedCallback (decoderPlugin : Nat) (urlId : Int)
  | setCacheBuffer (urlId : Int) (cacheBuf : Nat)
  | changeBuffers (buffers : Nat → CacheBuffer)
  | runPosted (env : HandlerEnv)
  | handleTimeout (call : Nat) (env : HandlerEnv)

def addJob (state : DecodeLoop) (job : DecoderJob) : DecodeLoop :=
  { state with tasker := state.tasker.addAsyncJob job }

/-- The next posted handler, which may be a call of `create_get_timer`. -/
def runPosted (state : DecodeLoop) (env : HandlerEnv) : Option DecodeLoop :=
  state.tasker.runPosted.bind (fun ran =>
    match ran.1 with
    | none => some { state with tasker := ran.2 }
    | some job => { state with tasker := ran.2 }.runHandler env job)

def handleTimeout (state : DecodeLoop) (call : Nat) (env : HandlerEnv) : Option DecodeLoop :=
  (state.tasker.handleTimeout call).bind (fun ran =>
    { state with tasker := ran.2 }.runHandler env ran.1)

def step (state : DecodeLoop) : Action → Option DecodeLoop
  | .addInputUrlJob urlExt urlId => some (state.addJob (.addInputUrlJob urlExt urlId))
  | .stop => some (state.addJob .stop)
  | .pause => some (state.addJob .pause)
  | .cont => some (state.addJob .cont)
  | .quit => some (state.addJob .quit)
  | .seekDuration urlId seekDurationMs => some (state.addJob (.seekDuration urlId seekDurationMs))
  | .playFinishedCallback index urlId => some (state.addJob (.playFinished index urlId))
  | .setCacheBuffer urlId cacheBuf =>
      some (state.setManager (state.manager.setCacheBuffer urlId cacheBuf))
  | .changeBuffers buffers => some (state.setManager { state.manager with buffers := buffers })
  | .runPosted env => state.runPosted env
  | .handleTimeout call env => state.handleTimeout call env

/-- A manager without tracks and without a timer. -/
def start (manager : DecoderPluginsManager) (maxTimerCount : Nat) : DecodeLoop :=
  ⟨{ manager with decoderDetailList := [], events := [] }, .make maxTimerCount, none⟩

/-- The jobs whose handler calls `decode_cont` when there is a track. -/
def callsDecodeCont : DecoderJob → Bool
  | .cont | .contInternal | .decodeCont => true
  | _ => false

/-- A job that calls `decode_cont` is posted, or waits for a timer. -/
def Awaits (tasker : AsyncTasker DecoderJob) : Prop :=
  (∃ wait ∈ tasker.waits, callsDecodeCont wait.job = true) ∨
    ∃ job, .job job ∈ tasker.posted ∧ callsDecodeCont job = true

/-- The manager in state play with a track is going to call `decode_cont`. -/
def Awake (state : DecodeLoop) : Prop :=
  state.manager.currentState = .play → state.manager.decoderDetailList ≠ [] → Awaits state.tasker

/-- Every job that waits for a timer, or is going to, calls `decode_cont`. -/
structure TimersDecode (tasker : AsyncTasker DecoderJob) : Prop where
  sound : tasker.Sound
  waits : ∀ wait ∈ tasker.waits, callsDecodeCont wait.job = true
  posted : ∀ job dur, .createGetTimer job dur ∈ tasker.posted → callsDecodeCont job = true

/-- The wake-up is among the waiting jobs, the posted ones, or those about to be
posted by the running handler. -/
def AwaitsSoon (state : DecodeLoop) : Prop :=
  Awaits state.tasker ∨ .contPosted ∈ state.manager.events ∨
    .decodeContPosted ∈ state.manager.events

/-- A handler keeps the timers' jobs and leaves the wake-up there. -/
structure Wakes (state : DecodeLoop) : Prop where
  timers : TimersDecode state.tasker
  wakes : state.manager.currentState = .play → state.manager.decoderDetailList ≠ [] →
    AwaitsSoon state

/-- What has no say in whose turn it is: neither the state nor the list changes. -/
structure SameTurn (before after : DecoderPluginsManager) : Prop where
  currentState : after.currentState = before.currentState
  list : after.decoderDetailList = before.decoderDetailList

namespace SameTurn

open DecoderPluginsManager

theorem refl (manager : DecoderPluginsManager) : SameTurn manager manager := ⟨rfl, rfl⟩

theorem trans {first second third : DecoderPluginsManager} (before : SameTurn first second)
    (after : SameTurn second third) : SameTurn first third :=
  ⟨after.currentState.trans before.currentState, after.list.trans before.list⟩

/-- To get a cache buffer from the pool changes neither the state nor the list of tracks. -/
theorem getCachePutBuf (manager : DecoderPluginsManager) (index : Nat) (urlId : Int) :
    SameTurn manager (manager.getCachePutBuf index urlId).2 := by
  simp only [DecoderPluginsManager.getCachePutBuf]
  split <;> exact ⟨rfl, rfl⟩

/-- Nor does it to put one back. -/
theorem giveCacheBufBack (manager : DecoderPluginsManager) (index : Nat) (urlId : Int) :
    SameTurn manager (manager.giveCacheBufBack index urlId) := by
  simp only [DecoderPluginsManager.giveCacheBufBack]
  split <;> exact ⟨rfl, rfl⟩

/-- The total that is corrected belongs to the details of a track. -/
theorem correctTotalSamples (manager : DecoderPluginsManager) (front : Nat) :
    SameTurn manager (manager.correctTotalSamples front) := by
  simp only [DecoderPluginsManager.correctTotalSamples]
  split <;> exact ⟨rfl, rfl⟩

/-- Opening the first track leaves it the first. -/
theorem initDecode (manager : DecoderPluginsManager) (result : OpenResult) :
    SameTurn manager (manager.initDecodeInternalSingle result) := by
  simp only [initDecodeInternalSingle]
  split
  · exact .refl manager
  · rename_i front _ _
    split
    · exact .refl manager
    · simp only [initApi]
      have fetched : SameTurn manager (manager.getDecoder
          (manager.details front).currentDecoderPlugin (manager.details front).urlId) := ⟨rfl, rfl⟩
      exact (fetched.trans (getCachePutBuf _ _ _)).trans ⟨rfl, rfl⟩

/-- What is released has left the list before. -/
theorem releaseFinished (manager : DecoderPluginsManager) (index : Nat) (urlId : Int)
    (finished : Nat) : SameTurn manager (manager.releaseFinished index urlId finished) := by
  simp only [DecoderPluginsManager.releaseFinished]
  split
  · have told : SameTurn manager
        (manager.emit [.decoderFinish (manager.plugins index).pluginName urlId]) := ⟨rfl, rfl⟩
    exact (told.trans (giveCacheBufBack _ _ _)).trans ⟨rfl, rfl⟩
  · exact .refl manager

/-- Finishing a track takes the front one off the list. -/
theorem finish {before after : DecoderPluginsManager} {urlId : Int} {result : OpenResult}
    (taken : before.finishDecodeInternalSingle urlId result = some after) :
    after.currentState = before.currentState ∧
      ∃ front, before.decoderDetailList = front :: after.decoderDetailList := by
  simp only [finishDecodeInternalSingle] at taken
  split at taken
  · contradiction
  · rename_i front rest list
    obtain rfl := Option.some.inj taken
    have corrected := correctTotalSamples before front
    have opened := initDecode ((before.correctTotalSamples front).moveToFinished urlId front rest)
      result
    refine ⟨opened.currentState.trans corrected.currentState, front, ?_⟩
    rw [opened.list]
    exact list

/-- A report of a played track leaves the state, and no track where there was none. -/
theorem playFinished {before after : DecoderPluginsManager} {index : Nat} {urlId : Int}
    {result : OpenResult} (taken : before.playFinished index urlId result = some after) :
    after.currentState = before.currentState ∧
      (after.decoderDetailList ≠ [] → before.decoderDetailList ≠ []) := by
  simp only [DecoderPluginsManager.playFinished] at taken
  split at taken
  · rename_i finished _
    obtain rfl := Option.some.inj taken
    have same := releaseFinished before index urlId finished
    exact ⟨same.currentState, fun tracks => same.list ▸ tracks⟩
  · rw [Option.map_eq_some_iff] at taken
    obtain ⟨ended, finished, rfl⟩ := taken
    obtain ⟨currentState, front, list⟩ := finish finished
    refine ⟨?_, fun _ tracks => by rw [list] at tracks; contradiction⟩
    split
    · exact (releaseFinished ended index urlId _).currentState.trans currentState
    · exact currentState

end SameTurn

namespace TimersDecode

variable {tasker : AsyncTasker DecoderJob}

/-- A new tasker has no timers. -/
theorem make (maxTimerCount : Nat) : TimersDecode (.make maxTimerCount) :=
  ⟨AsyncTasker.make_sound maxTimerCount, by simp [AsyncTasker.make], by simp [AsyncTasker.make]⟩

/-- Posting a job makes none. -/
theorem addJob (timers : TimersDecode tasker) (job : DecoderJob) :
    TimersDecode (tasker.addAsyncJob job) := by
  refine ⟨timers.sound.setPosted _, timers.waits, ?_⟩
  intro other dur member
  rcases List.mem_append.mp member with before | last
  · exact timers.posted other dur before
  · simp at last

/-- A job that is to run later waits for a timer of its own, and it is one that calls the loop. -/
theorem addJobAfter (timers : TimersDecode tasker) (dur : Int) {job : DecoderJob}
    (calls : callsDecodeCont job = true) : TimersDecode (tasker.addAsyncJobAfter job dur) := by
  refine ⟨timers.sound.setPosted _, timers.waits, ?_⟩
  intro other otherDur member
  rcases List.mem_append.mp member with before | last
  · exact timers.posted other otherDur before
  · simp only [List.mem_singleton, Posted.createGetTimer.injEq] at last
    exact last.1 ▸ calls

/-- So it is for a timer that is made to be asked about. -/
theorem createGetTimer (timers : TimersDecode tasker) (dur : Int) {job : DecoderJob}
    (calls : callsDecodeCont job = true) : TimersDecode (tasker.createGetTimer job dur).2 := by
  obtain ⟨_, waits, posted, _⟩ := tasker.createGetTimer_armed job dur
  refine ⟨timers.sound.createGetTimer job dur, ?_, posted ▸ timers.posted⟩
  intro wait member
  rw [waits] at member
  rcases List.mem_append.mp member with before | last
  · exact timers.waits wait before
  · exact List.mem_singleton.mp last ▸ calls

/-- A timer that has come leaves the others waiting as they did. -/
theorem retire (timers : TimersDecode tasker) {wait : Wait DecoderJob}
    (waiting : wait ∈ tasker.waits) : TimersDecode (tasker.retire wait) :=
  ⟨timers.sound.retire waiting, fun other member =>
    timers.waits other (List.mem_of_mem_filter member), timers.posted⟩

/-- Taking a handler from the queue leaves the timers. -/
theorem popped (timers : TimersDecode tasker) {first : Posted DecoderJob}
    {rest : List (Posted DecoderJob)} (posted : tasker.posted = first :: rest) :
    TimersDecode { tasker with posted := rest } :=
  ⟨timers.sound.setPosted rest, timers.waits, fun job dur member =>
    timers.posted job dur (posted ▸ List.mem_cons_of_mem first member)⟩

end TimersDecode

/-- A timer that is active waits with a job that calls `decode_cont`. -/
theorem awaits_of_active {state : DecodeLoop} (timers : TimersDecode state.tasker)
    (active : state.decodeTimerActive = true) : Awaits state.tasker := by
  rw [decodeTimerActive, Option.any_eq_true] at active
  obtain ⟨timer, _, isActive⟩ := active
  obtain ⟨wait, waiting, _⟩ := (timers.sound.active timer).mp (of_decide_eq_true isActive)
  exact .inl ⟨wait, waiting, timers.waits wait waiting⟩

/-- Posting a job takes no wake-up away. -/
theorem Awaits.addJob {tasker : AsyncTasker DecoderJob} (awaits : Awaits tasker)
    (job : DecoderJob) : Awaits (tasker.addAsyncJob job) :=
  awaits.imp id (fun ⟨other, member, calls⟩ => ⟨other, List.mem_append_left _ member, calls⟩)

/-- A posted job that calls `decode_cont` is a wake-up. -/
theorem awaits_addJob (tasker : AsyncTasker DecoderJob) {job : DecoderJob}
    (calls : callsDecodeCont job = true) : Awaits (tasker.addAsyncJob job) :=
  .inr ⟨job, List.mem_append_right _ (List.mem_singleton_self _), calls⟩

/-- The events of a handler keep the timers' jobs and the wake-up. -/
theorem post_keeps {tasker : AsyncTasker DecoderJob} (timers : TimersDecode tasker)
    (event : ManagerEvent) :
    TimersDecode (post tasker event) ∧ (Awaits tasker → Awaits (post tasker event)) := by
  cases event with
  | contPosted => exact ⟨timers.addJob _, fun awaits => awaits.addJob _⟩
  | decodeContPosted => exact ⟨timers.addJob _, fun awaits => awaits.addJob _⟩
  | playFinishedPosted index urlId => exact ⟨timers.addJob _, fun awaits => awaits.addJob _⟩
  | contInternalPosted =>
    refine ⟨timers.addJobAfter _ rfl, fun awaits => awaits.imp id ?_⟩
    rintro ⟨job, member, calls⟩
    exact ⟨job, List.mem_append_left _ member, calls⟩
  | setInputCacheBuf urlId cacheBuf | decoderOpened soundDets | decoderFinish pluginName urlId
  | decoderSeekFinished | output outputPlugin request => exact ⟨timers, id⟩

/-- When the events of a handler are posted, the wake-up is posted with them. The
induction is on the events; those before the one that matters only add to the
queue. -/
theorem posts_awaits {tasker : AsyncTasker DecoderJob} (timers : TimersDecode tasker)
    (events : List ManagerEvent) :
    TimersDecode (events.foldl post tasker) ∧
      (Awaits tasker ∨ .contPosted ∈ events ∨ .decodeContPosted ∈ events →
        Awaits (events.foldl post tasker)) := by
  induction events generalizing tasker with
  | nil => exact ⟨timers, fun awaits => by simpa using awaits⟩
  | cons event rest inductionHypothesis =>
    obtain ⟨kept, keeps⟩ := post_keeps timers event
    obtain ⟨all, awaits⟩ := inductionHypothesis kept
    refine ⟨all, ?_⟩
    rintro (already | member | member)
    · exact awaits (.inl (keeps already))
    · rcases List.mem_cons.mp member with rfl | later
      · exact awaits (.inl (awaits_addJob tasker rfl))
      · exact awaits (.inr (.inl later))
    · rcases List.mem_cons.mp member with rfl | later
      · exact awaits (.inl (awaits_addJob tasker rfl))
      · exact awaits (.inr (.inr later))

/-- The invariant of the loop between two handlers. -/
structure Invariant (state : DecodeLoop) : Prop where
  timers : TimersDecode state.tasker
  awake : Awake state

/-- At the end of a handler the wake-up is where the loop finds it. -/
theorem Wakes.settle {state : DecodeLoop} (wakes : Wakes state) : Invariant state.settle := by
  obtain ⟨timers, awaits⟩ := posts_awaits wakes.timers state.manager.events
  exact ⟨timers, fun playing tracks => awaits (wakes.wakes playing tracks)⟩

/-- The timer started for `decode_cont` is a wake-up. -/
theorem startDecodeTimer_wakes {state : DecodeLoop} (timers : TimersDecode state.tasker)
    (dur : Int) : Wakes (state.startDecodeTimer dur) := by
  rw [startDecodeTimer]
  split
  · rename_i active
    exact ⟨timers, fun _ _ => .inl (awaits_of_active timers active)⟩
  · obtain ⟨_, waits, _, _⟩ := state.tasker.createGetTimer_armed .decodeCont dur
    have armed : ⟨(state.tasker.createGetTimer .decodeCont dur).1, .decodeCont, dur,
        state.tasker.calls⟩ ∈ (state.tasker.createGetTimer .decodeCont dur).2.waits :=
      waits ▸ List.mem_append_right _ (List.mem_singleton_self _)
    exact ⟨timers.createGetTimer dur rfl, fun _ _ => .inl (.inl ⟨_, armed, rfl⟩)⟩

/-- After `decode_cont` the wake-up is there, whether it was before or not. -/
theorem decodeCont_wakes {state next : DecodeLoop} {env : HandlerEnv}
    (timers : TimersDecode state.tasker) (taken : state.decodeCont env = some next) :
    Wakes next := by
  simp only [decodeCont] at taken
  split at taken
  · rename_i paused
    obtain rfl := Option.some.inj taken
    exact ⟨timers, fun playing _ => absurd playing paused⟩
  · split at taken
    · rename_i noTracks
      obtain rfl := Option.some.inj taken
      exact ⟨timers, fun _ tracks => absurd noTracks tracks⟩
    · split at taken
      · rename_i active
        obtain rfl := Option.some.inj taken
        exact ⟨timers, fun _ _ => .inl (awaits_of_active timers active)⟩
      · split at taken
        · obtain rfl := Option.some.inj taken
          refine startDecodeTimer_wakes ?_ 100000
          exact timers
        · split at taken
          · obtain rfl := Option.some.inj taken
            refine startDecodeTimer_wakes ?_ 1000000
            exact timers
          · rw [Option.map_eq_some_iff] at taken
            obtain ⟨decoded, _, rfl⟩ := taken
            refine ⟨timers, fun _ tracks => .inr (.inr ?_)⟩
            simp only [setManager] at tracks ⊢
            split
            · rename_i finished
              rw [if_pos finished] at tracks
              exact absurd (List.isEmpty_iff.mp finished) tracks
            · exact List.mem_append_right _ (List.mem_singleton_self _)

/-- After `cont_internal` the wake-up is there. -/
theorem contInternal_wakes {state next : DecodeLoop} {env : HandlerEnv}
    (timers : TimersDecode state.tasker) (taken : state.contInternal env = some next) :
    Wakes next := by
  simp only [contInternal] at taken
  split at taken
  · rename_i noTracks
    obtain rfl := Option.some.inj taken
    exact ⟨timers, fun _ tracks => absurd (List.isEmpty_iff.mp noTracks) tracks⟩
  · refine decodeCont_wakes ?_ taken
    exact timers

/-- After a seek the wake-up is there. -/
theorem seekDuration_wakes {state next : DecodeLoop} {env : HandlerEnv}
    {urlId seekDurationMs : Int} (timers : TimersDecode state.tasker)
    (taken : state.seekDuration urlId seekDurationMs env = some next) : Wakes next := by
  simp only [seekDuration, Option.map_eq_some_iff] at taken
  obtain ⟨ended, sought, rfl⟩ := taken
  have wakes : Wakes ended := by
    split at sought
    · rename_i noTracks
      obtain rfl := Option.some.inj sought
      exact ⟨timers, fun _ tracks => absurd noTracks tracks⟩
    · rw [Option.bind_eq_some_iff] at sought
      obtain ⟨moved, _, decoded⟩ := sought
      refine decodeCont_wakes ?_ decoded
      exact timers
  refine ⟨wakes.timers, fun playing tracks => ?_⟩
  refine (wakes.wakes playing tracks).imp id (Or.imp ?_ ?_)
  · exact fun member => List.mem_append_left _ member
  · exact fun member => List.mem_append_left _ member

/-- The job that adds a track to an empty list posts `cont` in state play. -/
theorem addInputUrlJob_wakes {state : DecodeLoop} {manager : DecoderPluginsManager}
    {urlExt : String} {urlId : Int} (timers : TimersDecode state.tasker) (awake : Awake state)
    (taken : state.manager.addInputUrlJobInternal urlExt urlId = some manager) :
    Wakes (state.setManager manager) := by
  simp only [DecoderPluginsManager.addInputUrlJobInternal, Option.map_eq_some_iff] at taken
  obtain ⟨index, _, rfl⟩ := taken
  refine ⟨timers, fun playing tracks => ?_⟩
  have pushed : ∀ details, (state.manager.pushBackDetails details).currentState =
      state.manager.currentState := fun _ => rfl
  split
  · exact .inr (.inl (List.mem_append_right _ (List.mem_singleton_self _)))
  · rename_i waits
    simp only [setManager, if_neg waits, DecoderPluginsManager.emit,
      (SameTurn.getCachePutBuf _ _ _).currentState, pushed] at playing
    refine .inl (awake playing (fun noTracks => waits ⟨playing, ?_⟩))
    rw [DecoderPluginsManager.isNoJob, noTracks]
    rfl

/-- A job that runs with its wake-up there, or that calls `decode_cont` itself,
leaves it there. -/
theorem handle_wakes {state next : DecodeLoop} {env : HandlerEnv} {job : DecoderJob}
    (timers : TimersDecode state.tasker) (awake : callsDecodeCont job = false → Awake state)
    (taken : state.handle env job = some next) : Wakes next := by
  cases job with
  | addInputUrlJob urlExt urlId =>
    simp only [handle, Option.map_eq_some_iff] at taken
    obtain ⟨manager, added, rfl⟩ := taken
    exact addInputUrlJob_wakes timers (awake rfl) added
  | cont =>
    simp only [handle] at taken
    refine contInternal_wakes ?_ taken
    exact timers
  | contInternal => exact contInternal_wakes timers taken
  | decodeCont => exact decodeCont_wakes timers taken
  | seekDuration urlId seekDurationMs => exact seekDuration_wakes timers taken
  | playFinished index urlId =>
    simp only [handle, Option.map_eq_some_iff] at taken
    obtain ⟨manager, finished, rfl⟩ := taken
    obtain ⟨currentState, list⟩ := SameTurn.playFinished finished
    refine ⟨timers, fun playing tracks => .inl ?_⟩
    exact awake rfl (currentState.symm.trans playing) (list tracks)
  | stop | pause | quit =>
    obtain rfl := Option.some.inj taken
    exact ⟨timers, fun playing _ => by contradiction⟩

/-- A wake-up that is posted stays posted while another handler runs. -/
theorem Awaits.popped {tasker : AsyncTasker DecoderJob} {first : Posted DecoderJob}
    {rest : List (Posted DecoderJob)} (awaits : Awaits tasker)
    (posted : tasker.posted = first :: rest)
    (other : ∀ job, first = .job job → callsDecodeCont job = false) :
    Awaits { tasker with posted := rest } := by
  refine awaits.imp id ?_
  rintro ⟨job, member, calls⟩
  rw [posted, List.mem_cons] at member
  rcases member with same | later
  · exact absurd calls (by rw [other job same.symm]; exact Bool.false_ne_true)
  · exact ⟨job, later, calls⟩

/-- The next posted handler keeps the invariant. -/
theorem runPosted_invariant {state next : DecodeLoop} {env : HandlerEnv}
    (invariant : Invariant state) (taken : state.runPosted env = some next) :
    Invariant next := by
  simp only [runPosted, Option.bind_eq_some_iff] at taken
  obtain ⟨⟨job, tasker⟩, popped, handled⟩ := taken
  cases posted : state.tasker.posted with
  | nil => simp [AsyncTasker.runPosted, posted] at popped
  | cons first rest =>
    have remaining := invariant.timers.popped posted
    cases first with
    | job f =>
      simp only [AsyncTasker.runPosted, posted, Option.some.injEq, Prod.mk.injEq] at popped
      obtain ⟨rfl, rfl⟩ := popped
      simp only [runHandler, Option.map_eq_some_iff] at handled
      obtain ⟨ended, ran, rfl⟩ := handled
      refine (handle_wakes ?_ ?_ ran).settle
      · exact remaining
      · intro other playing tracks
        refine (invariant.awake playing tracks).popped posted ?_
        intro job same
        exact Posted.job.inj same ▸ other
    | createGetTimer f dur =>
      simp only [AsyncTasker.runPosted, posted, Option.some.injEq, Prod.mk.injEq] at popped
      obtain ⟨rfl, rfl⟩ := popped
      obtain rfl := Option.some.inj handled
      have calls := invariant.timers.posted f dur (posted ▸ List.mem_cons_self)
      obtain ⟨_, waits, samePosted, _⟩ :=
        ({ state.tasker with posted := rest } : AsyncTasker DecoderJob).createGetTimer_armed f dur
      refine ⟨remaining.createGetTimer dur calls, fun playing tracks => ?_⟩
      refine ((invariant.awake playing tracks).popped posted nofun).imp ?_ ?_
      · rintro ⟨wait, waiting, leads⟩
        exact ⟨wait, waits ▸ List.mem_append_left _ waiting, leads⟩
      · rintro ⟨job, member, leads⟩
        exact ⟨job, samePosted ▸ member, leads⟩

/-- The job of a timer, which calls `decode_cont`, keeps the invariant. -/
theorem handleTimeout_invariant {state next : DecodeLoop} {call : Nat} {env : HandlerEnv}
    (invariant : Invariant state) (taken : state.handleTimeout call env = some next) :
    Invariant next := by
  simp only [handleTimeout, Option.bind_eq_some_iff] at taken
  obtain ⟨⟨job, tasker⟩, fired, handled⟩ := taken
  obtain ⟨wait, waiting, _, rfl, rfl⟩ := AsyncTasker.handleTimeout_some fired
  simp only [runHandler, Option.map_eq_some_iff] at handled
  obtain ⟨ended, ran, rfl⟩ := handled
  refine (handle_wakes ?_ ?_ ran).settle
  · exact invariant.timers.retire waiting
  · intro other
    rw [invariant.timers.waits wait waiting] at other
    contradiction

/-- Every step keeps the invariant. -/
theorem step_invariant (state : DecodeLoop) (action : Action) (next : DecodeLoop)
    (invariant : Invariant state) (taken : step state action = some next) : Invariant next := by
  cases action with
  | runPosted env => exact runPosted_invariant invariant taken
  | handleTimeout call env => exact handleTimeout_invariant invariant taken
  | setCacheBuffer urlId cacheBuf =>
    obtain rfl := Option.some.inj taken
    have same : SameTurn state.manager (state.manager.setCacheBuffer urlId cacheBuf) := by
      rw [DecoderPluginsManager.setCacheBuffer]
      split <;> exact ⟨rfl, rfl⟩
    refine ⟨invariant.timers, fun playing tracks => ?_⟩
    exact invariant.awake (same.currentState.symm.trans playing) (same.list ▸ tracks)
  | changeBuffers buffers =>
    obtain rfl := Option.some.inj taken
    exact ⟨invariant.timers, invariant.awake⟩
  | addInputUrlJob urlExt urlId | stop | pause | cont | quit
  | seekDuration urlId seekDurationMs | playFinishedCallback index urlId =>
    obtain rfl := Option.some.inj taken
    exact ⟨invariant.timers.addJob _, fun playing tracks =>
      (invariant.awake playing tracks).addJob _⟩

/-- In every state of every run between two handlers, in state play with a track,
a job that calls `decode_cont` is posted or waits for an armed timer. -/
theorem decode_loop_awake (manager : DecoderPluginsManager) (maxTimerCount : Nat)
    (actions : List Action) (finish : DecodeLoop)
    (ran : LabelledRuns.run step (start manager maxTimerCount) actions = some finish) :
    Awake finish := by
  have initial : Invariant (start manager maxTimerCount) :=
    ⟨TimersDecode.make maxTimerCount, fun _ tracks => absurd rfl tracks⟩
  exact (LabelledRuns.run_preserves step_invariant initial ran).awake

/-- A stopped manager with one decoder plugin. -/
def flacManager : DecoderPluginsManager where
  currentState := .stop
  decoderDetailList := []
  finishedDecoderDetailList := ∅
  decoderPluginList := [0]
  plugins := fun _ => ⟨"decoder_plugin_flac", fun urlExt => urlExt == "flac", true, false, .make 0,
    .make 0, 8, 4⟩
  outputPluginList := [0]
  details := fun _ => .opened "" 0
  nextDetails := 0
  buffers := fun _ => CacheBuffer.make 8 4 0 0
  nextBuffer := 0
  uninitialised := fun _ => (0, 0)
  nextDecoder := 0
  events := []

/-- A handler during which the buffers are new and a track is opened. -/
def openingEnv : HandlerEnv where
  opened := .opened ⟨2, 1, 44100, false, 8⟩
  sought := ⟨fun _ => CacheBuffer.make 8 4 0 0, 0⟩
  seen := fun _ => CacheBuffer.make 8 4 0 0
  written := ⟨fun _ => CacheBuffer.make 8 4 0 0, 1⟩
  endOfStream := false
  next := .silent

/-- The manager is continued before there is a track, so `cont_internal` waits
for a timer; the track is added, and `cont` opens it and waits for an output
buffer, which comes before the timer of `decode_cont` expires. -/
theorem decode_loop_awake_late_output :
    ∃ finish, LabelledRuns.run step (start flacManager 5)
        [.cont, .runPosted openingEnv, .runPosted openingEnv, .addInputUrlJob "flac" 1,
          .runPosted openingEnv, .runPosted openingEnv, .setCacheBuffer 1 10,
          .handleTimeout 1 openingEnv] = some finish ∧
      finish.manager.currentState = .play ∧ finish.manager.decoderDetailList ≠ [] ∧
      Awaits finish.tasker := by
  have ran : ∃ finish, LabelledRuns.run step (start flacManager 5)
      [.cont, .runPosted openingEnv, .runPosted openingEnv, .addInputUrlJob "flac" 1,
        .runPosted openingEnv, .runPosted openingEnv, .setCacheBuffer 1 10,
        .handleTimeout 1 openingEnv] = some finish ∧
      finish.manager.currentState = .play ∧ finish.manager.decoderDetailList = [0] :=
    ⟨_, rfl, rfl, rfl⟩
  obtain ⟨finish, ran, playing, tracks⟩ := ran
  have some : finish.manager.decoderDetailList ≠ [] := by
    rw [tracks]
    exact List.cons_ne_nil _ _
  exact ⟨finish, ran, playing, some, decode_loop_awake flacManager 5 _ finish ran playing some⟩

end DecodeLoop

end Mprt
