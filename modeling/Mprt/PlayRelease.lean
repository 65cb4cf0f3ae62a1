import Mprt.NotifiedQueue
import Mprt.OutputPluginAlsa
import Mprt.OutputPluginDsound

/-!
# Played tracks are reported to the decoder

A track that leaves the queue of an output plugin must be reported to the
decoder, which otherwise keeps it for good. The queue, the tracks that have left
it and the calls of `_decoder_play_finished_callback` form a ledger, and each job
changes it by one change. The normal end of a track, a failed initialisation and
a stop report what they remove. The end of the wait for a decoder that writes
nothing removes the front track in silence. A track without a buffer would be
removed in silence as well, but each queued track has one.
-/

namespace Mprt.PlayRelease

open NotifiedQueue OutputPlugin

variable {Device Env : Type}

/-- The url ids for which the decoder was called. -/
def calls (events : List OutputEvent) : List Int :=
  events.filterMap (fun event =>
    match event with
    | .decoderPlayFinished urlId => some urlId
    | _ => none)

def ledger (state : OutputPlugin Device) : Ledger Int :=
  ⟨state.soundDetailsQueue.map (·.urlId), state.removed, calls state.events⟩

/-- Every queued track has a buffer, and so has the pool for every id. -/
def Buffered (state : OutputPlugin Device) : Prop :=
  (∀ soundDets ∈ state.soundDetailsQueue, soundDets.currentCacheBuffer ≠ none) ∧
    state.cacheBufMgr.NoNull

/-- One change of the ledger that leaves every track with its buffer. -/
def Moved (before after : OutputPlugin Device) (change : Change Int) : Prop :=
  ledger after = (ledger before).apply change ∧ (Buffered before → Buffered after)

/-- The plugin before its first job. -/
def Fresh (state : OutputPlugin Device) : Prop :=
  state.soundDetailsQueue = [] ∧ state.cacheBufMgr = .make 0 ∧ state.events = [] ∧
    state.removed = []

/-- The buffer holds no data chunk at any of the 21 tests of the wait. -/
def emptyAtTests (buffer : CacheBuffer) (arrivals : List (List Arrival)) : Bool :=
  (List.range 21).all (fun count =>
    (decoderPuts buffer (arrivals.take (count + 1)).flatten).isDataEmpty)

/-- The front track can be initialised, and its wait is in vain. -/
def starves (init : OutputPlugin Device → Bool × OutputPlugin Device)
    (arrivals : List (List Arrival)) (state : OutputPlugin Device) : Bool :=
  match state.soundDetailsQueue with
  | [] => false
  | current :: _ =>
    (state.initApi || (init state).1) &&
      match current.currentCacheBuffer with
      | none => false
      | some address => emptyAtTests (state.buffers address) arrivals

/-- The url id that a job adds to the queue. -/
def added : OutputJob Env → List Int
  | .addSoundDetails soundDets _ _ => [soundDets.urlId]
  | _ => []

namespace Moved

variable {before middle after : OutputPlugin Device} {change : Change Int}

/-- States with the same tracks, the same histories and the same pool. -/
theorem of_same (tracks : after.soundDetailsQueue = before.soundDetailsQueue)
    (removed : after.removed = before.removed) (events : after.events = before.events)
    (pool : after.cacheBufMgr = before.cacheBufMgr) : Moved before after .keep := by
  constructor
  · simp only [ledger, tracks, removed, events, Ledger.apply]
  · intro buffered
    rwa [Buffered, tracks, pool]

/-- A call that returns at once keeps the queue and reports nothing. -/
theorem refl (state : OutputPlugin Device) : Moved state state .keep := of_same rfl rfl rfl rfl

/-- What keeps the tracks may come before anything else, whatever becomes of them then. -/
theorem after_keep (first : Moved before middle .keep) (second : Moved middle after change) :
    Moved before after change :=
  ⟨by rw [second.1, first.1]; rfl, fun buffered => second.2 (first.2 buffered)⟩

/-- It may come afterwards too. -/
theorem then_keep (first : Moved before middle change) (second : Moved middle after .keep) :
    Moved before after change :=
  ⟨by rw [second.1, first.1]; rfl, fun buffered => second.2 (first.2 buffered)⟩

end Moved

/-- Clearing a cache buffer takes its data away and leaves the tracks and the pool. -/
theorem clearBuffer_keeps (state : OutputPlugin Device) (pointer : Option Nat) :
    Moved state (state.clearBuffer pointer) .keep ∧
      (state.clearBuffer pointer).soundDetailsQueue = state.soundDetailsQueue ∧
      (state.clearBuffer pointer).cacheBufMgr = state.cacheBufMgr := by
  cases pointer with
  | none => exact ⟨Moved.refl state, rfl, rfl⟩
  | some address => exact ⟨Moved.of_same rfl rfl rfl rfl, rfl, rfl⟩

/-- Giving a buffer back changes no track. -/
theorem giveCacheBufBack_keeps (state : OutputPlugin Device) (urlId : Int) :
    Moved state (state.giveCacheBufBack urlId) .keep := by
  rw [giveCacheBufBack]
  have cleared := clearBuffer_keeps state ((state.cacheBufMgr.putCacheBack urlId).1.getD none)
  refine cleared.1.then_keep ⟨rfl, ?_⟩
  rintro ⟨tracks, pool⟩
  rw [cleared.2.2] at pool
  exact ⟨tracks, CacheManage.putCacheBack_noNull pool urlId⟩

/-- A report of the position is no call of the decoder. -/
theorem callProgress_keeps (state : OutputPlugin Device) (soundDets : SoundDetails) :
    Moved state (state.callProgress soundDets) .keep := by
  constructor
  · simp [ledger, callProgress, emit, calls, Ledger.apply]
  · intro buffered
    exact buffered

/-- A report of the progress changes nothing that the reports of finished tracks are about. -/
theorem reported_keeps {before after : OutputPlugin Device}
    (tracks : after.soundDetailsQueue = before.soundDetailsQueue)
    (removed : after.removed = before.removed) (events : after.events = before.events)
    (pool : after.cacheBufMgr = before.cacheBufMgr) (soundDets : SoundDetails) :
    Moved before (after.callProgress soundDets) .keep :=
  (Moved.of_same tracks removed events pool).then_keep (callProgress_keeps after soundDets)

/-- Popping the front track takes it out in silence. -/
theorem pop_loses (state : OutputPlugin Device) : Moved state state.soundDetailsPop .lose := by
  rw [soundDetailsPop]
  cases tracks : state.soundDetailsQueue with
  | nil =>
    constructor
    · simp only [ledger, tracks, List.map_nil, Ledger.apply]
    · intro buffered
      exact buffered
  | cons current rest =>
    constructor
    · simp only [ledger, tracks, List.map_cons, Ledger.apply]
    · rintro ⟨pointers, pool⟩
      rw [tracks] at pointers
      exact ⟨fun other member => pointers other (List.mem_cons_of_mem current member), pool⟩

/-- Popping it after the call of the decoder releases it. -/
theorem pop_releases {state : OutputPlugin Device} {current : SoundDetails}
    {rest : List SoundDetails} (front : state.soundDetailsQueue = current :: rest) :
    Moved state (state.decoderPlayFinished current.urlId).soundDetailsPop .release := by
  have popped := (pop_loses (state.decoderPlayFinished current.urlId)).2
  constructor
  · simp [ledger, decoderPlayFinished, emit, soundDetailsPop, front, calls, Ledger.apply]
  · intro buffered
    exact popped buffered

/-- The front track may change in everything but its url id and its buffer. -/
theorem setTop_keeps {state : OutputPlugin Device} {current changed : SoundDetails}
    {rest : List SoundDetails} (front : state.soundDetailsQueue = current :: rest)
    (urlId : changed.urlId = current.urlId)
    (pointer : changed.currentCacheBuffer = current.currentCacheBuffer) :
    Moved state (state.setTop changed) .keep := by
  constructor
  · simp only [ledger, setTop, front, List.map_cons, urlId, Ledger.apply]
  · rintro ⟨pointers, pool⟩
    rw [front] at pointers
    refine ⟨?_, pool⟩
    simp only [setTop, front]
    intro other member
    rcases List.mem_cons.mp member with rfl | later
    · rw [pointer]
      exact pointers current List.mem_cons_self
    · exact pointers other (List.mem_cons_of_mem current later)

/-- A change of one entry that leaves its url id and its buffer. -/
theorem changeFirst_keeps {change : SoundDetails → SoundDetails}
    (urlIds : ∀ soundDets, (change soundDets).urlId = soundDets.urlId)
    (pointers : ∀ soundDets, (change soundDets).currentCacheBuffer = soundDets.currentCacheBuffer)
    (urlId : Int) (state : OutputPlugin Device) :
    Moved state { state with
      soundDetailsQueue := SoundDetails.changeFirst urlId change state.soundDetailsQueue } .keep := by
  have sameIds : ∀ tracks : List SoundDetails,
      (SoundDetails.changeFirst urlId change tracks).map (·.urlId) = tracks.map (·.urlId) := by
    intro tracks
    induction tracks with
    | nil => rfl
    | cons soundDets rest inductionHypothesis =>
      by_cases found : soundDets.urlId = urlId
      · simp [SoundDetails.changeFirst, found, urlIds]
      · simp [SoundDetails.changeFirst, found, inductionHypothesis]
  have samePointers : ∀ tracks : List SoundDetails,
      (SoundDetails.changeFirst urlId change tracks).map (·.currentCacheBuffer) =
        tracks.map (·.currentCacheBuffer) := by
    intro tracks
    induction tracks with
    | nil => rfl
    | cons soundDets rest inductionHypothesis =>
      by_cases found : soundDets.urlId = urlId
      · simp [SoundDetails.changeFirst, found, pointers]
      · simp [SoundDetails.changeFirst, found, inductionHypothesis]
  constructor
  · simp only [ledger, sameIds, Ledger.apply]
  · rintro ⟨buffers, pool⟩
    refine ⟨?_, pool⟩
    intro soundDets member missing
    have listed : none ∈ (SoundDetails.changeFirst urlId change state.soundDetailsQueue).map
        (·.currentCacheBuffer) := List.mem_map.mpr ⟨soundDets, member, missing⟩
    rw [samePointers] at listed
    obtain ⟨other, present, none⟩ := List.mem_map.mp listed
    exact buffers other present none

/-- An added track joins with the buffer that the pool has for it. -/
theorem add_joins (state : OutputPlugin Device) (soundDets : SoundDetails)
    (cacheLastSize dataLastSize : Int) :
    Moved state (state.addSoundDetailsInternal soundDets cacheLastSize dataLastSize)
      (.join soundDets.urlId) := by
  have got : ∀ bufferSize,
      ((state.getCachePutBuf soundDets.urlId bufferSize cacheLastSize dataLastSize).2.soundDetailsQueue
          = state.soundDetailsQueue ∧
        (state.getCachePutBuf soundDets.urlId bufferSize cacheLastSize dataLastSize).2.removed =
          state.removed ∧
        (state.getCachePutBuf soundDets.urlId bufferSize cacheLastSize dataLastSize).2.events =
          state.events) ∧
      (state.getCachePutBuf soundDets.urlId bufferSize cacheLastSize dataLastSize).2.cacheBufMgr =
        (state.cacheBufMgr.getFromCacheOr (some state.allocated) soundDets.urlId).2.2 := by
    intro bufferSize
    rw [getCachePutBuf]
    simp only
    split <;> exact ⟨⟨rfl, rfl, rfl⟩, rfl⟩
  rw [addSoundDetailsInternal]
  simp only
  generalize (if state.useDuration = true then
    soundDets.timeDurationToBytes (state.maxMemorySizePerFile * 1000)
    else state.maxMemorySizePerFile) = bufferSize
  obtain ⟨⟨tracks, removed, events⟩, pool⟩ := got bufferSize
  constructor
  · simp [ledger, emit, tracks, removed, events, calls, Ledger.apply]
  · rintro ⟨pointers, filled⟩
    have handed := CacheManage.getFromCacheOr_noNull filled state.allocated soundDets.urlId
    constructor
    · simp only [emit, tracks]
      intro other member
      rcases List.mem_append.mp member with old | last
      · exact pointers other old
      · rw [List.mem_singleton.mp last]
        exact handed.1
    · simp only [emit, pool]
      exact handed.2

/-- The wait finds nothing exactly when the buffer is empty at each test. -/
theorem waitData_fails_iff (tests : Nat) (arrivals : List (List Arrival)) (buffer : CacheBuffer) :
    (waitData tests arrivals buffer).1 = false ↔
      ∀ count < tests,
        (decoderPuts buffer (arrivals.take (count + 1)).flatten).isDataEmpty = true := by
  induction tests generalizing arrivals buffer with
  | zero => simp [waitData]
  | succ tests inductionHypothesis =>
    have later : ∀ count, decoderPuts buffer (arrivals.take (count + 1)).flatten =
        decoderPuts (decoderPuts buffer (arrivals.headD [])) (arrivals.tail.take count).flatten := by
      intro count
      cases arrivals with
      | nil => simp [decoderPuts]
      | cons first rest => simp [decoderPuts]
    simp only [waitData, later]
    by_cases found : (decoderPuts buffer (arrivals.headD [])).isDataEmpty = true
    · rw [if_pos found, inductionHypothesis]
      constructor
      · intro empty count smaller
        cases count with
        | zero => simpa [decoderPuts] using found
        | succ count => exact empty count (by omega)
      · intro empty count smaller
        exact empty (count + 1) (by omega)
    · rw [if_neg found]
      constructor
      · intro impossible
        cases impossible
      · intro empty
        have first := empty 0 (by omega)
        simp only [List.take_zero, List.flatten_nil, decoderPuts, List.foldl_nil] at first
        exact absurd first found

/-- The wait finds data unless the buffer is empty at all its tests. -/
theorem waitData_found (arrivals : List (List Arrival)) (buffer : CacheBuffer) :
    (waitData 21 arrivals buffer).1 = !emptyAtTests buffer arrivals := by
  have fails := waitData_fails_iff 21 arrivals buffer
  cases empty : emptyAtTests buffer arrivals with
  | true =>
    exact fails.mpr (fun count smaller =>
      List.all_eq_true.mp empty count (List.mem_range.mpr smaller))
  | false =>
    by_contra found
    have every := fails.mp (by simpa using found)
    have all : emptyAtTests buffer arrivals = true :=
      List.all_eq_true.mpr (fun count member => every count (List.mem_range.mp member))
    rw [all] at empty
    cases empty

/-- A refused track is released. -/
theorem refuse_releases {state : OutputPlugin Device} {current : SoundDetails}
    {rest : List SoundDetails} (front : state.soundDetailsQueue = current :: rest) :
    Moved state (state.refuse current) .release := by
  have cleared := clearBuffer_keeps state current.currentCacheBuffer
  exact cleared.1.after_keep (pop_releases (cleared.2.1.trans front))

/-- `init_api` changes neither the tracks nor the memory. -/
def InitKeeps (init : OutputPlugin Device → Bool × OutputPlugin Device) : Prop :=
  ∀ state, Moved state (init state).2 .keep ∧
    (init state).2.soundDetailsQueue = state.soundDetailsQueue ∧
    (init state).2.buffers = state.buffers

/-- What `play` does with the front track after its wait keeps or releases it. -/
def DataSpoken (playData : SoundDetails → Nat → OutputPlugin Device → Option (OutputPlugin Device)) :
    Prop :=
  ∀ current rest address state next, state.soundDetailsQueue = current :: rest →
    playData current address state = some next →
    ∃ change, (change = .keep ∨ change = .release) ∧ Moved state next change

/-- The change of a job that adds `joins`, which is silent when `silent` says so. -/
def Accounted (before after : OutputPlugin Device) (joins : List Int) (silent : Bool) : Prop :=
  ∃ change, Moved before after change ∧ Ledger.joined change = joins ∧
    ((ledger before).Silent change ↔ silent = true)

/-- A change that is not a loss is never silent. -/
theorem accounted_spoken {before after : OutputPlugin Device} {change : Change Int}
    (moved : Moved before after change) (spoken : change ≠ .lose) :
    Accounted before after (Ledger.joined change) false := by
  refine ⟨change, moved, rfl, ?_⟩
  constructor
  · intro silent
    exact absurd silent.1 spoken
  · intro impossible
    cases impossible

/-- With data found, what follows the wait decides; with none the front track is
lost. -/
theorem waited_accounted
    {playData : SoundDetails → Nat → OutputPlugin Device → Option (OutputPlugin Device)}
    (dataSpoken : DataSpoken playData) {arrivals : List (List Arrival)}
    {state next : OutputPlugin Device} {current : SoundDetails} {rest : List SoundDetails}
    {address : Nat} (front : state.soundDetailsQueue = current :: rest)
    (played : (let waited := waitData 21 arrivals (state.buffers address)
      let after := state.setBuffer address waited.2
      if waited.1 then playData current address after else some after.soundDetailsPop) = some next) :
    Accounted state next [] (emptyAtTests (state.buffers address) arrivals) := by
  simp only at played
  have same : Moved state (state.setBuffer address
      (waitData 21 arrivals (state.buffers address)).2) .keep := Moved.of_same rfl rfl rfl rfl
  rw [waitData_found] at played
  cases empty : emptyAtTests (state.buffers address) arrivals with
  | true =>
    simp only [empty, Bool.not_true, Bool.false_eq_true, if_false] at played
    obtain rfl := Option.some.inj played
    refine ⟨.lose, same.after_keep (pop_loses _), rfl, ?_⟩
    simp [Ledger.Silent, ledger, front]
  | false =>
    simp only [empty, Bool.not_false, if_true] at played
    obtain ⟨change, spoken, moved⟩ :=
      dataSpoken current rest address (state.setBuffer address _) next front played
    have whole := same.after_keep moved
    rcases spoken with rfl | rfl
    · exact accounted_spoken whole (by simp)
    · exact accounted_spoken whole (by simp)

/-- What is accounted for after a change that keeps the ledger is so from before. -/
theorem Accounted.after_keep {before middle after : OutputPlugin Device} {joins : List Int}
    {silent : Bool} (first : Moved before middle .keep)
    (second : Accounted middle after joins silent) : Accounted before after joins silent := by
  obtain ⟨change, moved, joined, exact⟩ := second
  have same : ledger middle = ledger before := first.1
  rw [same] at exact
  exact ⟨change, first.after_keep moved, joined, exact⟩

/-- `play` loses its front track exactly when it starves. -/
theorem playFront_accounted {init : OutputPlugin Device → Bool × OutputPlugin Device}
    {arrivals : List (List Arrival)}
    {playData : SoundDetails → Nat → OutputPlugin Device → Option (OutputPlugin Device)}
    (initKeeps : InitKeeps init) (dataSpoken : DataSpoken playData)
    {state next : OutputPlugin Device} (buffered : Buffered state)
    (played : playFront init arrivals playData state = some next) :
    Accounted state next [] (starves init arrivals state) := by
  rw [playFront] at played
  rw [starves]
  cases front : state.soundDetailsQueue with
  | nil =>
    simp only [front] at played
    obtain rfl := Option.some.inj played
    exact accounted_spoken (Moved.refl state) (by simp)
  | cons current rest =>
    simp only [front] at played ⊢
    have begins : ∀ reached, (if state.initApi then (true, state) else init state) = reached →
        Moved state reached.2 .keep ∧ reached.2.soundDetailsQueue = current :: rest ∧
          reached.2.buffers = state.buffers ∧ reached.1 = (state.initApi || (init state).1) := by
      rintro reached rfl
      by_cases ready : state.initApi = true
      · simp [ready, Moved.refl, front]
      · have keeps := initKeeps state
        simp [ready, keeps.1, keeps.2.1, keeps.2.2, front]
    generalize (if state.initApi then (true, state) else init state) = reached at played begins
    obtain ⟨begun, tracks, buffers, ready⟩ := begins reached rfl
    rw [← ready]
    cases initialised : reached.1 with
    | false =>
      simp only [initialised, Bool.false_eq_true, if_false] at played
      obtain rfl := Option.some.inj played
      have refused := begun.after_keep (refuse_releases tracks)
      exact accounted_spoken refused (by simp)
    | true =>
      simp only [initialised, if_true] at played
      have pointer := buffered.1 current (by rw [front]; exact List.mem_cons_self)
      cases held : current.currentCacheBuffer with
      | none => exact absurd held pointer
      | some address =>
        simp only [held] at played
        have waited := waited_accounted dataSpoken tracks played
        rw [buffers] at waited
        exact Accounted.after_keep begun waited

/-- Reporting tracks one after another adds their ids to the calls. -/
theorem report_all {finish : OutputPlugin Device → SoundDetails → OutputPlugin Device}
    (keeps : ∀ state soundDet, Moved state (finish state soundDet) .keep)
    (tracks : List SoundDetails) (state : OutputPlugin Device) :
    ledger (tracks.foldl (fun reached soundDet =>
        finish (reached.decoderPlayFinished soundDet.urlId) soundDet) state) =
      { ledger state with announced := (ledger state).announced ++ tracks.map (·.urlId) } ∧
    (Buffered state → Buffered (tracks.foldl (fun reached soundDet =>
        finish (reached.decoderPlayFinished soundDet.urlId) soundDet) state)) := by
  induction tracks generalizing state with
  | nil => simp
  | cons soundDet rest inductionHypothesis =>
    have finished := keeps (state.decoderPlayFinished soundDet.urlId) soundDet
    have following := inductionHypothesis (finish (state.decoderPlayFinished soundDet.urlId) soundDet)
    constructor
    · rw [List.foldl_cons, following.1, finished.1]
      simp [ledger, decoderPlayFinished, emit, calls, Ledger.apply]
    · intro buffered
      exact following.2 (finished.2 buffered)

/-- A stop after all tracks were reported releases them all. -/
theorem stop_releases {state reported : OutputPlugin Device}
    (told : ledger reported = { ledger state with
      announced := (ledger state).announced ++ state.soundDetailsQueue.map (·.urlId) }) :
    Moved state reported.stopInternal .releaseAll := by
  have cleared := clearBuffer_keeps reported reported.prevSoundDetails.currentCacheBuffer
  have same : ledger (reported.clearBuffer reported.prevSoundDetails.currentCacheBuffer) =
      ledger reported := cleared.1.1
  constructor
  · rw [told] at same
    simp only [ledger, Ledger.mk.injEq] at same
    obtain ⟨waiting, left, announced⟩ := same
    simp only [ledger, OutputPlugin.stopInternal, clearSoundDetailsQueue, Ledger.apply, waiting,
      left, announced, List.map_nil]
  · intro _
    constructor
    · intro soundDets member
      cases member
    · exact CacheManage.reset_noNull _

/-- What a derived class must supply for its jobs to be accounted for. -/
structure Spoken (virtuals : OutputPluginVirtuals Device Env)
    (starving : OutputPlugin Device → Env → Bool) : Prop where
  init : ∀ env, InitKeeps (virtuals.initApi env)
  play : ∀ env state next, Buffered state → virtuals.play env state = some next →
    Accounted state next [] (starving state env)
  stop : ∀ state, Moved state (virtuals.stopInternal state) .releaseAll

/-- The job is a `play` that waits in vain. -/
def starvingJob (starving : OutputPlugin Device → Env → Bool) (state : OutputPlugin Device) :
    OutputJob Env → Bool
  | .play env => starving state env
  | _ => false

/-- To go on sets up the device for the first track, and removes none. -/
theorem contInternal_keeps {virtuals : OutputPluginVirtuals Device Env}
    {starving : OutputPlugin Device → Env → Bool} (spoken : Spoken virtuals starving) (env : Env)
    (state : OutputPlugin Device) : Moved state (contInternal virtuals env state) .keep := by
  rw [contInternal]
  split
  · exact Moved.refl state
  · exact (spoken.init env state).1

/-- Each job changes the ledger by one change, in silence exactly when it is a
`play` that waits in vain. -/
theorem step_accounted {virtuals : OutputPluginVirtuals Device Env}
    {starving : OutputPlugin Device → Env → Bool} (spoken : Spoken virtuals starving)
    {state next : OutputPlugin Device} {job : OutputJob Env} (buffered : Buffered state)
    (stepped : OutputPlugin.step virtuals state job = some next) :
    Accounted state next (added job) (starvingJob starving state job) := by
  cases job with
  | addSoundDetails soundDets cacheLastSize dataLastSize =>
    obtain rfl := Option.some.inj stepped
    exact accounted_spoken (add_joins state soundDets cacheLastSize dataLastSize) (by simp)
  | updateTotalSamples urlId totalSamples =>
    obtain rfl := Option.some.inj stepped
    have keeps : Moved state (state.updateTotalSamplesInternal urlId totalSamples) .keep := by
      apply changeFirst_keeps <;> (intro soundDets; rfl)
    exact accounted_spoken keeps (by simp)
  | setSeekDurationMs urlId durationMs =>
    obtain rfl := Option.some.inj stepped
    have keeps : Moved state (state.setSeekDurationInternal urlId durationMs) .keep := by
      apply changeFirst_keeps <;> (intro soundDets; rfl)
    exact accounted_spoken keeps (by simp)
  | clearPlayData urlId =>
    obtain rfl := Option.some.inj stepped
    have keeps : Moved state (state.clearPlayDataInternal urlId) .keep := by
      rw [clearPlayDataInternal]
      split
      · exact Moved.refl state
      · exact (clearBuffer_keeps state _).1
    exact accounted_spoken keeps (by simp)
  | stop =>
    obtain rfl := Option.some.inj stepped
    have same : Moved state { state with currentState := .stop } .keep :=
      Moved.of_same rfl rfl rfl rfl
    exact accounted_spoken (same.after_keep (spoken.stop _)) (by simp)
  | pause | quit =>
    obtain rfl := Option.some.inj stepped
    exact accounted_spoken (Moved.of_same rfl rfl rfl rfl) (by simp)
  | cont env =>
    obtain rfl := Option.some.inj stepped
    have same : Moved state { state with currentState := .play } .keep :=
      Moved.of_same rfl rfl rfl rfl
    exact accounted_spoken (same.after_keep (contInternal_keeps spoken env _)) (by simp)
  | contInternal env =>
    obtain rfl := Option.some.inj stepped
    exact accounted_spoken (contInternal_keeps spoken env state) (by simp)
  | play env => exact spoken.play env state next buffered stepped
  | decoderWrite address arrival =>
    obtain rfl := Option.some.inj stepped
    exact accounted_spoken (Moved.of_same rfl rfl rfl rfl) (by simp)

/-- A plugin keeps the ledger of a queue whose leavers are to be announced. -/
theorem step_keeps {virtuals : OutputPluginVirtuals Device Env}
    {starving : OutputPlugin Device → Env → Bool} (spoken : Spoken virtuals starving) :
    Keeps (OutputPlugin.step virtuals) ledger
      (fun state job => starvingJob starving state job = true) Buffered added := by
  intro state job next buffered stepped
  obtain ⟨change, moved, joined, silent⟩ := step_accounted spoken buffered stepped
  exact ⟨moved.2 buffered, change, moved.1, joined, silent⟩

/-! ## The ALSA plugin -/

/-- `play` runs, and its front track waits in vain. -/
def alsaStarves (state : OutputPlugin AlsaDevice) (env : AlsaEnv) : Bool :=
  state.currentState == .play && !env.timerActive &&
    starves (OutputPluginAlsa.initAlsa env) env.arrivals state

/-- The initialisation changes only what it knows of the track and the device. -/
theorem initialised_keeps {before after : OutputPlugin Device}
    (dets : SoundDetails) (ready : Bool) (device : Device)
    (same : after = { before with
      prevSoundDetails := dets, initApi := ready, device := device }) :
    Moved before after .keep ∧ after.soundDetailsQueue = before.soundDetailsQueue ∧
      after.buffers = before.buffers := by
  subst same
  exact ⟨Moved.of_same rfl rfl rfl rfl, rfl, rfl⟩

/-- Setting up ALSA is a matter of the device. -/
theorem initAlsa_keeps (env : AlsaEnv) : InitKeeps (OutputPluginAlsa.initAlsa env) := by
  intro state
  unfold OutputPluginAlsa.initAlsa OutputPluginAlsa.initHwParams
  split
  · exact initialised_keeps _ _ _ rfl
  · split
    · exact initialised_keeps _ _ _ rfl
    · simp only
      split
      · exact initialised_keeps _ _ _ rfl
      · cases env.hwBufferSize <;> exact initialised_keeps _ _ _ rfl

/-- A call of the decoder, the pop and the buffer given back. -/
theorem finished_releases {state ended : OutputPlugin Device} {current : SoundDetails}
    {rest : List SoundDetails} (front : state.soundDetailsQueue = current :: rest)
    (keeps : Moved (state.decoderPlayFinished current.urlId).soundDetailsPop ended .keep)
    (urlId : Int) :
    Moved state { ended.giveCacheBufBack urlId with initApi := false } .release := by
  have given := giveCacheBufBack_keeps ended urlId
  have reset : Moved (ended.giveCacheBufBack urlId)
      { ended.giveCacheBufBack urlId with initApi := false } .keep := Moved.of_same rfl rfl rfl rfl
  exact (pop_releases front).then_keep (keeps.after_keep (given.after_keep reset))

/-- The last statement of both `play` functions. -/
theorem stopped_keeps (state : OutputPlugin Device) :
    Moved state (if state.isNoJob then { state with currentState := .stop } else state) .keep := by
  split
  · exact Moved.of_same rfl rfl rfl rfl
  · exact Moved.refl state

/-- After the front track has been written to it is still at the front. -/
theorem written_keeps {state : OutputPlugin Device} {current played : SoundDetails}
    {rest : List SoundDetails} (front : state.soundDetailsQueue = current :: rest)
    (urlId : played.urlId = current.urlId)
    (pointer : played.currentCacheBuffer = current.currentCacheBuffer) (address : Nat)
    (buffer : CacheBuffer) :
    Moved state ((state.setTop played).setBuffer address buffer) .keep ∧
      ((state.setTop played).setBuffer address buffer).soundDetailsQueue = played :: rest := by
  constructor
  · have stored : Moved (state.setTop played)
        ((state.setTop played).setBuffer address buffer) .keep := Moved.of_same rfl rfl rfl rfl
    exact (setTop_keeps front urlId pointer).then_keep stored
  · simp only [setBuffer, setTop, front]

/-- After a write the first track of ALSA stays, or it is finished, removed and reported, and
never anything in between. -/
theorem alsa_advance_spoken (env : AlsaEnv) {state : OutputPlugin AlsaDevice}
    {current : SoundDetails} {rest : List SoundDetails}
    (front : state.soundDetailsQueue = current :: rest) (address : Nat) (held : CacheBuffer) :
    ∃ change, (change = .keep ∨ change = .release) ∧
      Moved state (OutputPluginAlsa.advance env current address held state) change := by
  unfold OutputPluginAlsa.advance
  simp only
  generalize (held.modifyData _).putDataPtr _ = buffer
  have urlId : (current.addSamples env.writtenSamples).urlId = current.urlId := rfl
  have pointer : (current.addSamples env.writtenSamples).currentCacheBuffer =
      current.currentCacheBuffer := rfl
  generalize current.addSamples env.writtenSamples = played at *
  obtain ⟨kept, tracks⟩ := written_keeps front urlId pointer address buffer
  have reported := kept.then_keep (callProgress_keeps _ played)
  split
  · have remains : (((state.setTop played).setBuffer address buffer).callProgress
        played).soundDetailsQueue = played :: rest := tracks
    have ended := finished_releases remains (Moved.refl _)
    exact ⟨.release, Or.inr rfl, (reported.after_keep (ended _)).then_keep (stopped_keeps _)⟩
  · exact ⟨.keep, Or.inl rfl, reported.then_keep (stopped_keeps _)⟩

/-- A turn of `play` with data either waits or writes, and each write is followed by the step
before. -/
theorem alsa_data_spoken (env : AlsaEnv) : DataSpoken (OutputPluginAlsa.playData env) := by
  intro current rest address state next front played
  rw [OutputPluginAlsa.playData] at played
  cases found : (state.buffers address).getDataPtr with
  | none =>
    simp only [found] at played
    obtain rfl := Option.some.inj played
    exact ⟨.keep, Or.inl rfl, Moved.refl state⟩
  | some result =>
    obtain ⟨chunk, held⟩ := result
    simp only [found] at played
    have holds : Moved state (state.setBuffer address held) .keep := Moved.of_same rfl rfl rfl rfl
    split at played
    · obtain rfl := Option.some.inj played
      exact ⟨.keep, Or.inl rfl, holds⟩
    · obtain rfl := Option.some.inj played
      have remains : (state.setBuffer address held).soundDetailsQueue = current :: rest := front
      obtain ⟨change, spoken, moved⟩ := alsa_advance_spoken env remains address held
      exact ⟨change, spoken, holds.after_keep moved⟩

/-- All that ALSA adds to the common part of the plugin is of this kind, so the results about the
common part are results about ALSA. -/
theorem alsa_spoken : Spoken OutputPluginAlsa.virtuals alsaStarves where
  init := initAlsa_keeps
  play := by
    intro env state next buffered played
    simp only [OutputPluginAlsa.virtuals, OutputPluginAlsa.play] at played
    by_cases idle : state.currentState ≠ .play ∨ env.timerActive = true
    · rw [if_pos idle] at played
      obtain rfl := Option.some.inj played
      have calm : alsaStarves state env = false := by
        rcases idle with stopped | active
        · simp [alsaStarves, stopped]
        · simp [alsaStarves, active]
      rw [calm]
      exact accounted_spoken (Moved.refl state) (by simp)
    · rw [if_neg idle] at played
      have runs : state.currentState = .play ∧ env.timerActive = false := by simpa using idle
      have same : alsaStarves state env =
          starves (OutputPluginAlsa.initAlsa env) env.arrivals state := by
        simp [alsaStarves, runs.1, runs.2]
      rw [same]
      exact playFront_accounted (initAlsa_keeps env) (alsa_data_spoken env) buffered played
  stop := by
    intro state
    have told := report_all (fun reached soundDet => giveCacheBufBack_keeps reached soundDet.urlId)
      state.soundDetailsQueue state
    exact stop_releases told.1

/-! ## The DirectSound plugin -/

/-- `play` runs, and its front track waits in vain. -/
def dsoundStarves (state : OutputPlugin DsoundDevice) (env : DsoundEnv) : Bool :=
  state.currentState == .play && !env.timerActive &&
    starves (OutputPluginDsound.initDsound env) env.arrivals state

/-- Setting up DirectSound is a matter of the device as well. -/
theorem initDsound_keeps (env : DsoundEnv) : InitKeeps (OutputPluginDsound.initDsound env) := by
  intro state
  rw [OutputPluginDsound.initDsound]
  split
  · exact initialised_keeps _ _ _ rfl
  · simp only
    split
    · exact initialised_keeps _ _ _ rfl
    · exact initialised_keeps _ _ _ rfl

/-- The drain changes only the device, the position of the last track and the
reports of positions. -/
theorem drainLoop_keeps {passes : List (Int × Lock)} {writePlayBytes : Int}
    {state ended : OutputPlugin DsoundDevice}
    (drained : OutputPluginDsound.drainLoop passes writePlayBytes state = some ended) :
    Moved state ended .keep := by
  induction passes generalizing writePlayBytes state with
  | nil =>
    simp only [OutputPluginDsound.drainLoop] at drained
    split at drained
    · cases drained
    · obtain rfl := Option.some.inj drained
      exact Moved.refl state
  | cons pass rest inductionHypothesis =>
    obtain ⟨playOffset, lock⟩ := pass
    simp only [OutputPluginDsound.drainLoop] at drained
    split at drained
    · have following := inductionHypothesis drained
      exact (reported_keeps rfl rfl rfl rfl _).after_keep following
    · obtain rfl := Option.some.inj drained
      exact Moved.refl state

/-- The end of a track drains the ring of DirectSound, and then removes and reports the first
track. -/
theorem dsound_finish_releases {env : DsoundEnv} {state next : OutputPlugin DsoundDevice}
    {current : SoundDetails} {rest : List SoundDetails}
    (front : state.soundDetailsQueue = current :: rest)
    (finished : OutputPluginDsound.finishTrack env current state = some next) :
    Moved state next .release := by
  rw [OutputPluginDsound.finishTrack] at finished
  simp only [Option.map_eq_some_iff] at finished
  obtain ⟨ended, drained, rfl⟩ := finished
  -- the position kept for the drain is set between the call of the decoder and the pop
  let marked := { state with prevSoundDetails := { state.prevSoundDetails with
    currentSamplesWrittenToSoundBuffer := current.currentSamplesWrittenToSoundBuffer } }
  have tracks : marked.soundDetailsQueue = current :: rest := front
  have keeps : Moved (marked.decoderPlayFinished current.urlId).soundDetailsPop ended .keep := by
    split at drained
    · obtain rfl := Option.some.inj drained
      exact Moved.refl _
    · exact drainLoop_keeps drained
  have same : Moved state marked .keep := Moved.of_same rfl rfl rfl rfl
  exact same.after_keep (finished_releases tracks keeps _)

/-- After the region is unlocked the track goes on, or has come to its end. -/
theorem unlocked_spoken {env : DsoundEnv} {state next : OutputPlugin DsoundDevice}
    {played : SoundDetails} {rest : List SoundDetails} {totalWrittenBytes : Int}
    (front : state.soundDetailsQueue = played :: rest)
    (reached : OutputPluginDsound.unlocked env played totalWrittenBytes state = some next) :
    ∃ change, (change = .keep ∨ change = .release) ∧ Moved state next change := by
  rw [OutputPluginDsound.unlocked] at reached
  simp only [Option.map_eq_some_iff] at reached
  obtain ⟨ended, finished, rfl⟩ := reached
  have reported : Moved state ({ state with
      device := OutputPluginDsound.moveWriteOffset state.device totalWrittenBytes }.callProgress
        played) .keep := reported_keeps rfl rfl rfl rfl played
  split at finished
  · have tracks : ({ state with
        device := OutputPluginDsound.moveWriteOffset state.device totalWrittenBytes }.callProgress
          played).soundDetailsQueue = played :: rest := front
    have released := dsound_finish_releases tracks finished
    exact ⟨.release, Or.inr rfl, (reported.after_keep released).then_keep (stopped_keeps ended)⟩
  · obtain rfl := Option.some.inj finished
    exact ⟨.keep, Or.inl rfl, reported.then_keep (stopped_keeps _)⟩

/-- A turn of `play` with data locks a region, or gives up where there is none. -/
theorem dsound_data_spoken (env : DsoundEnv) : DataSpoken (OutputPluginDsound.playData env) := by
  intro current rest address state next front played
  rw [OutputPluginDsound.playData] at played
  simp only at played
  split at played
  · obtain rfl := Option.some.inj played
    exact ⟨.keep, Or.inl rfl, Moved.refl state⟩
  · simp only [Option.bind_eq_some_iff] at played
    obtain ⟨first, _, second, _, copied⟩ := played
    generalize current.bytesToSamples (first.1.length + second.1.length) = samples at copied
    have urlId : (current.addSamples samples).urlId = current.urlId := rfl
    have pointer : (current.addSamples samples).currentCacheBuffer =
        current.currentCacheBuffer := rfl
    obtain ⟨kept, tracks⟩ := written_keeps front urlId pointer address second.2
    split at copied
    · obtain ⟨change, spoken, moved⟩ := unlocked_spoken tracks copied
      exact ⟨change, spoken, kept.after_keep moved⟩
    · obtain rfl := Option.some.inj copied
      exact ⟨.keep, Or.inl rfl, kept⟩

/-- What is done when `play` is left keeps the tracks. -/
theorem scopeExit_keeps (state : OutputPlugin DsoundDevice) :
    Moved state (OutputPluginDsound.scopeExit state) .keep := by
  rw [OutputPluginDsound.scopeExit]
  split
  · exact Moved.refl state
  · have given := giveCacheBufBack_keeps state state.prevSoundDetails.urlId
    exact given.then_keep (Moved.of_same rfl rfl rfl rfl)

/-- What is accounted for stays so when the ledger is kept afterwards. -/
theorem Accounted.then_keep {before middle after : OutputPlugin Device} {joins : List Int}
    {silent : Bool} (first : Accounted before middle joins silent)
    (second : Moved middle after .keep) : Accounted before after joins silent := by
  obtain ⟨change, moved, joined, exact⟩ := first
  exact ⟨change, moved.then_keep second, joined, exact⟩

/-- And so all that DirectSound adds is of this kind. -/
theorem dsound_spoken : Spoken OutputPluginDsound.virtuals dsoundStarves where
  init := initDsound_keeps
  play := by
    intro env state next buffered played
    simp only [OutputPluginDsound.virtuals, OutputPluginDsound.play] at played
    by_cases idle : state.currentState ≠ .play ∨ env.timerActive = true
    · rw [if_pos idle] at played
      obtain rfl := Option.some.inj played
      have calm : dsoundStarves state env = false := by
        rcases idle with stopped | active
        · simp [dsoundStarves, stopped]
        · simp [dsoundStarves, active]
      rw [calm]
      exact accounted_spoken (Moved.refl state) (by simp)
    · rw [if_neg idle, Option.map_eq_some_iff] at played
      obtain ⟨reached, front, rfl⟩ := played
      have runs : state.currentState = .play ∧ env.timerActive = false := by simpa using idle
      have same : dsoundStarves state env =
          starves (OutputPluginDsound.initDsound env) env.arrivals state := by
        simp [dsoundStarves, runs.1, runs.2]
      rw [same]
      exact (playFront_accounted (initDsound_keeps env) (dsound_data_spoken env) buffered
        front).then_keep (scopeExit_keeps reached)
  stop := by
    intro state
    have told := report_all (fun reached _ => Moved.refl reached) state.soundDetailsQueue
      { state with initApi := false }
    have same : Moved state { state with initApi := false } .keep := Moved.of_same rfl rfl rfl rfl
    exact same.after_keep (stop_releases told.1)

/-! ## Runs -/

/-- Every url id was reported as often as a track with it has left the queue. -/
def ReportedOnce (state : OutputPlugin Device) : Prop :=
  ∀ urlId, (calls state.events).count urlId = state.removed.count urlId

/-- In every run of jobs the reports are those of the removed tracks, by induction on the jobs. -/
theorem run_reports {virtuals : OutputPluginVirtuals Device Env}
    {starving : OutputPlugin Device → Env → Bool} (spoken : Spoken virtuals starving)
    {start finish : OutputPlugin Device} {jobs : List (OutputJob Env)} (fresh : Fresh start)
    (ran : LabelledRuns.run (OutputPlugin.step virtuals) start jobs = some finish) :
    finish.removed ++ finish.soundDetailsQueue.map (·.urlId) = jobs.flatMap added ∧
      (ReportedOnce finish ↔ LabelledRuns.Meets (OutputPlugin.step virtuals)
        (fun state job => ¬ starvingJob starving state job = true) start jobs) := by
  obtain ⟨tracks, pool, events, removed⟩ := fresh
  have buffered : Buffered start := by
    constructor
    · rw [tracks]
      intro soundDets member
      cases member
    · rw [pool]
      exact CacheManage.make_noNull 0
  have empty : ledger start = ⟨[], [], []⟩ := by
    simp [ledger, tracks, events, removed, calls]
  have keeps := step_keeps spoken
  constructor
  · have order := run_order keeps buffered ran
    rw [empty] at order
    exact order
  · have before : (ledger start).announced = (ledger start).left := by rw [empty]
    exact run_announcedOnce_iff keeps buffered before ran

/-- The output plugins of the player. -/
inductive OutputKind where
  | alsa
  | dsound

namespace OutputKind

/-- The state of the device of a plugin. -/
abbrev DeviceState : OutputKind → Type
  | .alsa => AlsaDevice
  | .dsound => DsoundDevice

/-- What a device answers while a job of the plugin runs. -/
abbrev Answers : OutputKind → Type
  | .alsa => AlsaEnv
  | .dsound => DsoundEnv

def step : (kind : OutputKind) → OutputPlugin kind.DeviceState → OutputJob kind.Answers →
    Option (OutputPlugin kind.DeviceState)
  | .alsa => OutputPluginAlsa.step
  | .dsound => OutputPluginDsound.step

/-- `play` runs, and its front track waits in vain. -/
def starves : (kind : OutputKind) → OutputPlugin kind.DeviceState → kind.Answers → Bool
  | .alsa => alsaStarves
  | .dsound => dsoundStarves

end OutputKind

/-- In every run of either plugin the tracks leave in the order in which they
were added, and each one that has left has been reported to the decoder once
exactly when no `play` waited in vain for its front track's data. -/
theorem reported_once (kind : OutputKind) {start finish : OutputPlugin kind.DeviceState}
    {jobs : List (OutputJob kind.Answers)} (fresh : Fresh start)
    (ran : LabelledRuns.run kind.step start jobs = some finish) :
    finish.removed ++ finish.soundDetailsQueue.map (·.urlId) = jobs.flatMap added ∧
      (ReportedOnce finish ↔ LabelledRuns.Meets kind.step
        (fun state job => ¬ starvingJob kind.starves state job = true) start jobs) := by
  cases kind with
  | alsa => exact run_reports alsa_spoken fresh ran
  | dsound => exact run_reports dsound_spoken fresh ran

/-- A plugin with small buffers and no track. -/
def newPlugin (device : Device) : OutputPlugin Device where
  soundDetailsQueue := []
  prevSoundDetails := .default
  initApi := false
  currentState := .stop
  useDuration := false
  maxMemorySizePerFile := 8
  maxChunkReadSize := 4
  cacheBufMgr := .make 0
  buffers := fun _ => CacheBuffer.make 8 4 0 0
  allocated := 0
  device := device
  events := []
  removed := []

/-- A track of two samples of one byte. -/
def shortTrack : SoundDetails := ⟨true, 2, 0, 1, 44100, false, 8, 7, none⟩

def alsaDevice : AlsaDevice := ⟨true, false, false, 0⟩

/-- The device takes the two samples that the decoder may have written. -/
def alsaEnv : AlsaEnv := ⟨false, some 4, true, true, [], 2, 2⟩

def dsoundDevice : DsoundDevice := ⟨false, false, false, 0, 0, 1⟩

def dsoundEnv : DsoundEnv where
  timerActive := false
  directSoundCreate := true
  setCooperativeLevel := true
  createPrimaryBuffer := true
  createSecondaryBuffer := true
  queryInterface := true
  getCaps := some 8
  arrivals := []
  playOffset := 2
  lock := fun _ bytes => some (bytes, none)
  unlock := true
  playOffsetAtEnd := 2
  drain := []

/-- The track is played to its end. -/
def playedJobs (env : Env) : List (OutputJob Env) :=
  [.addSoundDetails shortTrack 0 0, .cont env, .decoderWrite 0 ([1, 2], true), .play env]

/-- The decoder writes nothing for two seconds. -/
def starvedJobs (env : Env) : List (OutputJob Env) :=
  [.addSoundDetails shortTrack 0 0, .cont env, .play env]

/-- One track that is played to its end by each of the two plugins is reported once. -/
theorem reported_once_played :
    (∃ finish, LabelledRuns.run OutputPluginAlsa.step (newPlugin alsaDevice) (playedJobs alsaEnv) =
      some finish ∧ finish.removed = [7] ∧ ReportedOnce finish) ∧
    (∃ finish, LabelledRuns.run OutputPluginDsound.step (newPlugin dsoundDevice)
      (playedJobs dsoundEnv) = some finish ∧ finish.removed = [7] ∧ ReportedOnce finish) := by
  constructor
  · have played : ∃ finish, LabelledRuns.run OutputPluginAlsa.step (newPlugin alsaDevice)
        (playedJobs alsaEnv) = some finish ∧ finish.removed = [7] := ⟨_, rfl, rfl⟩
    obtain ⟨finish, ran, removed⟩ := played
    have fresh : Fresh (newPlugin alsaDevice) := ⟨rfl, rfl, rfl, rfl⟩
    have once := reported_once .alsa fresh ran
    exact ⟨finish, ran, removed, once.2.mpr (by decide)⟩
  · have played : ∃ finish, LabelledRuns.run OutputPluginDsound.step (newPlugin dsoundDevice)
        (playedJobs dsoundEnv) = some finish ∧ finish.removed = [7] := ⟨_, rfl, rfl⟩
    obtain ⟨finish, ran, removed⟩ := played
    have fresh : Fresh (newPlugin dsoundDevice) := ⟨rfl, rfl, rfl, rfl⟩
    have once := reported_once .dsound fresh ran
    exact ⟨finish, ran, removed, once.2.mpr (by decide)⟩

/-- The wait for a decoder that writes nothing removes the track, and the decoder
is never told. -/
theorem starved_unreported :
    (∃ finish, LabelledRuns.run OutputPluginAlsa.step (newPlugin alsaDevice)
      (starvedJobs alsaEnv) = some finish ∧ finish.removed = [7] ∧ ¬ ReportedOnce finish) ∧
    (∃ finish, LabelledRuns.run OutputPluginDsound.step (newPlugin dsoundDevice)
      (starvedJobs dsoundEnv) = some finish ∧ finish.removed = [7] ∧ ¬ ReportedOnce finish) := by
  constructor
  · refine ⟨_, rfl, rfl, ?_⟩
    intro once
    exact absurd (once 7) (by decide)
  · refine ⟨_, rfl, rfl, ?_⟩
    intro once
    exact absurd (once 7) (by decide)

end Mprt.PlayRelease
