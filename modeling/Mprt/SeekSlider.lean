import Mprt.FinishIsolation
import Mprt.JobEffects
import Mprt.PlaylistAgreement

/-!
# The progress bar and its seeks

When the mouse is released the progress bar asks for a seek, and shows no progress until it is
told that a seek has finished. The request is a job of the playlist plugin, which hands it to the
decoder manager. The answer of the manager is a job of the plugin again, and then a call that the
bar handles.

A request can be lost on its way: there may be no tab, nothing may have been played yet, or the
playlist may be gone by then. Nobody answers it. When another seek is under way its answer frees
the bar, and otherwise the bar is blocked for good.
-/

namespace Mprt

/-- `song_progress_widget`, a slider. Durations and positions are in milliseconds. -/
structure SongProgressWidget where
  currentPlaylistId : Int
  currentPlaylistItemId : Int
  isSeekBlock : Bool
  mousePressed : Bool
  seekPosition : Int
  minimum : Int
  maximum : Int
  sliderPosition : Int
deriving DecidableEq

namespace SongProgressWidget

/-- `init`, with the range of a new slider. The position of a seek is not initialised. -/
def init (seekPosition : Int) : SongProgressWidget where
  currentPlaylistId := invalidPlaylistId
  currentPlaylistItemId := invalidPlaylistItemId
  isSeekBlock := false
  mousePressed := false
  seekPosition := seekPosition
  minimum := 0
  maximum := 99
  sliderPosition := 0

def setSliderPosition (widget : SongProgressWidget) (pos : Int) : SongProgressWidget :=
  { widget with sliderPosition := max widget.minimum (min pos widget.maximum) }

/-- The range stays one, and the handle stays in it. -/
def setMaximum (widget : SongProgressWidget) (maximum : Int) : SongProgressWidget :=
  { widget with
    minimum := min widget.minimum maximum
    maximum := maximum }.setSliderPosition widget.sliderPosition

/-- The cast to a 32-bit number. -/
def toInt (value : Int) : Int := value.bmod (2 ^ 32)

/-- `progress`, with what the view of the playlist says about the duration of the item. -/
def progress (widget : SongProgressWidget) (playlistId playlistItemId positionMs durationMs : Int) :
    Bool × SongProgressWidget :=
  let changedItem := playlistId != widget.currentPlaylistId ||
    playlistItemId != widget.currentPlaylistItemId
  let current :=
    if changedItem then
      { widget with
        currentPlaylistId := playlistId
        currentPlaylistItemId := playlistItemId }.setMaximum (toInt durationMs)
    else widget
  if !current.isSeekBlock && !current.mousePressed then
    let pos := toInt positionMs
    let ranged := if pos > current.maximum then current.setMaximum pos else current
    (changedItem, ranged.setSliderPosition pos)
  else (changedItem, current)

/-- A report of the progress moves the bar unless the slider is held, and never lets go of it. -/
theorem progress_isSeekBlock (widget : SongProgressWidget)
    (playlistId playlistItemId positionMs durationMs : Int) :
    (widget.progress playlistId playlistItemId positionMs durationMs).2.isSeekBlock =
      widget.isSeekBlock := by
  have ranged : ∀ (current : SongProgressWidget) (pos : Int),
      ((if pos > current.maximum then current.setMaximum pos else current).setSliderPosition
        pos).isSeekBlock = current.isSeekBlock := by
    intro current pos
    split <;> rfl
  simp only [progress]
  split <;> split
  · exact ranged _ _
  · rfl
  · exact ranged _ _
  · rfl

def seekFinished (widget : SongProgressWidget) : SongProgressWidget :=
  { widget with isSeekBlock := false }.setSliderPosition widget.seekPosition

/-- The slider's own handling of a mouse event leaves the handle somewhere. -/
def mousePressEvent (widget : SongProgressWidget) (pos : Int)
    (handled : SongProgressWidget → Int) : SongProgressWidget :=
  let moved := { widget with mousePressed := true }.setSliderPosition pos
  { moved with sliderPosition := handled moved }

def mouseMoveEvent (widget : SongProgressWidget) (pos : Int)
    (handled : SongProgressWidget → Int) : SongProgressWidget :=
  let moved := widget.setSliderPosition pos
  { moved with sliderPosition := handled moved }

/-- `mouseReleaseEvent` with `seek_to`: the seek is asked for, and then the bar is blocked. -/
def mouseReleaseEvent (widget : SongProgressWidget) (pos : Int)
    (handled : SongProgressWidget → Int) : SongProgressWidget :=
  let moved := { widget with mousePressed := false, seekPosition := pos }.setSliderPosition pos
  { moved with sliderPosition := handled moved, isSeekBlock := true }

/-- `get_current_play_ids` of the tab widget, with the playlist of its current tab. -/
def getCurrentPlayIds (widget : SongProgressWidget) (currentTab : Option Int) : Int × Int :=
  match currentTab with
  | none => (invalidPlaylistId, invalidPlaylistItemId)
  | some playlistId => (playlistId, widget.currentPlaylistItemId)

end SongProgressWidget

namespace SeekSlider

open PlaylistManagement (Job)

/-- Requests and answers among the jobs of the plugin. -/
def isSeek : Job → Bool
  | .seekDuration _ _ _ | .seekFinished => true
  | _ => false

/-- The request that the plugin makes of the decoder manager. -/
def seekOf : Event → Option (Int × Int)
  | .seekDuration urlId durationMs => some (urlId, durationMs)
  | _ => none

def isSeekFinishedCb : Event → Bool
  | .seekFinishedCb => true
  | _ => false

/-- The plugin with its posted jobs, the decoder manager with the seeks it has to do, and the bar
with the number of callbacks that its thread has handled. -/
structure SeekWindow where
  core : PlaylistManagement
  jobs : List Job
  decoders : DecoderPluginsManager
  seeks : List (Int × Int)
  widget : SongProgressWidget
  handled : Nat

inductive Action where
  | mousePress (pos : Int) (handled : SongProgressWidget → Int)
  | mouseMove (pos : Int) (handled : SongProgressWidget → Int)
  | mouseRelease (pos : Int) (handled : SongProgressWidget → Int) (currentTab : Option Int)
  | post (job : Job)
  | runJob
  | decode (job : DecoderPluginsManager.Job)
  | seek (frames : List (Int × List UInt8)) (env : DecodeEnv)
  | receive (durationMs : Int)

/-- `seek_duration` of the tab widget and of the plugin, which posts a job for valid ids. -/
def seekJobs (ids : Int × Int) (durationMs : Int) : List Job :=
  if ids.1 ≠ invalidPlaylistId ∧ ids.2 ≠ invalidPlaylistItemId then
    [.seekDuration ids.1 ids.2 durationMs]
  else []

/-- A callback of the plugin in the thread of the bar. -/
def receive (widget : SongProgressWidget) (durationMs : Int) : Event → SongProgressWidget
  | .seekFinishedCb => widget.seekFinished
  | .progressPlaylistItemCb playlistId playlistItemId positionMs =>
      (widget.progress playlistId playlistItemId positionMs durationMs).2
  | _ => widget

def step (window : SeekWindow) : Action → Option SeekWindow
  | .mousePress pos handled =>
      some { window with widget := window.widget.mousePressEvent pos handled }
  | .mouseMove pos handled =>
      some { window with widget := window.widget.mouseMoveEvent pos handled }
  | .mouseRelease pos handled currentTab =>
      some { window with
        jobs := window.jobs ++ seekJobs (window.widget.getCurrentPlayIds currentTab) pos
        widget := window.widget.mouseReleaseEvent pos handled }
  | .post job =>
      -- seeks come from the bar, and their answers from the decoder manager
      if isSeek job then none else some { window with jobs := window.jobs ++ [job] }
  | .runJob =>
      match window.jobs with
      | [] => none
      | job :: rest =>
          (window.core.step job).map (fun core =>
            { window with
              core := core
              jobs := rest
              seeks := window.seeks ++
                (core.events.drop window.core.events.length).filterMap seekOf })
  | .decode job =>
      match job with
      | .seekDuration _ _ _ _ => none
      | other => (window.decoders.step other).map (fun decoders =>
          { window with decoders := decoders })
  | .seek frames env =>
      match window.seeks with
      | [] => none
      | (urlId, durationMs) :: rest =>
          (window.decoders.seekDuration urlId durationMs frames env).map (fun decoders =>
            { window with
              decoders := decoders
              seeks := rest
              jobs := window.jobs ++ [.seekFinished] })
  | .receive durationMs =>
      (window.core.events[window.handled]?).map (fun event =>
        { window with
          widget := receive window.widget durationMs event
          handled := window.handled + 1 })

/-- The seeks between a request and its answer at the bar. -/
def SeekWindow.underWay (window : SeekWindow) : Nat :=
  window.jobs.countP isSeek + window.seeks.length +
    (window.core.events.drop window.handled).countP isSeekFinishedCb

/-- The bar is blocked for a seek. -/
def Live (window : SeekWindow) : Prop := window.widget.isSeekBlock = true → 0 < window.underWay

/-- The plugin does not find what a request is about. -/
def Lost (core : PlaylistManagement) (playlistId playlistItemId : Int) : Prop :=
  playlistId = invalidPlaylistId ∨ playlistItemId = invalidPlaylistItemId ∨
    core.playlistList.lookup playlistId = none

instance (core : PlaylistManagement) (playlistId playlistItemId : Int) :
    Decidable (Lost core playlistId playlistItemId) :=
  have := decidable_of_iff _ (Option.isNone_iff_eq_none (o := core.playlistList.lookup playlistId))
  inferInstanceAs (Decidable (_ ∨ _ ∨ _))

/-- A request that gets lost is not the only seek under way. -/
def Answered (window : SeekWindow) : Action → Prop
  | .mouseRelease pos _ currentTab =>
      seekJobs (window.widget.getCurrentPlayIds currentTab) pos = [] → 0 < window.underWay
  | .runJob =>
      match window.jobs with
      | .seekDuration playlistId playlistItemId _ :: _ =>
          Lost window.core playlistId playlistItemId → window.widget.isSeekBlock = true →
            1 < window.underWay
      | _ => True
  | _ => True

instance (window : SeekWindow) (action : Action) : Decidable (Answered window action) := by
  unfold Answered
  split
  · infer_instance
  · split <;> infer_instance
  · infer_instance

section Events

variable {before middle after : PlaylistManagement}

/-- Neither a request nor an answer of a seek. -/
def concernsSeek (event : Event) : Bool := (seekOf event).isSome || isSeekFinishedCb event

/-- Events are recorded, and none of them concerns a seek. -/
def NoSeek (before after : PlaylistManagement) : Prop :=
  ∃ new, after.events = before.events ++ new ∧ ∀ event ∈ new, concernsSeek event = false

/-- Without callbacks there is no answer to a seek. -/
theorem NoSeek.of_events (events : after.events = before.events) : NoSeek before after :=
  ⟨[], by rw [events, List.append_nil], fun _ member => absurd member List.not_mem_nil⟩

/-- Two parts of a job that answer no seek answer none together. -/
theorem NoSeek.trans (first : NoSeek before middle) (second : NoSeek middle after) :
    NoSeek before after := by
  obtain ⟨early, eventsEarly, others⟩ := first
  obtain ⟨late, eventsLate, further⟩ := second
  refine ⟨early ++ late, by rw [eventsLate, eventsEarly, List.append_assoc], fun event member => ?_⟩
  rcases List.mem_append.mp member with inEarly | inLate
  · exact others event inEarly
  · exact further event inLate

/-- Further callbacks may follow that are not about seeks. -/
theorem NoSeek.emit (noSeek : NoSeek before after) {events : List Event}
    (others : events.any concernsSeek = false) : NoSeek before (after.emit events) :=
  noSeek.trans ⟨events, rfl, fun event member =>
    Bool.eq_false_iff.mpr (List.any_eq_false.mp others event member)⟩

/-- A call of another plugin is no answer to a seek. -/
theorem concernsSeek_of_isCall {event : Event}
    (call : PlaylistManagement.isCall event = true) : concernsSeek event = false := by
  cases event <;> first | rfl | cases call

/-- Playing an item answers no seek and asks for none. -/
theorem playing_noSeek (path : PlaylistManagement.Playing before after) : NoSeek before after := by
  induction path with
  | tells told _ progress =>
    exact ⟨_, told.events, fun event member => concernsSeek_of_isCall
      (PlaylistManagement.isCall_of_progress (progress event member))⟩
  | plays found there =>
    exact ⟨_, PlaylistManagement.playItem_events _ _ _ _,
      by simp [concernsSeek, seekOf, isSeekFinishedCb]⟩
  | trans _ _ first second => exact first.trans second

/-- Only a request and an answer concern a seek. -/
theorem step_noSeek {job : Job} (stepped : before.step job = some after)
    (other : isSeek job = false) : NoSeek before after := by
  cases PlaylistManagement.step_effect stepped with
  | plays _ told calls path =>
    have called : NoSeek before _ :=
      ⟨_, told.events, fun event member => concernsSeek_of_isCall (calls event member)⟩
    exact called.trans (playing_noSeek path)
  | asksSeek | answersSeek => cases other
  | addsItems _ found =>
    refine NoSeek.emit (.of_events rfl) ?_
    rw [PlaylistManagement.called]
    split <;> rfl
  | movesItem | removesItem | renames | removesPlaylist => exact NoSeek.emit (.of_events rfl) rfl
  | missesItem => exact .of_events rfl
  | addsPlaylist => exact ⟨[_, _], rfl, by simp [concernsSeek, seekOf, isSeekFinishedCb]⟩

end Events

section Steps

variable {window next : SeekWindow} {action : Action}

/-- What the bar, which has handled callbacks that were made, can still hope for. -/
structure Invariant (window : SeekWindow) : Prop where
  inside : window.handled ≤ window.core.events.length
  live : Live window

/-- A job that concerns no seek leaves those under way. -/
theorem runOther_underWay {job : Job} {rest : List Job} {core : PlaylistManagement}
    (inside : window.handled ≤ window.core.events.length) (queued : window.jobs = job :: rest)
    (other : isSeek job = false) (ran : window.core.step job = some core) :
    window.handled ≤ core.events.length ∧
      SeekWindow.underWay { window with
        core := core
        jobs := rest
        seeks := window.seeks ++
          (core.events.drop window.core.events.length).filterMap seekOf } = window.underWay := by
  obtain ⟨new, events, others⟩ := step_noSeek ran other
  have requests : new.filterMap seekOf = [] := by
    refine List.filterMap_eq_nil_iff.mpr (fun event member => ?_)
    have neither := others event member
    rw [concernsSeek, Bool.or_eq_false_iff] at neither
    exact Option.not_isSome_iff_eq_none.mp (Bool.eq_false_iff.mp neither.1)
  have answers : new.countP isSeekFinishedCb = 0 := by
    refine List.countP_eq_zero.mpr (fun event member => ?_)
    have neither := others event member
    rw [concernsSeek, Bool.or_eq_false_iff] at neither
    exact Bool.eq_false_iff.mp neither.2
  constructor
  · rw [events, List.length_append]
    omega
  · simp only [SeekWindow.underWay, queued, List.countP_cons, other, events, List.drop_left,
      requests, List.append_nil, List.drop_append_of_le_length inside, List.countP_append, answers]
    simp

/-- A request is handed on, or it is lost and nothing happens. -/
theorem seekDuration_cases {core after : PlaylistManagement}
    {playlistId playlistItemId durationMs : Int}
    (ran : core.step (.seekDuration playlistId playlistItemId durationMs) = some after) :
    Lost core playlistId playlistItemId ∧ after = core ∨
      ¬ Lost core playlistId playlistItemId ∧
        ∃ urlId, after = core.emit [.seekDuration urlId durationMs] := by
  simp only [PlaylistManagement.step] at ran
  split at ran
  · rename_i valid
    rw [PlaylistManagement.seekDurationInternal] at ran
    split at ran
    · rename_i missing
      exact .inl ⟨.inr (.inr missing), (Option.some.inj ran).symm⟩
    · rename_i list found
      obtain ⟨item, _, rfl⟩ := Option.map_eq_some_iff.mp ran
      refine .inr ⟨?_, item.urlId, rfl⟩
      rintro (noList | noItem | missing)
      · exact valid.1 noList
      · exact valid.2 noItem
      · cases found.symm.trans missing
  · rename_i invalid
    refine .inl ⟨?_, (Option.some.inj ran).symm⟩
    by_cases noList : playlistId = invalidPlaylistId
    · exact .inl noList
    · exact .inr (.inl (not_not.mp (fun noItem => invalid ⟨noList, noItem⟩)))

/-- A seek that is run is passed on and stays under way, or it is for an item that does not play,
and one less is under way. -/
theorem runSeek_underWay {playlistId playlistItemId durationMs : Int} {rest : List Job}
    {core : PlaylistManagement} (inside : window.handled ≤ window.core.events.length)
    (queued : window.jobs = .seekDuration playlistId playlistItemId durationMs :: rest)
    (ran : window.core.step (.seekDuration playlistId playlistItemId durationMs) = some core) :
    window.handled ≤ core.events.length ∧
      SeekWindow.underWay { window with
        core := core
        jobs := rest
        seeks := window.seeks ++ (core.events.drop window.core.events.length).filterMap seekOf } =
        if Lost window.core playlistId playlistItemId then window.underWay - 1
        else window.underWay := by
  rcases seekDuration_cases ran with ⟨lost, rfl⟩ | ⟨found, urlId, rfl⟩
  · rw [if_pos lost]
    refine ⟨inside, ?_⟩
    simp only [SeekWindow.underWay, queued, List.countP_cons, isSeek, List.drop_length,
      List.filterMap_nil, List.append_nil]
    simp
    omega
  · rw [if_neg found]
    constructor
    · simp only [PlaylistManagement.emit, List.length_append]
      omega
    · simp only [SeekWindow.underWay, queued, List.countP_cons, isSeek, PlaylistManagement.emit,
        List.drop_left, List.drop_append_of_le_length inside, List.countP_append]
      simp [seekOf, isSeekFinishedCb]
      omega

/-- The answer of the decoder manager becomes a callback. -/
theorem answer_live (rest : List Job) (inside : window.handled ≤ window.core.events.length) :
    window.handled ≤ (window.core.emit [.seekFinishedCb]).events.length ∧
      Live { window with
        core := window.core.emit [.seekFinishedCb]
        jobs := rest
        seeks := window.seeks ++ ((window.core.emit [.seekFinishedCb]).events.drop
          window.core.events.length).filterMap seekOf } := by
  constructor
  · simp only [PlaylistManagement.emit, List.length_append]
    omega
  · intro _
    simp only [SeekWindow.underWay, PlaylistManagement.emit, List.drop_append_of_le_length inside,
      List.countP_append]
    have answer : [Event.seekFinishedCb].countP isSeekFinishedCb = 1 := rfl
    rw [answer]
    omega

/-- Only the answer to a seek frees the bar, and no callback blocks it. -/
theorem receive_isSeekBlock (widget : SongProgressWidget) (durationMs : Int) {event : Event}
    (other : isSeekFinishedCb event = false) :
    (receive widget durationMs event).isSeekBlock = widget.isSeekBlock := by
  cases event with
  | seekFinishedCb => cases other
  | progressPlaylistItemCb playlistId playlistItemId positionMs =>
    exact widget.progress_isSeekBlock _ _ _ _
  | _ => rfl

/-- The job that `seek_duration` posts asks for a seek. -/
theorem seekJobs_isSeek {playIds : Int × Int} {pos : Int} {job : Job} {rest : List Job}
    (requested : seekJobs playIds pos = job :: rest) : isSeek job = true := by
  rw [seekJobs] at requested
  split at requested
  · obtain ⟨rfl, _⟩ := List.cons.inj requested
    rfl
  · cases requested

/-- A callback that leaves the bar blocked was no answer, and those under way are left. -/
theorem receive_live (live : Live window) (durationMs : Int) {event : Event}
    (made : window.core.events[window.handled]? = some event) :
    Live { window with
      widget := receive window.widget durationMs event
      handled := window.handled + 1 } := by
  obtain ⟨below, at_event⟩ := List.getElem?_eq_some_iff.mp made
  intro blocked
  simp only at blocked
  have other : isSeekFinishedCb event = false := by
    cases event with
    | seekFinishedCb => cases blocked
    | _ => rfl
  have before := live ((receive_isSeekBlock window.widget durationMs other).symm.trans blocked)
  rw [SeekWindow.underWay, List.drop_eq_getElem_cons below, at_event, List.countP_cons, other]
    at before
  simpa [SeekWindow.underWay] using before

/-- A job of the plugin leaves the bar without hope only when it loses the last request. -/
theorem runJob_exact {job : Job} {rest : List Job} {core : PlaylistManagement}
    (invariant : Invariant window) (queued : window.jobs = job :: rest)
    (ran : window.core.step job = some core) :
    window.handled ≤ core.events.length ∧
      (Live { window with
        core := core
        jobs := rest
        seeks := window.seeks ++ (core.events.drop window.core.events.length).filterMap seekOf } ↔
      Answered window .runJob) := by
  obtain ⟨inside, live⟩ := invariant
  cases concerns : isSeek job with
  | false =>
    obtain ⟨insideThen, same⟩ := runOther_underWay inside queued concerns ran
    refine ⟨insideThen, iff_of_true (fun blocked => same ▸ live blocked) ?_⟩
    simp only [Answered, queued]
    cases job with
    | seekDuration => cases concerns
    | _ => trivial
  | true =>
    cases job with
    | seekDuration playlistId playlistItemId durationMs =>
      obtain ⟨insideThen, fewer⟩ := runSeek_underWay inside queued ran
      refine ⟨insideThen, ?_⟩
      simp only [Live, Answered, queued]
      rw [fewer]
      by_cases lost : Lost window.core playlistId playlistItemId
      · rw [if_pos lost]
        simp only [lost, forall_const]
        exact imp_congr_right (fun _ => by omega)
      · rw [if_neg lost]
        simp only [lost, false_implies, iff_true]
        exact live
    | seekFinished =>
      obtain rfl := Option.some.inj ran
      simp only [Answered, queued, iff_true]
      exact answer_live rest inside
    | _ => cases concerns

/-- After a step the bar can hope for an answer if and only if no request was lost that was the
only one under way. -/
theorem step_exact (invariant : Invariant window) (stepped : step window action = some next) :
    next.handled ≤ next.core.events.length ∧ (Live next ↔ Answered window action) := by
  obtain ⟨inside, live⟩ := invariant
  cases action with
  | mousePress pos handled | mouseMove pos handled =>
    obtain rfl := Option.some.inj stepped
    exact ⟨inside, iff_of_true live trivial⟩
  | mouseRelease pos handled currentTab =>
    obtain rfl := Option.some.inj stepped
    refine ⟨inside, ?_⟩
    simp only [Live, Answered, SeekWindow.underWay, SongProgressWidget.mouseReleaseEvent,
      forall_const, List.countP_append]
    cases requested : seekJobs (window.widget.getCurrentPlayIds currentTab) pos with
    | nil => simp
    | cons job rest =>
      have request := seekJobs_isSeek requested
      simp only [List.countP_cons, request, if_true, reduceCtorEq, false_implies, iff_true]
      omega
  | post job =>
    simp only [step] at stepped
    split at stepped
    · cases stepped
    · rename_i other
      obtain rfl := Option.some.inj stepped
      refine ⟨inside, iff_of_true ?_ trivial⟩
      simpa [Live, SeekWindow.underWay, other] using live
  | runJob =>
    simp only [step] at stepped
    split at stepped
    · cases stepped
    · rename_i job rest queued
      obtain ⟨core, ran, rfl⟩ := Option.map_eq_some_iff.mp stepped
      exact runJob_exact ⟨inside, live⟩ queued ran
  | decode job =>
    simp only [step] at stepped
    split at stepped
    · cases stepped
    · obtain ⟨decoders, _, rfl⟩ := Option.map_eq_some_iff.mp stepped
      exact ⟨inside, iff_of_true live trivial⟩
  | seek frames env =>
    simp only [step] at stepped
    split at stepped
    · cases stepped
    · rename_i urlId durationMs rest queued
      obtain ⟨decoders, _, rfl⟩ := Option.map_eq_some_iff.mp stepped
      refine ⟨inside, iff_of_true ?_ trivial⟩
      intro _
      have answer : [Job.seekFinished].countP isSeek = 1 := rfl
      simp only [SeekWindow.underWay, List.countP_append, answer]
      omega
  | receive durationMs =>
    obtain ⟨event, made, rfl⟩ := Option.map_eq_some_iff.mp stepped
    exact ⟨(List.getElem?_eq_some_iff.mp made).1,
      iff_of_true (receive_live live durationMs made) trivial⟩

end Steps

/-- A new plugin and a new bar, with a decoder manager in any state. -/
def start (uninitialised : PlaylistManagement.Uninitialised) (minWaitNextSong : Int)
    (decoders : DecoderPluginsManager)
    (seekPosition : Int) : SeekWindow where
  core := .new uninitialised minWaitNextSong
  jobs := []
  decoders := decoders
  seeks := []
  widget := .init seekPosition
  handled := 0

/-- In every run, whatever threads run in between: a blocked bar has a seek under way after every
step, if and only if each request that is lost has another seek under way beside it. -/
theorem blocked_has_seek (uninitialised : PlaylistManagement.Uninitialised) (minWaitNextSong : Int)
    (decoders : DecoderPluginsManager) (seekPosition : Int) (actions : List Action)
    (finish : SeekWindow)
    (ran : LabelledRuns.run step (start uninitialised minWaitNextSong decoders seekPosition)
      actions = some finish) :
    LabelledRuns.Along step (fun _ _ next => Live next)
        (start uninitialised minWaitNextSong decoders seekPosition) actions ↔
      LabelledRuns.Meets step Answered
        (start uninitialised minWaitNextSong decoders seekPosition) actions := by
  have beginning : Invariant (start uninitialised minWaitNextSong decoders seekPosition) :=
    ⟨Nat.le_refl 0, fun blocked => by cases blocked⟩
  refine LabelledRuns.along_iff_meets ?_ ?_ beginning ran
  · exact fun _ _ _ invariant stepped => (step_exact invariant stepped).2
  · exact fun _ _ _ invariant stepped live => ⟨(step_exact invariant stepped).1, live⟩

/-- An item is added to a new playlist and played, and the bar learns of it. -/
def playing : List Action :=
  [.post (.addPlaylist PlaylistAgreement.titledFiles "" none),
    .post (.addPlaylistItems PlaylistAgreement.titledFiles 0 (-1) (some ["a"])),
    .post (.startPlay 0 0), .post (.progress 1 500), .runJob, .runJob, .runJob, .runJob,
    .receive 60000, .receive 60000, .receive 60000, .receive 60000, .receive 60000,
    .receive 60000, .receive 60000]

/-- A seek in the playlist is answered. When the playlist is removed before the request is run, it
is lost, and the bar is blocked without a seek. -/
theorem blocked_has_seek_removed :
    LabelledRuns.Along step (fun _ _ next => Live next)
        (start ⟨.stop, -1, -1⟩ 10000 FinishIsolation.newManager 0)
        (playing ++ [.mouseRelease 300 (·.sliderPosition) (some 0), .runJob,
          .seek [] ⟨false, [], false, .silent⟩, .runJob, .receive 0]) ∧
      ¬ LabelledRuns.Along step (fun _ _ next => Live next)
        (start ⟨.stop, -1, -1⟩ 10000 FinishIsolation.newManager 0)
        (playing ++ [.post (.removePlaylist 0), .mouseRelease 300 (·.sliderPosition) (some 0),
          .runJob, .runJob]) := by
  constructor
  · refine (blocked_has_seek ⟨.stop, -1, -1⟩ 10000 FinishIsolation.newManager 0 _ _ rfl).mpr ?_
    decide
  · intro live
    have answered :=
      (blocked_has_seek ⟨.stop, -1, -1⟩ 10000 FinishIsolation.newManager 0 _ _ rfl).mp live
    exact absurd answered (by decide)

end SeekSlider

end Mprt
