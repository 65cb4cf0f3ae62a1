import Mprt.LabelledRuns
import Mprt.FinishIsolation
import Mprt.PlaylistAgreement
import Mprt.SeekSamples
import Mathlib.Data.List.Nodup

/-!
# A seek in a given track

A listener seeks in an item of a playlist. The playlist plugin looks up the url id
of the item and posts a seek to the decoder plugins manager, whose job brings the
track with that url id to the front of its list and repositions whatever is at the
front then.

So the job does what it is asked for exactly when its track can be brought to the
front: it is in the list, or it is finished under its own url id and not in the list
behind the front as well, and its plugin moves its open decoder. The FFmpeg plugin
does not pass on a time that is not inside the file, the beginning among them, and the
job goes on with the counter and the outputs all the same. A url id that is found
nowhere leaves the list as it is, and the track that happens to be at the front is
repositioned; only with an empty list nothing happens. A request for an item that
its playlist does not have uses a null pointer.
-/

namespace Mprt.TrackSeek

open DecoderPluginsManager

/-- A call of `seek_duration` of a decoder plugin: the decoder of the front track, where
a track that is not open has a null one, the time, and whether the decoder has been
moved there. -/
structure SeekCall where
  decoder : Option Nat
  durationMs : Int
  moved : Bool
deriving DecidableEq

/-- What the libraries answer in a seek: the FLAC library; and the FFmpeg library, with
the duration of the file in milliseconds, rounded up, and the result of its seek. -/
structure LibrarySeek where
  flac : SeekSamples.FlacSeekEnv
  fileDurationMs : Int
  result : Int

/-- The playlist plugin and the manager, with the seeks posted between them. As
history, the seeks made in decoders, and whether a null item has been used. -/
structure State where
  playlists : PlaylistManagement
  manager : DecoderPluginsManager
  posted : List (Int × Int)
  seeks : List SeekCall
  nullUsed : Bool

/-- A job of the playlist plugin, a job of the manager, or the next posted seek. -/
inductive Action where
  | playlist (job : PlaylistManagement.Job)
  | job (job : DecoderPluginsManager.Job)
  | seekDuration (frames : List (Int × List UInt8)) (env : DecodeEnv) (library : LibrarySeek)

/-- The url ids of the list, from the front on. -/
def urlIds (manager : DecoderPluginsManager) : List Int :=
  manager.decoderDetailList.map (fun address => (manager.details address).urlId)

/-- The decoder of a track in the pool of its plugin, or a null pointer. -/
def decoderOf (manager : DecoderPluginsManager) (address : Nat) : Option Nat :=
  (manager.plugins (manager.details address).currentDecoderPlugin).decoders.getFromCache
    (manager.details address).urlId

/-- The seeks that a job of the playlist plugin has posted. -/
def postedSeeks (events : List Event) : List (Int × Int) :=
  events.filterMap (fun event =>
    match event with
    | .seekDuration urlId durationMs => some (urlId, durationMs)
    | _ => none)

/-- `decoder_plugin_ffmpeg::seek_duration`: whether it moves the decoder. Only a time
inside the file is passed to the library. -/
def ffmpegSeekDuration (decoder : Option Nat) (library : LibrarySeek) (durationMs : Int) : Bool :=
  match decoder with
  | none => false
  | some _ =>
      if 0 < durationMs ∧ durationMs < library.fileDurationMs then decide (0 ≤ library.result)
      else false

/-- `decoder_plugin_flac::seek_duration`: whether it moves the decoder. A null decoder is
passed to the library too. -/
def flacSeekDuration (decoder : Option Nat) (library : LibrarySeek) (soundDets : SoundDetails)
    (durationMs : Int) : Bool :=
  decoder.isSome && (SeekSamples.seekDuration library.flac soundDets durationMs).2

/-- The call of `seek_duration` of the plugin of a track. -/
def seekCall (manager : DecoderPluginsManager) (library : LibrarySeek) (seekDurationMs : Int)
    (address : Nat) : SeekCall where
  decoder := decoderOf manager address
  durationMs := seekDurationMs
  moved :=
    if (manager.plugins (manager.details address).currentDecoderPlugin).seeksInside then
      ffmpegSeekDuration (decoderOf manager address) library seekDurationMs
    else
      flacSeekDuration (decoderOf manager address) library (manager.details address).soundDetails
        seekDurationMs

/-- The seek in the decoder of the front track. -/
def seekCalls (manager : DecoderPluginsManager) (library : LibrarySeek) (seekDurationMs : Int) :
    List SeekCall :=
  match manager.decoderDetailList with
  | [] => []
  | front :: _ => [seekCall manager library seekDurationMs front]

def step (state : State) : Action → Option State
  | .playlist job =>
      match state.playlists.step job with
      | none => some { state with nullUsed := true }
      | some next => some { state with
          playlists := next
          posted := state.posted ++ postedSeeks (next.events.drop state.playlists.events.length) }
  | .job (.seekDuration _ _ _ _) => none
  | .job job => (state.manager.step job).map (fun next => { state with manager := next })
  | .seekDuration frames env library =>
      match state.posted with
      | [] => none
      | (urlId, seekDurationMs) :: rest =>
          (state.manager.seekDuration urlId seekDurationMs frames env).map (fun next =>
            { state with
              manager := next
              posted := rest
              seeks := state.seeks ++
                seekCalls (state.manager.bringToFront urlId) library seekDurationMs })

/-- Before the first job of the manager; the playlists may be any. -/
def start (playlists : PlaylistManagement) (manager : DecoderPluginsManager) : State :=
  ⟨playlists, manager, [], [], false⟩

/-- What has been asked of output plugins. -/
def outputRequests (events : List ManagerEvent) : List ManagerEvent :=
  events.filter (fun event =>
    match event with
    | .output _ _ => true
    | _ => false)

/-- The requests of a seek to each output plugin. -/
def seekRequests (manager : DecoderPluginsManager) (urlId seekDurationMs : Int) :
    List ManagerEvent :=
  manager.outputPluginList.flatMap (fun outputPlugin =>
    [.output outputPlugin .pausePlay,
      .output outputPlugin (.clearPlayData urlId),
      .output outputPlugin .fillDrain,
      .output outputPlugin (.setSeekDurationMs urlId seekDurationMs),
      .output outputPlugin .resumeClearPlay])

/-- The url id is neither in the list nor in the map. -/
def Unknown (manager : DecoderPluginsManager) (urlId : Int) : Prop :=
  manager.finishedDecoderDetailList.lookup urlId = none ∧ urlId ∉ urlIds manager

/-- The list, all tracks, all buffers, all outputs and all decoders are as before. -/
structure Untouched (before after : State) : Prop where
  list : after.manager.decoderDetailList = before.manager.decoderDetailList
  details : after.manager.details = before.manager.details
  buffers : after.manager.buffers = before.manager.buffers
  requests : outputRequests after.manager.events = outputRequests before.manager.events
  seeks : after.seeks = before.seeks

/-- A track of the url id is at the front, before the others in their old order. Its
decoder has been moved and its counter set, before decoding went on; the outputs
were asked about its url id; other tracks and buffers are as before. -/
structure Repositioned (urlId seekDurationMs : Int) (frames : List (Int × List UInt8))
    (env : DecodeEnv) (address : Nat) (before after : State) : Prop where
  own : (before.manager.details address).urlId = urlId
  list : after.manager.decoderDetailList = address ::
    before.manager.decoderDetailList.filter (fun other =>
      (before.manager.details other).urlId ≠ urlId)
  decoder : ∃ decoder, decoderOf before.manager address = some decoder ∧
    after.seeks = before.seeks ++ [⟨some decoder, seekDurationMs, true⟩]
  counter : ∃ sought,
    (before.manager.bringToFront urlId).seekFront address seekDurationMs frames = some sought ∧
      (sought.details address).currentSamplesWritten =
        (before.manager.details address).soundDetails.timeDurationToSamples
          (seekDurationMs * 1000) ∧
      (sought.decodeCont env).map (·.emit [.decoderSeekFinished]) = some after.manager
  others : ∀ other, other ≠ address →
    after.manager.details other = before.manager.details other
  buffers : ∀ buffer, buffer ∉ (before.manager.details address).outputBufList →
    after.manager.buffers buffer = before.manager.buffers buffer
  plugins : after.manager.plugins = before.manager.plugins
  requests : outputRequests after.manager.events =
    outputRequests before.manager.events ++ seekRequests before.manager urlId seekDurationMs

/-- A seek touches nothing for an unknown url id, and repositions the track of a
known one. -/
def Targeted (urlId seekDurationMs : Int) (frames : List (Int × List UInt8)) (env : DecodeEnv)
    (before after : State) : Prop :=
  (Unknown before.manager urlId → Untouched before after) ∧
    (¬ Unknown before.manager urlId →
      ∃ address, Repositioned urlId seekDurationMs frames env address before after)

/-- After each action no url id is in the list twice and no null item has been used,
and a seek has found its target. -/
def Aimed (before : State) (action : Action) (after : State) : Prop :=
  (urlIds after.manager).Nodup ∧ after.nullUsed = false ∧
    match action with
    | .seekDuration frames env _ =>
      ∀ target ∈ before.posted.head?, Targeted target.1 target.2 frames env before after
    | _ => True

/-- A FLAC library seeks at once, or after an error of seeking and a flush. A seek of the
FFmpeg plugin is to a time inside the file, after its beginning, and the library does it. -/
def LibrarySeeks (plugin : DecoderPlugin) (library : LibrarySeek) (seekDurationMs : Int) : Prop :=
  if plugin.seeksInside then
    0 < seekDurationMs ∧ seekDurationMs < library.fileDurationMs ∧ 0 ≤ library.result
  else
    library.flac.seekAbsolute = true ∨
      (library.flac.seekError = true ∧ library.flac.flush = true ∧
        library.flac.seekAbsoluteAgain = true)

instance (plugin : DecoderPlugin) (library : LibrarySeek) (seekDurationMs : Int) :
    Decidable (LibrarySeeks plugin library seekDurationMs) := by
  unfold LibrarySeeks
  infer_instance

/-- The decoder of a track is open, and the library of its plugin does the seek. -/
def Movable (manager : DecoderPluginsManager) (library : LibrarySeek) (seekDurationMs : Int)
    (address : Nat) : Prop :=
  (decoderOf manager address).isSome = true ∧
    LibrarySeeks (manager.plugins (manager.details address).currentDecoderPlugin) library
      seekDurationMs

instance (manager : DecoderPluginsManager) (library : LibrarySeek) (seekDurationMs : Int)
    (address : Nat) : Decidable (Movable manager library seekDurationMs address) :=
  inferInstanceAs (Decidable (_ ∧ _))

/-- The track of the url id can be brought to the front, where its decoder can be moved,
or there is none and the list is empty. -/
def Seekable (manager : DecoderPluginsManager) (library : LibrarySeek)
    (urlId seekDurationMs : Int) : Prop :=
  match manager.finishedDecoderDetailList.lookup urlId with
  | some finished =>
    if manager.decoderDetailList.head?.map (fun front => (manager.details front).urlId) =
        some urlId then
      ∀ front ∈ manager.decoderDetailList.head?, Movable manager library seekDurationMs front
    else
      (manager.details finished).urlId = urlId ∧ urlId ∉ urlIds manager ∧
        Movable manager library seekDurationMs finished
  | none =>
    match manager.decoderDetailList.find? (fun address =>
        (manager.details address).urlId = urlId) with
    | some found => Movable manager library seekDurationMs found
    | none => manager.decoderDetailList = []

/-- The item of a seek exists when its playlist does, a track is added under a url
id that is not in the list, and a posted seek is for a seekable url id. -/
def Findable (state : State) : Action → Prop
  | .playlist (.seekDuration playlistId playlistItemId _) =>
      playlistId ≠ invalidPlaylistId ∧ playlistItemId ≠ invalidPlaylistItemId →
        state.playlists.OnPlaylist playlistId (fun list =>
          (list.getPlaylistItemWithItemId playlistItemId).isSome = true)
  | .playlist _ => True
  | .job (.addInputUrlJob _ urlId) => urlId ∉ urlIds state.manager
  | .job _ => True
  | .seekDuration _ _ library => ∀ target ∈ state.posted.head?,
      Seekable state.manager library target.1 target.2

/-- The decoding that a seek goes on with does not reach the end of the track. -/
def GoesOn (state : State) : Action → Prop
  | .seekDuration _ env _ =>
      env.endOfStream = false ∨ state.manager.currentState ≠ .play ∨ env.timerActive = true
  | _ => True

/-! ## What one track's seek changes -/

/-- Besides one track and some buffers only the requests to output plugins change. -/
structure OnlyTrack (front : Nat) (outputs : List Nat) (requests : List ManagerEvent)
    (before after : DecoderPluginsManager) : Prop where
  list : after.decoderDetailList = before.decoderDetailList
  plugins : after.plugins = before.plugins
  outputPlugins : after.outputPluginList = before.outputPluginList
  playing : after.currentState = before.currentState
  requested : outputRequests after.events = outputRequests before.events ++ requests
  others : ∀ other, other ≠ front → after.details other = before.details other
  counted : ∃ written,
    after.details front = { before.details front with currentSamplesWritten := written }
  buffers : ∀ buffer, buffer ∉ outputs → after.buffers buffer = before.buffers buffer

namespace OnlyTrack

variable {front : Nat} {outputs : List Nat} {requests later : List ManagerEvent}
  {before middle after : DecoderPluginsManager}

theorem refl (state : DecoderPluginsManager) : OnlyTrack front outputs [] state state :=
  ⟨rfl, rfl, rfl, rfl, (List.append_nil _).symm, fun _ _ => rfl, ⟨_, rfl⟩, fun _ _ => rfl⟩

theorem trans (first : OnlyTrack front outputs requests before middle)
    (second : OnlyTrack front outputs later middle after) :
    OnlyTrack front outputs (requests ++ later) before after := by
  obtain ⟨written, counted⟩ := first.counted
  obtain ⟨rewritten, recounted⟩ := second.counted
  constructor
  · exact second.list.trans first.list
  · exact second.plugins.trans first.plugins
  · exact second.outputPlugins.trans first.outputPlugins
  · exact second.playing.trans first.playing
  · rw [second.requested, first.requested, List.append_assoc]
  · exact fun other different =>
      (second.others other different).trans (first.others other different)
  · exact ⟨rewritten, by rw [recounted, counted]⟩
  · exact fun buffer outside => (second.buffers buffer outside).trans (first.buffers buffer outside)

/-- The buffers of the track stay its own. -/
theorem outputBufList (only : OnlyTrack front outputs requests before after) :
    (after.details front).outputBufList = (before.details front).outputBufList := by
  obtain ⟨written, counted⟩ := only.counted
  rw [counted]

/-- What the listener is told of the format of the front track is as before, since only its
counter is set. -/
theorem soundDetails (only : OnlyTrack front outputs requests before after) :
    (after.details front).soundDetails = (before.details front).soundDetails := by
  obtain ⟨written, counted⟩ := only.counted
  rw [counted]

/-- Every track keeps its url id. -/
theorem urlId (only : OnlyTrack front outputs requests before after) (address : Nat) :
    (after.details address).urlId = (before.details address).urlId := by
  by_cases same : address = front
  · rw [same]
    exact congrArg SoundDetails.urlId only.soundDetails
  · rw [only.others address same]

end OnlyTrack

/-- A new count of the track's samples. -/
theorem setCounter_only (front : Nat) (outputs : List Nat) (state : DecoderPluginsManager)
    (written : Int) : OnlyTrack front outputs [] state (state.setDetails front
      { state.details front with currentSamplesWritten := written }) := by
  refine ⟨rfl, rfl, rfl, rfl, (List.append_nil _).symm, ?_, ⟨written, ?_⟩, fun _ _ => rfl⟩
  · intro other different
    simp [setDetails, different]
  · simp [setDetails]

/-- A change of one of the buffers. -/
theorem modifyBuffer_only (front : Nat) {outputs : List Nat} (state : DecoderPluginsManager)
    (change : CacheBuffer → CacheBuffer) {address : Nat} (member : address ∈ outputs) :
    OnlyTrack front outputs [] state (state.modifyBuffer change address) := by
  refine ⟨rfl, rfl, rfl, rfl, (List.append_nil _).symm, fun _ _ => rfl, ⟨_, rfl⟩, ?_⟩
  intro buffer outside
  have different : buffer ≠ address := by
    rintro rfl
    exact outside member
  simp [modifyBuffer, different]

/-- Changes of the buffers one after another leave all others. -/
theorem modifyBuffers_outside (change : CacheBuffer → CacheBuffer) (addresses : List Nat)
    (state : DecoderPluginsManager) {buffer : Nat} (outside : buffer ∉ addresses) :
    (state.modifyBuffers change addresses).buffers buffer = state.buffers buffer := by
  induction addresses generalizing state with
  | nil => rfl
  | cons address rest inductionHypothesis =>
    obtain ⟨different, later⟩ := not_or.mp (List.mem_cons.not.mp outside)
    have followed := inductionHypothesis (state.modifyBuffer change address) later
    have kept : (state.modifyBuffer change address).buffers buffer = state.buffers buffer := by
      simp [modifyBuffer, different]
    exact followed.trans kept

/-- Clearing the output buffers of the track touches no other buffer. -/
theorem modifyBuffers_only (front : Nat) (state : DecoderPluginsManager)
    (change : CacheBuffer → CacheBuffer) {addresses outputs : List Nat}
    (among : ∀ address ∈ addresses, address ∈ outputs) :
    OnlyTrack front outputs [] state (state.modifyBuffers change addresses) := by
  refine ⟨rfl, rfl, rfl, rfl, (List.append_nil _).symm, fun _ _ => rfl, ⟨_, rfl⟩, ?_⟩
  intro buffer outside
  exact modifyBuffers_outside change addresses state (fun member => outside (among buffer member))

/-- A frame goes into the buffers given. The induction is on the buffers to go. -/
theorem writeFrames_only {front : Nat} {countsPerBuffer : Bool} {samples : Int}
    {bytes : List UInt8} {outputs addresses : List Nat} {state after : DecoderPluginsManager}
    (among : ∀ address ∈ addresses, address ∈ outputs)
    (written : writeFrames front countsPerBuffer samples bytes addresses state = some after) :
    OnlyTrack front outputs [] state after := by
  induction addresses generalizing state with
  | nil =>
    obtain rfl := Option.some.inj written
    exact OnlyTrack.refl state
  | cons address rest inductionHypothesis =>
    simp only [writeFrames, Option.bind_eq_some_iff] at written
    obtain ⟨buffer, _, following⟩ := written
    have later := inductionHypothesis
      (fun other member => among other (List.mem_cons_of_mem address member)) following
    have counted := setCounter_only front outputs state
      ((state.details front).currentSamplesWritten + if countsPerBuffer then samples else 0)
    have stored := modifyBuffer_only front
      (state.setDetails front { state.details front with
        currentSamplesWritten := (state.details front).currentSamplesWritten +
          if countsPerBuffer then samples else 0 })
      (fun _ => buffer) (among address List.mem_cons_self)
    exact counted.trans (stored.trans later)

/-- The frames of a library go into the buffers of the track. -/
theorem decodeFrames_only {front : Nat} {frames : List (Int × List UInt8)} {outputs : List Nat}
    {state after : DecoderPluginsManager} (own : (state.details front).outputBufList = outputs)
    (decoded : decodeFrames front frames state = some after) :
    OnlyTrack front outputs [] state after := by
  induction frames generalizing state with
  | nil =>
    obtain rfl := Option.some.inj decoded
    exact OnlyTrack.refl state
  | cons frame rest inductionHypothesis =>
    obtain ⟨samples, bytes⟩ := frame
    simp only [decodeFrames, Option.bind_eq_some_iff] at decoded
    obtain ⟨middle, written, following⟩ := decoded
    have counted := setCounter_only front outputs state
      ((state.details front).currentSamplesWritten +
        if (state.plugins (state.details front).currentDecoderPlugin).countsPerBuffer then 0
        else samples)
    have stored := writeFrames_only (fun address member => own ▸ member) written
    have reached := counted.trans stored
    exact reached.trans (inductionHypothesis (reached.outputBufList.trans own) following)

/-- Decoding that does not reach the end of the track goes into its buffers. -/
theorem decodeCont_only {state after : DecoderPluginsManager} {front : Nat} {rest : List Nat}
    {env : DecodeEnv} (tracks : state.decoderDetailList = front :: rest)
    (goesOn : env.endOfStream = false ∨ state.currentState ≠ .play ∨ env.timerActive = true)
    (decoded : state.decodeCont env = some after) :
    OnlyTrack front (state.details front).outputBufList [] state after := by
  simp only [decodeCont, tracks] at decoded
  split at decoded
  · obtain rfl := Option.some.inj decoded
    exact OnlyTrack.refl state
  · rename_i runs
    obtain ⟨playing, idle, _⟩ := not_or.mp runs |>.imp id not_or.mp
    have continues : env.endOfStream = false := by
      rcases goesOn with continues | stopped | active
      · exact continues
      · exact absurd (not_not.mp playing) stopped
      · exact absurd active idle
    simp only [Option.map_eq_some_iff] at decoded
    obtain ⟨middle, frames, rfl⟩ := decoded
    have filled : OnlyTrack front (state.details front).outputBufList [] state middle := by
      unfold decode at frames
      simp only at frames
      split at frames
      · obtain rfl := Option.some.inj frames
        exact OnlyTrack.refl state
      · simp only [continues, Bool.false_eq_true, if_false, Option.bind_fun_some] at frames
        exact decodeFrames_only rfl frames
    split
    · exact filled
    · refine ⟨filled.list, filled.plugins, filled.outputPlugins, filled.playing, ?_, filled.others,
        filled.counted, filled.buffers⟩
      have posted : outputRequests (middle.emit [.decodeContPosted]).events =
          outputRequests middle.events := by
        simp [emit, outputRequests, List.filter_append]
      exact posted.trans filled.requested

/-- The seek of the front track: its counter, its buffers and the requests for it. -/
theorem seekFront_only {state sought : DecoderPluginsManager} {front : Nat}
    {seekDurationMs : Int} {frames : List (Int × List UInt8)}
    (moved : state.seekFront front seekDurationMs frames = some sought) :
    OnlyTrack front (state.details front).outputBufList
        (seekRequests state (state.details front).urlId seekDurationMs) state sought ∧
      (sought.details front).currentSamplesWritten =
        (state.details front).soundDetails.timeDurationToSamples (seekDurationMs * 1000) := by
  simp only [seekFront, Option.map_eq_some_iff] at moved
  obtain ⟨decoded, written, rfl⟩ := moved
  have filled := decodeFrames_only rfl written
  have counted := setCounter_only front (state.details front).outputBufList decoded
    ((decoded.details front).soundDetails.timeDurationToSamples (seekDurationMs * 1000))
  have reached := filled.trans (counted.trans (modifyBuffers_only front _ CacheBuffer.clearCache
    (fun address member => filled.outputBufList ▸ member)))
  have urlId : (decoded.details front).urlId = (state.details front).urlId :=
    congrArg SoundDetails.urlId filled.soundDetails
  have requests : seekRequests decoded (decoded.details front).urlId seekDurationMs =
      seekRequests state (state.details front).urlId seekDurationMs := by
    rw [seekRequests, seekRequests, filled.outputPlugins, urlId]
  rw [← requests]
  refine ⟨⟨reached.list, reached.plugins, reached.outputPlugins, reached.playing, ?_,
    reached.others, reached.counted, reached.buffers⟩, ?_⟩
  · have asked : ∀ events : List ManagerEvent, outputRequests (events ++
        seekRequests decoded (decoded.details front).urlId seekDurationMs) =
          outputRequests events ++
            seekRequests decoded (decoded.details front).urlId seekDurationMs := by
      intro events
      rw [outputRequests, List.filter_append]
      congr 1
      rw [List.filter_eq_self]
      intro request member
      obtain ⟨outputPlugin, _, among⟩ := List.mem_flatMap.mp member
      simp only [List.mem_cons, List.not_mem_nil, or_false] at among
      rcases among with rfl | rfl | rfl | rfl | rfl <;> rfl
    have before := filled.requested
    rw [List.append_nil] at before
    rw [← before]
    exact asked decoded.events
  · simp [emit, modifyBuffers, setDetails, filled.soundDetails]

/-! ## The list of tracks -/

/-- Bringing a track to the front changes the list alone. -/
theorem bringToFront_list (state : DecoderPluginsManager) (urlId : Int) :
    state.bringToFront urlId =
      { state with decoderDetailList := (state.bringToFront urlId).decoderDetailList } := by
  unfold bringToFront
  split
  · split <;> rfl
  · split <;> rfl

/-- In a list with different keys an element is erased by its key. -/
theorem erase_eq_filter_key {Item Key : Type} [DecidableEq Item] [DecidableEq Key]
    {key : Item → Key} {items : List Item} (distinct : (items.map key).Nodup) {item : Item}
    (member : item ∈ items) :
    items.erase item = items.filter (fun other => key other ≠ key item) := by
  rw [(List.Nodup.of_map key distinct).erase_eq_filter]
  apply List.filter_congr
  intro other otherMember
  by_cases same : other = item
  · simp [same]
  · have different : key other ≠ key item := fun keys =>
      same (List.inj_on_of_nodup_map distinct otherMember member keys)
    simp [same, different]

/-- A suffix of the list with the same url ids. -/
structure Shrunk (before after : DecoderPluginsManager) : Prop where
  list : after.decoderDetailList <:+ before.decoderDetailList
  urlIds : ∀ address, (after.details address).urlId = (before.details address).urlId

namespace Shrunk

variable {before middle after : DecoderPluginsManager}

/-- What keeps the tracks of the list shrinks nothing. -/
theorem of_same (same : FinishIsolation.SameTracks before after) : Shrunk before after :=
  ⟨same.list ▸ List.suffix_refl _, same.urlIds⟩

theorem trans (first : Shrunk before middle) (second : Shrunk middle after) :
    Shrunk before after :=
  ⟨second.list.trans first.list,
    fun address => (second.urlIds address).trans (first.urlIds address)⟩

/-- The url ids of a shrunk list are those of its tracks before. -/
theorem urlIds_suffix (shrunk : Shrunk before after) :
    TrackSeek.urlIds after <:+ TrackSeek.urlIds before := by
  rw [TrackSeek.urlIds, List.map_congr_left (fun address _ => shrunk.urlIds address)]
  exact shrunk.list.map _

end Shrunk

/-- Finishing the first track takes it out of the list, and so no url id comes to be there twice. -/
theorem finish_shrunk {state after : DecoderPluginsManager} {urlId : Int} {result : OpenResult}
    (finished : state.finishDecodeInternalSingle urlId result = some after) :
    Shrunk state after := by
  obtain ⟨front, rest, tracks, list, _, _, urlIds, _⟩ := FinishIsolation.finish_effect finished
  refine ⟨?_, urlIds⟩
  rw [list, tracks]
  exact List.suffix_cons front rest

/-- Decoding may finish the first track, and does not list any. -/
theorem decodeCont_shrunk {state after : DecoderPluginsManager} {env : DecodeEnv}
    (decoded : state.decodeCont env = some after) : Shrunk state after := by
  rw [decodeCont] at decoded
  split at decoded
  · obtain rfl := Option.some.inj decoded
    exact Shrunk.of_same (.refl state)
  · simp only at decoded
    split at decoded
    · obtain rfl := Option.some.inj decoded
      exact Shrunk.of_same (.refl state)
    · simp only [Option.map_eq_some_iff] at decoded
      obtain ⟨middle, frames, rfl⟩ := decoded
      have shrunk : Shrunk state middle := by
        unfold decode at frames
        simp only at frames
        split at frames
        · obtain rfl := Option.some.inj frames
          exact Shrunk.of_same (.refl state)
        · simp only [Option.bind_eq_some_iff] at frames
          obtain ⟨filled, written, ends⟩ := frames
          have same := Shrunk.of_same (FinishIsolation.decodeFrames_same written)
          split at ends
          · exact same.trans (finish_shrunk ends)
          · exact Option.some.inj ends ▸ same
      split
      · exact shrunk
      · exact ⟨shrunk.list, shrunk.urlIds⟩

/-- Neither does it to go on. -/
theorem contInternal_shrunk {state after : DecoderPluginsManager} {result : OpenResult}
    {env : DecodeEnv} (continued : state.contInternal result env = some after) :
    Shrunk state after := by
  rw [contInternal] at continued
  split at continued
  · obtain rfl := Option.some.inj continued
    exact ⟨List.suffix_refl _, fun _ => rfl⟩
  · exact (Shrunk.of_same (FinishIsolation.initDecode_effect state result).1).trans
      (decodeCont_shrunk continued)

/-- What is released is no longer in the list. -/
theorem releaseFinished_shrunk (state : DecoderPluginsManager) (index : Nat) (urlId : Int)
    (finished : Nat) : Shrunk state (state.releaseFinished index urlId finished) := by
  by_cases own : (state.details finished).urlId = urlId
  · obtain ⟨list, _, _, details⟩ := FinishIsolation.releaseFinished_effect state index urlId own
    exact ⟨list ▸ List.suffix_refl _, fun _ => by rw [details]⟩
  · rw [FinishIsolation.releaseFinished_other state index urlId own]
    exact Shrunk.of_same (.refl state)

/-- A report of a played track may finish the first one in its place, which shrinks the list too. -/
theorem playFinished_shrunk {state after : DecoderPluginsManager} {index : Nat} {urlId : Int}
    {result : OpenResult} (played : state.playFinished index urlId result = some after) :
    Shrunk state after := by
  rw [playFinished] at played
  split at played
  · obtain rfl := Option.some.inj played
    exact releaseFinished_shrunk state index urlId _
  · simp only [Option.map_eq_some_iff] at played
    obtain ⟨ended, finished, rfl⟩ := played
    have shrunk := finish_shrunk finished
    split
    · exact shrunk.trans (releaseFinished_shrunk ended index urlId _)
    · exact shrunk

/-- A track that is added comes last. -/
theorem addInputUrl_urlIds {state after : DecoderPluginsManager} {urlExt : String} {urlId : Int}
    (owned : FinishIsolation.Owned state)
    (added : state.addInputUrlJobInternal urlExt urlId = some after) :
    urlIds after = urlIds state ++ [urlId] := by
  rw [addInputUrlJobInternal] at added
  simp only [Option.map_eq_some_iff] at added
  obtain ⟨index, _, added⟩ := added
  obtain ⟨same, _⟩ := FinishIsolation.getCachePutBuf_same (state.pushBackDetails
    { CurrentDecoderDetails.opened urlExt urlId with currentDecoderPlugin := index }) index urlId
  have pushed : urlIds (state.pushBackDetails
      { CurrentDecoderDetails.opened urlExt urlId with currentDecoderPlugin := index }) =
        urlIds state ++ [urlId] := by
    simp only [urlIds, pushBackDetails, List.map_append, List.map_singleton]
    congr 1
    · apply List.map_congr_left
      intro address member
      have old : address ≠ state.nextDetails := Nat.ne_of_lt (owned.1 address member)
      simp [setDetails, old]
    · simp [setDetails, CurrentDecoderDetails.opened, CurrentDecoderDetails.urlId]
  have got := (Shrunk.of_same same).urlIds
  generalize (state.pushBackDetails _).getCachePutBuf index urlId = reached at *
  have ids : urlIds reached.2 = urlIds state ++ [urlId] := by
    rw [← pushed, urlIds, urlIds, same.list]
    exact List.map_congr_left (fun address _ => got address)
  split at added
  · exact added ▸ ids
  · exact added ▸ ids

/-! ## The seek -/

/-- What is brought to the front, in the four cases of the code. -/
theorem bringToFront_cases (state : DecoderPluginsManager) (urlId : Int) :
    (∃ finished, state.finishedDecoderDetailList.lookup urlId = some finished ∧
      state.decoderDetailList.head?.map (fun front => (state.details front).urlId) = some urlId ∧
      (state.bringToFront urlId).decoderDetailList = state.decoderDetailList) ∨
    (∃ finished, state.finishedDecoderDetailList.lookup urlId = some finished ∧
      state.decoderDetailList.head?.map (fun front => (state.details front).urlId) ≠ some urlId ∧
      (state.bringToFront urlId).decoderDetailList = finished :: state.decoderDetailList) ∨
    (∃ found, state.finishedDecoderDetailList.lookup urlId = none ∧
      state.decoderDetailList.find? (fun address => (state.details address).urlId = urlId) =
        some found ∧
      (state.bringToFront urlId).decoderDetailList =
        found :: state.decoderDetailList.erase found) ∨
    (state.finishedDecoderDetailList.lookup urlId = none ∧
      state.decoderDetailList.find? (fun address => (state.details address).urlId = urlId) = none ∧
      (state.bringToFront urlId).decoderDetailList = state.decoderDetailList) := by
  unfold bringToFront
  split
  · rename_i finished known
    split
    · rename_i front
      exact .inl ⟨finished, known, front, rfl⟩
    · rename_i behind
      exact .inr (.inl ⟨finished, known, behind, rfl⟩)
  · rename_i missing
    split
    · rename_i nowhere
      exact .inr (.inr (.inr ⟨missing, nowhere, rfl⟩))
    · rename_i found listed
      exact .inr (.inr (.inl ⟨found, missing, listed, rfl⟩))

/-- The seek in the decoder of the track that is brought to the front. -/
theorem seekCalls_brought {state : DecoderPluginsManager} {urlId : Int} {front : Nat}
    {rest : List Nat} (brought : (state.bringToFront urlId).decoderDetailList = front :: rest)
    (library : LibrarySeek) (seekDurationMs : Int) :
    seekCalls (state.bringToFront urlId) library seekDurationMs =
      [seekCall state library seekDurationMs front] := by
  have same := bringToFront_list state urlId
  rw [seekCalls, brought]
  simp only
  rw [same]
  rfl

/-- The FLAC library has done a seek at the first or at the second call. -/
theorem flacSeekDuration_iff (decoder : Option Nat) (library : LibrarySeek)
    (soundDets : SoundDetails) (durationMs : Int) :
    flacSeekDuration decoder library soundDets durationMs = true ↔
      decoder.isSome = true ∧ (library.flac.seekAbsolute = true ∨
        (library.flac.seekError = true ∧ library.flac.flush = true ∧
          library.flac.seekAbsoluteAgain = true)) := by
  rw [flacSeekDuration, SeekSamples.seekDuration, Bool.and_eq_true]
  apply and_congr_right
  intro _
  cases library.flac.seekAbsolute <;> cases library.flac.seekError <;>
    cases library.flac.flush <;> simp

/-- The FFmpeg library is called for a time inside the file of an open decoder. -/
theorem ffmpegSeekDuration_iff (decoder : Option Nat) (library : LibrarySeek)
    (durationMs : Int) : ffmpegSeekDuration decoder library durationMs = true ↔
      decoder.isSome = true ∧
        (0 < durationMs ∧ durationMs < library.fileDurationMs ∧ 0 ≤ library.result) := by
  cases decoder with
  | none => simp [ffmpegSeekDuration]
  | some address => simp [ffmpegSeekDuration, and_assoc]

/-- A plugin moves the decoder exactly when it can be moved. -/
theorem seekCall_moved_iff (state : DecoderPluginsManager) (library : LibrarySeek)
    (seekDurationMs : Int) (address : Nat) :
    (seekCall state library seekDurationMs address).moved = true ↔
      Movable state library seekDurationMs address := by
  rw [seekCall, Movable, LibrarySeeks]
  split
  · exact ffmpegSeekDuration_iff _ library seekDurationMs
  · exact flacSeekDuration_iff _ library _ seekDurationMs

/-- The call for a decoder that can be moved. -/
theorem seekCall_movable {state : DecoderPluginsManager} {library : LibrarySeek}
    {seekDurationMs : Int} {address decoder : Nat}
    (movable : Movable state library seekDurationMs address)
    (held : decoderOf state address = some decoder) :
    seekCall state library seekDurationMs address = ⟨some decoder, seekDurationMs, true⟩ := by
  have moved := (seekCall_moved_iff state library seekDurationMs address).mpr movable
  rw [← held, ← moved]
  rfl

/-- A seek with something at the front repositions it, and decodes on. -/
theorem seekDuration_some {state next : DecoderPluginsManager} {urlId seekDurationMs : Int}
    {frames : List (Int × List UInt8)} {env : DecodeEnv} {front : Nat} {rest : List Nat}
    (brought : (state.bringToFront urlId).decoderDetailList = front :: rest)
    (goesOn : env.endOfStream = false ∨ state.currentState ≠ .play ∨ env.timerActive = true)
    (moved : state.seekDuration urlId seekDurationMs frames env = some next) :
    next.decoderDetailList = front :: rest ∧
      OnlyTrack front (state.details front).outputBufList
        (seekRequests state (state.details front).urlId seekDurationMs)
        (state.bringToFront urlId) next ∧
      ∃ sought, (state.bringToFront urlId).seekFront front seekDurationMs frames = some sought ∧
        (sought.details front).currentSamplesWritten =
          (state.details front).soundDetails.timeDurationToSamples (seekDurationMs * 1000) ∧
        (sought.decodeCont env).map (·.emit [.decoderSeekFinished]) = some next := by
  simp only [seekDuration, brought, Option.map_eq_some_iff, Option.bind_eq_some_iff] at moved
  obtain ⟨decoded, ⟨sought, front_sought, continued⟩, rfl⟩ := moved
  have same := bringToFront_list state urlId
  have details : (state.bringToFront urlId).details = state.details := by rw [same]
  have requests : seekRequests (state.bringToFront urlId) = seekRequests state := by rw [same]; rfl
  have playing : (state.bringToFront urlId).currentState = state.currentState := by rw [same]
  obtain ⟨only, counter⟩ := seekFront_only front_sought
  rw [details] at only counter
  rw [requests] at only
  have tracks : sought.decoderDetailList = front :: rest := only.list.trans brought
  have on := decodeCont_only tracks (by rw [only.playing, playing]; exact goesOn) continued
  have outputs : (sought.details front).outputBufList = (state.details front).outputBufList :=
    only.outputBufList.trans (congrArg (fun held => (held front).outputBufList) details)
  rw [outputs] at on
  have both := only.trans on
  rw [List.append_nil] at both
  refine ⟨both.list.trans brought, ⟨both.list, both.plugins, both.outputPlugins, both.playing, ?_,
    both.others, both.counted, both.buffers⟩, sought, front_sought, counter, ?_⟩
  · have told : outputRequests (decoded.emit [.decoderSeekFinished]).events =
        outputRequests decoded.events := by
      simp [emit, outputRequests, List.filter_append]
    exact told.trans both.requested
  · rw [continued]
    rfl

/-- A seek that does not reach the end of the track, with the calls it made as history. -/
structure Sought (urlId seekDurationMs : Int) (frames : List (Int × List UInt8)) (env : DecodeEnv)
    (library : LibrarySeek) (before after : State) : Prop where
  goesOn : env.endOfStream = false ∨ before.manager.currentState ≠ .play ∨ env.timerActive = true
  moved : before.manager.seekDuration urlId seekDurationMs frames env = some after.manager
  seeks : after.seeks = before.seeks ++
    seekCalls (before.manager.bringToFront urlId) library seekDurationMs

/-- What a posted seek does to the history. -/
theorem seekDuration_taken {before after : State} {frames : List (Int × List UInt8)}
    {env : DecodeEnv} {library : LibrarySeek}
    (taken : step before (.seekDuration frames env library) = some after) :
    ∃ urlId seekDurationMs rest, before.posted = (urlId, seekDurationMs) :: rest ∧
      before.manager.seekDuration urlId seekDurationMs frames env = some after.manager ∧
      after.nullUsed = before.nullUsed ∧ after.seeks = before.seeks ++
        seekCalls (before.manager.bringToFront urlId) library seekDurationMs := by
  simp only [step] at taken
  split at taken
  · simp at taken
  · rename_i urlId seekDurationMs rest posted
    simp only [Option.map_eq_some_iff] at taken
    obtain ⟨next, moved, rfl⟩ := taken
    exact ⟨urlId, seekDurationMs, rest, posted, moved, rfl, rfl⟩

section Sought

variable {before after : State} {urlId seekDurationMs : Int} {frames : List (Int × List UInt8)}
  {env : DecodeEnv} {library : LibrarySeek} {front : Nat} {rest : List Nat}

/-- A seek whose own track is brought to the front, before all others, is right. -/
theorem repositioned (sought : Sought urlId seekDurationMs frames env library before after)
    (brought : (before.manager.bringToFront urlId).decoderDetailList = front :: rest)
    (own : (before.manager.details front).urlId = urlId)
    (behind : rest = before.manager.decoderDetailList.filter (fun other =>
      (before.manager.details other).urlId ≠ urlId))
    (movable : Movable before.manager library seekDurationMs front) :
    Repositioned urlId seekDurationMs frames env front before after := by
  obtain ⟨decoder, held⟩ := Option.isSome_iff_exists.mp movable.1
  obtain ⟨list, only, counter⟩ := seekDuration_some brought sought.goesOn sought.moved
  have same := bringToFront_list before.manager urlId
  rw [own] at only
  constructor
  · exact own
  · rw [list, behind]
  · refine ⟨decoder, held, ?_⟩
    rw [sought.seeks, seekCalls_brought brought, seekCall_movable movable held]
  · exact counter
  · intro other different
    rw [only.others other different, same]
  · intro buffer outside
    rw [only.buffers buffer outside, same]
  · rw [only.plugins, same]
  · rw [only.requested, same]

/-- With an own track at the front whose decoder can be moved the seek is right, and the
list has the url ids that it was brought to. -/
theorem seek_right (sought : Sought urlId seekDurationMs frames env library before after)
    (brought : (before.manager.bringToFront urlId).decoderDetailList = front :: rest)
    (own : (before.manager.details front).urlId = urlId)
    (behind : rest = before.manager.decoderDetailList.filter (fun other =>
      (before.manager.details other).urlId ≠ urlId))
    (distinct : ((front :: rest).map (fun address =>
      (before.manager.details address).urlId)).Nodup)
    (known : ¬ Unknown before.manager urlId)
    (movable : Movable before.manager library seekDurationMs front) :
    (urlIds after.manager).Nodup ∧ Targeted urlId seekDurationMs frames env before after := by
  obtain ⟨list, only, _⟩ := seekDuration_some brought sought.goesOn sought.moved
  constructor
  · have ids : ∀ address,
        (after.manager.details address).urlId = (before.manager.details address).urlId := by
      intro address
      rw [only.urlId address, bringToFront_list]
    rw [urlIds, list, List.map_congr_left (fun address _ => ids address)]
    exact distinct
  · exact ⟨fun unknown => absurd unknown known, fun _ =>
      ⟨front, repositioned sought brought own behind movable⟩⟩

/-- A right seek of a known url id has moved the decoder. -/
theorem targeted_movable (sought : Sought urlId seekDurationMs frames env library before after)
    (brought : (before.manager.bringToFront urlId).decoderDetailList = front :: rest)
    (known : ¬ Unknown before.manager urlId)
    (targeted : Targeted urlId seekDurationMs frames env before after) :
    Movable before.manager library seekDurationMs front := by
  obtain ⟨address, right⟩ := targeted.2 known
  obtain ⟨decoder, _, called⟩ := right.decoder
  rw [sought.seeks, seekCalls_brought brought] at called
  have same := (List.cons.inj (List.append_cancel_left called)).1
  exact (seekCall_moved_iff _ library seekDurationMs front).mp (congrArg SeekCall.moved same)

/-- Where a url id does not occur, all tracks are other ones. -/
theorem filter_others (ids : Nat → Int) {addresses : List Nat} (absent : urlId ∉ addresses.map ids) :
    addresses.filter (fun other => ids other ≠ urlId) = addresses := by
  rw [List.filter_eq_self]
  intro other member
  apply decide_eq_true
  intro same
  exact absent (List.mem_map.mpr ⟨other, member, same⟩)

/-- A finished track that is at the front again. -/
theorem seek_front_iff (sought : Sought urlId seekDurationMs frames env library before after)
    (distinct : (urlIds before.manager).Nodup) {finished : Nat}
    (known : before.manager.finishedDecoderDetailList.lookup urlId = some finished)
    (isFront : before.manager.decoderDetailList.head?.map (fun front =>
      (before.manager.details front).urlId) = some urlId)
    (brought : (before.manager.bringToFront urlId).decoderDetailList =
      before.manager.decoderDetailList) :
    ((urlIds after.manager).Nodup ∧ Targeted urlId seekDurationMs frames env before after) ↔
      Seekable before.manager library urlId seekDurationMs := by
  have there : ¬ Unknown before.manager urlId := by simp [Unknown, known]
  simp only [Seekable, known, isFront, if_true]
  cases tracks : before.manager.decoderDetailList with
  | nil => simp [tracks] at isFront
  | cons front rest =>
    rw [tracks] at brought isFront
    have own : (before.manager.details front).urlId = urlId := by simpa using isFront
    simp only [urlIds, tracks] at distinct
    have absent : urlId ∉ rest.map (fun other => (before.manager.details other).urlId) := by
      rw [← own]
      exact (List.nodup_cons.mp distinct).1
    have others : rest = (front :: rest).filter (fun other =>
        (before.manager.details other).urlId ≠ urlId) := by
      rw [List.filter_cons_of_neg (by simp [own]), filter_others _ absent]
    constructor
    · rintro ⟨_, targeted⟩ head isHead
      obtain rfl := Option.some.inj isHead
      exact targeted_movable sought brought there targeted
    · intro movable
      exact seek_right sought brought own (tracks ▸ others) distinct there (movable front rfl)

/-- A finished track that comes back to the front. -/
theorem seek_finished_iff (sought : Sought urlId seekDurationMs frames env library before after)
    (distinct : (urlIds before.manager).Nodup) {finished : Nat}
    (known : before.manager.finishedDecoderDetailList.lookup urlId = some finished)
    (behind : before.manager.decoderDetailList.head?.map (fun front =>
      (before.manager.details front).urlId) ≠ some urlId)
    (brought : (before.manager.bringToFront urlId).decoderDetailList =
      finished :: before.manager.decoderDetailList) :
    ((urlIds after.manager).Nodup ∧ Targeted urlId seekDurationMs frames env before after) ↔
      Seekable before.manager library urlId seekDurationMs := by
  have there : ¬ Unknown before.manager urlId := by simp [Unknown, known]
  simp only [Seekable, known, behind, if_false]
  constructor
  · rintro ⟨_, targeted⟩
    have movable := targeted_movable sought brought there targeted
    obtain ⟨address, right⟩ := targeted.2 there
    obtain ⟨list, _, _⟩ := seekDuration_some brought sought.goesOn sought.moved
    have same := right.list.symm.trans list
    obtain ⟨rfl, others⟩ := List.cons.inj same
    refine ⟨right.own, ?_, movable⟩
    intro member
    obtain ⟨other, otherMember, otherId⟩ := List.mem_map.mp member
    rw [← others] at otherMember
    exact absurd otherId (of_decide_eq_true (List.mem_filter.mp otherMember).2)
  · rintro ⟨own, absent, movable⟩
    refine seek_right sought brought own (filter_others _ absent).symm ?_ there movable
    rw [List.map_cons, List.nodup_cons, own]
    exact ⟨absent, distinct⟩

/-- A track of the list that moves to the front. -/
theorem seek_listed_iff (sought : Sought urlId seekDurationMs frames env library before after)
    (distinct : (urlIds before.manager).Nodup) {found : Nat}
    (missing : before.manager.finishedDecoderDetailList.lookup urlId = none)
    (listed : before.manager.decoderDetailList.find? (fun address =>
      (before.manager.details address).urlId = urlId) = some found)
    (brought : (before.manager.bringToFront urlId).decoderDetailList =
      found :: before.manager.decoderDetailList.erase found) :
    ((urlIds after.manager).Nodup ∧ Targeted urlId seekDurationMs frames env before after) ↔
      Seekable before.manager library urlId seekDurationMs := by
  have own : (before.manager.details found).urlId = urlId := by
    simpa using List.find?_some listed
  have member := List.mem_of_find?_eq_some listed
  have there : ¬ Unknown before.manager urlId := by
    rintro ⟨_, absent⟩
    exact absent (List.mem_map.mpr ⟨found, member, own⟩)
  simp only [Seekable, missing, listed]
  constructor
  · rintro ⟨_, targeted⟩
    exact targeted_movable sought brought there targeted
  · intro movable
    refine seek_right sought brought own ?_ ?_ there movable
    · rw [erase_eq_filter_key distinct member, own]
    · have rearranged := (List.perm_cons_erase member).map (fun address =>
        (before.manager.details address).urlId)
      exact rearranged.nodup_iff.mp distinct

/-- With an empty list a seek only reports that it has been made. -/
theorem seek_empty_untouched (sought : Sought urlId seekDurationMs frames env library before after)
    (unknown : Unknown before.manager urlId) (empty : before.manager.decoderDetailList = [])
    (brought : (before.manager.bringToFront urlId).decoderDetailList = []) :
    (urlIds after.manager).Nodup ∧ Targeted urlId seekDurationMs frames env before after := by
  have same : before.manager.bringToFront urlId = before.manager := by
    rw [bringToFront_list, brought, ← empty]
  have moved := sought.moved
  simp only [seekDuration, same, empty, Option.map_some, Option.some.injEq] at moved
  have events : outputRequests after.manager.events =
      outputRequests before.manager.events := by
    rw [← moved]
    simp [emit, outputRequests, List.filter_append]
  constructor
  · rw [← moved, urlIds, emit, empty]
    exact List.nodup_nil
  · refine ⟨fun _ => ⟨?_, ?_, ?_, events, ?_⟩, fun known => absurd unknown known⟩
    · rw [← moved]; rfl
    · rw [← moved]; rfl
    · rw [← moved]; rfl
    · rw [sought.seeks, seekCalls, brought, List.append_nil]

/-- A url id that is nowhere. -/
theorem seek_unknown_iff (sought : Sought urlId seekDurationMs frames env library before after)
    (missing : before.manager.finishedDecoderDetailList.lookup urlId = none)
    (nowhere : before.manager.decoderDetailList.find? (fun address =>
      (before.manager.details address).urlId = urlId) = none)
    (brought : (before.manager.bringToFront urlId).decoderDetailList =
      before.manager.decoderDetailList) :
    ((urlIds after.manager).Nodup ∧ Targeted urlId seekDurationMs frames env before after) ↔
      Seekable before.manager library urlId seekDurationMs := by
  have absent : urlId ∉ urlIds before.manager := by
    intro member
    obtain ⟨other, otherMember, otherId⟩ := List.mem_map.mp member
    exact absurd (decide_eq_true otherId) (List.find?_eq_none.mp nowhere other otherMember)
  simp only [Seekable, missing, nowhere]
  constructor
  · rintro ⟨_, targeted⟩
    have untouched := (targeted.1 ⟨missing, absent⟩).seeks
    rw [sought.seeks, seekCalls, brought] at untouched
    have none := List.append_cancel_left (untouched.trans (List.append_nil _).symm)
    cases tracks : before.manager.decoderDetailList with
    | nil => rfl
    | cons front rest => simp [tracks] at none
  · intro empty
    exact seek_empty_untouched sought ⟨missing, absent⟩ empty (brought.trans empty)

/-- With different url ids in the list a seek is right exactly when its url id is
seekable. The cases are those of the code. -/
theorem seek_targeted_iff (sought : Sought urlId seekDurationMs frames env library before after)
    (distinct : (urlIds before.manager).Nodup) :
    ((urlIds after.manager).Nodup ∧ Targeted urlId seekDurationMs frames env before after) ↔
      Seekable before.manager library urlId seekDurationMs := by
  rcases bringToFront_cases before.manager urlId with
    ⟨_, known, isFront, brought⟩ | ⟨_, known, behind, brought⟩ |
    ⟨_, missing, listed, brought⟩ | ⟨missing, nowhere, brought⟩
  · exact seek_front_iff sought distinct known isFront brought
  · exact seek_finished_iff sought distinct known behind brought
  · exact seek_listed_iff sought distinct missing listed brought
  · exact seek_unknown_iff sought missing nowhere brought

end Sought

/-! ## Runs -/

/-- The list and the map point to allocated details, and the url ids of the list
differ. -/
structure Invariant (state : State) : Prop where
  owned : FinishIsolation.Owned state.manager
  distinct : (urlIds state.manager).Nodup
  unused : state.nullUsed = false

/-- A job of the playlist plugin has a result unless it seeks in a missing item. -/
theorem playlist_step_isSome_iff (state : State) (job : PlaylistManagement.Job) :
    (state.playlists.step job).isSome = true ↔ Findable state (.playlist job) := by
  cases job with
  | seekDuration playlistId playlistItemId durationMs =>
    simp only [PlaylistManagement.step, Findable]
    split
    · rename_i valid
      rw [imp_iff_right valid, PlaylistManagement.seekDurationInternal,
        PlaylistManagement.OnPlaylist]
      cases state.playlists.playlistList.lookup playlistId with
      | none => exact iff_of_true rfl trivial
      | some list => simp
    · rename_i invalid
      exact iff_of_true rfl (fun valid => absurd valid invalid)
  | _ => exact iff_of_true rfl trivial

/-- A job of the manager other than a seek or the adding of a track keeps the url
ids different. -/
theorem step_shrunk {manager next : DecoderPluginsManager} {job : DecoderPluginsManager.Job}
    (stepped : manager.step job = some next)
    (noSeek : ∀ urlId seekDurationMs frames env, job ≠ .seekDuration urlId seekDurationMs frames env)
    (noAdd : ∀ urlExt urlId, job ≠ .addInputUrlJob urlExt urlId) : Shrunk manager next := by
  cases job with
  | addInputUrlJob urlExt urlId => exact absurd rfl (noAdd urlExt urlId)
  | seekDuration urlId seekDurationMs frames env =>
    exact absurd rfl (noSeek urlId seekDurationMs frames env)
  | setCacheBuffer urlId cacheBuf =>
    obtain rfl := Option.some.inj stepped
    exact Shrunk.of_same (FinishIsolation.setCacheBuffer_same manager urlId cacheBuf)
  | stop | pause | quit =>
    obtain rfl := Option.some.inj stepped
    exact ⟨List.suffix_refl _, fun _ => rfl⟩
  | cont result env =>
    have shrunk := contInternal_shrunk stepped
    exact ⟨shrunk.list, shrunk.urlIds⟩
  | contInternal result env => exact contInternal_shrunk stepped
  | decodeCont env => exact decodeCont_shrunk stepped
  | playFinished index urlId result => exact playFinished_shrunk stepped

/-- A job of the manager that is no seek leaves the url ids different exactly when
it adds no track under one of them. -/
theorem job_aimed_iff {before after : State} {job : DecoderPluginsManager.Job}
    (invariant : Invariant before) (taken : step before (.job job) = some after) :
    Aimed before (.job job) after ↔ Findable before (.job job) := by
  have stepped : (before.manager.step job).map (fun next => { before with manager := next }) =
      some after ∧
      ∀ urlId seekDurationMs frames env, job ≠ .seekDuration urlId seekDurationMs frames env := by
    cases job with
    | seekDuration urlId seekDurationMs frames env => simp [step] at taken
    | _ => exact ⟨taken, by intros; simp⟩
  obtain ⟨stepped, noSeek⟩ := stepped
  simp only [Option.map_eq_some_iff] at stepped
  obtain ⟨next, moved, rfl⟩ := stepped
  by_cases adding : ∃ urlExt urlId, job = .addInputUrlJob urlExt urlId
  · obtain ⟨urlExt, urlId, rfl⟩ := adding
    have ids := addInputUrl_urlIds invariant.owned moved
    simp only [Aimed, Findable, ids, invariant.unused, and_true]
    rw [List.nodup_append_comm, List.singleton_append, List.nodup_cons]
    exact and_iff_left invariant.distinct
  · have noAdd : ∀ urlExt urlId, job ≠ .addInputUrlJob urlExt urlId :=
      fun urlExt urlId same => adding ⟨urlExt, urlId, same⟩
    have shrunk := step_shrunk moved noSeek noAdd
    have distinct := invariant.distinct.sublist shrunk.urlIds_suffix.sublist
    cases job with
    | addInputUrlJob urlExt urlId => exact absurd rfl (noAdd urlExt urlId)
    | _ => exact iff_of_true ⟨distinct, invariant.unused, trivial⟩ trivial

/-- Each action is aimed exactly when its item or track can be found. -/
theorem step_aimed_iff {before after : State} {action : Action} (invariant : Invariant before)
    (goesOn : GoesOn before action) (taken : step before action = some after) :
    Aimed before action after ↔ Findable before action := by
  cases action with
  | job job => exact job_aimed_iff invariant taken
  | playlist job =>
    have finds := playlist_step_isSome_iff before job
    cases stepped : before.playlists.step job with
    | none =>
      simp only [step, stepped, Option.some.injEq] at taken
      subst taken
      rw [stepped] at finds
      exact iff_of_false (fun aimed => absurd aimed.2.1 (by simp)) (by simpa using finds.not)
    | some next =>
      simp only [step, stepped, Option.some.injEq] at taken
      subst taken
      rw [stepped] at finds
      exact iff_of_true ⟨invariant.distinct, invariant.unused, trivial⟩ (finds.mp rfl)
  | seekDuration frames env library =>
    obtain ⟨urlId, seekDurationMs, rest, posted, moved, unused, seeks⟩ := seekDuration_taken taken
    have right := seek_targeted_iff ⟨goesOn, moved, seeks⟩ invariant.distinct
    simp only [Aimed, Findable, posted, List.head?_cons, Option.mem_def, Option.some.injEq,
      forall_eq', unused, invariant.unused, true_and]
    exact right

/-- An aimed action keeps the invariant. -/
theorem step_invariant {before after : State} {action : Action} (invariant : Invariant before)
    (taken : step before action = some after) (aimed : Aimed before action after) :
    Invariant after := by
  refine ⟨?_, aimed.1, aimed.2.1⟩
  cases action with
  | playlist job =>
    simp only [step] at taken
    split at taken
    all_goals
      obtain rfl := Option.some.inj taken
      exact invariant.owned
  | job job =>
    have stepped : (before.manager.step job).map (fun next => { before with manager := next }) =
        some after := by
      cases job with
      | seekDuration urlId seekDurationMs frames env => simp [step] at taken
      | _ => exact taken
    simp only [Option.map_eq_some_iff] at stepped
    obtain ⟨next, moved, rfl⟩ := stepped
    exact (FinishIsolation.step_kept moved invariant.owned).1
  | seekDuration frames env library =>
    obtain ⟨urlId, seekDurationMs, rest, _, moved, _⟩ := seekDuration_taken taken
    have stepped : before.manager.step (.seekDuration urlId seekDurationMs frames env) =
        some after.manager := moved
    exact (FinishIsolation.step_kept stepped invariant.owned).1

/-- A manager before its first job has listed and finished nothing. -/
theorem start_invariant (playlists : PlaylistManagement) {manager : DecoderPluginsManager}
    (fresh : FinishIsolation.Fresh manager) : Invariant (start playlists manager) := by
  refine ⟨⟨?_, ?_⟩, ?_, rfl⟩
  · intro address member
    simp [start, fresh.1] at member
  · intro key address found
    simp [start, fresh.2] at found
  · simp [start, urlIds, fresh.1]

/-- In a run whose seeks do not decode to the end of a track, every seek finds its
target, no url id is in the list twice and no null item is used exactly when each
item and each track is there to be found. -/
theorem seeks_aimed_iff (playlists : PlaylistManagement) {manager : DecoderPluginsManager}
    (fresh : FinishIsolation.Fresh manager) {actions : List Action} {finish : State}
    (ran : LabelledRuns.run step (start playlists manager) actions = some finish)
    (goesOn : LabelledRuns.Meets step GoesOn (start playlists manager) actions) :
    LabelledRuns.Along step Aimed (start playlists manager) actions ↔
      LabelledRuns.Meets step Findable (start playlists manager) actions := by
  have finds : ∀ before action after, Invariant before → GoesOn before action →
      step before action = some after → (Aimed before action after ↔ Findable before action) :=
    fun _ _ _ invariant continues taken => step_aimed_iff invariant continues taken
  have carried : ∀ before action after, Invariant before → step before action = some after →
      Aimed before action after → Invariant after :=
    fun _ _ _ invariant taken aimed => step_invariant invariant taken aimed
  exact LabelledRuns.along_iff_meets_under finds carried (start_invariant playlists fresh) goesOn ran

instance (manager : DecoderPluginsManager) (library : LibrarySeek) (urlId seekDurationMs : Int) :
    Decidable (Seekable manager library urlId seekDurationMs) := by
  unfold Seekable
  cases manager.finishedDecoderDetailList.lookup urlId with
  | some finished => infer_instance
  | none =>
    cases manager.decoderDetailList.find? (fun address =>
        (manager.details address).urlId = urlId) with
    | some found => infer_instance
    | none => infer_instance

instance (state : State) : (action : Action) → Decidable (Findable state action)
  | .seekDuration _ _ _ => by unfold Findable; infer_instance
  | .playlist job => decidable_of_iff _ (playlist_step_isSome_iff state job)
  | .job (.addInputUrlJob _ _) => by unfold Findable; infer_instance
  | .job (.setCacheBuffer _ _) | .job .stop | .job .pause | .job .quit | .job (.cont _ _)
  | .job (.contInternal _ _) | .job (.decodeCont _) | .job (.seekDuration _ _ _ _)
  | .job (.playFinished _ _ _) => inferInstanceAs (Decidable True)

instance (state : State) : (action : Action) → Decidable (GoesOn state action)
  | .seekDuration _ _ _ => by unfold GoesOn; infer_instance
  | .playlist _ | .job _ => inferInstanceAs (Decidable True)

/-- A playlist of two items, of which the first is played and opened. -/
def playingFirst : List Action :=
  [.playlist (.addPlaylist PlaylistAgreement.titledFiles "" none),
    .playlist (.addPlaylistItems PlaylistAgreement.titledFiles 0 (-1) (some ["a", "b"])),
    .playlist (.startPlay 0 0), .job (.addInputUrlJob "flac" 1),
    .job (.cont FinishIsolation.shortInfo ⟨false, [], false, .silent⟩)]

/-- The next posted seek, of libraries that seek, in a file of a minute. -/
def nextSeek : Action := .seekDuration [] ⟨false, [], false, .silent⟩ ⟨SeekSamples.seeks, 60000, 0⟩

/-- A seek in the item that is played. -/
def seekPlayed : List Action :=
  playingFirst ++ [.playlist (.seekDuration 0 0 1000), nextSeek]

/-- A seek in the item that is played finds its target, and moves its decoder. -/
theorem seek_played_aimed :
    LabelledRuns.Along step Aimed (start (.new ⟨.stop, -1, -1⟩ 10000) FinishIsolation.newManager)
      seekPlayed := by
  have ran : ∃ finish, LabelledRuns.run step
      (start (.new ⟨.stop, -1, -1⟩ 10000) FinishIsolation.newManager) seekPlayed = some finish :=
    ⟨_, rfl⟩
  obtain ⟨finish, ran⟩ := ran
  exact (seeks_aimed_iff _ ⟨rfl, rfl⟩ ran (by decide)).mpr (by decide)

/-- The first item is decoded to its end while the second one is already handed
over; then a seek in the first one is followed by one in the second one. -/
def seekBackAndForth : List Action :=
  playingFirst ++
    [.playlist (.progress 1 0), .job (.addInputUrlJob "flac" 2), .job (.setCacheBuffer 1 10),
      .job (.decodeCont ⟨false, [(2, [7, 9])], true, FinishIsolation.shortInfo⟩),
      .playlist (.seekDuration 0 0 1000), nextSeek, .playlist (.seekDuration 0 1 1000), nextSeek,
      .playlist (.seekDuration 0 0 1000)]

/-- The manager with the FFmpeg plugin alone. -/
def ffmpegManager : DecoderPluginsManager :=
  { FinishIsolation.newManager with
    plugins := fun _ => ⟨"decoder_plugin_ffmpeg", fun urlExt => urlExt == "mp3", false, true,
      .make 0, .make 0, 8, 4⟩ }

/-- An item of the FFmpeg plugin is played, and the listener goes back to its beginning. -/
def seekToBeginning : List Action :=
  [.playlist (.addPlaylist PlaylistAgreement.titledFiles "" none),
    .playlist (.addPlaylistItems PlaylistAgreement.titledFiles 0 (-1) (some ["a", "b"])),
    .playlist (.startPlay 0 0), .job (.addInputUrlJob "mp3" 1),
    .job (.cont FinishIsolation.shortInfo ⟨false, [], false, .silent⟩),
    .job (.setCacheBuffer 1 10), .job (.decodeCont ⟨false, [(2, [7, 9])], false, .silent⟩),
    .playlist (.seekDuration 0 0 0)]

/-- A seek in an item that was never played repositions the one that is played; a second
seek in a finished track enters it in the list a second time; and a seek to the beginning
of an item of the FFmpeg plugin sets the counter, and leaves the decoder where it is. -/
theorem seek_unplayed_moves_played :
    (∃ before after, LabelledRuns.run step
        (start (.new ⟨.stop, -1, -1⟩ 10000) FinishIsolation.newManager)
        (playingFirst ++ [.playlist (.seekDuration 0 1 1000)]) = some before ∧
      before.posted = [(-1, 1000)] ∧ step before nextSeek = some after ∧
      (before.manager.details 0).urlId = 1 ∧
      (before.manager.details 0).currentSamplesWritten = 0 ∧
      (after.manager.details 0).currentSamplesWritten = 44100 ∧
      after.seeks = [⟨some 0, 1000, true⟩] ∧ ¬ Aimed before nextSeek after) ∧
    (∃ before after, LabelledRuns.run step
        (start (.new ⟨.stop, -1, -1⟩ 10000) FinishIsolation.newManager) seekBackAndForth =
          some before ∧
      urlIds before.manager = [2, 1] ∧ step before nextSeek = some after ∧
      urlIds after.manager = [1, 2, 1]) ∧
    ∃ before after, LabelledRuns.run step
        (start (.new ⟨.stop, -1, -1⟩ 10000) ffmpegManager) seekToBeginning = some before ∧
      before.posted = [(1, 0)] ∧ step before nextSeek = some after ∧
      urlIds before.manager = [1] ∧ (before.manager.details 0).currentSamplesWritten = 2 ∧
      (after.manager.details 0).currentSamplesWritten = 0 ∧
      after.seeks = [⟨some 0, 0, false⟩] ∧ ¬ Aimed before nextSeek after := by
  refine ⟨⟨_, _, rfl, rfl, rfl, rfl, rfl, by decide, rfl, ?_⟩, ⟨_, _, rfl, rfl, rfl, rfl⟩,
    ⟨_, _, rfl, rfl, rfl, rfl, rfl, rfl, rfl, ?_⟩⟩
  · rintro ⟨_, _, targeted⟩
    have untouched := (targeted _ rfl).1 ⟨rfl, by decide⟩
    have details := congrArg (fun held => (held 0).currentSamplesWritten) untouched.details
    exact absurd details (by decide)
  · rintro ⟨_, _, targeted⟩
    obtain ⟨address, right⟩ := (targeted _ rfl).2 (fun unknown => absurd unknown.2 (by decide))
    obtain ⟨decoder, _, moved⟩ := right.decoder
    have call : [false] = [true] := congrArg (fun calls => calls.map SeekCall.moved) moved
    exact absurd call (by decide)

end Mprt.TrackSeek
