import Mprt.PlaylistManagement

/-!
# What a job does

Most jobs of the plugin change no playlist: they call other plugins, or play an item, which only
gets a new url id. The other jobs change one playlist and say so in a callback. What holds after
every such change holds after every job.
-/

namespace Mprt.PlaylistManagement

/-- Calls of other plugins, reports of the progress, and files that are written. -/
def isCall : Event → Bool
  | .input _ | .decoders _ | .outputs _ | .addInputUrlJob _ | .addSoundDetails _
  | .progressPlaylistItemCb _ _ _ | .writeFile _ _ => true
  | _ => false

def isRemoval : Job → Bool
  | .removePlaylistItem _ _ => true
  | _ => false

/-- Jobs that collect items for a playlist. -/
def isAddition : Job → Bool
  | .addPlaylistItems _ _ _ _ | .addPlaylistDirectory _ _ _ _ => true
  | _ => false

/-- What a job leaves the plugin's state at. -/
def stateAfter (state : PluginState) : Job → PluginState
  | .startPlay _ _ | .cont | .inputOpened false _ | .decoderOpened false _ | .soundOpened false =>
      .play
  | .stop => .stop
  | .pause => .pause
  | .quit => .quit
  | _ => state

/-- What a job has the outputs told. -/
def outputsTold : Job → Option Command
  | .stop => some .stop
  | .pause => some .pause
  | .quit => some .quit
  | .decoderOpened true _ => some .cont
  | _ => none

def toOutputs : Event → Option Command
  | .outputs command => some command
  | _ => none

/-- A job that leaves the plugin's state, and has the outputs told nothing. -/
structure Silent (job : Job) : Prop where
  state : ∀ state, stateAfter state job = state
  outputs : outputsTold job = none

/-- The playlists are the same, and some events come. -/
structure Told (before after : PlaylistManagement) (more : List Event) : Prop where
  lists : after.playlistList = before.playlistList
  counter : after.playlistIdCounter = before.playlistIdCounter
  events : after.events = before.events ++ more

/-- A part of a job: the progress of an item is told, or an item is played. -/
inductive Playing : PlaylistManagement → PlaylistManagement → Prop where
  | tells {before after : PlaylistManagement} {more : List Event} (told : Told before after more)
      (state : after.currentState = before.currentState)
      (progress : ∀ event ∈ more, event = .input .cont ∨ ∃ playlistId playlistItemId positionMs,
        event = .progressPlaylistItemCb playlistId playlistItemId positionMs) :
      Playing before after
  | plays {before : PlaylistManagement} {list : Playlist} {playlistItemId : Int}
      {item : PlaylistItem}
      (found : before.playlistList.lookup before.currentPlayingListId = some list)
      (there : list.getPlaylistItemWithItemId playlistItemId = some item) :
      Playing before (before.playItem list playlistItemId item)
  | trans {before middle after : PlaylistManagement} (first : Playing before middle)
      (second : Playing middle after) : Playing before after

/-- The loop over the urls to add. -/
def collected (files : FileSystem) (fromId : Int) (urls : List String) (list : Playlist) :
    List PlaylistItem × Playlist :=
  (localUrls files urls).foldl (addUrl files fromId) ([], list)

/-- The callback for added items, if there are any. -/
def called (playlistId fromId : Int) (added : List PlaylistItem × Playlist) : List Event :=
  if 0 < added.1.length then
    [.addPlaylistItemCb playlistId
      (if fromId = invalidPlaylistItemId then added.2.getLastItemId else fromId) added.1]
  else []

/-- What a job does to the playlists and the events. -/
inductive Effect (before : PlaylistManagement) : Job → PlaylistManagement → Prop where
  | plays {job : Job} {begun after : PlaylistManagement} {more : List Event}
      (other : isRemoval job = false) (told : Told before begun more)
      (calls : ∀ event ∈ more, isCall event = true) (path : Playing begun after)
      (state : begun.currentState = stateAfter before.currentState job)
      (outputs : more.filterMap toOutputs = (outputsTold job).toList) :
      Effect before job after
  | asksSeek {playlistId playlistItemId durationMs : Int} (urlId : Int) :
      Effect before (.seekDuration playlistId playlistItemId durationMs)
        (before.emit [.seekDuration urlId durationMs])
  | answersSeek : Effect before .seekFinished (before.emit [.seekFinishedCb])
  | addsItems {job : Job} {files : FileSystem} {playlistId fromId : Int} {urls : List String}
      {list : Playlist} (adding : isAddition job = true)
      (found : before.playlistList.lookup playlistId = some list) :
      Effect before job
        ((before.setPlaylist playlistId (collected files fromId urls list).2).emit
          (called playlistId fromId (collected files fromId urls list)))
  | movesItem {playlistId fromId toId : Int} {list : Playlist}
      (found : before.playlistList.lookup playlistId = some list) :
      Effect before (.movePlaylistItem playlistId fromId toId)
        ((before.setPlaylist playlistId (list.moveItem fromId toId).2).emit
          [.movePlaylistItemCb playlistId fromId toId])
  | removesItem {playlistId playlistItemId : Int} {list : Playlist}
      (found : before.playlistList.lookup playlistId = some list) :
      Effect before (.removePlaylistItem playlistId playlistItemId)
        ((before.setPlaylist playlistId (list.removeItem playlistItemId).2).emit
          [.removePlaylistItemCb playlistId playlistItemId])
  | missesItem {playlistId playlistItemId : Int}
      (absent : ∀ list, before.playlistList.lookup playlistId = some list →
        (list.removeItem playlistItemId).1 = false) :
      Effect before (.removePlaylistItem playlistId playlistItemId) before
  | renames {playlistId : Int} {playlistName : String} {list : Playlist}
      (found : before.playlistList.lookup playlistId = some list) :
      Effect before (.renamePlaylist playlistId playlistName)
        ((before.setPlaylist playlistId (list.setPlaylistName playlistName)).emit
          [.renamePlaylistItemCb playlistId playlistName])
  | addsPlaylist {files : FileSystem} {filename : String} {urls : Option (List String)} :
      Effect before (.addPlaylist files filename urls) (before.addPlaylist files filename urls)
  | removesPlaylist {playlistId : Int} :
      Effect before (.removePlaylist playlistId) (before.removePlaylist playlistId)

variable {before after : PlaylistManagement}

/-- Nothing has changed and nothing was told, as before the first part of a job. -/
theorem Told.refl (before : PlaylistManagement) : Told before before [] :=
  ⟨rfl, rfl, (List.append_nil _).symm⟩

/-- A report of the progress, and the request to the input that goes with it, are among the calls
that change no playlist. -/
theorem isCall_of_progress {event : Event}
    (progress : event = .input .cont ∨ ∃ playlistId playlistItemId positionMs,
      event = .progressPlaylistItemCb playlistId playlistItemId positionMs) :
    isCall event = true := by
  rcases progress with rfl | ⟨_, _, _, rfl⟩ <;> rfl

/-- A part of a job that tells nothing and plays nothing, where an item is missing. -/
theorem Playing.refl (before : PlaylistManagement) : Playing before before :=
  .tells (.refl before) rfl nofun

/-- An item that is played is handed to the input under the next url id, and its start is told
with the duration from its tags. -/
theorem playItem_events (state : PlaylistManagement) (list : Playlist) (playlistItemId : Int)
    (item : PlaylistItem) : (state.playItem list playlistItemId item).events = state.events ++
      [.addInputItem (list.basePath ++ item.url) (state.inputUrlId + 1),
        .startPlaylistItemCb state.currentPlayingListId playlistItemId
          ((item.metadata.map Metadata.durationMs).getD 0)] := by
  simp only [playItem, addInputItem, emit, setPlaylist, List.append_assoc, List.singleton_append]

/-- Playing an item tells the outputs nothing: it asks the input for the next url, and the rest is
told to the callbacks. -/
theorem Playing.untold (path : Playing before after) :
    after.currentState = before.currentState ∧ ∃ new, after.events = before.events ++ new ∧
      new.filterMap toOutputs = [] := by
  induction path with
  | tells told state progress =>
    refine ⟨state, _, told.events, List.filterMap_eq_nil_iff.mpr (fun event member => ?_)⟩
    rcases progress event member with rfl | ⟨_, _, _, rfl⟩ <;> rfl
  | plays found _ => exact ⟨rfl, _, playItem_events _ _ _ _, rfl⟩
  | trans _ _ first second =>
    obtain ⟨stateFirst, early, eventsFirst, untoldFirst⟩ := first
    obtain ⟨stateSecond, late, eventsSecond, untoldSecond⟩ := second
    refine ⟨stateSecond.trans stateFirst, early ++ late, ?_, ?_⟩
    · rw [eventsSecond, eventsFirst, List.append_assoc]
    · rw [List.filterMap_append, untoldFirst, untoldSecond]
      rfl

/-- Playing by id plays the item when the current playlist is known and has it, and otherwise does
nothing. -/
theorem contPlayInternal_playing (state : PlaylistManagement) (playlistItemId : Int) :
    Playing state (state.contPlayInternal playlistItemId) := by
  rw [contPlayInternal]
  split
  · exact .refl state
  · rename_i list found
    split
    · exact .refl state
    · rename_i item there
      exact .plays found there

/-- The next item is played as any other, and then its url id is remembered as the one that was
added. -/
theorem addNextSong_playing (state : PlaylistManagement) : Playing state state.addNextSong :=
  (contPlayInternal_playing state state.getNextPlaylistItemId).trans
    (.tells ⟨rfl, rfl, (List.append_nil _).symm⟩ rfl nofun)

/-- A report of the progress tells the position, then the length when it is new, and near the end
plays the next item. -/
theorem progress_playing (state : PlaylistManagement) (urlId currentPositionMs : Int) :
    Playing state (state.progress urlId currentPositionMs) := by
  rw [progress]
  split
  · exact .refl state
  · split
    · exact .refl state
    · rename_i item _
      have called : Playing state (state.emit [.progressPlaylistItemCb
          state.currentPlayingListId item.playlistItemId currentPositionMs]) :=
        .tells ⟨rfl, rfl, rfl⟩ rfl (fun event member =>
          .inr ⟨_, _, _, List.mem_singleton.mp member⟩)
      have reported : Playing state ((state.emit [.progressPlaylistItemCb
          state.currentPlayingListId item.playlistItemId currentPositionMs]).reportItem
            item.playlistItemId) := by
        refine called.trans ?_
        rw [reportItem]
        split
        · exact .tells ⟨rfl, rfl, (List.append_nil _).symm⟩ rfl nofun
        · exact .refl _
      simp only
      split
      · exact reported.trans (addNextSong_playing _)
      · exact reported

/-- Starting an item: the state and the current playlist change before. -/
theorem startPlayInternal_playing (state : PlaylistManagement)
    (playlistId playlistItemId : Int) :
    ∃ begun, Told state begun [] ∧ begun.currentState = .play ∧
      Playing begun (state.startPlayInternal playlistId playlistItemId) := by
  rw [startPlayInternal]
  split
  · exact ⟨{ state with currentState := .play }, ⟨rfl, rfl, (List.append_nil _).symm⟩, rfl,
      .refl _⟩
  · have continued (begun : PlaylistManagement) : Playing begun begun.contInternal :=
      .tells ⟨rfl, rfl, rfl⟩ rfl (fun event member => .inl (List.mem_singleton.mp member))
    exact ⟨state.choosePlaylist playlistId, ⟨rfl, rfl, (List.append_nil _).symm⟩, rfl,
      (contPlayInternal_playing _ playlistItemId).trans (continued _)⟩

/-- In a known playlist the urls are collected in one pass, and the items that came are told in
one callback, if there are any. -/
theorem addPlaylistItemsInternal_eq {files : FileSystem} {playlistId fromId : Int}
    {urls : List String} {list : Playlist}
    (found : before.playlistList.lookup playlistId = some list) :
    before.addPlaylistItemsInternal files playlistId fromId (some urls) =
      (before.setPlaylist playlistId (collected files fromId urls list).2).emit
        (called playlistId fromId (collected files fromId urls list)) := by
  by_cases several : 0 < (collected files fromId urls list).1.length
  · rw [called, if_pos several]
    simp only [addPlaylistItemsInternal, found]
    exact if_pos several
  · rw [called, if_neg several, emit, List.append_nil]
    simp only [addPlaylistItemsInternal, found]
    exact if_neg several

section Steps

variable {job : Job}

/-- A job that starts an item, because it asks to or because an item could not be opened, leaves
the plugin playing and calls no output before the item is played. -/
theorem Effect.start (other : isRemoval job = false)
    (state : ∀ state, stateAfter state job = .play) (outputs : outputsTold job = none)
    (playlistId playlistItemId : Int) :
    Effect before job (before.startPlayInternal playlistId playlistItemId) := by
  obtain ⟨begun, told, playing, path⟩ := startPlayInternal_playing before playlistId playlistItemId
  exact .plays other told nofun path (playing.trans (state _).symm) (by rw [outputs]; rfl)

/-- A job that finds nothing to do leaves the plugin as it was, which is a part of a job in which
nothing is told and nothing is played. -/
theorem Effect.same (other : isRemoval job = false) (silent : Silent job) :
    Effect before job before :=
  .plays other (.refl before) nofun (.refl before) (silent.state _).symm
    (by rw [silent.outputs]; rfl)

/-- A job that only calls other plugins has done everything before the part that plays. -/
theorem Effect.call {more : List Event} (other : isRemoval job = false)
    (told : Told before after more) (calls : more.all isCall = true)
    (state : after.currentState = stateAfter before.currentState job)
    (outputs : more.filterMap toOutputs = (outputsTold job).toList) : Effect before job after :=
  .plays other told (List.all_eq_true.mp calls) (.refl after) state outputs

/-- A job that adds items removes none. It leaves the state and has the outputs told nothing,
whether it finds items or not. -/
theorem silent_of_isAddition (adding : isAddition job = true) :
    isRemoval job = false ∧ Silent job := by
  cases job with
  | addPlaylistItems | addPlaylistDirectory => exact ⟨rfl, fun _ => rfl, rfl⟩
  | _ => cases adding

/-- Adding items, from urls or from a directory, does nothing when there are no urls or when the
playlist is unknown, and otherwise puts what it has collected into the playlist. -/
theorem Effect.addItems (adding : isAddition job = true) (files : FileSystem)
    (playlistId fromId : Int) (urls : Option (List String)) :
    Effect before job (before.addPlaylistItemsInternal files playlistId fromId urls) := by
  obtain ⟨other, silent⟩ := silent_of_isAddition adding
  cases urls with
  | none => exact .same other silent
  | some urls =>
    cases found : before.playlistList.lookup playlistId with
    | none =>
      simp only [addPlaylistItemsInternal, found]
      exact .same other silent
    | some list =>
      rw [addPlaylistItemsInternal_eq found]
      exact .addsItems adding found

/-- A seek is passed to the player when it is for the item that plays, and is ignored otherwise:
then the plugin is as it was. -/
theorem Effect.seek {playlistId playlistItemId durationMs : Int}
    (stepped : before.step (.seekDuration playlistId playlistItemId durationMs) = some after) :
    Effect before (.seekDuration playlistId playlistItemId durationMs) after := by
  simp only [step, seekDurationInternal] at stepped
  split at stepped
  · split at stepped
    · obtain rfl := Option.some.inj stepped
      exact .same rfl ⟨fun _ => rfl, rfl⟩
    · obtain ⟨item, _, rfl⟩ := Option.map_eq_some_iff.mp stepped
      exact .asksSeek item.urlId
  · obtain rfl := Option.some.inj stepped
    exact .same rfl ⟨fun _ => rfl, rfl⟩

/-- An item is removed, or it is missing: then no playlist of that id has it, whether the playlist
is unknown or refuses the removal. -/
theorem Effect.removeItem (playlistId playlistItemId : Int) :
    Effect before (.removePlaylistItem playlistId playlistItemId)
      (before.removePlaylistItem playlistId playlistItemId) := by
  rw [removePlaylistItem]
  split
  · rename_i missing
    exact .missesItem (fun list found => by cases missing.symm.trans found)
  · rename_i list found
    simp only
    split
    · exact .removesItem found
    · rename_i refused
      exact .missesItem (fun other foundOther => by
        obtain rfl := Option.some.inj (found.symm.trans foundOther)
        exact Bool.eq_false_iff.mpr refused)

/-- Every job does one of these things. What holds after each of them holds after every job, so
later results split into these cases and not into the jobs. -/
theorem step_effect (stepped : before.step job = some after) : Effect before job after := by
  cases job with
  | startPlay playlistId playlistItemId =>
    obtain rfl := Option.some.inj stepped
    exact .start rfl (fun _ => rfl) rfl _ _
  | stop | pause | cont | quit =>
    obtain rfl := Option.some.inj stepped
    exact .call rfl ⟨rfl, rfl, rfl⟩ rfl rfl rfl
  | seekDuration playlistId playlistItemId durationMs => exact .seek stepped
  | progress urlId currentPositionMs =>
    obtain rfl := Option.some.inj stepped
    exact .plays rfl (.refl before) nofun (progress_playing _ _ _) rfl rfl
  | addPlaylist files filename urls =>
    obtain rfl := Option.some.inj stepped
    exact .addsPlaylist
  | addPlaylistItems files playlistId fromId urls =>
    obtain rfl := Option.some.inj stepped
    exact .addItems rfl _ _ _ _
  | addPlaylistDirectory files playlistId fromId dirname =>
    obtain rfl := Option.some.inj stepped
    exact .addItems rfl _ _ _ _
  | removePlaylistItem playlistId playlistItemId =>
    obtain rfl := Option.some.inj stepped
    exact .removeItem _ _
  | movePlaylistItem playlistId fromId toId =>
    obtain rfl := Option.some.inj stepped
    rw [movePlaylistItem]
    split
    · exact .same rfl ⟨fun _ => rfl, rfl⟩
    · rename_i list found
      simp only
      split
      · exact .movesItem found
      · exact .same rfl ⟨fun _ => rfl, rfl⟩
  | savePlaylist playlistId filename isOpen =>
    obtain rfl := Option.some.inj stepped
    rw [savePlaylist]
    split
    · exact .same rfl ⟨fun _ => rfl, rfl⟩
    · split
      · exact .call rfl ⟨rfl, rfl, rfl⟩ rfl rfl rfl
      · exact .same rfl ⟨fun _ => rfl, rfl⟩
  | renamePlaylist playlistId playlistName =>
    obtain rfl := Option.some.inj stepped
    rw [renamePlaylist]
    split
    · exact .same rfl ⟨fun _ => rfl, rfl⟩
    · rename_i list found
      exact .renames found
  | removePlaylist playlistId =>
    obtain rfl := Option.some.inj stepped
    exact .removesPlaylist
  | inputOpened ok urlId =>
    obtain rfl := Option.some.inj stepped
    cases ok with
    | true => exact .call rfl ⟨rfl, rfl, rfl⟩ rfl rfl rfl
    | false => exact .start rfl (fun _ => rfl) rfl _ _
  | decoderOpened ok urlId =>
    obtain rfl := Option.some.inj stepped
    cases ok with
    | true => exact .call rfl ⟨rfl, rfl, rfl⟩ rfl rfl rfl
    | false => exact .start rfl (fun _ => rfl) rfl _ _
  | soundOpened soundOpened =>
    obtain rfl := Option.some.inj stepped
    cases soundOpened with
    | true => exact .same rfl ⟨fun _ => rfl, rfl⟩
    | false => exact .start rfl (fun _ => rfl) rfl _ _
  | seekFinished =>
    obtain rfl := Option.some.inj stepped
    exact .answersSeek

/-- After every job the plugin is in the state that the job leaves it at, and the outputs were told
what the job has them told, which is at most one request. -/
theorem step_told (stepped : before.step job = some after) :
    after.currentState = stateAfter before.currentState job ∧
      ∃ new, after.events = before.events ++ new ∧
        new.filterMap toOutputs = (outputsTold job).toList := by
  cases step_effect stepped with
  | @plays _ begun _ more _ told _ path state outputs =>
    obtain ⟨kept, new, events, untold⟩ := path.untold
    refine ⟨kept.trans state, more ++ new, ?_, ?_⟩
    · rw [events, told.events, List.append_assoc]
    · rw [List.filterMap_append, outputs, untold, List.append_nil]
  | addsItems adding _ =>
    have silent := (silent_of_isAddition adding).2
    refine ⟨(silent.state _).symm, _, rfl, ?_⟩
    rw [called, silent.outputs]
    split <;> rfl
  | missesItem _ => exact ⟨rfl, [], (List.append_nil _).symm, rfl⟩
  | asksSeek | answersSeek | movesItem | removesItem | renames | addsPlaylist | removesPlaylist =>
    exact ⟨rfl, _, rfl, rfl⟩

end Steps

end Mprt.PlaylistManagement
