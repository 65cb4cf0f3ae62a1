import Mprt.PlaylistAgreement
import Mprt.PlaylistHandOver

/-!
# What a report of an item that cannot be opened does

A file, a decoder or a sound device that cannot be opened is reported with a job
that is meant to start the next item of the playlist. The job passes the id of
the next item as the playlist, and the id of the playlist as the item. Nothing
is played then unless a playlist has the id of that item; if one has, it becomes
the current playlist.

The next item is the one after the item that was last reported to be playing.
The item that could not be opened has not been reported, since it never played.
-/

namespace Mprt.PlaylistSkip

open PlaylistManagement PlaylistAgreement

/-- A report that an item could not be opened. -/
def Fails : Job → Prop
  | .inputOpened ok _ => ok = false
  | .decoderOpened ok _ => ok = false
  | .soundOpened soundOpened => soundOpened = false
  | _ => False

instance : (job : Job) → Decidable (Fails job)
  | .inputOpened ok _ | .decoderOpened ok _ | .soundOpened ok => inferInstanceAs (Decidable (ok = _))
  | .startPlay _ _ | .stop | .pause | .cont | .quit | .seekDuration _ _ _ | .progress _ _
  | .addPlaylist _ _ _ | .addPlaylistItems _ _ _ _ | .addPlaylistDirectory _ _ _ _
  | .removePlaylistItem _ _ | .movePlaylistItem _ _ _ | .savePlaylist _ _ _ | .renamePlaylist _ _
  | .removePlaylist _ | .seekFinished => inferInstanceAs (Decidable False)

/-- A job, and the id of the item that it is about when it reports a failure. -/
structure Reported where
  job : Job
  failing : Int

def stepReported (state : PlaylistManagement) (reported : Reported) : Option PlaylistManagement :=
  state.step reported.job

/-- The current playlist stays, the item after the failing one is handed over, or
nothing if there is none, and the failing one is not. -/
def SkipsTo (before : PlaylistManagement) (list : Playlist) (failing : Int)
    (after : PlaylistManagement) : Prop :=
  after.currentPlayingListId = before.currentPlayingListId ∧
    ∃ new, handOvers after.events = handOvers before.events ++ new ∧
      new = before.handOverOf list (list.successor failing) ∧
      ∀ duration, .startPlaylistItemCb before.currentPlayingListId failing duration ∉ new

/-- The last item fails while no playlist has the id of the item after the current
one, or the item after the failing one and the item after the current one are the
same, and its id is that of the current playlist. -/
def SkipsWhen (before : PlaylistManagement) (list : Playlist) (failing : Int) : Prop :=
  (before.playlistList.lookup before.getNextPlaylistItemId = none ∧
      following list.itemIds failing = none) ∨
    (before.getNextPlaylistItemId = before.currentPlayingListId ∧
      following list.itemIds failing = some before.currentPlayingListId)

instance (before : PlaylistManagement) (list : Playlist) (failing : Int) :
    Decidable (SkipsWhen before list failing) :=
  have : Decidable (before.playlistList.lookup before.getNextPlaylistItemId = none) :=
    decidable_of_iff _ Option.isNone_iff_eq_none
  inferInstanceAs (Decidable (_ ∨ _))

/-- A report that an item of the current playlist fails skips it. -/
def Skips (before : PlaylistManagement) (reported : Reported) (after : PlaylistManagement) : Prop :=
  Fails reported.job → before.OnPlaylist before.currentPlayingListId (fun list =>
    reported.failing ∈ list.itemIds → SkipsTo before list reported.failing after)

def Skippable (before : PlaylistManagement) (reported : Reported) : Prop :=
  Fails reported.job → before.OnPlaylist before.currentPlayingListId (fun list =>
    reported.failing ∈ list.itemIds → SkipsWhen before list reported.failing)

instance (before : PlaylistManagement) (reported : Reported) :
    Decidable (Skippable before reported) :=
  inferInstanceAs (Decidable (_ → _))

/-! ## Ids of playlists -/

/-- Playlist ids are counted from zero. -/
def Issued (state : PlaylistManagement) : Prop :=
  -1 ≤ state.playlistIdCounter ∧
    ∀ playlistId, state.playlistList.lookup playlistId ≠ none → 0 ≤ playlistId

/-- A quiet job adds no playlist, so the ids of the playlists are those from before. -/
theorem issued_of_quiet {before after : PlaylistManagement} (quiet : Quiet before after)
    (issued : Issued before) : Issued after := by
  obtain ⟨ids, counter, _⟩ := quiet
  refine ⟨by rw [counter]; exact issued.1, ?_⟩
  intro playlistId present
  apply issued.2
  intro missing
  have same := congrFun ids playlistId
  unfold coreIds at same
  rw [missing, Option.map_none, Option.map_eq_none_iff] at same
  exact present same

/-- A playlist that is there may change, and one with a new id may be added. -/
theorem issued_setPlaylist {before after : PlaylistManagement} {playlistId : Int}
    {list : Playlist} (issued : Issued before) (known : 0 ≤ playlistId)
    (counter : before.playlistIdCounter ≤ after.playlistIdCounter)
    (lists : after.playlistList = before.playlistList.insert playlistId list) :
    Issued after := by
  refine ⟨issued.1.trans counter, ?_⟩
  intro other present
  by_cases same : other = playlistId
  · rw [same]
    exact known
  · rw [lists, AList.lookup_insert_ne same] at present
    exact issued.2 other present

/-- An edit of a playlist that is there leaves the set of ids as it was. -/
theorem issued_edit {before after : PlaylistManagement} {playlistId : Int}
    {list edited : Playlist} (issued : Issued before)
    (found : before.playlistList.lookup playlistId = some list)
    (counter : after.playlistIdCounter = before.playlistIdCounter)
    (lists : after.playlistList = before.playlistList.insert playlistId edited) :
    Issued after := by
  have known := issued.2 playlistId (by rw [found]; exact Option.some_ne_none list)
  exact issued_setPlaylist issued known (Int.le_of_eq counter.symm) lists

/-- Items are added to a playlist that is there, or to none. -/
theorem addPlaylistItems_issued {state : PlaylistManagement} (issued : Issued state)
    (files : FileSystem) (playlistId fromId : Int) (urls : Option (List String)) :
    Issued (state.addPlaylistItemsInternal files playlistId fromId urls) := by
  unfold addPlaylistItemsInternal
  split
  · rename_i urls list found
    simp only
    split
    · exact issued_edit issued found rfl rfl
    · exact issued_edit issued found rfl rfl
  · exact issued

/-- Every job keeps that the ids of playlists are counted from zero: a new playlist gets the next
one of the counter. -/
theorem step_issued {before after : PlaylistManagement} {job : Job}
    (stepped : before.step job = some after) (issued : Issued before) : Issued after := by
  cases job with
  | addPlaylist files filename urls =>
    obtain rfl := Option.some.inj stepped
    have counter := issued.1
    refine issued_setPlaylist issued ?_ ?_ rfl
    · omega
    · exact Int.le_of_lt (Int.lt_add_one_of_le (Int.le_refl _))
  | addPlaylistItems files playlistId fromId urls =>
    obtain rfl := Option.some.inj stepped
    exact addPlaylistItems_issued issued files playlistId fromId urls
  | addPlaylistDirectory files playlistId fromId dirname =>
    obtain rfl := Option.some.inj stepped
    exact addPlaylistItems_issued issued files playlistId fromId _
  | movePlaylistItem playlistId fromId toId =>
    obtain rfl := Option.some.inj stepped
    rw [movePlaylistItem]
    split
    · exact issued
    · rename_i list found
      simp only
      split
      · exact issued_edit issued found rfl rfl
      · exact issued
  | removePlaylistItem playlistId playlistItemId =>
    obtain rfl := Option.some.inj stepped
    rw [removePlaylistItem]
    split
    · exact issued
    · rename_i list found
      simp only
      split
      · exact issued_edit issued found rfl rfl
      · exact issued
  | removePlaylist playlistId =>
    obtain rfl := Option.some.inj stepped
    refine ⟨issued.1, ?_⟩
    intro other present
    apply issued.2
    intro missing
    apply present
    by_cases same : other = playlistId
    · rw [same]
      exact AList.lookup_erase _ _
    · exact (AList.lookup_erase_ne same).trans missing
  | _ => exact issued_of_quiet (others_quiet stepped rfl) issued

/-! ## One report -/

/-- No hand-over of the successor names the item itself. -/
theorem handOverOf_successor {state : PlaylistManagement} {list : Playlist} {failing : Int}
    (there : failing ∈ list.itemIds) (duration : Int) :
    .startPlaylistItemCb state.currentPlayingListId failing duration ∉
      state.handOverOf list (list.successor failing) := by
  rw [Playlist.successor]
  cases follows : following list.itemIds failing with
  | none => exact List.not_mem_nil
  | some next =>
    obtain ⟨item, found, id⟩ := Playlist.item_of_mem (following_mem follows)
    have differs := following_ne list.itemIds_nodup there follows
    rw [Option.bind_some, found]
    intro member
    simp only [handOverOf, handOver, List.mem_cons, reduceCtorEq, false_or,
      Event.startPlaylistItemCb.injEq, List.not_mem_nil, or_false] at member
    exact differs (id.symm.trans member.2.1.symm)

/-- Two items that are handed over in the same way have the same id. -/
theorem handOver_inj {state : PlaylistManagement} {list : Playlist} {item : PlaylistItem}
    {other : Option PlaylistItem} (same : state.handOver list item = state.handOverOf list other) :
    ∃ found, other = some found ∧ found.playlistItemId = item.playlistItemId := by
  cases other with
  | none => cases same
  | some found =>
    refine ⟨found, rfl, ?_⟩
    simp only [handOverOf, handOver, List.cons.injEq, Event.startPlaylistItemCb.injEq, true_and,
      and_true] at same
    exact same.2.1.symm

/-- The swapped start without a playlist of that id. -/
theorem startNext_missing {state : PlaylistManagement}
    (missing : state.playlistList.lookup state.getNextPlaylistItemId = none) :
    state.startNext = { state with currentState := .play } := by
  simp only [startNext, startPlayInternal, missing]

/-- The swapped start with the current playlist as its item. -/
theorem startNext_found {state : PlaylistManagement} {list : Playlist}
    (found : state.playlistList.lookup state.getNextPlaylistItemId = some list) :
    state.startNext.currentPlayingListId = state.getNextPlaylistItemId ∧
      handOvers state.startNext.events = handOvers state.events ++
        (state.choosePlaylist state.getNextPlaylistItemId).handOverOf list
          (list.getPlaylistItemWithItemId state.currentPlayingListId) := by
  have started : state.startNext =
      ((state.choosePlaylist state.getNextPlaylistItemId).contPlayInternal
        state.currentPlayingListId).contInternal := by
    simp only [startNext, startPlayInternal, found]
  have chosen : (state.choosePlaylist state.getNextPlaylistItemId).playlistList.lookup
      (state.choosePlaylist state.getNextPlaylistItemId).currentPlayingListId = some list := found
  obtain ⟨events, current, _⟩ := contPlayInternal_effect chosen state.currentPlayingListId
  rw [started]
  refine ⟨current, ?_⟩
  rw [contInternal, emit, events, handOvers_append, handOvers_append, handOvers_handOverOf]
  exact List.append_nil _

/-- Without a playlist of the swapped id nothing is handed over, which is right for
the last item. -/
theorem missing_skips_iff {state : PlaylistManagement} {list : Playlist}
    (playing : state.playlistList.lookup state.currentPlayingListId = some list)
    (missing : state.playlistList.lookup state.getNextPlaylistItemId = none) (failing : Int) :
    SkipsTo state list failing state.startNext ↔ SkipsWhen state list failing := by
  rw [startNext_missing missing]
  constructor
  · rintro ⟨_, new, events, expected, _⟩
    have nothing : new = [] := List.self_eq_append_right.mp events
    refine Or.inl ⟨missing, Playlist.successor_none_iff.mp ?_⟩
    rw [nothing] at expected
    cases next : list.successor failing with
    | none => rfl
    | some item =>
      rw [next] at expected
      cases expected
  · rintro (⟨_, last⟩ | ⟨same, _⟩)
    · refine ⟨rfl, [], (List.append_nil _).symm, ?_, fun _ => List.not_mem_nil⟩
      rw [Playlist.successor_none_iff.mpr last]
      rfl
    · rw [same, playing] at missing
      cases missing

/-- With another playlist of the swapped id the current playlist changes. -/
theorem other_skips_iff {state : PlaylistManagement} {list other : Playlist}
    (found : state.playlistList.lookup state.getNextPlaylistItemId = some other)
    (differs : state.getNextPlaylistItemId ≠ state.currentPlayingListId) (failing : Int) :
    SkipsTo state list failing state.startNext ↔ SkipsWhen state list failing := by
  obtain ⟨current, _⟩ := startNext_found found
  constructor
  · rintro ⟨kept, _⟩
    exact absurd (current.symm.trans kept) differs
  · rintro (⟨missing, _⟩ | ⟨same, _⟩)
    · rw [found] at missing
      cases missing
    · exact absurd same differs

/-- Where the next item has the id of the current playlist, that id belongs to an
item. It is not negative, so it is not the id that stands for none. -/
theorem next_mem {state : PlaylistManagement} (issued : Issued state) {list : Playlist}
    (playing : state.playlistList.lookup state.currentPlayingListId = some list)
    (same : state.getNextPlaylistItemId = state.currentPlayingListId) :
    state.currentPlayingListId ∈ list.itemIds := by
  have next : state.getNextPlaylistItemId =
      (following list.itemIds state.currentPlayingItemId).getD invalidPlaylistItemId := by
    rw [getNextPlaylistItemId, playing]
    exact list.getNextItemId_eq _
  cases follows : following list.itemIds state.currentPlayingItemId with
  | none =>
    have known := issued.2 state.currentPlayingListId
      (by rw [playing]; exact Option.some_ne_none list)
    rw [← same, next, follows] at known
    exact absurd known (by decide)
  | some id =>
    rw [follows, Option.getD_some] at next
    rw [← same, next]
    exact following_mem follows

/-- With the current playlist of the swapped id, the item with the id of the playlist
is handed over. -/
theorem own_skips_iff {state : PlaylistManagement} (issued : Issued state) {list : Playlist}
    (playing : state.playlistList.lookup state.currentPlayingListId = some list)
    (same : state.getNextPlaylistItemId = state.currentPlayingListId) {failing : Int}
    (there : failing ∈ list.itemIds) :
    SkipsTo state list failing state.startNext ↔ SkipsWhen state list failing := by
  have found : state.playlistList.lookup state.getNextPlaylistItemId = some list := by
    rw [same]
    exact playing
  obtain ⟨current, events⟩ := startNext_found found
  have ownState : (state.choosePlaylist state.getNextPlaylistItemId).handOverOf list =
      state.handOverOf list := by
    rw [same]
    funext item
    cases item with
    | none => rfl
    | some item => rfl
  obtain ⟨item, itemFound, itemId⟩ := Playlist.item_of_mem (next_mem issued playing same)
  rw [ownState, itemFound] at events
  constructor
  · rintro ⟨_, new, after, expected, _⟩
    rw [events, List.append_cancel_left_eq] at after
    rw [← after] at expected
    obtain ⟨next, successor, nextId⟩ := handOver_inj expected
    refine Or.inr ⟨same, ?_⟩
    rw [Playlist.successor] at successor
    obtain ⟨id, follows, idFound⟩ := Option.bind_eq_some_iff.mp successor
    rw [follows, ← itemId, ← nextId]
    exact congrArg some (KeyedSequence.find_key idFound).symm
  · rintro (⟨missing, _⟩ | ⟨_, follows⟩)
    · rw [found] at missing
      cases missing
    · have successor : list.successor failing = some item := by
        rw [Playlist.successor, follows, Option.bind_some, itemFound]
      have notAgain := @handOverOf_successor state list failing there
      rw [successor] at notAgain
      exact ⟨current.trans same, _, events, by rw [successor], notAgain⟩

/-- A failure report skips the failing item under exactly the condition. -/
theorem startNext_skips_iff {state : PlaylistManagement} (issued : Issued state)
    {list : Playlist}
    (playing : state.playlistList.lookup state.currentPlayingListId = some list) {failing : Int}
    (there : failing ∈ list.itemIds) :
    SkipsTo state list failing state.startNext ↔ SkipsWhen state list failing := by
  cases found : state.playlistList.lookup state.getNextPlaylistItemId with
  | none => exact missing_skips_iff playing found failing
  | some other =>
    by_cases same : state.getNextPlaylistItemId = state.currentPlayingListId
    · exact own_skips_iff issued playing same there
    · exact other_skips_iff found same failing

/-! ## Runs -/

/-- A report of a failure does one thing: it starts the next item. -/
theorem fails_startNext {before after : PlaylistManagement} {job : Job} (fails : Fails job)
    (stepped : before.step job = some after) : after = before.startNext := by
  cases job with
  | inputOpened ok urlId =>
    have failed : ok = false := fails
    rw [failed] at stepped
    exact (Option.some.inj stepped).symm
  | decoderOpened ok urlId =>
    have failed : ok = false := fails
    rw [failed] at stepped
    exact (Option.some.inj stepped).symm
  | soundOpened ok =>
    have failed : ok = false := fails
    rw [failed] at stepped
    exact (Option.some.inj stepped).symm
  | _ => exact absurd fails id

/-- A report of a failure skips to the item after the failed one exactly when it is skippable, in
every state with such ids. -/
theorem step_skips_iff (before : PlaylistManagement) (reported : Reported)
    (after : PlaylistManagement) (issued : Issued before)
    (stepped : stepReported before reported = some after) :
    Skips before reported after ↔ Skippable before reported := by
  refine forall_congr' (fun fails => ?_)
  rw [fails_startNext fails stepped]
  cases playing : before.playlistList.lookup before.currentPlayingListId with
  | none => exact iff_of_true (onPlaylist_none playing _) (onPlaylist_none playing _)
  | some list =>
    rw [onPlaylist_some playing, onPlaylist_some playing]
    exact forall_congr' (fun there => startNext_skips_iff issued playing there)

/-- In every run of the plugin, each report of an item that fails skips it exactly
when each report meets the condition. -/
theorem failures_skip {uninitialised : PlaylistManagement.Uninitialised} {minWaitNextSong : Int}
    {state : PlaylistManagement} {reports : List Reported}
    (ran : LabelledRuns.run stepReported (.new uninitialised minWaitNextSong) reports =
      some state) :
    LabelledRuns.Along stepReported Skips (.new uninitialised minWaitNextSong) reports ↔
      LabelledRuns.Meets stepReported Skippable (.new uninitialised minWaitNextSong) reports := by
  have issued : Issued (.new uninitialised minWaitNextSong) := by
    refine ⟨Int.le_refl _, ?_⟩
    intro playlistId present
    exact absurd (AList.lookup_empty playlistId) present
  exact LabelledRuns.along_iff_meets step_skips_iff
    (fun _ _ _ before stepped _ => step_issued stepped before) issued ran

/-- The only item of a playlist is played and reported, and then fails. -/
def lastFails : List Reported :=
  [⟨.addPlaylist titledFiles "" none, 0⟩,
    ⟨.addPlaylistItems titledFiles 0 (-1) (some ["a"]), 0⟩, ⟨.startPlay 0 0, 0⟩,
    ⟨.progress 1 0, 0⟩, ⟨.soundOpened false, 0⟩]

/-- The last item of a list fails, and nothing is started after it. -/
theorem failures_skip_last :
    LabelledRuns.Along stepReported Skips (.new ⟨.stop, -1, -1⟩ 10000) lastFails := by
  have ran : ∃ state,
      LabelledRuns.run stepReported (.new ⟨.stop, -1, -1⟩ 10000) lastFails = some state := ⟨_, rfl⟩
  obtain ⟨state, ran⟩ := ran
  exact (failures_skip ran).mpr (by decide)

/-- Two playlists, of which the first is played: item 0 is reported near its end, so
that item 1 is handed over with the url id 2. -/
def prefetching : List Reported :=
  [⟨.addPlaylist titledFiles "" none, 0⟩, ⟨.addPlaylist titledFiles "" none, 0⟩,
    ⟨.addPlaylistItems titledFiles 0 (-1) (some ["a", "b", "c"]), 0⟩,
    ⟨.addPlaylistItems titledFiles 1 (-1) (some ["x", "y"]), 0⟩, ⟨.startPlay 0 0, 0⟩,
    ⟨.progress 1 0, 0⟩]

/-- The file of item 1 is missing. Its report makes the other playlist the current
one and plays its first item. -/
theorem missing_file_changes_playlist : ∃ state after list,
    LabelledRuns.run stepReported (.new ⟨.stop, -1, -1⟩ 10000) prefetching = some state ∧
      state.currentPlayingListId = 0 ∧ state.playlistList.lookup 0 = some list ∧
      (list.getPlaylistItemWithItemId 1).map PlaylistItem.urlId = some 2 ∧
      state.step (.inputOpened false 2) = some after ∧ after.currentPlayingListId = 1 ∧
      handOvers after.events = handOvers state.events ++
        [.addInputItem "x" 3, .startPlaylistItemCb 1 0 0] ∧
      ¬ Skips state ⟨.inputOpened false 2, 1⟩ after := by
  have reached : ∃ state after list,
      LabelledRuns.run stepReported (.new ⟨.stop, -1, -1⟩ 10000) prefetching = some state ∧
        state.currentPlayingListId = 0 ∧ state.playlistList.lookup 0 = some list ∧
        (list.getPlaylistItemWithItemId 1).map PlaylistItem.urlId = some 2 ∧
        state.step (.inputOpened false 2) = some after ∧ after.currentPlayingListId = 1 ∧
        handOvers after.events = handOvers state.events ++
          [.addInputItem "x" 3, .startPlaylistItemCb 1 0 0] ∧
        list.itemIds = [0, 1, 2] :=
    ⟨_, _, _, rfl, rfl, rfl, rfl, rfl, rfl, rfl, rfl⟩
  obtain ⟨state, after, list, ran, current, found, urlId, stepped, changed, events, ids⟩ := reached
  refine ⟨state, after, list, ran, current, found, urlId, stepped, changed, events, ?_⟩
  intro skips
  have playing : state.playlistList.lookup state.currentPlayingListId = some list := by
    rw [current]
    exact found
  have skipped := (onPlaylist_some playing _).mp (skips rfl) (by rw [ids]; decide)
  have kept := skipped.1
  rw [changed, current] at kept
  exact absurd kept (by decide)

end Mprt.PlaylistSkip
