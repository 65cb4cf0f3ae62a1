import Mprt.LabelledRuns
import Mprt.PlaylistAgreement
import Mprt.PlaylistTabs

/-!
# Requests through the tabs

The user renames a tab in a line edit, and renames or removes one by its context menu. Both
remember the index of their tab, and when the user is done the plugin is asked for the playlist
that the tab with this index then has.

The tabs follow the plugin whatever the user does: they have the names of the playlists at some
earlier time, and those of now once the callbacks are handled. An index is less reliable. It
leads to the playlist that was pointed at exactly when every step spares it.
-/

namespace Mprt

open KeyedSequence PlaylistManagement PlaylistNames

namespace PlaylistTabs

/-- What `slot_tabtext_change_request` posts for the playlist of the tab, if there is one. -/
def slotTabtextChangeRequest (playlistId : Option Int) (text : String) : List Job :=
  (playlistId.map (fun id => .renamePlaylist id text)).toList

/-- What `slot_tab_context_remove` posts for the playlist of the tab. -/
def slotTabContextRemove (playlistId : Option Int) : List Job :=
  (playlistId.map .removePlaylist).toList

/-- The plugin with its posted jobs, and the tabs with the number of callbacks that they have
handled. As history, the playlists at which the line edit and the menu were opened, the jobs that
they have asked for, and those jobs for the playlists at which they were opened. -/
structure TabWindow where
  core : PlaylistManagement
  jobs : List Job
  widget : PlaylistTabs
  handled : Nat
  edited : Option Int
  pointed : Option Int
  asked : List Job
  meant : List Job

/-- Another job is posted, the plugin runs its next job, or the widget handles the next callback.
The user moves a tab, begins to rename the tab at an index or beside the tabs, finishes that,
opens the context menu, leaves it, chooses in it, or closes a tab. -/
inductive Action where
  | post (job : Job)
  | runJob
  | receive
  | moveTab (source target : Nat)
  | startRename (tabIndex : Int)
  | finishRename (text : String)
  | openContextMenu (tabIndex : Int)
  | leaveContextMenu
  | contextRename
  | contextRemove
  | closeTab (tabIndex : Int)

/-- An index of a tab, or the one for no tab. -/
def Pointable (widget : PlaylistTabs) (tabIndex : Int) : Prop :=
  -1 ≤ tabIndex ∧ tabIndex < widget.tabs.length

instance (widget : PlaylistTabs) (tabIndex : Int) : Decidable (widget.Pointable tabIndex) :=
  inferInstanceAs (Decidable (_ ∧ _))

/-- Jobs that were asked for through an index, which was meant to be that of a playlist. -/
def TabWindow.ask (window : TabWindow) (asked meant : List Job) : TabWindow :=
  { window with
    jobs := window.jobs ++ asked
    asked := window.asked ++ asked
    meant := window.meant ++ meant }

def step (window : TabWindow) : Action → Option TabWindow
  | .post job => some { window with jobs := window.jobs ++ [job] }
  | .runJob =>
      match window.jobs with
      | [] => none
      | job :: rest =>
          (window.core.step job).map (fun core => { window with core := core, jobs := rest })
  | .receive =>
      (window.core.events[window.handled]?).map (fun event =>
        { window with widget := window.widget.receive event, handled := window.handled + 1 })
  | .moveTab source target =>
      if source < window.widget.tabs.length ∧ target < window.widget.tabs.length then
        some { window with widget := window.widget.moveTab source target }
      else none
  | .startRename tabIndex =>
      if window.widget.Pointable tabIndex then
        some { window with
          widget := window.widget.slotStartRename tabIndex
          edited := window.widget.playlistAt tabIndex }
      else none
  | .finishRename text =>
      -- `slot_tabtext_change_request` asks nothing where there is no tab
      if window.widget.lineEdit then
        let hidden := { window with widget := { window.widget with lineEdit := false } }
        let there := window.widget.playlistAt window.widget.editedTab
        some (hidden.ask (slotTabtextChangeRequest there text)
          (slotTabtextChangeRequest window.edited text))
      else none
  | .openContextMenu tabIndex =>
      if window.widget.Pointable tabIndex then
        some { window with
          widget := window.widget.slotTabContextMenu tabIndex
          pointed := window.widget.playlistAt tabIndex }
      else none
  | .leaveContextMenu =>
      some { window with widget := { window.widget with contextMenu := false } }
  | .contextRename =>
      if window.widget.contextMenu then
        let left := { window.widget with contextMenu := false }
        some { window with
          widget := left.slotStartRename window.widget.contextMenuTabIndex
          edited := window.pointed }
      else none
  | .contextRemove =>
      -- `slot_tab_context_remove` uses the view of the tab without a check
      if window.widget.contextMenu then
        (window.widget.playlistAt window.widget.contextMenuTabIndex).map (fun playlistId =>
          let left := { window with widget := { window.widget with contextMenu := false } }
          left.ask (slotTabContextRemove (some playlistId)) (slotTabContextRemove window.pointed))
      else none
  | .closeTab tabIndex =>
      (window.widget.playlistAt tabIndex).map (fun playlistId =>
        { window with jobs := window.jobs ++ slotTabContextRemove (some playlistId) })

/-- A new widget. What its indices are is not initialised. -/
def start (uninitialised : PlaylistManagement.Uninitialised)
    (indices : Int × Int) (minWaitNextSong : Int) : TabWindow where
  core := .new uninitialised minWaitNextSong
  jobs := []
  widget := ⟨[], [], false, indices.1, false, indices.2⟩
  handled := 0
  edited := none
  pointed := none
  asked := []
  meant := []

/-- The tabs are the playlists with their names. -/
def Shows (widget : PlaylistTabs) (core : PlaylistManagement) : Prop :=
  ∀ tab, tab ∈ widget.tabs ↔ core.nameOf tab.playlistId = some tab.tabText

/-- What was opened at a playlist still is at its tab. -/
structure Stands (window : TabWindow) : Prop where
  edited : window.widget.lineEdit = true →
    window.widget.playlistAt window.widget.editedTab = window.edited
  pointed : window.widget.contextMenu = true →
    window.widget.playlistAt window.widget.contextMenuTabIndex = window.pointed

def Spares (window : TabWindow) (index : Int) : Action → Prop
  | .receive => ∀ event ∈ window.core.events[window.handled]?, SparedBy window.widget index event
  | .moveTab source target => SparedByMove index source target
  | _ => True

/-- The indices that are remembered are spared. -/
def Undisturbed (window : TabWindow) (action : Action) : Prop :=
  (window.widget.lineEdit = true → Spares window window.widget.editedTab action) ∧
    (window.widget.contextMenu = true → Spares window window.widget.contextMenuTabIndex action)

instance (window : TabWindow) (index : Int) (action : Action) :
    Decidable (Spares window index action) := by
  unfold Spares SparedByMove
  split <;> infer_instance

instance (window : TabWindow) (action : Action) : Decidable (Undisturbed window action) :=
  inferInstanceAs (Decidable (_ ∧ _))

section Steps

variable {window next : TabWindow} {action : Action}

/-- The tabs are those of the callbacks handled, and the names those of all callbacks. -/
structure Invariant (window : TabWindow) : Prop where
  inside : window.handled ≤ window.core.events.length
  tracks : Tracks window.widget (window.core.events.take window.handled)
  named : ∀ playlistId, window.core.nameOf playlistId = nameAfter playlistId window.core.events
  fresh : (window.core.events.filterMap addedPlaylist).Nodup
  issued : ∀ playlistId ∈ window.core.events.filterMap addedPlaylist,
    playlistId ≤ window.core.playlistIdCounter
  edited : window.widget.lineEdit = true → window.edited = none → window.widget.editedTab = -1
  pointed : window.widget.contextMenu = true → window.pointed = none →
    window.widget.contextMenuTabIndex = -1

theorem start_invariant (uninitialised : PlaylistManagement.Uninitialised)
    (indices : Int × Int) (minWaitNextSong : Int) :
    Invariant (start uninitialised indices minWaitNextSong) where
  inside := Nat.le_refl 0
  tracks := ⟨List.nodup_nil, fun _ => iff_of_false List.not_mem_nil nofun, fun _ => Iff.rfl⟩
  named := fun _ => rfl
  fresh := List.nodup_nil
  issued := nofun
  edited := nofun
  pointed := nofun

theorem Pointable.playlistAt_none {tabIndex : Int} (pointable : window.widget.Pointable tabIndex)
    (nothing : window.widget.playlistAt tabIndex = none) : tabIndex = -1 := by
  have outside := mt playlistAt_isSome.mpr (by rw [nothing]; exact Bool.false_ne_true)
  have length : window.widget.playlistIds.length = window.widget.tabs.length := List.length_map _
  obtain ⟨lower, upper⟩ := pointable
  omega

/-- A playlist that is added is a new one. -/
theorem Invariant.added (invariant : Invariant window) {event : Event}
    (found : window.core.events[window.handled]? = some event) {playlistId : Int}
    (added : addedPlaylist event = some playlistId) :
    nameAfter playlistId (window.core.events.take window.handled) = none := by
  obtain ⟨inside, there⟩ := List.getElem?_eq_some_iff.mp found
  have parts : window.core.events = window.core.events.take window.handled ++
      event :: window.core.events.drop (window.handled + 1) := by
    rw [← there, List.getElem_cons_drop, List.take_append_drop]
  have fresh := invariant.fresh
  rw [parts, List.filterMap_append, List.filterMap_cons_some added] at fresh
  rw [Option.eq_none_iff_forall_ne_some]
  intro name named
  exact (List.nodup_append.mp fresh).2.2 playlistId (nameAfter_added named) playlistId
    List.mem_cons_self rfl

/-- Callbacks that a job adds. -/
theorem Invariant.runJob (invariant : Invariant window) {core : PlaylistManagement}
    {jobs : List Job} {change : Option Event} (changes : NamedBy change window.core core) :
    Invariant { window with core := core, jobs := jobs } := by
  obtain ⟨rest, events, others⟩ := changes.events
  have added : (change.toList ++ rest).filterMap addedPlaylist =
      change.toList.filterMap addedPlaylist := by
    rw [List.filterMap_append, List.filterMap_eq_nil_iff.mpr (fun event member =>
      addedPlaylist_other (others event member)), List.append_nil]
  have above : ∀ playlistId ∈ change.toList.filterMap addedPlaylist,
      window.core.playlistIdCounter < playlistId ∧ playlistId ≤ core.playlistIdCounter := by
    intro playlistId member
    obtain ⟨event, here, adds⟩ := List.mem_filterMap.mp member
    refine changes.added playlistId ?_
    rw [Option.mem_toList.mp here]
    exact adds
  refine ⟨?_, ?_, fun playlistId => ?_, ?_, fun playlistId member => ?_, invariant.edited,
    invariant.pointed⟩
  · rw [events, List.length_append]
    exact Nat.le_add_right_of_le invariant.inside
  · rw [events, List.take_append_of_le_length invariant.inside]
    exact invariant.tracks
  · rw [changes.names, invariant.named, events, nameAfter_append, List.foldl_append,
      foldl_renamed_others others]
  · rw [events, List.filterMap_append, added]
    refine List.nodup_append.mpr ⟨invariant.fresh, ?_, ?_⟩
    · cases change with
      | none => exact List.nodup_nil
      | some event =>
        simp only [Option.toList_some, List.filterMap_cons, List.filterMap_nil]
        split
        · exact List.nodup_nil
        · exact List.nodup_singleton _
    · intro earlier member later new same
      have old := invariant.issued earlier member
      have := (above later new).1
      omega
  · rw [events, List.filterMap_append, added, List.mem_append] at member
    rcases member with old | new
    · exact (invariant.issued playlistId old).trans changes.counter
    · exact (above playlistId new).2

theorem Invariant.receive (invariant : Invariant window) {event : Event}
    (found : window.core.events[window.handled]? = some event) :
    Invariant { window with
      widget := window.widget.receive event, handled := window.handled + 1 } := by
  obtain ⟨lineEdit, editedTab, contextMenu, menuIndex⟩ := receive_remembers window.widget event
  have taken : window.core.events.take (window.handled + 1) =
      window.core.events.take window.handled ++ [event] := by
    rw [List.take_add_one, found, Option.toList_some]
  refine ⟨(List.getElem?_eq_some_iff.mp found).1, ?_, invariant.named, invariant.fresh,
    invariant.issued, ?_, ?_⟩
  · rw [taken]
    exact invariant.tracks.receive (fun added => invariant.added found)
  · rw [lineEdit, editedTab]
    exact invariant.edited
  · rw [contextMenu, menuIndex]
    exact invariant.pointed

theorem step_invariant (invariant : Invariant window)
    (stepped : step window action = some next) : Invariant next := by
  cases action with
  | post job =>
    obtain rfl := Option.some.inj stepped
    exact { invariant with }
  | runJob =>
    simp only [step] at stepped
    split at stepped
    · cases stepped
    · rename_i job rest _
      obtain ⟨core, ran, rfl⟩ := Option.map_eq_some_iff.mp stepped
      obtain ⟨change, changes⟩ := step_named ran
      exact invariant.runJob changes
  | receive =>
    obtain ⟨event, found, rfl⟩ := Option.map_eq_some_iff.mp stepped
    exact invariant.receive found
  | moveTab source target =>
    simp only [step] at stepped
    split at stepped
    · rename_i inside
      obtain rfl := Option.some.inj stepped
      exact { invariant with tracks := invariant.tracks.moveTab inside.2 }
    · cases stepped
  | startRename tabIndex =>
    simp only [step] at stepped
    split at stepped
    · rename_i pointable
      obtain rfl := Option.some.inj stepped
      exact { invariant with
        tracks := { invariant.tracks with }
        edited := fun _ => Pointable.playlistAt_none pointable }
    · cases stepped
  | finishRename text =>
    simp only [step] at stepped
    split at stepped
    · obtain rfl := Option.some.inj stepped
      exact { invariant with
        tracks := { invariant.tracks with }
        edited := nofun }
    · cases stepped
  | openContextMenu tabIndex =>
    simp only [step] at stepped
    split at stepped
    · rename_i pointable
      obtain rfl := Option.some.inj stepped
      exact { invariant with
        tracks := { invariant.tracks with }
        pointed := fun _ => Pointable.playlistAt_none pointable }
    · cases stepped
  | leaveContextMenu =>
    obtain rfl := Option.some.inj stepped
    exact { invariant with
      tracks := { invariant.tracks with }
      pointed := nofun }
  | contextRename =>
    simp only [step] at stepped
    split at stepped
    · rename_i shown
      obtain rfl := Option.some.inj stepped
      exact { invariant with
        tracks := { invariant.tracks with }
        edited := fun _ => invariant.pointed shown
        pointed := nofun }
    · cases stepped
  | contextRemove =>
    simp only [step] at stepped
    split at stepped
    · obtain ⟨playlistId, _, rfl⟩ := Option.map_eq_some_iff.mp stepped
      exact { invariant with
        tracks := { invariant.tracks with }
        pointed := nofun }
    · cases stepped
  | closeTab tabIndex =>
    obtain ⟨playlistId, _, rfl⟩ := Option.map_eq_some_iff.mp stepped
    exact { invariant with }

/-- A job calls back in order; nothing else changes the plugin. -/
theorem step_core (stepped : step window action = some next) :
    ∃ change, NamedBy change window.core next.core := by
  have same (core : next.core = window.core) : ∃ change, NamedBy change window.core next.core :=
    ⟨none, core ▸ .of_lists rfl rfl rfl⟩
  cases action with
  | runJob =>
    simp only [step] at stepped
    split at stepped
    · cases stepped
    · obtain ⟨core, ran, rfl⟩ := Option.map_eq_some_iff.mp stepped
      exact step_named ran
  | post | leaveContextMenu =>
    obtain rfl := Option.some.inj stepped
    exact same rfl
  | receive | closeTab =>
    obtain ⟨_, _, rfl⟩ := Option.map_eq_some_iff.mp stepped
    exact same rfl
  | moveTab | startRename | finishRename | openContextMenu | contextRename =>
    simp only [step] at stepped
    split at stepped
    · obtain rfl := Option.some.inj stepped
      exact same rfl
    · cases stepped
  | contextRemove =>
    simp only [step] at stepped
    split at stepped
    · obtain ⟨_, _, rfl⟩ := Option.map_eq_some_iff.mp stepped
      exact same rfl
    · cases stepped

/-! ## What is remembered -/

/-- What an index was remembered for stays exactly when the index leads there still. -/
theorem Stands.kept_iff (stands : Stands window) {widget : PlaylistTabs} (handled : Nat)
    (remembers : widget.lineEdit = window.widget.lineEdit ∧
      widget.editedTab = window.widget.editedTab ∧
      widget.contextMenu = window.widget.contextMenu ∧
      widget.contextMenuTabIndex = window.widget.contextMenuTabIndex) :
    Stands { window with widget := widget, handled := handled } ↔
      (window.widget.lineEdit = true → widget.playlistAt window.widget.editedTab =
        window.widget.playlistAt window.widget.editedTab) ∧
      (window.widget.contextMenu = true → widget.playlistAt window.widget.contextMenuTabIndex =
        window.widget.playlistAt window.widget.contextMenuTabIndex) := by
  obtain ⟨lineEdit, editedTab, contextMenu, menuIndex⟩ := remembers
  constructor
  · rintro ⟨edited, pointed⟩
    simp only [lineEdit, editedTab, contextMenu, menuIndex] at edited pointed
    exact ⟨fun shown => (edited shown).trans (stands.edited shown).symm,
      fun shown => (pointed shown).trans (stands.pointed shown).symm⟩
  · rintro ⟨edited, pointed⟩
    refine ⟨?_, ?_⟩
    · simp only [lineEdit, editedTab]
      exact fun shown => (edited shown).trans (stands.edited shown)
    · simp only [contextMenu, menuIndex]
      exact fun shown => (pointed shown).trans (stands.pointed shown)

/-- An index that was remembered for a playlist is one of a tab, and else that of no tab. -/
theorem remembered {widget : PlaylistTabs} {index : Int} {chosen : Option Int}
    (stands : widget.playlistAt index = chosen) (nowhere : chosen = none → index = -1) :
    index = -1 ∨ (widget.playlistAt index).isSome = true := by
  cases chosen with
  | none => exact Or.inl (nowhere rfl)
  | some playlistId =>
    rw [stands]
    exact Or.inr rfl

/-- The tab that is being renamed and the tab of the menu: their indices lead to tabs, or nowhere,
so what is to be spared is the playlist that each of them leads to. -/
theorem Stands.leads (invariant : Invariant window) (stands : Stands window) :
    (window.widget.lineEdit = true → window.widget.editedTab = -1 ∨
      (window.widget.playlistAt window.widget.editedTab).isSome = true) ∧
    (window.widget.contextMenu = true → window.widget.contextMenuTabIndex = -1 ∨
      (window.widget.playlistAt window.widget.contextMenuTabIndex).isSome = true) :=
  ⟨fun shown => remembered (stands.edited shown) (invariant.edited shown),
    fun shown => remembered (stands.pointed shown) (invariant.pointed shown)⟩

/-- A callback leads a remembered index elsewhere exactly when it removes a tab at or before it: a
tab that is added comes last, and one that is renamed stays. -/
theorem Stands.receive_iff (invariant : Invariant window) (stands : Stands window)
    (stepped : step window .receive = some next) : Stands next ↔ Undisturbed window .receive := by
  obtain ⟨event, found, rfl⟩ := Option.map_eq_some_iff.mp stepped
  obtain ⟨edited, pointed⟩ := stands.leads invariant
  have spared (index : Int) : Spares window index .receive ↔ window.widget.SparedBy index event := by
    simp only [Spares, found, Option.mem_def, Option.some.injEq, forall_eq']
  rw [stands.kept_iff (window.handled + 1) (receive_remembers window.widget event), Undisturbed]
  refine and_congr (forall_congr' (fun shown => ?_)) (forall_congr' (fun shown => ?_))
  · rw [spared]
    exact invariant.tracks.receive_playlistAt_iff event (edited shown)
  · rw [spared]
    exact invariant.tracks.receive_playlistAt_iff event (pointed shown)

/-- A tab that is moved takes the tabs between along by one place, and the remembered indices stay
as they are. -/
theorem Stands.moveTab_iff (invariant : Invariant window) (stands : Stands window)
    {source target : Nat} (stepped : step window (.moveTab source target) = some next) :
    Stands next ↔ Undisturbed window (.moveTab source target) := by
  simp only [step] at stepped
  split at stepped
  · rename_i inside
    obtain rfl := Option.some.inj stepped
    obtain ⟨edited, pointed⟩ := stands.leads invariant
    have moved : (window.widget.moveTab source target).lineEdit = window.widget.lineEdit ∧
        (window.widget.moveTab source target).editedTab = window.widget.editedTab ∧
        (window.widget.moveTab source target).contextMenu = window.widget.contextMenu ∧
        (window.widget.moveTab source target).contextMenuTabIndex =
          window.widget.contextMenuTabIndex := ⟨rfl, rfl, rfl, rfl⟩
    refine (stands.kept_iff window.handled moved).trans ?_
    exact and_congr
      (forall_congr' (fun shown => moveTab_playlistAt_iff invariant.tracks.distinct inside.1
        inside.2 (edited shown)))
      (forall_congr' (fun shown => moveTab_playlistAt_iff invariant.tracks.distinct inside.1
        inside.2 (pointed shown)))
  · cases stepped

/-- The plugin's jobs and the requests leave every tab in its place. -/
theorem Stands.same (stands : Stands window) (widget : next.widget = window.widget)
    (edited : next.edited = window.edited) (pointed : next.pointed = window.pointed) :
    Stands next := by
  constructor
  · rw [widget, edited]
    exact stands.edited
  · rw [widget, pointed]
    exact stands.pointed

/-- Whoever renames or opens the menu points at a tab anew, and an editor or a menu that is closed
remembers nothing. The rename of the menu hands on what the menu stood for. -/
theorem Stands.others (stands : Stands window) (stepped : step window action = some next)
    (unreceived : action ≠ .receive) (unmoved : ∀ source target, action ≠ .moveTab source target) :
    Stands next := by
  cases action with
  | receive => exact absurd rfl unreceived
  | moveTab source target => exact absurd rfl (unmoved source target)
  | post job =>
    obtain rfl := Option.some.inj stepped
    exact stands.same rfl rfl rfl
  | runJob =>
    simp only [step] at stepped
    split at stepped
    · cases stepped
    · obtain ⟨core, _, rfl⟩ := Option.map_eq_some_iff.mp stepped
      exact stands.same rfl rfl rfl
  | closeTab tabIndex =>
    obtain ⟨playlistId, _, rfl⟩ := Option.map_eq_some_iff.mp stepped
    exact stands.same rfl rfl rfl
  | leaveContextMenu =>
    obtain rfl := Option.some.inj stepped
    exact ⟨stands.edited, nofun⟩
  | startRename tabIndex =>
    obtain ⟨_, taken⟩ := Option.ite_none_right_eq_some.mp stepped
    obtain rfl := Option.some.inj taken
    exact ⟨fun _ => rfl, stands.pointed⟩
  | finishRename text =>
    obtain ⟨_, taken⟩ := Option.ite_none_right_eq_some.mp stepped
    obtain rfl := Option.some.inj taken
    exact ⟨nofun, stands.pointed⟩
  | openContextMenu tabIndex =>
    obtain ⟨_, taken⟩ := Option.ite_none_right_eq_some.mp stepped
    obtain rfl := Option.some.inj taken
    exact ⟨stands.edited, fun _ => rfl⟩
  | contextRename =>
    obtain ⟨shown, taken⟩ := Option.ite_none_right_eq_some.mp stepped
    obtain rfl := Option.some.inj taken
    exact ⟨fun _ => stands.pointed shown, nofun⟩
  | contextRemove =>
    simp only [step] at stepped
    split at stepped
    · obtain ⟨playlistId, _, rfl⟩ := Option.map_eq_some_iff.mp stepped
      exact ⟨stands.edited, nofun⟩
    · cases stepped

/-- What was pointed at stays pointed at exactly when the step spares the indices, which only a
callback and a moved tab can fail to do. -/
theorem stands_iff (invariant : Invariant window) (stands : Stands window)
    (stepped : step window action = some next) : Stands next ↔ Undisturbed window action := by
  cases action with
  | receive => exact stands.receive_iff invariant stepped
  | moveTab source target => exact stands.moveTab_iff invariant stepped
  | _ => exact iff_of_true (stands.others stepped nofun nofun) ⟨fun _ => trivial, fun _ => trivial⟩

/-- A request through an index that still leads where it was pointed asks what was meant. -/
theorem step_asked (stands : Stands window) (stepped : step window action = some next)
    (sameAsked : window.asked = window.meant) : next.asked = next.meant := by
  cases action with
  | post | leaveContextMenu =>
    obtain rfl := Option.some.inj stepped
    exact sameAsked
  | receive | closeTab =>
    obtain ⟨_, _, rfl⟩ := Option.map_eq_some_iff.mp stepped
    exact sameAsked
  | runJob =>
    simp only [step] at stepped
    split at stepped
    · cases stepped
    · obtain ⟨core, _, rfl⟩ := Option.map_eq_some_iff.mp stepped
      exact sameAsked
  | moveTab | startRename | openContextMenu | contextRename =>
    simp only [step] at stepped
    split at stepped
    · obtain rfl := Option.some.inj stepped
      exact sameAsked
    · cases stepped
  | finishRename text =>
    simp only [step] at stepped
    split at stepped
    · rename_i shown
      obtain rfl := Option.some.inj stepped
      simp only [TabWindow.ask, sameAsked, stands.edited shown]
    · cases stepped
  | contextRemove =>
    simp only [step] at stepped
    split at stepped
    · rename_i shown
      obtain ⟨playlistId, found, rfl⟩ := Option.map_eq_some_iff.mp stepped
      rw [stands.pointed shown] at found
      simp only [TabWindow.ask, sameAsked, found]
    · cases stepped

end Steps

section Runs

variable {uninitialised : PlaylistManagement.Uninitialised} {indices : Int × Int}
  {minWaitNextSong : Int} {actions : List Action}
  {finish : TabWindow}

theorem run_invariant
    (ran : LabelledRuns.run step (start uninitialised indices minWaitNextSong) actions =
      some finish) : Invariant finish :=
  LabelledRuns.run_preserves (fun _ _ _ invariant stepped => step_invariant invariant stepped)
    (start_invariant uninitialised indices minWaitNextSong) ran

/-- The names after any of the callbacks were those of the playlists at some time. -/
theorem exists_earlier
    (ran : LabelledRuns.run step (start uninitialised indices minWaitNextSong) actions =
      some finish) {count : Nat} (inside : count ≤ finish.core.events.length) :
    ∃ first rest earlier, actions = first ++ rest ∧
      LabelledRuns.run step (start uninitialised indices minWaitNextSong) first = some earlier ∧
      ∀ playlistId, earlier.core.nameOf playlistId =
        nameAfter playlistId (finish.core.events.take count) := by
  -- the run is taken apart at its end: only the last job's callbacks can be new
  induction actions using List.reverseRecOn generalizing finish count with
  | nil =>
    obtain rfl := Option.some.inj ran
    refine ⟨[], [], _, rfl, rfl, fun playlistId => ?_⟩
    rw [Nat.le_zero.mp inside]
    rfl
  | append_singleton before action inductionHypothesis =>
    obtain ⟨window, ranBefore, last⟩ := LabelledRuns.run_append.mp ran
    obtain ⟨next, stepped, same⟩ := LabelledRuns.run_cons.mp last
    obtain rfl := Option.some.inj same
    obtain ⟨change, changes⟩ := step_core stepped
    obtain ⟨rest, events, others⟩ := changes.events
    rcases Nat.lt_or_ge window.core.events.length count with beyond | within
    · refine ⟨before ++ [action], [], next, (List.append_nil _).symm, ran, fun playlistId => ?_⟩
      rw [(run_invariant ran).named, events, List.take_append, List.take_of_length_le beyond.le,
        nameAfter_append, nameAfter_append, List.foldl_append, foldl_renamed_others others,
        List.take_append, List.foldl_append,
        foldl_renamed_others (fun event member => others event (List.mem_of_mem_take member))]
      rw [List.take_of_length_le]
      cases change with
      | none => exact Nat.zero_le _
      | some event => exact Nat.sub_pos_of_lt beyond
    · obtain ⟨first, later, earlier, parts, ranFirst, names⟩ := inductionHypothesis ranBefore within
      refine ⟨first, later ++ [action], earlier, ?_, ranFirst, fun playlistId => ?_⟩
      · rw [parts, List.append_assoc]
      · rw [names, events, List.take_append_of_le_length within]

/-- The tabs show the playlists with the names they had at some earlier time, each playlist once,
and those of now when all callbacks are handled. -/
theorem tabs_show_names
    (ran : LabelledRuns.run step (start uninitialised indices minWaitNextSong) actions =
      some finish) :
    finish.widget.playlistIds.Nodup ∧
    (∃ first rest earlier, actions = first ++ rest ∧
      LabelledRuns.run step (start uninitialised indices minWaitNextSong) first = some earlier ∧
      Shows finish.widget earlier.core) ∧
    (finish.handled = finish.core.events.length → Shows finish.widget finish.core) := by
  have invariant := run_invariant ran
  refine ⟨invariant.tracks.distinct, ?_, fun handled tab => ?_⟩
  · obtain ⟨first, rest, earlier, parts, ranFirst, names⟩ := exists_earlier ran invariant.inside
    refine ⟨first, rest, earlier, parts, ranFirst, fun tab => ?_⟩
    rw [names]
    exact invariant.tracks.shown tab
  · rw [invariant.named, invariant.tracks.shown, handled, List.take_length]

/-- Three playlists are added, and their tabs are shown. -/
def threeTabs : List Action :=
  [.post (.addPlaylist PlaylistAgreement.titledFiles "" none),
    .post (.addPlaylist PlaylistAgreement.titledFiles "" none),
    .post (.addPlaylist PlaylistAgreement.titledFiles "" none), .runJob, .runJob, .runJob,
    .receive, .receive, .receive, .receive, .receive, .receive]

/-- The last tab is moved to the front, and the playlist of the middle one is renamed. The tabs
show it when the callback is handled. -/
theorem tabs_show_names_moved : ∃ finish,
    LabelledRuns.run step (start ⟨.stop, -1, -1⟩ (0, 0) 10000)
        (threeTabs ++ [.moveTab 2 0, .startRename 2, .finishRename "late", .runJob, .receive]) =
      some finish ∧
    finish.widget.playlistIds = [2, 0, 1] ∧ finish.core.nameOf 1 = some "late" ∧
    (⟨1, "late"⟩ : PlaylistTab) ∈ finish.widget.tabs := by
  have run : ∃ finish, LabelledRuns.run step (start ⟨.stop, -1, -1⟩ (0, 0) 10000)
        (threeTabs ++ [.moveTab 2 0, .startRename 2, .finishRename "late", .runJob, .receive]) =
      some finish ∧ finish.widget.playlistIds = [2, 0, 1] ∧ finish.core.nameOf 1 = some "late" ∧
      finish.handled = finish.core.events.length := ⟨_, rfl, rfl, rfl, rfl⟩
  obtain ⟨finish, ran, ids, name, handled⟩ := run
  exact ⟨finish, ran, ids, name, ((tabs_show_names ran).2.2 handled ⟨1, "late"⟩).mpr name⟩

/-- The line edit and the context menu stay at the tab of the playlist at which they were opened
exactly when no step removes a tab at or before theirs or moves one to, from or across it. When
they do, what they ask for is asked of that playlist. -/
theorem remembered_tabs
    (ran : LabelledRuns.run step (start uninitialised indices minWaitNextSong) actions =
      some finish) :
    (LabelledRuns.Along step (fun _ _ after => Stands after)
        (start uninitialised indices minWaitNextSong) actions ↔
      LabelledRuns.Meets step Undisturbed (start uninitialised indices minWaitNextSong) actions) ∧
    (LabelledRuns.Meets step Undisturbed (start uninitialised indices minWaitNextSong) actions →
      finish.asked = finish.meant) := by
  have invariant := start_invariant uninitialised indices minWaitNextSong
  have stands : Stands (start uninitialised indices minWaitNextSong) := ⟨nofun, nofun⟩
  constructor
  · have both : Invariant (start uninitialised indices minWaitNextSong) ∧
        Stands (start uninitialised indices minWaitNextSong) := ⟨invariant, stands⟩
    have exactly (window : TabWindow) (action : Action) (next : TabWindow)
        (before : Invariant window ∧ Stands window) (stepped : step window action = some next) :
        Stands next ↔ Undisturbed window action := stands_iff before.1 before.2 stepped
    have carried (window : TabWindow) (action : Action) (next : TabWindow)
        (before : Invariant window ∧ Stands window) (stepped : step window action = some next)
        (after : Stands next) : Invariant next ∧ Stands next :=
      ⟨step_invariant before.1 stepped, after⟩
    exact LabelledRuns.along_iff_meets exactly carried both ran
  · intro met
    have preserved (window : TabWindow) (action : Action) (next : TabWindow)
        (before : (Invariant window ∧ Stands window) ∧ window.asked = window.meant)
        (undisturbed : Undisturbed window action) (stepped : step window action = some next) :
        (Invariant next ∧ Stands next) ∧ next.asked = next.meant := by
      obtain ⟨⟨holds, standing⟩, same⟩ := before
      exact ⟨⟨step_invariant holds stepped, (stands_iff holds standing stepped).mpr undisturbed⟩,
        step_asked standing stepped same⟩
    exact (LabelledRuns.run_preserves_under preserved ⟨⟨invariant, stands⟩, rfl⟩ met ran).2

/-- The last tab is renamed while the first one is moved behind the second, and the right playlist
is named. When a tab before the one with the context menu is removed, the menu asks for the wrong
one. -/
theorem remembered_tabs_removed :
    (∃ finish, LabelledRuns.run step (start ⟨.stop, -1, -1⟩ (0, 0) 10000)
        (threeTabs ++ [.startRename 2, .moveTab 0 1, .finishRename "late"]) = some finish ∧
      finish.jobs = [.renamePlaylist 2 "late"] ∧ finish.asked = finish.meant) ∧
    ¬ LabelledRuns.Along step (fun _ _ after => Stands after) (start ⟨.stop, -1, -1⟩ (0, 0) 10000)
        (threeTabs ++ [.openContextMenu 1, .post (.removePlaylist 0), .runJob, .receive,
          .contextRemove]) := by
  constructor
  · have run : ∃ finish, LabelledRuns.run step (start ⟨.stop, -1, -1⟩ (0, 0) 10000)
          (threeTabs ++ [.startRename 2, .moveTab 0 1, .finishRename "late"]) = some finish ∧
        finish.jobs = [.renamePlaylist 2 "late"] := ⟨_, rfl, rfl⟩
    obtain ⟨finish, ran, jobs⟩ := run
    exact ⟨finish, ran, jobs, (remembered_tabs ran).2 (by decide)⟩
  · intro stands
    have ran : ∃ finish, LabelledRuns.run step (start ⟨.stop, -1, -1⟩ (0, 0) 10000)
        (threeTabs ++ [.openContextMenu 1, .post (.removePlaylist 0), .runJob, .receive,
          .contextRemove]) = some finish := ⟨_, rfl⟩
    obtain ⟨finish, ran⟩ := ran
    exact absurd ((remembered_tabs ran).1.mp stands) (by decide)

end Runs

end PlaylistTabs

end Mprt
