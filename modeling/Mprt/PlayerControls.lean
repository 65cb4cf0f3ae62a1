import Mathlib.Data.List.Induction
import Mprt.JobEffects
import Mprt.LabelledRuns
import Mprt.PlaylistDeletion

/-!
# The buttons of the player

The widget keeps a play state of its own, which its buttons change together with the jobs that
they post. What the plugin does later with these jobs, and with the reports of others, gives it a
state too. The two agree exactly while nothing is started without the button for it: an item that
is missing leaves the widget playing alone, the next or the previous item and a report of a
failure leave the plugin playing alone.

The outputs are told to pause when the plugin pauses. They are not told to continue when it
continues: only the report of a newly opened track does that.
-/

namespace Mprt

open PlaylistManagement

namespace PlayerControls

/-- `bound_val`. -/
def boundVal (minVal val maxVal : Int) : Int := max minVal (min val maxVal)

/-- The item in the row that `play_item_offset` selects, in the view of the current tab and from
the selected row of it, if there is one. -/
def playItemOffset (current : Option (PlaylistView × Int)) (offset : Int) : Option (Int × Int) :=
  current.map (fun (view, selectedRow) =>
    let row := boundVal 0 (selectedRow + offset) (view.rows.length - 1)
    (view.playlistId, view.getItemPlaylistId row.toNat))

/-- The state of a component after a request to all of its kind. -/
def commanded : Command → PluginState
  | .stop => .stop
  | .pause => .pause
  | .cont => .play
  | .quit => .quit

/-- What an output's state is after a call of the plugin. -/
def heard (state : PluginState) (event : Event) : PluginState :=
  ((toOutputs event).map commanded).getD state

/-- The plugin with its posted jobs, the play state of the widget, the item that it is about to
start after it has asked to stop, and an output plugin with the number of calls that it has
handled. As history, the jobs that have run. -/
structure ControlWindow where
  core : PlaylistManagement
  jobs : List Job
  pluginPlayState : PluginState
  starting : Option (Int × Int)
  output : PluginState
  handled : Nat
  ran : List Job

/-- A button is pressed, with the view of the current tab and its selected row. The widget asks to
start what it has asked to stop for. Another job is posted, the plugin runs its next job, or the
output handles the next call. -/
inductive Action where
  | play (current : Option (PlaylistView × Int))
  | stop
  | toggle (current : Option (PlaylistView × Int))
  | previousItem (current : Option (PlaylistView × Int))
  | nextItem (current : Option (PlaylistView × Int))
  | startItem
  | post (job : Job)
  | runJob
  | handle

namespace ControlWindow

/-- The first half of `play_item_offset`, up to where it has asked to stop. -/
def stopItem (window : ControlWindow) (current : Option (PlaylistView × Int)) (offset : Int) :
    ControlWindow :=
  match playItemOffset current offset with
  | none => window
  | some item => { window with jobs := window.jobs ++ [.stop], starting := some item }

def play (window : ControlWindow) (current : Option (PlaylistView × Int)) : ControlWindow :=
  { window with pluginPlayState := .play }.stopItem current 0

def stop (window : ControlWindow) : ControlWindow :=
  { window with pluginPlayState := .stop, jobs := window.jobs ++ [.stop] }

def pause (window : ControlWindow) : ControlWindow :=
  if window.pluginPlayState = .play then
    { window with pluginPlayState := .pause, jobs := window.jobs ++ [.pause] }
  else window

def unpause (window : ControlWindow) (current : Option (PlaylistView × Int)) : ControlWindow :=
  if window.pluginPlayState = .pause then
    { window with pluginPlayState := .play, jobs := window.jobs ++ [.cont] }
  else if window.pluginPlayState = .stop then window.play current
  else window

def toggle (window : ControlWindow) (current : Option (PlaylistView × Int)) : ControlWindow :=
  match window.pluginPlayState with
  | .stop => window.play current
  | .pause => window.unpause current
  | .play => window.pause
  | .quit => window

/-- The state that the plugin is in when it has run what the widget and others have posted. -/
def expected (window : ControlWindow) : PluginState :=
  match window.starting with
  | none => window.jobs.foldl stateAfter window.core.currentState
  | some _ => .play

/-- The widget's play state is the one that the plugin comes to. -/
def Agrees (window : ControlWindow) : Prop := window.pluginPlayState = window.expected

instance (window : ControlWindow) : Decidable window.Agrees :=
  inferInstanceAs (Decidable (_ = _))

end ControlWindow

/-- The buttons are in the hands of one thread, which may be about to start an item. -/
def step (window : ControlWindow) : Action → Option ControlWindow
  | .play current => if window.starting = none then some (window.play current) else none
  | .stop => if window.starting = none then some window.stop else none
  | .toggle current => if window.starting = none then some (window.toggle current) else none
  | .previousItem current =>
      if window.starting = none then some (window.stopItem current (-1)) else none
  | .nextItem current => if window.starting = none then some (window.stopItem current 1) else none
  | .startItem =>
      window.starting.map (fun item =>
        { window with jobs := window.jobs ++ [.startPlay item.1 item.2], starting := none })
  | .post job => some { window with jobs := window.jobs ++ [job] }
  | .runJob =>
      match window.jobs with
      | [] => none
      | job :: rest =>
          (window.core.step job).map (fun core =>
            { window with core := core, jobs := rest, ran := window.ran ++ [job] })
  | .handle =>
      (window.core.events[window.handled]?).map (fun event =>
        { window with
          output := heard window.output event
          handled := window.handled + 1 })

/-- What is started is started with the button for it, while there is an item or it plays
already. Another job leaves the state, or an item is about to be started after it. -/
def WithButton (window : ControlWindow) : Action → Prop
  | .play current => window.pluginPlayState = .play ∨ current.isSome = true
  | .toggle current => window.pluginPlayState = .stop → current.isSome = true
  | .previousItem current | .nextItem current =>
      window.pluginPlayState = .play ∨ current = none
  | .post job =>
      window.starting = none → stateAfter window.pluginPlayState job = window.pluginPlayState
  | .stop | .startItem | .runJob | .handle => True

/-- Jobs that end the playing. -/
def halts : Job → Bool
  | .stop | .pause | .quit => true
  | _ => false

/-- A job that has the outputs play: a track was opened. -/
def opens : Job → Bool
  | .decoderOpened true _ => true
  | _ => false

/-- A job that has the plugin play. -/
def starts : Job → Bool
  | .startPlay _ _ | .cont | .inputOpened false _ | .decoderOpened false _ | .soundOpened false =>
      true
  | _ => false

instance (window : ControlWindow) (action : Action) : Decidable (WithButton window action) := by
  unfold WithButton
  split <;> infer_instance

/-- A wanted job has run, and none after it that ends the playing. -/
def Since (wanted : Job → Bool) (ran : List Job) : Prop :=
  ∃ earlier job later, ran = earlier ++ job :: later ∧ wanted job = true ∧
    ∀ other ∈ later, halts other = false

section Steps

variable {window next : ControlWindow} {action : Action}

/-- While the widget is about to start an item, the plugin comes to play whatever is still to be
run, since the start comes last. -/
theorem ControlWindow.expected_starting {item : Int × Int} (starting : window.starting = some item) :
    window.expected = .play := by
  rw [ControlWindow.expected, starting]

/-- Another item is started: the plugin comes to play, if there is an item. -/
theorem stopItem_agrees (agrees : window.Agrees) (current : Option (PlaylistView × Int))
    (offset : Int) :
    (window.stopItem current offset).Agrees ↔
      window.pluginPlayState = .play ∨ current = none := by
  cases current with
  | none => exact iff_of_true agrees (Or.inr rfl)
  | some selected =>
    simp only [ControlWindow.stopItem, playItemOffset, Option.map_some, ControlWindow.Agrees,
      ControlWindow.expected, reduceCtorEq, or_false]

/-- Play: the widget plays, and the plugin when there is an item, or when it does already. -/
theorem play_agrees (agrees : window.Agrees) (current : Option (PlaylistView × Int)) :
    (window.play current).Agrees ↔
      window.pluginPlayState = .play ∨ current.isSome = true := by
  cases current with
  | none =>
    have expected : { window with pluginPlayState := .play }.expected = window.expected := rfl
    simp only [ControlWindow.play, ControlWindow.stopItem, playItemOffset, Option.map_none,
      ControlWindow.Agrees, expected, Option.isSome_none, Bool.false_eq_true, or_false]
    rw [← agrees, eq_comm]
  | some selected =>
    simp only [ControlWindow.play, ControlWindow.stopItem, playItemOffset, Option.map_some,
      ControlWindow.Agrees, ControlWindow.expected, Option.isSome_some, or_true]

/-- A job that is posted last decides where the plugin comes to. -/
theorem posted_agrees (idle : window.starting = none) (shown : PluginState) (job : Job) :
    { window with pluginPlayState := shown, jobs := window.jobs ++ [job] }.Agrees ↔
      shown = stateAfter window.expected job := by
  simp only [ControlWindow.Agrees, ControlWindow.expected, idle, List.foldl_append,
    List.foldl_cons, List.foldl_nil]

/-- After a stop the two agree, whatever they were before. -/
theorem stop_agrees (idle : window.starting = none) : window.stop.Agrees :=
  (posted_agrees idle .stop .stop).mpr rfl

/-- A pause is posted behind all other jobs, and the widget takes its effect in advance. -/
theorem pause_agrees (idle : window.starting = none) (playing : window.pluginPlayState = .play) :
    window.pause.Agrees := by
  rw [ControlWindow.pause, if_pos playing]
  exact (posted_agrees idle .pause .pause).mpr rfl

/-- Out of a pause the widget goes on playing and posts that the plugin is to continue. -/
theorem unpause_agrees (idle : window.starting = none) (paused : window.pluginPlayState = .pause)
    (current : Option (PlaylistView × Int)) : (window.unpause current).Agrees := by
  rw [ControlWindow.unpause, if_pos paused]
  exact (posted_agrees idle .play .cont).mpr rfl

/-- The one button for both: it starts an item out of a stop, and only then can it be pressed
without effect on the plugin. -/
theorem toggle_agrees (agrees : window.Agrees) (idle : window.starting = none)
    (current : Option (PlaylistView × Int)) :
    (window.toggle current).Agrees ↔ (window.pluginPlayState = .stop → current.isSome = true) := by
  rw [ControlWindow.toggle]
  cases shown : window.pluginPlayState with
  | stop =>
    simp only [play_agrees agrees, shown, reduceCtorEq, false_or, forall_const]
  | pause => exact iff_of_true (unpause_agrees idle shown current) nofun
  | play => exact iff_of_true (pause_agrees idle shown) nofun
  | quit => exact iff_of_true agrees nofun

/-- A job of somebody else keeps the agreement exactly when it leaves the state, or when an item
is about to be started behind it. -/
theorem post_agrees (agrees : window.Agrees) (job : Job) :
    { window with jobs := window.jobs ++ [job] }.Agrees ↔
      (window.starting = none →
        stateAfter window.pluginPlayState job = window.pluginPlayState) := by
  cases starting : window.starting with
  | none =>
    have posted := posted_agrees starting window.pluginPlayState job
    rw [← agrees] at posted
    rw [starting] at posted
    rw [posted, eq_comm]
    exact ⟨fun kept _ => kept, fun kept => kept rfl⟩
  | some item =>
    refine iff_of_true ?_ nofun
    have playing := agrees.trans (ControlWindow.expected_starting starting)
    simp only [ControlWindow.Agrees, ControlWindow.expected, playing]

/-- Running the next job leads where it was to lead. -/
theorem runJob_expected {core : PlaylistManagement} {job : Job} {rest ran : List Job}
    (posted : window.jobs = job :: rest) (stepped : window.core.step job = some core) :
    { window with core := core, jobs := rest, ran := ran }.expected = window.expected := by
  rw [ControlWindow.expected, ControlWindow.expected]
  cases window.starting with
  | none => simp only [posted, List.foldl_cons, (step_told stepped).1]
  | some item => rfl

/-- A step leaves the two states in agreement exactly when it starts with the button. -/
theorem agrees_iff (agrees : window.Agrees) (stepped : step window action = some next) :
    next.Agrees ↔ WithButton window action := by
  cases action with
  | play current =>
    simp only [step, Option.ite_none_right_eq_some, Option.some.injEq] at stepped
    obtain ⟨_, rfl⟩ := stepped
    exact play_agrees agrees current
  | stop =>
    simp only [step, Option.ite_none_right_eq_some, Option.some.injEq] at stepped
    obtain ⟨idle, rfl⟩ := stepped
    exact iff_of_true (stop_agrees idle) trivial
  | toggle current =>
    simp only [step, Option.ite_none_right_eq_some, Option.some.injEq] at stepped
    obtain ⟨idle, rfl⟩ := stepped
    exact toggle_agrees agrees idle current
  | previousItem current | nextItem current =>
    simp only [step, Option.ite_none_right_eq_some, Option.some.injEq] at stepped
    obtain ⟨_, rfl⟩ := stepped
    exact stopItem_agrees agrees current _
  | startItem =>
    obtain ⟨item, starting, rfl⟩ := Option.map_eq_some_iff.mp stepped
    refine iff_of_true ?_ trivial
    have playing := agrees.trans (ControlWindow.expected_starting starting)
    simp only [ControlWindow.Agrees, ControlWindow.expected, List.foldl_append, List.foldl_cons,
      List.foldl_nil, stateAfter, playing]
  | post job =>
    obtain rfl := Option.some.inj stepped
    exact post_agrees agrees job
  | runJob =>
    simp only [step] at stepped
    split at stepped
    · cases stepped
    · rename_i job rest posted
      obtain ⟨core, ran, rfl⟩ := Option.map_eq_some_iff.mp stepped
      refine iff_of_true ?_ trivial
      rw [ControlWindow.Agrees, runJob_expected posted ran]
      exact agrees
  | handle =>
    obtain ⟨event, _, rfl⟩ := Option.map_eq_some_iff.mp stepped
    exact iff_of_true agrees trivial

/-! ## What the outputs are told -/

/-- The jobs that have run decide the plugin's state, from the first one on, and what the
outputs are told. -/
structure Invariant (first initial : PluginState) (window : ControlWindow) : Prop where
  inside : window.handled ≤ window.core.events.length
  output : window.output = (window.core.events.take window.handled).foldl heard initial
  state : window.core.currentState = window.ran.foldl stateAfter first
  told : window.core.events.filterMap toOutputs = window.ran.filterMap outputsTold

/-- An output changes its state with the requests to outputs alone, so the other events can be
left out. -/
theorem foldl_heard (initial : PluginState) (events : List Event) :
    events.foldl heard initial =
      (events.filterMap toOutputs).foldl (fun _ command => commanded command) initial := by
  induction events generalizing initial with
  | nil => rfl
  | cons event rest inductionHypothesis =>
    rw [List.foldl_cons, inductionHypothesis, List.filterMap_cons, heard]
    cases toOutputs event <;> rfl

/-- Pressing a button and posting change neither the plugin nor an output. -/
theorem Invariant.posted {first initial : PluginState} (invariant : Invariant first initial window)
    (core : next.core = window.core) (output : next.output = window.output)
    (handled : next.handled = window.handled) (ran : next.ran = window.ran) :
    Invariant first initial next := by
  refine ⟨?_, ?_, ?_, ?_⟩
  · rw [core, handled]
    exact invariant.inside
  · rw [output, core, handled]
    exact invariant.output
  · rw [core, ran]
    exact invariant.state
  · rw [core, ran]
    exact invariant.told

/-- What the buttons for an item do is to post jobs and to change the widget, whether there is an
item or not. -/
theorem stopItem_posted (window : ControlWindow) (current : Option (PlaylistView × Int))
    (offset : Int) :
    (window.stopItem current offset).core = window.core ∧
      (window.stopItem current offset).output = window.output ∧
      (window.stopItem current offset).handled = window.handled ∧
      (window.stopItem current offset).ran = window.ran := by
  rw [ControlWindow.stopItem]
  split <;> exact ⟨rfl, rfl, rfl, rfl⟩

/-- So does the toggle button in each of the states of the widget. -/
theorem toggle_posted (window : ControlWindow) (current : Option (PlaylistView × Int)) :
    (window.toggle current).core = window.core ∧
      (window.toggle current).output = window.output ∧
      (window.toggle current).handled = window.handled ∧
      (window.toggle current).ran = window.ran := by
  have played := stopItem_posted { window with pluginPlayState := .play } current 0
  rw [ControlWindow.toggle]
  split
  · exact played
  · rename_i paused
    rw [ControlWindow.unpause, if_pos paused]
    exact ⟨rfl, rfl, rfl, rfl⟩
  · rw [ControlWindow.pause]
    split <;> exact ⟨rfl, rfl, rfl, rfl⟩
  · exact ⟨rfl, rfl, rfl, rfl⟩

/-- Every step keeps what the two states are made of: the plugin has run the jobs that have run,
and the output has handled some of the calls. -/
theorem step_invariant {first initial : PluginState} (invariant : Invariant first initial window)
    (stepped : step window action = some next) : Invariant first initial next := by
  cases action with
  | play current =>
    simp only [step, Option.ite_none_right_eq_some, Option.some.injEq] at stepped
    obtain ⟨_, rfl⟩ := stepped
    obtain ⟨core, output, handled, ran⟩ :=
      stopItem_posted { window with pluginPlayState := .play } current 0
    exact invariant.posted core output handled ran
  | previousItem current | nextItem current =>
    simp only [step, Option.ite_none_right_eq_some, Option.some.injEq] at stepped
    obtain ⟨_, rfl⟩ := stepped
    obtain ⟨core, output, handled, ran⟩ := stopItem_posted window current _
    exact invariant.posted core output handled ran
  | toggle current =>
    simp only [step, Option.ite_none_right_eq_some, Option.some.injEq] at stepped
    obtain ⟨_, rfl⟩ := stepped
    obtain ⟨core, output, handled, ran⟩ := toggle_posted window current
    exact invariant.posted core output handled ran
  | stop =>
    simp only [step, Option.ite_none_right_eq_some, Option.some.injEq] at stepped
    obtain ⟨_, rfl⟩ := stepped
    exact invariant.posted rfl rfl rfl rfl
  | startItem =>
    obtain ⟨item, _, rfl⟩ := Option.map_eq_some_iff.mp stepped
    exact invariant.posted rfl rfl rfl rfl
  | post job =>
    obtain rfl := Option.some.inj stepped
    exact invariant.posted rfl rfl rfl rfl
  | runJob =>
    simp only [step] at stepped
    split at stepped
    · cases stepped
    · rename_i job rest _
      obtain ⟨core, ran, rfl⟩ := Option.map_eq_some_iff.mp stepped
      obtain ⟨state, new, events, told⟩ := step_told ran
      refine ⟨?_, ?_, ?_, ?_⟩
      · rw [events, List.length_append]
        exact Nat.le_add_right_of_le invariant.inside
      · rw [events, List.take_append_of_le_length invariant.inside]
        exact invariant.output
      · rw [state, invariant.state, List.foldl_append]
        rfl
      · rw [events, List.filterMap_append, invariant.told, told, List.filterMap_append,
          List.filterMap_cons]
        cases outputsTold job <;> rfl
  | handle =>
    obtain ⟨event, found, rfl⟩ := Option.map_eq_some_iff.mp stepped
    refine ⟨(List.getElem?_eq_some_iff.mp found).1, ?_, invariant.state, invariant.told⟩
    rw [List.take_add_one, found, Option.toList_some, List.foldl_append, ← invariant.output]
    rfl

/-- When a track was opened the outputs are told to play. -/
theorem outputsTold_opens {job : Job} (opened : opens job = true) :
    outputsTold job = some .cont := by
  cases job with
  | decoderOpened ok urlId =>
    cases ok with
    | true => rfl
    | false => cases opened
  | _ => cases opened

/-- When the plugin halts the outputs are told so too, and then do not play. -/
theorem outputsTold_halts {job : Job} (ended : halts job = true) :
    ∃ command, outputsTold job = some command ∧ commanded command ≠ .play := by
  cases job with
  | stop => exact ⟨.stop, rfl, nofun⟩
  | pause => exact ⟨.pause, rfl, nofun⟩
  | quit => exact ⟨.quit, rfl, nofun⟩
  | _ => cases ended

/-- No other job tells them anything, not even the one that continues. -/
theorem outputsTold_other {job : Job} (unopened : opens job = false)
    (going : halts job = false) : outputsTold job = none := by
  cases job with
  | decoderOpened ok urlId =>
    cases ok with
    | true => cases unopened
    | false => rfl
  | stop | pause | quit => cases going
  | _ => rfl

/-- The plugin plays after a start, a continue, or a report of a failure, which starts the next
item. -/
theorem stateAfter_starts (state : PluginState) {job : Job} (started : starts job = true) :
    stateAfter state job = .play := by
  cases job with
  | startPlay | cont => rfl
  | inputOpened ok | decoderOpened ok | soundOpened ok =>
    cases ok with
    | true => cases started
    | false => rfl
  | _ => cases started

/-- It does not play after a stop, a pause or the end of the program. -/
theorem stateAfter_halts (state : PluginState) {job : Job} (ended : halts job = true) :
    stateAfter state job ≠ .play := by
  cases job with
  | stop | pause | quit => exact nofun
  | _ => cases ended

/-- Other jobs leave its state. -/
theorem stateAfter_other (state : PluginState) {job : Job} (unstarted : starts job = false)
    (going : halts job = false) : stateAfter state job = state := by
  cases job with
  | startPlay | cont => cases unstarted
  | inputOpened ok | decoderOpened ok | soundOpened ok =>
    cases ok with
    | true => rfl
    | false => cases unstarted
  | stop | pause | quit => cases going
  | _ => rfl

/-- A state that some jobs set to play, and those that halt to another one, is to play when one
of the former has run after the latter, or when it was and none of the latter has run. -/
theorem play_iff_since {wanted : Job → Bool} {change : PluginState → Job → PluginState}
    (sets : ∀ state job, wanted job = true → change state job = .play)
    (ends : ∀ state job, halts job = true → change state job ≠ .play)
    (keeps : ∀ state job, wanted job = false → halts job = false → change state job = state)
    (initial : PluginState) (jobs : List Job) :
    jobs.foldl change initial = .play ↔
      Since wanted jobs ∨ (initial = .play ∧ ∀ job ∈ jobs, halts job = false) := by
  induction jobs using List.reverseRecOn with
  | nil =>
    have nothing : ¬ Since wanted [] := by
      rintro ⟨earlier, job, later, parts, _⟩
      exact absurd parts.symm (List.append_ne_nil_of_right_ne_nil _ (List.cons_ne_nil _ _))
    simp [nothing]
  | append_singleton jobs job inductionHypothesis =>
    have since : Since wanted (jobs ++ [job]) ↔
        wanted job = true ∨ (Since wanted jobs ∧ halts job = false) := by
      constructor
      · rintro ⟨earlier, found, later, parts, asked, none⟩
        cases later using List.reverseRecOn with
        | nil =>
          obtain ⟨_, last⟩ := List.append_inj' parts rfl
          obtain rfl := List.head_eq_of_cons_eq last
          exact Or.inl asked
        | append_singleton later last _ =>
          rw [← List.cons_append, ← List.append_assoc] at parts
          obtain ⟨front, same⟩ := List.append_inj' parts rfl
          obtain rfl := List.head_eq_of_cons_eq same
          refine Or.inr ⟨⟨earlier, found, later, front, asked, fun other member => ?_⟩, ?_⟩
          · exact none other (List.mem_append_left _ member)
          · exact none job (List.mem_append_right _ (List.mem_singleton_self job))
      · rintro (asked | ⟨⟨earlier, found, later, rfl, asked, none⟩, kept⟩)
        · exact ⟨jobs, job, [], rfl, asked, nofun⟩
        · refine ⟨earlier, found, later ++ [job], by simp, asked, fun other member => ?_⟩
          rcases List.mem_append.mp member with before | last
          · exact none other before
          · exact List.mem_singleton.mp last ▸ kept
    rw [List.foldl_append, List.foldl_cons, List.foldl_nil, since]
    cases asked : wanted job with
    | true => simp [sets _ job asked]
    | false =>
      cases ended : halts job with
      | true => simp [ends _ job ended, ended]
      | false =>
        rw [keeps _ job asked ended, inductionHypothesis]
        simp [or_imp, forall_and, ended]

end Steps

/-- A new plugin, and a widget and an output in any states. -/
def start (uninitialised : PlaylistManagement.Uninitialised) (minWaitNextSong : Int)
    (pluginPlayState initial : PluginState) : ControlWindow where
  core := .new uninitialised minWaitNextSong
  jobs := []
  pluginPlayState := pluginPlayState
  starting := none
  output := initial
  handled := 0
  ran := []

section Runs

variable {earlier finish : ControlWindow} {actions : List Action}

/-- From any state where the widget agrees with what the plugin comes to, and so from every stop
on, it does so after every step if and only if each start is one with the button for it. -/
theorem controls_agree (agrees : earlier.Agrees)
    (ran : LabelledRuns.run step earlier actions = some finish) :
    LabelledRuns.Along step (fun _ _ next => next.Agrees) earlier actions ↔
      LabelledRuns.Meets step WithButton earlier actions := by
  have exactly (window : ControlWindow) (action : Action) (next : ControlWindow)
      (before : window.Agrees) (stepped : step window action = some next) :
      next.Agrees ↔ WithButton window action := agrees_iff before stepped
  exact LabelledRuns.along_iff_meets exactly (fun _ _ _ _ _ after => after) agrees ran

/-- A view of a playlist with one item. -/
def oneRow : PlaylistView := { PlaylistView.new with playlistId := 0, rows := [⟨0, 0, []⟩] }

/-- An item is played and paused. When the next item is started out of the pause, the widget takes
it for paused while the plugin plays. -/
theorem controls_agree_paused :
    LabelledRuns.Along step (fun _ _ next => next.Agrees) (start ⟨.stop, -1, -1⟩ 10000 .stop .stop)
        [.play (some (oneRow, -1)), .runJob, .startItem, .toggle none, .runJob, .runJob] ∧
      ¬ LabelledRuns.Along step (fun _ _ next => next.Agrees)
        (start ⟨.stop, -1, -1⟩ 10000 .stop .stop)
        [.play (some (oneRow, -1)), .runJob, .startItem, .toggle none, .nextItem (some (oneRow, 0)),
          .startItem] := by
  constructor
  · refine (controls_agree (by decide) rfl).mpr ?_
    decide
  · intro agree
    exact absurd ((controls_agree (by decide) rfl).mp agree) (by decide)

end Runs

end PlayerControls

end Mprt
