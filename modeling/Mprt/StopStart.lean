import Mprt.LabelledRuns
import Mprt.TrackFlow

/-!
# The item requested after a stop

A stop is a job for each of the three plugins, but only the output plugin drops
its tracks: the input plugin and the decoder plugins manager keep theirs and go on
with them when they are started again. So an item that is requested after a stop
is played after everything that was still on its way.

When the stop finds nothing on its way, the item is the first that is added to the
queue of the output plugin, and no track from before is opened, decoded or played
again. The steps of the player are read as moves of its tracks to show it.
-/

namespace Mprt.StopStart

open Player TrackFlow

/-! ## The tracks of a state -/

/-- The track of a file that the input plugin reports as open. -/
def handedId : ToPlaylist → Option Int
  | .inputOpened ok urlId => if ok then some urlId else none
  | _ => none

/-- The track that the decoder reports as open. -/
def announcedId : ToPlaylist → Option Int
  | .decoderOpened ok urlId => if ok then some urlId else none
  | _ => none

def isFailure : ToPlaylist → Bool
  | .inputOpened ok _ | .decoderOpened ok _ => !ok
  | _ => false

def playlistSoughtId : ToPlaylist → Option Int
  | .seekDuration urlId => some urlId
  | _ => none

def askedId : ToInput → Option Int
  | .addFile urlId => some urlId
  | _ => none

def closingId : ToInput → Option Int
  | .inputClose urlId => some urlId
  | _ => none

def listingId : ToDecoder → Option Int
  | .addInputUrlJob urlId => some urlId
  | _ => none

def reportedId : ToDecoder → Option Int
  | .playFinished urlId => some urlId
  | _ => none

def soughtId : ToDecoder → Option Int
  | .seekDuration urlId => some urlId
  | _ => none

def addingId : ToOutput → Option Int
  | .addSoundDetails urlId => some urlId
  | _ => none

def waitingId (file : File) : Option Int :=
  if file.isOpen then none else some file.urlId

/-- The tracks that pending seeks are for, those that the decoder gets first at the front. -/
def pendingSeeks (state : State) : List Int :=
  state.decoderJobs.filterMap soughtId ++ state.playlistJobs.filterMap playlistSoughtId

/-- Where the tracks of a state are. -/
def flow (state : State) : Flow where
  counter := state.urlId
  starts := state.playlistJobs.count (.startPlay .item)
  stops := state.playlistJobs.count .stop + state.outputJobs.count .stop
  failures := state.playlistJobs.countP isFailure
  seeks := pendingSeeks state
  asked := state.inputJobs.filterMap askedId
  waiting := state.files.filterMap waitingId
  handed := state.playlistJobs.filterMap handedId
  listing := state.decoderJobs.filterMap listingId
  listed := state.decoderDetailList.map (·.urlId)
  announced := state.playlistJobs.filterMap announcedId
  adding := state.outputJobs.filterMap addingId
  queued := state.soundDetailsQueue
  reported := state.decoderJobs.filterMap reportedId
  closing := state.inputJobs.filterMap closingId
  pool := state.decoders
  finished := Option.map (·.urlId) ∘ state.finishedDecoderDetailList
  opened := state.opened
  decoded := state.decoded
  added := state.added

attribute [local simp] handedId announcedId isFailure playlistSoughtId askedId closingId listingId
  reportedId soughtId addingId waitingId pendingSeeks State.postPlaylist State.postInput State.postDecoder
  State.postOutput List.filterMap_cons List.countP_cons

variable {media : Media} {prefetch : Flow → Prop} {state : State}

/-! ## The playlist management -/

/-- Playing an item asks for it with the next url id, and the player does nothing else to its
tracks then. -/
theorem flow_addInputItem (state : State) : flow state.addInputItem = (flow state).ask := by
  simp [flow, State.addInputItem, Flow.ask]

/-- What a request or a failed track asks for: the item when one is found, and nothing otherwise. -/
theorem flow_startPlayInternal (state : State) (found : Found) :
    flow (state.startPlayInternal found) =
      if found = .item then (flow state).ask else flow state := by
  cases found with
  | nothing => rfl
  | list => simp [flow, State.startPlayInternal]
  | item =>
    rw [if_pos rfl, ← flow_addInputItem]
    simp [flow, State.startPlayInternal]

/-- A job that a failed track posts asks for the next item or for nothing, so it is a skip or a
second attempt in the flow. -/
theorem failure_moves (found : Found) {job : ToPlaylist} {rest : List ToPlaylist}
    (pending : state.playlistJobs = job :: rest) (failure : isFailure job = true) :
    Moves media prefetch (flow state)
      (flow ({ state with playlistJobs := rest }.startPlayInternal found)) := by
  have popped : flow { state with playlistJobs := rest } =
      { flow state with failures := rest.countP isFailure } := by
    cases job <;> simp_all [flow]
  have count : (flow state).failures = rest.countP isFailure + 1 := by
    rw [flow, pending, List.countP_cons_of_pos failure]
  rw [flow_startPlayInternal, popped]
  split
  · exact .single (.retried _ count)
  · exact .single (.skipped _ count)

/-- A job of the playlist management is a move. Only a report near the end of an item needs leave,
for the next item that it adds. -/
theorem runPlaylist_moves (env : PlaylistEnv) {job : ToPlaylist} {rest : List ToPlaylist}
    (pending : state.playlistJobs = job :: rest)
    (allowed : ∀ urlId, job = .progress urlId → env.nearEnd = true → env.next = .item →
      prefetch (flow state)) :
    Moves media prefetch (flow state)
      (flow ({ state with playlistJobs := rest }.runPlaylist env job)) := by
  cases job with
  | stop =>
    -- the stop moves on to the output plugin and is still pending
    apply Moves.still
    simp +arith [flow, pending, State.runPlaylist, State.stopInternal]
  | startPlay found =>
    rw [State.runPlaylist, flow_startPlayInternal]
    split
    · rename_i item
      subst item
      have count : (flow state).starts = rest.count (ToPlaylist.startPlay .item) + 1 := by
        simp [flow, pending]
      refine .one (.started _ count) ?_
      simp [flow, pending]
    · rename_i other
      apply Moves.still
      simp [flow, pending, other]
  | seekDuration urlId =>
    apply Moves.still
    simp [flow, pending, State.runPlaylist]
  | progress urlId =>
    have popped : flow { state with playlistJobs := rest } = flow state := by
      simp [flow, pending]
    rw [State.runPlaylist]
    split
    · rename_i asks
      rw [flow_addInputItem, popped]
      exact .single (.prefetched (allowed urlId rfl asks.1 asks.2))
    · exact .still popped
  | inputOpened ok urlId =>
    cases ok with
    | false => exact failure_moves env.next pending rfl
    | true =>
      have first : (flow state).handed = urlId :: rest.filterMap handedId := by
        simp [flow, pending]
      refine .one (.handed urlId _ first) ?_
      simp [flow, pending, State.runPlaylist]
  | decoderOpened ok urlId =>
    cases ok with
    | false => exact failure_moves env.next pending rfl
    | true =>
      have first : (flow state).announced = urlId :: rest.filterMap announcedId := by
        simp [flow, pending]
      refine .one (.passed urlId _ first) ?_
      simp [flow, pending, State.runPlaylist]

/-! ## The input plugin -/

/-- Closing the first file, which is open, is no move: it has been handed over, and does not wait
any more. -/
theorem flow_readFile (env : InputEnv) {file : File} {rest : List File}
    (first : state.files = file :: rest) (isOpen : file.isOpen = true) :
    flow (state.readFile env) = flow state := by
  simp only [State.readFile, first]
  split
  · simp [flow, first, isOpen]
  · rfl

/-- The first file is handed over when it opens. It leaves with a failure when it is missing or
refused, and stays when its size cannot be told. -/
theorem openFile_moves (state : State) {file : File} {rest : List File}
    (first : state.files = file :: rest) (closed : file.isOpen = false) :
    Moves media prefetch (flow state) (flow (state.openFile media file rest).2) := by
  have waits : (flow state).waiting = file.urlId :: rest.filterMap waitingId := by
    simp [flow, first, closed]
  cases answer : media.openFile file.urlId with
  | missing =>
    refine .one (.unopened file.urlId _ waits (by simp [answer])) ?_
    simp [flow, State.openFile, answer]
  | sizeError =>
    apply Moves.still
    rw [State.openFile, answer]
  | unopened =>
    refine .one (.unopened file.urlId _ waits (by simp [answer])) ?_
    simp [flow, State.openFile, answer]
  | opened =>
    refine .one (.opened file.urlId _ waits) ?_
    simp [flow, State.openFile, answer]

/-- When the attempt says that the file was opened, the file is open and still the first of the
list. -/
theorem openFile_opens (state : State) {file : File} {rest : List File}
    (opened : (state.openFile media file rest).1 = true) :
    (state.openFile media file rest).2.files = { file with isOpen := true } :: rest := by
  cases answer : media.openFile file.urlId <;> simp_all [State.openFile]

/-- Reading from the first file opens it if need be, which is the move, and is none for a file
that is open. -/
theorem tryRead_moves (state : State) (env : InputEnv) :
    Moves media prefetch (flow state) (flow (state.tryRead media env)) := by
  cases first : state.files with
  | nil =>
    simp only [State.tryRead, first]
    exact .refl
  | cons file rest =>
    simp only [State.tryRead, first]
    split
    · exact .refl
    · split
      · rename_i isOpen
        exact .still (flow_readFile env first isOpen)
      · rename_i closed
        have opens : Moves media prefetch (flow state) (flow (state.openFile media file rest).2) :=
          openFile_moves state first (by simpa using closed)
        split
        · rename_i opened
          rw [flow_readFile env (openFile_opens state opened) rfl]
          exact opens
        · exact opens

/-- A file that is asked for waits behind the others, or does not exist and is dropped. -/
theorem addFile_moves {urlId : Int} {rest : List ToInput}
    (pending : state.inputJobs = .addFile urlId :: rest) :
    Moves media prefetch (flow state)
      (flow ({ state with inputJobs := rest }.addFile media urlId)) := by
  have first : (flow state).asked = urlId :: rest.filterMap askedId := by
    simp [flow, pending]
  rw [State.addFile]
  split
  · refine .one (.filed urlId _ first) ?_
    split <;> simp [flow, pending]
  · rename_i missing
    refine .one (.unfiled urlId _ first (by simpa using missing)) ?_
    simp [flow, pending]

/-- Giving a buffer to a file changes neither its id nor whether it is open, so the same files
wait. -/
theorem waiting_giveCacheBuf (urlId : Int) (files : List File) :
    (State.giveCacheBuf urlId files).filterMap waitingId = files.filterMap waitingId := by
  induction files with
  | nil => rfl
  | cons file rest inductionHypothesis =>
    simp only [State.giveCacheBuf]
    split
    · simp
    · simp [inductionHypothesis]

/-- The file that is removed may be one that waits. There is at most one such place, the first
with this id. -/
theorem waiting_removed (urlId : Int) (files : List File) :
    (files.eraseP (fun file => file.urlId = urlId)).filterMap waitingId =
        files.filterMap waitingId ∨
      (files.eraseP (fun file => file.urlId = urlId)).filterMap waitingId =
        (files.filterMap waitingId).erase urlId := by
  induction files with
  | nil => exact .inl rfl
  | cons file rest inductionHypothesis =>
    by_cases found : file.urlId = urlId
    · cases isOpen : file.isOpen with
      | true => exact .inl (by simp [found, isOpen])
      | false => exact .inr (by simp [found, isOpen])
    · rcases inductionHypothesis with same | removed
      · exact .inl (by simp [found, same])
      · right
        cases isOpen : file.isOpen <;> simp [found, isOpen, removed]

/-- A track that was played is closed: its file goes, and if it still waited to be opened it is
not handed over. -/
theorem inputClose_moves {urlId : Int} {rest : List ToInput}
    (pending : state.inputJobs = .inputClose urlId :: rest) :
    Moves media prefetch (flow state)
      (flow ({ state with inputJobs := rest }.inputClose urlId)) := by
  have first : (flow state).closing = urlId :: rest.filterMap closingId := by
    simp [flow, pending]
  rw [State.inputClose]
  split
  · refine .one (.closed urlId _ _ first (.inl rfl)) ?_
    simp [flow, pending]
  · refine .one (.closed urlId _ _ first (waiting_removed urlId state.files)) ?_
    simp [flow, pending]

/-- Every job of the input plugin is a move, by the cases of the jobs. -/
theorem runInput_moves (env : InputEnv) {job : ToInput} {rest : List ToInput}
    (pending : state.inputJobs = job :: rest) :
    Moves media prefetch (flow state)
      (flow ({ state with inputJobs := rest }.runInput media env job)) := by
  cases job with
  | addFile urlId => exact addFile_moves pending
  | setCacheBuffer urlId =>
    apply Moves.still
    simp [flow, pending, State.runInput, waiting_giveCacheBuf]
  | inputClose urlId => exact inputClose_moves pending
  | stop =>
    apply Moves.still
    simp [flow, pending, State.runInput]
  | cont =>
    have popped : flow { state with inputJobs := rest, inputState := .play } = flow state := by
      simp [flow, pending]
    exact popped ▸ tryRead_moves _ env

/-! ## The decoder plugins manager -/

/-- The decoder takes up its first track: it is announced when it opens, and reported when it
fails, and a track that is open already stays so. -/
theorem initDecode_moves (state : State) :
    Moves media prefetch (flow state) (flow (state.initDecodeInternalSingle media)) := by
  cases front : state.decoderDetailList with
  | nil =>
    simp only [State.initDecodeInternalSingle, front]
    exact .refl
  | cons track rest =>
    have first : (flow state).listed = track.urlId :: rest.map (·.urlId) := by
      simp [flow, front]
    by_cases known : track.urlId ∈ state.decoders
    · simp only [State.initDecodeInternalSingle, front, known]
      exact .refl
    · cases answer : media.initApi track.urlId with
      | opened =>
        refine .one (.announced track.urlId _ first known) ?_
        simp [flow, State.initDecodeInternalSingle, front, known, answer]
      | refused =>
        have failed : media.initApi track.urlId ≠ .opened := by simp [answer]
        refine .one (.unannounced track.urlId _ _ first failed (.inr rfl)) ?_
        simp [flow, State.initDecodeInternalSingle, front, known, answer]
      | silent =>
        have failed : media.initApi track.urlId ≠ .opened := by simp [answer]
        refine .one (.unannounced track.urlId _ _ first failed (.inl rfl)) ?_
        simp [flow, State.initDecodeInternalSingle, front, known, answer]

/-- Finishing the first track opens the next one, so that two moves follow each other. -/
theorem finish_moves (state : State) {track : Track} {rest : List Track}
    (front : state.decoderDetailList = track :: rest) (urlId : Int) {finish : State}
    (finished : state.finishDecodeInternalSingle media urlId = some finish) :
    Moves media prefetch
      { flow state with
        listed := rest.map (·.urlId)
        finished := Function.update (flow state).finished urlId (some track.urlId) }
      (flow finish) := by
  simp only [State.finishDecodeInternalSingle, front] at finished
  obtain rfl := Option.some.inj finished
  have same : flow { state with
        finishedDecoderDetailList :=
          Function.update state.finishedDecoderDetailList urlId (some track)
        decoderDetailList := rest } =
      { flow state with
        listed := rest.map (·.urlId)
        finished := Function.update (flow state).finished urlId (some track.urlId) } := by
    simp [flow, Function.comp_update]
  rw [← same]
  exact initDecode_moves _

/-- A turn of the decoding loop decodes from the first track, finishes it at its end, or does
nothing. -/
theorem decodeCont_moves (env : DecoderEnv) {finish : State}
    (taken : state.decodeCont media env = some finish) :
    Moves media prefetch (flow state) (flow finish) := by
  have followed : ∀ ended : State, Moves media prefetch (flow state) (flow ended) →
      (if ended.decoderDetailList = [] then ended else ended.postDecoder [.decodeCont]) =
        finish → Moves media prefetch (flow state) (flow finish) := by
    rintro ended moves rfl
    split
    · exact moves
    · exact moves.trans (Moves.still (by simp [flow]))
  unfold State.decodeCont at taken
  split at taken
  · exact Option.some.inj taken ▸ .refl
  · rename_i track rest front
    have first : (flow state).listed = track.urlId :: rest.map (·.urlId) := by
      simp [flow, front]
    split at taken
    · exact Option.some.inj taken ▸ .refl
    · split at taken
      · rename_i ready
        have writes : Moves media prefetch (flow state)
            (flow { state with decoded := state.decoded ++ [track.urlId] }) :=
          .single (.decoded track.urlId _ first ready)
        split at taken
        · obtain ⟨ended, finished, result⟩ := Option.map_eq_some_iff.mp taken
          refine followed ended (writes.trans (.head (.ended track.urlId _ first ready) ?_)) result
          exact finish_moves { state with decoded := state.decoded ++ [track.urlId] } front _ finished
        · exact followed _ writes (Option.some.inj taken)
      · exact followed _ .refl (Option.some.inj taken)

/-- To go on, the decoder opens its first track and then decodes as in any other turn. -/
theorem contInternal_moves (env : DecoderEnv) {finish : State}
    (taken : state.contInternal media env = some finish) :
    Moves media prefetch (flow state) (flow finish) := by
  unfold State.contInternal at taken
  split at taken
  · exact Option.some.inj taken ▸ .refl
  · exact (initDecode_moves state).trans (decodeCont_moves env taken)

/-- A track that was handed over is listed behind the others. Where the loop has to be woken for
it, no track is moved. -/
theorem addInputUrlJob_moves {urlId : Int} {rest : List ToDecoder}
    (pending : state.decoderJobs = .addInputUrlJob urlId :: rest) :
    Moves media prefetch (flow state)
      (flow ({ state with decoderJobs := rest }.addInputUrlJobInternal urlId)) := by
  have first : (flow state).listing = urlId :: rest.filterMap listingId := by
    simp [flow, pending]
  refine .one (.listed urlId _ first) ?_
  simp only [State.addInputUrlJobInternal]
  split <;> simp [flow, pending]

/-- What a seek lists was listed or is the track that was finished under its id. -/
theorem bringToFront_known (state : State) (urlId other : Int)
    (present : other ∈ (flow (state.bringToFront urlId)).listed) :
    other ∈ (flow state).listed ∨ (flow state).finished urlId = some other := by
  simp only [flow, List.mem_map] at present ⊢
  obtain ⟨track, listed, rfl⟩ := present
  unfold State.bringToFront at listed
  split at listed
  · rename_i finished found
    split at listed
    · exact .inl ⟨track, listed, rfl⟩
    · rcases List.mem_cons.mp listed with rfl | earlier
      · exact .inr (by simp [found])
      · exact .inl ⟨track, earlier, rfl⟩
  · split at listed
    · exact .inl ⟨track, listed, rfl⟩
    · rename_i moved found
      rcases List.mem_cons.mp listed with rfl | earlier
      · exact .inl ⟨track, List.mem_of_find?_eq_some found, rfl⟩
      · exact .inl ⟨track, List.mem_of_mem_erase earlier, rfl⟩

/-- A seek for a track that is neither listed nor finished lists nothing. -/
theorem bringToFront_unknown (state : State) (urlId : Int)
    (unlisted : urlId ∉ (flow state).listed) (unfinished : (flow state).finished urlId = none) :
    state.bringToFront urlId = state := by
  have finished : state.finishedDecoderDetailList urlId = none := by
    simpa [flow] using unfinished
  have absent : state.decoderDetailList.find? (fun track => track.urlId = urlId) = none := by
    simpa [flow] using unlisted
  simp only [State.bringToFront, finished, absent]

/-- A seek that brings its track to the front changes the list of the decoder alone. -/
theorem flow_bringToFront (state : State) (urlId : Int) :
    flow (state.bringToFront urlId) =
      { flow state with listed := (flow (state.bringToFront urlId)).listed } := by
  unfold State.bringToFront
  split
  · split <;> rfl
  · split <;> rfl

/-- A seek is answered for the track of its id, which is brought to the front first, and then
decoding goes on. -/
theorem seekDuration_moves (env : DecoderEnv) {urlId : Int} {rest : List ToDecoder}
    {finish : State} (pending : state.decoderJobs = .seekDuration urlId :: rest)
    (taken : ({ state with decoderJobs := rest }.bringToFront urlId).decodeCont media env =
      some finish) :
    Moves media prefetch (flow state) (flow finish) := by
  refine .trans (.single ?_) (decodeCont_moves env taken)
  have popped : flow { state with decoderJobs := rest } =
      { flow state with seeks := pendingSeeks { state with decoderJobs := rest } } := by
    simp [flow, pending]
  have first : (flow state).seeks = urlId :: pendingSeeks { state with decoderJobs := rest } := by
    simp [flow, pending]
  rw [flow_bringToFront, popped]
  refine .sought urlId _ _ first ?_ ?_
  · intro other present
    have known := bringToFront_known _ urlId other present
    rw [popped] at known
    exact known
  · intro unlisted unfinished
    rw [bringToFront_unknown _ urlId (by rw [popped]; exact unlisted)
      (by rw [popped]; exact unfinished), popped]

/-- The state before the next job of the decoder. -/
def before (job : ToDecoder) (state : State) : State :=
  { state with decoderJobs := job :: state.decoderJobs }

/-- With the next job put back, the state is the one from which the job was taken. -/
theorem before_popped {job : ToDecoder} {rest : List ToDecoder}
    (pending : state.decoderJobs = job :: rest) :
    before job { state with decoderJobs := rest } = state := by
  rw [before, ← pending]

/-- Opening a track does not look at the jobs that wait, so the job that is being run can be taken
to wait still. -/
theorem initDecode_before (job : ToDecoder) (state : State) :
    (before job state).initDecodeInternalSingle media =
      before job (state.initDecodeInternalSingle media) := by
  cases front : state.decoderDetailList with
  | nil => simp [State.initDecodeInternalSingle, before, front]
  | cons track rest =>
    by_cases known : track.urlId ∈ state.decoders
    · simp [State.initDecodeInternalSingle, before, front, known]
    · cases answer : media.initApi track.urlId <;>
        simp [State.initDecodeInternalSingle, before, front, known, answer]

/-- Nor does it change which tracks are finished. -/
theorem initDecode_finished (state : State) :
    (state.initDecodeInternalSingle media).finishedDecoderDetailList =
      state.finishedDecoderDetailList := by
  unfold State.initDecodeInternalSingle
  split
  · rfl
  · split
    · rfl
    · split <;> rfl

/-- The answer to a report of a finished track: its decoder and its file go when it was finished
under its own id, and nothing is moved when it was not. -/
theorem release_moves (state : State) (urlId : Int) {finished : Track}
    (found : state.finishedDecoderDetailList urlId = some finished) :
    Moves media prefetch (flow (before (.playFinished urlId) state))
      (flow (state.releaseFinished urlId finished)) := by
  have report : (flow (before (.playFinished urlId) state)).reported =
      urlId :: (flow state).reported := by
    simp [flow, before]
  have answered : (flow (before (.playFinished urlId) state)).finished urlId =
      some finished.urlId := by
    simp [flow, before, found]
  rw [State.releaseFinished]
  split
  · rename_i own
    rw [own] at answered
    refine .one (.released urlId _ report answered) ?_
    simp [flow, before, Function.comp_update]
  · rename_i other
    refine .one (.unmatched urlId finished.urlId _ report answered other) ?_
    simp [flow, before]

/-- Finishing the first track does not look at the waiting jobs either. -/
theorem finish_before (job : ToDecoder) {urlId : Int} {finish : State}
    (finished : state.finishDecodeInternalSingle media urlId = some finish) :
    (before job state).finishDecodeInternalSingle media urlId = some (before job finish) := by
  cases front : state.decoderDetailList with
  | nil => simp [State.finishDecodeInternalSingle, front] at finished
  | cons track rest =>
    simp only [State.finishDecodeInternalSingle, front] at finished
    obtain rfl := Option.some.inj finished
    have same : (before job state).decoderDetailList = track :: rest := front
    simp only [State.finishDecodeInternalSingle, same]
    exact congrArg some (initDecode_before job { state with
      finishedDecoderDetailList :=
        Function.update state.finishedDecoderDetailList urlId (some track)
      decoderDetailList := rest })

/-- The track that was the first is found afterwards under the id that it was finished under. -/
theorem finish_found {urlId : Int} {track : Track} {rest : List Track} {finish : State}
    (front : state.decoderDetailList = track :: rest)
    (finished : state.finishDecodeInternalSingle media urlId = some finish) :
    finish.finishedDecoderDetailList urlId = some track := by
  simp only [State.finishDecodeInternalSingle, front] at finished
  rw [← Option.some.inj finished, initDecode_finished]
  exact Function.update_self ..

/-- A report of a track that is not finished finishes the first track under its id, which is how a
track can be lost. -/
theorem playFinished_moves {urlId : Int} {rest : List ToDecoder} {finish : State}
    (pending : state.decoderJobs = .playFinished urlId :: rest)
    (taken : { state with decoderJobs := rest }.playFinished media urlId = some finish) :
    Moves media prefetch (flow state) (flow finish) := by
  have kept := before_popped pending
  generalize { state with decoderJobs := rest } = popped at kept taken
  subst kept
  unfold State.playFinished at taken
  split at taken
  · rename_i finished found
    obtain rfl := Option.some.inj taken
    exact release_moves popped urlId found
  · rename_i unfinished
    obtain ⟨ended, finished, result⟩ := Option.map_eq_some_iff.mp taken
    cases front : popped.decoderDetailList with
    | nil => simp [State.finishDecodeInternalSingle, front] at finished
    | cons track others =>
      have lost : Move media prefetch (flow (before (.playFinished urlId) popped))
          { flow (before (.playFinished urlId) popped) with
            listed := others.map (·.urlId)
            finished := Function.update (flow popped).finished urlId (some track.urlId) } := by
        refine .lost urlId track.urlId (flow popped).reported _ ?_ ?_ ?_
        · simp [flow, before]
        · simp [flow, before, unfinished]
        · simp [flow, before, front]
      have found := finish_found front finished
      rw [found] at result
      subst result
      refine .head lost (.trans ?_ (release_moves ended urlId found))
      exact finish_moves (before (.playFinished urlId) popped) front urlId
        (finish_before _ finished)

/-- Every job of the decoder plugins manager is a move or several, by the cases of the jobs. -/
theorem runDecoder_moves (env : DecoderEnv) {job : ToDecoder} {rest : List ToDecoder}
    {finish : State} (pending : state.decoderJobs = job :: rest)
    (taken : { state with decoderJobs := rest }.runDecoder media env job = some finish) :
    Moves media prefetch (flow state) (flow finish) := by
  cases job with
  | addInputUrlJob urlId => exact Option.some.inj taken ▸ addInputUrlJob_moves pending
  | playFinished urlId => exact playFinished_moves pending taken
  | seekDuration urlId => exact seekDuration_moves env pending taken
  | decodeCont =>
    have popped : flow { state with decoderJobs := rest } = flow state := by
      simp [flow, pending]
    exact popped ▸ decodeCont_moves env taken
  | stop =>
    rw [← Option.some.inj taken]
    apply Moves.still
    simp [flow, pending]
  | cont =>
    have popped : flow { state with decoderJobs := rest, decoderState := .play } = flow state := by
      simp [flow, pending]
    exact popped ▸ contInternal_moves env taken

/-! ## The output plugin -/

/-- Giving an output buffer to a track keeps the order of the list. -/
theorem listed_giveOutputBuf (urlId : Int) (tracks : List Track) :
    (State.giveOutputBuf urlId tracks).map (·.urlId) = tracks.map (·.urlId) := by
  induction tracks with
  | nil => rfl
  | cons track rest inductionHypothesis =>
    simp only [State.giveOutputBuf]
    split
    · rfl
    · simp [inductionHypothesis]

/-- A track is added to the queue of the output plugin. A stop reports all that is queued, and to
go on moves nothing. -/
theorem runOutput_moves {job : ToOutput} {rest : List ToOutput}
    (pending : state.outputJobs = job :: rest) :
    Moves media prefetch (flow state)
      (flow ({ state with outputJobs := rest }.runOutput job)) := by
  cases job with
  | addSoundDetails urlId =>
    have first : (flow state).adding = urlId :: rest.filterMap addingId := by
      simp [flow, pending]
    refine .one (.added urlId _ first) ?_
    simp [flow, pending, State.runOutput, State.addSoundDetailsInternal, listed_giveOutputBuf]
  | stop =>
    have count : (flow state).stops = (flow { state with outputJobs := rest }).stops + 1 := by
      simp +arith [flow, pending]
    have reports : reportedId ∘ ToDecoder.playFinished = some := rfl
    refine .one (.stopped _ count) ?_
    simp [flow, pending, State.runOutput, State.stopOutput, reports]
  | cont =>
    apply Moves.still
    simp [flow, pending, State.runOutput]

/-- How a turn of the playing loop ends is a matter of its timer, and of no track. -/
theorem flow_endPlay (state : State) (noJob : Bool) : flow (state.endPlay noJob) = flow state := by
  unfold State.endPlay
  split <;> rfl

/-- A turn of the playing loop plays from the first track, reports it at its end, or drops it when
it starves. -/
theorem play_moves (state : State) (ending : PlayEnd) :
    Moves media prefetch (flow state) (flow (state.play ending)) := by
  unfold State.play
  split
  · exact .refl
  · rename_i urlId rest first
    split
    · exact .refl
    · cases ending with
      | refused =>
        refine .one (.played urlId rest first) ?_
        simp [flow]
      | starved => exact .single (.starved urlId rest first)
      | written noJob =>
        apply Moves.still
        rw [flow_endPlay]
        simp [flow]
      | finished noJob =>
        rw [flow_endPlay]
        refine .one (.played urlId rest first) ?_
        simp [flow]

/-! ## Runs -/

/-- Every step of the player is read as moves of its tracks, with leave for a next item where the
step is a report near the end of one. -/
theorem step_moves {action : Action} {next : State} (taken : step media state action = some next)
    (allowed : ∀ env urlId rest, action = .playlist env →
      state.playlistJobs = .progress urlId :: rest → env.nearEnd = true → env.next = .item →
        prefetch (flow state)) :
    Moves media prefetch (flow state) (flow next) := by
  cases action with
  | playlist env =>
    cases pending : state.playlistJobs with
    | nil => simp [step, pending] at taken
    | cons job rest =>
      simp only [step, pending] at taken
      obtain rfl := Option.some.inj taken
      refine runPlaylist_moves env pending ?_
      rintro urlId rfl nearEnd item
      exact allowed env urlId rest rfl pending nearEnd item
  | input env =>
    cases pending : state.inputJobs with
    | nil => simp [step, pending] at taken
    | cons job rest =>
      simp only [step, pending] at taken
      obtain rfl := Option.some.inj taken
      exact runInput_moves env pending
  | tryRead env => exact Option.some.inj taken ▸ tryRead_moves state env
  | decoder env =>
    cases pending : state.decoderJobs with
    | nil => simp [step, pending] at taken
    | cons job rest =>
      simp only [step, pending] at taken
      exact runDecoder_moves env pending taken
  | decodeCont env => exact decodeCont_moves env taken
  | contInternal env => exact contInternal_moves env taken
  | output =>
    cases pending : state.outputJobs with
    | nil => simp [step, pending] at taken
    | cons job rest =>
      simp only [step, pending] at taken
      obtain rfl := Option.some.inj taken
      exact runOutput_moves pending
  | play ending => exact Option.some.inj taken ▸ play_moves state ending

/-- A request of the user gives no id: the id is given when the job for it is run. -/
theorem request_issued (issued : Issued (flow state)) (request : Request) :
    Issued (flow (state.request request)) := by
  have same : (flow (state.request request)).ids = (flow state).ids := by
    cases request <;> simp [flow, State.request, Flow.ids, Flow.ahead, Flow.passing]
  have counter : (flow (state.request request)).counter = (flow state).counter := by
    cases request <;> rfl
  have finished : (flow (state.request request)).finished = (flow state).finished := by
    cases request <;> rfl
  constructor
  · rw [same, counter]
    exact issued.ids
  · rw [finished, counter]
    exact issued.finished

/-- A step keeps that every id in the state has been given, since all moves do. -/
theorem step_issued (before : State) (action : Action) (next : State)
    (issued : Issued (flow before)) (taken : step media before action = some next) :
    Issued (flow next) := by
  have moves : Moves media (fun _ => True) (flow before) (flow next) :=
    step_moves taken (fun _ _ _ _ _ _ _ => trivial)
  exact issued.moves moves

/-- Every id in a reachable state has been given. -/
theorem reachable_issued {uninitialised : Uninitialised} {actions : List (Request ⊕ Action)}
    (ran : LabelledRuns.run (stepWithUser media) (start uninitialised) actions = some state) :
    Issued (flow state) := by
  have kept : ∀ before action next, Issued (flow before) →
      stepWithUser media before action = some next → Issued (flow next) := by
    intro before action next issued taken
    cases action with
    | inl request => exact Option.some.inj taken ▸ request_issued issued request
    | inr action => exact step_issued before action next issued taken
  have initial : Issued (flow (start uninitialised)) := by
    constructor
    · simp [flow, start, Flow.ids, Flow.ahead, Flow.passing]
    · simp [flow, start]
  exact LabelledRuns.run_preserves kept initial ran

/-! ## After the stop -/

/-- The request `start_play` for an item. What is opened, decoded and added is recorded
from here on. -/
def requestItem (state : State) : State :=
  { state.request (.startPlay .item) with opened := [], decoded := [], added := [] }

def isProgress : ToPlaylist → Bool
  | .progress _ => true
  | _ => false

/-- A progress report that is run while a request is pending adds no next item. -/
def NoPrefetch (state : State) : Action → Prop
  | .playlist env =>
      state.playlistJobs.head?.any isProgress = true → env.nearEnd = true → env.next = .item →
        .startPlay .item ∉ state.playlistJobs
  | _ => True

instance : (state : State) → (action : Action) → Decidable (NoPrefetch state action)
  | state, .playlist env => inferInstanceAs (Decidable
      (state.playlistJobs.head?.any isProgress = true → env.nearEnd = true → env.next = .item →
        .startPlay .item ∉ state.playlistJobs))
  | _, .input _ | _, .tryRead _ | _, .decoder _ | _, .decodeCont _ | _, .contInternal _
  | _, .output | _, .play _ => isTrue trivial

/-- Neither a request nor a report of an opened or failed track. -/
def quietPlaylist : ToPlaylist → Bool
  | .stop | .progress _ | .seekDuration _ | .startPlay .nothing | .startPlay .list => true
  | _ => false

/-- No track is on its way: each has been handed to the decoder and decoded to its end.
What is left of it is queued by the output plugin, which is to be stopped, or reported,
once and finished under its own id. No pending seek is for a finished track. -/
structure Settled (state : State) : Prop where
  playlist : ∀ job ∈ state.playlistJobs, quietPlaylist job = true
  input : ∀ job ∈ state.inputJobs, askedId job = none
  files : ∀ file ∈ state.files, file.isOpen = true
  decoder : ∀ job ∈ state.decoderJobs, listingId job = none
  listed : state.decoderDetailList = []
  output : ∀ job ∈ state.outputJobs, addingId job = none
  once : (state.soundDetailsQueue ++ state.decoderJobs.filterMap reportedId).Nodup
  finished : ∀ urlId ∈ state.soundDetailsQueue ++ state.decoderJobs.filterMap reportedId,
    (state.finishedDecoderDetailList urlId).map (·.urlId) = some urlId
  seeks : ∀ urlId ∈ pendingSeeks state,
    urlId ≤ state.urlId ∧ state.finishedDecoderDetailList urlId = none
  stopping : .stop ∈ state.playlistJobs ∨ .stop ∈ state.outputJobs ∨ state.soundDetailsQueue = []

/-- The item requested last, after `old` others, is the first that is added to a queue,
and no earlier one is opened, decoded or, once the output plugin has stopped, played. -/
structure PlaysRequested (old : Int) (finish : State) : Prop where
  first : ∀ urlId ∈ finish.added.head?, urlId = old + 1
  opened : ∀ urlId ∈ finish.opened, old < urlId
  decoded : ∀ urlId ∈ finish.decoded, old < urlId
  played : .stop ∉ finish.playlistJobs → .stop ∉ finish.outputJobs →
    ∀ urlId ∈ finish.soundDetailsQueue, old < urlId

/-- A quiet job carries no track and is neither a request nor a failure. -/
theorem quietPlaylist_nothing {job : ToPlaylist} (quiet : quietPlaylist job = true) :
    job ≠ .startPlay .item ∧ isFailure job = false ∧ handedId job = none ∧
      announcedId job = none := by
  cases job with
  | startPlay found => cases found <;> simp_all [quietPlaylist]
  | _ => simp_all [quietPlaylist]

/-- The request, the seeks and the tracks of the output plugin are all that is left. -/
theorem flow_requestItem (settled : Settled state) : flow (requestItem state) =
    { flow state with
      starts := 1
      failures := 0
      asked := []
      waiting := []
      handed := []
      listing := []
      listed := []
      announced := []
      adding := []
      opened := []
      decoded := []
      added := [] } := by
  have playlist := fun job present => quietPlaylist_nothing (settled.playlist job present)
  have starts : state.playlistJobs.count (.startPlay .item) = 0 :=
    List.count_eq_zero.mpr (fun present => (playlist _ present).1 rfl)
  have failures : state.playlistJobs.countP isFailure = 0 :=
    List.countP_eq_zero.mpr (fun job present => Bool.eq_false_iff.mp (playlist job present).2.1)
  have handed : state.playlistJobs.filterMap handedId = [] :=
    List.filterMap_eq_nil_iff.mpr (fun job present => (playlist job present).2.2.1)
  have announced : state.playlistJobs.filterMap announcedId = [] :=
    List.filterMap_eq_nil_iff.mpr (fun job present => (playlist job present).2.2.2)
  have listing : state.decoderJobs.filterMap listingId = [] :=
    List.filterMap_eq_nil_iff.mpr settled.decoder
  have asked : state.inputJobs.filterMap askedId = [] :=
    List.filterMap_eq_nil_iff.mpr settled.input
  have adding : state.outputJobs.filterMap addingId = [] :=
    List.filterMap_eq_nil_iff.mpr settled.output
  have waiting : state.files.filterMap waitingId = [] :=
    List.filterMap_eq_nil_iff.mpr (fun file present => by simp [settled.files file present])
  simp [flow, requestItem, State.request, starts, failures, handed, announced, listing, asked,
    adding, waiting, settled.listed]

/-- A settled player to which a request is made is at the first stage: the request is pending, and
nothing is before it. -/
theorem requestItem_requested (issued : Issued (flow state)) (settled : Settled state) :
    Requested state.urlId (flow (requestItem state)) := by
  have bounded := issued.ids
  simp only [Flow.ids, List.mem_append] at bounded
  rw [flow_requestItem settled]
  constructor
  · constructor
    case sought => exact fun urlId pending => (settled.seeks urlId pending).1
    case seeks =>
      intro urlId pending track finished
      simp [flow, (settled.seeks urlId pending).2] at finished
    case queued =>
      intro stops
      have none : state.playlistJobs.count .stop = 0 ∧ state.outputJobs.count .stop = 0 :=
        Nat.add_eq_zero_iff.mp stops
      simp only [List.count_eq_zero] at none
      rcases settled.stopping with pending | pending | empty
      · exact absurd pending none.1
      · exact absurd pending none.2
      · simp [flow, empty]
    all_goals simp [flow, Flow.ahead, Flow.passing]
  · refine .requested rfl rfl rfl rfl rfl
      ⟨settled.once, settled.finished, ?_, ?_, ?_, issued.finished⟩
    · exact fun urlId closing => bounded urlId (.inl (.inr closing))
    · intro urlId present
      rcases List.mem_append.mp present with queued | reported
      · exact bounded urlId (.inl (.inl (.inl (.inr queued))))
      · exact bounded urlId (.inl (.inl (.inr reported)))
    · exact fun urlId pool => bounded urlId (.inr pool)

/-- After a stop an item is requested that can be opened. In every interleaving in which
no progress report adds a next item while the request is pending, it is the first that is
played, if no other track was on its way when it was requested. -/
theorem stop_start_plays {uninitialised : Uninitialised} {requests : List (Request ⊕ Action)}
    {between actions : List Action} {playing finish : State}
    (reached : LabelledRuns.run (stepWithUser media) (start uninitialised) requests =
      some playing)
    (stopped : LabelledRuns.run (step media) (playing.request .stop) between = some state)
    (settled : Settled state) (playable : Playable media (state.urlId + 1))
    (condition : LabelledRuns.Meets (step media) NoPrefetch (requestItem state) actions)
    (ran : LabelledRuns.run (step media) (requestItem state) actions = some finish) :
    PlaysRequested state.urlId finish := by
  have issued : Issued (flow state) :=
    LabelledRuns.run_preserves step_issued (request_issued (reachable_issued reached) .stop) stopped
  have kept : ∀ before action next, Requested state.urlId (flow before) →
      NoPrefetch before action → step media before action = some next →
      Requested state.urlId (flow next) := by
    intro before action next holds allowed taken
    refine holds.moves playable (step_moves taken ?_)
    rintro env urlId rest rfl pending nearEnd item
    have absent := allowed (by simp [pending, isProgress]) nearEnd item
    exact List.count_eq_zero.mpr absent
  obtain ⟨clean, stage⟩ := LabelledRuns.run_preserves_under kept
    (requestItem_requested issued settled) condition ran
  refine ⟨fun urlId first => stage.first_added first, clean.opened, clean.decoded, ?_⟩
  intro playlist output
  apply clean.queued
  simp [flow, List.count_eq_zero.mpr playlist, List.count_eq_zero.mpr output]

/-- Three threads that happen to be stopped at first. -/
def allStopped : Uninitialised := ⟨.stop, .stop, .stop⟩

/-- Every file and every track can be opened. -/
def allOpen : Media where
  maxFinishFiles := 5
  fileExists := fun _ => true
  openFile := fun _ => .opened
  initApi := fun _ => .opened

def onPlaylist : Action := .playlist ⟨.item, false⟩
def onInput : Action := .input ⟨false, false⟩
def onDecoder : Action := .decoder ⟨false, false, false⟩

/-- A first item is requested and decoded to its end. -/
def playFirst : List (Request ⊕ Action) :=
  [.inl (.startPlay .item), .inr onPlaylist, .inr onInput, .inr onInput, .inr onPlaylist,
    .inr onDecoder, .inr onDecoder, .inr onInput, .inr (.tryRead ⟨false, true⟩), .inr onPlaylist,
    .inr .output, .inr .output, .inr (.decodeCont ⟨false, false, true⟩)]

/-- Then it is in the queue of the output plugin and nowhere else on its way. -/
def firstQueued : State where
  playlistJobs := []
  urlId := 1
  inputState := .play
  inputJobs := []
  files := []
  finishedFiles := [⟨1, true, true⟩]
  decoderState := .play
  decoderJobs := []
  decoderDetailList := []
  finishedDecoderDetailList := Function.update (fun _ => none) 1 (some ⟨1, true⟩)
  decoders := [1]
  outputState := .play
  outputJobs := []
  soundDetailsQueue := [1]
  opened := [1, 1]
  decoded := [1]
  added := [1]

/-- One item is played up to where the output plugin has it queued and the decoder has finished
it. -/
theorem playFirst_reaches :
    LabelledRuns.run (stepWithUser allOpen) (start allStopped) playFirst = some firstQueued :=
  rfl

/-- The stop and the request of a second item, whose file and track are opened. -/
def playSecond : List Action :=
  [onPlaylist, onPlaylist, onInput, onInput, onInput, .output, onDecoder, onDecoder, onPlaylist,
    onDecoder, onDecoder, onPlaylist, .output]

/-- A stop then finds nothing on its way, and the second item that is requested is the one that is
played. -/
theorem stop_start_plays_second : ∃ finish,
    LabelledRuns.run (step allOpen) (requestItem (firstQueued.request .stop)) playSecond =
        some finish ∧
      finish.added = [2] ∧ PlaysRequested 1 finish := by
  refine ⟨_, rfl, rfl, ?_⟩
  have stopped : LabelledRuns.run (step allOpen) (firstQueued.request .stop) [] =
      some (firstQueued.request .stop) := rfl
  have settled : Settled (firstQueued.request .stop) := by
    constructor <;> decide
  exact stop_start_plays playFirst_reaches stopped settled ⟨rfl, rfl, rfl⟩
    (by decide : LabelledRuns.Meets (step allOpen) NoPrefetch _ playSecond) rfl

/-- The first item is near its end, so that the next one is requested; its file is
opened and the decoder lists it. -/
def prefetchSecond : List (Request ⊕ Action) :=
  playFirst ++ [.inr (.play (.written false)), .inr (.playlist ⟨.item, true⟩), .inr onInput,
    .inr onInput, .inr onPlaylist, .inr onDecoder]

/-- The stop and the request of a third item, with the jobs of the output plugin run to
the end. -/
def playThird : List Action :=
  [onPlaylist, onPlaylist, .output, onDecoder, onPlaylist, .output]

/-- The stop leaves the second item with the decoder, and it is played in place of the
third. -/
theorem prefetched_item_played : ∃ playing finish,
    LabelledRuns.run (stepWithUser allOpen) (start allStopped) prefetchSecond = some playing ∧
      LabelledRuns.run (step allOpen) (requestItem (playing.request .stop)) playThird =
        some finish ∧
      playing.urlId = 2 ∧ finish.urlId = 3 ∧ finish.soundDetailsQueue = [2] ∧
      ¬ PlaysRequested 2 finish := by
  refine ⟨_, _, rfl, rfl, rfl, rfl, rfl, ?_⟩
  intro plays
  have first := plays.first 2 (by decide)
  revert first
  decide

end Mprt.StopStart
