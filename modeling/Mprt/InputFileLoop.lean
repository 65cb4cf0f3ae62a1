import Mathlib.Logic.Function.Basic
import Mprt.AsyncTasker
import Mprt.InputPluginFile
import Mprt.OutputPluginApi

/-!
# The event loop of the input plugin

`input_plugin_file` keeps a list of files to be read and a list of files read to
their end. Its thread runs posted jobs and the timer job `try_read`, which opens
the first file, reads a piece of it into the buffer of its track, and starts the
timer again. Other threads post jobs: the playlist manager adds files and
changes the state, the decoder supplies buffers, asks for seeks and closes files.

Every job runs to its end before the next. What the disk says about a file is
given with the job, and so is what the decoder does to the shared buffers between
two jobs. An exception from the file system leaves `try_read` by its scope exit.
The job `remove_file` is left out.
-/

namespace Mprt

/-- `file_details`. The stream of a file that is not open has no content. -/
structure FileEntry where
  filename : String
  urlId : Int
  isOpen : Bool
  details : FileDetails
  cacheBuf : Option Nat
deriving DecidableEq

/-- What the disk says about a file: it is missing, its size can not be had, it
has a size and can not be opened, or it is opened. -/
inductive Disk where
  | missing
  | sizeError
  | unopened (size : Int)
  | opened (size : Int) (content : List UInt8)
deriving DecidableEq

/-- The jobs of the plugin. `tryRead` is the job of the timer, the others are posted. -/
inductive InputJob where
  | addFile (filename : String) (urlId : Int)
  | setCacheBuffer (urlId : Int) (cacheBuf : Nat)
  | seekCallback (urlId seekPoint : Int)
  | inputClose (urlId : Int)
  | stop
  | pause
  | cont
  | quit
  | tryRead
deriving DecidableEq

/-- The details that `_input_opened_register_func` is called with. -/
structure InputOpened where
  ok : Bool
  url : String
  streamLength : Int
  urlId : Int
deriving DecidableEq

/-- The members of `input_plugin_file`, the memory of buffers, and as history the
calls of `_input_opened_register_func`. -/
structure InputFileLoop where
  files : List FileEntry
  finishedFiles : List FileEntry
  maxFileChunkSize : Nat
  maxFinishFiles : Int
  urlId : Int
  currentState : PluginState
  fileReadTimer : Option Nat
  tasker : AsyncTasker InputJob
  buffers : Nat → CacheBuffer
  inputOpened : List InputOpened

namespace FileEntry

/-- The constructor of `file_details`. -/
def make (filename : String) (urlId : Int) : FileEntry :=
  ⟨filename, urlId, false, ⟨⟨[], 0, false⟩, 0, 0⟩, none⟩

/-- Opening gives the stream its content and clears its error state. -/
def opened (entry : FileEntry) (size : Int) (content : List UInt8) : FileEntry :=
  { entry with
    isOpen := true
    details := { entry.details with file := ⟨content, 0, false⟩, fileSize := size } }

/-- The file's part of `seek_helper`. -/
def seek (entry : FileEntry) (seekPoint : Int) : FileEntry :=
  { entry with details := InputPluginFile.seekHelper entry.details seekPoint }

/-- Change the first file with the url id. -/
def changeFirst (urlId : Int) (change : FileEntry → FileEntry) : List FileEntry → List FileEntry
  | [] => []
  | entry :: rest =>
      if entry.urlId = urlId then change entry :: rest else entry :: changeFirst urlId change rest

/-- Erase the first file with the url id. -/
def eraseFirst (urlId : Int) (entries : List FileEntry) : List FileEntry :=
  entries.eraseP (fun entry => entry.urlId = urlId)

end FileEntry

namespace InputFileLoop

/-- A plugin with no file, in any state. -/
def start (maxFileChunkSize : Nat) (maxFinishFiles : Int) (maxTimerCount : Nat)
    (currentState : PluginState) (buffers : Nat → CacheBuffer) : InputFileLoop where
  files := []
  finishedFiles := []
  maxFileChunkSize := maxFileChunkSize
  maxFinishFiles := maxFinishFiles
  urlId := 0
  currentState := currentState
  fileReadTimer := none
  tasker := .make maxTimerCount
  buffers := buffers
  inputOpened := []

def isNoJob (state : InputFileLoop) : Bool := state.files.isEmpty

def addJob (state : InputFileLoop) (job : InputJob) : InputFileLoop :=
  { state with tasker := state.tasker.addAsyncJob job }

/-- `_file_read_timer && is_active_timer(_file_read_timer)`. -/
def fileReadTimerActive (state : InputFileLoop) : Bool :=
  state.fileReadTimer.any state.tasker.isActiveTimer

/-- `add_file`, with the answer whether the file exists. -/
def addFile (state : InputFileLoop) (disk : Disk) (filename : String) (urlId : Int) :
    InputFileLoop :=
  if disk = .missing then state
  else
    let added := { state with files := state.files ++ [.make filename urlId] }
    if state.currentState = .play then added.addJob .cont else added

/-- The call of `_input_opened_register_func` at the end of `open_file`. -/
def callInputOpened (state : InputFileLoop) (ok : Bool) (entry : FileEntry) : InputFileLoop :=
  { state with inputOpened := state.inputOpened ++
      [⟨ok, entry.filename, entry.details.fileSize, entry.urlId⟩] }

/-- `open_file` for the first file of the list. A file that is erased is still
read afterwards. Such a read is undefined; here it gives the values that the entry
had, and only the reported details depend on them, not the lists and the timers.
There is no result when the size of the file can not be had. -/
def openFile (state : InputFileLoop) (disk : Disk) (entry : FileEntry) (rest : List FileEntry) :
    Option (Bool × InputFileLoop) :=
  if state.currentState ≠ .play then some (false, state)
  else
    match disk with
    | .missing => some (false, { state with files := rest }.callInputOpened false entry)
    | .sizeError => none
    | .unopened size =>
        let sized := { entry with details := { entry.details with fileSize := size } }
        some (false, { state with files := rest }.callInputOpened false sized)
    | .opened size content =>
        let opened := entry.opened size content
        some (true, { state with files := opened :: rest }.callInputOpened true opened)

/-- `close_file`: the first file goes to the finished ones. -/
def closeFile (state : InputFileLoop) : InputFileLoop :=
  match state.files with
  | [] => state
  | entry :: rest =>
      { state with files := rest, finishedFiles := state.finishedFiles ++ [entry] }

def setBuffer (state : InputFileLoop) (address : Nat) (buffer : CacheBuffer) : InputFileLoop :=
  { state with buffers := Function.update state.buffers address buffer }

/-- The duration until the next read, by how full the data queue is. -/
def nextDuration (buffer : CacheBuffer) : Int :=
  let count : Int := CacheBuffer.bufferSizeCount buffer.bufferSize buffer.elemSize
  let dataSize : Int := buffer.dataBuffer.items.length
  if count - dataSize ≤ 2 then 1000000 else if dataSize > 2 then 100000 else 0

/-- The file read part of `try_read` on the first file, which is open, with the
duration until the next read. -/
def readFile (state : InputFileLoop) (entry : FileEntry) (rest : List FileEntry) :
    Int × InputFileLoop :=
  match entry.cacheBuf with
  | none => (1000, state)
  | some address =>
    match InputPluginFile.tryRead state.maxFileChunkSize entry.details (state.buffers address) with
    | none => (1000000, state)
    | some (details, buffer, isFileFinished) =>
      let read := { state with files := { entry with details := details } :: rest }.setBuffer
        address buffer
      (nextDuration buffer, if isFileFinished then read.closeFile else read)

/-- The test of the finished files. A negative maximum is compared as a huge one. -/
def gateClosed (state : InputFileLoop) : Bool :=
  decide (0 ≤ state.maxFinishFiles ∧ state.maxFinishFiles ≤ state.finishedFiles.length)

/-- `try_read` between the registration of its scope exit and that exit. -/
def tryReadBody (state : InputFileLoop) (disk : Disk) (entry : FileEntry)
    (rest : List FileEntry) : Int × InputFileLoop :=
  if state.gateClosed then (1000000, state)
  else if entry.isOpen then state.readFile entry rest
  else
    match state.openFile disk entry rest with
    | none => (1000, state)
    | some (isOpened, opened) =>
      match isOpened, opened.files with
      | true, entry :: rest => opened.readFile entry rest
      | _, _ => (1000, opened)

/-- The scope exit of `try_read`. -/
def rearm (state : InputFileLoop) (nextDur : Int) : InputFileLoop :=
  if state.isNoJob || state.fileReadTimerActive then state
  else
    let timer := state.tasker.addAsyncJobThreadInternal .tryRead nextDur
    { state with tasker := timer.2, fileReadTimer := some timer.1 }

/-- `try_read`. -/
def tryRead (state : InputFileLoop) (disk : Disk) : InputFileLoop :=
  if state.currentState ≠ .play then state
  else
    match state.files with
    | [] => state
    | entry :: rest =>
      if state.fileReadTimerActive then state
      else
        let read := state.tryReadBody disk entry rest
        read.2.rearm read.1

/-- The buffer's part of `seek_helper`; a null buffer is no result. -/
def clearCache (state : InputFileLoop) (entry : FileEntry) : Option InputFileLoop :=
  entry.cacheBuf.map (fun address => state.setBuffer address (state.buffers address).clearCache)

/-- The search of `seek_callback_internal`: a file in the list is moved to the
seek point where it is, a finished one also comes back to the front. -/
def seekFiles (state : InputFileLoop) (urlId seekPoint : Int) : Option InputFileLoop :=
  match state.files.find? (fun entry => entry.urlId = urlId) with
  | some entry =>
      (state.clearCache entry).map (fun cleared =>
        { cleared with
          files := FileEntry.changeFirst urlId (·.seek seekPoint) state.files })
  | none =>
    match state.finishedFiles.find? (fun entry => entry.urlId = urlId) with
    | none => some state
    | some entry =>
        (state.clearCache entry).map (fun cleared =>
          { cleared with
            files := entry.seek seekPoint :: state.files
            finishedFiles := FileEntry.eraseFirst urlId state.finishedFiles })

/-- `seek_callback_internal`. -/
def seekCallbackInternal (state : InputFileLoop) (disk : Disk) (urlId seekPoint : Int) :
    Option InputFileLoop :=
  (state.seekFiles urlId seekPoint).map (fun sought =>
    if state.isNoJob then { sought with currentState := .play }.tryRead disk else sought)

/-- `input_close`. -/
def inputClose (state : InputFileLoop) (urlId : Int) : InputFileLoop :=
  if state.finishedFiles.any (fun entry => entry.urlId = urlId) then
    { state with finishedFiles := FileEntry.eraseFirst urlId state.finishedFiles }
  else { state with files := FileEntry.eraseFirst urlId state.files }

/-- The job of `set_cache_buffer`. -/
def setCacheBuffer (state : InputFileLoop) (urlId : Int) (cacheBuf : Nat) : InputFileLoop :=
  let give (entry : FileEntry) := { entry with cacheBuf := some cacheBuf }
  { state with files := FileEntry.changeFirst urlId give state.files }

/-- One job runs to its end. -/
def handle (state : InputFileLoop) (disk : Disk) : InputJob → Option InputFileLoop
  | .addFile filename urlId => some (state.addFile disk filename urlId)
  | .setCacheBuffer urlId cacheBuf => some (state.setCacheBuffer urlId cacheBuf)
  | .seekCallback urlId seekPoint => state.seekCallbackInternal disk urlId seekPoint
  | .inputClose urlId => some (state.inputClose urlId)
  | .stop => some { state with currentState := .stop }
  | .pause => some { state with currentState := .pause }
  | .cont => some ({ state with currentState := .play }.tryRead disk)
  | .quit => some { state with currentState := .quit }
  | .tryRead => some (state.tryRead disk)

/-- What happens next: another thread posts a job, the loop runs the next posted
job or the job of a timer, or the decoder changes a buffer. A file gets the next
number of the counter when it is posted. -/
inductive Action where
  | addInputItem (filename : String)
  | setCacheBuffer (urlId : Int) (cacheBuf : Nat)
  | seekCallbackJob (urlId seekPoint : Int)
  | decoderFinish (urlId : Int)
  | stop
  | pause
  | cont
  | quit
  | runPosted (disk : Disk)
  | handleTimeout (call : Nat) (disk : Disk)
  | changeBuffer (address : Nat) (buffer : CacheBuffer)
deriving DecidableEq

/-- The next posted handler. -/
def runPosted (state : InputFileLoop) (disk : Disk) : Option InputFileLoop :=
  state.tasker.runPosted.bind (fun ran =>
    match ran.1 with
    | none => some { state with tasker := ran.2 }
    | some job => { state with tasker := ran.2 }.handle disk job)

/-- The job of a timer. -/
def handleTimeout (state : InputFileLoop) (call : Nat) (disk : Disk) : Option InputFileLoop :=
  (state.tasker.handleTimeout call).bind (fun ran =>
    { state with tasker := ran.2 }.handle disk ran.1)

def step (state : InputFileLoop) : Action → Option InputFileLoop
  | .addInputItem filename =>
      some ({ state with urlId := state.urlId + 1 }.addJob (.addFile filename (state.urlId + 1)))
  | .setCacheBuffer urlId cacheBuf => some (state.addJob (.setCacheBuffer urlId cacheBuf))
  | .seekCallbackJob urlId seekPoint => some (state.addJob (.seekCallback urlId seekPoint))
  | .decoderFinish urlId => some (state.addJob (.inputClose urlId))
  | .stop => some (state.addJob .stop)
  | .pause => some (state.addJob .pause)
  | .cont => some (state.addJob .cont)
  | .quit => some (state.addJob .quit)
  | .runPosted disk => state.runPosted disk
  | .handleTimeout call disk => state.handleTimeout call disk
  | .changeBuffer address buffer => some (state.setBuffer address buffer)

/-- What reading a file leaves alone: the loop and its timer, and the counters. -/
structure SameLoop (before after : InputFileLoop) : Prop where
  tasker : after.tasker = before.tasker
  timer : after.fileReadTimer = before.fileReadTimer
  currentState : after.currentState = before.currentState
  maxFinishFiles : after.maxFinishFiles = before.maxFinishFiles
  urlId : after.urlId = before.urlId

/-- What does nothing leaves the loop alone. -/
theorem SameLoop.refl (state : InputFileLoop) : SameLoop state state := ⟨rfl, rfl, rfl, rfl, rfl⟩

/-- So does what leaves it alone twice. -/
theorem SameLoop.trans {first second third : InputFileLoop} (before : SameLoop first second)
    (after : SameLoop second third) : SameLoop first third :=
  ⟨after.tasker.trans before.tasker, after.timer.trans before.timer,
    after.currentState.trans before.currentState,
    after.maxFinishFiles.trans before.maxFinishFiles, after.urlId.trans before.urlId⟩

/-- Reading a chunk changes the file and its buffer, and says how long the loop may sleep. The
timer is armed elsewhere. -/
theorem readFile_sameLoop (state : InputFileLoop) (entry : FileEntry) (rest : List FileEntry) :
    SameLoop state (state.readFile entry rest).2 := by
  simp only [readFile]
  split
  · exact .refl state
  · split
    · exact .refl state
    · split <;> exact ⟨rfl, rfl, rfl, rfl, rfl⟩

/-- Opening a file changes the list of files and the calls that are to be reported, whichever way
it ends. -/
theorem openFile_sameLoop {state opened : InputFileLoop} {disk : Disk} {entry : FileEntry}
    {rest : List FileEntry} {isOpened : Bool}
    (taken : state.openFile disk entry rest = some (isOpened, opened)) :
    SameLoop state opened := by
  simp only [openFile] at taken
  split at taken
  · obtain ⟨_, rfl⟩ := Prod.mk.inj (Option.some.inj taken)
    exact .refl state
  · cases disk with
    | sizeError => contradiction
    | missing | unopened size | opened size content =>
      obtain ⟨_, rfl⟩ := Prod.mk.inj (Option.some.inj taken)
      exact ⟨rfl, rfl, rfl, rfl, rfl⟩

/-- The whole body of `try_read` before the timer is armed, by its branches. -/
theorem tryReadBody_sameLoop (state : InputFileLoop) (disk : Disk) (entry : FileEntry)
    (rest : List FileEntry) : SameLoop state (state.tryReadBody disk entry rest).2 := by
  simp only [tryReadBody]
  split
  · exact .refl state
  · split
    · exact readFile_sameLoop state entry rest
    · split
      · exact .refl state
      · rename_i isOpened opened taken
        have same := openFile_sameLoop taken
        split
        · exact same.trans (readFile_sameLoop _ _ _)
        · exact same

/-- Only `try_read` waits for a timer, and no timer is created by a posted handler. -/
structure TimersRead (tasker : AsyncTasker InputJob) : Prop where
  waits : ∀ wait ∈ tasker.waits, wait.job = .tryRead
  posted : ∀ job dur, .createGetTimer job dur ∉ tasker.posted

namespace TimersRead

variable {tasker : AsyncTasker InputJob}

/-- A new tasker waits for nothing. -/
theorem make (maxTimerCount : Nat) : TimersRead (.make maxTimerCount) :=
  ⟨by simp [AsyncTasker.make], by simp [AsyncTasker.make]⟩

/-- Posting a job makes no timer. -/
theorem addJob (reads : TimersRead tasker) (job : InputJob) :
    TimersRead (tasker.addAsyncJob job) := by
  refine ⟨reads.waits, ?_⟩
  intro other dur member
  rcases List.mem_append.mp member with before | last
  · exact reads.posted other dur before
  · simp at last

/-- The timer that is made is one for `try_read`, and it is the only one that comes to be waited
for. -/
theorem createGetTimer (reads : TimersRead tasker) (dur : Int) :
    TimersRead (tasker.createGetTimer .tryRead dur).2 := by
  obtain ⟨_, waits, posted, _⟩ := tasker.createGetTimer_armed .tryRead dur
  refine ⟨?_, posted ▸ reads.posted⟩
  intro wait member
  rw [waits] at member
  rcases List.mem_append.mp member with before | last
  · exact reads.waits wait before
  · rw [List.mem_singleton.mp last]

/-- A timer that has come is not waited for any more. -/
theorem retire (reads : TimersRead tasker) (wait : Wait InputJob) :
    TimersRead (tasker.retire wait) :=
  ⟨fun other member => reads.waits other (List.mem_of_mem_filter member), reads.posted⟩

end TimersRead

/-- `try_read` arms its timer or leaves the loop alone. -/
theorem tryRead_tasker (state : InputFileLoop) (disk : Disk) :
    (state.tryRead disk).tasker = state.tasker ∨
      ∃ dur, (state.tryRead disk).tasker = (state.tasker.createGetTimer .tryRead dur).2 := by
  simp only [tryRead]
  split
  · exact .inl rfl
  · split
    · exact .inl rfl
    · rename_i entry rest _
      split
      · exact .inl rfl
      · have same := (state.tryReadBody_sameLoop disk entry rest).tasker
        rw [rearm]
        split
        · exact .inl same
        · refine .inr ⟨(state.tryReadBody disk entry rest).1, ?_⟩
          rw [← same]
          rfl

/-- No file is sought, and no buffer cleared, by another job or another timer. -/
theorem seekFiles_sameLoop {state sought : InputFileLoop} {urlId seekPoint : Int}
    (taken : state.seekFiles urlId seekPoint = some sought) : SameLoop state sought := by
  simp only [seekFiles, clearCache, Option.map_map] at taken
  split at taken
  · rw [Option.map_eq_some_iff] at taken
    obtain ⟨address, _, rfl⟩ := taken
    exact ⟨rfl, rfl, rfl, rfl, rfl⟩
  · split at taken
    · exact Option.some.inj taken ▸ .refl state
    · rw [Option.map_eq_some_iff] at taken
      obtain ⟨address, _, rfl⟩ := taken
      exact ⟨rfl, rfl, rfl, rfl, rfl⟩

/-- Whatever a job does to the loop: nothing, post `cont`, or arm the timer. -/
theorem handle_tasker {state next : InputFileLoop} {disk : Disk} {job : InputJob}
    (taken : state.handle disk job = some next) :
    next.tasker = state.tasker ∨ next.tasker = state.tasker.addAsyncJob .cont ∨
      ∃ dur, next.tasker = (state.tasker.createGetTimer .tryRead dur).2 := by
  cases job with
  | addFile filename urlId =>
    obtain rfl := Option.some.inj taken
    rw [addFile]
    split
    · exact .inl rfl
    · split
      · exact .inr (.inl rfl)
      · exact .inl rfl
  | seekCallback urlId seekPoint =>
    simp only [handle, seekCallbackInternal, Option.map_eq_some_iff] at taken
    obtain ⟨sought, found, rfl⟩ := taken
    have same := (seekFiles_sameLoop found).tasker
    split
    · rw [← same]
      exact (tryRead_tasker { sought with currentState := .play } disk).imp id .inr
    · exact .inl same
  | inputClose urlId =>
    obtain rfl := Option.some.inj taken
    rw [inputClose]
    split <;> exact .inl rfl
  | cont =>
    obtain rfl := Option.some.inj taken
    exact (tryRead_tasker { state with currentState := .play } disk).imp id .inr
  | tryRead =>
    obtain rfl := Option.some.inj taken
    exact (tryRead_tasker state disk).imp id .inr
  | setCacheBuffer urlId cacheBuf =>
    obtain rfl := Option.some.inj taken
    exact .inl rfl
  | stop | pause | quit =>
    obtain rfl := Option.some.inj taken
    exact .inl rfl

/-- No job makes another job wait for a timer. -/
theorem handle_timersRead {state next : InputFileLoop} {disk : Disk} {job : InputJob}
    (reads : TimersRead state.tasker) (taken : state.handle disk job = some next) :
    TimersRead next.tasker := by
  rcases handle_tasker taken with same | posted | ⟨dur, armed⟩
  · exact same ▸ reads
  · exact posted ▸ reads.addJob .cont
  · exact armed ▸ reads.createGetTimer dur

/-- The next posted handler is a job, with nothing left of it among the posted. -/
theorem runPosted_some {state next : InputFileLoop} {disk : Disk}
    (reads : TimersRead state.tasker) (taken : state.runPosted disk = some next) :
    ∃ job rest, state.tasker.posted = .job job :: rest ∧
      { state with tasker := { state.tasker with posted := rest } }.handle disk job =
        some next := by
  simp only [runPosted, Option.bind_eq_some_iff] at taken
  obtain ⟨⟨job, tasker⟩, popped, handled⟩ := taken
  cases posted : state.tasker.posted with
  | nil => simp [AsyncTasker.runPosted, posted] at popped
  | cons first rest =>
    cases first with
    | job f =>
      simp only [AsyncTasker.runPosted, posted, Option.some.injEq, Prod.mk.injEq] at popped
      obtain ⟨rfl, rfl⟩ := popped
      exact ⟨f, rest, rfl, handled⟩
    | createGetTimer f dur =>
      exact absurd (posted ▸ List.mem_cons_self) (reads.posted f dur)

/-- The job of a timer is `try_read`. -/
theorem handleTimeout_some {state next : InputFileLoop} {call : Nat} {disk : Disk}
    (reads : TimersRead state.tasker) (taken : state.handleTimeout call disk = some next) :
    ∃ wait ∈ state.tasker.waits,
      next = { state with tasker := state.tasker.retire wait }.tryRead disk := by
  simp only [handleTimeout, Option.bind_eq_some_iff] at taken
  obtain ⟨⟨job, tasker⟩, fired, handled⟩ := taken
  obtain ⟨wait, waiting, _, rfl, rfl⟩ := AsyncTasker.handleTimeout_some fired
  simp only [reads.waits wait waiting] at handled
  exact ⟨wait, waiting, (Option.some.inj handled).symm⟩

/-- Every step leaves only `try_read` waiting for a timer. -/
theorem step_timersRead {state next : InputFileLoop} {action : Action}
    (reads : TimersRead state.tasker) (taken : step state action = some next) :
    TimersRead next.tasker := by
  cases action with
  | runPosted disk =>
    obtain ⟨job, rest, posted, handled⟩ := runPosted_some reads taken
    refine handle_timersRead ?_ handled
    refine ⟨reads.waits, ?_⟩
    intro other dur member
    exact reads.posted other dur (posted ▸ List.mem_cons_of_mem _ member)
  | handleTimeout call disk =>
    obtain ⟨wait, waiting, rfl⟩ := handleTimeout_some reads taken
    have handled : { state with tasker := state.tasker.retire wait }.handle disk .tryRead =
        some ({ state with tasker := state.tasker.retire wait }.tryRead disk) := rfl
    exact handle_timersRead (reads.retire wait) handled
  | changeBuffer address buffer =>
    obtain rfl := Option.some.inj taken
    exact reads
  | addInputItem filename | setCacheBuffer urlId cacheBuf | seekCallbackJob urlId seekPoint
  | decoderFinish urlId | stop | pause | cont | quit =>
    obtain rfl := Option.some.inj taken
    exact reads.addJob _

end InputFileLoop

end Mprt
