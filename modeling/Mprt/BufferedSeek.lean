import Mathlib.Logic.Function.Basic
import Mprt.LabelledRuns
import Mprt.HeldBytes
import Mprt.DecoderRead

/-!
# Seeks served from memory

The calls that decoders make on their tracks, one after the other, with file
reads of the input plugin between them, and no seek that needs the input plugin.
Every track has its own buffer and position; the copy of the last read is shared
by all tracks and is not touched by a seek.

A backward seek puts bytes of that copy back, so it is right when the copy ends
where the track is: when the most recent read was on this track and the track
has not moved since. Under that condition the buffer of every track always holds
the bytes of its file from its position on.
-/

namespace Mprt.BufferedSeek

open DecoderPluginsManager

/-- A track with the file its input buffer is filled from. -/
structure Track where
  details : DecoderDetails
  file : FileDetails
  finished : Bool

/-- The tracks by `url_id`, the shared copy of the last read, and as history
the track of the most recent read and the position where it ended. -/
structure State where
  tracks : Int → Track
  lastReadBuffer : List UInt8
  lastRead : Option (Int × Int)

inductive Call where
  | tryRead (urlId : Int) (maxFileChunkSize : Nat)
  | decoderReadBuffer (urlId : Int) (bufSize : Nat)
  | updateDecDetailSeek (urlId : Int) (seekPoint : Int)

def setTrack (state : State) (urlId : Int) (track : Track) : State :=
  { state with tracks := Function.update state.tracks urlId track }

/-- A seek that calls `_seek_callback` is not a step here, nor is a discard that
waits. -/
def step (state : State) : Call → Option State
  | .tryRead urlId maxFileChunkSize =>
      let track := state.tracks urlId
      if track.finished then none
      else
        (InputPluginFile.tryRead maxFileChunkSize track.file track.details.currentCacheBuf).map
          (fun read => setTrack state urlId
            { details := { track.details with currentCacheBuf := read.2.1 }
              file := read.1
              finished := read.2.2 })
  | .decoderReadBuffer urlId bufSize =>
      let track := state.tracks urlId
      (decoderReadBuffer track.details bufSize).map (fun read =>
        { setTrack state urlId { track with details := read.2 } with
          lastReadBuffer := read.1.getD []
          lastRead := some (urlId, read.2.currentStreamPos) })
  | .updateDecDetailSeek urlId seekPoint =>
      let track := state.tracks urlId
      match updateDecDetailSeek track.details state.lastReadBuffer seekPoint with
      | some .refused => some state
      | some (.reached details) => some (setTrack state urlId { track with details := details })
      | _ => none

/-- The bytes of the track's file. -/
def Track.stream (track : Track) : List UInt8 := track.file.file.content

/-- The buffer holds the bytes of the file from the current position on, and
the rest of them is still to be read from the file. -/
structure HoldsStream (track : Track) : Prop where
  length : track.details.streamLength = track.stream.length
  position : 0 ≤ track.details.currentStreamPos
  inside : track.details.currentStreamPos ≤ track.details.streamLength
  bytes : ∃ content, Holds track.details.currentCacheBuf content ∧
    content ++ track.stream.drop track.file.file.position =
      track.stream.drop track.details.currentStreamPos.toNat

/-- A seek that puts bytes back follows a read of the same track, which has not
moved since that read. -/
def SeeksAfterRead (state : State) : Call → Prop
  | .updateDecDetailSeek urlId seekPoint =>
      let currentStreamPos := (state.tracks urlId).details.currentStreamPos
      seekPoint < currentStreamPos →
        currentStreamPos - seekPoint < Int.bmod state.lastReadBuffer.length (2 ^ 32) →
          state.lastRead = some (urlId, currentStreamPos)
  | _ => True

instance (state : State) (call : Call) : Decidable (SeeksAfterRead state call) := by
  unfold SeeksAfterRead
  split <;> infer_instance

/-- What holds of every track in a state: a read returns, its bytes are those of
the file at the track's position, and it moves the track behind them; and a seek
that meets the condition and is served leaves the track at its point with the
file's bytes from there on in the buffer. -/
structure Faithful (state : State) (urlId : Int) : Prop where
  returns : ∀ bufSize : Nat, ∃ result,
    decoderReadBuffer (state.tracks urlId).details bufSize = some result
  read : ∀ (bufSize : Nat) bytes details,
    decoderReadBuffer (state.tracks urlId).details bufSize = some (some bytes, details) →
      bytes = ((state.tracks urlId).stream.drop
        (state.tracks urlId).details.currentStreamPos.toNat).take bytes.length ∧
      details.currentStreamPos = (state.tracks urlId).details.currentStreamPos + bytes.length
  seek : ∀ seekPoint details, SeeksAfterRead state (.updateDecDetailSeek urlId seekPoint) →
    updateDecDetailSeek (state.tracks urlId).details state.lastReadBuffer seekPoint =
      some (.reached details) →
    details.currentStreamPos = seekPoint ∧
      ∃ content, Holds details.currentCacheBuf content ∧
        content = ((state.tracks urlId).stream.drop seekPoint.toNat).take content.length

/-- The shared copy ends where the most recent read did. -/
def CopyEnds (state : State) : Prop :=
  ∀ urlId position, state.lastRead = some (urlId, position) →
    position.toNat ≤ (state.tracks urlId).stream.length ∧
      state.lastReadBuffer <:+ (state.tracks urlId).stream.take position.toNat

/-- The invariant of runs whose seeks meet the condition. -/
structure Invariant (state : State) : Prop where
  holds : ∀ urlId, HoldsStream (state.tracks urlId)
  copy : CopyEnds state

/-- Bytes that end at a position, followed by what comes after it, are what
comes after the position where they begin. -/
theorem suffix_append_drop {stream bytes : List UInt8} {position : Nat}
    (inside : position ≤ stream.length) (ends : bytes <:+ stream.take position) :
    bytes ++ stream.drop position = stream.drop (position - bytes.length) := by
  obtain ⟨front, whole⟩ := ends
  have lengths := congrArg List.length whole
  rw [List.length_append, List.length_take, Nat.min_eq_left inside] at lengths
  have begins : position - bytes.length = front.length := by omega
  have split : stream = front ++ (bytes ++ stream.drop position) := by
    rw [← List.append_assoc, whole, List.take_append_drop]
  rw [begins]
  conv_rhs => rw [split]
  rw [List.drop_left]

/-- A read returns. -/
theorem decoderReadBuffer_returns (details : DecoderDetails) (bufSize : Nat) :
    ∃ result, decoderReadBuffer details bufSize = some result := by
  simp only [decoderReadBuffer]
  split
  · obtain ⟨result, written⟩ := CacheBuffer.writeIntoRawBuffer_returns details.currentCacheBuf
      (min bufSize (details.streamLength - details.currentStreamPos))
    exact ⟨_, by rw [written]; rfl⟩
  · exact ⟨_, rfl⟩

/-- A read that succeeds returns the bytes at the position and moves behind
them; the bytes from there on are held. -/
theorem read_holds {track : Track} {details : DecoderDetails} {bufSize : Nat} {bytes : List UInt8}
    (holds : HoldsStream track)
    (read : decoderReadBuffer track.details bufSize = some (some bytes, details)) :
    bytes = (track.stream.drop track.details.currentStreamPos.toNat).take bytes.length ∧
      details.currentStreamPos = track.details.currentStreamPos + bytes.length ∧
      HoldsStream { track with details := details } := by
  obtain ⟨length, position, inside, content, held, stream⟩ := holds
  simp only [Track.stream] at length stream
  obtain ⟨copied, rest, _, same, written, rfl⟩ | ⟨_, nothing, _⟩ := decoderReadBuffer_cases read
  · obtain rfl := Option.some.inj same
    obtain ⟨later, taken, after⟩ := held.write written
    rw [taken, List.append_assoc] at stream
    have lengths := congrArg List.length stream
    simp only [List.length_append, List.length_drop] at lengths
    have moved : (track.details.currentStreamPos + bytes.length).toNat =
        track.details.currentStreamPos.toNat + bytes.length := by omega
    refine ⟨?_, rfl, length, ?_, ?_, later, after, ?_⟩
    · rw [Track.stream, ← stream, List.take_left]
    · exact Int.add_nonneg position (Int.natCast_nonneg _)
    · simp only
      omega
    · simp only [Track.stream]
      rw [moved, ← List.drop_drop, ← stream, List.drop_left]
  · contradiction

/-- A read that gives up changes neither position nor buffer. -/
theorem read_gives_up {details after : DecoderDetails} {bufSize : Nat}
    (read : decoderReadBuffer details bufSize = some (none, after)) :
    after = { details with lastReadEmpty := true } := by
  obtain ⟨_, _, _, nothing, _⟩ | ⟨_, _, unchanged⟩ := decoderReadBuffer_cases read
  · contradiction
  · exact unchanged

/-- Seen as a 32-bit number a length is never larger than it is. -/
theorem bmod_le_length (length : Nat) : Int.bmod length (2 ^ 32) ≤ length := by
  rw [Int.bmod_def]
  split <;> omega

/-- Discarding moves the track forward within the bytes it holds. -/
theorem discard_holds {track : Track} {rest : CacheBuffer} {seekPoint : Int}
    (holds : HoldsStream track) (forward : track.details.currentStreamPos ≤ seekPoint)
    (discarded : track.details.currentCacheBuf.discardDataUpto
      (seekPoint - track.details.currentStreamPos) = some rest) :
    HoldsStream { track with details := { track.details with
      currentCacheBuf := rest
      currentStreamPos := seekPoint } } := by
  obtain ⟨length, position, inside, content, held, stream⟩ := holds
  simp only [Track.stream] at length stream
  obtain ⟨bytes, split, taken, after⟩ := held.discard_loop discarded
  have lengths := congrArg List.length stream
  have shorter := congrArg List.length split
  simp only [List.length_append, List.length_drop] at lengths shorter
  have further : seekPoint.toNat = track.details.currentStreamPos.toNat +
      (seekPoint - track.details.currentStreamPos).toNat := by omega
  refine ⟨length, ?_, ?_, _, after, ?_⟩
  · simp only
    omega
  · simp only
    omega
  · simp only [Track.stream]
    rw [further, ← List.drop_drop, ← stream]
    conv_rhs => rw [split, List.append_assoc, List.drop_left' taken]

/-- Putting back bytes that end at the position moves the track to where they
begin, with the file's bytes from there on in the buffer. -/
theorem insert_holds {track : Track} {bytes : List UInt8} {chunk : Chunk} {held : CacheBuffer}
    {seekPoint : Int} (holds : HoldsStream track) (reachable : 0 ≤ seekPoint)
    (begins : seekPoint = track.details.currentStreamPos - bytes.length)
    (ends : bytes <:+ track.stream.take track.details.currentStreamPos.toNat)
    (found : track.details.currentCacheBuf.getDataPtr = some (chunk, held)) :
    HoldsStream { track with details := { track.details with
      currentCacheBuf := (held.modifyData (·.insertBegin bytes seekPoint)).putDataPtr false
      currentStreamPos := seekPoint } } := by
  obtain ⟨length, position, inside, content, holdsBytes, stream⟩ := holds
  simp only [Track.stream] at length stream
  have within : track.details.currentStreamPos.toNat ≤ track.stream.length := by
    simp only [Track.stream]
    omega
  have joined := suffix_append_drop within ends
  obtain ⟨later, split, after⟩ := holdsBytes.change_data (·.insertBegin bytes seekPoint) found
  rw [CacheBuffer.insertBegin_items, List.append_assoc, ← split] at after
  have back : seekPoint.toNat = track.details.currentStreamPos.toNat - bytes.length := by omega
  refine ⟨length, reachable, ?_, bytes ++ content, after, ?_⟩
  · simp only
    omega
  · simp only [Track.stream] at joined ⊢
    rw [back, ← joined, ← stream, List.append_assoc]

/-- A seek that is served leaves the track at its point, with the file's bytes
from there on in the buffer. -/
theorem seek_holds {track : Track} {lastReadBuffer : List UInt8} {seekPoint : Int}
    {details : DecoderDetails} (holds : HoldsStream track)
    (copy : seekPoint < track.details.currentStreamPos →
      track.details.currentStreamPos - seekPoint < Int.bmod lastReadBuffer.length (2 ^ 32) →
        lastReadBuffer <:+ track.stream.take track.details.currentStreamPos.toNat)
    (reached : updateDecDetailSeek track.details lastReadBuffer seekPoint =
      some (.reached details)) :
    details.currentStreamPos = seekPoint ∧ HoldsStream { track with details := details } := by
  obtain ⟨range, lands, served⟩ := updateDecDetailSeek_reached reached
  rw [lands]
  refine ⟨rfl, ?_⟩
  rcases served with ⟨forward, discarded⟩ | ⟨backward, enough, chunk, held, found, put⟩
  · exact discard_holds holds forward discarded
  · have bounded := bmod_le_length lastReadBuffer.length
    have ends := copy backward enough
    rw [put]
    refine insert_holds holds range.1 ?_ ((List.drop_suffix _ _).trans ends) found
    rw [List.length_drop]
    omega

/-- A track may be replaced by one that holds the same file's stream. -/
theorem setTrack_invariant {state : State} {urlId : Int} {track : Track}
    (invariant : Invariant state) (holds : HoldsStream track)
    (stream : track.stream = (state.tracks urlId).stream) :
    Invariant (setTrack state urlId track) := by
  refine ⟨?_, ?_⟩
  · intro other
    by_cases same : other = urlId
    · subst same
      simpa [setTrack] using holds
    · simpa [setTrack, same] using invariant.holds other
  · intro other position read
    obtain ⟨within, ends⟩ := invariant.copy other position read
    have unchanged : ((setTrack state urlId track).tracks other).stream =
        (state.tracks other).stream := by
      by_cases same : other = urlId
      · subst same
        simpa [setTrack] using stream
      · simp [setTrack, same]
    rw [unchanged]
    exact ⟨within, ends⟩

/-- A seek that meets the condition finds the shared copy ending at its track's
position, if it uses the copy at all. -/
theorem copy_of_condition {state : State} {urlId seekPoint : Int} (copy : CopyEnds state)
    (condition : SeeksAfterRead state (.updateDecDetailSeek urlId seekPoint))
    (backward : seekPoint < (state.tracks urlId).details.currentStreamPos)
    (served : (state.tracks urlId).details.currentStreamPos - seekPoint <
      Int.bmod state.lastReadBuffer.length (2 ^ 32)) :
    state.lastReadBuffer <:+ (state.tracks urlId).stream.take
      (state.tracks urlId).details.currentStreamPos.toNat :=
  (copy urlId _ (condition backward served)).2

/-- A read leaves the copy of its bytes ending at the new position. -/
theorem read_invariant {state : State} {urlId : Int} {bufSize : Nat}
    {bytes : Option (List UInt8)} {details : DecoderDetails} (invariant : Invariant state)
    (read : decoderReadBuffer (state.tracks urlId).details bufSize = some (bytes, details)) :
    Invariant { setTrack state urlId { state.tracks urlId with details := details } with
      lastReadBuffer := bytes.getD []
      lastRead := some (urlId, details.currentStreamPos) } := by
  have held := invariant.holds urlId
  have copied : HoldsStream { state.tracks urlId with details := details } ∧
      bytes.getD [] <:+ (state.tracks urlId).stream.take details.currentStreamPos.toNat := by
    cases bytes with
    | none =>
      obtain rfl := read_gives_up read
      exact ⟨⟨held.length, held.position, held.inside, held.bytes⟩, List.nil_suffix⟩
    | some bytes =>
      obtain ⟨slice, moved, after⟩ := read_holds held read
      have position := held.position
      have split : details.currentStreamPos.toNat =
          (state.tracks urlId).details.currentStreamPos.toNat + bytes.length := by omega
      refine ⟨after, ?_⟩
      rw [split, List.take_add, ← slice]
      exact List.suffix_append _ _
  have replaced : Invariant (setTrack state urlId
      { state.tracks urlId with details := details }) :=
    setTrack_invariant invariant copied.1 rfl
  refine ⟨replaced.holds, ?_⟩
  intro other position last
  simp only [Option.some.injEq, Prod.mk.injEq] at last
  obtain ⟨rfl, rfl⟩ := last
  have inside : details.currentStreamPos ≤ details.streamLength := copied.1.inside
  have length : details.streamLength = (state.tracks urlId).stream.length := copied.1.length
  have same : ((setTrack state urlId { state.tracks urlId with details := details }).tracks
      urlId).stream = (state.tracks urlId).stream := by
    simp [setTrack, Track.stream]
  simp only [same]
  refine ⟨?_, copied.2⟩
  omega

/-- Each call keeps the invariant when it meets the condition. -/
theorem step_preserves (state : State) (call : Call) (next : State) (invariant : Invariant state)
    (condition : SeeksAfterRead state call) (taken : step state call = some next) :
    Invariant next := by
  cases call with
  | tryRead urlId maxFileChunkSize =>
    simp only [step] at taken
    split at taken
    · contradiction
    · rw [Option.map_eq_some_iff] at taken
      obtain ⟨⟨file, buffer, finished⟩, read, rfl⟩ := taken
      obtain ⟨length, position, inside, content, held, stream⟩ := invariant.holds urlId
      obtain ⟨bytes, after, sameFile, _, fills⟩ := held.tryRead read
      have unchanged : ∀ track : Track, track.file = file →
          track.stream = (state.tracks urlId).stream := by
        intro track reads
        rw [Track.stream, reads, sameFile, Track.stream]
      refine setTrack_invariant invariant ⟨?_, position, inside, content ++ bytes, after, ?_⟩
        (unchanged _ rfl)
      · rw [unchanged _ rfl]
        exact length
      · rw [unchanged _ rfl, List.append_assoc, ← stream]
        exact congrArg (content ++ ·) fills
  | decoderReadBuffer urlId bufSize =>
    simp only [step, Option.map_eq_some_iff] at taken
    obtain ⟨⟨bytes, details⟩, read, rfl⟩ := taken
    exact read_invariant invariant read
  | updateDecDetailSeek urlId seekPoint =>
    simp only [step] at taken
    split at taken
    · obtain rfl := Option.some.inj taken
      exact invariant
    · rename_i details reached
      obtain rfl := Option.some.inj taken
      obtain ⟨_, after⟩ := seek_holds (invariant.holds urlId)
        (copy_of_condition invariant.copy condition) reached
      exact setTrack_invariant invariant after rfl
    · contradiction

/-- The invariant makes every track faithful. -/
theorem Invariant.faithful {state : State} (invariant : Invariant state) (urlId : Int) :
    Faithful state urlId := by
  refine ⟨fun bufSize => decoderReadBuffer_returns _ bufSize, ?_, ?_⟩
  · intro bufSize bytes details read
    obtain ⟨slice, moved, _⟩ := read_holds (invariant.holds urlId) read
    exact ⟨slice, moved⟩
  · intro seekPoint details condition reached
    obtain ⟨lands, after⟩ := seek_holds (invariant.holds urlId)
      (copy_of_condition invariant.copy condition) reached
    obtain ⟨_, _, _, content, held, stream⟩ := after
    refine ⟨lands, content, held, ?_⟩
    simp only [Track.stream, lands] at stream
    rw [Track.stream, ← stream, List.take_left]

/-- From tracks whose buffers hold their files' bytes from their positions on,
in every sequence of calls that are served from memory and put bytes back only
right after a read of the same track, every track stays faithful. -/
theorem reads_faithful {start finish : State} {calls : List Call}
    (holds : ∀ urlId, HoldsStream (start.tracks urlId)) (unread : start.lastRead = none)
    (condition : LabelledRuns.Meets step SeeksAfterRead start calls)
    (ran : LabelledRuns.run step start calls = some finish) (urlId : Int) :
    HoldsStream (finish.tracks urlId) ∧ Faithful finish urlId := by
  have initial : Invariant start := by
    refine ⟨holds, ?_⟩
    intro other position read
    rw [unread] at read
    contradiction
  have invariant := LabelledRuns.run_preserves_under step_preserves initial condition ran
  exact ⟨invariant.holds urlId, invariant.faithful urlId⟩

/-- A track that has just been opened. -/
def openedTrack (bufferSize elemSize : Nat) (content : List UInt8) : Track :=
  { details :=
      { streamLength := content.length
        currentStreamPos := 0
        lastReadEmpty := true
        currentCacheBuf := CacheBuffer.make bufferSize elemSize 0 0 }
    file :=
      { file := { content := content, position := 0, failed := false }
        fileSize := content.length
        currentReadSoFar := 0 }
    finished := false }

/-- A track that has just been opened holds nothing, at position zero. -/
theorem openedTrack_holds (bufferSize elemSize : Nat) (content : List UInt8) :
    HoldsStream (openedTrack bufferSize elemSize content) :=
  ⟨rfl, Int.le_refl 0, Int.natCast_nonneg _, [], Holds.make bufferSize elemSize 0 0, rfl⟩

/-- Every track is the same file of ten bytes, not yet read. -/
def digits : State :=
  { tracks := fun _ => openedTrack 16 16 [0, 1, 2, 3, 4, 5, 6, 7, 8, 9]
    lastReadBuffer := []
    lastRead := none }

/-- After a read of four bytes and a seek back by two, the track is faithful. -/
theorem reads_faithful_seek_back :
    ∃ finish, LabelledRuns.run step digits
        [.tryRead 1 16, .decoderReadBuffer 1 4, .updateDecDetailSeek 1 2] = some finish ∧
      (finish.tracks 1).details.currentStreamPos = 2 ∧ Faithful finish 1 := by
  refine ⟨_, rfl, rfl, ?_⟩
  have holds : ∀ urlId, HoldsStream (digits.tracks urlId) :=
    fun _ => openedTrack_holds 16 16 [0, 1, 2, 3, 4, 5, 6, 7, 8, 9]
  have condition : LabelledRuns.Meets step SeeksAfterRead digits
      [.tryRead 1 16, .decoderReadBuffer 1 4, .updateDecDetailSeek 1 2] := by decide
  exact (reads_faithful holds rfl condition rfl 1).2

/-- After a read of four bytes, a seek forward to six and a seek back to five,
the next byte read at position five is the fourth byte of the file. -/
theorem stale_byte_read :
    (∀ urlId, HoldsStream (digits.tracks urlId)) ∧
      ∃ finish details, LabelledRuns.run step digits
          [.tryRead 1 16, .decoderReadBuffer 1 4, .updateDecDetailSeek 1 6,
            .updateDecDetailSeek 1 5] = some finish ∧
        (finish.tracks 1).details.currentStreamPos = 5 ∧
        decoderReadBuffer (finish.tracks 1).details 1 = some (some [3], details) ∧
        ((finish.tracks 1).stream.drop 5).take 1 = [5] := by
  refine ⟨fun _ => openedTrack_holds 16 16 [0, 1, 2, 3, 4, 5, 6, 7, 8, 9], ?_⟩
  exact ⟨_, _, rfl, rfl, rfl, rfl⟩

end Mprt.BufferedSeek
