import Mprt.ByteSeek
import Mprt.LabelledRuns

/-!
# The stream callbacks of the FLAC plugin

The FLAC library reads a track through five callbacks, which all work on the details of
the track in front. The input plugin fills the buffer between two of them.

`tell_callback` and `length_callback` take a position and a length of zero for errors. All
else that they report is one stream with one position.
-/

namespace Mprt.FlacCallbacks

/-- The status of `FLAC__StreamDecoderReadCallback`. -/
inductive ReadStatus where
  | continue_
  | endOfStream
  | abort
deriving DecidableEq

/-- The status of the callbacks for seek, tell and length. -/
inductive Status where
  | ok
  | error
  | unsupported
deriving DecidableEq

/-- What a callback returns, with the numbers that it sets. -/
inductive Answer where
  | read (status : ReadStatus) (bytes : List UInt8)
  | seek (status : Status)
  | tell (status : Status) (absoluteByteOffset : Option Int)
  | length (status : Status) (streamLength : Option Int)
  | eof (reached : Bool)
deriving DecidableEq

/-- The library makes a call, with the buffer at the end of a wait of a seek; or the input
plugin changes the buffer. -/
inductive Callback where
  | read (bytes : Nat)
  | seek (absoluteByteOffset : UInt64) (arrived : CacheBuffer)
  | tell
  | length
  | eof
  | input (buffer : CacheBuffer)
deriving DecidableEq

/-- The track in front. As history, the target of the last seek reported to be done, until
a read takes bytes and the stream leaves it, and what was returned last. -/
structure State where
  stream : DecoderStream
  seekSupported : Bool
  lengthSupported : Bool
  tellSupported : Bool
  sought : Option Int
  answer : Option Answer
deriving DecidableEq

/-- A track as the input plugin opens it, with any copy of a read of another. -/
def opened (streamLength : Int) (buffer : CacheBuffer) (lastReadBuffer : List UInt8) : State where
  stream := ⟨⟨streamLength, 0, false, buffer⟩, lastReadBuffer⟩
  seekSupported := true
  lengthSupported := true
  tellSupported := true
  sought := none
  answer := none

namespace State

def streamLength (state : State) : Int := state.stream.details.streamLength

def currentStreamPos (state : State) : Int := state.stream.details.currentStreamPos

def decoderTell (state : State) : Int := if state.tellSupported then state.currentStreamPos else -1

def decoderLength (state : State) : Int := if state.lengthSupported then state.streamLength else -1

def decoderEof (state : State) : Bool := state.currentStreamPos = state.streamLength

def decoderIsExhausted (state : State) : Bool := state.currentStreamPos = state.streamLength

def reply (state : State) (answer : Answer) : State := { state with answer := some answer }

/-- The history after a read. A read that takes no bytes, be it at the end, aborted or
before any data has come, leaves the stream where it was sought. -/
def soughtAfter (state : State) (stream : DecoderStream) : Option Int :=
  if stream.details.currentStreamPos = state.currentStreamPos then state.sought else none

/-- `read_callback`. It also asks for `decoder_is_last_read_empty`, and continues anyway. -/
def readCallback (state : State) (bytes : Nat) : Option State :=
  (state.stream.decoderReadBuffer bytes).map (fun readRes =>
    let after := { state with stream := readRes.2, sought := state.soughtAfter readRes.2 }
    match readRes.1 with
    | none => after.reply (.read .abort [])
    | some copied =>
      if copied.isEmpty && after.decoderIsExhausted then after.reply (.read .endOfStream copied)
      else after.reply (.read .continue_ copied))

def seekCallback (state : State) (absoluteByteOffset : UInt64) (arrived : CacheBuffer) :
    Option State :=
  if state.seekSupported then
    let seekPoint := Int.bmod absoluteByteOffset.toNat (2 ^ 64)
    (state.stream.seekByteInternal seekPoint arrived).map (fun result =>
      let after := { state with stream := result.2 }
      if result.1 then
        { after with sought := some absoluteByteOffset.toNat }.reply (.seek .ok)
      else after.reply (.seek .error))
  else some (state.reply (.seek .unsupported))

def tellCallback (state : State) : State :=
  if state.tellSupported then
    let absoluteByteOffset := state.decoderTell
    state.reply (.tell (if absoluteByteOffset ≠ 0 then .ok else .error) (some absoluteByteOffset))
  else state.reply (.tell .unsupported none)

def lengthCallback (state : State) : State :=
  if state.lengthSupported then
    let streamLength := state.decoderLength
    state.reply (.length (if streamLength ≠ 0 then .ok else .error) (some streamLength))
  else state.reply (.length .unsupported none)

def eofCallback (state : State) : State :=
  state.reply (.eof (state.lengthSupported && state.decoderEof))

/-- The input plugin changes the buffer. -/
def input (state : State) (buffer : CacheBuffer) : State :=
  { state with stream := { state.stream with
      details := { state.stream.details with currentCacheBuf := buffer } } }

end State

/-- One callback, or a change of the buffer. -/
def step (state : State) : Callback → Option State
  | .read bytes => state.readCallback bytes
  | .seek absoluteByteOffset arrived => state.seekCallback absoluteByteOffset arrived
  | .tell => some state.tellCallback
  | .length => some state.lengthCallback
  | .eof => some state.eofCallback
  | .input buffer => some (state.input buffer)

/-- What one stream with one position would report. -/
def Reports (before : State) (callback : Callback) (after : State) : Prop :=
  match callback with
  | .read bytes => ∃ status copied, after.answer = some (.read status copied) ∧
      copied.length ≤ min (bytes : Int) (before.streamLength - before.currentStreamPos)
  | .seek absoluteByteOffset _ =>
      (after.answer = some (.seek .ok) ∧ after.currentStreamPos = absoluteByteOffset.toNat) ∨
        ((after.answer = some (.seek .error) ∨ after.answer = some (.seek .unsupported)) ∧
          after.stream = before.stream)
  | .tell => ∀ target, before.sought = some target → after.answer = some (.tell .ok (some target))
  | .length => after.answer = some (.length .ok (some before.streamLength))
  | .eof => ∀ target, before.sought = some target →
      (after.answer = some (.eof true) ↔ target = before.streamLength)
  | .input _ => True

/-- The position stays in the stream, whose length stays, and the report is right. -/
structure Consistent (before : State) (callback : Callback) (after : State) : Prop where
  nonneg : 0 ≤ after.currentStreamPos
  le : after.currentStreamPos ≤ after.streamLength
  length : after.streamLength = before.streamLength
  reports : Reports before callback after

/-- No position is asked for while the stream stands at the beginning because a seek put
it there, and no length of an empty stream. -/
def NotZero (state : State) : Callback → Prop
  | .tell => state.sought ≠ some 0
  | .length => state.streamLength ≠ 0
  | _ => True

instance (state : State) (callback : Callback) : Decidable (NotZero state callback) := by
  cases callback <;> unfold NotZero <;> infer_instance

/-- The track supports everything, and is where it was sought. -/
structure Invariant (state : State) : Prop where
  within : DecoderStream.Within state.stream
  seek : state.seekSupported = true
  length : state.lengthSupported = true
  tell : state.tellSupported = true
  sought : ∀ target, state.sought = some target → state.currentStreamPos = target

section Steps

variable {state next : State}

/-- What is replied is no part of the invariant. -/
theorem Invariant.reply (invariant : Invariant state) (answer : Answer) :
    Invariant (state.reply answer) :=
  ⟨invariant.within, invariant.seek, invariant.length, invariant.tell, invariant.sought⟩

/-- A reply moves nothing, so it is consistent when it is right. -/
theorem Invariant.consistent_reply (invariant : Invariant state) {callback : Callback}
    {answer : Answer} :
    Consistent state callback (state.reply answer) ↔
      Reports state callback (state.reply answer) :=
  ⟨Consistent.reports, fun reports =>
    ⟨invariant.within.nonneg, invariant.within.le, rfl, reports⟩⟩

/-- A target that is remembered over a read is where the stream still stands. -/
theorem Invariant.sought_after (invariant : Invariant state) (moved : DecoderStream) :
    ∀ target, state.soughtAfter moved = some target →
      moved.details.currentStreamPos = target := by
  intro target remembered
  rw [State.soughtAfter] at remembered
  by_cases still : moved.details.currentStreamPos = state.currentStreamPos
  · rw [if_pos still] at remembered
    exact still.trans (invariant.sought target remembered)
  · rw [if_neg still] at remembered
    cases remembered

/-- A read returns no more than was asked for and is left. -/
theorem readCallback_consistent (invariant : Invariant state) {bytes : Nat}
    (taken : state.readCallback bytes = some next) :
    Invariant next ∧ Consistent state (.read bytes) next := by
  obtain ⟨⟨read, moved⟩, called, rfl⟩ := Option.map_eq_some_iff.mp taken
  obtain ⟨within, length, room⟩ := DecoderStream.decoderReadBuffer_moves invariant.within
    (Int.natCast_nonneg bytes) called
  have kept : Invariant { state with stream := moved, sought := state.soughtAfter moved } :=
    ⟨within, invariant.seek, invariant.length, invariant.tell,
      invariant.sought_after moved⟩
  cases read with
  | none =>
    refine ⟨kept.reply _, within.nonneg, within.le, length, .abort, [], rfl, room⟩
  | some copied =>
    have right : ∀ status, Consistent state (.read bytes)
        ({ state with stream := moved, sought := state.soughtAfter moved }.reply
          (.read status copied)) :=
      fun status => ⟨within.nonneg, within.le, length, status, copied, rfl, room⟩
    simp only
    split
    · exact ⟨kept.reply _, right .endOfStream⟩
    · exact ⟨kept.reply _, right .continue_⟩

/-- A number of 64 bits that is not negative when it has a sign is the number without one. -/
theorem bmod_eq_of_nonneg {number : Nat} (small : number < 2 ^ 64)
    (nonneg : 0 ≤ Int.bmod number (2 ^ 64)) : Int.bmod number (2 ^ 64) = number := by
  rw [Int.bmod_def] at nonneg ⊢
  split at nonneg <;> omega

/-- A seek is reported to be done at its target, or has changed nothing. -/
theorem seekCallback_consistent (invariant : Invariant state) {absoluteByteOffset : UInt64}
    {arrived : CacheBuffer}
    (taken : state.seekCallback absoluteByteOffset arrived = some next) :
    Invariant next ∧ Consistent state (.seek absoluteByteOffset arrived) next := by
  rw [State.seekCallback, if_pos invariant.seek] at taken
  obtain ⟨⟨sought, moved⟩, called, rfl⟩ := Option.map_eq_some_iff.mp taken
  cases sought with
  | false =>
    obtain rfl := DecoderStream.seekByteInternal_refused called
    refine ⟨invariant.reply _, invariant.consistent_reply.mpr ?_⟩
    exact Or.inr ⟨Or.inl rfl, rfl⟩
  | true =>
    obtain ⟨range, position, length⟩ := DecoderStream.seekByteInternal_sought called
    have offset := bmod_eq_of_nonneg absoluteByteOffset.toNat_lt range.1
    rw [offset] at range position
    have within : DecoderStream.Within moved := ⟨by omega, by omega⟩
    have there : Invariant
        { state with stream := moved, sought := some (absoluteByteOffset.toNat : Int) } := by
      refine ⟨within, invariant.seek, invariant.length, invariant.tell, ?_⟩
      intro target same
      obtain rfl := Option.some.inj same
      exact position
    exact ⟨there.reply _, within.nonneg, within.le, length, Or.inl ⟨rfl, position⟩⟩

/-- The position is reported, except at the beginning. -/
theorem tellCallback_consistent_iff (invariant : Invariant state) :
    Consistent state .tell state.tellCallback ↔ NotZero state .tell := by
  rw [State.tellCallback, if_pos invariant.tell, invariant.consistent_reply]
  have told : state.decoderTell = state.currentStreamPos := if_pos invariant.tell
  constructor
  · intro reports beginning
    have position := invariant.sought 0 beginning
    have reported := reports 0 beginning
    simp [State.reply, told, position] at reported
  · intro elsewhere target sought
    have position := invariant.sought target sought
    have notZero : target ≠ 0 := fun zero => elsewhere (zero ▸ sought)
    simp [State.reply, told, position, notZero]

/-- The length is reported, except for an empty stream. -/
theorem lengthCallback_consistent_iff (invariant : Invariant state) :
    Consistent state .length state.lengthCallback ↔ NotZero state .length := by
  rw [State.lengthCallback, if_pos invariant.length, invariant.consistent_reply]
  have length : state.decoderLength = state.streamLength := if_pos invariant.length
  simp [Reports, State.reply, length, NotZero]

/-- The end is reported where it is. -/
theorem eofCallback_consistent (invariant : Invariant state) :
    Consistent state .eof state.eofCallback := by
  rw [State.eofCallback, invariant.consistent_reply, invariant.length, Bool.true_and]
  intro target sought
  have position := invariant.sought target sought
  simp [State.reply, State.decoderEof, position]

/-- Every step keeps the invariant, and is consistent exactly when nothing that is zero is
asked for. -/
theorem step_exact (callback : Callback) (invariant : Invariant state)
    (taken : step state callback = some next) :
    Invariant next ∧ (Consistent state callback next ↔ NotZero state callback) := by
  cases callback with
  | read bytes =>
    obtain ⟨kept, consistent⟩ := readCallback_consistent invariant taken
    exact ⟨kept, iff_of_true consistent trivial⟩
  | seek absoluteByteOffset arrived =>
    obtain ⟨kept, consistent⟩ := seekCallback_consistent invariant taken
    exact ⟨kept, iff_of_true consistent trivial⟩
  | tell =>
    obtain rfl := Option.some.inj taken
    refine ⟨?_, tellCallback_consistent_iff invariant⟩
    rw [State.tellCallback, if_pos invariant.tell]
    exact invariant.reply _
  | length =>
    obtain rfl := Option.some.inj taken
    refine ⟨?_, lengthCallback_consistent_iff invariant⟩
    rw [State.lengthCallback, if_pos invariant.length]
    exact invariant.reply _
  | eof =>
    obtain rfl := Option.some.inj taken
    exact ⟨invariant.reply _, iff_of_true (eofCallback_consistent invariant) trivial⟩
  | input buffer =>
    obtain rfl := Option.some.inj taken
    have within : DecoderStream.Within (state.input buffer).stream :=
      ⟨invariant.within.nonneg, invariant.within.le⟩
    refine ⟨⟨within, invariant.seek, invariant.length, invariant.tell, invariant.sought⟩, ?_⟩
    exact iff_of_true ⟨within.nonneg, within.le, rfl, trivial⟩ trivial

end Steps

/-- In every run of callbacks on a track of any length, with any buffers, each reports one
consistent stream exactly when no position is asked for while the stream stands at the
beginning because a seek put it there, and no length of an empty stream. -/
theorem consistent_iff (streamLength : Int) (buffer : CacheBuffer) (lastReadBuffer : List UInt8)
    (callbacks : List Callback) (finish : State) (nonneg : 0 ≤ streamLength)
    (ran : LabelledRuns.run step (opened streamLength buffer lastReadBuffer) callbacks =
      some finish) :
    LabelledRuns.Along step Consistent (opened streamLength buffer lastReadBuffer) callbacks ↔
      LabelledRuns.Meets step NotZero (opened streamLength buffer lastReadBuffer) callbacks := by
  have beginning : Invariant (opened streamLength buffer lastReadBuffer) :=
    ⟨⟨Int.le_refl 0, nonneg⟩, rfl, rfl, rfl, fun _ sought => by cases sought⟩
  exact LabelledRuns.along_iff_meets
    (fun state callback next invariant taken => (step_exact callback invariant taken).2)
    (fun state callback next invariant taken _ => (step_exact callback invariant taken).1)
    beginning ran

/-- A buffer with no data. -/
def vacant : CacheBuffer := CacheBuffer.make 8 4 0 0

/-- A buffer with two bytes from a position on. -/
def twoBytes (first : Int) : CacheBuffer :=
  ((vacant.modifyCache (fun chunk => ⟨first, chunk.second.append [7, 8]⟩)).putCachePtr true)

/-- A seek that asks the input plugin, and a read of the two last bytes. -/
def seekAndRead : List Callback :=
  [.length, .seek 2 (twoBytes 2), .tell, .eof, .read 4, .eof]

/-- The state after them. -/
def afterRead : State :=
  (LabelledRuns.run step (opened 4 vacant []) seekAndRead).getD (opened 4 vacant [])

theorem seek_and_read_consistent :
    LabelledRuns.Along step Consistent (opened 4 vacant []) seekAndRead ∧
      afterRead.currentStreamPos = 4 ∧ afterRead.answer = some (.eof true) :=
  ⟨(consistent_iff 4 vacant [] seekAndRead afterRead (by decide) (by decide)).mpr (by decide),
    by decide, by decide⟩

/-- After a seek to the beginning, the position is reported to be an error, also when a
read that found no data came between. -/
theorem beginning_not_told :
    ¬ LabelledRuns.Along step Consistent (opened 4 vacant []) [.seek 0 vacant, .tell] ∧
      ¬ LabelledRuns.Along step Consistent (opened 4 vacant [])
        [.seek 0 vacant, .read 4, .tell] := by
  constructor
  · intro along
    have reports := along.2.1.reports 0 (by decide)
    exact absurd reports (by decide)
  · intro along
    have reports := along.2.2.1.reports 0 (by decide)
    exact absurd reports (by decide)

end Mprt.FlacCallbacks
