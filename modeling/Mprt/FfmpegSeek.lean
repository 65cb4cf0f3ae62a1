import Mathlib.Algebra.Order.Ring.Int
import Mprt.ByteSeek

/-!
# The seek callback of the FFmpeg plugin

The FFmpeg library seeks with an offset that counts from the beginning of the stream, from
its position or from its end, as `lseek` does, or asks for its size. The callback subtracts
an offset from the end. For other values of `whence`, such as those with a further flag, it
gives `absolute_pos` no value and goes on with it.
-/

namespace Mprt.FfmpegSeek

/-- The values of `whence` that have a case, and any other. -/
inductive Whence where
  | avseekSize
  | seekSet
  | seekCur
  | seekEnd
  | other (whence : Int)
deriving DecidableEq

/-- What a call comes to: it uses `absolute_pos` without a value, or returns. -/
inductive Result where
  | undefined
  | returned (value : Int) (stream : DecoderStream)
deriving DecidableEq

/-- A sum of two `size_type`. -/
def size64 (value : Int) : Int := Int.bmod value (2 ^ 64)

/-- `absolute_pos` after the `switch`. -/
def absolutePos (stream : DecoderStream) (offset : Int) : Whence → Option Int
  | .seekSet => some offset
  | .seekCur => some (size64 (stream.details.currentStreamPos + offset))
  | .seekEnd => some (size64 (stream.details.streamLength - offset))
  | .avseekSize | .other _ => none

/-- `seek_callback`, with what the input plugin does to the buffer in the wait of a seek to
each point. A wait that never ends is no result. -/
def seekCallback (stream : DecoderStream) (offset : Int) (whence : Whence)
    (arrived : Int → CacheBuffer) : Option Result :=
  if whence = .avseekSize then some (.returned stream.details.streamLength stream)
  else
    match absolutePos stream offset whence with
    | none => some .undefined
    | some absolute =>
      if absolute < 0 ∨ absolute > stream.details.streamLength then some (.returned (-1) stream)
      else
        (stream.seekByteInternal absolute (arrived absolute)).map (fun sought =>
          .returned (if sought.1 then absolute else -1) sought.2)

/-- Where `lseek` seeks to. -/
def target (stream : DecoderStream) (offset : Int) : Whence → Option Int
  | .seekSet => some offset
  | .seekCur => some (stream.details.currentStreamPos + offset)
  | .seekEnd => some (stream.details.streamLength + offset)
  | .avseekSize | .other _ => none

def InStream (stream : DecoderStream) (point : Int) : Prop :=
  0 ≤ point ∧ point ≤ stream.details.streamLength

/-- The byte seek to a point returns, and says whether it has sought. -/
def ByteSeeks (stream : DecoderStream) (point : Int) (arrived : Int → CacheBuffer) (sought : Bool)
    (moved : DecoderStream) : Prop :=
  InStream stream point ∧ stream.seekByteInternal point (arrived point) = some (sought, moved)

/-- The target is returned, and the stream is there, when the byte seek succeeds. When it
does not, or the target is no position, -1 is returned and nothing has changed. -/
structure SeeksTo (stream : DecoderStream) (point : Int) (arrived : Int → CacheBuffer)
    (result : Option Result) : Prop where
  succeeds : ∀ moved, ByteSeeks stream point arrived true moved →
    result = some (.returned point moved) ∧ moved.details.currentStreamPos = point
  fails : ∀ moved, ByteSeeks stream point arrived false moved →
    result = some (.returned (-1) stream)
  outside : ¬ InStream stream point → result = some (.returned (-1) stream)

/-- The callback follows `lseek`. -/
def FollowsLseek (stream : DecoderStream) (offset : Int) (arrived : Int → CacheBuffer)
    (whence : Whence) : Prop :=
  let result := seekCallback stream offset whence arrived
  match whence with
  | .avseekSize => result = some (.returned stream.details.streamLength stream)
  | .other _ => result ≠ some .undefined
  | _ => ∀ point, target stream offset whence = some point → SeeksTo stream point arrived result

/-- From the end, the offset is zero, or the seek fails in both directions. -/
def FailsBothWays (stream : DecoderStream) (offset : Int) (arrived : Int → CacheBuffer) : Prop :=
  offset = 0 ∨
    (offset < 0 ∧ ∀ moved,
      ¬ ByteSeeks stream (stream.details.streamLength + offset) arrived true moved) ∨
    (0 < offset ∧ (stream.details.streamLength < offset ∨
      DecoderStream.NoChunk stream (stream.details.streamLength - offset)))

/-- The cases that are as in `lseek`. -/
def AsLseek (stream : DecoderStream) (offset : Int) (arrived : Int → CacheBuffer) : Whence → Prop
  | .avseekSize | .seekSet | .seekCur => True
  | .seekEnd => FailsBothWays stream offset arrived
  | .other _ => False

section Targets

variable {stream : DecoderStream} {offset : Int} {arrived : Int → CacheBuffer} {whence : Whence}

/-- A call that goes on with a number. -/
theorem seekCallback_absolute {absolute : Int}
    (position : absolutePos stream offset whence = some absolute) :
    seekCallback stream offset whence arrived =
      if absolute < 0 ∨ absolute > stream.details.streamLength then
        some (.returned (-1) stream)
      else
        (stream.seekByteInternal absolute (arrived absolute)).map (fun sought =>
          .returned (if sought.1 then absolute else -1) sought.2) := by
  have sizeless : whence ≠ .avseekSize := by
    rintro rfl
    contradiction
  rw [seekCallback, if_neg sizeless, position]

/-- With the number of the target, the callback seeks to it. -/
theorem seeksTo_of_absolute {absolute : Int}
    (position : absolutePos stream offset whence = some absolute) :
    SeeksTo stream absolute arrived (seekCallback stream offset whence arrived) := by
  rw [seekCallback_absolute position]
  constructor
  · rintro moved ⟨inside, sought⟩
    rw [if_neg (by have := inside.1; have := inside.2; omega), sought]
    exact ⟨rfl, (DecoderStream.seekByteInternal_sought sought).2.1⟩
  · rintro moved ⟨inside, refused⟩
    rw [if_neg (by have := inside.1; have := inside.2; omega), refused]
    rw [DecoderStream.seekByteInternal_refused refused]
    rfl
  · intro outside
    rw [InStream] at outside
    exact if_pos (by omega)

/-- A target that does not fit into 64 bits is no position, and none is sought. -/
theorem seeksTo_of_size64 {point : Int}
    (position : absolutePos stream offset whence = some (size64 point))
    (length : stream.details.streamLength < 2 ^ 63) (low : -2 ^ 63 ≤ point)
    (high : point < 2 ^ 64) :
    SeeksTo stream point arrived (seekCallback stream offset whence arrived) := by
  by_cases fits : point < 2 ^ 63
  · have same : size64 point = point := by
      rw [size64, Int.bmod_def]
      split <;> omega
    rw [same] at position
    exact seeksTo_of_absolute position
  · have negative : size64 point < 0 := by
      rw [size64, Int.bmod_def]
      split <;> omega
    have outside : ¬ InStream stream point := by
      rw [InStream]
      omega
    rw [seekCallback_absolute position, if_pos (Or.inl negative)]
    exact ⟨fun moved sought => absurd sought.1 outside, fun _ _ => rfl, fun _ => rfl⟩

end Targets

section FromTheEnd

variable {stream : DecoderStream} {offset : Int} {arrived : Int → CacheBuffer}

/-- An offset before the end is taken to be behind it. -/
theorem seekCallback_before (within : DecoderStream.Within stream)
    (length : stream.details.streamLength < 2 ^ 63) (low : -2 ^ 63 ≤ offset) (before : offset < 0) :
    seekCallback stream offset .seekEnd arrived = some (.returned (-1) stream) := by
  have nonneg := Int.le_trans within.nonneg within.le
  have position : absolutePos stream offset .seekEnd =
      some (size64 (stream.details.streamLength - offset)) := rfl
  have refused : size64 (stream.details.streamLength - offset) < 0 ∨
      size64 (stream.details.streamLength - offset) > stream.details.streamLength := by
    rw [size64, Int.bmod_def]
    split <;> omega
  rw [seekCallback_absolute position, if_pos refused]

/-- An offset behind the end is taken to be before it. -/
theorem seekCallback_behind_iff (within : DecoderStream.Within stream)
    (length : stream.details.streamLength < 2 ^ 63) (high : offset < 2 ^ 63)
    (behind : 0 < offset) :
    seekCallback stream offset .seekEnd arrived = some (.returned (-1) stream) ↔
      stream.details.streamLength < offset ∨
        DecoderStream.NoChunk stream (stream.details.streamLength - offset) := by
  have nonneg := Int.le_trans within.nonneg within.le
  have same : size64 (stream.details.streamLength - offset) =
      stream.details.streamLength - offset := by
    rw [size64, Int.bmod_def]
    split <;> omega
  have position : absolutePos stream offset .seekEnd =
      some (stream.details.streamLength - offset) := congrArg some same
  rw [seekCallback_absolute position]
  by_cases past : stream.details.streamLength < offset
  · rw [if_pos (by omega)]
    exact iff_of_true rfl (Or.inl past)
  · have inside : 0 ≤ stream.details.streamLength - offset ∧
        stream.details.streamLength - offset ≤ stream.details.streamLength := by omega
    rw [if_neg (by omega), or_iff_right past,
      ← DecoderStream.seekByteInternal_refused_iff inside, Option.map_eq_some_iff]
    constructor
    · rintro ⟨⟨sought, moved⟩, called, returned⟩
      cases sought with
      | false => rw [called, DecoderStream.seekByteInternal_refused called]
      | true =>
        have value := (Result.returned.inj returned).1
        simp only [if_true] at value
        omega
    · intro refused
      exact ⟨_, refused, rfl⟩

/-- From the end, the callback follows `lseek` only where both fail, or at the end. -/
theorem seekEnd_iff (within : DecoderStream.Within stream)
    (length : stream.details.streamLength < 2 ^ 63) (low : -2 ^ 63 ≤ offset)
    (high : offset < 2 ^ 63) :
    SeeksTo stream (stream.details.streamLength + offset) arrived
        (seekCallback stream offset .seekEnd arrived) ↔
      FailsBothWays stream offset arrived := by
  have nonneg := Int.le_trans within.nonneg within.le
  rcases Int.lt_trichotomy offset 0 with before | rfl | behind
  · rw [seekCallback_before within length low before, FailsBothWays]
    constructor
    · intro seeks
      refine Or.inr (Or.inl ⟨before, fun moved sought => ?_⟩)
      have value := (Result.returned.inj (Option.some.inj (seeks.succeeds moved sought).1)).1
      have inside := sought.1.1
      omega
    · rintro (zero | ⟨-, never⟩ | ⟨positive, -⟩)
      · omega
      · exact ⟨fun moved sought => absurd sought (never moved), fun _ _ => rfl, fun _ => rfl⟩
      · omega
  · refine iff_of_true ?_ (Or.inl rfl)
    have position : absolutePos stream 0 .seekEnd =
        some (size64 (stream.details.streamLength + 0)) := by
      rw [absolutePos, Int.sub_zero, Int.add_zero]
    exact seeksTo_of_size64 position length (by omega) (by omega)
  · have outside : ¬ InStream stream (stream.details.streamLength + offset) := by
      rw [InStream]
      omega
    have both : FailsBothWays stream offset arrived ↔ stream.details.streamLength < offset ∨
        DecoderStream.NoChunk stream (stream.details.streamLength - offset) := by
      rw [FailsBothWays, or_iff_right (by omega), or_iff_right (by omega)]
      exact and_iff_right behind
    rw [both, ← @seekCallback_behind_iff stream offset arrived within length high behind]
    constructor
    · intro seeks
      exact seeks.outside outside
    · intro returned
      exact ⟨fun moved sought => absurd sought.1 outside, fun _ _ => returned, fun _ => returned⟩

end FromTheEnd

/-- For every stream, position and offset of 64 bits, the callback follows `lseek` exactly
when it asks for the size, or seeks from the beginning or from the position, or from the end
where the offset is zero or the seek fails in both directions. -/
theorem followsLseek_iff (stream : DecoderStream) (offset : Int) (arrived : Int → CacheBuffer)
    (whence : Whence) (within : DecoderStream.Within stream)
    (length : stream.details.streamLength < 2 ^ 63) (low : -2 ^ 63 ≤ offset)
    (high : offset < 2 ^ 63) :
    FollowsLseek stream offset arrived whence ↔ AsLseek stream offset arrived whence := by
  have nonneg := within.nonneg
  have le := within.le
  cases whence with
  | avseekSize => exact iff_of_true rfl trivial
  | seekSet =>
    refine iff_of_true (fun point there => ?_) trivial
    obtain rfl := Option.some.inj there
    exact seeksTo_of_absolute rfl
  | seekCur =>
    refine iff_of_true (fun point there => ?_) trivial
    obtain rfl := Option.some.inj there
    exact seeksTo_of_size64 rfl length (by omega) (by omega)
  | seekEnd =>
    rw [AsLseek, ← seekEnd_iff within length low high]
    constructor
    · intro follows
      exact follows _ rfl
    · intro seeks point there
      obtain rfl := Option.some.inj there
      exact seeks
  | other whence => exact iff_of_false (fun follows => follows rfl) id

/-- A buffer with data from a position on. -/
def dataFrom (first : Int) : CacheBuffer :=
  ((CacheBuffer.make 8 4 0 0).modifyCache (fun chunk =>
    ⟨first, chunk.second.append [7, 8]⟩)).putCachePtr true

/-- A stream of eight bytes, at its beginning, with the first two of them. -/
def eightBytes : DecoderStream := ⟨⟨8, 0, false, dataFrom 0⟩, []⟩

theorem position_sought :
    FollowsLseek eightBytes 1 dataFrom .seekCur :=
  (followsLseek_iff eightBytes 1 dataFrom .seekCur ⟨by decide, by decide⟩ (by decide) (by decide)
    (by decide)).mpr trivial

/-- Two bytes before the end, the target is refused, and two bytes behind it the stream is
moved to two bytes before it. With a flag in `whence` the target is undefined. -/
theorem end_sought_wrong_way :
    ¬ FollowsLseek eightBytes (-2) dataFrom .seekEnd ∧
      ¬ FollowsLseek eightBytes 2 dataFrom .seekEnd ∧
      ¬ FollowsLseek eightBytes 0 dataFrom (.other 0x20000) := by
  refine ⟨?_, ?_, fun follows => follows rfl⟩
  · intro follows
    have sought : ByteSeeks eightBytes 6 dataFrom true ⟨⟨8, 6, false, dataFrom 6⟩, []⟩ :=
      ⟨⟨by decide, by decide⟩, by decide⟩
    exact absurd ((follows 6 rfl).succeeds _ sought).1 (by decide)
  · intro follows
    have outside : ¬ InStream eightBytes 10 := fun inside => absurd inside.2 (by decide)
    exact absurd ((follows 10 rfl).outside outside) (by decide)

end Mprt.FfmpegSeek
