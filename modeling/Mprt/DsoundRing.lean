import Mprt.LabelledRuns
import Mprt.OutputPluginDsound
import Mprt.RingCursors

/-!
# The ring of the DirectSound output plugin

The secondary buffer is a ring: the device plays from its play cursor on, and `play` and
`fill_drain` write at `_write_offset`. The bytes written and not played yet are counted
beside the two positions, which is what the code does not do: it takes the distance from
the one position to the other for the number of free bytes.

With equal positions the ring is taken to be empty. So a write of all the bytes that are
free, which fills the ring, makes all of it appear free again.
-/

namespace Mprt.DsoundRing

open OutputPluginDsound

/-- The device of the plugin, the play cursor and the bytes written and not played. -/
structure Ring where
  device : DsoundDevice
  playOffset : Int
  unplayed : Int
deriving DecidableEq

/-- The play cursor is advanced, `play` writes, or `fill_drain` does. The bytes of `play`
are those that it copies into the locked regions. -/
inductive Turn where
  | advance (bytes : Int)
  | play (totalWrittenBytes : Int)
  | fillDrain (lock : Lock) (bytes : Int)

namespace Ring

def availableToWrite (ring : Ring) : Int :=
  dsoundAvailableBytesToWrite ring.device ring.playOffset

def availableToPlay (ring : Ring) : Int :=
  dsoundAvailableBytesToPlay ring.device ring.playOffset

/-- Bytes written, with the device after it. -/
def wrote (ring : Ring) (written : Int × DsoundDevice) : Ring :=
  { ring with device := written.2, unplayed := ring.unplayed + written.1 }

/-- What a turn writes. -/
def writtenBy (ring : Ring) : Turn → Option (Int × DsoundDevice)
  | .advance _ => none
  | .play totalWrittenBytes =>
      some (totalWrittenBytes, moveWriteOffset ring.device totalWrittenBytes)
  | .fillDrain lock bytes => some (OutputPluginDsound.fillDrain ring.device lock bytes)

end Ring

/-- One turn. The device plays what was written, and no write is of more bytes than are
taken to be free. -/
def step (ring : Ring) (turn : Turn) : Option Ring :=
  match turn, ring.writtenBy turn with
  | _, some written =>
      if 0 ≤ written.1 ∧ written.1 ≤ ring.availableToWrite then some (ring.wrote written)
      else none
  | .advance bytes, none =>
      if 0 ≤ bytes ∧ bytes ≤ ring.unplayed then
        some { ring with
          playOffset := (ring.playOffset + bytes) % ring.device.dsoundBufferSize
          unplayed := ring.unplayed - bytes }
      else none
  | _, none => none

/-- No unplayed byte is taken to be free, and the write offset is in the ring. -/
structure Kept (ring : Ring) : Prop where
  free : ring.availableToWrite ≤ ring.device.dsoundBufferSize - ring.unplayed
  inside : 0 ≤ ring.device.writeOffset
  below : ring.device.writeOffset < ring.device.dsoundBufferSize
  ready : ring.unplayed ≤ ring.availableToPlay

/-- A turn that does not write all the bytes that are taken to be free. -/
def LeavesRoom (ring : Ring) (turn : Turn) : Prop :=
  ∀ written ∈ ring.writtenBy turn, written.1 < ring.availableToWrite

instance (ring : Ring) (turn : Turn) : Decidable (LeavesRoom ring turn) :=
  inferInstanceAs (Decidable (∀ written ∈ ring.writtenBy turn, _))

/-- The ring at the beginning, as `init_dsound` sets it up. -/
def started (device : DsoundDevice) : Ring := ⟨{ device with writeOffset := 0 }, 0, 0⟩

/-- The positions are apart by the unplayed bytes, which do not fill the ring. -/
structure Tracked (ring : Ring) : Prop where
  placed : RingCursors.Placed ring.device.dsoundBufferSize ring.playOffset
    ring.device.writeOffset ring.unplayed
  room : ring.unplayed < ring.device.dsoundBufferSize

section Distances

variable {ring : Ring}

/-- The free bytes are the distance of the two positions. -/
theorem availableToWrite_eq (ring : Ring) :
    ring.availableToWrite = RingCursors.gap ring.device.dsoundBufferSize ring.playOffset
      ring.device.writeOffset := rfl

/-- The bytes to play are the others. -/
theorem availableToPlay_eq (ring : Ring) :
    ring.availableToPlay = ring.device.dsoundBufferSize - ring.availableToWrite := rfl

/-- While the ring is not full, all and only the played bytes are free. -/
theorem Tracked.available (tracked : Tracked ring) :
    ring.availableToWrite = ring.device.dsoundBufferSize - ring.unplayed := by
  rw [availableToWrite_eq]
  exact tracked.placed.gap_eq tracked.room

theorem Tracked.kept (tracked : Tracked ring) : Kept ring := by
  have available := tracked.available
  have ready := availableToPlay_eq ring
  exact ⟨by omega, tracked.placed.write_nonneg, tracked.placed.write_lt, by omega⟩

/-- A full ring is not kept: all of its bytes are taken to be free. -/
theorem not_kept_of_full (full : RingCursors.Placed ring.device.dsoundBufferSize ring.playOffset
    ring.device.writeOffset ring.device.dsoundBufferSize)
    (unplayed : ring.unplayed = ring.device.dsoundBufferSize) : ¬ Kept ring := by
  intro kept
  have available : ring.availableToWrite = ring.device.dsoundBufferSize := by
    rw [availableToWrite_eq]
    exact full.gap_full
  have free := kept.free
  have below := kept.below
  have inside := kept.inside
  omega

end Distances

section Writes

/-- The regions that are locked are together no longer than what was asked for. -/
def Regions (device : DsoundDevice) (lock : Lock) (bytes : Int) : Prop :=
  ∀ sizes ∈ lock (dword device.writeOffset) (dword bytes),
    0 ≤ sizes.1 ∧ 0 ≤ sizes.2.getD 0 ∧ sizes.1 + sizes.2.getD 0 ≤ bytes

/-- The offset is moved around the ring. -/
theorem moveWriteOffset_offset {device : DsoundDevice} {bytes : Int}
    (inside : 0 ≤ device.writeOffset) (forward : 0 ≤ bytes) :
    (moveWriteOffset device bytes).writeOffset =
      RingCursors.move device.dsoundBufferSize device.writeOffset bytes :=
  Int.tmod_eq_emod_of_nonneg (by omega)

/-- `fill_drain` moves the offset by the bytes that it returns. -/
theorem fillDrain_moves {device : DsoundDevice} {lock : Lock} {bytes : Int}
    (inside : 0 ≤ device.writeOffset) (below : device.writeOffset < device.dsoundBufferSize) :
    (fillDrain device lock bytes).2 = moveWriteOffset device (fillDrain device lock bytes).1 := by
  have still : moveWriteOffset device 0 = device := by
    have same : (device.writeOffset + 0).tmod device.dsoundBufferSize = device.writeOffset := by
      rw [Int.add_zero]
      exact Int.tmod_eq_of_lt inside below
    rw [moveWriteOffset, same]
  rw [fillDrain]
  split
  · split <;> rfl
  · exact still.symm

/-- The bytes of `fill_drain` fit when the locked regions do. -/
theorem fillDrain_fits {device : DsoundDevice} {lock : Lock} {bytes : Int} (asked : 0 ≤ bytes)
    (regions : Regions device lock bytes) :
    0 ≤ (fillDrain device lock bytes).1 ∧ (fillDrain device lock bytes).1 ≤ bytes := by
  rw [fillDrain]
  split
  · split
    · exact ⟨Int.le_refl 0, asked⟩
    · rename_i size1 size2 locked
      obtain ⟨first, second, within⟩ := regions _ locked
      exact ⟨Int.add_nonneg first second, within⟩
  · exact ⟨Int.le_refl 0, asked⟩

/-- `play` copies no more bytes than are taken to be free, and moves the offset by them
once they are unlocked. -/
theorem playData_writes {env : DsoundEnv} {current : SoundDetails} {address : Nat}
    {state reached : OutputPlugin DsoundDevice}
    (regions : Regions state.device env.lock
      (min (dsoundAvailableBytesToWrite state.device env.playOffset)
        (state.buffers address).totalBytesInBufferGuess))
    (called : playData env current address state = some reached) :
    reached.device = state.device ∨
      ∃ played totalWrittenBytes copied, 0 ≤ totalWrittenBytes ∧
        totalWrittenBytes ≤ dsoundAvailableBytesToWrite state.device env.playOffset ∧
        copied.device = state.device ∧
        unlocked env played totalWrittenBytes copied = some reached := by
  rw [playData] at called
  split at called
  · cases called
    exact Or.inl rfl
  · rename_i size1 size2 locked
    obtain ⟨inFirst, inSecond, within⟩ := regions _ locked
    simp only at inFirst inSecond within
    obtain ⟨first, copiedFirst, called⟩ := Option.bind_eq_some_iff.mp called
    obtain ⟨second, copiedSecond, called⟩ := Option.bind_eq_some_iff.mp called
    have firstFits := CacheBuffer.writeIntoRawBuffer_fits inFirst copiedFirst
    have secondFits : second.1.length ≤ size2.getD 0 := by
      cases size2 with
      | none => cases copiedSecond; exact Int.le_refl 0
      | some size2 => exact CacheBuffer.writeIntoRawBuffer_fits inSecond copiedSecond
    split at called
    · have written : (0 : Int) ≤ first.1.length + second.1.length := by omega
      have copied : ((state.setTop (current.addSamples (current.bytesToSamples
          (first.1.length + second.1.length)))).setBuffer address second.2).device =
          state.device := rfl
      exact Or.inr ⟨_, _, _, written, by omega, copied, called⟩
    · cases called
      exact Or.inl rfl

end Writes

section Steps

variable {ring next : Ring} {turn : Turn}

/-- Every write moves the offset by its bytes. -/
theorem writtenBy_moves {written : Int × DsoundDevice} (tracked : Tracked ring)
    (writes : ring.writtenBy turn = some written) :
    written.2 = moveWriteOffset ring.device written.1 := by
  cases turn with
  | advance bytes => contradiction
  | play totalWrittenBytes => cases writes; rfl
  | fillDrain lock bytes =>
    cases writes
    exact fillDrain_moves tracked.placed.write_nonneg tracked.placed.write_lt

/-- A turn that advances the play cursor past played bytes, or one that writes. -/
theorem step_cases (taken : step ring turn = some next) :
    (∃ bytes, turn = .advance bytes ∧ 0 ≤ bytes ∧ bytes ≤ ring.unplayed ∧
      next = { ring with
        playOffset := RingCursors.move ring.device.dsoundBufferSize ring.playOffset bytes
        unplayed := ring.unplayed - bytes }) ∨
    (∃ written, ring.writtenBy turn = some written ∧ 0 ≤ written.1 ∧
      written.1 ≤ ring.availableToWrite ∧ next = ring.wrote written) := by
  cases turn with
  | advance bytes =>
    simp only [step, Ring.writtenBy, Option.ite_none_right_eq_some, Option.some.injEq] at taken
    obtain ⟨⟨forward, there⟩, rfl⟩ := taken
    exact Or.inl ⟨bytes, rfl, forward, there, rfl⟩
  | play totalWrittenBytes | fillDrain lock bytes =>
    simp only [step, Ring.writtenBy, Option.ite_none_right_eq_some, Option.some.injEq] at taken
    obtain ⟨⟨forward, there⟩, rfl⟩ := taken
    exact Or.inr ⟨_, rfl, forward, there, rfl⟩

/-- A write puts the offset as far ahead as there are unplayed bytes. -/
theorem Tracked.wrote (tracked : Tracked ring) {written : Int × DsoundDevice}
    (writes : ring.writtenBy turn = some written) (forward : 0 ≤ written.1)
    (there : written.1 ≤ ring.availableToWrite) :
    RingCursors.Placed (ring.wrote written).device.dsoundBufferSize (ring.wrote written).playOffset
      (ring.wrote written).device.writeOffset (ring.wrote written).unplayed ∧
    (ring.wrote written).device.dsoundBufferSize = ring.device.dsoundBufferSize := by
  have available := tracked.available
  have produced := tracked.placed.produce forward (by omega)
  simp only [Ring.wrote, writtenBy_moves tracked writes]
  rw [moveWriteOffset_offset tracked.placed.write_nonneg forward]
  exact ⟨produced, rfl⟩

/-- From a ring that is not full, a turn keeps the unplayed bytes exactly when it leaves
room, and then the ring is not full again. -/
theorem step_exact (tracked : Tracked ring) (taken : step ring turn = some next) :
    (LeavesRoom ring turn → Tracked next) ∧ (Kept next → LeavesRoom ring turn) := by
  rcases step_cases taken with ⟨bytes, rfl, forward, there, rfl⟩ | ⟨written, writes, forward, there,
    rfl⟩
  · refine ⟨fun _ => ⟨tracked.placed.consume forward there, ?_⟩, fun _ written writes => ?_⟩
    · have room := tracked.room
      simp only
      omega
    · contradiction
  · have available := tracked.available
    obtain ⟨placed, size⟩ := tracked.wrote writes forward there
    have unplayed : (ring.wrote written).unplayed = ring.unplayed + written.1 := rfl
    constructor
    · intro leaves
      have room := leaves written writes
      exact ⟨placed, by omega⟩
    · intro kept other others
      obtain rfl : written = other := Option.some.inj (writes.symm.trans others)
      -- Otherwise the write fills the ring.
      by_contra filled
      have full : (ring.wrote written).unplayed = (ring.wrote written).device.dsoundBufferSize := by
        omega
      exact not_kept_of_full (full ▸ placed) full kept

/-- Every pass of the drain is a turn. -/
theorem drain_step (tracked : Tracked ring) {lock : Lock} {writePlayBytes : Int}
    (left : 0 < writePlayBytes)
    (regions : Regions ring.device lock (min ring.availableToWrite writePlayBytes)) :
    ∃ next, step ring (.fillDrain lock (min ring.availableToWrite writePlayBytes)) = some next := by
  have available := tracked.available
  have room := tracked.room
  have fits := fillDrain_fits (by omega) regions
  refine ⟨_, if_pos ⟨fits.1, ?_⟩⟩
  exact Int.le_trans fits.2 (Int.min_le_left _ _)

end Steps

/-- In every run of the ring, from both positions at its beginning, the unplayed bytes are
kept in every state reached exactly when no write is of all the bytes taken to be free. -/
theorem kept_iff_leavesRoom (device : DsoundDevice) (turns : List Turn) (finish : Ring)
    (bytes : 0 < device.dsoundBufferSize)
    (ran : LabelledRuns.run step (started device) turns = some finish) :
    LabelledRuns.Along step (fun _ _ next => Kept next) (started device) turns ↔
      LabelledRuns.Meets step LeavesRoom (started device) turns := by
  have beginning : Tracked (started device) :=
    ⟨RingCursors.placed_empty (Int.le_refl 0) bytes, bytes⟩
  exact LabelledRuns.along_iff_meets (fun state turn next tracked taken =>
    ⟨(step_exact tracked taken).2, fun leaves => ((step_exact tracked taken).1 leaves).kept⟩)
    (fun state turn next tracked taken kept =>
      (step_exact tracked taken).1 ((step_exact tracked taken).2 kept)) beginning ran

/-- A ring of four bytes. -/
def fourBytes : DsoundDevice := ⟨true, true, true, 0, 4, 1000⟩

/-- Three bytes written, two of them played, and three more written as silence. -/
theorem three_and_three :
    LabelledRuns.Along step (fun _ _ next => Kept next) (started fourBytes)
      [.play 3, .advance 2, .fillDrain (fun _ bytes => some (1, some (bytes - 1))) 2] :=
  (kept_iff_leavesRoom fourBytes _ ⟨{ fourBytes with writeOffset := 1 }, 2, 3⟩ (by decide)
    (by decide)).mpr (by decide)

/-- The first write of `play` fills a ring of four bytes, and all of them are free again. -/
theorem filled_ring_free : ¬ LabelledRuns.Along step (fun _ _ next => Kept next)
    (started fourBytes) [.play 4] :=
  fun kept => absurd kept.1.free (by decide)

end Mprt.DsoundRing
