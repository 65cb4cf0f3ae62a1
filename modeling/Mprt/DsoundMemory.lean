import Mprt.BulkRead
import Mprt.DsoundRing
import Mprt.RotatedRing

/-!
# The bytes in the ring of the DirectSound output plugin

`play` and `fill_drain` lock a part of the secondary buffer and write into the one or two
regions that the device gives them: from the write offset on, and, past the end, at the
beginning. The device plays the bytes from its play cursor on.

While nothing is written into a full ring, which is taken to be free, the device plays what was
written, byte after byte, nothing twice and nothing else. A read from the track's buffer
whose regions cannot be unlocked is lost, but it harms no byte that is still to be played.
-/

namespace Mprt.DsoundMemory

open OutputPluginDsound DsoundRing

/-- `Lock` of a ring of bytes, where it succeeds. -/
def ringLock (size : Int) (locks : Bool) : Lock := fun offset bytes =>
  if locks = true ∧ bytes ≤ size then
    if offset + bytes ≤ size then some (bytes, none)
    else some (size - offset, some (bytes - (size - offset)))
  else none

/-- The ring with its memory, the bytes that were played, and those that were written. -/
structure State where
  ring : Ring
  memory : List UInt8
  heard : List UInt8
  written : List UInt8
deriving DecidableEq

/-- The play cursor is advanced, `play` reads from the buffer of a track, or `fill_drain`
writes silence. The device may fail to lock or to unlock. -/
inductive Turn where
  | advance (bytes : Int)
  | play (buffer : CacheBuffer) (locks unlocks : Bool)
  | fillDrain (locks : Bool) (bytes : Int)

/-- Bytes written at an address. -/
def copyInto (memory : List UInt8) (address : Nat) (bytes : List UInt8) : List UInt8 :=
  memory.take address ++ bytes ++ memory.drop (address + bytes.length)

/-- Bytes written into the two regions. -/
def copyRegions (device : DsoundDevice) (memory : List UInt8)
    (regions : List UInt8 × List UInt8) : List UInt8 :=
  copyInto (copyInto memory device.writeOffset.toNat regions.1) 0 regions.2

/-- What `play` copies into the regions, and the buffer after it; or nothing to lock. -/
def playCopies (lock : Lock) (playOffset : Int) (device : DsoundDevice) (buffer : CacheBuffer) :
    Option (Option ((List UInt8 × List UInt8) × CacheBuffer)) :=
  let availBytesToWrite := min (dsoundAvailableBytesToWrite device playOffset)
    buffer.totalBytesInBufferGuess
  match lock (dword device.writeOffset) (dword availBytesToWrite) with
  | none => some none
  | some (size1, size2) =>
    (buffer.writeIntoRawBuffer size1 true).bind (fun first =>
      let second :=
        match size2 with
        | none => some ([], first.2)
        | some size2 => first.2.writeIntoRawBuffer size2 true
      second.map (fun second => some ((first.1, second.1), second.2)))

/-- The silence of `fill_drain`. -/
def silence (lock : Lock) (device : DsoundDevice) (bytes : Int) : List UInt8 × List UInt8 :=
  if device.primaryBuffer && device.secondaryBuffer then
    match lock (dword device.writeOffset) (dword bytes) with
    | none => ([], [])
    | some (size1, size2) => (List.replicate size1.toNat 0, List.replicate (size2.getD 0).toNat 0)
  else ([], [])

/-- Bytes that were written and are to be played. -/
def State.wrote (state : State) (next : Ring) (regions : List UInt8 × List UInt8) : State :=
  { state with
    ring := next
    memory := copyRegions state.ring.device state.memory regions
    written := state.written ++ (regions.1 ++ regions.2) }

/-- One turn. -/
def step (state : State) : Turn → Option State
  | .advance bytes =>
    (DsoundRing.step state.ring (.advance bytes)).map (fun next => { state with
      ring := next
      heard := state.heard ++
        (state.memory.rotate state.ring.playOffset.toNat).take bytes.toNat })
  | .play buffer locks unlocks =>
    let lock := ringLock state.ring.device.dsoundBufferSize locks
    (playCopies lock state.ring.playOffset state.ring.device buffer).bind (fun copied =>
      match copied with
      | none => some state
      | some (regions, _) =>
        if unlocks then
          (DsoundRing.step state.ring (.play (regions.1.length + regions.2.length))).map
            (state.wrote · regions)
        else some { state with memory := copyRegions state.ring.device state.memory regions })
  | .fillDrain locks bytes =>
    let lock := ringLock state.ring.device.dsoundBufferSize locks
    (DsoundRing.step state.ring (.fillDrain lock bytes)).map
      (state.wrote · (silence lock state.ring.device bytes))

/-- The bytes that are to be played. -/
def State.pending (state : State) : List UInt8 :=
  (state.memory.rotate state.ring.playOffset.toNat).take state.ring.unplayed.toNat

/-- A turn that does not write into a full ring, with a buffer that counts its bytes. -/
def FindsRoom (state : State) : Turn → Prop
  | .advance _ => True
  | .play buffer _ _ => 0 ≤ buffer.totalBytesInBufferGuess ∧
    state.ring.unplayed < state.ring.device.dsoundBufferSize
  | .fillDrain _ _ => state.ring.unplayed < state.ring.device.dsoundBufferSize

instance (state : State) (turn : Turn) : Decidable (FindsRoom state turn) :=
  match turn with
  | .advance _ => inferInstanceAs (Decidable True)
  | .play _ _ _ => inferInstanceAs (Decidable (_ ∧ _))
  | .fillDrain _ _ => inferInstanceAs (Decidable (_ < _))

/-- The ring at the beginning, with anything in its memory. -/
def started (device : DsoundDevice) (memory : List UInt8) : State :=
  ⟨DsoundRing.started device, memory, [], []⟩

/-! ## Regions -/

/-- The locked regions are the bytes asked for, from the offset on. -/
theorem ringLock_regions {size offset bytes size1 : Int} {size2 : Option Int} {locks : Bool}
    (below : offset < size) (asked : 0 ≤ bytes)
    (locked : ringLock size locks offset bytes = some (size1, size2)) :
    0 ≤ size1 ∧ 0 ≤ size2.getD 0 ∧ offset + size1 ≤ size ∧ bytes ≤ size ∧
      size1 + size2.getD 0 = bytes ∧ (size2.getD 0 = 0 ∨ offset + size1 = size) := by
  simp only [ringLock, Option.ite_none_right_eq_some] at locked
  obtain ⟨⟨_, fits⟩, locked⟩ := locked
  split at locked
  · obtain ⟨rfl, rfl⟩ := Prod.mk.inj (Option.some.inj locked)
    exact ⟨asked, Int.le_refl 0, by omega, fits, Int.add_zero bytes, Or.inl rfl⟩
  · obtain ⟨rfl, rfl⟩ := Prod.mk.inj (Option.some.inj locked)
    simp only [Option.getD_some]
    omega

/-- The bytes for the two regions: those for the first one end before the end of the ring,
or at it when there are others. -/
structure Fit (device : DsoundDevice) (regions : List UInt8 × List UInt8) : Prop where
  inside : device.writeOffset + regions.1.length ≤ device.dsoundBufferSize
  wraps : regions.2 = [] ∨ device.writeOffset + regions.1.length = device.dsoundBufferSize
  total : (regions.1.length + regions.2.length : Int) ≤ device.dsoundBufferSize

/-- Two regions are one stretch of the ring. -/
theorem Fit.copies {device : DsoundDevice} {regions : List UInt8 × List UInt8}
    {memory : List UInt8} (fit : Fit device regions) (forward : 0 ≤ device.writeOffset)
    (length : (memory.length : Int) = device.dsoundBufferSize) :
    copyRegions device memory regions =
      RotatedRing.overwrite memory device.writeOffset.toNat (regions.1 ++ regions.2) := by
  have inside := fit.inside
  have total := fit.total
  have straight : ∀ {ring : List UInt8} {address : Nat} {bytes : List UInt8},
      address + bytes.length ≤ ring.length →
        copyInto ring address bytes = RotatedRing.overwrite ring address bytes :=
    fun fits => (RotatedRing.overwrite_straight fits).symm
  have first : device.writeOffset.toNat + regions.1.length ≤ memory.length := by omega
  rw [copyRegions, straight first, RotatedRing.overwrite_append]
  rw [straight (by rw [RotatedRing.overwrite_length]; omega)]
  rcases fit.wraps with none | past
  · rw [none]
    rfl
  · have ends : device.writeOffset.toNat + regions.1.length = memory.length := by omega
    rw [ends, ← RotatedRing.overwrite_mod _ memory.length, RotatedRing.overwrite_length,
      Nat.mod_self]

/-- A read takes the first bytes of the buffer. The induction is on the calls, and each has
one chunk less. -/
theorem readLoop_bytes {fuel count : Nat} {buffer after : CacheBuffer} {bytes : List UInt8}
    (read : CacheBuffer.writeIntoRawBufferLoop fuel buffer count true = some (bytes, after)) :
    bytes = buffer.dataBytes.take count ∧ after.dataBytes = buffer.dataBytes.drop count := by
  induction fuel generalizing buffer count bytes with
  | zero => cases read
  | succ fuel inductionHypothesis =>
    cases front : buffer.dataBuffer.items with
    | nil =>
      have none : buffer.dataBytes = [] := by rw [CacheBuffer.dataBytes, front]; rfl
      simp only [CacheBuffer.writeIntoRawBufferLoop, BulkRead.getDataPtr_nil front] at read
      obtain ⟨rfl, rfl⟩ := Prod.mk.inj (Option.some.inj read)
      rw [none]
      exact ⟨List.take_nil.symm, List.drop_nil.symm⟩
    | cons chunk rest =>
      have held := BulkRead.dataBytes_cons front
      by_cases part : count < chunk.second.size
      · rw [BulkRead.write_part front part] at read
        obtain ⟨rfl, rfl⟩ := Prod.mk.inj (Option.some.inj read)
        have fewer := Nat.le_of_lt part
        rw [held, List.take_append_of_le_length fewer, List.drop_append_of_le_length fewer]
        refine ⟨rfl, ?_⟩
        rw [CacheBuffer.dataBytes, (BulkRead.takeFront_part front part).data,
          CacheBuffer.queueBytes_cons]
        rfl
      · have whole := Nat.not_lt.mp part
        have left : (BulkRead.takeFront buffer chunk chunk.second.size).dataBytes =
            CacheBuffer.queueBytes rest := by
          rw [CacheBuffer.dataBytes, (BulkRead.takeFront_whole front).data]
        rw [BulkRead.write_whole front whole] at read
        rw [held, List.take_append, List.drop_append, List.take_of_length_le whole,
          List.drop_of_length_le whole, List.nil_append]
        split at read
        · obtain ⟨following, goesOn, ended⟩ := Option.map_eq_some_iff.mp read
          obtain ⟨rfl, rfl⟩ := Prod.mk.inj ended
          obtain ⟨taken, kept⟩ := inductionHypothesis goesOn
          rw [taken, kept, left]
          exact ⟨rfl, rfl⟩
        · rename_i exhausted
          obtain ⟨rfl, rfl⟩ := Prod.mk.inj (Option.some.inj read)
          have nothing : count - chunk.second.items.length = 0 := by
            rw [← CircularBuffer.size]
            omega
          rw [nothing, List.take_zero, List.append_nil, left]
          exact ⟨rfl, rfl⟩

theorem read_bytes {size : Int} {buffer after : CacheBuffer} {bytes : List UInt8}
    (room : 0 ≤ size) (read : buffer.writeIntoRawBuffer size true = some (bytes, after)) :
    bytes = buffer.dataBytes.take size.toNat ∧ after.dataBytes = buffer.dataBytes.drop size.toNat := by
  obtain ⟨count, rfl⟩ := Int.eq_ofNat_of_zero_le room
  exact readLoop_bytes read

theorem dword_eq {size : Int} (forward : 0 ≤ size) (small : size < 2 ^ 32) : dword size = size :=
  Int.emod_eq_of_lt forward small

/-- `play` copies these bytes, and moves the write offset by as many once they are unlocked. -/
theorem playData_copies (env : DsoundEnv) (current : SoundDetails) (address : Nat)
    (state : OutputPlugin DsoundDevice) :
    playData env current address state =
      (playCopies env.lock env.playOffset state.device (state.buffers address)).bind (fun copied =>
        match copied with
        | none => some state
        | some (regions, buffer) =>
          let totalWrittenBytes : Int := regions.1.length + regions.2.length
          let played := current.addSamples (current.bytesToSamples totalWrittenBytes)
          let reached := (state.setTop played).setBuffer address buffer
          if env.unlock then unlocked env played totalWrittenBytes reached else some reached) := by
  simp only [playData, playCopies]
  generalize env.lock (dword state.device.writeOffset)
    (dword (min (dsoundAvailableBytesToWrite state.device env.playOffset)
      (state.buffers address).totalBytesInBufferGuess)) = locked
  rcases locked with _ | ⟨size1, size2⟩
  · rfl
  · simp only [Option.bind_assoc]
    refine Option.bind_congr (fun first _ => ?_)
    cases size2 with
    | none => rfl
    | some size2 =>
      simp only
      rcases first.2.writeIntoRawBuffer size2 true with _ | second
      · rfl
      · rfl

/-- What `play` copies are the first bytes of the buffer, no more than are taken to be free. -/
theorem playCopies_bytes {playOffset : Int} {device : DsoundDevice} {buffer after : CacheBuffer}
    {locks : Bool} {regions : List UInt8 × List UInt8} (inside : 0 ≤ device.writeOffset)
    (below : device.writeOffset < device.dsoundBufferSize)
    (small : device.dsoundBufferSize < 2 ^ 32)
    (available : 0 ≤ dsoundAvailableBytesToWrite device playOffset)
    (free : dsoundAvailableBytesToWrite device playOffset ≤ device.dsoundBufferSize)
    (counted : 0 ≤ buffer.totalBytesInBufferGuess)
    (copied : playCopies (ringLock device.dsoundBufferSize locks) playOffset device buffer =
      some (some (regions, after))) :
    Fit device regions ∧
      (regions.1.length + regions.2.length : Int) ≤ dsoundAvailableBytesToWrite device playOffset ∧
      regions.1 ++ regions.2 = buffer.dataBytes.take
        (min (dsoundAvailableBytesToWrite device playOffset)
          buffer.totalBytesInBufferGuess).toNat := by
  simp only [playCopies, dword_eq inside (by omega),
    dword_eq (Int.le_min.mpr ⟨available, counted⟩) (by omega)] at copied
  split at copied
  · cases copied
  · rename_i size1 size2 locked
    obtain ⟨inFirst, inSecond, ends, _, sum, wraps⟩ := ringLock_regions below (by omega) locked
    obtain ⟨⟨first, middle⟩, readFirst, copied⟩ := Option.bind_eq_some_iff.mp copied
    obtain ⟨rfl, left⟩ := read_bytes inFirst readFirst
    simp only at copied
    obtain ⟨⟨second, ended⟩, readSecond, pair⟩ := Option.map_eq_some_iff.mp copied
    have others : second = middle.dataBytes.take (size2.getD 0).toNat := by
      cases size2 with
      | none =>
        obtain ⟨rfl, _⟩ := Prod.mk.inj (Option.some.inj readSecond)
        exact List.take_zero.symm
      | some size2 => exact (read_bytes inSecond readSecond).1
    obtain ⟨rfl, rfl⟩ := Prod.mk.inj (Option.some.inj pair)
    rw [left] at others
    subst others
    have joined : buffer.dataBytes.take size1.toNat ++
        (buffer.dataBytes.drop size1.toNat).take (size2.getD 0).toNat =
          buffer.dataBytes.take (min (dsoundAvailableBytesToWrite device playOffset)
            buffer.totalBytesInBufferGuess).toNat := by
      rw [← List.take_add, ← Int.toNat_add inFirst inSecond, sum]
    have firstLength : (buffer.dataBytes.take size1.toNat).length ≤ size1.toNat :=
      List.length_take_le _ _
    have secondLength : ((buffer.dataBytes.drop size1.toNat).take (size2.getD 0).toNat).length ≤
      (size2.getD 0).toNat := List.length_take_le _ _
    refine ⟨⟨by simp only; omega, ?_, by simp only; omega⟩, by simp only; omega, joined⟩
    simp only
    rcases wraps with none | past
    · rw [none]
      exact Or.inl List.take_zero
    · by_cases exhausted : buffer.dataBytes.length ≤ size1.toNat
      · rw [List.drop_of_length_le exhausted]
        exact Or.inl List.take_nil
      · rw [List.length_take]
        exact Or.inr (by omega)

/-- The silence of `fill_drain` is as long as it says. -/
theorem silence_fit {device : DsoundDevice} {locks : Bool} {bytes : Int}
    (inside : 0 ≤ device.writeOffset) (below : device.writeOffset < device.dsoundBufferSize)
    (small : device.dsoundBufferSize < 2 ^ 32) :
    Fit device (silence (ringLock device.dsoundBufferSize locks) device bytes) ∧
      ((silence (ringLock device.dsoundBufferSize locks) device bytes).1.length +
        (silence (ringLock device.dsoundBufferSize locks) device bytes).2.length : Int) =
          (fillDrain device (ringLock device.dsoundBufferSize locks) bytes).1 := by
  have nothing : Fit device ([], []) := by
    refine ⟨?_, Or.inl rfl, ?_⟩ <;> simp only [List.length_nil] <;> omega
  rw [silence, fillDrain]
  split
  · rw [dword_eq inside (by omega)]
    cases locked : ringLock device.dsoundBufferSize locks device.writeOffset (dword bytes) with
    | none => exact ⟨nothing, rfl⟩
    | some regions =>
      obtain ⟨size1, size2⟩ := regions
      have asked : 0 ≤ dword bytes := Int.emod_nonneg _ (by decide)
      obtain ⟨inFirst, inSecond, ends, fits, sum, wraps⟩ := ringLock_regions below asked locked
      refine ⟨⟨?_, ?_, ?_⟩, ?_⟩ <;> simp only [List.length_replicate]
      · omega
      · rcases wraps with none | past
        · rw [none]
          exact Or.inl rfl
        · exact Or.inr (by omega)
      · omega
      · omega
  · exact ⟨nothing, rfl⟩

/-! ## What is heard -/

/-- The offsets are where they should be, and what was written has been played or is to be
played. -/
structure Sounds (state : State) : Prop where
  placed : RingCursors.Placed state.ring.device.dsoundBufferSize state.ring.playOffset
    state.ring.device.writeOffset state.ring.unplayed
  small : state.ring.device.dsoundBufferSize < 2 ^ 32
  length : (state.memory.length : Int) = state.ring.device.dsoundBufferSize
  order : state.heard ++ state.pending = state.written

section Steps

variable {state next : State}

/-- A write at the write offset leaves the bytes that are to be played, and comes behind
them. -/
theorem Sounds.overwrites (sounds : Sounds state) (tracked : Tracked state.ring)
    (bytes : List UInt8) (fits : (bytes.length : Int) ≤ state.ring.availableToWrite) (count : Nat)
    (some : count ≤ bytes.length) :
    ((RotatedRing.overwrite state.memory state.ring.device.writeOffset.toNat bytes).rotate
      state.ring.playOffset.toNat).take (state.ring.unplayed.toNat + count) =
        state.pending ++ bytes.take count := by
  have available := tracked.available
  have length := sounds.length
  obtain ⟨readInside, readBelow, writeInside, writeBelow, atLeast, _, ahead⟩ := sounds.placed
  have place : state.ring.device.writeOffset.toNat =
      (state.ring.playOffset.toNat + state.ring.unplayed.toNat) % state.memory.length := by
    rcases ahead with straight | past
    · rw [Nat.mod_eq_of_lt (by omega)]
      omega
    · rw [Nat.mod_eq_sub_mod (by omega), Nat.mod_eq_of_lt (by omega)]
      omega
  have whole : state.ring.unplayed.toNat + bytes.length ≤
      (state.memory.rotate state.ring.playOffset.toNat).length := by
    rw [List.length_rotate]
    omega
  rw [place, RotatedRing.overwrite_mod, RotatedRing.rotate_overwrite,
    RotatedRing.overwrite_straight whole, List.append_assoc, List.take_append,
    List.length_take_of_le (by omega), Nat.add_sub_cancel_left,
    List.take_append_of_le_length some, List.take_of_length_le]
  · rfl
  · exact Nat.le_trans (List.length_take_le _ _) (Nat.le_add_right _ _)

/-- The next state of a write of `play` or `fill_drain`. -/
theorem Sounds.wrote (sounds : Sounds state) (tracked : Tracked state.ring)
    {regions : List UInt8 × List UInt8} {ring : Ring} (turn : DsoundRing.Turn)
    {written : Int × DsoundDevice} (fit : Fit state.ring.device regions)
    (writes : state.ring.writtenBy turn = some written)
    (bytes : (regions.1.length + regions.2.length : Int) = written.1)
    (taken : DsoundRing.step state.ring turn = some ring) : Sounds (state.wrote ring regions) := by
  obtain ⟨forward, fits, same⟩ : 0 ≤ written.1 ∧ written.1 ≤ state.ring.availableToWrite ∧
      ring = state.ring.wrote written := by
    rcases step_cases taken with ⟨_, rfl, _⟩ | ⟨other, others, forward, fits, rfl⟩
    · cases writes
    · obtain rfl : other = written := Option.some.inj (others.symm.trans writes)
      exact ⟨forward, fits, rfl⟩
  have total : (regions.1 ++ regions.2).length = regions.1.length + regions.2.length :=
    List.length_append
  have moves := writtenBy_moves tracked writes
  have atLeast := sounds.placed.count_nonneg
  refine ⟨?_, ?_, ?_, ?_⟩
  · rw [State.wrote, same]
    exact (tracked.wrote writes forward fits).1
  · rw [State.wrote, same, Ring.wrote, moves]
    exact sounds.small
  · rw [State.wrote, same, Ring.wrote, moves]
    simp only [fit.copies sounds.placed.write_nonneg sounds.length, RotatedRing.overwrite_length]
    exact sounds.length
  · have unplayed : ring.unplayed.toNat =
        state.ring.unplayed.toNat + (regions.1 ++ regions.2).length := by
      rw [same, Ring.wrote]
      simp only
      omega
    have seen := sounds.overwrites tracked (regions.1 ++ regions.2) (by omega) _ (Nat.le_refl _)
    have cursor : ring.playOffset = state.ring.playOffset := by rw [same, Ring.wrote]
    rw [List.take_length] at seen
    rw [State.pending, State.wrote, unplayed]
    simp only [cursor, fit.copies sounds.placed.write_nonneg sounds.length]
    rw [seen, ← List.append_assoc, sounds.order]

/-- The device plays the bytes that come first. -/
theorem Sounds.advanced (sounds : Sounds state) {bytes : Int} {ring : Ring}
    (taken : DsoundRing.step state.ring (.advance bytes) = some ring) :
    Sounds { state with
      ring := ring
      heard := state.heard ++
        (state.memory.rotate state.ring.playOffset.toNat).take bytes.toNat } := by
  rcases step_cases taken with ⟨other, same, forward, there, rfl⟩ | ⟨_, writes, _⟩
  · obtain rfl := DsoundRing.Turn.advance.inj same
    refine ⟨sounds.placed.consume forward there, sounds.small, sounds.length, ?_⟩
    have length := sounds.length
    have room := sounds.placed.count_le
    have some := sounds.placed.read_lt
    have readInside := sounds.placed.read_nonneg
    have view : (state.memory.rotate state.ring.playOffset.toNat).length = state.memory.length :=
      List.length_rotate _ _
    have cursor : (RingCursors.move state.ring.device.dsoundBufferSize state.ring.playOffset
        bytes).toNat = (state.ring.playOffset.toNat + bytes.toNat) % state.memory.length := by
      rw [RingCursors.move, ← length, Int.toNat_emod (by omega) (by omega),
        Int.toNat_add readInside forward, Int.toNat_natCast]
    have split : state.ring.unplayed.toNat =
        bytes.toNat + (state.ring.unplayed - bytes).toNat := by omega
    have order := sounds.order
    rw [State.pending, split, List.take_add] at order
    simp only [State.pending, cursor]
    rw [List.rotate_mod, ← List.rotate_rotate]
    generalize state.memory.rotate state.ring.playOffset.toNat = seen at order view ⊢
    rw [List.rotate_eq_drop_append_take (by omega),
      List.take_append_of_le_length (by rw [List.length_drop]; omega), List.append_assoc]
    exact order
  · cases writes

/-- Every turn that finds room keeps what sounds. -/
theorem step_preserves (state : State) (turn : Turn) (next : State) (sounds : Sounds state)
    (finds : FindsRoom state turn) (taken : step state turn = some next) : Sounds next := by
  have inside := sounds.placed.write_nonneg
  have below := sounds.placed.write_lt
  have atLeast := sounds.placed.count_nonneg
  cases turn with
  | advance bytes =>
    obtain ⟨ring, moved, rfl⟩ := Option.map_eq_some_iff.mp taken
    exact sounds.advanced moved
  | play buffer locks unlocks =>
    obtain ⟨counted, room⟩ := finds
    have tracked : Tracked state.ring := ⟨sounds.placed, room⟩
    obtain ⟨copied, copies, taken⟩ := Option.bind_eq_some_iff.mp taken
    cases copied with
    | none =>
      obtain rfl := Option.some.inj taken
      exact sounds
    | some copied =>
      obtain ⟨regions, after⟩ := copied
      have free : dsoundAvailableBytesToWrite state.ring.device state.ring.playOffset =
        state.ring.device.dsoundBufferSize - state.ring.unplayed := tracked.available
      obtain ⟨fit, within, _⟩ := playCopies_bytes inside below sounds.small (by omega) (by omega)
        counted copies
      simp only at taken
      split at taken
      · obtain ⟨ring, moved, rfl⟩ := Option.map_eq_some_iff.mp taken
        exact sounds.wrote tracked (.play _) fit rfl rfl moved
      · obtain rfl := Option.some.inj taken
        have total : (regions.1 ++ regions.2).length = regions.1.length + regions.2.length :=
          List.length_append
        have seen := sounds.overwrites tracked (regions.1 ++ regions.2)
          (by rw [tracked.available]; omega) 0 (Nat.zero_le _)
        refine ⟨sounds.placed, sounds.small, ?_, ?_⟩
        · simp only [fit.copies inside sounds.length, RotatedRing.overwrite_length]
          exact sounds.length
        · rw [Nat.add_zero, List.take_zero, List.append_nil] at seen
          simp only [State.pending, fit.copies inside sounds.length]
          rw [seen]
          exact sounds.order
  | fillDrain locks bytes =>
    obtain ⟨ring, moved, rfl⟩ := Option.map_eq_some_iff.mp taken
    obtain ⟨fit, total⟩ := silence_fit inside below sounds.small
    exact sounds.wrote ⟨sounds.placed, finds⟩ (.fillDrain _ bytes) fit rfl total moved

end Steps

/-- A buffer with three bytes in a chunk. -/
def threeBytes : CacheBuffer where
  bufferSize := 12
  elemSize := 4
  totalBytesInBuffer := 3
  dataBuffer := ⟨3, [⟨3, ⟨4, [1, 2, 3], by decide⟩⟩], by decide⟩
  cacheBuffer := (BoundedQueue.vacant 3).fill (CacheBuffer.emptyChunk 4) 1
  cacheLastSize := 0
  dataLastSize := 0

/-- A track in a ring of four, then silence that goes past the end. -/
def pastTheEnd : List Turn :=
  [.play threeBytes true true, .advance 2, .fillDrain true 2, .advance 3]

end Mprt.DsoundMemory
