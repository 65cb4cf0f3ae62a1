import Mprt.ByteOrder
import Mprt.OutputPluginApi

/-!
# The samples of a FLAC stream as bytes

The stream tells how many bits its samples have. `metadata_callback` announces a
width that is a whole number of bytes, and four bytes where it would be three;
`write_callback` writes the low bytes of each sample, with a zero byte before them
for samples of 24 bits.

So a sample fills the announced width when its bits are a whole number of bytes.
A sample of any other number of bits is written with its value as it is, and is too
small in the announced width.
-/

namespace Mprt

/-- The STREAMINFO block. -/
structure StreamInfo where
  totalSamples : Nat
  channels : Nat
  sampleRate : Nat
  bitsPerSample : Nat
deriving DecidableEq

/-- The details of a track that the callbacks of the FLAC library use, with the
buffers of its outputs. -/
structure FlacTrack where
  soundDetails : SoundDetails
  origBps : Int
  currentSamplesWritten : Int
  outputBufList : List CacheBuffer
deriving DecidableEq

namespace FlacTrack

def getBitCount (decoderBits : Nat) : Nat :=
  8 * (decoderBits / 8 + if decoderBits % 8 ≠ 0 then 1 else 0)

/-- `metadata_callback` for the STREAMINFO block. -/
def metadataCallback (track : FlacTrack) (info : StreamInfo) : FlacTrack :=
  let bits := getBitCount info.bitsPerSample
  { track with
    soundDetails := { track.soundDetails with
      ok := true
      totalSamples := info.totalSamples
      currentSamplesWrittenToSoundBuffer := 0
      channels := info.channels
      isFloat := false
      bps := if bits = 24 then 32 else bits
      sampleRate := info.sampleRate }
    origBps := info.bitsPerSample
    currentSamplesWritten := 0 }

/-- The bytes of `float_int32_bytes` for an integer. -/
def sampleBytes (ival : BitVec 32) : List UInt8 := ByteOrder.littleEndian 4 ival.toNat

/-- What `push_func_call` adds. -/
def pushFuncCall (sample : BitVec 32) (sampleSize : Nat) : List UInt8 :=
  (sampleBytes sample).take sampleSize

/-- What `push_func_call_24` adds; each integer is cut to a byte. -/
def pushFuncCall24 (sample : BitVec 32) : List UInt8 :=
  [0, UInt8.ofBitVec (sample.setWidth 8), UInt8.ofBitVec ((sample.sshiftRight 8).setWidth 8),
    UInt8.ofBitVec ((sample.sshiftRight 16).setWidth 8)]

/-- What `write_callback` adds for a sample. -/
def pushed (track : FlacTrack) (sample : BitVec 32) : List UInt8 :=
  if track.origBps = 24 then pushFuncCall24 sample
  else pushFuncCall sample (track.soundDetails.bps.tdiv 8).toNat

/-- The bytes of a sample have the announced width, and read back they are the
sample moved up to that width. -/
def FullScale (track : FlacTrack) (bitsPerSample : Nat) (sample : Int) : Prop :=
  8 * ((track.pushed (BitVec.ofInt 32 sample)).length : Int) = track.soundDetails.bps ∧
    ByteOrder.signed (track.pushed (BitVec.ofInt 32 sample)) =
      sample * 2 ^ (track.soundDetails.bps - bitsPerSample).toNat

instance (track : FlacTrack) (bitsPerSample : Nat) (sample : Int) :
    Decidable (FullScale track bitsPerSample sample) :=
  inferInstanceAs (Decidable (_ ∧ _))

/-- The bits in whole bytes. -/
theorem getBitCount_bounds (decoderBits : Nat) : ∃ width, getBitCount decoderBits = 8 * width ∧
    decoderBits ≤ 8 * width ∧ 8 * width < decoderBits + 8 := by
  refine ⟨_, rfl, ?_⟩
  split <;> omega

/-- The announced width of samples that do not have 24 bits: at most four bytes that
hold them, all of them exactly when their bits are a whole number of bytes. -/
theorem announced_width (track : FlacTrack) (info : StreamInfo)
    (most : info.bitsPerSample ≤ 32) (other : info.bitsPerSample ≠ 24) :
    ∃ width : Nat, width ≤ 4 ∧ (track.metadataCallback info).soundDetails.bps = 8 * width ∧
      info.bitsPerSample ≤ 8 * width ∧
      (info.bitsPerSample % 8 = 0 ↔ info.bitsPerSample = 8 * width) := by
  obtain ⟨width, bits, holds, least⟩ := getBitCount_bounds info.bitsPerSample
  simp only [metadataCallback, bits]
  by_cases three : width = 3
  · subst three
    exact ⟨4, Nat.le_refl 4, rfl, by omega, by omega⟩
  · refine ⟨width, by omega, ?_, holds, by omega⟩
    rw [if_neg (by omega)]
    push_cast
    rfl

/-- Without 24 bits the bytes are the low ones of the sample. -/
theorem pushed_low {track : FlacTrack} {info : StreamInfo} {width : Nat}
    (other : info.bitsPerSample ≠ 24) (fits : width ≤ 4)
    (announced : (track.metadataCallback info).soundDetails.bps = 8 * width)
    (sample : BitVec 32) : (track.metadataCallback info).pushed sample =
      ByteOrder.littleEndian width sample.toNat := by
  have notThree : ((track.metadataCallback info).origBps = 24) = False := by
    simp only [metadataCallback, eq_iff_iff, iff_false]
    exact_mod_cast other
  have bytes : ((8 : Int) * width).tdiv 8 = width := Int.mul_tdiv_cancel_left _ (by decide)
  rw [pushed, if_neg (by rw [notThree]; exact id), pushFuncCall, announced, bytes,
    Int.toNat_natCast, sampleBytes, ByteOrder.littleEndian_take 4 _ fits]

/-- The byte cut from a shifted sample is a digit of its bits. -/
theorem low_byte (sample : BitVec 32) (shift : Nat) (fits : shift + 8 ≤ 32) :
    (sample.sshiftRight shift).setWidth 8 = BitVec.ofNat 8 (sample.toNat / 2 ^ shift) := by
  apply BitVec.eq_of_getLsbD_eq
  intro index below
  have inside : shift + index < 32 := by omega
  have short : ¬ 32 ≤ index := by omega
  rw [BitVec.getLsbD_setWidth, BitVec.getLsbD_sshiftRight, BitVec.getLsbD_ofNat,
    Nat.testBit_div_two_pow, Nat.add_comm index shift]
  simp [below, inside, short, BitVec.getLsbD]

/-- With 24 bits the three low bytes of the sample follow a zero. -/
theorem pushed_shifted {track : FlacTrack} {info : StreamInfo}
    (three : info.bitsPerSample = 24) (sample : BitVec 32) :
    (track.metadataCallback info).pushed sample =
      0 :: ByteOrder.littleEndian 3 sample.toNat := by
  have same : (track.metadataCallback info).origBps = 24 := by
    simp only [metadataCallback]
    exact_mod_cast three
  have first := low_byte sample 0 (by decide)
  have second := low_byte sample 8 (by decide)
  have third := low_byte sample 16 (by decide)
  rw [BitVec.sshiftRight_zero, Nat.pow_zero, Nat.div_one] at first
  rw [pushed, if_pos same, pushFuncCall24, first, second, third]
  simp only [ByteOrder.littleEndian, Nat.div_div_eq_div_mul]
  rfl

/-- A sample agrees with its 32 bits modulo every width of at most four bytes. -/
theorem ofInt_agrees (sample : Int) (width : Nat) (fits : width ≤ 4) :
    ((BitVec.ofInt 32 sample).toNat : Int) % (256 ^ width : Nat) =
      sample % (256 ^ width : Nat) := by
  have divides : ((256 ^ width : Nat) : Int) ∣ ((2 ^ 32 : Nat) : Int) :=
    Int.natCast_dvd_natCast.mpr (Nat.pow_dvd_pow 256 fits)
  rw [BitVec.toNat_ofInt, Int.toNat_of_nonneg (Int.emod_nonneg _ (by decide))]
  exact Int.emod_emod_of_dvd sample divides

/-- The signed number of the bytes of a sample without 24 bits. -/
theorem signed_low {width : Nat} {bitsPerSample : Nat} {sample : Int} (fits : width ≤ 4)
    (holds : bitsPerSample ≤ 8 * width) (positive : 0 < bitsPerSample)
    (least : -(2 ^ (bitsPerSample - 1)) ≤ sample) (most : sample < 2 ^ (bitsPerSample - 1)) :
    ByteOrder.signed (ByteOrder.littleEndian width (BitVec.ofInt 32 sample).toNat) = sample := by
  have wide : (2 : Int) ^ (bitsPerSample - 1) * 2 ≤ ((256 ^ width : Nat) : Int) := by
    have grows : 2 ^ bitsPerSample ≤ 2 ^ (8 * width) := Nat.pow_le_pow_right (by decide) holds
    rw [Nat.pow_mul] at grows
    rw [← pow_succ, Nat.sub_add_cancel positive]
    exact_mod_cast grows
  exact ByteOrder.signed_littleEndian (ofInt_agrees sample width fits) (by omega) (by omega)

/-- Samples of 24 bits come out as 256 times their value. -/
theorem signed_shifted {sample : Int} (least : -(2 ^ 23) ≤ sample) (most : sample < 2 ^ 23) :
    ByteOrder.signed (0 :: ByteOrder.littleEndian 3 (BitVec.ofInt 32 sample).toNat) =
      sample * 2 ^ 8 := by
  have agrees := ofInt_agrees sample 3 (by decide)
  rw [← ByteOrder.littleEndian_shifted]
  exact ByteOrder.signed_littleEndian (by push_cast at agrees ⊢; omega) (by omega) (by omega)

/-- A number is itself moved up exactly when it is not moved or is zero. -/
theorem eq_moved_iff (sample : Int) (places : Nat) :
    sample = sample * 2 ^ places ↔ places = 0 ∨ sample = 0 := by
  constructor
  · intro same
    by_cases zero : sample = 0
    · exact Or.inr zero
    · have one : (2 : Int) ^ places = 1 :=
        mul_left_cancel₀ zero (by rw [← same, mul_one])
      refine Or.inl ?_
      by_contra moved
      have more : (1 : Int) < 2 ^ places := one_lt_pow₀ (by decide) moved
      omega
  · rintro (rfl | rfl)
    · rw [pow_zero, mul_one]
    · rw [zero_mul]

/-- A sample of between 4 and 32 bits fills the announced width exactly when its bits
are a whole number of bytes, or it is zero. -/
theorem full_scale_iff (track : FlacTrack) (info : StreamInfo) (sample : Int)
    (fewest : 4 ≤ info.bitsPerSample) (most : info.bitsPerSample ≤ 32)
    (least : -(2 ^ (info.bitsPerSample - 1)) ≤ sample)
    (greatest : sample < 2 ^ (info.bitsPerSample - 1)) :
    FullScale (track.metadataCallback info) info.bitsPerSample sample ↔
      info.bitsPerSample % 8 = 0 ∨ sample = 0 := by
  by_cases three : info.bitsPerSample = 24
  · have announced : (track.metadataCallback info).soundDetails.bps = 32 := by
      rw [metadataCallback, three]
      rfl
    have filled : FullScale (track.metadataCallback info) info.bitsPerSample sample := by
      rw [three] at least greatest ⊢
      rw [FullScale, pushed_shifted three, announced, signed_shifted least greatest]
      exact ⟨rfl, rfl⟩
    exact iff_of_true filled (Or.inl (by rw [three]))
  · obtain ⟨width, fits, announced, holds, whole⟩ := announced_width track info most three
    have bytes := pushed_low three fits announced (BitVec.ofInt 32 sample)
    have value := signed_low fits holds (by omega) least greatest
    have places : (8 * (width : Int) - info.bitsPerSample).toNat = 0 ↔
        info.bitsPerSample % 8 = 0 := by omega
    simp only [FullScale, bytes, announced, value, ByteOrder.littleEndian_length, true_and]
    rw [eq_moved_iff, places]

/-- The least sample of 16 bits of a fresh track. -/
theorem sixteen_bits_full_scale :
    FullScale ((FlacTrack.mk .default 0 0 []).metadataCallback ⟨4096, 2, 44100, 16⟩)
      16 (-32768) :=
  (full_scale_iff (FlacTrack.mk .default 0 0 []) ⟨4096, 2, 44100, 16⟩ (-32768) (by decide)
    (by decide) (by decide) (by decide)).mpr (Or.inl rfl)

/-- The details of a track whose stream has samples of 20 bits. -/
def twentyBits : FlacTrack :=
  (FlacTrack.mk .default 0 0 []).metadataCallback ⟨4096, 2, 44100, 20⟩

/-- The greatest sample of 20 bits is announced with 32 bits and written as it is, 4096
times too small. -/
theorem twenty_bits_too_quiet :
    twentyBits.soundDetails.bps = 32 ∧
      ByteOrder.signed (twentyBits.pushed (BitVec.ofInt 32 524287)) = 524287 ∧
      ¬ FullScale twentyBits 20 524287 := by
  decide

end FlacTrack

end Mprt
