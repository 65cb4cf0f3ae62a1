import Mprt.CacheBuffer

/-!
# Reading, discarding and peeking across chunks

`write_into_raw_buffer` copies bytes out of the front chunk of the data queue and
goes on with the next chunk while there is something left to copy; `discard_data_upto`
drops bytes in the same way. The two test differently for the end of a chunk, but
both take a number of bytes off the head of the queue: the chunks that they empty
go to the cache queue, and the next one loses its first bytes.

Without `remove_data` nothing is taken off. The front chunk is then copied again and
again, so that a peek shows what a read would return exactly when the bytes asked
for are there and repeat the front chunk, above all when they do not leave it.
-/

namespace Mprt.BulkRead

open CacheBuffer (queueBytes)

/-- No chunk is empty. -/
def Filled (chunks : List Chunk) : Prop := ∀ chunk ∈ chunks, chunk.second.items ≠ []

/-- A chunk all of whose bytes were taken, as it goes to the cache queue. -/
def emptied (chunk : Chunk) : Chunk := (chunk.eraseBegin chunk.second.size).clear

/-- The chunks that are emptied when a number of bytes is taken off the head, and
the chunks that stay. -/
def drained : List Chunk → Nat → List Chunk × List Chunk
  | [], _ => ([], [])
  | chunk :: rest, count =>
    if count < chunk.second.size then ([], chunk.eraseBegin count :: rest)
    else
      let further := drained rest (count - chunk.second.size)
      (emptied chunk :: further.1, further.2)

theorem drained_part {chunk : Chunk} (rest : List Chunk) {count : Nat}
    (part : count < chunk.second.size) :
    drained (chunk :: rest) count = ([], chunk.eraseBegin count :: rest) := by
  rw [drained, if_pos part]

theorem drained_whole {chunk : Chunk} (rest : List Chunk) {count : Nat}
    (whole : chunk.second.size ≤ count) : drained (chunk :: rest) count =
      (emptied chunk :: (drained rest (count - chunk.second.size)).1,
        (drained rest (count - chunk.second.size)).2) := by
  rw [drained, if_neg (Nat.not_lt.mpr whole)]

@[simp] theorem eraseBegin_zero (chunk : Chunk) : chunk.eraseBegin 0 = chunk := by
  simp [Chunk.eraseBegin, CircularBuffer.eraseBegin]

theorem Filled.size_pos {chunk : Chunk} {rest : List Chunk} (filled : Filled (chunk :: rest)) :
    0 < chunk.second.size :=
  List.length_pos_of_ne_nil (filled chunk List.mem_cons_self)

theorem Filled.tail {chunk : Chunk} {rest : List Chunk} (filled : Filled (chunk :: rest)) :
    Filled rest :=
  fun other member => filled other (List.mem_cons_of_mem chunk member)

/-- Taking nothing empties no chunk. -/
theorem drained_zero {chunks : List Chunk} (filled : Filled chunks) :
    drained chunks 0 = ([], chunks) := by
  cases chunks with
  | nil => rfl
  | cons chunk rest => rw [drained_part rest filled.size_pos, eraseBegin_zero]

/-- What stays are the bytes behind those taken. -/
theorem drained_bytes (chunks : List Chunk) (count : Nat) :
    queueBytes (drained chunks count).2 = (queueBytes chunks).drop count := by
  induction chunks generalizing count with
  | nil => simp [drained]
  | cons chunk rest inductionHypothesis =>
    by_cases part : count < chunk.second.size
    · rw [drained_part rest part, CacheBuffer.queueBytes_cons, CacheBuffer.queueBytes_cons,
        List.drop_append_of_le_length (Nat.le_of_lt part)]
      rfl
    · have whole := Nat.not_lt.mp part
      rw [drained_whole rest whole, inductionHypothesis, CacheBuffer.queueBytes_cons,
        List.drop_append, List.drop_eq_nil_of_le whole, List.nil_append]
      rfl

/-- No chunk that stays is empty. -/
theorem drained_filled {chunks : List Chunk} (filled : Filled chunks) (count : Nat) :
    Filled (drained chunks count).2 := by
  induction chunks generalizing count with
  | nil => exact filled
  | cons chunk rest inductionHypothesis =>
    by_cases part : count < chunk.second.size
    · rw [drained_part rest part]
      intro other member
      rcases List.mem_cons.mp member with rfl | later
      · exact fun vacant => absurd (List.drop_eq_nil_iff.mp vacant) (Nat.not_le.mpr part)
      · exact filled other (List.mem_cons_of_mem chunk later)
    · rw [drained_whole rest (Nat.not_lt.mp part)]
      exact inductionHypothesis filled.tail _

/-- The emptied chunks are the first ones, in their order. -/
theorem drained_emptied (chunks : List Chunk) (count : Nat) :
    ∃ first, first <+: chunks ∧ (drained chunks count).1 = first.map emptied ∧
      first.length + (drained chunks count).2.length = chunks.length := by
  induction chunks generalizing count with
  | nil => exact ⟨[], List.prefix_refl [], rfl, rfl⟩
  | cons chunk rest inductionHypothesis =>
    by_cases part : count < chunk.second.size
    · rw [drained_part rest part]
      exact ⟨[], List.nil_prefix, rfl, by simp⟩
    · rw [drained_whole rest (Nat.not_lt.mp part)]
      obtain ⟨first, isPrefix, maps, lengths⟩ := inductionHypothesis (count - chunk.second.size)
      refine ⟨chunk :: first, ?_, ?_, ?_⟩
      · obtain ⟨later, same⟩ := isPrefix
        exact ⟨later, by rw [List.cons_append, same]⟩
      · rw [List.map_cons, maps]
      · simp only [List.length_cons]
        omega

/-! ## One chunk -/

/-- The data queue keeps some chunks, the cache queue gets others while it has room
for all of both, and the counter falls by a number of bytes. -/
structure Takes (buffer : CacheBuffer) (moved kept : List Chunk) (count : Nat)
    (after : CacheBuffer) : Prop where
  data : after.dataBuffer.items = kept
  dataCapacity : after.dataBuffer.capacity = buffer.dataBuffer.capacity
  cache : buffer.dataBuffer.items.length + buffer.cacheBuffer.items.length ≤
    buffer.cacheBuffer.capacity →
      after.cacheBuffer.items = buffer.cacheBuffer.items ++ moved
  cacheCapacity : after.cacheBuffer.capacity = buffer.cacheBuffer.capacity
  counter : after.totalBytesInBuffer = buffer.totalBytesInBuffer - count

/-- A data pointer is to the front chunk, whose size is remembered. -/
theorem getDataPtr_cons {buffer : CacheBuffer} {chunk : Chunk} {rest : List Chunk}
    (front : buffer.dataBuffer.items = chunk :: rest) :
    buffer.getDataPtr = some (chunk, { buffer with dataLastSize := chunk.second.size }) := by
  have found := BoundedQueue.front_eq_some_iff.mpr ⟨rest, front⟩
  simp only [CacheBuffer.getDataPtr, CacheBuffer.getGenPtr, found, Option.map_some]

theorem getDataPtr_nil {buffer : CacheBuffer} (vacant : buffer.dataBuffer.items = []) :
    buffer.getDataPtr = none := by
  have missing := BoundedQueue.front_eq_none_iff.mpr vacant
  simp only [CacheBuffer.getDataPtr, CacheBuffer.getGenPtr, missing, Option.map_none]

/-- Bytes are taken off the front chunk, which is put back. -/
def takeFront (buffer : CacheBuffer) (chunk : Chunk) (count : Nat) : CacheBuffer :=
  (({ buffer with dataLastSize := chunk.second.size } : CacheBuffer).modifyData
    (·.eraseBegin count)).putDataPtr false

theorem dataBytes_cons {buffer : CacheBuffer} {chunk : Chunk} {rest : List Chunk}
    (front : buffer.dataBuffer.items = chunk :: rest) :
    buffer.dataBytes = chunk.second.items ++ queueBytes rest := by
  rw [CacheBuffer.dataBytes, front, CacheBuffer.queueBytes_cons]

theorem dataBytes_length_cons {buffer : CacheBuffer} {chunk : Chunk} {rest : List Chunk}
    (front : buffer.dataBuffer.items = chunk :: rest) :
    buffer.dataBytes.length = chunk.second.size + (queueBytes rest).length := by
  rw [dataBytes_cons front, List.length_append, CircularBuffer.size]

/-- The counter falls by the bytes that are taken. -/
theorem takeFront_counter {buffer : CacheBuffer} {chunk : Chunk} {rest : List Chunk}
    (front : buffer.dataBuffer.items = chunk :: rest) {count : Nat}
    (available : count ≤ chunk.second.size) :
    (takeFront buffer chunk count).totalBytesInBuffer = buffer.totalBytesInBuffer - count := by
  have erased : (({ buffer with dataLastSize := chunk.second.size } : CacheBuffer).modifyData
      (·.eraseBegin count)).dataBuffer.items = chunk.eraseBegin count :: rest :=
    BoundedQueue.modifyFront_cons front _
  rw [takeFront, CacheBuffer.putDataPtr_total erased]
  have shorter : (chunk.eraseBegin count).second.size = chunk.second.size - count :=
    List.length_drop
  simp only [CacheBuffer.modifyData, shorter]
  omega

/-- A chunk that keeps bytes stays where it is. -/
theorem takeFront_part {buffer : CacheBuffer} {chunk : Chunk} {rest : List Chunk}
    (front : buffer.dataBuffer.items = chunk :: rest) {count : Nat}
    (part : count < chunk.second.size) :
    Takes buffer [] (chunk.eraseBegin count :: rest) count (takeFront buffer chunk count) := by
  have counter := takeFront_counter front (Nat.le_of_lt part)
  have erased : (({ buffer with dataLastSize := chunk.second.size } : CacheBuffer).modifyData
      (·.eraseBegin count)).dataBuffer.items = chunk.eraseBegin count :: rest :=
    BoundedQueue.modifyFront_cons front _
  have stays : (chunk.eraseBegin count).second.empty = false := by
    rw [Bool.eq_false_iff]
    intro vacant
    exact Nat.not_le.mpr part (List.drop_eq_nil_iff.mp (CircularBuffer.empty_iff.mp vacant))
  have found := BoundedQueue.front_eq_some_iff.mpr ⟨rest, erased⟩
  have putBack : (takeFront buffer chunk count).dataBuffer =
        buffer.dataBuffer.modifyFront (·.eraseBegin count) ∧
      (takeFront buffer chunk count).cacheBuffer = buffer.cacheBuffer := by
    simp only [takeFront, CacheBuffer.putDataPtr, CacheBuffer.putGenPtr, CacheBuffer.putGenPtrSize,
      found, if_true, stays, Bool.or_false, Bool.false_eq_true, if_false]
    exact ⟨rfl, rfl⟩
  obtain ⟨data, cache⟩ := putBack
  constructor
  · rw [data, BoundedQueue.modifyFront_cons front]
  · rw [data, BoundedQueue.modifyFront_capacity]
  · intro _
    rw [cache, List.append_nil]
  · rw [cache]
  · exact counter

/-- A chunk that loses all its bytes goes to the cache queue. -/
theorem takeFront_whole {buffer : CacheBuffer} {chunk : Chunk} {rest : List Chunk}
    (front : buffer.dataBuffer.items = chunk :: rest) :
    Takes buffer [emptied chunk] rest chunk.second.size
      (takeFront buffer chunk chunk.second.size) := by
  have counter := takeFront_counter front (Nat.le_refl chunk.second.size)
  have erased : (({ buffer with dataLastSize := chunk.second.size } : CacheBuffer).modifyData
      (·.eraseBegin chunk.second.size)).dataBuffer.items =
        chunk.eraseBegin chunk.second.size :: rest :=
    BoundedQueue.modifyFront_cons front _
  have vacant : (chunk.eraseBegin chunk.second.size).second.items = [] := List.drop_length
  obtain ⟨remaining, read, items, capacity⟩ := BoundedQueue.read_cons erased
  have found := BoundedQueue.front_eq_some_iff.mpr ⟨rest, erased⟩
  have isEmpty := CircularBuffer.empty_iff.mpr vacant
  have putBack : (takeFront buffer chunk chunk.second.size).dataBuffer = remaining ∧
      (takeFront buffer chunk chunk.second.size).cacheBuffer =
        (buffer.cacheBuffer.write (emptied chunk)).2 := by
    simp only [takeFront, CacheBuffer.putDataPtr, CacheBuffer.putGenPtr, CacheBuffer.putGenPtrSize,
      found, if_true, isEmpty, Bool.true_or, CacheBuffer.rotateData, CacheBuffer.rotateDataRead,
      read, Option.map_some, CacheBuffer.rotateDataWrite]
    exact ⟨trivial, rfl⟩
  obtain ⟨data, cache⟩ := putBack
  constructor
  · rw [data, items]
  · rw [data, capacity]
    exact BoundedQueue.modifyFront_capacity _ _
  · intro room
    rw [front, List.length_cons] at room
    rw [cache, BoundedQueue.write_items (by omega)]
  · rw [cache, BoundedQueue.write_capacity]
  · exact counter

/-- What is left for the next call where the front chunk was used up. -/
theorem takeFront_left {buffer : CacheBuffer} {chunk : Chunk} {rest : List Chunk}
    (front : buffer.dataBuffer.items = chunk :: rest) (filled : Filled (chunk :: rest)) :
    (takeFront buffer chunk chunk.second.size).dataBytes = queueBytes rest ∧
      Filled (takeFront buffer chunk chunk.second.size).dataBuffer.items ∧
      (takeFront buffer chunk chunk.second.size).dataBuffer.items.length + 1 =
        (chunk :: rest).length := by
  have taken := takeFront_whole front
  rw [CacheBuffer.dataBytes, taken.data]
  exact ⟨rfl, filled.tail, rfl⟩

/-- Taking from one chunk and then from the others. -/
theorem Takes.trans {buffer middle after : CacheBuffer} {chunk : Chunk}
    {rest moved kept : List Chunk} {count further : Nat} (front : buffer.dataBuffer.items = chunk :: rest)
    (first : Takes buffer [emptied chunk] rest count middle)
    (second : Takes middle moved kept further after) :
    Takes buffer (emptied chunk :: moved) kept (count + further) after := by
  constructor
  · exact second.data
  · exact second.dataCapacity.trans first.dataCapacity
  · intro room
    have moved := first.cache room
    rw [second.cache, moved, List.append_assoc, List.singleton_append]
    rw [moved, first.data, first.cacheCapacity, List.length_append, List.length_singleton]
    rw [front, List.length_cons] at room
    omega
  · exact second.cacheCapacity.trans first.cacheCapacity
  · rw [second.counter, first.counter]
    push_cast
    omega

/-! ## Reading and discarding -/

/-- The front chunk holds more than what is asked for. -/
theorem enough_part {chunk : Chunk} {count : Nat} (part : count < chunk.second.size) :
    CacheBuffer.getCircBufEnough chunk count = (true, count) := by
  have below : (0 : Int) ≤ count ∧ (count : Int) < chunk.second.size := by omega
  rw [CacheBuffer.getCircBufEnough, if_pos below, Int.toNat_natCast]

/-- The front chunk is used up. -/
theorem enough_whole {chunk : Chunk} {count : Nat} (whole : chunk.second.size ≤ count) :
    CacheBuffer.getCircBufEnough chunk count = (false, chunk.second.size) := by
  have above : ¬ ((0 : Int) ≤ count ∧ (count : Int) < chunk.second.size) := by omega
  rw [CacheBuffer.getCircBufEnough, if_neg above]

/-- A call that does not use up the front chunk. -/
theorem write_part {buffer : CacheBuffer} {chunk : Chunk} {rest : List Chunk}
    (front : buffer.dataBuffer.items = chunk :: rest) {count : Nat}
    (part : count < chunk.second.size) (fuel : Nat) :
    CacheBuffer.writeIntoRawBufferLoop (fuel + 1) buffer count true =
      some (chunk.second.items.take count, takeFront buffer chunk count) := by
  simp only [CacheBuffer.writeIntoRawBufferLoop, getDataPtr_cons front, enough_part part, takeFront]
  simp

/-- A call that uses up the front chunk, and goes on while there is more to copy. -/
theorem write_whole {buffer : CacheBuffer} {chunk : Chunk} {rest : List Chunk}
    (front : buffer.dataBuffer.items = chunk :: rest) {count : Nat}
    (whole : chunk.second.size ≤ count) (fuel : Nat) :
    CacheBuffer.writeIntoRawBufferLoop (fuel + 1) buffer count true =
      if 0 < count - chunk.second.size then
        (CacheBuffer.writeIntoRawBufferLoop fuel (takeFront buffer chunk chunk.second.size)
          (count - chunk.second.size : Nat) true).map (fun following =>
            (chunk.second.items ++ following.1, following.2))
      else some (chunk.second.items, takeFront buffer chunk chunk.second.size) := by
  have left := (Int.ofNat_sub whole).symm
  have copied : chunk.second.items.take chunk.second.size = chunk.second.items := List.take_length
  simp only [CacheBuffer.writeIntoRawBufferLoop, getDataPtr_cons front, enough_whole whole, copied,
    left, if_true, takeFront]
  simp

/-- `write_into_raw_buffer` takes bytes off the head. The induction is on the fuel;
each call that goes on has one chunk less. -/
theorem write_takes {fuel : Nat} {buffer : CacheBuffer} (filled : Filled buffer.dataBuffer.items)
    (count : Nat) (enough : buffer.dataBuffer.items.length < fuel) :
    ∃ after, CacheBuffer.writeIntoRawBufferLoop fuel buffer count true =
        some (buffer.dataBytes.take count, after) ∧
      Takes buffer (drained buffer.dataBuffer.items count).1
        (drained buffer.dataBuffer.items count).2 (min count buffer.dataBytes.length) after := by
  induction fuel generalizing buffer count with
  | zero => omega
  | succ fuel inductionHypothesis =>
    cases front : buffer.dataBuffer.items with
    | nil =>
      have bytes : buffer.dataBytes = [] := by rw [CacheBuffer.dataBytes, front]; rfl
      refine ⟨buffer, ?_, ?_⟩
      · simp only [CacheBuffer.writeIntoRawBufferLoop, getDataPtr_nil front, bytes, List.take_nil]
      · rw [bytes]
        exact ⟨front, rfl, fun _ => (List.append_nil _).symm, rfl, by simp⟩
    | cons chunk rest =>
      rw [front] at filled enough
      have bytes := dataBytes_cons front
      have sizes := dataBytes_length_cons front
      by_cases part : count < chunk.second.size
      · have all : min count buffer.dataBytes.length = count := by omega
        rw [write_part front part, drained_part rest part, all, bytes,
          List.take_append_of_le_length (Nat.le_of_lt part)]
        exact ⟨_, rfl, takeFront_part front part⟩
      · have whole := Nat.not_lt.mp part
        have taken := takeFront_whole front
        have copied : buffer.dataBytes.take count =
            chunk.second.items ++ (queueBytes rest).take (count - chunk.second.size) := by
          rw [bytes, List.take_append, List.take_of_length_le whole]
          rfl
        rw [write_whole front whole, drained_whole rest whole, copied]
        by_cases goesOn : 0 < count - chunk.second.size
        · obtain ⟨remaining, stillFilled, fewer⟩ := takeFront_left front filled
          obtain ⟨after, written, further⟩ :=
            inductionHypothesis stillFilled (count - chunk.second.size) (by omega)
          rw [taken.data, remaining] at further
          have sum : min count buffer.dataBytes.length = chunk.second.size +
              min (count - chunk.second.size) (queueBytes rest).length := by omega
          rw [if_pos goesOn, written, remaining, sum]
          exact ⟨after, rfl, Takes.trans front taken further⟩
        · have exhausted : count - chunk.second.size = 0 := by omega
          have all : min count buffer.dataBytes.length = chunk.second.size := by omega
          rw [if_neg goesOn, all, exhausted, drained_zero filled.tail, List.take_zero,
            List.append_nil]
          exact ⟨_, rfl, taken⟩

/-- `discard_data_upto` takes as many bytes off the head as there are to discard. -/
theorem discard_takes {fuel : Nat} {buffer : CacheBuffer} (filled : Filled buffer.dataBuffer.items)
    {count : Nat} (available : count ≤ buffer.dataBytes.length)
    (enough : buffer.dataBuffer.items.length < fuel) :
    ∃ after, CacheBuffer.discardDataUptoLoop fuel buffer count = some after ∧
      Takes buffer (drained buffer.dataBuffer.items count).1
        (drained buffer.dataBuffer.items count).2 count after := by
  induction fuel generalizing buffer count with
  | zero => omega
  | succ fuel inductionHypothesis =>
    by_cases nothing : count = 0
    · subst nothing
      rw [drained_zero filled]
      exact ⟨buffer, by simp [CacheBuffer.discardDataUptoLoop], rfl, rfl,
        fun _ => (List.append_nil _).symm, rfl, by simp⟩
    have positive : ¬ ((count : Int) ≤ 0) := by omega
    cases front : buffer.dataBuffer.items with
    | nil =>
      rw [CacheBuffer.dataBytes, front, CacheBuffer.queueBytes_nil, List.length_nil] at available
      omega
    | cons chunk rest =>
      rw [front] at filled enough
      have sizes := dataBytes_length_cons front
      simp only [CacheBuffer.discardDataUptoLoop, if_neg positive, getDataPtr_cons front,
        Int.toNat_natCast]
      by_cases part : count < chunk.second.size
      · have taken := takeFront_part front part
        rw [drained_part rest part, Nat.min_eq_left (Nat.le_of_lt part), Int.sub_self]
        refine ⟨takeFront buffer chunk count, ?_, taken⟩
        cases fuel with
        | zero => simp at enough
        | succ fuel => simp [CacheBuffer.discardDataUptoLoop, takeFront]
      · have whole := Nat.not_lt.mp part
        have taken := takeFront_whole front
        have left := (Int.ofNat_sub whole).symm
        obtain ⟨remaining, stillFilled, fewer⟩ := takeFront_left front filled
        have stillThere : count - chunk.second.size ≤
            (takeFront buffer chunk chunk.second.size).dataBytes.length := by
          rw [remaining]
          omega
        obtain ⟨after, discarded, further⟩ := inductionHypothesis stillFilled stillThere (by omega)
        rw [taken.data] at further
        rw [drained_whole rest whole, Nat.min_eq_right whole, left]
        refine ⟨after, discarded, ?_⟩
        have joined := Takes.trans front taken further
        rwa [Nat.add_sub_cancel' whole] at joined

/-- Two queues with the same chunks and slots are the same. -/
theorem Takes.agree {buffer first second : CacheBuffer} {moved kept : List Chunk} {count : Nat}
    (room : buffer.dataBuffer.items.length + buffer.cacheBuffer.items.length ≤
      buffer.cacheBuffer.capacity)
    (one : Takes buffer moved kept count first) (other : Takes buffer moved kept count second) :
    second.dataBuffer = first.dataBuffer ∧ second.cacheBuffer = first.cacheBuffer ∧
      second.totalBytesInBuffer = first.totalBytesInBuffer := by
  refine ⟨?_, ?_, other.counter.trans one.counter.symm⟩
  · exact BoundedQueue.ext (other.dataCapacity.trans one.dataCapacity.symm)
      (other.data.trans one.data.symm)
  · exact BoundedQueue.ext (other.cacheCapacity.trans one.cacheCapacity.symm)
      ((other.cache room).trans (one.cache room).symm)

/-- From data chunks none of which is empty, with room in the cache queue for the
chunks of both queues, `write_into_raw_buffer` returns the first bytes, leaves the
others in filled chunks, and hands on every chunk that it empties; and
`discard_data_upto` of bytes that are there leaves the same queues and counter. -/
theorem write_equals_discard {buffer : CacheBuffer} (filled : Filled buffer.dataBuffer.items)
    (room : buffer.dataBuffer.items.length + buffer.cacheBuffer.items.length ≤
      buffer.cacheBuffer.capacity) (size : Nat) :
    ∃ bytes after, buffer.writeIntoRawBuffer size true = some (bytes, after) ∧
      bytes.length = min size buffer.dataBytes.length ∧ bytes = buffer.dataBytes.take size ∧
      after.dataBytes = buffer.dataBytes.drop size ∧ Filled after.dataBuffer.items ∧
      (∃ first, first <+: buffer.dataBuffer.items ∧
        first.length + after.dataBuffer.items.length = buffer.dataBuffer.items.length ∧
        after.cacheBuffer.items = buffer.cacheBuffer.items ++ first.map emptied) ∧
      (size ≤ buffer.dataBytes.length → ∃ discarded,
        buffer.discardDataUpto size = some discarded ∧
          discarded.dataBuffer = after.dataBuffer ∧ discarded.cacheBuffer = after.cacheBuffer ∧
          discarded.totalBytesInBuffer = after.totalBytesInBuffer) := by
  have enough : buffer.dataBuffer.items.length <
      buffer.dataBuffer.items.length + (size : Int).toNat + 1 := by omega
  obtain ⟨after, written, taken⟩ := write_takes filled size enough
  obtain ⟨first, isPrefix, maps, lengths⟩ := drained_emptied buffer.dataBuffer.items size
  refine ⟨_, after, written, List.length_take, rfl, ?_, ?_, ⟨first, isPrefix, ?_, ?_⟩, ?_⟩
  · rw [CacheBuffer.dataBytes, taken.data, drained_bytes, CacheBuffer.dataBytes]
  · rw [taken.data]
    exact drained_filled filled size
  · rw [taken.data, lengths]
  · rw [taken.cache room, maps]
  · intro available
    obtain ⟨discarded, ran, dropped⟩ := discard_takes filled available
      (Nat.lt_succ_self buffer.dataBuffer.items.length)
    rw [Nat.min_eq_left available] at taken
    exact ⟨discarded, ran, taken.agree room dropped⟩

/-- A buffer of three chunks, of which two hold two and three bytes. -/
def twoChunks : CacheBuffer where
  bufferSize := 12
  elemSize := 4
  totalBytesInBuffer := 5
  dataBuffer := ⟨3, [⟨2, ⟨4, [1, 2], by decide⟩⟩, ⟨5, ⟨4, [3, 4, 5], by decide⟩⟩], by decide⟩
  cacheBuffer := ⟨3, [CacheBuffer.emptyChunk 4], by decide⟩
  cacheLastSize := 0
  dataLastSize := 0

/-- Four bytes empty the first chunk and take two bytes off the second. -/
theorem four_bytes_written_and_discarded :
    ∃ bytes after discarded, twoChunks.writeIntoRawBuffer 4 true = some (bytes, after) ∧
      bytes = [1, 2, 3, 4] ∧ after.dataBytes = [5] ∧
      twoChunks.discardDataUpto 4 = some discarded ∧ discarded.dataBuffer = after.dataBuffer := by
  have filled : Filled twoChunks.dataBuffer.items := by
    unfold Filled
    decide
  obtain ⟨bytes, after, written, _, taken, left, _, _, discards⟩ :=
    write_equals_discard filled (by decide) 4
  obtain ⟨discarded, ran, same, _⟩ := discards (by decide)
  exact ⟨bytes, after, discarded, written, taken, left, ran, same⟩

/-! ## Peeking -/

/-- A peek shows the bytes of a read, as many and the same, and leaves the queues
and the counter. -/
def PeekAgrees (buffer : CacheBuffer) (size : Nat) : Prop :=
  ∃ bytes removed after, buffer.writeIntoRawBuffer size true = some (bytes, removed) ∧
    buffer.writeIntoRawBuffer size false = some (bytes, after) ∧
    after.dataBuffer = buffer.dataBuffer ∧ after.cacheBuffer = buffer.cacheBuffer ∧
    after.totalBytesInBuffer = buffer.totalBytesInBuffer

/-- The bytes asked for are all there, and repeat the front chunk; there is no such
condition on an empty queue. -/
def RepeatsFront (buffer : CacheBuffer) (size : Nat) : Prop :=
  ∀ chunk ∈ buffer.dataBuffer.items.head?, ∀ index < size,
    buffer.dataBytes[index]? = chunk.second.items[index % chunk.second.size]?

/-- The same chunks and the same counter. -/
structure Looks (buffer after : CacheBuffer) : Prop where
  data : after.dataBuffer = buffer.dataBuffer
  cache : after.cacheBuffer = buffer.cacheBuffer
  counter : after.totalBytesInBuffer = buffer.totalBytesInBuffer

/-- The front chunk is put back as it was. -/
def lookFront (buffer : CacheBuffer) (chunk : Chunk) : CacheBuffer :=
  ({ buffer with dataLastSize := chunk.second.size } : CacheBuffer).putDataPtr false

theorem lookFront_looks {buffer : CacheBuffer} {chunk : Chunk} {rest : List Chunk}
    (front : buffer.dataBuffer.items = chunk :: rest) (filled : chunk.second.items ≠ []) :
    Looks buffer (lookFront buffer chunk) := by
  have found := BoundedQueue.front_eq_some_iff.mpr ⟨rest, front⟩
  have stays : chunk.second.empty = false := by
    rw [Bool.eq_false_iff]
    exact fun vacant => filled (CircularBuffer.empty_iff.mp vacant)
  constructor
  · simp [lookFront, CacheBuffer.putDataPtr, CacheBuffer.putGenPtr, CacheBuffer.putGenPtrSize, found,
      stays]
  · simp [lookFront, CacheBuffer.putDataPtr, CacheBuffer.putGenPtr, CacheBuffer.putGenPtrSize, found,
      stays]
  · let held : CacheBuffer := { buffer with dataLastSize := chunk.second.size }
    have heldFront : held.dataBuffer.items = chunk :: rest := front
    have counter := CacheBuffer.putDataPtr_total heldFront false
    simpa [lookFront, held] using counter

/-- A peek copies the front chunk over and over. The induction is on the fuel; each
call that goes on has the bytes of one chunk less to copy. -/
theorem peek_repeats {fuel : Nat} {buffer : CacheBuffer} {chunk : Chunk} {rest : List Chunk}
    (front : buffer.dataBuffer.items = chunk :: rest) (filled : chunk.second.items ≠ [])
    {count : Nat} (enough : count < fuel) :
    ∃ bytes after,
      CacheBuffer.writeIntoRawBufferLoop fuel buffer count false = some (bytes, after) ∧
        bytes.length = count ∧ Looks buffer after ∧
        ∀ index < count, bytes[index]? = chunk.second.items[index % chunk.second.size]? := by
  have positive : 0 < chunk.second.size := List.length_pos_of_ne_nil filled
  induction fuel generalizing buffer count with
  | zero => omega
  | succ fuel inductionHypothesis =>
    have looked := lookFront_looks front filled
    by_cases part : count < chunk.second.size
    · refine ⟨chunk.second.items.take count, lookFront buffer chunk, ?_, ?_, looked, ?_⟩
      · simp only [CacheBuffer.writeIntoRawBufferLoop, getDataPtr_cons front, enough_part part,
          lookFront]
        simp
      · exact List.length_take_of_le (Nat.le_of_lt part)
      · intro index below
        rw [List.getElem?_take_of_lt below, Nat.mod_eq_of_lt (Nat.lt_trans below part)]
    · have whole := Nat.not_lt.mp part
      have left := (Int.ofNat_sub whole).symm
      have copied : chunk.second.items.take chunk.second.size = chunk.second.items :=
        List.take_length
      have length : chunk.second.items.length = chunk.second.size := rfl
      have stillFront : (lookFront buffer chunk).dataBuffer.items = chunk :: rest := by
        rw [looked.data, front]
      have fewer : count - chunk.second.size < fuel := by omega
      obtain ⟨bytes, after, peeked, lengths, further, shown⟩ :=
        inductionHypothesis stillFront fewer
      by_cases goesOn : 0 < count - chunk.second.size
      · refine ⟨chunk.second.items ++ bytes, after, ?_, ?_, ?_, ?_⟩
        · simp only [CacheBuffer.writeIntoRawBufferLoop, getDataPtr_cons front, enough_whole whole,
            copied, left]
          rw [if_pos ⟨by simp, by exact_mod_cast goesOn⟩]
          simp only [Bool.false_eq_true, if_false]
          rw [lookFront] at peeked
          rw [peeked]
          rfl
        · rw [List.length_append, lengths, length]
          omega
        · exact ⟨further.data.trans looked.data, further.cache.trans looked.cache,
            further.counter.trans looked.counter⟩
        · intro index below
          by_cases early : index < chunk.second.size
          · rw [List.getElem?_append_left early, Nat.mod_eq_of_lt early]
          · have late := Nat.not_lt.mp early
            rw [List.getElem?_append_right late, length, shown _ (by omega),
              ← Nat.mod_eq_sub_mod late]
      · refine ⟨chunk.second.items, lookFront buffer chunk, ?_, ?_, looked, ?_⟩
        · simp only [CacheBuffer.writeIntoRawBufferLoop, getDataPtr_cons front, enough_whole whole,
            copied, left]
          rw [if_neg (fun both => goesOn (by exact_mod_cast both.2))]
          rfl
        · omega
        · intro index below
          rw [Nat.mod_eq_of_lt (by omega)]

/-- From data chunks none of which is empty, a peek agrees with a read exactly when
the queue is empty or the bytes asked for repeat the front chunk. -/
theorem peek_agrees_iff {buffer : CacheBuffer} (filled : Filled buffer.dataBuffer.items)
    (size : Nat) : PeekAgrees buffer size ↔ RepeatsFront buffer size := by
  have enough : buffer.dataBuffer.items.length <
      buffer.dataBuffer.items.length + (size : Int).toNat + 1 := by omega
  obtain ⟨removed, written, _⟩ := write_takes filled size enough
  cases front : buffer.dataBuffer.items with
  | nil =>
    have bytes : buffer.dataBytes = [] := by rw [CacheBuffer.dataBytes, front]; rfl
    apply iff_of_true
    · refine ⟨_, removed, buffer, written, ?_, rfl, rfl, rfl⟩
      rw [bytes, List.take_nil]
      simp only [CacheBuffer.writeIntoRawBuffer, CacheBuffer.writeIntoRawBufferLoop,
        getDataPtr_nil front]
    · intro chunk isFront
      rw [front] at isFront
      cases isFront
  | cons chunk rest =>
    rw [front] at filled
    have more : size < buffer.dataBuffer.items.length + (size : Int).toNat + 1 := by omega
    obtain ⟨bytes, after, peeked, length, looked, shown⟩ :=
      peek_repeats front (filled chunk List.mem_cons_self) more
    constructor
    · rintro ⟨same, _, _, read, shows, _⟩ head isFront index below
      rw [front] at isFront
      obtain rfl := Option.some.inj isFront
      have readBytes := (Prod.mk.inj (Option.some.inj (written.symm.trans read))).1
      have peekBytes := (Prod.mk.inj (Option.some.inj (peeked.symm.trans shows))).1
      rw [← shown index below, peekBytes, ← readBytes, List.getElem?_take_of_lt below]
    · intro repeats
      have agree : bytes = buffer.dataBytes.take size := by
        apply List.ext_getElem?
        intro index
        by_cases below : index < size
        · rw [List.getElem?_take_of_lt below, shown index below]
          exact (repeats chunk (by rw [front]; rfl) index below).symm
        · rw [List.getElem?_eq_none (by omega), List.getElem?_take_eq_none (by omega)]
      exact ⟨_, removed, after, written, by rw [← agree]; exact peeked, looked.data, looked.cache,
        looked.counter⟩

/-- A peek at one byte of the front chunk. -/
theorem peek_agrees_one : PeekAgrees twoChunks 1 := by
  have filled : Filled twoChunks.dataBuffer.items := by
    unfold Filled
    decide
  refine (peek_agrees_iff filled 1).mpr ?_
  unfold RepeatsFront
  decide

/-- A peek at three bytes shows the first byte of the front chunk again. -/
theorem peek_repeats_front :
    (twoChunks.writeIntoRawBuffer 3 true).map Prod.fst = some [1, 2, 3] ∧
      (twoChunks.writeIntoRawBuffer 3 false).map Prod.fst = some [1, 2, 1] ∧
      ¬ PeekAgrees twoChunks 3 := by
  refine ⟨by decide, by decide, ?_⟩
  rintro ⟨bytes, removed, after, read, peeked, _⟩
  have readBytes := congrArg (Option.map Prod.fst) read
  have peekBytes := congrArg (Option.map Prod.fst) peeked
  exact absurd (readBytes.trans peekBytes.symm) (by decide)

end Mprt.BulkRead
