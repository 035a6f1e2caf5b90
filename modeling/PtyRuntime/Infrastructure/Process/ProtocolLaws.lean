import PtyRuntime.Infrastructure.Process.Protocol

/-! Framing over a byte stream that fragments at will. A frame and its 32 bytes
determine each other, so it is enough to follow the bytes: what is queued, in flight
and partly read is always the encoding of the frames not yet delivered. -/
namespace PtyRuntime.Guardian

namespace Kind

theorem decode_eq_ok {value : Nat} {kind : Kind} : decode value = .ok kind ↔ kind.code = value := by
  rw [code, ← codes.decode_eq]
  unfold decode
  cases codes.decode value <;> simp

theorem code_injective : Function.Injective code := by
  intro a b same
  have left := decode_eq_ok.mpr same
  have right := decode_eq_ok.mpr (rfl : b.code = b.code)
  exact Except.ok.inj (left.symm.trans right)

theorem code_lt (kind : Kind) : kind.code < 256 ^ 2 := by
  cases kind <;> decide

end Kind

namespace Frame

theorem ofInt_intOf {bytes : Bytes} (four : bytes.length = 4) :
    LittleEndian.bytesOfInt 4 (Int32.ofInt (LittleEndian.intOf bytes)).toInt = bytes := by
  have signed : LittleEndian.Signed bytes.length (LittleEndian.intOf bytes) :=
    LittleEndian.intOf_signed (by rintro rfl; cases four)
  rw [four, LittleEndian.Signed] at signed
  rw [Int32.toInt_ofInt_of_le (by omega) (by omega), ← four, LittleEndian.bytesOfInt_intOf]

theorem intOf_toInt (value : Int32) :
    Int32.ofInt (LittleEndian.intOf (LittleEndian.bytesOfInt 4 value.toInt)) = value := by
  have low := value.le_toInt
  have high := value.toInt_lt
  rw [LittleEndian.intOf_bytesOfInt (by constructor <;> omega), Int32.ofInt_toInt]

@[simp] theorem length_encode (f : Frame) : f.encode.length = FRAME_BYTES := by
  simp [encode, MAGIC, FRAME_BYTES]

/-- The five fields of a record, in order. -/
theorem slices {bytes : Bytes} (sized : bytes.length = FRAME_BYTES) :
    bytes = slice 0 4 bytes ++ (slice 4 6 bytes ++ (slice 6 8 bytes ++ (slice 8 16 bytes ++
      (slice 16 20 bytes ++ (slice 20 24 bytes ++ (slice 24 28 bytes ++ slice 28 32 bytes)))))) := by
  have cut (start stop : Nat) (order : start ≤ stop) :
      bytes.drop start = slice start stop bytes ++ bytes.drop stop := by
    have both := List.take_append_drop (stop - start) (bytes.drop start)
    rw [List.drop_drop, Nat.add_sub_cancel' order] at both
    exact both.symm
  have done : slice 28 32 bytes = bytes.drop 28 := by
    rw [cut 28 32 (by decide), List.drop_eq_nil_of_le (by rw [sized]; decide), List.append_nil]
  rw [done, ← cut 24 28 (by decide), ← cut 20 24 (by decide), ← cut 16 20 (by decide),
    ← cut 8 16 (by decide), ← cut 6 8 (by decide), ← cut 4 6 (by decide), ← cut 0 4 (by decide),
    List.drop_zero]

theorem length_slice {bytes : Bytes} {start stop : Nat} (sized : bytes.length = FRAME_BYTES)
    (within : stop ≤ FRAME_BYTES) : (slice start stop bytes).length = stop - start := by
  rw [slice, List.length_take, List.length_drop, sized]
  omega

theorem flatMap_values (values : Values) :
    (values.toList.flatMap fun value => LittleEndian.bytesOfInt 4 value.toInt) =
      LittleEndian.bytesOfInt 4 values.first.toInt ++ (LittleEndian.bytesOfInt 4 values.second.toInt ++
        (LittleEndian.bytesOfInt 4 values.third.toInt ++ LittleEndian.bytesOfInt 4 values.fourth.toInt)) := by
  obtain ⟨⟨list⟩, sized⟩ := values
  match list, sized with
  | [a, b, c, d], _ => simp [Values.first, Values.second, Values.third, Values.fourth]

/-- Exactly the encoding of a frame is decoded, and to that frame. -/
theorem decode_eq_ok {bytes : Bytes} {generation : UInt64} {f : Frame}
    (sized : bytes.length = FRAME_BYTES) :
    decode bytes generation = .ok f ↔ bytes = f.encode ∧ f.generation = generation := by
  constructor
  · intro decoded
    unfold decode at decoded
    split at decoded
    · cases decoded
    · rename_i header
      simp only [not_or, not_not] at header
      obtain ⟨magic, version, same⟩ := header
      split at decoded
      · cases decoded
      · rename_i kind read
        obtain rfl := Except.ok.inj decoded
        have code := Kind.decode_eq_ok.mp read
        constructor
        · have kinds := LittleEndian.bytesOf_natOf (slice 6 8 bytes)
          rw [length_slice sized (by decide)] at kinds
          rw [encode, flatMap_values, code, kinds, ← magic, ← version, ← same]
          simp only [Values.first, Values.second, Values.third, Values.fourth, Vector.getElem_ofFn]
          rw [ofInt_intOf (length_slice sized (by decide)),
            ofInt_intOf (length_slice sized (by decide)),
            ofInt_intOf (length_slice sized (by decide)),
            ofInt_intOf (length_slice sized (by decide))]
          exact slices sized
        · rfl
  · rintro ⟨rfl, rfl⟩
    have kind : Kind.decode (LittleEndian.natOf (slice 6 8 f.encode)) = .ok f.kind :=
      Kind.decode_eq_ok.mpr (LittleEndian.natOf_bytesOf f.kind.code_lt).symm
    unfold decode
    rw [if_neg, kind]
    · have values (index : Fin 4) : slice (16 + index * 4) (20 + index * 4) f.encode =
          LittleEndian.bytesOfInt 4 f.values[index].toInt := by
        rw [encode, flatMap_values]
        match index with
        | 0 | 1 | 2 | 3 => rfl
      simp only [values, intOf_toInt, Fin.getElem_fin, Vector.ofFn_getElem]
    · rintro (wrong | wrong | wrong) <;> exact wrong rfl

theorem encode_injective {f g : Frame} (same : f.encode = g.encode) : f = g := by
  have first := (decode_eq_ok f.length_encode).mpr ⟨rfl, rfl⟩
  have generation : slice 8 16 f.encode = slice 8 16 g.encode := by rw [same]
  have equal : f.generation.toNat = g.generation.toNat := by
    have read := congrArg LittleEndian.natOf generation
    change LittleEndian.natOf (LittleEndian.bytesOf 8 f.generation.toNat) =
      LittleEndian.natOf (LittleEndian.bytesOf 8 g.generation.toNat) at read
    rwa [LittleEndian.natOf_bytesOf f.generation.toNat_lt,
      LittleEndian.natOf_bytesOf g.generation.toNat_lt] at read
  have second := (decode_eq_ok g.length_encode).mpr ⟨rfl, (UInt64.toNat_inj.mp equal).symm⟩
  rw [same, second] at first
  exact (Except.ok.inj first).symm

end Frame

namespace Channel

/-- Bytes queued that the system has not taken. -/
def backlog (c : Channel) : Bytes := c.outgoing.flatten.drop c.sent

/-- Only the front record may be partly sent. -/
structure Queued (c : Channel) : Prop where
  records : ∀ record ∈ c.outgoing, record.length = FRAME_BYTES
  sent : c.sent < FRAME_BYTES
  idle : c.outgoing = [] → c.sent = 0
  within : c.outgoing.length ≤ QUEUE_RECORDS

theorem new_queued (generation : UInt64) : (new generation).Queued where
  records _ member := by cases member
  sent := (by decide : 0 < FRAME_BYTES)
  idle _ := rfl
  within := Nat.zero_le _

/-- Everything an enqueue can do: refuse, find the record still queued, or queue it. -/
theorem enqueue_cases (c : Channel) (frame : Frame) :
    (∃ error, c.enqueue frame = (.error error, c)) ∨
    (frame.encode ∈ c.outgoing ∧ c.enqueue frame = (.ok (), c)) ∨
    (frame.generation = c.generation ∧ frame.encode ∉ c.outgoing ∧
      c.outgoing.length ≠ QUEUE_RECORDS ∧
      c.enqueue frame = (.ok (), { c with outgoing := c.outgoing ++ [frame.encode] })) := by
  unfold enqueue
  by_cases foreign : frame.generation ≠ c.generation
  · exact .inl ⟨.invalidData, if_pos foreign⟩
  · by_cases queued : frame.encode ∈ c.outgoing
    · exact .inr (.inl ⟨queued, by rw [if_neg foreign, if_pos queued]⟩)
    · by_cases full : c.outgoing.length = QUEUE_RECORDS
      · exact .inl ⟨.wouldBlock, by rw [if_neg foreign, if_neg queued, if_pos full]⟩
      · exact .inr (.inr ⟨not_not.mp foreign, queued, full,
          by rw [if_neg foreign, if_neg queued, if_neg full]⟩)

namespace Queued

variable {c : Channel}

theorem sent_le (queued : c.Queued) : c.sent ≤ c.outgoing.flatten.length := by
  cases waiting : c.outgoing with
  | nil => rw [queued.idle waiting]; exact Nat.zero_le _
  | cons front rest =>
    have sized := queued.records front (by rw [waiting]; exact List.mem_cons_self)
    have partly := queued.sent
    rw [List.flatten_cons, List.length_append, sized]
    omega

theorem push (queued : c.Queued) {record : Bytes} (sized : record.length = FRAME_BYTES)
    (room : c.outgoing.length ≠ QUEUE_RECORDS) :
    ({ c with outgoing := c.outgoing ++ [record] } : Channel).Queued where
  records other member := by
    rcases List.mem_append.mp member with before | last
    · exact queued.records other before
    · rw [List.mem_singleton.mp last, sized]
  sent := queued.sent
  idle none := by simp at none
  within := by
    have bound := queued.within
    simp only [List.length_append, List.length_singleton]
    omega

theorem backlog_push (queued : c.Queued) (record : Bytes) :
    ({ c with outgoing := c.outgoing ++ [record] } : Channel).backlog = c.backlog ++ record := by
  simp only [backlog, List.flatten_append, List.flatten_singleton]
  exact List.drop_append_of_le_length queued.sent_le

theorem backlog_cons (queued : c.Queued) {front : Bytes} {rest : List Bytes}
    (waiting : c.outgoing = front :: rest) :
    c.backlog = front.drop c.sent ++ rest.flatten := by
  have sized := queued.records front (by rw [waiting]; exact List.mem_cons_self)
  rw [backlog, waiting, List.flatten_cons]
  exact List.drop_append_of_le_length (by rw [sized]; exact Nat.le_of_lt queued.sent)

theorem pop (queued : c.Queued) {front : Bytes} {rest : List Bytes}
    (waiting : c.outgoing = front :: rest) :
    ({ c with outgoing := rest, sent := 0 } : Channel).Queued where
  records other member := queued.records other (by rw [waiting]; exact List.mem_cons_of_mem _ member)
  sent := (by decide : 0 < FRAME_BYTES)
  idle _ := rfl
  within := by
    have bound := queued.within
    rw [waiting, List.length_cons] at bound
    exact Nat.le_of_succ_le bound

theorem advance (queued : c.Queued) {front : Bytes} {rest : List Bytes}
    (waiting : c.outgoing = front :: rest) {count : Nat} (within : c.sent + count < FRAME_BYTES) :
    ({ c with sent := c.sent + count } : Channel).Queued where
  records := queued.records
  sent := within
  idle none := by cases none.symm.trans waiting
  within := queued.within

/-- A flush moves bytes from the front of the backlog to the stream. -/
theorem flushLoop (queued : c.Queued) (attempts : Nat) (answers : List WriteAnswer) (taken : Bytes) :
    (Channel.flushLoop attempts answers c taken).2.1.Queued ∧
      (Channel.flushLoop attempts answers c taken).2.1.generation = c.generation ∧
      (Channel.flushLoop attempts answers c taken).2.2 ++
        (Channel.flushLoop attempts answers c taken).2.1.backlog = taken ++ c.backlog := by
  induction attempts generalizing answers c taken with
  | zero => exact ⟨queued, rfl, rfl⟩
  | succ attempts ih =>
    cases answers with
    | nil => exact ⟨queued, rfl, rfl⟩
    | cons answer answers =>
      unfold Channel.flushLoop
      cases waiting : c.outgoing with
      | nil => exact ⟨queued, rfl, rfl⟩
      | cons front rest =>
        have sized := queued.records front (by rw [waiting]; exact List.mem_cons_self)
        cases answer with
        | interrupted => exact ih queued answers taken
        | wouldBlock => exact ⟨queued, rfl, rfl⟩
        | failed => exact ⟨queued, rfl, rfl⟩
        | accepted offered =>
          dsimp only
          generalize counted : min offered (front.length - c.sent) = count
          have bound : c.sent + count ≤ FRAME_BYTES := by
            have partly := queued.sent
            omega
          split
          · exact ⟨queued, rfl, rfl⟩
          · have moved : (front.drop c.sent).take count ++ (front.drop (c.sent + count)) =
                front.drop c.sent := by
              rw [← List.drop_drop, List.take_append_drop]
            split
            · rename_i whole
              obtain ⟨after, generation, bytes⟩ := ih (queued.pop waiting) answers
                (taken ++ (front.drop c.sent).take count)
              rw [whole, List.drop_eq_nil_of_le (Nat.le_of_eq sized), List.append_nil] at moved
              have rest_eq : ({ c with outgoing := rest, sent := 0 } : Channel).backlog =
                rest.flatten := rfl
              have same : taken ++ (front.drop c.sent).take count ++ rest.flatten =
                  taken ++ c.backlog := by
                rw [queued.backlog_cons waiting, moved, List.append_assoc]
              exact ⟨after, generation, bytes.trans (rest_eq ▸ same)⟩
            · rename_i some
              have next := queued.advance waiting (Nat.lt_of_le_of_ne bound some)
              obtain ⟨after, generation, bytes⟩ := ih next answers
                (taken ++ (front.drop c.sent).take count)
              rw [next.backlog_cons waiting, List.append_assoc, ← List.append_assoc _ _ rest.flatten,
                moved] at bytes
              rw [queued.backlog_cons waiting, ← waiting]
              exact ⟨after, generation, bytes⟩

end Queued

/-- A flush takes whole records off the front of the queue. -/
theorem flushLoop_front (attempts : Nat) (answers : List WriteAnswer) (c : Channel) (taken : Bytes) :
    ∃ gone, c.outgoing = gone ++ (flushLoop attempts answers c taken).2.1.outgoing := by
  induction attempts generalizing answers c taken with
  | zero => exact ⟨[], rfl⟩
  | succ attempts ih =>
    cases answers with
    | nil => exact ⟨[], rfl⟩
    | cons answer answers =>
      unfold flushLoop
      cases waiting : c.outgoing with
      | nil => exact ⟨[], waiting.symm⟩
      | cons front rest =>
        cases answer with
        | interrupted =>
          obtain ⟨gone, split⟩ := ih answers c taken
          exact ⟨gone, waiting.symm.trans split⟩
        | wouldBlock => exact ⟨[], waiting.symm⟩
        | failed => exact ⟨[], waiting.symm⟩
        | accepted offered =>
          dsimp only
          split
          · exact ⟨[], waiting.symm⟩
          · split
            · obtain ⟨gone, split⟩ := ih answers { c with outgoing := rest, sent := 0 }
                (taken ++ (front.drop c.sent).take (min offered (front.length - c.sent)))
              exact ⟨front :: gone, congrArg (front :: ·) split⟩
            · obtain ⟨gone, split⟩ := ih answers
                { c with sent := c.sent + min offered (front.length - c.sent) }
                (taken ++ (front.drop c.sent).take (min offered (front.length - c.sent)))
              refine ⟨gone, ?_⟩
              rw [← waiting]
              exact split

/-- The part of the incoming record that is filled. -/
def partialRecord (c : Channel) : Bytes := c.incoming.take c.received

/-- Receiving leaves the sending side alone. -/
theorem receive_sends (c : Channel) (answer : ReadAnswer) :
    ∃ incoming received eof, (c.receive answer).2 = { c with incoming, received, eof } := by
  unfold receive finishReceive
  split
  · exact ⟨_, _, _, rfl⟩
  · split
    · dsimp only
      split <;> exact ⟨_, _, _, rfl⟩
    · dsimp only
      split <;> exact ⟨_, _, _, rfl⟩
    · dsimp only
      split <;> exact ⟨_, _, _, rfl⟩
    · exact ⟨_, _, _, rfl⟩
    · exact ⟨_, _, _, rfl⟩
    · exact ⟨_, _, _, rfl⟩

theorem receive_generation (c : Channel) (answer : ReadAnswer) :
    (c.receive answer).2.generation = c.generation := by
  obtain ⟨_, _, _, after⟩ := c.receive_sends answer
  rw [after]

/-- Without bytes a receive call changes at most the end-of-stream mark. -/
theorem receive_still (c : Channel) {answer : ReadAnswer}
    (still : c.eof = true ∨ ∀ bytes, answer = .data bytes → bytes = []) :
    ∃ result eof, c.receive answer = (result, { c with eof }) ∧ ∀ frame, result ≠ .ok (some frame) := by
  by_cases ended : c.eof = true
  · exact ⟨.ok none, c.eof, if_pos ended, by simp⟩
  · have finish : ∃ result eof, c.finishReceive = (result, { c with eof }) ∧
        ∀ frame, result ≠ .ok (some frame) := by
      unfold finishReceive
      dsimp only
      split
      · exact ⟨.ok none, true, rfl, by simp⟩
      · exact ⟨.error .invalidData, true, rfl, by simp⟩
    cases answer with
    | data bytes =>
      obtain rfl := still.resolve_left ended bytes rfl
      rw [receive, if_neg ended]
      exact finish
    | connectionReset =>
      unfold receive
      rw [if_neg ended]
      exact finish
    | interrupted => exact ⟨.ok none, c.eof, if_neg ended, by simp⟩
    | wouldBlock => exact ⟨.ok none, c.eof, if_neg ended, by simp⟩
    | failed => exact ⟨.error .other, c.eof, if_neg ended, by simp⟩

theorem receive_end (c : Channel) {answer : ReadAnswer} (live : c.eof = false)
    (final : answer = .data [] ∨ answer = .connectionReset) : (c.receive answer).2.eof = true := by
  have finish : c.finishReceive.2.eof = true := by
    unfold finishReceive
    dsimp only
    split <;> rfl
  unfold receive
  rw [live, if_neg Bool.false_ne_true]
  rcases final with rfl | rfl
  · exact finish
  · exact finish

/-- Only the end of the stream and a reset end the channel. -/
theorem receive_ends (c : Channel) {answer : ReadAnswer} (live : c.eof = false)
    (ended : (c.receive answer).2.eof = true) : answer = .data [] ∨ answer = .connectionReset := by
  have still_open : ¬c.eof = true := by simp [live]
  unfold receive at ended
  rw [if_neg still_open] at ended
  cases answer with
  | data bytes =>
    cases bytes with
    | nil => exact .inl rfl
    | cons byte rest =>
      dsimp only at ended
      split at ended
      · exact absurd ended still_open
      · exact absurd ended still_open
  | connectionReset => exact .inr rfl
  | interrupted => exact absurd ended still_open
  | wouldBlock => exact absurd ended still_open
  | failed => exact absurd ended still_open

/-- The call that meets the end of the stream tells a cut record from a clean end. -/
theorem receive_ended (c : Channel) {answer : ReadAnswer} (live : c.eof = false)
    (ended : (c.receive answer).2.eof = true) :
    (c.receive answer).1 = if c.received = 0 then .ok none else .error .invalidData := by
  have finish : c.finishReceive.1 = if c.received = 0 then .ok none else .error .invalidData := by
    unfold finishReceive
    dsimp only
    split <;> rfl
  have final := c.receive_ends live ended
  unfold receive
  rw [live, if_neg Bool.false_ne_true]
  rcases final with rfl | rfl
  · exact finish
  · exact finish

structure Reading (c : Channel) : Prop where
  buffer : c.incoming.length = FRAME_BYTES
  received : c.received < FRAME_BYTES

theorem new_reading (generation : UInt64) : (new generation).Reading where
  buffer := List.length_replicate
  received := (by decide : 0 < FRAME_BYTES)

namespace Reading

variable {c : Channel}

theorem fill (reading : c.Reading) {bytes : Bytes} (fits : c.received + bytes.length ≤ FRAME_BYTES) :
    (c.fill bytes).length = FRAME_BYTES ∧
      (c.fill bytes).take (c.received + bytes.length) = c.partialRecord ++ bytes := by
  have front : (c.incoming.take c.received).length = c.received := by
    rw [List.length_take, reading.buffer]
    exact Nat.min_eq_left (Nat.le_of_lt reading.received)
  have size : (c.incoming.take c.received ++ bytes).length = c.received + bytes.length := by
    rw [List.length_append, front]
  constructor
  · rw [Channel.fill, List.length_append, size, List.length_drop, reading.buffer]
    omega
  · rw [Channel.fill, ← size, List.take_left]
    rfl

/-- A read that leaves the record incomplete extends it. -/
theorem receive_part (reading : c.Reading) (live : c.eof = false) {bytes : Bytes} (some : bytes ≠ [])
    (fits : c.received + bytes.length < FRAME_BYTES) :
    (c.receive (.data bytes)).1 = .ok none ∧ (c.receive (.data bytes)).2.Reading ∧
      (c.receive (.data bytes)).2.partialRecord = c.partialRecord ++ bytes ∧
      (c.receive (.data bytes)).2.received = c.received + bytes.length := by
  obtain ⟨size, front⟩ := reading.fill (Nat.le_of_lt fits)
  obtain ⟨byte, rest, rfl⟩ := List.exists_cons_of_ne_nil some
  have answer : c.receive (.data (byte :: rest)) =
      (.ok none, { c with incoming := c.fill (byte :: rest),
                          received := c.received + (byte :: rest).length }) := by
    unfold receive
    rw [live, if_neg Bool.false_ne_true]
    exact if_neg (Nat.ne_of_lt fits)
  rw [answer]
  exact ⟨rfl, ⟨size, fits⟩, front, rfl⟩

/-- A read that completes the record decodes it and starts the next one. -/
theorem receive_whole (reading : c.Reading) (live : c.eof = false) {bytes : Bytes} (some : bytes ≠ [])
    (fits : c.received + bytes.length = FRAME_BYTES) :
    (c.receive (.data bytes)).1 =
        (Frame.decode (c.partialRecord ++ bytes) c.generation).map Option.some ∧
      (c.receive (.data bytes)).2.Reading ∧ (c.receive (.data bytes)).2.partialRecord = [] ∧
      (c.receive (.data bytes)).2.received = 0 := by
  obtain ⟨size, front⟩ := reading.fill (Nat.le_of_eq fits)
  rw [fits, List.take_of_length_le (Nat.le_of_eq size)] at front
  obtain ⟨byte, rest, rfl⟩ := List.exists_cons_of_ne_nil some
  have answer : c.receive (.data (byte :: rest)) =
      ((Frame.decode (c.partialRecord ++ byte :: rest) c.generation).map Option.some,
        { c with incoming := c.partialRecord ++ byte :: rest, received := 0 }) := by
    unfold receive
    rw [live, if_neg Bool.false_ne_true, ← front]
    exact if_pos fits
  rw [answer]
  exact ⟨rfl, ⟨front ▸ size, (by decide : 0 < FRAME_BYTES)⟩, rfl, rfl⟩

end Reading
end Channel
end PtyRuntime.Guardian
