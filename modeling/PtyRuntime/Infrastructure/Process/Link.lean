import PtyRuntime.Infrastructure.Process.ProtocolLaws

/-! Two channels joined by a byte stream: one end queues and flushes frames, the other
receives them, and the stream takes and gives any part of what it is offered. -/
namespace PtyRuntime.Guardian

/-- What the stream does when the receiving end reads. A count is cut to the bytes in
flight and to the free part of the record. -/
inductive Arrival where
  | data (count : Nat)
  | endOfStream
  | connectionReset
  | interrupted
  | wouldBlock
  | failed
  deriving DecidableEq, Repr

inductive Call where
  | enqueue (frame : Frame)
  | flush (answers : List WriteAnswer)
  | receive (arrival : Arrival)
  deriving DecidableEq, Repr

/-- Both ends, the bytes in flight, the frames queued and received so far, and the
number of bytes read. -/
structure Link where
  sender : Channel
  receiver : Channel
  stream : Bytes
  accepted : List Frame
  received : List Frame
  consumed : Nat
  deriving DecidableEq, Repr

namespace Link

def new (sending receiving : UInt64) : Link :=
  { sender := .new sending, receiver := .new receiving, stream := [], accepted := [], received := [],
    consumed := 0 }

def enqueue (l : Link) (frame : Frame) : Except IoError Unit × Link :=
  let (result, sender) := l.sender.enqueue frame
  let queued := l.sender.outgoing.length < sender.outgoing.length
  (result, { l with sender, accepted := if queued then l.accepted ++ [frame] else l.accepted })

def flush (l : Link) (answers : List WriteAnswer) : Except IoError Unit × Link :=
  let (result, sender, taken) := l.sender.flush answers
  (result, { l with sender, stream := l.stream ++ taken })

/-- The bytes that a read is given. -/
def arriving (l : Link) (offered : Nat) : Bytes :=
  l.stream.take (min offered (FRAME_BYTES - l.receiver.received))

def answer (l : Link) : Arrival → ReadAnswer
  | .data offered => if l.arriving offered = [] then .wouldBlock else .data (l.arriving offered)
  | .endOfStream => .data []
  | .connectionReset => .connectionReset
  | .interrupted => .interrupted
  | .wouldBlock => .wouldBlock
  | .failed => .failed

/-- How many bytes a receive call takes off the stream. -/
def count (l : Link) : Arrival → Nat
  | .data offered => if l.receiver.eof then 0 else (l.arriving offered).length
  | _ => 0

def receive (l : Link) (arrival : Arrival) : Except IoError (Option Frame) × Link :=
  let (result, receiver) := l.receiver.receive (l.answer arrival)
  let frames :=
    match result with
    | .ok (some frame) => [frame]
    | _ => []
  (result,
    { l with
      receiver
      stream := l.stream.drop (l.count arrival)
      received := l.received ++ frames
      consumed := l.consumed + l.count arrival })

def step (l : Link) : Call → Link
  | .enqueue frame => (l.enqueue frame).2
  | .flush answers => (l.flush answers).2
  | .receive arrival => (l.receive arrival).2

def run (l : Link) (calls : List Call) : Link := calls.foldl step l

/-- The frames that are queued, in flight or partly read, oldest first, after those
that were read whole. Only a receiver of the same generation accepts them. -/
structure Framed (l : Link) (done rest : List Frame) : Prop where
  accepted : l.accepted = done ++ rest
  received : l.received = if l.receiver.generation = l.sender.generation then done else []
  bytes : l.receiver.partialRecord ++ (l.stream ++ l.sender.backlog) = (rest.map Frame.encode).flatten
  generation : ∀ frame ∈ rest, frame.generation = l.sender.generation
  queued : l.sender.Queued
  reading : l.receiver.Reading
  consumed : l.consumed = FRAME_BYTES * done.length + l.receiver.received

variable {l : Link} {done rest : List Frame}

theorem new_framed (sending receiving : UInt64) : (new sending receiving).Framed [] [] where
  accepted := rfl
  received := by split <;> rfl
  bytes := rfl
  generation _ member := by cases member
  queued := Channel.new_queued sending
  reading := Channel.new_reading receiving
  consumed := rfl

namespace Framed

theorem enqueue (framed : l.Framed done rest) (frame : Frame) :
    ∃ rest, (l.enqueue frame).2.Framed done rest := by
  rcases l.sender.enqueue_cases frame with ⟨error, same⟩ | ⟨-, same⟩ | ⟨own, -, room, same⟩
  · refine ⟨rest, ?_⟩
    simp only [Link.enqueue, same, Nat.lt_irrefl, if_false]
    exact framed
  · refine ⟨rest, ?_⟩
    simp only [Link.enqueue, same, Nat.lt_irrefl, if_false]
    exact framed
  · refine ⟨rest ++ [frame], ?_⟩
    have grew : l.sender.outgoing.length < (l.sender.outgoing ++ [frame.encode]).length := by simp
    simp only [Link.enqueue, same, if_pos grew]
    exact {
      accepted := by rw [framed.accepted, List.append_assoc]
      received := framed.received
      bytes := by
        rw [framed.queued.backlog_push, List.map_append, List.flatten_append, ← framed.bytes]
        simp only [List.map_cons, List.map_nil, List.flatten_singleton, List.append_assoc]
      generation := fun other member => by
        rcases List.mem_append.mp member with before | last
        · exact framed.generation other before
        · rw [List.mem_singleton.mp last, own]
      queued := framed.queued.push frame.length_encode room
      reading := framed.reading
      consumed := framed.consumed }

theorem flush (framed : l.Framed done rest) (answers : List WriteAnswer) :
    (l.flush answers).2.Framed done rest := by
  obtain ⟨queued, generation, moved⟩ := framed.queued.flushLoop QUEUE_RECORDS answers []
  rw [List.nil_append] at moved
  exact {
    accepted := framed.accepted
    received := by
      change l.received = if l.receiver.generation = (l.sender.flush answers).2.1.generation then _ else _
      rw [framed.received, show (l.sender.flush answers).2.1.generation = _ from generation]
    bytes := by
      rw [← framed.bytes, ← moved]
      simp only [Link.flush, Channel.flush, List.append_assoc]
    generation := fun frame member => (framed.generation frame member).trans generation.symm
    queued := queued
    reading := framed.reading
    consumed := framed.consumed }

/-- The receive calls that take no bytes change at most the end-of-stream mark. -/
theorem receive_still (framed : l.Framed done rest) {arrival : Arrival}
    (still : l.receiver.eof = true ∨ ∀ bytes, l.answer arrival = .data bytes → bytes = []) :
    (l.receive arrival).2.Framed done rest := by
  obtain ⟨result, eof, answered, frameless⟩ := l.receiver.receive_still still
  have none : l.count arrival = 0 := by
    cases arrival with
    | data offered =>
      simp only [Link.count]
      split
      · rfl
      · rename_i live
        rw [List.length_eq_zero_iff]
        by_contra some
        exact some (still.resolve_left live _ (if_neg some))
    | _ => rfl
  have same : (l.receive arrival).2 = { l with receiver := { l.receiver with eof } } := by
    unfold Link.receive
    rw [answered, none]
    dsimp only
    split
    · rename_i frame
      exact absurd rfl (frameless frame)
    · rw [List.append_nil, List.drop_zero, Nat.add_zero]
  rw [same]
  exact ⟨framed.accepted, framed.received, framed.bytes, framed.generation, framed.queued,
    ⟨framed.reading.buffer, framed.reading.received⟩, framed.consumed⟩

theorem arriving_append (l : Link) (offered : Nat) :
    l.arriving offered ++ l.stream.drop (l.arriving offered).length = l.stream := by
  rw [arriving, List.length_take]
  rcases Nat.le_total (min offered (FRAME_BYTES - l.receiver.received)) l.stream.length with
    fits | short
  · rw [Nat.min_eq_left fits, List.take_append_drop]
  · rw [Nat.min_eq_right short, List.drop_length, List.append_nil, List.take_of_length_le short]

theorem length_arriving (framed : l.Framed done rest) (offered : Nat) :
    l.receiver.received + (l.arriving offered).length ≤ FRAME_BYTES := by
  have room := framed.reading.received
  rw [arriving, List.length_take]
  omega

/-- A read that stops short of the record's end only moves bytes. -/
theorem receive_part (framed : l.Framed done rest) (live : l.receiver.eof = false) {offered : Nat}
    (some : l.arriving offered ≠ [])
    (short : l.receiver.received + (l.arriving offered).length < FRAME_BYTES) :
    (l.receive (.data offered)).1 = .ok none ∧ (l.receive (.data offered)).2.Framed done rest := by
  obtain ⟨result, reading, record, count⟩ := framed.reading.receive_part live some short
  have generation : (l.receiver.receive (.data (l.arriving offered))).2.generation =
      l.receiver.generation := Channel.receive_generation _ _
  have answer : l.answer (.data offered) = .data (l.arriving offered) := if_neg some
  have taken : l.count (.data offered) = (l.arriving offered).length := by simp [Link.count, live]
  constructor
  · change (l.receiver.receive (l.answer (.data offered))).1 = _
    rw [answer, result]
  · have next : (l.receive (.data offered)).2 = { l with
        receiver := (l.receiver.receive (.data (l.arriving offered))).2
        stream := l.stream.drop (l.arriving offered).length
        consumed := l.consumed + (l.arriving offered).length } := by
      unfold Link.receive
      rw [answer, taken, ← Prod.mk.eta (p := l.receiver.receive _), result]
      simp only [List.append_nil]
    rw [next]
    exact {
      accepted := framed.accepted
      received := by rw [generation]; exact framed.received
      bytes := by
        rw [record, ← framed.bytes]
        simp only [List.append_assoc]
        rw [← List.append_assoc (l.arriving offered), arriving_append]
      generation := framed.generation
      queued := framed.queued
      reading := reading
      consumed := by rw [count, framed.consumed, Nat.add_assoc] }

/-- A read that completes the record hands over the oldest frame not yet delivered. -/
theorem receive_whole (framed : l.Framed done rest) (live : l.receiver.eof = false) {offered : Nat}
    (some : l.arriving offered ≠ [])
    (full : l.receiver.received + (l.arriving offered).length = FRAME_BYTES) :
    ∃ frame later, rest = frame :: later ∧
      (l.receive (.data offered)).2.Framed (done ++ [frame]) later ∧
      (l.receiver.generation = l.sender.generation →
        (l.receive (.data offered)).1 = .ok (Option.some frame)) := by
  obtain ⟨result, reading, record, count⟩ := framed.reading.receive_whole live some full
  have generation : (l.receiver.receive (.data (l.arriving offered))).2.generation =
      l.receiver.generation := Channel.receive_generation _ _
  have answer : l.answer (.data offered) = .data (l.arriving offered) := if_neg some
  have taken : l.count (.data offered) = (l.arriving offered).length := by simp [Link.count, live]
  have whole : (l.receiver.partialRecord ++ l.arriving offered) ++
      (l.stream.drop (l.arriving offered).length ++ l.sender.backlog) =
        (rest.map Frame.encode).flatten := by
    rw [← framed.bytes]
    simp only [List.append_assoc]
    rw [← List.append_assoc (l.arriving offered), arriving_append]
  have size : (l.receiver.partialRecord ++ l.arriving offered).length = FRAME_BYTES := by
    have front : l.receiver.partialRecord.length = l.receiver.received := by
      rw [Channel.partialRecord, List.length_take, framed.reading.buffer]
      exact Nat.min_eq_left (Nat.le_of_lt framed.reading.received)
    rw [List.length_append, front, full]
  cases waiting : rest with
  | nil =>
    rw [waiting] at whole
    have none := (List.append_eq_nil_iff.mp (List.append_eq_nil_iff.mp whole).1).2
    exact absurd none some
  | cons frame later =>
    rw [waiting, List.map_cons, List.flatten_cons] at whole
    obtain ⟨bytes, tail⟩ := List.append_inj whole (size.trans frame.length_encode.symm)
    have own := framed.generation frame (by rw [waiting]; exact List.mem_cons_self)
    rw [bytes] at result
    refine ⟨frame, later, rfl, ?_, ?_⟩
    · have decoded : (match (l.receiver.receive (.data (l.arriving offered))).1 with
          | .ok (Option.some frame) => [frame]
          | _ => []) = if l.receiver.generation = l.sender.generation then [frame] else [] := by
        rw [result]
        by_cases same : l.receiver.generation = l.sender.generation
        · rw [if_pos same, (Frame.decode_eq_ok frame.length_encode).mpr ⟨rfl, own.trans same.symm⟩]
          rfl
        · rw [if_neg same]
          cases read : Frame.decode frame.encode l.receiver.generation with
          | error error => rfl
          | ok other =>
            obtain ⟨equal, theirs⟩ := (Frame.decode_eq_ok frame.length_encode).mp read
            rw [← Frame.encode_injective equal, own] at theirs
            exact absurd theirs.symm same
      have next : (l.receive (.data offered)).2 = { l with
          receiver := (l.receiver.receive (.data (l.arriving offered))).2
          stream := l.stream.drop (l.arriving offered).length
          received := l.received ++
            if l.receiver.generation = l.sender.generation then [frame] else []
          consumed := l.consumed + (l.arriving offered).length } := by
        unfold Link.receive
        rw [answer, taken, ← decoded]
      rw [next]
      exact {
        accepted := by rw [framed.accepted, waiting, List.append_assoc, List.singleton_append]
        received := by
          dsimp only
          rw [generation, framed.received]
          split <;> rfl
        bytes := by rw [record, ← tail, List.nil_append]
        generation := fun other member =>
          framed.generation other (by rw [waiting]; exact List.mem_cons_of_mem _ member)
        queued := framed.queued
        reading := reading
        consumed := by
          dsimp only
          rw [count, framed.consumed, List.length_append, List.length_singleton, Nat.mul_succ]
          omega }
    · intro same
      change (l.receiver.receive (l.answer (.data offered))).1 = _
      rw [answer, result, (Frame.decode_eq_ok frame.length_encode).mpr ⟨rfl, own.trans same.symm⟩]
      rfl

theorem receive (framed : l.Framed done rest) (arrival : Arrival) :
    ∃ done rest, (l.receive arrival).2.Framed done rest := by
  by_cases ended : l.receiver.eof = true
  · exact ⟨done, rest, framed.receive_still (.inl ended)⟩
  · have live : l.receiver.eof = false := by simpa using ended
    cases arrival with
    | data offered =>
      by_cases some : l.arriving offered = []
      · have answer : l.answer (.data offered) = .wouldBlock := if_pos some
        exact ⟨done, rest, framed.receive_still (.inr fun bytes wrong => by simp [answer] at wrong)⟩
      · rcases Nat.lt_or_eq_of_le (framed.length_arriving offered) with short | full
        · exact ⟨done, rest, (framed.receive_part live some short).2⟩
        · obtain ⟨frame, later, -, next, -⟩ := framed.receive_whole live some full
          exact ⟨done ++ [frame], later, next⟩
    | endOfStream =>
      refine ⟨done, rest, framed.receive_still (.inr fun bytes same => ?_)⟩
      cases same
      rfl
    | connectionReset => exact ⟨done, rest, framed.receive_still (.inr fun _ same => by cases same)⟩
    | interrupted => exact ⟨done, rest, framed.receive_still (.inr fun _ same => by cases same)⟩
    | wouldBlock => exact ⟨done, rest, framed.receive_still (.inr fun _ same => by cases same)⟩
    | failed => exact ⟨done, rest, framed.receive_still (.inr fun _ same => by cases same)⟩

theorem step (framed : l.Framed done rest) (call : Call) : ∃ done rest, (l.step call).Framed done rest := by
  cases call with
  | enqueue frame =>
    obtain ⟨rest, next⟩ := framed.enqueue frame
    exact ⟨done, rest, next⟩
  | flush answers => exact ⟨done, rest, framed.flush answers⟩
  | receive arrival => exact framed.receive arrival

theorem run (framed : l.Framed done rest) (calls : List Call) :
    ∃ done rest, (l.run calls).Framed done rest := by
  induction calls generalizing l done rest with
  | nil => exact ⟨done, rest, framed⟩
  | cons call calls ih =>
    obtain ⟨_, _, next⟩ := framed.step call
    exact ih next

/-- The bytes read so far show where the record boundaries are. -/
theorem boundary (framed : l.Framed done rest) : l.consumed % FRAME_BYTES = l.receiver.received := by
  rw [framed.consumed, Nat.mul_add_mod]
  exact Nat.mod_eq_of_lt framed.reading.received

end Framed

theorem step_generation (l : Link) (call : Call) : (l.step call).receiver.generation =
    l.receiver.generation := by
  cases call with
  | enqueue frame => rfl
  | flush answers => rfl
  | receive arrival => exact l.receiver.receive_generation _

theorem run_generation (l : Link) (calls : List Call) :
    (l.run calls).receiver.generation = l.receiver.generation := by
  induction calls generalizing l with
  | nil => rfl
  | cons call calls ih => exact (ih (l.step call)).trans (l.step_generation call)

theorem Framed.sender_step (framed : l.Framed done rest) (call : Call) :
    (l.step call).sender.generation = l.sender.generation := by
  cases call with
  | enqueue frame =>
    rcases l.sender.enqueue_cases frame with ⟨_, same⟩ | ⟨-, same⟩ | ⟨-, -, -, same⟩ <;>
      simp only [Link.step, Link.enqueue, same]
  | flush answers => exact (framed.queued.flushLoop QUEUE_RECORDS answers []).2.1
  | receive arrival => rfl

theorem Framed.sender_run (framed : l.Framed done rest) (calls : List Call) :
    (l.run calls).sender.generation = l.sender.generation := by
  induction calls generalizing l done rest with
  | nil => rfl
  | cons call calls ih =>
    obtain ⟨_, _, next⟩ := framed.step call
    exact (ih next).trans (framed.sender_step call)

/-- What the two ends can rely on. -/
structure InOrder (l : Link) : Prop where
  /-- Frames arrive in the order in which they were queued, none twice. -/
  ordered : l.received <+: l.accepted
  /-- Between ends of one generation none is lost either. -/
  lossless : l.sender.generation = l.receiver.generation → l.stream = [] → l.sender.outgoing = [] →
    l.received = l.accepted
  bounded : l.sender.outgoing.length ≤ QUEUE_RECORDS
  refused : ∀ frame error, (l.enqueue frame).1 = .error error → (l.enqueue frame).2 = l
  full : ∀ frame, l.sender.outgoing.length = QUEUE_RECORDS → frame.encode ∉ l.sender.outgoing →
    ∃ error, (l.enqueue frame).1 = .error error
  /-- A record equal to one still queued is not queued again. -/
  coalesced : ∀ frame, frame.encode ∈ l.sender.outgoing → (l.enqueue frame).2 = l
  /-- The end of the stream, or a reset, is a clean end exactly at a record boundary. -/
  ending : ∀ arrival, l.receiver.eof = false → arrival = .endOfStream ∨ arrival = .connectionReset →
    (l.receive arrival).2.receiver.eof = true ∧
    (l.receive arrival).1 = if l.consumed % FRAME_BYTES = 0 then .ok none else .error .invalidData
  /-- Nothing else is taken for an end. -/
  running : ∀ arrival, l.receiver.eof = false → (l.receive arrival).2.receiver.eof = true →
    arrival = .endOfStream ∨ arrival = .connectionReset

theorem Framed.inOrder (framed : l.Framed done rest) : l.InOrder where
  ordered := by
    rw [framed.received, framed.accepted]
    split
    · exact List.prefix_append done rest
    · exact List.nil_prefix
  lossless same still idle := by
    have empty : l.sender.backlog = [] := by rw [Channel.backlog, idle]; exact List.drop_nil
    have part : l.receiver.partialRecord = (rest.map Frame.encode).flatten := by
      rw [← framed.bytes, still, empty, List.append_nil, List.append_nil]
    have none : rest = [] := by
      cases rest with
      | nil => rfl
      | cons frame later =>
        have short : l.receiver.partialRecord.length < FRAME_BYTES := by
          rw [Channel.partialRecord, List.length_take]
          exact Nat.lt_of_le_of_lt (Nat.min_le_left _ _) framed.reading.received
        rw [part, List.map_cons, List.flatten_cons, List.length_append, frame.length_encode] at short
        omega
    rw [framed.received, if_pos same.symm, framed.accepted, none, List.append_nil]
  bounded := framed.queued.within
  refused frame error failed := by
    rcases l.sender.enqueue_cases frame with ⟨_, same⟩ | ⟨-, same⟩ | ⟨-, -, -, same⟩
    · simp only [Link.enqueue, same, Nat.lt_irrefl, if_false]
    · simp only [Link.enqueue, same, Nat.lt_irrefl, if_false]
    · simp only [Link.enqueue, same, reduceCtorEq] at failed
  full frame full fresh := by
    rcases l.sender.enqueue_cases frame with ⟨error, same⟩ | ⟨queued, -⟩ | ⟨-, -, room, -⟩
    · exact ⟨error, by simp only [Link.enqueue, same]⟩
    · exact absurd queued fresh
    · exact absurd full room
  coalesced frame queued := by
    rcases l.sender.enqueue_cases frame with ⟨_, same⟩ | ⟨-, same⟩ | ⟨-, fresh, -, -⟩
    · simp only [Link.enqueue, same, Nat.lt_irrefl, if_false]
    · simp only [Link.enqueue, same, Nat.lt_irrefl, if_false]
    · exact absurd queued fresh
  ending arrival live final := by
    have ended : (l.receive arrival).2.receiver.eof = true := by
      rcases final with rfl | rfl
      · exact l.receiver.receive_end live (.inl rfl)
      · exact l.receiver.receive_end live (.inr rfl)
    rw [framed.boundary]
    exact ⟨ended, l.receiver.receive_ended live ended⟩
  running arrival live ended := by
    rcases l.receiver.receive_ends live ended with same | same
    · cases arrival with
      | data offered =>
        simp only [Link.answer] at same
        split at same
        · cases same
        · rename_i some
          exact absurd (ReadAnswer.data.inj same) some
      | endOfStream => exact .inl rfl
      | _ => cases same
    · cases arrival with
      | data offered =>
        simp only [Link.answer] at same
        split at same <;> cases same
      | connectionReset => exact .inr rfl
      | _ => cases same

/-- After any calls on two fresh channels the frames received are those queued, in
order; and a frame and its 32 bytes determine each other. -/
theorem frames_received_in_order (sending receiving : UInt64) :
    (∀ calls, ((new sending receiving).run calls).InOrder ∧
      ((new sending receiving).run calls).sender.generation = sending ∧
      ((new sending receiving).run calls).receiver.generation = receiving) ∧
    (∀ frame, Frame.decode frame.encode frame.generation = .ok frame) ∧
    ∀ bytes generation frame, bytes.length = FRAME_BYTES →
      Frame.decode bytes generation = .ok frame → frame.encode = bytes := by
  have start := new_framed sending receiving
  refine ⟨fun calls => ?_, fun frame => ?_, fun bytes generation frame sized decoded => ?_⟩
  · obtain ⟨_, _, framed⟩ := start.run calls
    exact ⟨framed.inOrder, start.sender_run calls, run_generation _ calls⟩
  · exact (Frame.decode_eq_ok frame.length_encode).mpr ⟨rfl, rfl⟩
  · exact ((Frame.decode_eq_ok sized).mp decoded).1.symm

end Link
end PtyRuntime.Guardian
