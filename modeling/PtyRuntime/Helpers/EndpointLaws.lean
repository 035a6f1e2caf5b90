import PtyRuntime.Helpers.Endpoint

/-! Status delivery. The frames that went through the channel are those written and those
queued; a flush moves pending frames behind them, slot by slot, until one is refused. -/
namespace PtyRuntime

namespace Guardian.Kind

theorem slot_injective : Function.Injective slot :=
  fun _ _ same => code_injective (congrArg Fin.val same)

end Guardian.Kind

namespace Helper.Endpoint

open Guardian

variable {e : Endpoint} {done queued : List Frame}

/-- The frames of one kind. -/
def ofKind (kind : Kind) (frames : List Frame) : List Frame := frames.filter fun frame => frame.kind = kind

/-- The wire carries `done` and then a part of the first frame of `queued`. -/
structure Wire (e : Endpoint) (done queued : List Frame) : Prop where
  outgoing : e.channel.outgoing = queued.map Frame.encode
  written : e.written = done.flatMap Frame.encode ++ (queued.flatMap Frame.encode).take e.channel.sent
  channel : e.channel.Queued

theorem flatten_map_encode (frames : List Frame) :
    (frames.map Frame.encode).flatten = frames.flatMap Frame.encode := List.flatMap_def.symm

namespace Wire

theorem push (wire : Wire e done queued) {frame : Frame} (room : e.channel.outgoing.length ≠ QUEUE_RECORDS)
    (pending : Fin 19 → Option Frame) :
    Wire
      { e with channel := { e.channel with outgoing := e.channel.outgoing ++ [frame.encode] }, pending }
      done (queued ++ [frame]) where
  outgoing := by
    rw [List.map_append]
    exact congrArg (· ++ [frame.encode]) wire.outgoing
  written := by
    have short := wire.channel.sent_le
    rw [wire.outgoing, flatten_map_encode] at short
    rw [List.flatMap_append, List.take_append_of_le_length short]
    exact wire.written
  channel := wire.channel.push frame.length_encode room

/-- Draining completes frames from the front of the queue. -/
theorem drain (wire : Wire e done queued) (answers : List WriteAnswer) :
    ∃ gone rest, queued = gone ++ rest ∧ Wire (e.drain answers) (done ++ gone) rest := by
  obtain ⟨front, split⟩ := Channel.flushLoop_front QUEUE_RECORDS answers e.channel []
  obtain ⟨after, -, bytes⟩ := wire.channel.flushLoop QUEUE_RECORDS answers []
  have same : e.channel.flush answers = Channel.flushLoop QUEUE_RECORDS answers e.channel [] := rfl
  rw [← same] at split after bytes
  rw [wire.outgoing] at split
  obtain ⟨gone, rest, rfl, rfl, remaining⟩ := List.map_eq_append_iff.mp split
  refine ⟨gone, rest, rfl, ⟨remaining.symm, ?_, after⟩⟩
  have backlog : (e.channel.flush answers).2.2 ++
      (rest.flatMap Frame.encode).drop (e.channel.flush answers).2.1.sent =
      ((gone ++ rest).flatMap Frame.encode).drop e.channel.sent := by
    simpa only [Channel.backlog, ← remaining, wire.outgoing, flatten_map_encode, List.nil_append]
      using bytes
  have whole : e.written ++ ((e.channel.flush answers).2.2 ++
      (rest.flatMap Frame.encode).drop (e.channel.flush answers).2.1.sent) =
      ((done ++ gone).flatMap Frame.encode ++
        (rest.flatMap Frame.encode).take (e.channel.flush answers).2.1.sent) ++
        (rest.flatMap Frame.encode).drop (e.channel.flush answers).2.1.sent := by
    rw [backlog, wire.written, List.append_assoc, List.take_append_drop, List.append_assoc,
      List.take_append_drop, List.flatMap_append, List.flatMap_append, List.append_assoc]
  rw [← List.append_assoc] at whole
  exact List.append_cancel_right whole

end Wire

@[simp] theorem ofKind_append (kind : Kind) (frames more : List Frame) :
    ofKind kind (frames ++ more) = ofKind kind frames ++ ofKind kind more := List.filter_append _ _

theorem ofKind_self (frame : Frame) : ofKind frame.kind [frame] = [frame] := by
  simp [ofKind]

theorem ofKind_other {kind : Kind} {frame : Frame} (other : frame.kind ≠ kind) : ofKind kind [frame] = [] := by
  simp [ofKind, other]

theorem mem_ofKind {kind : Kind} {frames : List Frame} {frame : Frame} :
    frame ∈ ofKind kind frames ↔ frame ∈ frames ∧ frame.kind = kind := by
  simp [ofKind]

/-- The frame is in exactly one place, and no other frame of its kind was ever queued. -/
def Once (e : Endpoint) (done queued : List Frame) (frame : Frame) : Prop :=
  (e.pending frame.kind.slot = some frame ∧ ofKind frame.kind queued = [] ∧ ofKind frame.kind done = []) ∨
  (e.pending frame.kind.slot = none ∧ ofKind frame.kind queued = [frame] ∧ ofKind frame.kind done = []) ∨
  (e.pending frame.kind.slot = none ∧ ofKind frame.kind queued = [] ∧ ofKind frame.kind done = [frame])

/-- What became of the first frame of a kind, if one was sent. -/
def Followed (e : Endpoint) (done queued : List Frame) (kind : Kind) : Option Frame → Prop
  | none => e.sent kind.slot = none ∧ e.pending kind.slot = none ∧ ofKind kind queued = [] ∧
      ofKind kind done = []
  | some frame => frame.kind = kind ∧ e.sent kind.slot = some frame.values ∧ Once e done queued frame

/-- The first frame of a kind among those given to `send`. -/
def firstOf (kind : Kind) (frames : List Frame) : Option Frame := frames.find? fun frame => frame.kind = kind

structure Delivering (e : Endpoint) (sends done queued : List Frame) : Prop where
  wire : Wire e done queued
  slots : ∀ index frame, e.pending index = some frame → frame.kind.slot = index
  first : ∀ kind : Kind, kind.OneShot → Followed e done queued kind (firstOf kind sends)

theorem new_delivering (generation : UInt64) : Delivering (new generation) [] [] [] where
  wire := ⟨rfl, rfl, Channel.new_queued generation⟩
  slots _ _ held := nomatch held
  first _ _ := ⟨rfl, rfl, rfl, rfl⟩

namespace Followed

variable {e' : Endpoint} {kind : Kind} {first : Option Frame}

/-- What happens to other kinds says nothing of this one. -/
theorem other (followed : Followed e done queued kind first) (sent : e'.sent kind.slot = e.sent kind.slot)
    (pending : e'.pending kind.slot = e.pending kind.slot) {done' queued' : List Frame}
    (queues : ofKind kind queued' = ofKind kind queued) (wrote : ofKind kind done' = ofKind kind done) :
    Followed e' done' queued' kind first := by
  cases first with
  | none =>
    obtain ⟨unsent, free, unqueued, unwritten⟩ := followed
    exact ⟨sent.trans unsent, pending.trans free, queues.trans unqueued, wrote.trans unwritten⟩
  | some frame =>
    obtain ⟨rfl, was, once⟩ := followed
    refine ⟨rfl, sent.trans was, ?_⟩
    unfold Once
    rw [pending, queues, wrote]
    exact once

/-- A pending frame of a kind that is sent once is the first, and has not been queued. -/
theorem pends (followed : Followed e done queued kind first) {frame : Frame}
    (held : e.pending kind.slot = some frame) :
    first = some frame ∧ frame.kind = kind ∧ e.sent kind.slot = some frame.values ∧
      ofKind kind queued = [] ∧ ofKind kind done = [] := by
  cases first with
  | none => cases followed.2.1.symm.trans held
  | some known =>
    obtain ⟨rfl, sent, ⟨pending, unqueued, unwritten⟩ | ⟨free, -⟩ | ⟨free, -⟩⟩ := followed
    · obtain rfl := Option.some.inj (pending.symm.trans held)
      exact ⟨rfl, rfl, sent, unqueued, unwritten⟩
    · cases free.symm.trans held
    · cases free.symm.trans held

/-- A frame that is written leaves the queue. -/
theorem moved (followed : Followed e done queued kind first) {gone rest : List Frame}
    (split : queued = gone ++ rest) (sent : e'.sent kind.slot = e.sent kind.slot)
    (pending : e'.pending kind.slot = e.pending kind.slot) :
    Followed e' (done ++ gone) rest kind first := by
  subst split
  cases first with
  | none =>
    obtain ⟨unsent, free, unqueued, unwritten⟩ := followed
    rw [ofKind_append] at unqueued
    obtain ⟨early, late⟩ := List.append_eq_nil_iff.mp unqueued
    refine ⟨sent.trans unsent, pending.trans free, late, ?_⟩
    rw [ofKind_append, unwritten, early]
    rfl
  | some frame =>
    obtain ⟨rfl, was, once⟩ := followed
    refine ⟨rfl, sent.trans was, ?_⟩
    unfold Once at once ⊢
    rw [pending]
    simp only [ofKind_append] at once ⊢
    rcases once with ⟨held, unqueued, unwritten⟩ | ⟨free, waits, unwritten⟩ | ⟨free, unqueued, wrote⟩
    · obtain ⟨early, late⟩ := List.append_eq_nil_iff.mp unqueued
      exact .inl ⟨held, late, by rw [unwritten, early]; rfl⟩
    · rcases List.append_eq_singleton_iff.mp waits with ⟨early, late⟩ | ⟨early, late⟩
      · exact .inr (.inl ⟨free, late, by rw [unwritten, early]; rfl⟩)
      · exact .inr (.inr ⟨free, late, by rw [unwritten, early]; rfl⟩)
    · obtain ⟨early, late⟩ := List.append_eq_nil_iff.mp unqueued
      exact .inr (.inr ⟨free, late, by rw [wrote, early]; rfl⟩)

end Followed
end Helper.Endpoint
end PtyRuntime
