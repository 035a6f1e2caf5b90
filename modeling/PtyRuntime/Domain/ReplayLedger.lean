import PtyRuntime.Domain.Replay
import PtyRuntime.Window

/-! The retention buffer refines an append-only ledger: whatever is appended,
evicted or released, the retained bytes are the suffix of everything produced
that starts at the reported floor, and reads answer from that ledger. -/
namespace PtyRuntime.ReplayBuffer
open Window

/-- The chunk an operation offers to the stream. -/
def Op.chunk : Op → Bytes
  | .append bytes | .appendWithLimit bytes _ => bytes
  | .retainAtMost _ | .releaseStorage => []

/-- How many of the newest bytes an operation allows a buffer to keep. -/
def Op.keeps (limit : Nat) : Op → Nat
  | .append _ => limit
  | .appendWithLimit _ retention => min limit retention
  | .retainAtMost bytes => bytes
  | .releaseStorage => 0

/-- The concatenation of the chunks that were appended successfully. -/
def produced (b : ReplayBuffer) : List Op → Bytes
  | [] => []
  | op :: rest =>
    (if (b.step op).1 = .ok () then op.chunk else []) ++ produced (b.step op).2 rest

/-- A buffer represents a ledger: same stream length, same retained suffix. -/
structure Refines (b : ReplayBuffer) (w : Ledger UInt8) : Prop where
  produced : b.endOffset = w.stream.length
  retained : b.bytes = w.retained

theorem new_refines (lifetime : SessionLifetime) (limit : Nat) :
    Refines (new lifetime limit) Ledger.empty := ⟨rfl, rfl⟩

namespace Refines
variable {b : ReplayBuffer} {w : Ledger UInt8}

theorem length_le (refines : Refines b w) : b.bytes.length ≤ b.endOffset := by
  rw [refines.produced, refines.retained, w.retained_length]
  exact Nat.sub_le _ _

theorem floor_offset (refines : Refines b w) : b.floor.offset = w.floor := by
  have inside := w.inside
  simp only [floor, refines.produced, refines.retained, w.retained_length]
  omega

/-- Dropping the oldest bytes to `keep` is an extension by nothing. -/
theorem retainAtMost (refines : Refines b w) (keep : Nat) :
    Refines (b.retainAtMost keep) (w.extend [] keep) := by
  refine ⟨?_, ?_⟩
  · simpa only [ReplayBuffer.retainAtMost, Ledger.extend_stream, List.append_nil] using
      refines.produced
  · simp only [ReplayBuffer.retainAtMost, Ledger.retained_extend, List.append_nil, List.rtake,
      refines.retained]

theorem releaseStorage (refines : Refines b w) :
    Refines b.releaseStorage (w.extend [] 0) := by
  refine ⟨?_, ?_⟩
  · simpa only [ReplayBuffer.releaseStorage, Ledger.extend_stream, List.append_nil] using
      refines.produced
  · simp only [ReplayBuffer.releaseStorage, Ledger.retained_extend, List.rtake_zero]

/-- The two drops of an append, one on each side of the seam, together keep
the newest `limit` bytes of the old retention followed by the chunk. -/
theorem drop_seam (old chunk : Bytes) (limit : Nat) :
    old.drop (old.length - (limit - (chunk.drop (chunk.length - limit)).length)) ++
      chunk.drop (chunk.length - limit) = (old ++ chunk).rtake limit := by
  have oldDrop : old.drop (old.length - (limit - (chunk.drop (chunk.length - limit)).length)) =
      old.drop (old.length + chunk.length - limit) := by
    rcases Nat.le_total limit chunk.length with full | room
    · have kept : (chunk.drop (chunk.length - limit)).length = limit := by
        simp only [List.length_drop]
        omega
      rw [kept, Nat.sub_self, Nat.sub_zero, List.drop_length,
        List.drop_eq_nil_of_le (by omega)]
    · have kept : (chunk.drop (chunk.length - limit)).length = chunk.length := by
        simp only [List.length_drop]
        omega
      rw [kept]
      congr 1
      omega
  simp only [List.rtake, List.length_append, List.drop_append, oldDrop]
  congr 2
  omega

theorem appendWithLimit (refines : Refines b w) {bytes : Bytes} (retention : Nat)
    (fits : b.endOffset + bytes.length ≤ u64Max) :
    (b.appendWithLimit bytes retention).1 = .ok () ∧
      Refines (b.appendWithLimit bytes retention).2 (w.extend bytes (min b.limit retention)) := by
  have sum : checkedAdd b.endOffset bytes.length = some (b.endOffset + bytes.length) :=
    checkedAdd_eq_some.mpr ⟨fits, rfl⟩
  simp only [ReplayBuffer.appendWithLimit, sum, true_and]
  refine ⟨?_, ?_⟩
  · simp only [Ledger.extend_stream, List.length_append, refines.produced]
  · simp only [Ledger.retained_extend, ← refines.retained, drop_seam]

end Refines

theorem appendWithLimit_exhausted {b : ReplayBuffer} {bytes : Bytes} (retention : Nat)
    (exceeds : u64Max < b.endOffset + bytes.length) :
    b.appendWithLimit bytes retention = (.error .offsetExhausted, b) := by
  simp only [appendWithLimit, checkedAdd_eq_none.mpr exceeds]

/-- An operation fails exactly when the stream offset cannot represent its
chunk; the two evictions offer no chunk and always fit. -/
theorem step_exhausted {b : ReplayBuffer} {w : Ledger UInt8} (refines : Refines b w)
    (bounded : w.stream.length ≤ u64Max) (op : Op)
    (exceeds : u64Max < w.stream.length + op.chunk.length) :
    b.step op = (.error .offsetExhausted, b) := by
  rw [← refines.produced] at exceeds bounded
  cases op with
  | append bytes => exact appendWithLimit_exhausted _ exceeds
  | appendWithLimit bytes retention => exact appendWithLimit_exhausted _ exceeds
  | retainAtMost bytes | releaseStorage =>
    simp only [Op.chunk, List.length_nil] at exceeds
    omega

theorem step_refines {b : ReplayBuffer} {w : Ledger UInt8} (refines : Refines b w) (op : Op)
    (fits : w.stream.length + op.chunk.length ≤ u64Max) :
    (b.step op).1 = .ok () ∧ Refines (b.step op).2 (w.extend op.chunk (op.keeps b.limit)) := by
  rw [← refines.produced] at fits
  cases op with
  | append bytes =>
    have appended := refines.appendWithLimit b.limit fits
    rwa [Nat.min_self] at appended
  | appendWithLimit bytes retention => exact refines.appendWithLimit retention fits
  | retainAtMost bytes => exact ⟨rfl, refines.retainAtMost bytes⟩
  | releaseStorage => exact ⟨rfl, refines.releaseStorage⟩

theorem step_lifetime (b : ReplayBuffer) (op : Op) : (b.step op).2.lifetime = b.lifetime := by
  cases op with
  | append bytes =>
    simp only [step, append, appendWithLimit]
    split <;> rfl
  | appendWithLimit bytes retention =>
    simp only [step, appendWithLimit]
    split <;> rfl
  | retainAtMost bytes | releaseStorage => rfl

/-- Every run extends some ledger of the starting one by exactly the produced
bytes, and never past the offset range. -/
theorem run_refines {b : ReplayBuffer} {w : Ledger UInt8} (refines : Refines b w)
    (bounded : w.stream.length ≤ u64Max) (ops : List Op) :
    ∃ v : Ledger UInt8, Refines (b.run ops) v ∧
      v.stream = w.stream ++ b.produced ops ∧ v.stream.length ≤ u64Max := by
  induction ops generalizing b w with
  | nil => exact ⟨w, refines, (List.append_nil _).symm, bounded⟩
  | cons op rest ih =>
    rcases Nat.lt_or_ge u64Max (w.stream.length + op.chunk.length) with exceeds | fits
    · have failed := step_exhausted refines bounded op exceeds
      obtain ⟨v, later, stream, inRange⟩ := ih refines bounded
      refine ⟨v, ?_, ?_, inRange⟩
      · simpa only [run, List.foldl_cons, failed] using later
      · simpa only [ReplayBuffer.produced, failed, reduceCtorEq, if_false, List.nil_append] using
          stream
    · obtain ⟨ok, next⟩ := step_refines refines op fits
      obtain ⟨v, later, stream, inRange⟩ :=
        ih next (by simpa only [Ledger.extend_stream, List.length_append] using fits)
      refine ⟨v, by simpa only [run, List.foldl_cons] using later, ?_, inRange⟩
      simpa only [ReplayBuffer.produced, ok, if_true, Ledger.extend_stream,
        List.append_assoc] using stream

/-- The reader's answer in terms of everything produced and of the floor. -/
def ledgerRead (lifetime : SessionLifetime) (stream : Bytes) (floor : Nat) (cursor : ReplayCursor)
    (maxBytes : Nat) : Except ReplayError ReplayPage :=
  let last := min (cursor.offset + maxBytes) stream.length
  if cursor.lifetime ≠ lifetime then .error .foreignLifetime
  else if stream.length < cursor.offset then .error .futureCursor
  else if maxBytes = 0 then .error .emptyPageLimit
  else if cursor.offset < floor then .ok (.gap cursor ⟨lifetime, floor⟩)
  else if cursor.offset = stream.length then .ok .pending
  else .ok (.bytes cursor ⟨lifetime, last⟩ ((stream.take last).drop cursor.offset))

theorem Refines.read {b : ReplayBuffer} {w : Ledger UInt8} (refines : Refines b w)
    (cursor : ReplayCursor) (maxBytes : Nat) :
    b.read cursor maxBytes = ledgerRead b.lifetime w.stream w.floor cursor maxBytes := by
  have floorEq := refines.floor_offset
  have floorCursor : b.floor = ⟨b.lifetime, w.floor⟩ := by rw [← floorEq]; rfl
  unfold ReplayBuffer.read ledgerRead
  rw [floorEq, refines.produced, floorCursor]
  split
  · rfl
  split
  · rfl
  split
  · rfl
  split
  · rfl
  split
  · rfl
  · -- The payload's length is what `range` says, so `next` agrees as well.
    have payload := w.range_of_retained cursor.offset maxBytes (by omega)
    have size := w.range_length cursor.offset
      (Nat.min_le_right (cursor.offset + maxBytes) w.stream.length)
    simp only [refines.retained, payload, size]
    rw [show cursor.offset + (min (cursor.offset + maxBytes) w.stream.length - cursor.offset) =
      min (cursor.offset + maxBytes) w.stream.length by omega]
    rfl

end PtyRuntime.ReplayBuffer
