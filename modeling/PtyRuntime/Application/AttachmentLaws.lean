import PtyRuntime.Application.Attachments

/-! What one attachment receives. Its events tile the session's output stream
from its starting cursor; the reads of the others have no influence on it. -/
namespace PtyRuntime

open Window (Ledger)

/-- What an event taken at `cursor` says about the stream: a page carries the
bytes from the cursor on, a gap reaches the floor of that moment, and completion
comes at the end of everything produced so far. -/
def Piece (stream : Bytes) (cursor : ReplayCursor) (t : Taken) : Prop :=
  match t.event with
  | .replay (.gap start stop) =>
    start = cursor ∧ stop = { cursor with offset := t.floor } ∧ cursor.offset < t.floor ∧
      t.floor ≤ stream.length
  | .replay (.bytes start next payload) =>
    start = cursor ∧ next = { cursor with offset := cursor.offset + payload.length } ∧
      payload ≠ [] ∧ next.offset ≤ stream.length ∧
      payload = (stream.take next.offset).drop cursor.offset
  | .replay .pending => False
  | .complete completion => cursor.offset = t.produced ∧ t.completion = some completion

/-- Consecutive events, each starting where the one before it ended. -/
def Tiles (stream : Bytes) (start : ReplayCursor) : List Taken → ReplayCursor → Prop
  | [], stop => start = stop
  | t :: rest, stop =>
    Piece stream start t ∧ Tiles stream (Attachment.advance start t.event) rest stop

theorem Piece.extend {stream : Bytes} {cursor : ReplayCursor} {t : Taken}
    (piece : Piece stream cursor t) (more : Bytes) : Piece (stream ++ more) cursor t := by
  unfold Piece at piece ⊢
  split at piece
  · obtain ⟨same, stop, behind, within⟩ := piece
    refine ⟨same, stop, behind, ?_⟩
    rw [List.length_append]
    exact Nat.le_add_right_of_le within
  · obtain ⟨same, next, some, within, payload⟩ := piece
    refine ⟨same, next, some, ?_, ?_⟩
    · rw [List.length_append]
      exact Nat.le_add_right_of_le within
    · rw [List.take_append_of_le_length within]
      exact payload
  · exact piece
  · exact piece

theorem Tiles.extend {stream : Bytes} {start stop : ReplayCursor} {events : List Taken}
    (tiles : Tiles stream start events stop) (more : Bytes) :
    Tiles (stream ++ more) start events stop := by
  induction events generalizing start with
  | nil => exact tiles
  | cons t rest ih => exact ⟨tiles.1.extend more, ih tiles.2⟩

theorem Tiles.snoc {stream : Bytes} {start cursor : ReplayCursor} {events : List Taken}
    {t : Taken} (tiles : Tiles stream start events cursor) (piece : Piece stream cursor t) :
    Tiles stream start (events ++ [t]) (Attachment.advance cursor t.event) := by
  induction events generalizing start with
  | nil =>
    obtain rfl : start = cursor := tiles
    exact ⟨piece, rfl⟩
  | cons first rest ih => exact ⟨tiles.1, ih tiles.2⟩

/-- The stream positions an event accounts for. -/
def Taken.Covers (t : Taken) (position : Nat) : Prop :=
  match t.event with
  | .replay (.gap start stop) => start.offset ≤ position ∧ position < stop.offset
  | .replay (.bytes start next _) => start.offset ≤ position ∧ position < next.offset
  | .replay .pending => False
  | .complete _ => False

/-- An event covers exactly the range its cursor moves over. -/
theorem Piece.covers {stream : Bytes} {cursor : ReplayCursor} {t : Taken}
    (piece : Piece stream cursor t) (position : Nat) :
    (t.Covers position ↔ cursor.offset ≤ position ∧
      position < (Attachment.advance cursor t.event).offset) ∧
    cursor.offset ≤ (Attachment.advance cursor t.event).offset := by
  revert piece
  unfold Piece Taken.Covers Attachment.advance
  rcases t.event with (⟨start, stop⟩ | ⟨start, next, payload⟩ | _) | completion
  · rintro ⟨rfl, rfl, behind, -⟩
    dsimp only
    omega
  · rintro ⟨rfl, rfl, -, -, -⟩
    dsimp only
    omega
  · exact False.elim
  · intro _
    exact ⟨⟨False.elim, fun inside => absurd inside.2 (Nat.not_lt.mpr inside.1)⟩, Nat.le_refl _⟩

theorem Tiles.covers {stream : Bytes} {start stop : ReplayCursor} {events : List Taken}
    (tiles : Tiles stream start events stop) :
    start.offset ≤ stop.offset ∧ ∀ t ∈ events, ∀ position, t.Covers position →
      start.offset ≤ position ∧ position < stop.offset := by
  induction events generalizing start with
  | nil =>
    obtain rfl : start = stop := tiles
    exact ⟨Nat.le_refl _, fun t member => by cases member⟩
  | cons first rest ih =>
    obtain ⟨piece, later⟩ := tiles
    obtain ⟨ordered, inside⟩ := ih later
    have forward := (piece.covers 0).2
    refine ⟨Nat.le_trans forward ordered, ?_⟩
    intro t member position covered
    rcases List.mem_cons.mp member with rfl | further
    · have here := (piece.covers position).1.mp covered
      omega
    · have there := inside t further position covered
      omega

/-- Every position between the ends of a tiling is covered by exactly one event. -/
theorem Tiles.covered_once {stream : Bytes} {start stop : ReplayCursor} {events : List Taken}
    (tiles : Tiles stream start events stop) {position : Nat} (after : start.offset ≤ position)
    (before : position < stop.offset) :
    ∃! index : Nat, ∃ t : Taken, events[index]? = some t ∧ t.Covers position := by
  induction events generalizing start with
  | nil =>
    obtain rfl : start = stop := tiles
    omega
  | cons first rest ih =>
    obtain ⟨piece, later⟩ := tiles
    by_cases here : position < (Attachment.advance start first.event).offset
    · refine ⟨0, ⟨first, rfl, (piece.covers position).1.mpr ⟨after, here⟩⟩, ?_⟩
      rintro (_ | index) ⟨t, found, covered⟩
      · rfl
      · have := (later.covers.2 t (List.mem_of_getElem? found) position covered).1
        omega
    · obtain ⟨index, ⟨t, found, covered⟩, unique⟩ := ih later (by omega)
      refine ⟨index + 1, ⟨t, found, covered⟩, ?_⟩
      rintro (_ | other) ⟨u, at', covers⟩
      · obtain rfl : first = u := Option.some.inj at'
        exact absurd ((piece.covers position).1.mp covers).2 here
      · exact congrArg (· + 1) (unique other ⟨u, at', covers⟩)

namespace Observed

/-- An attachment's events tile the stream up to its cursor, and the event in its
hand continues there. -/
structure Reads (lifetime : SessionLifetime) (stream : Bytes) (a : Attachment) : Prop where
  lifetimes : a.cursor.lifetime = lifetime
  tiles : Tiles stream a.start a.received a.cursor
  hand : ∀ t, a.hand = some t → Piece stream a.cursor t

/-- The session's replay represents everything it ever produced. -/
structure Valid (lifetime : SessionLifetime) (s : Observed) : Prop where
  lifetimes : s.context.replay.lifetime = lifetime
  ledger : ∃ w : Ledger UInt8, w.stream = s.stream ∧ ReplayBuffer.Refines s.context.replay w
  reads : ∀ id a, s.attachments.get? id = some a → Reads lifetime s.stream a

theorem Reads.extend {lifetime : SessionLifetime} {stream : Bytes} {a : Attachment}
    (reads : Reads lifetime stream a) (more : Bytes) : Reads lifetime (stream ++ more) a :=
  ⟨reads.lifetimes, reads.tiles.extend more, fun t held => (reads.hand t held).extend more⟩

/-- Steps that change neither replay nor attachments keep the session valid. -/
theorem Valid.context {lifetime : SessionLifetime} {s : Observed} (valid : s.Valid lifetime)
    {context : SessionContext} (same : context.replay = s.context.replay) :
    ({ s with context } : Observed).Valid lifetime := by
  refine ⟨?_, ?_, valid.reads⟩
  · rw [same]
    exact valid.lifetimes
  · rw [same]
    exact valid.ledger

/-- Replay accepts cursors of its own lifetime only. -/
theorem read_lifetime {b : ReplayBuffer} {cursor : ReplayCursor} {maxBytes : Nat}
    {page : ReplayPage} (read : b.read cursor maxBytes = .ok page) :
    cursor.lifetime = b.lifetime := by
  unfold ReplayBuffer.read at read
  split at read
  · cases read
  · rename_i same
    simpa using same

theorem attachCursor_lifetime {c : SessionContext} {position : AttachPosition}
    {cursor : ReplayCursor} (attached : c.attachCursor position = .ok cursor) :
    cursor.lifetime = c.replay.lifetime := by
  simp only [SessionContext.attachCursor] at attached
  split at attached
  · cases attached
  · split at attached
    · cases attached
    · rename_i page read
      obtain rfl := Except.ok.inj attached
      exact read_lifetime read

theorem registerWatcher_replay (c : SessionContext) : c.registerWatcher.2.replay = c.replay := by
  simp only [SessionContext.registerWatcher]
  split
  · rfl
  · split
    · rfl
    · split
      · rfl
      · split <;> rfl

theorem removeWatcher_replay (c : SessionContext) (id : Nat) :
    (c.removeWatcher id).replay = c.replay := by
  simp only [SessionContext.removeWatcher]
  split <;> rfl

theorem report_replay (c : SessionContext) (event : SessionStatus.Report) :
    (c.report event).2.replay = c.replay := by
  simp only [SessionContext.report]
  split
  · rfl
  · split <;> rfl

theorem clearWaker_replay (c : SessionContext) (id : Nat) :
    (c.clearWaker id).replay = c.replay := by
  simp only [SessionContext.clearWaker]
  split <;> rfl

theorem touchWaker_replay (c : SessionContext) (id : Nat) (waker : Option Waker) (pending : Bool) :
    (touchWaker c id waker pending).replay = c.replay := by
  unfold touchWaker
  split <;> rfl

/-- Capacity admission changes the capacity, or releases all storage. -/
theorem admitReplay_cases (replay : ReplayBuffer) (quota : Quota) (replayBytes chunkLen : Nat)
    (allocation : ReplayBuffer.Allocation) :
    (∃ allocated, (SessionContext.admitReplay replay quota replayBytes chunkLen allocation).1 =
        { replay with allocated }) ∨
      (SessionContext.admitReplay replay quota replayBytes chunkLen allocation).1 =
        replay.releaseStorage := by
  simp only [SessionContext.admitReplay]
  generalize min (min (min (min (min (replay.bytes.length + chunkLen) u64Max) replayBytes + 4095)
    u64Max / 4096 * 4096) u64Max) replayBytes = target
  by_cases below : target > replay.allocated
  · rw [if_pos below]
    rcases quota.acquire (target - replay.allocated) with ⟨ok, quota⟩
    cases ok with
    | false => exact .inl ⟨replay.allocated, rfl⟩
    | true =>
      rcases replay.reserveCapacity_cases target allocation with ⟨e, refused⟩ | ⟨actual, -, got⟩
      · simp only [refused]
        exact .inl ⟨replay.allocated, rfl⟩
      · simp only [got]
        split_ifs
        · exact .inl ⟨actual, rfl⟩
        · rcases quota.acquire (actual - target) with ⟨ok, quota⟩
          cases ok with
          | false => exact .inr rfl
          | true => exact .inl ⟨actual, rfl⟩
        · exact .inl ⟨actual, rfl⟩
  · rw [if_neg below]
    exact .inl ⟨replay.allocated, rfl⟩

/-- Capacity admission may evict everything, but never changes the stream. -/
theorem admitReplay_refines {replay : ReplayBuffer} {w : Ledger UInt8}
    (refines : ReplayBuffer.Refines replay w) (quota : Quota) (replayBytes chunkLen : Nat)
    (allocation : ReplayBuffer.Allocation) :
    (SessionContext.admitReplay replay quota replayBytes chunkLen allocation).1.lifetime =
        replay.lifetime ∧
      ∃ v : Ledger UInt8, v.stream = w.stream ∧ ReplayBuffer.Refines
        (SessionContext.admitReplay replay quota replayBytes chunkLen allocation).1 v := by
  rcases admitReplay_cases replay quota replayBytes chunkLen allocation with
    ⟨allocated, same⟩ | released
  · rw [same]
    exact ⟨rfl, w, rfl, refines.produced, refines.retained⟩
  · rw [released]
    exact ⟨rfl, w.extend [] 0, by simp, refines.releaseStorage⟩

/-- Everything the append half of the output callback does to replay: it produces
the whole chunk, or nothing when the offset is exhausted. -/
theorem retainOutput_refines {c : SessionContext} {w : Ledger UInt8}
    (refines : ReplayBuffer.Refines c.replay w) (bytes : Bytes)
    (allocation : ReplayBuffer.Allocation) :
    (c.retainOutput bytes allocation).2.2.replay.lifetime = c.replay.lifetime ∧
      ∃ v : Ledger UInt8, ReplayBuffer.Refines (c.retainOutput bytes allocation).2.2.replay v ∧
        (w.stream.length + bytes.length ≤ u64Max ∧
            (c.retainOutput bytes allocation).1 = .accepted ∧ v.stream = w.stream ++ bytes ∨
          u64Max < w.stream.length + bytes.length ∧
            (c.retainOutput bytes allocation).1 = .closed ∧ v.stream = w.stream) := by
  obtain ⟨lifetime, v, stream, kept⟩ :=
    admitReplay_refines refines c.replayQuota c.replayBytes bytes.length allocation
  simp only [SessionContext.retainOutput]
  generalize SessionContext.admitReplay c.replay c.replayQuota c.replayBytes bytes.length
    allocation = admitted at lifetime kept
  obtain ⟨replay, quota⟩ := admitted
  simp only at lifetime kept ⊢
  rcases Nat.lt_or_ge u64Max (w.stream.length + bytes.length) with exceeds | fits
  · rw [ReplayBuffer.appendWithLimit_exhausted replay.allocated
      (by rw [kept.produced, stream]; exact exceeds)]
    exact ⟨lifetime, v, kept, .inr ⟨exceeds, rfl, stream⟩⟩
  · have room : replay.endOffset + bytes.length ≤ u64Max := by
      rw [kept.produced, stream]
      exact fits
    obtain ⟨ok, appended⟩ := kept.appendWithLimit replay.allocated room
    have same := ReplayBuffer.step_lifetime replay (.appendWithLimit bytes replay.allocated)
    simp only [ReplayBuffer.step] at same
    generalize replay.appendWithLimit bytes replay.allocated = result at ok appended same
    obtain ⟨verdict, replay'⟩ := result
    obtain rfl : verdict = .ok () := ok
    refine ⟨same.trans lifetime, _, appended, .inl ⟨fits, rfl, ?_⟩⟩
    rw [Ledger.extend_stream, stream]

/-- A refused chunk reaches nothing; any other reaches replay. -/
theorem outputObserved_cases (c : SessionContext) (bytes : Bytes) (staging : Staging)
    (allocation : ReplayBuffer.Allocation) :
    (∃ acceptance, acceptance ≠ .accepted ∧
      c.outputObserved bytes staging allocation = (acceptance, [], c)) ∨
      c.outputObserved bytes staging allocation = c.retainOutput bytes allocation := by
  unfold SessionContext.outputObserved
  split
  · exact .inl ⟨_, by decide, rfl⟩
  · split
    · exact .inl ⟨_, by decide, rfl⟩
    · exact .inl ⟨_, by decide, rfl⟩
    · exact .inl ⟨_, by decide, rfl⟩
    · exact .inr rfl
    · exact .inr rfl

theorem output_valid {lifetime : SessionLifetime} {s : Observed} (valid : s.Valid lifetime)
    (bytes : Bytes) (staging : Staging) (allocation : ReplayBuffer.Allocation) :
    (s.output bytes staging allocation).Valid lifetime := by
  obtain ⟨w, stream, refines⟩ := valid.ledger
  simp only [output]
  rcases outputObserved_cases s.context bytes staging allocation with
    ⟨acceptance, refused, same⟩ | same
  · rw [same]
    simp only [if_neg refused]
    exact valid
  · rw [same]
    obtain ⟨lifetimes, v, kept, ⟨-, accepted, grown⟩ | ⟨-, closed, unchanged⟩⟩ :=
      retainOutput_refines refines bytes allocation
    · simp only [accepted, if_true]
      refine ⟨lifetimes.trans valid.lifetimes, ⟨v, by rw [grown, stream], kept⟩, ?_⟩
      exact fun id a found => (valid.reads id a found).extend bytes
    · simp only [closed, reduceCtorEq, if_false]
      exact ⟨lifetimes.trans valid.lifetimes, ⟨v, by rw [unchanged, stream], kept⟩, valid.reads⟩

/-- A starting cursor lies within the session's stream. -/
theorem attach_valid {lifetime : SessionLifetime} {s : Observed} (valid : s.Valid lifetime)
    (id : Nat) (position : AttachPosition) : (s.attach id position).Valid lifetime := by
  unfold attach
  split
  · exact valid
  · split
    · exact valid.context (removeWatcher_replay ..)
    · rename_i cursor attached
      refine ⟨valid.lifetimes, valid.ledger, ?_⟩
      intro other a found
      rw [SortedMap.get?_insert] at found
      split at found
      · obtain rfl := Option.some.inj found
        refine ⟨?_, rfl, fun t held => by cases held⟩
        rw [← valid.lifetimes]
        exact attachCursor_lifetime attached
      · exact valid.reads other a found

/-- The pages of a read, in terms of everything produced. -/
theorem read_page {b : ReplayBuffer} {w : Ledger UInt8} (refines : ReplayBuffer.Refines b w)
    {cursor : ReplayCursor} {maxBytes : Nat} {page : ReplayPage}
    (read : b.read cursor maxBytes = .ok page) :
    (cursor.offset < w.floor ∧ page = .gap cursor { cursor with offset := w.floor }) ∨
    (cursor.offset = w.stream.length ∧ page = .pending) ∨
    ∃ next, cursor.offset < next ∧ next ≤ w.stream.length ∧ page = .bytes cursor
      { cursor with offset := next } ((w.stream.take next).drop cursor.offset) := by
  have same := read_lifetime read
  rw [refines.read] at read
  simp only [ReplayBuffer.ledgerRead, ← same, ne_eq, not_true_eq_false, if_false] at read
  split at read
  · cases read
  · split at read
    · cases read
    · split at read
      · rename_i behind
        exact .inl ⟨behind, (Except.ok.inj read).symm⟩
      · split at read
        · rename_i ended
          exact .inr (.inl ⟨ended, (Except.ok.inj read).symm⟩)
        · refine .inr (.inr ⟨_, ?_, Nat.min_le_right _ _, (Except.ok.inj read).symm⟩)
          omega

/-- What a read takes fits the attachment's cursor. -/
theorem takes_piece {lifetime : SessionLifetime} {s : Observed} (valid : s.Valid lifetime)
    {cursor : ReplayCursor} {t : Taken} (taken : s.takes cursor = .ok (some t)) :
    Piece s.stream cursor t := by
  obtain ⟨w, stream, refines⟩ := valid.ledger
  have inside := w.inside
  simp only [takes, SessionContext.read] at taken
  split at taken
  · cases taken
  · cases read : s.context.replay.read cursor s.context.pageBytes with
    | error e => simp [read] at taken
    | ok page =>
      simp only [read] at taken
      rcases read_page refines read with ⟨behind, rfl⟩ | ⟨ended, rfl⟩ | ⟨next, after, within, rfl⟩
      · obtain rfl := Option.some.inj (Except.ok.inj taken)
        refine ⟨rfl, by rw [refines.floor_offset], ?_, ?_⟩
        · rw [refines.floor_offset]
          exact behind
        · rw [refines.floor_offset, ← stream]
          exact inside
      · cases done : s.context.status.completion with
        | none => simp [done] at taken
        | some completion =>
          simp only [done, Option.map_some] at taken
          obtain rfl := Option.some.inj (Except.ok.inj taken)
          exact ⟨by rw [ended, stream], rfl⟩
      · obtain rfl := Option.some.inj (Except.ok.inj taken)
        have size : ((w.stream.take next).drop cursor.offset).length = next - cursor.offset := by
          rw [List.length_drop, List.length_take, Nat.min_eq_left within]
        refine ⟨rfl, ?_, ?_, ?_, ?_⟩
        · rw [size]
          congr 1
          omega
        · rw [← List.length_pos_iff, size]
          omega
        · rw [← stream]
          exact within
        · rw [← stream]

theorem take_valid {lifetime : SessionLifetime} {s : Observed} (valid : s.Valid lifetime)
    (id : Nat) (waker : Option Waker) : (s.take id waker).Valid lifetime := by
  simp only [take]
  split
  · exact valid
  · rename_i a found
    split
    · exact valid
    · split
      · exact valid.context (touchWaker_replay ..)
      · exact valid.context (touchWaker_replay ..)
      · rename_i t taken
        have kept := valid.context (touchWaker_replay s.context id waker false)
        refine ⟨kept.lifetimes, kept.ledger, ?_⟩
        intro other b held
        rw [SortedMap.get?_insert] at held
        split at held
        · obtain rfl := Option.some.inj held
          obtain ⟨lifetimes, tiles, -⟩ := valid.reads id a found
          refine ⟨lifetimes, tiles, ?_⟩
          rintro _ ⟨⟩
          exact takes_piece valid taken
        · exact valid.reads other b held

theorem advance_lifetime {stream : Bytes} {cursor : ReplayCursor} {t : Taken}
    (piece : Piece stream cursor t) :
    (Attachment.advance cursor t.event).lifetime = cursor.lifetime := by
  revert piece
  unfold Piece Attachment.advance
  rcases t.event with (⟨start, stop⟩ | ⟨start, next, payload⟩ | _) | completion
  · rintro ⟨-, rfl, -⟩
    rfl
  · rintro ⟨-, rfl, -⟩
    rfl
  · exact False.elim
  · exact fun _ => rfl

theorem finish_valid {lifetime : SessionLifetime} {s : Observed} (valid : s.Valid lifetime)
    (id : Nat) : (s.finish id).Valid lifetime := by
  simp only [finish]
  split
  · exact valid
  · rename_i a found
    split
    · exact valid
    · rename_i t held
      obtain ⟨lifetimes, tiles, hand⟩ := valid.reads id a found
      have piece := hand t held
      refine ⟨valid.lifetimes, valid.ledger, ?_⟩
      intro other b there
      rw [SortedMap.get?_insert] at there
      split at there
      · obtain rfl := Option.some.inj there
        exact ⟨(advance_lifetime piece).trans lifetimes, tiles.snoc piece,
          fun t none => by cases none⟩
      · exact valid.reads other b there

theorem step_valid {lifetime : SessionLifetime} {s : Observed} (valid : s.Valid lifetime)
    (event : Step) : (s.step event).Valid lifetime := by
  cases event with
  | output bytes staging allocation => exact output_valid valid bytes staging allocation
  | report event => exact valid.context (report_replay ..)
  | otherSessions replayUsed observersUsed => exact valid.context rfl
  | poison => exact valid.context rfl
  | register => exact valid.context (registerWatcher_replay ..)
  | attach id position => exact attach_valid valid id position
  | take id waker => exact take_valid valid id waker
  | finish id => exact finish_valid valid id
  | dropWait id => exact valid.context (clearWaker_replay ..)
  | detach id =>
    have kept := valid.context (removeWatcher_replay s.context id)
    refine ⟨kept.lifetimes, kept.ledger, ?_⟩
    intro other a found
    simp only [step, SortedMap.get?_erase] at found
    split at found
    · cases found
    · exact valid.reads other a found

theorem run_valid {lifetime : SessionLifetime} {s : Observed} (valid : s.Valid lifetime)
    (steps : List Step) : (s.run steps).Valid lifetime := by
  induction steps generalizing s with
  | nil => exact valid
  | cons event rest ih => exact ih (step_valid valid event)

def new (context : SessionContext) : Observed := ⟨context, [], .empty⟩

theorem new_valid (lifetime : SessionLifetime) (replayBytes maxObservers pageBytes : Nat)
    (observers replayQuota : Quota) :
    (new (.new lifetime replayBytes maxObservers pageBytes observers replayQuota)).Valid
      lifetime where
  lifetimes := rfl
  ledger := ⟨.empty, rfl, ReplayBuffer.new_refines lifetime replayBytes⟩
  reads := by
    intro id a found
    cases found

/-- A taken event records the moment it was taken. -/
theorem takes_moment {s : Observed} {cursor : ReplayCursor} {t : Taken}
    (taken : s.takes cursor = .ok (some t)) :
    t.floor = s.context.replay.floor.offset ∧ t.produced = s.stream.length ∧
      t.completion = s.context.status.completion := by
  simp only [takes] at taken
  split at taken
  · cases taken
  · split at taken
    · cases taken
    · cases taken
    · obtain rfl := Option.some.inj (Except.ok.inj taken)
      exact ⟨rfl, rfl, rfl⟩

/-- A read that finds nothing is at the end of the stream of an unfinished session. -/
theorem takes_none {lifetime : SessionLifetime} {s : Observed} (valid : s.Valid lifetime)
    {cursor : ReplayCursor} (pending : s.takes cursor = .ok none) :
    cursor.offset = s.stream.length ∧ s.context.status.completion = none := by
  obtain ⟨w, stream, refines⟩ := valid.ledger
  simp only [takes, SessionContext.read] at pending
  split at pending
  · cases pending
  · cases read : s.context.replay.read cursor s.context.pageBytes with
    | error e => simp [read] at pending
    | ok page =>
      simp only [read] at pending
      rcases read_page refines read with ⟨-, rfl⟩ | ⟨ended, rfl⟩ | ⟨next, -, -, rfl⟩
      · cases pending
      · refine ⟨by rw [ended, stream], ?_⟩
        cases done : s.context.status.completion with
        | none => rfl
        | some completion => simp [done] at pending
      · cases pending

end Observed
end PtyRuntime
