import PtyRuntime.Application.AttachmentLaws

/-! An attachment with one owner. Only the owner's reads change it, and what they
hand over fits the page size and the position of the attachment. -/
namespace PtyRuntime

/-- The cursor behind a sequence of events. -/
def position (start : ReplayCursor) (events : List Taken) : ReplayCursor :=
  events.foldl (fun cursor t => Attachment.advance cursor t.event) start

theorem position_snoc (start : ReplayCursor) (events : List Taken) (t : Taken) :
    position start (events ++ [t]) = Attachment.advance (position start events) t.event :=
  List.foldl_concat ..

theorem Tiles.take {stream : Bytes} {start stop : ReplayCursor} {events : List Taken}
    (tiles : Tiles stream start events stop) (count : Nat) :
    Tiles stream start (events.take count) (position start (events.take count)) := by
  induction count generalizing start events with
  | zero => rfl
  | succ count ih =>
    cases events with
    | nil => rfl
    | cons t rest => exact ⟨tiles.1, ih tiles.2⟩

theorem Tiles.piece {stream : Bytes} {start stop : ReplayCursor} {events : List Taken}
    (tiles : Tiles stream start events stop) {k : Nat} {t : Taken} (found : events[k]? = some t) :
    Piece stream (position start (events.take k)) t := by
  induction k generalizing start events with
  | zero =>
    cases events with
    | nil => cases found
    | cons first rest =>
      obtain rfl := Option.some.inj found
      exact tiles.1
  | succ k ih =>
    cases events with
    | nil => cases found
    | cons first rest => exact ih tiles.2 found

theorem Tiles.lifetime_eq {stream : Bytes} {start stop : ReplayCursor} {events : List Taken}
    (tiles : Tiles stream start events stop) : stop.lifetime = start.lifetime := by
  induction events generalizing start with
  | nil => exact congrArg ReplayCursor.lifetime tiles.symm
  | cons t rest ih => exact (ih tiles.2).trans (Observed.advance_lifetime tiles.1)

/-- Limits on one event that the session's reads keep: the page size, and that a
completion is the completion of its own status. -/
structure Taken.Sound (pageBytes : Nat) (t : Taken) : Prop where
  page : ∀ first next bytes, t.event = .replay (.bytes first next bytes) → bytes.length ≤ pageBytes
  finished : ∀ completion, t.event = .complete completion →
    completion.status.completion = some completion

theorem ReplayBuffer.read_bytes_le {b : ReplayBuffer} {cursor first next : ReplayCursor}
    {maxBytes : Nat} {bytes : Bytes}
    (page : b.read cursor maxBytes = .ok (.bytes first next bytes)) : bytes.length ≤ maxBytes := by
  unfold ReplayBuffer.read at page
  split at page
  · cases page
  split at page
  · cases page
  split at page
  · cases page
  split at page
  · cases page
  split at page
  · cases page
  · cases page
    exact List.length_take_le ..

theorem SessionContext.read_bytes_le {c : SessionContext} {cursor first next : ReplayCursor}
    {bytes : Bytes} (page : c.read cursor = .ok (some (.replay (.bytes first next bytes)))) :
    bytes.length ≤ c.pageBytes := by
  unfold SessionContext.read at page
  split at page
  · cases page
  · cases done : c.status.completion with
    | none => simp [done] at page
    | some completion => simp [done] at page
  · rename_i read
    cases page
    exact ReplayBuffer.read_bytes_le read

theorem SessionContext.read_complete {c : SessionContext} {cursor : ReplayCursor}
    {completion : Completion} (event : c.read cursor = .ok (some (.complete completion))) :
    completion.status.completion = some completion := by
  unfold SessionContext.read at event
  split at event
  · cases event
  · cases done : c.status.completion with
    | none => simp [done] at event
    | some known =>
      simp only [done, Option.map_some, Except.ok.injEq, Option.some.injEq,
        OutputEvent.complete.injEq] at event
      obtain ⟨-, -, same⟩ := SessionStatus.completion_eq_some.mp done
      subst same
      rw [← event]
      exact done
  · cases event

namespace Observed

theorem takes_event {s : Observed} {cursor : ReplayCursor} {t : Taken}
    (taken : s.takes cursor = .ok (some t)) : s.context.read cursor = .ok (some t.event) := by
  simp only [takes] at taken
  split at taken
  · cases taken
  · split at taken
    · cases taken
    · cases taken
    · rename_i read
      obtain rfl := Option.some.inj (Except.ok.inj taken)
      exact read

theorem takes_sound {s : Observed} {cursor : ReplayCursor} {t : Taken}
    (taken : s.takes cursor = .ok (some t)) : t.Sound s.context.pageBytes := by
  have read := takes_event taken
  constructor
  · intro first next bytes page
    rw [page] at read
    exact SessionContext.read_bytes_le read
  · intro completion event
    rw [event] at read
    exact SessionContext.read_complete read

theorem touchWaker_pageBytes (c : SessionContext) (id : Nat) (waker : Option Waker) (pending : Bool) :
    (touchWaker c id waker pending).pageBytes = c.pageBytes := by
  cases waker <;> rfl

theorem removeWatcher_pageBytes (c : SessionContext) (id : Nat) :
    (c.removeWatcher id).pageBytes = c.pageBytes := by
  unfold SessionContext.removeWatcher
  split <;> rfl

theorem clearWaker_pageBytes (c : SessionContext) (id : Nat) :
    (c.clearWaker id).pageBytes = c.pageBytes := by
  unfold SessionContext.clearWaker
  split <;> rfl

theorem registerWatcher_pageBytes (c : SessionContext) :
    c.registerWatcher.2.pageBytes = c.pageBytes := by
  unfold SessionContext.registerWatcher
  split
  · rfl
  split
  · rfl
  split
  · rfl
  split <;> rfl

theorem report_pageBytes (c : SessionContext) (event : SessionStatus.Report) :
    (c.report event).2.pageBytes = c.pageBytes := by
  unfold SessionContext.report
  split
  · rfl
  · dsimp only
    split <;> rfl

theorem outputObserved_pageBytes (c : SessionContext) (bytes : Bytes) (staging : Staging)
    (allocation : ReplayBuffer.Allocation) :
    (c.outputObserved bytes staging allocation).2.2.pageBytes = c.pageBytes := by
  rcases outputObserved_cases c bytes staging allocation with ⟨_, -, same⟩ | same
  · rw [same]
  · rw [same]
    unfold SessionContext.retainOutput
    dsimp only
    split <;> rfl

theorem take_pageBytes (s : Observed) (id : Nat) (waker : Option Waker) :
    (s.take id waker).context.pageBytes = s.context.pageBytes := by
  unfold take
  split
  · rfl
  split
  · rfl
  split <;> exact touchWaker_pageBytes ..

theorem finish_context (s : Observed) (id : Nat) : (s.finish id).context = s.context := by
  unfold finish
  split
  · rfl
  split <;> rfl

theorem step_pageBytes (s : Observed) (event : Step) :
    (s.step event).context.pageBytes = s.context.pageBytes := by
  cases event with
  | output bytes staging allocation => exact outputObserved_pageBytes ..
  | report event => exact report_pageBytes ..
  | otherSessions replayUsed observersUsed => rfl
  | poison => rfl
  | register => exact registerWatcher_pageBytes ..
  | attach id position =>
    simp only [step, attach]
    split
    · rfl
    split
    · exact removeWatcher_pageBytes ..
    · rfl
  | take id waker => exact take_pageBytes ..
  | finish id => exact congrArg SessionContext.pageBytes (finish_context ..)
  | dropWait id => exact clearWaker_pageBytes ..
  | detach id => exact removeWatcher_pageBytes ..

theorem run_pageBytes (s : Observed) (steps : List Step) :
    (s.run steps).context.pageBytes = s.context.pageBytes := by
  induction steps generalizing s with
  | nil => rfl
  | cons event rest ih => exact (ih (s.step event)).trans (step_pageBytes s event)

/-- Output only ever grows at its end. -/
theorem step_stream (s : Observed) (event : Step) :
    ∃ more, (s.step event).stream = s.stream ++ more := by
  have kept : ∀ t : Observed, t.stream = s.stream → ∃ more, t.stream = s.stream ++ more :=
    fun t same => ⟨[], by rw [same, List.append_nil]⟩
  cases event with
  | output bytes staging allocation =>
    simp only [step, output]
    split
    · exact ⟨bytes, rfl⟩
    · exact kept _ rfl
  | report event => exact kept _ rfl
  | otherSessions replayUsed observersUsed => exact kept _ rfl
  | poison => exact kept _ rfl
  | register => exact kept _ rfl
  | attach id position =>
    refine kept _ ?_
    simp only [step, attach]
    split
    · rfl
    split <;> rfl
  | take id waker =>
    refine kept _ ?_
    simp only [step, take]
    split
    · rfl
    split
    · rfl
    split <;> rfl
  | finish id =>
    refine kept _ ?_
    simp only [step, finish]
    split
    · rfl
    split <;> rfl
  | dropWait id => exact kept _ rfl
  | detach id => exact kept _ rfl

theorem take_spares (s : Observed) {id watcher : Nat} (other : id ≠ watcher) (waker : Option Waker) :
    (s.take id waker).attachments.get? watcher = s.attachments.get? watcher := by
  unfold take
  split
  · rfl
  split
  · rfl
  split
  · rfl
  · rfl
  · rw [SortedMap.get?_insert, if_neg (Ne.symm other)]

theorem finish_spares (s : Observed) {id watcher : Nat} (other : id ≠ watcher) :
    (s.finish id).attachments.get? watcher = s.attachments.get? watcher := by
  unfold finish
  split
  · rfl
  split
  · rfl
  · rw [SortedMap.get?_insert, if_neg (Ne.symm other)]

theorem attach_spares (s : Observed) {id watcher : Nat} (other : id ≠ watcher)
    (position : AttachPosition) :
    (s.attach id position).attachments.get? watcher = s.attachments.get? watcher := by
  unfold attach
  split
  · rfl
  split
  · rfl
  · rw [SortedMap.get?_insert, if_neg (Ne.symm other)]

theorem step_spares (s : Observed) {watcher : Nat} {event : Step}
    (spared : event.spares watcher = true) :
    (s.step event).attachments.get? watcher = s.attachments.get? watcher := by
  cases event with
  | output bytes staging allocation => rfl
  | report event => rfl
  | otherSessions replayUsed observersUsed => rfl
  | poison => rfl
  | register => rfl
  | attach id position => exact attach_spares s (of_decide_eq_true spared) position
  | take id waker => exact take_spares s (of_decide_eq_true spared) waker
  | finish id => exact finish_spares s (of_decide_eq_true spared)
  | dropWait id => rfl
  | detach id =>
    have other : id ≠ watcher := of_decide_eq_true spared
    exact (SortedMap.get?_erase ..).trans (if_neg (Ne.symm other))

/-- What an attachment holds after its own read. -/
theorem take_own {s : Observed} {id : Nat} {a : Attachment} (waker : Option Waker)
    (found : s.attachments.get? id = some a) :
    (s.take id waker).attachments.get? id = some a ∨
      ∃ t, s.takes a.cursor = .ok (some t) ∧
        (s.take id waker).attachments.get? id = some { a with hand := some t } := by
  unfold take
  rw [found]
  dsimp only
  split
  · exact .inl found
  · split
    · exact .inl found
    · exact .inl found
    · rename_i t taken
      refine .inr ⟨t, taken, ?_⟩
      rw [SortedMap.get?_insert, if_pos rfl]

theorem finish_own {s : Observed} {id : Nat} {a : Attachment} {t : Taken}
    (found : s.attachments.get? id = some a) (held : a.hand = some t) :
    (s.finish id).attachments.get? id = some { a with
      cursor := Attachment.advance a.cursor t.event
      hand := none
      received := a.received ++ [t] } := by
  simp only [finish, found, held, SortedMap.get?_insert, if_true]

end Observed

end PtyRuntime
