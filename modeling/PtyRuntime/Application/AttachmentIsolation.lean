import PtyRuntime.Application.AttachmentLaws

/-! Attachments do not influence each other. A read changes its own attachment and
the wakers of watchers; nothing an attachment receives depends on either. -/
namespace PtyRuntime

namespace SessionContext

/-- The context without the wakers registered in it. -/
def forget (c : SessionContext) : SessionContext :=
  { c with watchers := c.watchers.mapValues fun _ _ => none }

theorem forget_watchers (c : SessionContext) (f : Nat → Option Waker → Option Waker) :
    ({ c with watchers := c.watchers.mapValues f } : SessionContext).forget = c.forget := by
  simp only [forget, SortedMap.mapValues_mapValues]

theorem forget_forget (c : SessionContext) : c.forget.forget = c.forget := forget_watchers c _

theorem registerWatcher_forget (c : SessionContext) :
    c.registerWatcher.2.forget = c.forget.registerWatcher.2.forget := by
  simp only [registerWatcher]
  have quota : c.forget.observers = c.observers := rfl
  have length : c.forget.watchers.entries.length = c.watchers.entries.length :=
    SortedMap.length_mapValues _ _
  have poisoned : c.forget.poisoned = c.poisoned := rfl
  have next : c.forget.nextWatcher = c.nextWatcher := rfl
  have most : c.forget.maxObservers = c.maxObservers := rfl
  rw [quota, length, poisoned, next, most]
  split
  · exact (forget_forget c).symm
  · split
    · exact (forget_watchers ..).symm
    · split
      · exact (forget_watchers ..).symm
      · split
        · exact (forget_watchers ..).symm
        · simp only [forget, SortedMap.mapValues_insert, SortedMap.mapValues_mapValues]

theorem removeWatcher_forget (c : SessionContext) (id : Nat) :
    (c.removeWatcher id).forget = (c.forget.removeWatcher id).forget := by
  simp only [removeWatcher]
  have known : (c.forget.watchers.get? id).isNone = (c.watchers.get? id).isNone := by
    simp only [forget, SortedMap.get?_mapValues, Option.isNone_map]
  have poisoned : c.forget.poisoned = c.poisoned := rfl
  rw [known, poisoned]
  split
  · exact (forget_forget c).symm
  · simp only [forget, SortedMap.mapValues_erase, SortedMap.mapValues_mapValues]

theorem report_forget (c : SessionContext) (event : SessionStatus.Report) :
    (c.report event).2.forget = (c.forget.report event).2.forget := by
  simp only [report]
  have poisoned : c.forget.poisoned = c.poisoned := rfl
  rw [poisoned]
  split
  · exact (forget_forget c).symm
  · split
    · exact (forget_watchers ..).symm
    · simp only [takeWakers, forget, SortedMap.mapValues_mapValues]

theorem retainOutput_forget (c : SessionContext) (bytes : Bytes)
    (allocation : ReplayBuffer.Allocation) :
    (c.retainOutput bytes allocation).1 = (c.forget.retainOutput bytes allocation).1 ∧
      (c.retainOutput bytes allocation).2.2.forget =
        (c.forget.retainOutput bytes allocation).2.2.forget := by
  simp only [retainOutput]
  have replay : c.forget.replay = c.replay := rfl
  have quota : c.forget.replayQuota = c.replayQuota := rfl
  have limit : c.forget.replayBytes = c.replayBytes := rfl
  rw [replay, quota, limit]
  split
  · exact ⟨rfl, (forget_watchers ..).symm⟩
  · simp only [takeWakers, forget, SortedMap.mapValues_mapValues, and_self]

theorem outputObserved_forget (c : SessionContext) (bytes : Bytes) (staging : Staging)
    (allocation : ReplayBuffer.Allocation) :
    (c.outputObserved bytes staging allocation).1 =
        (c.forget.outputObserved bytes staging allocation).1 ∧
      (c.outputObserved bytes staging allocation).2.2.forget =
        (c.forget.outputObserved bytes staging allocation).2.2.forget := by
  simp only [outputObserved]
  have poisoned : c.forget.poisoned = c.poisoned := rfl
  rw [poisoned]
  split
  · exact ⟨rfl, (forget_forget c).symm⟩
  · split
    · exact ⟨rfl, (forget_forget c).symm⟩
    · exact ⟨rfl, (forget_forget c).symm⟩
    · exact ⟨rfl, (forget_forget c).symm⟩
    · exact retainOutput_forget c bytes allocation
    · exact retainOutput_forget c bytes allocation

theorem clearWaker_forget (c : SessionContext) (id : Nat) : (c.clearWaker id).forget = c.forget := by
  simp only [clearWaker]
  split
  · rfl
  · exact forget_watchers c _

end SessionContext

namespace Observed

theorem touchWaker_forget (c : SessionContext) (id : Nat) (waker : Option Waker) (pending : Bool) :
    (touchWaker c id waker pending).forget = c.forget := by
  unfold touchWaker
  split
  · rfl
  · exact SessionContext.forget_watchers c _

/-- The same session up to registered wakers and to what the attachments other
than `id` have read. -/
structure Agree (id : Nat) (s t : Observed) : Prop where
  context : s.context.forget = t.context.forget
  stream : s.stream = t.stream
  present : ∀ k, (s.attachments.get? k).isSome = (t.attachments.get? k).isSome
  mine : s.attachments.get? id = t.attachments.get? id

theorem Agree.refl (id : Nat) (s : Observed) : Agree id s s := ⟨rfl, rfl, fun _ => rfl, rfl⟩

theorem Agree.trans {id : Nat} {s t u : Observed} (first : Agree id s t) (second : Agree id t u) :
    Agree id s u :=
  ⟨first.context.trans second.context, first.stream.trans second.stream,
    fun k => (first.present k).trans (second.present k), first.mine.trans second.mine⟩

theorem Agree.poisoned {id : Nat} {s t : Observed} (agree : Agree id s t) :
    s.context.poisoned = t.context.poisoned :=
  congrArg (·.poisoned) agree.context

theorem Agree.takes {id : Nat} {s t : Observed} (agree : Agree id s t) (cursor : ReplayCursor) :
    s.takes cursor = t.takes cursor := by
  have forgotten (u : Observed) : u.takes cursor =
      ({ u with context := u.context.forget } : Observed).takes cursor := rfl
  rw [forgotten s, forgotten t, agree.context]
  simp only [Observed.takes, agree.stream]

/-- A step by which another attachment reads. -/
def Step.readsOther (id : Nat) : Step → Bool
  | .take other _ => other ≠ id
  | .finish other => other ≠ id
  | .dropWait other => other ≠ id
  | _ => false

theorem isSome_insert {α : Type} (m : SortedMap Nat α) {k : Nat} (v : α) {old : α}
    (found : m.get? k = some old) (j : Nat) :
    ((m.insert k v).get? j).isSome = (m.get? j).isSome := by
  rw [SortedMap.get?_insert]
  split
  · rename_i same
    rw [same, found]
    rfl
  · rfl

/-- A read by another attachment changes nothing this one depends on. -/
theorem step_readsOther {id : Nat} {event : Step} (reads : event.readsOther id = true)
    (s : Observed) : Agree id (s.step event) s := by
  cases event with
  | take other waker =>
    have apart : id ≠ other := by
      rintro rfl
      simp [Step.readsOther] at reads
    simp only [step, take]
    split
    · exact .refl id s
    · rename_i a found
      split
      · exact .refl id s
      · split
        · exact ⟨touchWaker_forget .., rfl, fun _ => rfl, rfl⟩
        · exact ⟨touchWaker_forget .., rfl, fun _ => rfl, rfl⟩
        · refine ⟨touchWaker_forget .., rfl, isSome_insert _ _ found, ?_⟩
          rw [SortedMap.get?_insert, if_neg apart]
  | finish other =>
    have apart : id ≠ other := by
      rintro rfl
      simp [Step.readsOther] at reads
    simp only [step, finish]
    split
    · exact .refl id s
    · rename_i a found
      split
      · exact .refl id s
      · refine ⟨rfl, rfl, isSome_insert _ _ found, ?_⟩
        rw [SortedMap.get?_insert, if_neg apart]
  | dropWait other => exact ⟨SessionContext.clearWaker_forget .., rfl, fun _ => rfl, rfl⟩
  | _ => cases reads

theorem Agree.forgetting {id : Nat} {s t : Observed} (agree : Agree id s t)
    {f : SessionContext → SessionContext}
    (blind : ∀ c : SessionContext, (f c).forget = (f c.forget).forget) :
    (f s.context).forget = (f t.context).forget := by
  rw [blind s.context, blind t.context, agree.context]

theorem Agree.inserted {id : Nat} {s t : Observed} (agree : Agree id s t) (other : Nat)
    (a : Attachment) (k : Nat) :
    ((s.attachments.insert other a).get? k).isSome =
      ((t.attachments.insert other a).get? k).isSome := by
  simp only [SortedMap.get?_insert]
  split
  · rfl
  · exact agree.present k

theorem attach_agree {id : Nat} {s t : Observed} (agree : Agree id s t) (other : Nat)
    (position : AttachPosition) : Agree id (s.attach other position) (t.attach other position) := by
  have registered : (s.context.watchers.get? other).isNone =
      (t.context.watchers.get? other).isNone := by
    have kept (c : SessionContext) :
        (c.forget.watchers.get? other).isNone = (c.watchers.get? other).isNone := by
      simp only [SessionContext.forget, SortedMap.get?_mapValues, Option.isNone_map]
    rw [← kept s.context, ← kept t.context, agree.context]
  have cursors : s.context.attachCursor position = t.context.attachCursor position := by
    have forgotten (c : SessionContext) :
        c.attachCursor position = c.forget.attachCursor position := rfl
    rw [forgotten s.context, forgotten t.context, agree.context]
  simp only [attach]
  rw [registered, agree.present other, cursors]
  split
  · exact agree
  · split
    · exact ⟨agree.forgetting (SessionContext.removeWatcher_forget · other), agree.stream,
        agree.present, agree.mine⟩
    · refine ⟨agree.context, agree.stream, agree.inserted _ _, ?_⟩
      simp only [SortedMap.get?_insert, agree.mine]

/-- Agreement is kept by every step that is not another attachment's read. -/
theorem step_agree {id : Nat} {s t : Observed} (agree : Agree id s t) {event : Step}
    (own : event.readsOther id = false) : Agree id (s.step event) (t.step event) := by
  cases event with
  | output bytes staging allocation =>
    have same (c : SessionContext) := c.outputObserved_forget bytes staging allocation
    have verdict : (s.context.outputObserved bytes staging allocation).1 =
        (t.context.outputObserved bytes staging allocation).1 := by
      rw [(same s.context).1, (same t.context).1, agree.context]
    refine ⟨?_, ?_, agree.present, agree.mine⟩
    · exact agree.forgetting fun c => (same c).2
    · simp only [step, output, verdict, agree.stream]
  | report event =>
    exact ⟨agree.forgetting (SessionContext.report_forget · event), agree.stream, agree.present,
      agree.mine⟩
  | otherSessions replayUsed observersUsed =>
    refine ⟨?_, agree.stream, agree.present, agree.mine⟩
    exact agree.forgetting (f := fun c => { c with
      replayQuota := { c.replayQuota with used := replayUsed }
      observers := { c.observers with used := observersUsed } })
      fun c => (SessionContext.forget_watchers ..).symm
  | poison =>
    refine ⟨?_, agree.stream, agree.present, agree.mine⟩
    exact agree.forgetting (f := fun c => { c with poisoned := true })
      fun c => (SessionContext.forget_watchers ..).symm
  | register =>
    exact ⟨agree.forgetting SessionContext.registerWatcher_forget, agree.stream, agree.present,
      agree.mine⟩
  | attach other position => exact attach_agree agree other position
  | take other waker =>
    obtain rfl : other = id := by simpa [Step.readsOther] using own
    simp only [step, take]
    rw [← agree.mine]
    split
    · exact agree
    · rename_i a found
      rw [← agree.poisoned, ← agree.takes a.cursor]
      have touched (pending : Bool) : (touchWaker s.context other waker pending).forget =
          (touchWaker t.context other waker pending).forget := by
        rw [touchWaker_forget, touchWaker_forget]
        exact agree.context
      split
      · exact agree
      · split
        · exact ⟨touched false, agree.stream, agree.present, agree.mine⟩
        · exact ⟨touched true, agree.stream, agree.present, agree.mine⟩
        · refine ⟨touched false, agree.stream, agree.inserted _ _, ?_⟩
          simp only [SortedMap.get?_insert, if_true]
  | finish other =>
    obtain rfl : other = id := by simpa [Step.readsOther] using own
    simp only [step, finish]
    rw [← agree.mine]
    split
    · exact agree
    · split
      · exact agree
      · refine ⟨agree.context, agree.stream, agree.inserted _ _, ?_⟩
        simp only [SortedMap.get?_insert, if_true]
  | dropWait other =>
    refine ⟨?_, agree.stream, agree.present, agree.mine⟩
    rw [step, step, SessionContext.clearWaker_forget, SessionContext.clearWaker_forget]
    exact agree.context
  | detach other =>
    refine ⟨agree.forgetting (SessionContext.removeWatcher_forget · other), agree.stream, ?_, ?_⟩
    · intro k
      simp only [step, SortedMap.get?_erase]
      split
      · rfl
      · exact agree.present k
    · simp only [step, SortedMap.get?_erase, agree.mine]

/-- Leaving out the reads of all other attachments does not change what one
attachment has received, holds and will read next. -/
theorem run_without_other_reads (id : Nat) (s : Observed) (steps : List Step) :
    Agree id (s.run steps) (s.run (steps.filter (!·.readsOther id))) := by
  suffices general : ∀ t, Agree id s t →
      Agree id (s.run steps) (t.run (steps.filter (!·.readsOther id))) from general s (.refl id s)
  induction steps generalizing s with
  | nil => exact fun t agree => agree
  | cons event rest ih =>
    intro t agree
    cases other : event.readsOther id with
    | true =>
      rw [List.filter_cons_of_neg (by simp [other])]
      exact ih _ _ ((step_readsOther other s).trans agree)
    | false =>
      rw [List.filter_cons_of_pos (by simp [other])]
      exact ih _ _ (step_agree agree other)

/-- For any interleaving of callbacks and reads: an attachment's events tile the
session's stream from its starting cursor to its cursor, so every position in
between is covered by exactly one page or gap; a read takes an event that continues
at the cursor, or finds nothing only at the end of an unfinished session; a read
without an event and a dropped wait leave the attachment as it was; and leaving out
the other attachments' reads changes nothing about it. -/
theorem attachment_stream_law (lifetime : SessionLifetime)
    (replayBytes maxObservers pageBytes : Nat) (observers replayQuota : Quota)
    (steps : List Step) (id : Nat) :
    let start := new (.new lifetime replayBytes maxObservers pageBytes observers replayQuota)
    let s := start.run steps
    (∀ a, s.attachments.get? id = some a →
      Tiles s.stream a.start a.received a.cursor ∧
      (∀ position, a.start.offset ≤ position → position < a.cursor.offset →
        ∃! index : Nat, ∃ t : Taken, a.received[index]? = some t ∧ t.Covers position) ∧
      (∀ t, a.hand = some t → Piece s.stream a.cursor t) ∧
      (∀ t, s.takes a.cursor = .ok (some t) → Piece s.stream a.cursor t ∧
        t.floor = s.context.replay.floor.offset ∧ t.produced = s.stream.length ∧
        t.completion = s.context.status.completion) ∧
      (s.takes a.cursor = .ok none →
        a.cursor.offset = s.stream.length ∧ s.context.status.completion = none) ∧
      (∀ waker, (∀ t, s.takes a.cursor ≠ .ok (some t)) →
        (s.step (.take id waker)).attachments.get? id = some a) ∧
      (s.step (.dropWait id)).attachments.get? id = some a) ∧
    s.attachments.get? id =
      (start.run (steps.filter (!·.readsOther id))).attachments.get? id := by
  intro start s
  have valid : s.Valid lifetime := run_valid (new_valid ..) steps
  refine ⟨?_, (run_without_other_reads id start steps).mine⟩
  intro a found
  obtain ⟨lifetimes, tiles, hand⟩ := valid.reads id a found
  refine ⟨tiles, fun position => tiles.covered_once, hand, ?_, takes_none valid, ?_, found⟩
  · intro t taken
    exact ⟨takes_piece valid taken, takes_moment taken⟩
  · intro waker nothing
    simp only [step, take, found]
    split
    · exact found
    · split
      · exact found
      · exact found
      · rename_i t taken
        exact absurd taken (nothing t)

end Observed
end PtyRuntime
