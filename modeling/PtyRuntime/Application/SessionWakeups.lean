import PtyRuntime.Application.AttachmentLaws

/-! Completion waits beside the attachments of a session, and the wakers of both. A
waker stays registered only while what its watcher waits for is still missing. -/
namespace PtyRuntime

namespace SessionContext

/-- The locked part of polling a completion wait. -/
def pollCompletion (c : SessionContext) (id : Nat) (waker : Waker) :
    Except RuntimeError (Option Completion) × SessionContext :=
  if c.poisoned then (.error .internal, c)
  else
    (.ok c.status.completion,
      c.setWaker id (if c.status.completion.isNone then some waker else none))

/-- A read at this cursor finds no page, gap or completion. -/
def Pending (c : SessionContext) (cursor : ReplayCursor) : Prop := c.read cursor = .ok none

def Stored (c : SessionContext) (id : Nat) (waker : Waker) : Prop :=
  c.watchers.get? id = some (some waker)

theorem pending_iff {c : SessionContext} {cursor : ReplayCursor} :
    c.Pending cursor ↔ cursor.lifetime = c.replay.lifetime ∧ c.pageBytes ≠ 0 ∧
      cursor.offset = c.replay.endOffset ∧ c.status.completion = none := by
  unfold Pending read ReplayBuffer.read ReplayBuffer.floor
  split_ifs with foreign future page behind caughtUp
  · simp [foreign]
  · simp only [false_iff]
    omega
  · simp [page]
  · simp only [Except.ok.injEq, reduceCtorEq, false_iff]
    simp only at behind
    omega
  · simp only [not_not] at foreign
    simp [foreign, page, caughtUp]
  · simp [caughtUp]

/-- Nothing a read at the end of the stream depends on has changed. -/
structure Quiet (c c' : SessionContext) : Prop where
  lifetime : c'.replay.lifetime = c.replay.lifetime
  endOffset : c'.replay.endOffset = c.replay.endOffset
  pageBytes : c'.pageBytes = c.pageBytes
  completion : c'.status.completion = none ↔ c.status.completion = none
  poisoned : c.poisoned = true → c'.poisoned = true
  nextWatcher : c.nextWatcher ≤ c'.nextWatcher

theorem Quiet.refl (c : SessionContext) : Quiet c c := ⟨rfl, rfl, rfl, Iff.rfl, id, Nat.le_refl _⟩

theorem Quiet.pending {c c' : SessionContext} (quiet : Quiet c c') {cursor : ReplayCursor}
    (pending : c.Pending cursor) : c'.Pending cursor := by
  rw [pending_iff] at pending ⊢
  rw [quiet.lifetime, quiet.endOffset, quiet.pageBytes, quiet.completion]
  exact pending

/-- Every registered waker was taken to be woken. -/
structure Notifies (c : SessionContext) (woken : List Waker) (c' : SessionContext) : Prop where
  woken : ∀ id waker, c.Stored id waker → waker ∈ woken
  taken : ∀ id waker, ¬ c'.Stored id waker
  kept : ∀ id, (c'.watchers.get? id).isSome = (c.watchers.get? id).isSome

/-- Nobody was woken, and nobody needed to be. -/
structure Silent (c : SessionContext) (woken : List Waker) (c' : SessionContext) : Prop where
  woken : woken = []
  quiet : Quiet c c'
  watchers : c'.watchers = c.watchers

theorem Silent.stored {c c' : SessionContext} {woken : List Waker} (silent : Silent c woken c')
    {id : Nat} {waker : Waker} (stored : c'.Stored id waker) : c.Stored id waker := by
  unfold Stored at stored ⊢
  rw [← silent.watchers]
  exact stored

theorem takeWakers_notifies {c d : SessionContext} (same : d.watchers = c.watchers) :
    Notifies c d.takeWakers.1 d.takeWakers.2 where
  woken id waker stored := by
    simp only [takeWakers, same, List.mem_filterMap]
    exact ⟨(id, some waker), SortedMap.mem_of_get? stored, rfl⟩
  taken id waker := by
    simp only [Stored, takeWakers, SortedMap.get?_mapValues]
    cases d.watchers.get? id <;> simp
  kept id := by
    simp only [takeWakers, SortedMap.get?_mapValues, same, Option.isSome_map]

theorem outputObserved_wakes (c : SessionContext) (bytes : Bytes) (staging : Staging)
    (allocation : ReplayBuffer.Allocation) :
    let after := c.outputObserved bytes staging allocation
    Notifies c after.2.1 after.2.2 ∨ Silent c after.2.1 after.2.2 := by
  rcases Observed.outputObserved_cases c bytes staging allocation with ⟨_, -, same⟩ | same
  · rw [same]
    exact .inr ⟨rfl, .refl c, rfl⟩
  · rw [same]
    unfold retainOutput
    have stream : (admitReplay c.replay c.replayQuota c.replayBytes bytes.length
        allocation).1.lifetime = c.replay.lifetime ∧
        (admitReplay c.replay c.replayQuota c.replayBytes bytes.length
          allocation).1.endOffset = c.replay.endOffset := by
      rcases Observed.admitReplay_cases c.replay c.replayQuota c.replayBytes bytes.length allocation
        with ⟨allocated, kept⟩ | released
      · rw [kept]
        exact ⟨rfl, rfl⟩
      · rw [released]
        exact ⟨rfl, rfl⟩
    rcases admitted : admitReplay c.replay c.replayQuota c.replayBytes bytes.length allocation
      with ⟨replay, quota⟩
    rw [admitted] at stream
    simp only
    cases sum : checkedAdd replay.endOffset bytes.length with
    | none =>
      simp only [ReplayBuffer.appendWithLimit, sum]
      exact .inr ⟨rfl, ⟨stream.1, stream.2, rfl, Iff.rfl, id, Nat.le_refl _⟩, rfl⟩
    | some endOffset =>
      simp only [ReplayBuffer.appendWithLimit, sum]
      exact .inl (takeWakers_notifies rfl)

/-- A cancellation is durable intent only; it completes nothing. -/
theorem completion_cancel (s : SessionStatus) :
    (s.report .cancel).completion = none ↔ s.completion = none := by
  simp only [SessionStatus.report, SessionStatus.admitCancel]
  split
  · rfl
  · simp [SessionStatus.completion]

theorem report_wakes (c : SessionContext) (event : SessionStatus.Report) :
    Notifies c (c.report event).1 (c.report event).2 ∨
      Silent c (c.report event).1 (c.report event).2 := by
  unfold report
  split
  · exact .inr ⟨rfl, .refl c, rfl⟩
  · simp only
    split
    · rename_i cancelled
      subst cancelled
      exact .inr ⟨rfl, ⟨rfl, rfl, rfl, completion_cancel c.status, id, Nat.le_refl _⟩, rfl⟩
    · exact .inl (takeWakers_notifies rfl)

end SessionContext

/-- A session with its attachments and its completion waits, by watcher. -/
structure Watched where
  observed : Observed
  waits : SortedMap Nat Unit

/-- The watcher a step is made by or for. -/
def Observed.Step.watcher? : Observed.Step → Option Nat
  | .attach id _ | .take id _ | .finish id | .dropWait id | .detach id => some id
  | .output .. | .report _ | .otherSessions .. | .poison | .register => none

namespace Watched

/-- `wait` is `Session::wait`; a poll and a drop belong to a completion wait. -/
inductive Step where
  | session (step : Observed.Step)
  | wait
  | pollWait (id : Nat) (waker : Waker)
  | dropWait (id : Nat)

def new (lifetime : SessionLifetime) (replayBytes maxObservers pageBytes : Nat)
    (observers replayQuota : Quota) : Watched where
  observed := {
    context := .new lifetime replayBytes maxObservers pageBytes observers replayQuota
    stream := []
    attachments := .empty }
  waits := .empty

def withContext (s : Watched) (context : SessionContext) : Watched :=
  { s with observed := { s.observed with context } }

/-- Attachments and completion waits own their watchers, so a step of one never names a
watcher of the other. -/
def step (s : Watched) : Step → Watched
  | .session step =>
    if step.watcher?.any fun id => (s.waits.get? id).isSome then s
    else { s with observed := s.observed.step step }
  | .wait =>
    match s.observed.context.registerWatcher with
    | (.error _, context) => s.withContext context
    | (.ok id, context) => { s.withContext context with waits := s.waits.insert id () }
  | .pollWait id waker =>
    if (s.waits.get? id).isNone then s
    else s.withContext (s.observed.context.pollCompletion id waker).2
  | .dropWait id =>
    if (s.waits.get? id).isNone then s
    else { s.withContext (s.observed.context.removeWatcher id) with waits := s.waits.erase id }

def run (s : Watched) (steps : List Step) : Watched := steps.foldl step s

/-- The wakers a step takes to wake them. -/
def woken (s : Watched) : Step → List Waker
  | .session (.output bytes staging allocation) =>
    (s.observed.context.outputObserved bytes staging allocation).2.1
  | .session (.report event) => (s.observed.context.report event).1
  | _ => []

/-- What the watcher waits for is still missing. -/
structure Waiting (s : Watched) (id : Nat) : Prop where
  attachment : ∀ a, s.observed.attachments.get? id = some a →
    a.hand = none ∧ s.observed.context.Pending a.cursor
  completion : (s.waits.get? id).isSome = true → s.observed.context.status.completion = none

/-- Registered wakers belong to watchers that are still waiting, and to somebody. -/
structure Valid (s : Watched) : Prop where
  waiting : ∀ id waker, s.observed.context.Stored id waker → s.Waiting id
  owned : ∀ id waker, s.observed.context.Stored id waker →
    s.observed.context.poisoned = true ∨ (s.observed.attachments.get? id).isSome = true ∨
      (s.waits.get? id).isSome = true
  issued : ∀ id, s.observed.context.nextWatcher ≤ id →
    s.observed.context.watchers.get? id = none ∧ s.observed.attachments.get? id = none ∧
      s.waits.get? id = none
  disjoint : ∀ id, (s.waits.get? id).isSome = true → s.observed.attachments.get? id = none

theorem new_valid (lifetime : SessionLifetime) (replayBytes maxObservers pageBytes : Nat)
    (observers replayQuota : Quota) :
    (new lifetime replayBytes maxObservers pageBytes observers replayQuota).Valid where
  waiting id waker stored := by cases stored
  owned id waker stored := by cases stored
  issued id _ := ⟨rfl, rfl, rfl⟩
  disjoint id _ := rfl

/-- The owner of a stored waker is as before, or gone with its watcher. -/
def Keeps (s s' : Watched) (id : Nat) : Prop :=
  (s'.observed.attachments.get? id = s.observed.attachments.get? id ∧
      s'.waits.get? id = s.waits.get? id) ∨
    (s'.observed.attachments.get? id = none ∧ s'.waits.get? id = none ∧
      ((∀ waker, ¬ s'.observed.context.Stored id waker) ∨ s'.observed.context.poisoned = true))

/-- Every waker a step leaves or removes is accounted for. -/
structure Accounts (s : Watched) (woken : List Waker) (s' : Watched) : Prop where
  valid : s'.Valid
  answered : ∀ id waker, s.observed.context.Stored id waker →
    (waker ∈ woken ∧ ∀ waker', ¬ s'.observed.context.Stored id waker') ∨ s'.Waiting id
  next : s.observed.context.nextWatcher ≤ s'.observed.context.nextWatcher

theorem Waiting.keeps {s s' : Watched} {id : Nat} (waiting : s.Waiting id)
    (quiet : s.observed.context.Quiet s'.observed.context) (keeps : Keeps s s' id) :
    s'.Waiting id := by
  rcases keeps with ⟨attachment, wait⟩ | ⟨attachment, wait, -⟩
  · refine ⟨fun a found => ?_, fun waits => ?_⟩
    · obtain ⟨hand, pending⟩ := waiting.attachment a (attachment ▸ found)
      exact ⟨hand, quiet.pending pending⟩
    · exact quiet.completion.mpr (waiting.completion (wait ▸ waits))
  · refine ⟨fun a found => ?_, fun waits => ?_⟩
    · rw [attachment] at found
      cases found
    · rw [wait] at waits
      cases waits

/-- The rule for a step that wakes nobody. -/
theorem Valid.calm {s s' : Watched} (valid : s.Valid)
    (quiet : s.observed.context.Quiet s'.observed.context)
    (keeps : ∀ id waker, s.observed.context.Stored id waker → Keeps s s' id)
    (stored : ∀ id waker, s'.observed.context.Stored id waker →
      ∃ waker', s.observed.context.Stored id waker')
    (issued : ∀ id, s'.observed.context.nextWatcher ≤ id →
      s'.observed.context.watchers.get? id = none ∧ s'.observed.attachments.get? id = none ∧
        s'.waits.get? id = none)
    (disjoint : ∀ id, (s'.waits.get? id).isSome = true → s'.observed.attachments.get? id = none) :
    Accounts s [] s' := by
  have later : ∀ id waker, s.observed.context.Stored id waker → s'.Waiting id :=
    fun id waker held => (valid.waiting id waker held).keeps quiet (keeps id waker held)
  refine ⟨⟨fun id waker held => ?_, fun id waker held => ?_, issued, disjoint⟩,
    fun id waker held => .inr (later id waker held), quiet.nextWatcher⟩
  · obtain ⟨waker', before⟩ := stored id waker held
    exact later id waker' before
  · obtain ⟨waker', before⟩ := stored id waker held
    rcases keeps id waker' before with ⟨attachment, wait⟩ | ⟨-, -, none | poisoned⟩
    · rw [attachment, wait]
      exact (valid.owned id waker' before).imp_left quiet.poisoned
    · exact absurd held (none waker)
    · exact .inl poisoned

/-- The rule for a step that takes every waker. -/
theorem Valid.notified {s s' : Watched} (valid : s.Valid) {woken : List Waker}
    (notifies : s.observed.context.Notifies woken s'.observed.context)
    (attachments : s'.observed.attachments = s.observed.attachments) (waits : s'.waits = s.waits)
    (next : s'.observed.context.nextWatcher = s.observed.context.nextWatcher) :
    Accounts s woken s' := by
  refine ⟨⟨fun id waker held => ?_, fun id waker held => ?_, fun id unused => ?_,
    attachments ▸ waits ▸ valid.disjoint⟩, fun id waker held => .inl ⟨notifies.woken id waker held, notifies.taken id⟩,
    Nat.le_of_eq next.symm⟩
  · exact absurd held (notifies.taken id waker)
  · exact absurd held (notifies.taken id waker)
  · obtain ⟨watcher, attachment, wait⟩ := valid.issued id (next ▸ unused)
    refine ⟨?_, attachments ▸ attachment, waits ▸ wait⟩
    have kept := notifies.kept id
    rw [watcher] at kept
    exact Option.not_isSome_iff_eq_none.mp (by rw [kept]; simp)

theorem registerWatcher_cases (c : SessionContext) :
    (∃ e observers, c.registerWatcher = (.error e, { c with observers })) ∨
      ∃ observers, c.registerWatcher = (.ok c.nextWatcher, { c with
        observers
        nextWatcher := c.nextWatcher + 1
        watchers := c.watchers.insert c.nextWatcher none }) := by
  unfold SessionContext.registerWatcher
  rcases c.observers.acquire 1 with ⟨ok, observers⟩
  cases ok with
  | false => exact .inl ⟨_, c.observers, rfl⟩
  | true =>
    simp only
    split_ifs
    · exact .inl ⟨_, _, rfl⟩
    · exact .inl ⟨_, _, rfl⟩
    · cases next : checkedAdd c.nextWatcher 1 with
      | none => exact .inl ⟨_, _, rfl⟩
      | some id =>
        obtain ⟨-, rfl⟩ := checkedAdd_eq_some.mp next
        exact .inr ⟨_, rfl⟩

theorem removeWatcher_cases (c : SessionContext) (id : Nat) :
    (c.removeWatcher id = c ∧ (c.poisoned = true ∨ c.watchers.get? id = none)) ∨
      ∃ observers, c.removeWatcher id = { c with watchers := c.watchers.erase id, observers } := by
  unfold SessionContext.removeWatcher
  split
  · rename_i skip
    exact .inl ⟨rfl, skip.imp_right Option.isNone_iff_eq_none.mp⟩
  · exact .inr ⟨_, rfl⟩

theorem stored_insert {c : SessionContext} {id : Nat} {waker : Waker} {fresh : Nat}
    (stored : (c.watchers.insert fresh none).get? id = some (some waker)) : c.Stored id waker := by
  rw [SortedMap.get?_insert] at stored
  split at stored
  · cases stored
  · exact stored

theorem stored_erase {c : SessionContext} {id gone : Nat} {waker : Waker}
    (stored : (c.watchers.erase gone).get? id = some (some waker)) :
    id ≠ gone ∧ c.Stored id waker := by
  rw [SortedMap.get?_erase] at stored
  split at stored
  · cases stored
  · rename_i other
    exact ⟨other, stored⟩

theorem erase_none {α : Type} {m : SortedMap Nat α} {id gone : Nat} (absent : m.get? id = none) :
    (m.erase gone).get? id = none := by
  rw [SortedMap.get?_erase]
  split
  · rfl
  · exact absent

theorem stored_setWaker {c : SessionContext} {id other : Nat} {waker : Option Waker} {old : Waker}
    (stored : (c.setWaker id waker).Stored other old) :
    c.Stored other old ∨ (other = id ∧ waker = some old) := by
  simp only [SessionContext.Stored, SessionContext.setWaker, SortedMap.get?_mapValues,
    Option.map_eq_some_iff] at stored
  obtain ⟨slot, found, set⟩ := stored
  split at set
  · rename_i same
    exact .inr ⟨same, set⟩
  · rw [set] at found
    exact .inl found

theorem setWaker_none {c : SessionContext} {id other : Nat} {waker : Option Waker}
    (absent : c.watchers.get? other = none) :
    (c.setWaker id waker).watchers.get? other = none := by
  simp [SessionContext.setWaker, absent]

/-- A step that only changes the context, without waking or registering anybody. -/
theorem Valid.context {s : Watched} (valid : s.Valid) {context : SessionContext}
    (quiet : s.observed.context.Quiet context)
    (stored : ∀ id waker, context.Stored id waker → ∃ waker', s.observed.context.Stored id waker')
    (issued : ∀ id, context.nextWatcher ≤ id → s.observed.context.watchers.get? id = none →
      context.watchers.get? id = none) : Accounts s [] (s.withContext context) := by
  refine valid.calm quiet (fun _ _ _ => .inl ⟨rfl, rfl⟩) stored (fun id unused => ?_) valid.disjoint
  obtain ⟨watcher, attachment, wait⟩ := valid.issued id (Nat.le_trans quiet.nextWatcher unused)
  exact ⟨issued id unused watcher, attachment, wait⟩

theorem Valid.same {s : Watched} (valid : s.Valid) : Accounts s [] s :=
  valid.context (.refl _) (fun _ waker held => ⟨waker, held⟩) fun _ _ absent => absent

theorem output_accounts {s : Watched} (valid : s.Valid) (bytes : Bytes) (staging : Staging)
    (allocation : ReplayBuffer.Allocation) :
    Accounts s (s.observed.context.outputObserved bytes staging allocation).2.1
      { s with observed := s.observed.output bytes staging allocation } := by
  have next : (s.observed.context.outputObserved bytes staging allocation).2.2.nextWatcher =
      s.observed.context.nextWatcher := by
    rcases Observed.outputObserved_cases s.observed.context bytes staging allocation with
      ⟨acceptance, -, same⟩ | same
    · rw [same]
    · rw [same]
      unfold SessionContext.retainOutput
      split
      split <;> rfl
  rcases s.observed.context.outputObserved_wakes bytes staging allocation with notifies | silent
  · exact valid.notified notifies rfl rfl next
  · rw [silent.woken]
    refine valid.calm silent.quiet (fun _ _ _ => .inl ⟨rfl, rfl⟩) ?_ (fun id unused => ?_)
      valid.disjoint
    · exact fun id waker held => ⟨waker, silent.stored held⟩
    · obtain ⟨watcher, attachment, wait⟩ := valid.issued id (next ▸ unused)
      exact ⟨silent.watchers ▸ watcher, attachment, wait⟩

theorem report_accounts {s : Watched} (valid : s.Valid) (event : SessionStatus.Report) :
    Accounts s (s.observed.context.report event).1
      (s.withContext (s.observed.context.report event).2) := by
  have next : (s.observed.context.report event).2.nextWatcher =
      s.observed.context.nextWatcher := by
    unfold SessionContext.report
    split
    · rfl
    · simp only
      split <;> rfl
  rcases s.observed.context.report_wakes event with notifies | silent
  · exact valid.notified notifies rfl rfl next
  · rw [silent.woken]
    refine valid.context silent.quiet (fun id waker held => ⟨waker, silent.stored held⟩)
      fun id _ none => silent.watchers ▸ none

theorem register_accounts {s : Watched} (valid : s.Valid) :
    Accounts s [] (s.withContext s.observed.context.registerWatcher.2) := by
  rcases registerWatcher_cases s.observed.context with ⟨e, observers, refused⟩ | ⟨observers, done⟩
  · rw [refused]
    exact valid.context ⟨rfl, rfl, rfl, Iff.rfl, id, Nat.le_refl _⟩ (fun id waker held => ⟨waker, held⟩)
      fun _ _ none => none
  · rw [done]
    refine valid.context ⟨rfl, rfl, rfl, Iff.rfl, id, Nat.le_succ _⟩
      (fun id waker held => ⟨waker, stored_insert held⟩) fun id unused none => ?_
    change (s.observed.context.watchers.insert _ _).get? id = _
    rw [SortedMap.get?_insert, if_neg (Nat.ne_of_gt unused), none]

theorem remove_quiet (c : SessionContext) (id : Nat) : c.Quiet (c.removeWatcher id) := by
  rcases removeWatcher_cases c id with ⟨same, -⟩ | ⟨observers, removed⟩
  · rw [same]
    exact .refl c
  · rw [removed]
    exact ⟨rfl, rfl, rfl, Iff.rfl, fun poisoned => poisoned, Nat.le_refl _⟩

/-- A removed watcher has no waker left, unless the mutex was poisoned. -/
theorem remove_stored {c : SessionContext} {id other : Nat} {waker : Waker}
    (stored : (c.removeWatcher id).Stored other waker) :
    c.Stored other waker ∧ (other = id → (c.removeWatcher id).poisoned = true) := by
  rcases removeWatcher_cases c id with ⟨same, reason⟩ | ⟨observers, removed⟩
  · rw [same] at stored ⊢
    refine ⟨stored, fun here => reason.resolve_right fun absent => ?_⟩
    rw [SessionContext.Stored, here, absent] at stored
    cases stored
  · rw [removed] at stored
    obtain ⟨apart, before⟩ := stored_erase stored
    exact ⟨before, fun here => absurd here apart⟩

theorem remove_next (c : SessionContext) (id : Nat) :
    (c.removeWatcher id).nextWatcher = c.nextWatcher ∧
      ∀ other, c.watchers.get? other = none → (c.removeWatcher id).watchers.get? other = none := by
  rcases removeWatcher_cases c id with ⟨same, -⟩ | ⟨observers, removed⟩
  · rw [same]
    exact ⟨rfl, fun _ absent => absent⟩
  · rw [removed]
    exact ⟨rfl, fun _ absent => erase_none absent⟩

theorem attach_accounts {s : Watched} (valid : s.Valid) {id : Nat} (position : AttachPosition)
    (free : s.waits.get? id = none) :
    Accounts s [] { s with observed := s.observed.attach id position } := by
  unfold Observed.attach
  split
  · exact valid.same
  · rename_i fresh
    rw [not_or] at fresh
    cases started : s.observed.context.attachCursor position with
    | error e =>
      refine valid.context (remove_quiet _ id)
        (fun _ waker held => ⟨waker, (remove_stored held).1⟩) fun other _ => (remove_next _ id).2 other
    | ok cursor =>
      have alive : s.observed.context.poisoned = false := by
        unfold SessionContext.attachCursor at started
        split at started
        · cases started
        · rename_i alive
          exact (Bool.not_eq_true _).mp alive
      -- The watcher has no owner yet, so it has registered no waker.
      have bare : ∀ waker, ¬ s.observed.context.Stored id waker := by
        intro waker held
        rcases valid.owned id waker held with poisoned | attached | waits
        · rw [alive] at poisoned
          cases poisoned
        · exact fresh.2 attached
        · rw [free] at waits
          cases waits
      refine valid.calm (.refl _) (fun other waker held => .inl ⟨?_, rfl⟩)
        (fun _ waker held => ⟨waker, held⟩) (fun other unused => ?_) fun other waits => ?_
      · have apart : other ≠ id := fun here => bare waker (here ▸ held)
        change (s.observed.attachments.insert id _).get? other = _
        rw [SortedMap.get?_insert, if_neg apart]
      · obtain ⟨watcher, attachment, wait⟩ := valid.issued other unused
        refine ⟨watcher, ?_, wait⟩
        have apart : other ≠ id := by
          rintro rfl
          rw [watcher] at fresh
          exact fresh.1 rfl
        change (s.observed.attachments.insert id _).get? other = _
        rw [SortedMap.get?_insert, if_neg apart, attachment]
      · have apart : other ≠ id := by
          rintro rfl
          rw [free] at waits
          cases waits
        change (s.observed.attachments.insert id _).get? other = _
        rw [SortedMap.get?_insert, if_neg apart, valid.disjoint other waits]

/-- A step that changes only the context and one attachment, neither of which may hide
an event from a watcher whose waker it leaves registered. -/
theorem Valid.replaced {s : Watched} (valid : s.Valid) {id : Nat} {a b : Attachment}
    {context : SessionContext} (found : s.observed.attachments.get? id = some a)
    (quiet : s.observed.context.Quiet context)
    (bare : ∀ waker, ¬ s.observed.context.Stored id waker)
    (stored : ∀ other waker, context.Stored other waker → s.observed.context.Stored other waker)
    (next : context.nextWatcher = s.observed.context.nextWatcher)
    (issued : ∀ other, s.observed.context.watchers.get? other = none →
      context.watchers.get? other = none) :
    Accounts s [] { s with observed := { s.observed with
      context, attachments := s.observed.attachments.insert id b } } := by
  refine valid.calm quiet (fun other waker held => .inl ⟨?_, rfl⟩)
    (fun other waker held => ⟨waker, stored other waker held⟩) (fun other unused => ?_)
    fun other waits => ?_
  · have apart : other ≠ id := fun here => bare waker (here ▸ held)
    change (s.observed.attachments.insert id b).get? other = _
    rw [SortedMap.get?_insert, if_neg apart]
  · obtain ⟨watcher, attachment, wait⟩ := valid.issued other (next ▸ unused)
    refine ⟨issued other watcher, ?_, wait⟩
    have apart : other ≠ id := by
      rintro rfl
      rw [found] at attachment
      cases attachment
    change (s.observed.attachments.insert id b).get? other = _
    rw [SortedMap.get?_insert, if_neg apart, attachment]
  · have attachment := valid.disjoint other waits
    have apart : other ≠ id := by
      rintro rfl
      rw [found] at attachment
      cases attachment
    change (s.observed.attachments.insert id b).get? other = _
    rw [SortedMap.get?_insert, if_neg apart, attachment]

theorem touchWaker_quiet (c : SessionContext) (id : Nat) (waker : Option Waker) (pending : Bool) :
    c.Quiet (Observed.touchWaker c id waker pending) := by
  cases waker with
  | none => exact .refl c
  | some waker => exact ⟨rfl, rfl, rfl, Iff.rfl, fun poisoned => poisoned, Nat.le_refl _⟩

theorem touchWaker_stored {c : SessionContext} {id other : Nat} {waker : Option Waker}
    {pending : Bool} {old : Waker}
    (stored : (Observed.touchWaker c id waker pending).Stored other old) :
    c.Stored other old ∨ (other = id ∧ pending = true) := by
  cases waker with
  | none => exact .inl stored
  | some waker =>
    rcases stored_setWaker stored with before | ⟨here, set⟩
    · exact .inl before
    · refine .inr ⟨here, ?_⟩
      cases pending with
      | true => rfl
      | false => cases set

theorem touchWaker_next (c : SessionContext) (id : Nat) (waker : Option Waker) (pending : Bool) :
    (Observed.touchWaker c id waker pending).nextWatcher = c.nextWatcher ∧
      ∀ other, c.watchers.get? other = none →
        (Observed.touchWaker c id waker pending).watchers.get? other = none := by
  cases waker with
  | none => exact ⟨rfl, fun _ absent => absent⟩
  | some waker => exact ⟨rfl, fun _ absent => setWaker_none absent⟩

/-- A poll that finds nothing registers its waker for a watcher that waits. -/
theorem polled_accounts {s : Watched} (valid : s.Valid) {id : Nat} {context : SessionContext}
    (quiet : s.observed.context.Quiet context) (waiting : s.Waiting id)
    (owner : (s.observed.attachments.get? id).isSome = true ∨ (s.waits.get? id).isSome = true)
    (stored : ∀ other waker, context.Stored other waker →
      s.observed.context.Stored other waker ∨ other = id)
    (next : context.nextWatcher = s.observed.context.nextWatcher)
    (issued : ∀ other, s.observed.context.watchers.get? other = none →
      context.watchers.get? other = none) : Accounts s [] (s.withContext context) := by
  have keeps : ∀ other, Keeps s (s.withContext context) other := fun _ => .inl ⟨rfl, rfl⟩
  refine ⟨⟨fun other waker held => ?_, fun other waker held => ?_, fun other unused => ?_,
    valid.disjoint⟩, fun other waker held =>
      .inr ((valid.waiting other waker held).keeps quiet (keeps other)), quiet.nextWatcher⟩
  · rcases stored other waker held with before | rfl
    · exact (valid.waiting other waker before).keeps quiet (keeps other)
    · exact waiting.keeps quiet (keeps other)
  · rcases stored other waker held with before | rfl
    · exact (valid.owned other waker before).imp_left quiet.poisoned
    · exact .inr owner
  · obtain ⟨watcher, attachment, wait⟩ := valid.issued other (next ▸ unused)
    exact ⟨issued other watcher, attachment, wait⟩

theorem take_accounts {s : Watched} (valid : s.Valid) {id : Nat} (waker : Option Waker)
    (free : s.waits.get? id = none) :
    Accounts s [] { s with observed := s.observed.take id waker } := by
  unfold Observed.take
  cases found : s.observed.attachments.get? id with
  | none => exact valid.same
  | some a =>
    simp only
    by_cases blocked : a.hand.isSome = true ∨ s.observed.context.poisoned = true
    · rw [if_pos blocked]
      exact valid.same
    rw [if_neg blocked]
    obtain ⟨empty, alive⟩ := not_or.mp blocked
    have takes : s.observed.takes a.cursor = _ := if_neg alive
    -- A stored waker means a pending read, so any other outcome finds the slot empty.
    have bare : ¬ s.observed.context.Pending a.cursor →
        ∀ old, ¬ s.observed.context.Stored id old := fun ready old held =>
      ready ((valid.waiting id old held).attachment a found).2
    have dropped : ∀ other old,
        (Observed.touchWaker s.observed.context id waker false).Stored other old →
          s.observed.context.Stored other old := by
      intro other old held
      rcases touchWaker_stored held with before | ⟨-, never⟩
      · exact before
      · cases never
    obtain ⟨next, issued⟩ := touchWaker_next s.observed.context id waker false
    cases read : s.observed.context.read a.cursor with
    | error e =>
      rw [read] at takes
      rw [takes]
      exact valid.context (touchWaker_quiet ..)
        (fun other old held => ⟨old, dropped other old held⟩) fun other _ => issued other
    | ok event =>
      cases event with
      | none =>
        rw [read] at takes
        rw [takes]
        have waiting : s.Waiting id := by
          refine ⟨fun b other => ?_, fun waits => ?_⟩
          · rw [found] at other
            obtain rfl := Option.some.inj other
            exact ⟨Option.not_isSome_iff_eq_none.mp empty, read⟩
          · rw [free] at waits
            cases waits
        refine polled_accounts valid (touchWaker_quiet ..) waiting (.inl (by rw [found]; rfl))
          (fun other old held => ?_) (touchWaker_next ..).1 (touchWaker_next ..).2
        exact (touchWaker_stored held).imp_right And.left
      | some event =>
        rw [read] at takes
        rw [takes]
        refine valid.replaced found (touchWaker_quiet ..) (bare ?_) dropped next issued
        intro pending
        rw [SessionContext.Pending, read] at pending
        cases pending

theorem finish_accounts {s : Watched} (valid : s.Valid) (id : Nat) :
    Accounts s [] { s with observed := s.observed.finish id } := by
  unfold Observed.finish
  cases found : s.observed.attachments.get? id with
  | none => exact valid.same
  | some a =>
    cases hand : a.hand with
    | none =>
      simp only [hand]
      exact valid.same
    | some taken =>
      simp only [hand]
      refine valid.replaced found (.refl _) (fun old held => ?_) (fun _ _ held => held) rfl
        fun _ absent => absent
      have none := ((valid.waiting id old held).attachment a found).1
      rw [hand] at none
      cases none

/-- Dropping an owner takes its watcher along. -/
theorem gone_accounts {s : Watched} (valid : s.Valid) (id : Nat)
    {attachments : SortedMap Nat Attachment} {waits : SortedMap Nat Unit}
    (attachment : ∀ other, attachments.get? other =
      if other = id then none else s.observed.attachments.get? other)
    (wait : ∀ other, waits.get? other = if other = id then none else s.waits.get? other) :
    Accounts s [] {
      observed := { s.observed with context := s.observed.context.removeWatcher id, attachments }
      waits } := by
  obtain ⟨next, issued⟩ := remove_next s.observed.context id
  refine valid.calm (remove_quiet _ id) (fun other waker held => ?_)
    (fun other waker held => ⟨waker, (remove_stored held).1⟩) (fun other unused => ?_)
    fun other waits => ?_
  · by_cases here : other = id
    · refine .inr ⟨(attachment other).trans (if_pos here), (wait other).trans (if_pos here), ?_⟩
      by_cases poisoned : (s.observed.context.removeWatcher id).poisoned = true
      · exact .inr poisoned
      · exact .inl fun waker' left => poisoned ((remove_stored left).2 here)
    · exact .inl ⟨(attachment other).trans (if_neg here), (wait other).trans (if_neg here)⟩
  · obtain ⟨watcher, attached, waited⟩ := valid.issued other (next ▸ unused)
    refine ⟨issued other watcher, ?_, ?_⟩
    · rw [attachment other, attached]
      split <;> rfl
    · rw [wait other, waited]
      split <;> rfl
  · rw [attachment other]
    split
    · rfl
    · rename_i apart
      rw [wait other, if_neg apart] at waits
      exact valid.disjoint other waits

theorem wait_accounts {s : Watched} (valid : s.Valid) : Accounts s [] (s.step .wait) := by
  have registered := register_accounts valid
  simp only [step]
  rcases registerWatcher_cases s.observed.context with ⟨e, observers, refused⟩ | ⟨observers, done⟩
  · rw [refused] at registered ⊢
    exact registered
  · rw [done] at registered ⊢
    -- The new wait's watcher is fresh, so nobody's waker changes owner.
    obtain ⟨fresh, unattached, unwaited⟩ := valid.issued _ (Nat.le_refl _)
    refine valid.calm ⟨rfl, rfl, rfl, Iff.rfl, fun poisoned => poisoned, Nat.le_succ _⟩
      (fun other waker held => .inl ⟨rfl, ?_⟩)
      (fun other waker held => ⟨waker, stored_insert held⟩) (fun other unused => ?_)
      fun other waits => ?_
    · have apart : other ≠ s.observed.context.nextWatcher := by
        rintro rfl
        rw [SessionContext.Stored, fresh] at held
        cases held
      change (s.waits.insert _ _).get? other = _
      rw [SortedMap.get?_insert, if_neg apart]
    · obtain ⟨watcher, attachment, wait⟩ := registered.valid.issued other unused
      refine ⟨watcher, attachment, ?_⟩
      change (s.waits.insert _ _).get? other = _
      rw [SortedMap.get?_insert, if_neg (Nat.ne_of_gt unused)]
      exact wait
    · by_cases here : other = s.observed.context.nextWatcher
      · rw [here]
        exact unattached
      · change ((s.waits.insert _ _).get? other).isSome = true at waits
        rw [SortedMap.get?_insert, if_neg here] at waits
        exact valid.disjoint other waits

theorem pollWait_accounts {s : Watched} (valid : s.Valid) (id : Nat) (waker : Waker) :
    Accounts s [] (s.step (.pollWait id waker)) := by
  simp only [step]
  split
  · exact valid.same
  rename_i waits
  have waits : (s.waits.get? id).isSome = true := by
    simpa [Option.isSome_iff_ne_none] using waits
  unfold SessionContext.pollCompletion
  split
  · exact valid.same
  cases completion : s.observed.context.status.completion with
  | none =>
    have waiting : s.Waiting id := by
      refine ⟨fun a found => ?_, fun _ => completion⟩
      rw [valid.disjoint id waits] at found
      cases found
    exact polled_accounts valid ⟨rfl, rfl, rfl, Iff.rfl, fun poisoned => poisoned, Nat.le_refl _⟩ waiting
      (.inr waits) (fun other old held => (stored_setWaker held).imp_right And.left) rfl
      fun other absent => setWaker_none absent
  | some done =>
    refine valid.context ⟨rfl, rfl, rfl, Iff.rfl, fun poisoned => poisoned, Nat.le_refl _⟩
      (fun other old held => ?_) fun other _ absent => setWaker_none absent
    rcases stored_setWaker held with before | ⟨-, never⟩
    · exact ⟨old, before⟩
    · cases never

theorem step_accounts {s : Watched} (valid : s.Valid) (step : Step) :
    Accounts s (s.woken step) (s.step step) := by
  cases step with
  | wait => exact wait_accounts valid
  | pollWait id waker => exact pollWait_accounts valid id waker
  | dropWait id =>
    simp only [Watched.step]
    split
    · exact valid.same
    · rename_i waits
      refine gone_accounts valid id (fun other => ?_) fun other => SortedMap.get?_erase _ _ _
      split
      · rename_i here
        exact here ▸ valid.disjoint id (by simpa [Option.isSome_iff_ne_none] using waits)
      · rfl
  | session step =>
    simp only [Watched.step]
    split
    · rename_i other
      cases step with
      | output | report | otherSessions | poison | register => cases other
      | attach | take | finish | dropWait | detach => exact valid.same
    rename_i mine
    cases step with
    | output bytes staging allocation => exact output_accounts valid bytes staging allocation
    | report event => exact report_accounts valid event
    | otherSessions replayUsed observersUsed =>
      exact valid.context ⟨rfl, rfl, rfl, Iff.rfl, fun poisoned => poisoned, Nat.le_refl _⟩
        (fun _ waker held => ⟨waker, held⟩) fun _ _ absent => absent
    | poison =>
      exact valid.context ⟨rfl, rfl, rfl, Iff.rfl, fun _ => rfl, Nat.le_refl _⟩
        (fun _ waker held => ⟨waker, held⟩) fun _ _ absent => absent
    | register => exact register_accounts valid
    | attach id position =>
      exact attach_accounts valid position (by simpa [Observed.Step.watcher?] using mine)
    | take id waker =>
      exact take_accounts valid waker (by simpa [Observed.Step.watcher?] using mine)
    | finish id => exact finish_accounts valid id
    | dropWait id =>
      simp only [Observed.step, SessionContext.clearWaker]
      split
      · exact valid.same
      · refine valid.context ⟨rfl, rfl, rfl, Iff.rfl, fun poisoned => poisoned, Nat.le_refl _⟩
          (fun other old held => ?_) fun other _ absent => setWaker_none absent
        rcases stored_setWaker held with before | ⟨-, never⟩
        · exact ⟨old, before⟩
        · cases never
    | detach id =>
      refine gone_accounts valid id (fun other => SortedMap.get?_erase _ _ _) fun other => ?_
      split
      · rename_i here
        exact here ▸ (by simpa [Observed.Step.watcher?] using mine)
      · rfl

theorem run_valid {s : Watched} (valid : s.Valid) (steps : List Step) : (s.run steps).Valid := by
  induction steps generalizing s with
  | nil => exact valid
  | cons step rest ih => exact ih (step_accounts valid step).valid

end Watched

end PtyRuntime
