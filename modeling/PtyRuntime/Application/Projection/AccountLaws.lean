import PtyRuntime.Application.JournalLaws
import PtyRuntime.Application.Projection.Account

/-! What the programs of a projection make of its account. Most only fail it or move what
is beside it; the steps that take a command, feed it, settle it, journal it or put it back
are met one by one below. -/
namespace PtyRuntime
open Thread PtyRuntime.Core Account

namespace ProjectionPolicy

/-- A projection with a failure on record shows it. -/
def Marked (p : ProjectionPolicy) : Prop :=
  p.status.failure.isSome → p.status.residency = .failed ∨ p.status.residency.isClosing = true

theorem Marked.spotless {p : ProjectionPolicy} (marked : p.Marked) {residency : Residency}
    (seen : p.status.residency = residency) (well : residency ≠ .failed ∧ residency.isClosing = false) :
    p.status.failure = none := by
  by_contra broken
  rcases marked (Option.isSome_iff_ne_none.mpr broken) with failed | closing
  · exact well.1 (seen.symm.trans failed)
  · rw [seen, well.2] at closing
    cases closing

theorem step_marked {p : ProjectionPolicy} (marked : p.Marked) (call : Call)
    (other : ∀ error, call ≠ .cleanupFailed error) : (p.step call).2.Marked := by
  refine step_preserves call marked fun admitted => ?_
  cases admitted with
  | beginPark resident | unpark _ resident | parkFailed resident | beginRestore resident =>
    intro broken
    simp [marked.spotless resident ⟨by decide, rfl⟩] at broken
  | release valid =>
    intro broken
    simp [marked.spotless (attemptValid_iff.mp valid).1 ⟨by decide, rfl⟩] at broken
  | restorationProgress source =>
    intro broken
    rcases source with source | source <;> simp [marked.spotless source ⟨by decide, rfl⟩] at broken
  | fail => exact fun _ => .inl rfl
  | close | markClosed => exact fun _ => .inr rfl
  | cleanupFailed => exact absurd rfl (other _)
  | admitOutput | recordActivity | recordProcessed | recordControlApplied | lateCommit | lateParkFailed
  | failClosing | closeAgain | maintenanceFailed => exact marked

/-- Moving between residencies changes nothing else that the account is about. -/
theorem step_parks (p : ProjectionPolicy) {call : Call} (parks : call.parks = true) :
    (p.step call).2.status.processed = p.status.processed ∧
      (p.step call).2.status.published = p.status.published ∧
      (p.step call).2.status.controlGeneration = p.status.controlGeneration ∧
      (p.step call).2.status.failure = p.status.failure ∧ (p.step call).2.activity = p.activity := by
  refine step_preserves (P := fun q => q.status.processed = p.status.processed ∧
    q.status.published = p.status.published ∧ q.status.controlGeneration = p.status.controlGeneration ∧
      q.status.failure = p.status.failure ∧ q.activity = p.activity) call ⟨rfl, rfl, rfl, rfl, rfl⟩
    fun admitted => ?_
  cases admitted <;> first
    | exact ⟨rfl, rfl, rfl, rfl, rfl⟩
    | cases parks

end ProjectionPolicy

namespace Account

theorem Beside.of_same {v v' : Account} (same : v' = v) : Beside v v' := same ▸ .same v

/-- The checkpoint is of the policy's version. -/
def Matches (v : Account) (descriptor : CheckpointDescriptor) : Prop :=
  descriptor.processed = v.processed ∧ descriptor.controlGeneration = v.control

instance (descriptor : CheckpointDescriptor) : Lasting (Matches · descriptor) where
  keep {v v'} beside same := by
    obtain ⟨processed, control, -⟩ := beside.version
    rw [Matches, processed, control]
    exact same

/-- A source that is read back for a transfer is of the version the stream stands at, and
so is what was read. -/
structure Carries (v : Account) (source : StoredCheckpoint) (mailbox : Mailbox TerminalCheckpoint) :
    Prop where
  version : v.Matches source.descriptor
  agreed : v.Agreed
  read : ∀ checkpoint, mailbox = some (.ok checkpoint) → checkpoint.descriptor = source.descriptor

theorem Carries.beside {v v' : Account} {source : StoredCheckpoint} {mailbox : Mailbox TerminalCheckpoint}
    (carries : v.Carries source mailbox) (beside : Beside v v') : v'.Carries source mailbox where
  version := Lasting.keep (P := (Matches · source.descriptor)) beside carries.version
  agreed := Lasting.keep beside carries.agreed
  read := carries.read

end Account

/-- A job only hands back a checkpoint of the source it read. -/
theorem readJob_ok {source : StoredCheckpoint} {limit : Nat} {a : Answer} {checkpoint : TerminalCheckpoint}
    (read : readJob source limit a = .ok checkpoint) : checkpoint.descriptor = source.descriptor := by
  unfold readJob at read
  split at read
  · cases read
  split at read
  · cases read
  split at read
  · cases read
  split at read
  · cases read
  rename_i fits
  obtain rfl := Except.ok.inj read
  exact not_not.mp (not_or.mp fits).1

theorem Account.Carries.publish {v : Account} {source : StoredCheckpoint} {mailbox : Mailbox TerminalCheckpoint}
    (carries : v.Carries source mailbox) (a : Answer) (limit : Nat) :
    v.Carries source (some (jobResult a (readJob source limit a))) where
  version := carries.version
  agreed := carries.agreed
  read checkpoint done := by
    have done := Option.some.inj done
    unfold jobResult at done
    split at done
    · cases done
    · exact readJob_ok done

theorem publish_transfer {job : PendingIo} {config : ProjectionConfig} {limit : Nat} {a : Answer}
    {request : SnapshotRequest} {source : StoredCheckpoint} {mailbox : Mailbox TerminalCheckpoint}
    (became : job.publish config limit a = .transfer request source mailbox) :
    ∃ before, job = .transfer request source before ∧
      (mailbox = before ∨ mailbox = some (jobResult a (readJob source limit a))) := by
  rcases job with ⟨_, _, _, _ | _⟩ | ⟨_, _ | _⟩ | ⟨_, _, _ | _⟩ | ⟨_, _ | _⟩ <;> cases became
  · exact ⟨none, rfl, .inr rfl⟩
  · exact ⟨_, rfl, .inl rfl⟩

namespace Coordinator

/-- A source is read back for a transfer without a model, and at the version of both. -/
def Reading (c : Coordinator) : Prop := ∀ request source mailbox,
  c.workspace.io = some (.transfer request source mailbox) →
    c.workspace.terminal = none ∧ c.account.Carries source mailbox

/-- No transfer was handed out with a gap. -/
def Seamless (c : Coordinator) : Prop := ∀ t ∈ c.tickets, ∀ transfer,
  t.result = some (.ok (.transferred transfer)) → transfer.Joined

structure Reckoned (c : Coordinator) : Prop where
  kept : c.account.Kept
  marked : c.admission.policy.Marked
  reading : c.Reading
  seamless : c.Seamless

/-- No observer is lost. -/
def Observed (c c' : Coordinator) : Prop :=
  ∀ id, (c.journal.observers.get? id).isSome = true → (c'.journal.observers.get? id).isSome = true

/-- What the worker owes: being down is for good, the first end stands and no observer
is dropped. -/
structure Honours (c c' : Coordinator) : Prop where
  down : c.account.Down → c'.account.Down
  sealed : ∀ ended, c.account.sealed = some ended → c'.account.sealed = some ended
  observed : Observed c c'

/-- What other threads do to the workspace: a job publishes its result. -/
structure Spares (w w' : NativeWorkspace) : Prop where
  terminal : w'.terminal = w.terminal
  source : w'.source = w.source
  io : w'.io = w.io ∨ ∃ config limit answer, w'.io = w.io.map (·.publish config limit answer)

theorem Reading.spared {c c' : Coordinator} (reading : c.Reading)
    (beside : Account.Beside c.account c'.account) (spares : Spares c.workspace c'.workspace) :
    c'.Reading := by
  intro request source mailbox pending
  rcases spares.io with same | ⟨config, limit, answer, published⟩
  · rw [same] at pending
    obtain ⟨detached, carries⟩ := reading request source mailbox pending
    exact ⟨spares.terminal.trans detached, carries.beside beside⟩
  · rw [published] at pending
    obtain ⟨job, slot, became⟩ := Option.map_eq_some_iff.mp pending
    obtain ⟨before, rfl, read⟩ := publish_transfer became
    obtain ⟨detached, carries⟩ := reading request source before slot
    refine ⟨spares.terminal.trans detached, ?_⟩
    rcases read with rfl | rfl
    · exact carries.beside beside
    · exact (carries.publish answer limit).beside beside

/-- The order of commands and the two positions, on top of the projection's contract. -/
def accounts : Addition Unit Coordinator where
  inv := Reckoned
  idle _ c := Rest c.account
  guar _ := Honours
  meddle c c' := Account.Beside c.account c'.account ∧ Spares c.workspace c'.workspace

/-- Being down is for good. -/
def Sinks (c c' : Coordinator) : Prop := c.account.Down → c'.account.Down

theorem sinks_of_anyone {c c' : Coordinator} (step : (projection.extend accounts).Anyone c c') :
    Sinks c c' := by
  rcases step with meddled | ⟨role, owed⟩
  · exact Lasting.keep meddled.2.1
  · exact owed.2.down

instance : Tracks accounts Sinks where
  wider c c' moved := by
    induction moved with
    | refl => exact id
    | tail _ step ih =>
      refine fun down => sinks_of_anyone ?_ (ih down)
      exact step.imp id fun ⟨role, _, owed⟩ => ⟨role, owed⟩

theorem bystander_sinks (c c' : Coordinator) (moved : (projection.extend accounts).bystander.rely c c') :
    Sinks c c' := by
  induction moved with
  | refl => exact id
  | tail _ step ih => exact fun down => sinks_of_anyone step (ih down)

/-- A step of the kind other threads take, which does `D` to the rest. -/
structure Slides (D : Coordinator → Coordinator → Prop) (c c' : Coordinator) : Prop where
  account : Account.Beside c.account c'.account
  rest : D c c'
  marked : c.admission.policy.Marked → c'.admission.policy.Marked
  seamless : c.Seamless → c'.Seamless

/-- A relation that says nothing of a step beside the workspace and the observers. -/
class Inert (D : Coordinator → Coordinator → Prop) : Prop where
  same : ∀ {c c' : Coordinator}, c'.workspace = c.workspace → Observed c c' → D c c'

/-- A step of the worker that leaves model, source and job alone. -/
def Keeps (c c' : Coordinator) : Prop := Spares c.workspace c'.workspace ∧ Observed c c'

/-- A step of the worker that neither restores a model nor reads a source back. -/
def Shelves (c c' : Coordinator) : Prop :=
  Shelved c.workspace c'.workspace.terminal c'.workspace.io ∧ Observed c c'

/-- A step of another thread. -/
def Spared (c c' : Coordinator) : Prop := Spares c.workspace c'.workspace

theorem Spares.of_same {w w' : NativeWorkspace} (same : w' = w) : Spares w w' := by
  rw [same]
  exact ⟨rfl, rfl, .inl rfl⟩

instance : Inert Keeps := ⟨fun workspace observed => ⟨.of_same workspace, observed⟩⟩

instance : Inert Shelves where
  same workspace observed := by
    refine ⟨?_, observed⟩
    rw [workspace]
    exact .same _

instance : Inert Spared := ⟨fun workspace _ => .of_same workspace⟩

variable {D : Coordinator → Coordinator → Prop} [Inert D]

theorem Observed.refl (c : Coordinator) : Observed c c := fun _ => id

theorem mem_modify {tickets : List Ticket} {ticket : TicketId} {f : Ticket → Ticket} {t : Ticket}
    (member : t ∈ tickets.modify ticket f) : t ∈ tickets ∨ ∃ u ∈ tickets, t = f u := by
  obtain ⟨index, found⟩ := List.mem_iff_getElem?.mp member
  rw [List.getElem?_modify] at found
  obtain ⟨u, was, became⟩ := Option.map_eq_some_iff.mp found
  split at became
  · exact .inr ⟨u, List.mem_of_getElem? was, became.symm⟩
  · exact .inl (became ▸ List.mem_of_getElem? was)

/-- No movement of the tickets hands out a gap. -/
theorem seamless_move {c : Coordinator} {tickets : List Ticket} (move : TicketMove c.tickets tickets)
    (seamless : c.Seamless) : Seamless { c with tickets } := by
  intro t member transfer result
  cases move with
  | settle ticket given gapless =>
    rcases mem_modify member with old | ⟨u, was, rfl⟩
    · exact seamless t old transfer result
    · have before := seamless u was transfer
      unfold Ticket.settle at result
      split at result
      · exact before result
      · split_ifs at result
        · exact before result
        · exact gapless transfer (Option.some.inj result)
  | reserve =>
    rcases List.mem_append.mp member with old | new
    · exact seamless t old transfer result
    · rw [List.mem_singleton.mp new] at result
      cases result
  | deliver ticket =>
    rcases mem_modify member with old | ⟨u, was, rfl⟩
    · exact seamless t old transfer result
    · cases result
  | cancel ticket =>
    rcases mem_modify member with old | ⟨u, was, rfl⟩
    · exact seamless t old transfer result
    · exact seamless u was transfer result

instance : Completing Sinks (Slides D) where
  refl c := ⟨.same _, Inert.same rfl (.refl c), id, id⟩
  tickets c _ move := ⟨.same _, Inert.same rfl (.refl c), id, seamless_move move⟩

omit [Inert D] in
/-- A step that only concerns what the account leaves out. -/
theorem slides_of_same {c c' : Coordinator} (account : c'.account = c.account)
    (policy : c'.admission.policy = c.admission.policy) (tickets : c'.tickets = c.tickets) (rest : D c c') :
    Slides D c c' := by
  refine ⟨.of_same account, rest, by rw [policy]; exact id, fun seamless => ?_⟩
  rw [Seamless, tickets]
  exact seamless

/-- The account only sees the position of the stream and its end. -/
theorem account_journal (c : Coordinator) {journal : Journal} {oldest : Nat}
    (order : journal.order = { c.journal.order with oldest }) :
    ({ c with journal } : Coordinator).account = c.account := by
  simp only [account, order]

theorem fail_account (c : Coordinator) (error : ProjectionError) :
    ({ c with admission := (c.admission.fail error).2 } : Coordinator).account =
      { c.account with
        failed := c.account.failed || !c.account.closing
        queue := c.account.queue.filter (·.isOutput) } := by
  by_cases ended : c.admission.policy.status.residency.isClosing = true
  · have closing : c.account.closing = true := ended
    simp only [account, Admission.fail, Admission.closing, Admission.status,
      ProjectionPolicy.fail_closing ended, ended, Bool.not_true, Bool.or_false]
  · have alive : c.admission.policy.status.residency.isClosing = false := Bool.eq_false_iff.mpr ended
    simp only [account, Admission.fail, Admission.closing, Admission.status,
      ProjectionPolicy.fail_open alive, alive, Bool.not_false, Bool.or_true]
    rfl

theorem finish_account (c : Coordinator) (drain : Option DrainOutcome) (failure : Option ProjectionError) :
    ({ c with journal := (c.journal.finish drain failure).2 } : Coordinator).account = c.account ∨
      (c.account.sealed = none ∧ c.account.shut = false ∧
        ({ c with journal := (c.journal.finish drain failure).2 } : Coordinator).account =
          { c.account with sealed := some ⟨c.account.boundary, drain, failure⟩ }) := by
  simp only [account, Journal.finish, Journal.takeWakers]
  rcases c.journal.order.sealEnd_cases drain failure with ⟨e, refused⟩ | ⟨o, done, applied⟩
  · exact .inl (by rw [refused])
  · rw [done]
    cases applied with
    | sealEnd live unsealed => exact .inr ⟨unsealed, live.1, rfl⟩
    | sealAgain already => exact .inl rfl

theorem observed_wakers {c c' : Coordinator} {f : Nat → Option Waker → Option Waker}
    (observers : c'.journal.observers = c.journal.observers.mapValues f) : Observed c c' := by
  intro id present
  rw [observers, SortedMap.get?_mapValues, Option.isSome_map]
  exact present

theorem slides_fail (c : Coordinator) (error : ProjectionError) :
    Slides D c { c with admission := (c.admission.fail error).2 } where
  account := by
    rw [fail_account]
    exact .fail _
  rest := Inert.same rfl (.refl c)
  marked marked := ProjectionPolicy.step_marked marked (.fail error) (by simp)
  seamless := id

theorem slides_cut (c : Coordinator) (down : c.account.Down) (drain : Option DrainOutcome)
    (error : ProjectionError) : Slides D c { c with journal := (c.journal.finish drain (some error)).2 } where
  account := by
    rcases finish_account c drain (some error) with same | ⟨unsealed, -, became⟩
    · rw [same]
      exact .same _
    · rw [became]
      exact .cut down drain error unsealed
  rest := Inert.same rfl (observed_wakers (f := fun _ _ => none) rfl)
  marked := id
  seamless := id

theorem fail_down (c : Coordinator) (error : ProjectionError) :
    ({ c with admission := (c.admission.fail error).2 } : Coordinator).account.Down := by
  rw [fail_account]
  by_cases ended : c.account.closing = true
  · exact .inl ended
  · exact .inr (by simp [ended])

instance : Bystanding Sinks (Slides D) where
  fails error := by
    have stable : Discipline.Stable
        { inv := fun _ => True, rely := Sinks, guar := Slides D } fun c : Coordinator => c.account.Down :=
      ⟨fun moved down => moved down⟩
    refine Discipline.Triple.bind (Q := fun _ c => c.account.Down) (fun c _ s' _ _ => ?_) fun answer =>
      Discipline.Triple.bind (Q := fun _ _ => True) (Discipline.Triple.lock fun c _ down => ?_) fun _ =>
        Completing.failCommands_each _ _
    · exact ⟨trivial, slides_fail s' error, fail_down s' error⟩
    · exact ⟨trivial, slides_cut c down _ _, trivial⟩

instance : Replying Sinks (Slides Keeps) where
  reply _ _ := slides_of_same rfl rfl rfl ⟨⟨rfl, rfl, .inl rfl⟩, .refl _⟩

instance : Reporting Sinks (Slides Keeps) where
  program c _ _ := slides_of_same rfl rfl rfl (Inert.same rfl (.refl c))

theorem parks_account {c c' : Coordinator} (call : ProjectionPolicy.Call) (parks : call.parks = true)
    (policy : c'.admission.policy = (c.admission.policy.step call).2)
    (rest : { c'.account with
      closing := c.account.closing, failed := c.account.failed, processed := c.account.processed
      published := c.account.published, control := c.account.control
      activity := c.account.activity } = c.account) : c'.account = c.account := by
  obtain ⟨processed, published, control, failure, activity⟩ := c.admission.policy.step_parks parks
  have closing : c'.account.closing = c.account.closing := by
    change c'.admission.policy.status.residency.isClosing = _
    rw [policy]
    exact c.admission.policy.step_closing (ProjectionPolicy.parks_open parks)
  rw [← rest, ← closing]
  simp only [account, policy, processed, published, control, failure, activity]

theorem parks_marked {p : ProjectionPolicy} {call : ProjectionPolicy.Call} (parks : call.parks = true)
    (marked : p.Marked) : (p.step call).2.Marked :=
  ProjectionPolicy.step_marked marked call fun error same => by simp [same, ProjectionPolicy.Call.parks] at parks

instance : Shelving Sinks (Slides Shelves) where
  encoded c _ := slides_of_same rfl rfl rfl (Inert.same rfl (.refl c))
  park c call _ _ _ _ parks := by
    exact ⟨.of_same (parks_account call parks rfl rfl), Inert.same rfl (.refl c), parks_marked parks, id⟩
  retry c _ _ := slides_of_same rfl rfl rfl (Inert.same rfl (.refl c))
  wire c _ := slides_of_same rfl rfl rfl (Inert.same rfl (.refl c))
  shelve c _ _ _ _ _ _ _ _ _ shelved := slides_of_same rfl rfl rfl ⟨shelved, .refl c⟩

theorem recordActivity_room {p q : ProjectionPolicy} {now : Nat}
    (recorded : p.recordActivity now = (.ok (), q)) : p.activity + 1 ≤ u64Max := by
  unfold ProjectionPolicy.recordActivity at recorded
  split at recorded
  · cases recorded
  · split at recorded
    · cases recorded
    · exact (checkedAdd_eq_some.mp ‹_›).1

theorem admitOutput_room {p q : ProjectionPolicy} {bytes now : Nat}
    (recorded : p.admitOutput bytes now = (.ok (), q)) : p.activity + 1 ≤ u64Max := by
  unfold ProjectionPolicy.admitOutput at recorded
  split at recorded
  · cases recorded
  · split at recorded
    · cases recorded
    · split at recorded
      · cases recorded
      · exact recordActivity_room ‹_›

/-- What another thread does to the account, the rest being spared. -/
theorem slides_of_became {c c' : Coordinator} {v : Account} (became : c'.account = v)
    (beside : Account.Beside c.account v) (workspace : c'.workspace = c.workspace)
    (marked : c.admission.policy.Marked → c'.admission.policy.Marked) (tickets : c'.tickets = c.tickets) :
    Slides Spared c c' := by
  refine ⟨became ▸ beside, .of_same workspace, marked, fun seamless => ?_⟩
  rw [Seamless, tickets]
  exact seamless

theorem admitInert_slides (command : Command) (inert : command.mutates = false) :
    (locked (·.admitCommand fun a => (.ok command, a))).Upholds Sinks (Slides Spared) := by
  refine locked_each fun c => ?_
  unfold Admission.admitCommand
  cases accepting : c.admission.checkAccepting with
  | error e => exact Completing.refl c
  | ok _ => exact slides_of_became rfl (.push command (alive_of_accepting accepting) inert) rfl id rfl

theorem admitResize_slides (size : TerminalSize) (ticket : TicketId) (now : Nat) :
    (admitResize size ticket now).Upholds Sinks (Slides Spared) := by
  refine Upholds.lock fun c => ?_
  unfold Admission.admitCommand
  cases accepting : c.admission.checkAccepting with
  | error e => exact Completing.refl c
  | ok _ =>
    dsimp only
    by_cases drained : c.admission.outputDrain.isSome = true
    · rw [if_pos drained]
      exact Completing.refl c
    · rw [if_neg drained]
      rcases recorded : c.admission.policy.recordActivity now with ⟨result, policy⟩
      simp only [Admission.recordActivity, Admission.withPolicy, recorded]
      cases result with
      | error e =>
        obtain rfl := recordActivity_error recorded
        exact Completing.refl c
      | ok _ =>
        have room := recordActivity_room recorded
        obtain ⟨-, status, activity⟩ := recordActivity_ok recorded
        refine slides_of_became ?_ (.resize size ticket (alive_of_accepting accepting)
          (Bool.eq_false_iff.mpr drained) room) rfl (fun marked => ?_) rfl
        · simp only [account, Admission.closing, Admission.status, status, activity]
        · rw [ProjectionPolicy.Marked, status]
          exact marked

theorem recordExit_slides : recordExit.Upholds Sinks (Slides Spared) := by
  refine Upholds.lock fun c => ?_
  rcases recordProcessExit_cases c.admission with refused | ⟨alive, -, -, queued⟩
  · rw [refused]
    exact Completing.refl c
  · rw [queued]
    exact slides_of_became rfl (.push .processExited alive rfl) rfl id rfl

theorem admitOutput_slides (bytes : Bytes) (answer : Answer) :
    (admitOutput bytes answer).Upholds Sinks (Slides Spared) := by
  refine Upholds.lock fun c => ?_
  unfold offerOutput Admission.admitOutput
  rcases acceptOutput_cases c bytes answer.granted answer.allocated answer.now c.admission with
    ⟨acceptance, -, rejected⟩ | ⟨-, nothing⟩ | ⟨policy, admitted, queued⟩
  · rw [rejected]
    exact Completing.refl c
  · rw [nothing]
    exact Completing.refl c
  · obtain ⟨alive, running, filled⟩ := acceptOutput_running (congrArg Prod.fst queued)
    have room := admitOutput_room admitted
    obtain ⟨-, -, activity, status⟩ := admitOutput_ok admitted
    rw [queued]
    refine slides_of_became ?_ (.output bytes alive running filled room) rfl (fun marked => ?_) rfl
    · simp only [account, Admission.closing, Admission.status, status, activity]
    · rw [ProjectionPolicy.Marked, status]
      exact marked

section Discipline

/-- What a caller of the projection has to show step by step. -/
abbrev Sinking (R : Coordinator → Coordinator → Prop) : Discipline Coordinator where
  inv _ := True
  rely := Sinks
  guar := R

instance (R : Coordinator → Coordinator → Prop) : (Sinking R).Stable fun c => c.account.Down :=
  ⟨fun moved down => moved down⟩

instance (R : Coordinator → Coordinator → Prop) : (Sinking R).Stable fun _ => True := ⟨fun _ => id⟩

theorem notifyOutputDrained_slides (outcome : DrainOutcome) :
    (notifyOutputDrained outcome).Upholds Sinks (Slides Spared) := by
  refine Discipline.Triple.bind (d := Sinking (Slides Spared))
    (Q := fun failure c => failure.isSome = true → c.account.Down)
    (Discipline.Triple.lock fun c _ _ => ⟨trivial, ?_, fun broken => .inr broken⟩) fun failure =>
      Discipline.Triple.bind (Q := fun _ _ => True) ?_ fun _ =>
        Completing.wake_each.bind failUnlessClosed_each
  · have reported : (c.admission.outputDrain.or (some outcome)).isSome = true := by
      cases c.admission.outputDrain <;> rfl
    refine slides_of_became ?_ (.drain c.account) rfl id rfl
    simp only [account, Admission.recordDrain, reported]
    rfl
  · cases failure with
    | none => exact Discipline.Triple.pure fun _ _ => trivial
    | some error =>
      have stable : (Sinking (Slides Spared)).Stable fun c : Coordinator =>
          (some error).isSome = true → c.account.Down := ⟨fun moved down broken => moved (down broken)⟩
      exact Discipline.Triple.update fun c _ down => ⟨trivial, slides_cut c (down rfl) _ error, trivial⟩

theorem slides_shut (c : Coordinator) (down : c.account.Down) :
    Slides D c { c with journal := c.journal.close.2 } where
  account := .shut down
  rest := Inert.same rfl (observed_wakers (f := fun _ _ => none) rfl)
  marked := id
  seamless := id

theorem requestClose_slides (c : Coordinator) (waiter : Option TicketId) :
    let c' : Coordinator := { c with
      admission := (c.admission.requestClose waiter).2
      rounds := c.rounds.close (c.admission.requestClose waiter).1 }
    Slides Spared c c' ∧ ∀ rejected, (c.admission.requestClose waiter).1 = .started rejected → c'.account.Down := by
  have closed : c.admission.policy.close.status.residency.isClosing = true := close_residency _
  by_cases done : c.admission.status.residency = .closed
  · simp only [Admission.requestClose, if_pos done]
    exact ⟨slides_of_same rfl rfl rfl (.of_same rfl), by simp⟩
  · have frame := close_frame c.admission.policy
    simp only [Admission.requestClose, if_neg done]
    refine ⟨slides_of_became ?_ (.close c.account) rfl
      (fun marked => ProjectionPolicy.step_marked marked .close (by simp)) rfl, fun _ _ => .inl closed⟩
    simp only [account, Admission.closing, Admission.status, closed, frame.1, frame.2.1, frame.2.2.1,
      frame.2.2.2.1, frame.2.2.2.2]

theorem close_slides : (Coordinator.close).Upholds Sinks (Slides Spared) := by
  refine (reserveRequestSlot_each (R := Slides Spared)).bind fun ticket =>
    Discipline.Triple.bind (d := Sinking (Slides Spared))
      (Q := fun answer c => ∀ rejected, answer = CloseRequest.started rejected → c.account.Down)
      (Discipline.Triple.lock fun c _ _ => ?_) fun answer => ?_
  · exact ⟨trivial, requestClose_slides c ticket⟩
  refine Discipline.Triple.bind (Q := fun _ _ => True) ?_ fun result => ?_
  · cases answer with
    | alreadyClosed outcome =>
      cases ticket with
      | none => exact Discipline.Triple.pure fun _ _ => trivial
      | some ticket =>
        exact ((Completing.completeTicket_each ticket (gapless_map (by simp) outcome)).bind
          fun _ => Upholds.pure _).mono (fun _ _ => trivial) fun _ _ _ => trivial
    | started rejected =>
      refine Discipline.Triple.bind (P := fun c => c.account.Down) (Q := fun _ _ => True)
        (Discipline.Triple.update fun c _ down => ⟨trivial, slides_shut c down, trivial⟩) (fun _ =>
          (Completing.failCommands_each rejected _).bind fun _ => wakeForClose_each) |>.mono
            (fun c down => down rejected rfl) fun _ _ _ => trivial
  · cases result with
    | error e => exact Upholds.pure _
    | ok _ => cases ticket <;> exact Upholds.pure _

end Discipline

theorem publishJob_slides (a : Answer) : (publishJob a).Upholds Sinks (Slides Spared) :=
  Upholds.update fun _ => ⟨.same _, ⟨rfl, rfl, .inr ⟨_, _, _, rfl⟩⟩, id, id⟩

theorem useDisk_slides (c : Coordinator) (use : DiskUse) : Slides Spared c (c.useDisk use) := by
  cases use <;> simp only [useDisk] <;> split <;> exact slides_of_same rfl rfl rfl (.of_same rfl)

instance : Calling Sinks (Slides Spared) where
  admitResize := admitResize_slides
  push command inert _ := admitInert_slides command inert
  exit := recordExit_slides
  drains := notifyOutputDrained_slides
  closes := close_slides
  wiring _ _ := slides_of_same rfl rfl rfl (.of_same rfl)
  read _ _ _ := Upholds.lock fun c =>
    slides_of_same (account_journal c (c.journal.read_order _ _ _ _)) rfl rfl (.of_same rfl)
  cancel _ _ := slides_of_same rfl rfl rfl (.of_same rfl)
  forget c id := by
    obtain ⟨oldest, order⟩ := c.journal.remove_order id
    exact slides_of_same (account_journal c order) rfl rfl (.of_same rfl)
  stall _ _ := slides_of_same rfl rfl rfl (.of_same rfl)
  offer := admitOutput_slides

theorem call_slides (call : Call) : call.thread.Upholds Sinks (Slides Spared) :=
  Calling.call_each call (Upholds.input.bind publishJob_slides) fun use =>
    Upholds.update fun c => useDisk_slides c use

end Coordinator
end PtyRuntime
