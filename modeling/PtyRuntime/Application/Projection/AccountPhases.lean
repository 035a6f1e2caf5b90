import PtyRuntime.Application.Projection.AccountRuns

/-! The phases of a run on the account of a projection: what is in flight is polled, the
run looks for a failure, takes commands, serves transfers from a model or from the source
it read back, and seals the stream. -/
namespace PtyRuntime
open Thread PtyRuntime.Core

namespace Coordinator

theorem pollResizeSlot_over :
    Over accounts (fun c => c.account.Up) pollResizeSlot
      fun waiting c => c.account.Up ∧ (waiting = none → c.account.Slot none) := by
  refine Over.bind (G := fun (slot : Option Resizing) c => c.account.Up ∧ c.account.Slot slot)
    (Over.seen fun c _ _ up => ⟨up, rfl⟩) fun slot => ?_
  cases slot with
  | none => exact Over.pure fun _ holds => ⟨holds.1, fun _ => holds.2⟩
  | some resize =>
    apply Over.input.bind
    intro a
    cases a.osResized with
    | none => exact Over.pure fun _ holds => ⟨holds.1, fun wrong => by cases wrong⟩
    | some os =>
      refine ((finishResize_over resize os).strengthen fun c holds => ?_).bind fun _ =>
        Over.pure fun _ free => ⟨.inl free, fun _ => free.1.resize⟩
      rcases holds.1 with free | ⟨flown, flying⟩
      · cases free.1.resize.symm.trans holds.2
      · obtain rfl := Option.some.inj (flying.1.1.resize.symm.trans holds.2)
        exact flying

/-- A poll that lets the run go on leaves no resize in flight. -/
theorem pollInflightOperations_over :
    Over accounts (fun c => c.account.Up) pollInflightOperations
      fun waiting c => c.account.Up ∧ (waiting = none → c.account.Ending ∨ c.account.Slot none) := by
  refine Over.bind (G := fun (registered : Bool) c => c.account.Up ∧ (registered = false → c.account.Ending))
    (Over.seen fun c valid _ up => ⟨up, valid.registered⟩) fun registered => ?_
  cases registered with
  | false => exact Over.pure fun _ holds => ⟨holds.1, fun _ => .inl (holds.2 rfl)⟩
  | true =>
    refine ((Over.sliding Replying.pollReplySlot_each).strengthen fun _ holds => holds.1).bind fun waiting => ?_
    cases waiting with
    | some schedule => exact Over.pure fun _ up => ⟨up, fun wrong => by cases wrong⟩
    | none => exact pollResizeSlot_over.weaken fun _ _ holds => ⟨holds.1, fun done => .inr (holds.2 done)⟩

/-- Without a model or a job in flight, the source is of the policy's version. -/
def Sourced (c : Coordinator) : Prop :=
  c.account.Ending ∨ (Detached c → Jobless c → ∀ source, c.workspace.source = some source →
    c.account.Matches source.descriptor)

instance : accounts.Steady Sourced where
  keep {c c'} meddled sourced := by
    obtain ⟨beside, spares⟩ := meddled
    refine sourced.imp (Account.Lasting.keep beside) fun parked detached jobless source held => ?_
    have free : Jobless c := by
      rcases spares.io with same | ⟨config, limit, answer, published⟩
      · rw [Jobless, ← same]
        exact jobless
      · rw [Jobless, published, Option.isNone_map] at jobless
        exact jobless
    exact Account.Lasting.keep (P := (Account.Matches · source.descriptor)) beside
      (parked (spares.terminal.symm.trans detached) free source (spares.source.symm.trans held))

/-- A run that sees no failure finds the source it was parked with. -/
theorem sourced_of_idle {c : Coordinator} (valid : Valid c.core) (idle : Idle c.core)
    (fine : c.admission.status.failure = none) : c.Sourced := by
  by_cases ended : c.account.Ending
  · exact .inl ended
  refine .inr fun detached jobless source held => ?_
  have terminal : c.core.terminal = false := by simp [core, show c.workspace.terminal = none from detached]
  have free : c.core.restore = false := by simp [core, Option.isNone_iff_eq_none.mp jobless]
  rcases idle.parked terminal free with ⟨parked, -⟩ | failed | closed
  · have version := (idle.shape.parked parked).2.1
    simp only [core, held, Option.map_some, Option.some.injEq] at version
    rw [Account.Matches, version]
    exact ⟨rfl, rfl⟩
  · have recorded := valid.failed failed
    rw [show c.core.policy.status.failure = none from fine] at recorded
    cases recorded
  · exact absurd closed ended

theorem trace_slides (c : Coordinator) (trace : Trace) : Slides Keeps c { c with trace } :=
  slides_of_same rfl rfl rfl ⟨.of_same rfl, .refl c⟩

/-- What a run has seen that goes on. -/
def Cleared (failure : Option ProjectionError) (c : Coordinator) : Prop :=
  c.account.Up ∧ (failure = none → c.account.Poised ∧ c.Sourced)

theorem checkFailure_over (r : Residency) :
    Along accounts (fun k => (Idle k ∧ Seen r k) ∧ Quiet k)
      (fun c => c.account.Up ∧ (c.account.Ending ∨ c.account.Slot none)) (checkFailure r)
      (fun failure k => match failure with
        | some _ => Idle k
        | none => Primed r k) Cleared := by
  refine Along.lock (checkFailure_spec r) fun c valid core accounted holds _ => ?_
  obtain ⟨kept, owed, -⟩ := keeps_step (trace_slides c _) accounted
  refine ⟨kept, owed, holds.1, fun fine => ⟨?_, ?_⟩⟩
  · refine holds.1.poised holds.2 ?_
    change c.admission.status.failure.isSome = false
    rw [show c.admission.status.failure = none from fine]
    rfl
  · exact (sourced_of_idle valid core.1.1 fine : c.Sourced)

/-- A command that has just been taken. -/
def Fetched (command : Command) (c : Coordinator) : Prop :=
  match command with
  | .output bytes => FedOf bytes 0 c
  | .resize size ticket => c.account.Has (.resize size ticket) []
  | _ => c.account.Free ∧ c.account.Agreed

instance (command : Command) : accounts.Steady (Fetched command) :=
  match command with
  | .output bytes => inferInstanceAs (accounts.Steady (FedOf bytes 0))
  | .resize _ _ => inferInstanceAs (accounts.Steady fun c => Account.Has _ _ c.account)
  | .processExited | .view _ | .checkpoint _ =>
    inferInstanceAs (accounts.Steady fun c => c.account.Free ∧ c.account.Agreed)

/-- What a look at the queue leaves. -/
def Looked (taken : Option Command) (c : Coordinator) : Prop :=
  match taken with
  | some command => Fetched command c
  | none => c.account.Rest

theorem take_accounted {c : Coordinator} {command : Command} {rest : List Command}
    (accounted : c.Reckoned) (front : c.admission.queue = command :: rest)
    (free : c.account.Free) (agreed : c.account.Agreed) (modelled : Modelled c) :
    let c' : Coordinator := { c with
      admission := { c.admission with queue := rest }
      trace := c.trace.take (some command)
      order := c.order.take (some command) }
    c'.Reckoned ∧ Honours c c' ∧ Fetched command c' := by
  by_cases mutates : command.mutates = true
  · have became : ({ c with
        admission := { c.admission with queue := rest }
        trace := c.trace.take (some command)
        order := c.order.take (some command) } : Coordinator).account =
        { c.account with queue := rest, log := { c.account.log with current := some command } } := by
      simp only [account, OrderLog.take, if_pos mutates]
      rfl
    have kept := accounted.kept.take front mutates free.1.current
      (free.1.given.trans (List.append_nil _))
    obtain ⟨accounted, owed⟩ := accounted.still became ⟨⟨rfl, rfl⟩, rfl, id, .refl c⟩ kept ⟨rfl, rfl, rfl⟩
      (.inr ⟨rfl, rfl, rfl⟩)
    have has := free.take agreed command rest
    rw [← became] at has
    refine ⟨accounted, owed, ?_⟩
    cases command with
    | output bytes => exact ⟨has, modelled⟩
    | resize size ticket => exact has
    | processExited | view | checkpoint => cases mutates
  · have inert : command.mutates = false := Bool.eq_false_iff.mpr mutates
    have became : ({ c with
        admission := { c.admission with queue := rest }
        trace := c.trace.take (some command)
        order := c.order.take (some command) } : Coordinator).account = { c.account with queue := rest } := by
      simp only [account, OrderLog.take, inert]
      rfl
    have beside := Account.Beside.pop command rest (v := c.account) front inert
    have slides : Slides Keeps c { c with
        admission := { c.admission with queue := rest }
        trace := c.trace.take (some command)
        order := c.order.take (some command) } :=
      ⟨by rw [became]; exact beside, ⟨⟨rfl, rfl, .inl rfl⟩, .refl c⟩, id, id⟩
    obtain ⟨accounted, owed, -⟩ := keeps_step slides accounted
    refine ⟨accounted, owed, ?_⟩
    have still : Account.Free { c.account with queue := rest } ∧ Account.Agreed { c.account with queue := rest } :=
      ⟨Account.Lasting.keep beside free, Account.Lasting.keep beside agreed⟩
    rw [← became] at still
    cases command with
    | output | resize => cases inert
    | processExited | view | checkpoint => exact still

theorem take_over {A : Core → Prop} [Core.Steady A] {F : Coordinator → Prop} [accounts.Steady F]
    {B : Option Command → Core → Prop} {take : Coordinator → Option Command × Admission}
    (base : Spec A (takeCommand take) B) (live : ∀ k, A k → k.terminal = true)
    (rest : ∀ c, F c → c.account.Rest)
    (took : ∀ c, take c = (none, c.admission) ∨ ∃ command rest, c.admission.queue = command :: rest ∧
      take c = (some command, { c.admission with queue := rest }) ∧
        (c.Reckoned → F c → c.account.Free ∧ c.account.Agreed)) :
    Along accounts A F (takeCommand take) B Looked := by
  refine Along.lock base fun c _ core accounted holds _ => ?_
  rcases took c with refused | ⟨command, others, front, taken, ready⟩
  · rw [refused]
    obtain ⟨kept, owed, -⟩ := keeps_step (trace_slides c _) accounted
    exact ⟨kept, owed, rest c holds⟩
  · obtain ⟨free, agreed⟩ := ready accounted holds
    rw [taken]
    exact take_accounted accounted front free agreed (live c.core core)

/-- A queue that is not empty is that of a projection that is not closing. -/
theorem Poised.fetch {c : Coordinator} {command : Command} {rest : List Command} (accounted : c.Reckoned)
    (poised : c.account.Poised) (front : c.admission.queue = command :: rest) :
    c.account.Free ∧ c.account.Agreed := poised.of_open (accounted.kept.alive front)

theorem takeNext_over (r : Residency) (serving : r ≠ .usable) :
    Along accounts (fun k => Primed r k ∧ TerminalIs true k) (fun c => c.account.Poised)
      (takeCommand (·.admission.takeNext))
      (fun taken k => match taken with
        | some command => Ready command k
        | none => Idle k ∧ Quiet k) Looked := by
  refine take_over (takeNext_spec r serving) (fun k core => core.2) (fun c poised => poised.rest) fun c => ?_
  rcases takeNext_cases c.admission with ⟨-, refused⟩ | ⟨command, rest, front, took⟩
  · exact .inl refused
  · exact .inr ⟨command, rest, front, took, fun accounted poised => Poised.fetch accounted poised front⟩

theorem takeRestoring_over :
    Along accounts (fun k => (Primed .usable k ∧ TerminalIs true k) ∧ OwedIs false k)
      (fun c => c.account.Poised) (takeCommand fun c => c.admission.takeNextIf c.allowedDuringRestore)
      (fun taken k => match taken with
        | some command => Ready command k
        | none => Live k ∧ Seen .usable k) Looked := by
  refine take_over takeRestoring_spec (fun k core => core.1.2) (fun c poised => poised.rest) fun c => ?_
  rcases takeNextIf_cases c.admission c.allowedDuringRestore with refused | ⟨command, rest, -, front, took⟩
  · exact .inl refused
  · exact .inr ⟨command, rest, front, took, fun accounted poised => Poised.fetch accounted poised front⟩

/-- Further output is only taken from a projection that is not down. -/
theorem takeOutput_over :
    Along accounts Live (fun c => c.account.Rest ∧ c.account.Slot none)
      (takeCommand (·.admission.takeNextOutputWhileServing))
      (fun taken k => match taken with
        | some command => Ready command k
        | none => Live k) Looked := by
  refine take_over takeOutput_spec (fun k live => live.terminal) (fun c holds => holds.1) fun c => ?_
  rcases takeOutput_cases c.admission with refused | ⟨command, rest, fine, -, alive, -, front, took⟩
  · exact .inl refused
  · refine .inr ⟨command, rest, front, took, fun accounted holds => ?_⟩
    have up : ¬c.account.Down := by
      rintro (closed | broken)
      · exact absurd (alive.symm.trans closed) (by decide)
      · have broken : c.admission.status.failure.isSome = true := broken
        rw [fine] at broken
        cases broken
    have free := (holds.1.2.resolve_left up).free holds.2
    exact ⟨free, free.2.level.resolve_right fun behind => up behind.1⟩

/-- A checkpoint on its way into a transfer stands where the stream does. -/
def Carried (result : Except ProjectionError TerminalCheckpoint) (v : Account) : Prop :=
  ∀ checkpoint, result = .ok checkpoint → v.Matches checkpoint.descriptor ∧ v.Agreed

instance (result : Except ProjectionError TerminalCheckpoint) : Account.Lasting (Carried result) where
  keep beside carried checkpoint done := by
    obtain ⟨version, agreed⟩ := carried checkpoint done
    exact ⟨Account.Lasting.keep (P := (Account.Matches · checkpoint.descriptor)) beside version,
      Account.Lasting.keep beside agreed⟩

theorem openObserver_slides (c : Coordinator) :
    Slides Keeps c { c with journal := c.journal.openObserver.2 } := by
  refine slides_of_same (account_journal c (?_ : _ = { c.journal.order with oldest := c.journal.order.oldest })) rfl rfl
    ⟨.of_same rfl, ?_⟩
  · rw [c.journal.openObserver_order]
  · intro id present
    rcases c.journal.openObserver_cases with ⟨error, refused⟩ | ⟨start, opened⟩
    · rw [refused]
      exact present
    · rw [opened]
      change ((c.journal.observers.insert c.journal.nextObserver none).get? id).isSome = true
      rw [SortedMap.get?_insert]
      split
      · rfl
      · exact present

variable {P : Account → Prop} [Account.Lasting P]

/-- The observer of a transfer always starts where its checkpoint stands. -/
theorem openTransfer_over (ticket : TicketId) (checkpoint : TerminalCheckpoint) :
    Over accounts (fun c => P c.account ∧ Carried (.ok checkpoint) c.account)
      (openTransfer ticket checkpoint) fun _ c => P c.account := by
  refine Over.bind (G := fun (opened : Except ProjectionError TransferObserver) c => P c.account ∧
    ∀ observer, opened = .ok observer → observer.start.processed = checkpoint.descriptor.processed ∧
      observer.start.controlGeneration = checkpoint.descriptor.controlGeneration)
    (Over.lock fun c _ accounted holds => ?_) fun opened => ?_
  · obtain ⟨kept, owed, meddled⟩ := keeps_step (openObserver_slides c) accounted
    refine ⟨kept, owed, Addition.Steady.keep (F := fun c => P c.account) meddled holds.1, fun observer opened => ?_⟩
    obtain ⟨version, agreed⟩ := holds.2 checkpoint rfl
    have start := Journal.openObserver_start (Prod.ext opened rfl)
    rw [start]
    exact ⟨agreed.1.trans version.1.symm, agreed.2.trans version.2.symm⟩
  · cases opened with
    | error e =>
      exact Over.strengthen (F := fun c => P c.account)
        (Over.sliding (Completing.completeTicket_each _ (gapless_error e))) fun _ holds => holds.1
    | ok observer =>
      dsimp only
      split
      · rename_i differs
        intro c holds
        obtain ⟨processed, control⟩ := holds.2 observer rfl
        exact absurd differs (not_or.mpr ⟨not_not.mpr processed, not_not.mpr control⟩)
      · rename_i level
        refine Over.strengthen (F := fun c => P c.account)
          (Over.sliding (Completing.completeTicket_each _ fun transfer same => ?_)) fun _ holds => holds.1
        obtain rfl := TicketValue.transferred.inj (Except.ok.inj same)
        exact (not_or.mp level).imp not_not.mp not_not.mp

theorem completeRequest_over (request : SnapshotRequest)
    (result : Except ProjectionError TerminalCheckpoint) :
    Over accounts (fun c => P c.account ∧ Carried result c.account) (completeRequest request result)
      fun _ c => P c.account := by
  refine Over.strengthen (F := fun c => P c.account ∧ Carried result c.account) ?_ fun _ => id
  cases request with
  | checkpoint ticket =>
    exact Over.strengthen (F := fun c => P c.account)
      (Over.sliding (Completing.completeTicket_each _ (gapless_map (by simp) result))) fun _ holds => holds.1
  | transfer ticket =>
    apply Over.glance.bind
    intro cancelled
    split
    · exact Over.pure fun _ holds => holds.1
    · cases result with
      | error e =>
        exact Over.strengthen (F := fun c => P c.account)
          (Over.sliding (Completing.completeTicket_each _ (gapless_error e))) fun _ holds => holds.1
      | ok checkpoint => exact openTransfer_over ticket checkpoint

/-- What the engine encodes carries the descriptor it was given. -/
theorem encode_over (descriptor : CheckpointDescriptor) :
    Over accounts (fun c => P c.account) (encode descriptor) fun result c => P c.account ∧
      ∀ checkpoint, result = .ok checkpoint → checkpoint.descriptor = descriptor := by
  apply Over.glance.bind
  intro present
  split
  · apply (Over.sliding (Bystanding.nativeCall_each _)).bind
    intro result
    cases result with
    | error e => exact Over.pure fun _ holds => ⟨holds, by simp⟩
    | ok checkpoint =>
      refine Over.seen fun c _ _ holds => ⟨holds, fun other encoded => ?_⟩
      split at encoded
      · cases encoded
      · rename_i same
        split at encoded
        · cases encoded
        · obtain rfl := Except.ok.inj encoded
          exact not_not.mp same
  · exact Over.pure fun _ holds => ⟨holds, by simp⟩

theorem snapshotResult_over :
    Over accounts (fun c => P c.account ∧ c.account.Agreed) snapshotResult
      fun result c => P c.account ∧ Carried result c.account := by
  apply Over.input.bind
  intro lease
  split
  · refine Over.bind (G := fun (version : CheckpointDescriptor) c =>
      (P c.account ∧ c.account.Agreed) ∧ c.account.Matches version)
      (Over.seen fun c _ _ holds => ⟨holds, rfl, rfl⟩) fun version => ?_
    refine (encode_over (P := fun v => (P v ∧ v.Agreed) ∧ v.Matches version) version).weaken
      fun result c holds => ⟨holds.1.1.1, fun checkpoint done => ?_⟩
    rw [holds.2 checkpoint done]
    exact ⟨holds.1.2, holds.1.1.2⟩
  · exact Over.pure fun _ holds => ⟨holds.1, by simp [Carried]⟩

theorem snapshot_over (request : SnapshotRequest) :
    Over accounts (fun c => P c.account ∧ c.account.Agreed) (snapshot request) fun _ c => P c.account := by
  apply (Over.sliding (Completing.requestCancelled_each request)).bind
  intro cancelled
  split
  · exact Over.pure fun _ holds => holds.1
  · refine snapshotResult_over.bind fun result => Over.glance.bind fun now => ?_
    split
    · exact Over.strengthen (F := fun c => P c.account) (Over.sliding (Completing.failRequest_each _ _))
        fun _ holds => holds.1
    · exact completeRequest_over request result

theorem applyCommand_over (command : Command) :
    Over accounts (Fetched command) (applyCommand command) fun _ c => c.account.Rest := by
  cases command with
  | output bytes => exact applyOutput_over bytes
  | resize size ticket => exact applyResize_over size ticket
  | processExited =>
    exact (Over.sliding Reporting.applyExit_each).bind fun _ => Over.pure fun _ holds => holds.1.rest
  | view ticket =>
    exact (Over.sliding (Bystanding.applyView_each ticket)).bind fun _ => Over.pure fun _ holds => holds.1.rest
  | checkpoint request =>
    exact (snapshot_over (P := Account.Free) request).bind fun _ => Over.pure fun _ free => free.rest

/-- A drain is settled only when all that was admitted has had its effect. -/
theorem caught_of_settled {c : Coordinator} {idle : Bool} {drain : DrainOutcome}
    (settled : c.admission.settledDrain idle = some drain) : idle = true ∧ c.account.Caught := by
  unfold Admission.settledDrain at settled
  split at settled
  · rename_i quiet
    obtain ⟨idle, -, -, inert, level, -⟩ := quiet
    refine ⟨idle, Option.isSome_of_eq_some settled, ?_, level.symm⟩
    refine List.filter_eq_nil_iff.mpr fun command member mutates => ?_
    have inert := List.all_eq_true.mp inert command member
    simp [mutates] at inert
  · cases settled

/-- The stream ends where the policy stands. -/
theorem finish_over (drain : DrainOutcome) :
    Over accounts (fun c => (c.account.Poised ∧ c.Sourced) ∧ c.account.Free ∧ c.account.Caught)
      (onJournal (·.finish (some drain) none)) fun _ c => c.account.Poised ∧ c.Sourced := by
  refine Over.update fun c _ accounted holds => ?_
  obtain ⟨⟨poised, sourced⟩, ⟨held, books⟩, caught⟩ := holds
  have observed : Observed c { c with journal := (c.journal.finish (some drain) none).2 } :=
    observed_wakers (f := fun _ _ => none) rfl
  rcases finish_account c (some drain) none with same | ⟨unsealed, opened, became⟩
  · obtain ⟨kept, owed, meddled⟩ := keeps_step (slides_of_same same rfl rfl ⟨.of_same rfl, observed⟩) accounted
    exact ⟨kept, owed, Addition.Steady.keep (F := fun c => c.account.Poised ∧ c.Sourced) meddled ⟨poised, sourced⟩⟩
  · have agreed := books.level.resolve_right fun behind => by
      rcases behind.2 with sealed | shut
      · rw [unsealed] at sealed
        cases sealed
      · exact absurd (opened.symm.trans shut) (by decide)
    obtain ⟨accounted, owed⟩ := accounted.move became ⟨⟨rfl, rfl⟩, rfl, id, observed⟩
      (accounted.kept.finish held agreed caught drain)
      ⟨rfl, rfl, fun ended sealed => by cases unsealed.symm.trans sealed⟩ (.inr ⟨rfl, rfl, rfl⟩)
    refine ⟨accounted, owed, became ▸ poised.finish _, ?_⟩
    rw [Sourced, became]
    exact sourced

theorem sealJournalIfDrained_over :
    Over accounts (fun c => c.account.Poised ∧ c.Sourced) sealJournalIfDrained
      fun _ c => c.account.Poised ∧ c.Sourced := by
  refine Over.bind (G := fun (idle : Bool) c => (c.account.Poised ∧ c.Sourced) ∧
    (idle = true → c.account.Slot none)) (Over.seen fun c _ _ holds => ⟨holds, fun idle =>
      Option.isNone_iff_eq_none.mp (Bool.and_eq_true_iff.mp idle).1⟩) fun engineIdle => ?_
  refine Over.bind (G := fun (drain : Option DrainOutcome) c => (c.account.Poised ∧ c.Sourced) ∧
    (drain.isSome = true → c.account.Free ∧ c.account.Caught)) (Over.seen fun c _ _ holds =>
      ⟨holds.1, fun found => ?_⟩) fun drain => ?_
  · obtain ⟨drain, settled⟩ := Option.isSome_iff_exists.mp found
    obtain ⟨idle, caught⟩ := caught_of_settled settled
    exact ⟨holds.1.1.1.free (holds.2 idle), caught⟩
  cases drain with
  | none => exact Over.pure fun _ holds => holds.1
  | some drain =>
    apply (Over.sliding Reporting.finishProgramDrain_each).bind
    intro result
    cases result with
    | error error =>
      exact Over.strengthen (F := fun c => c.account.Poised ∧ c.Sourced)
        (Over.sliding (Bystanding.fails error)) fun _ holds => holds.1
    | ok _ => exact (finish_over drain).strengthen fun _ holds => ⟨holds.1, holds.2 rfl⟩

/-- A source about to be read back for a transfer. -/
def Readable (source : CommittedSource) (v : Account) : Prop :=
  v.Rest ∧ v.Agreed ∧ v.Matches source.descriptor

instance (source : CommittedSource) : Account.Lasting (Readable source) :=
  inferInstanceAs (Account.Lasting fun v => v.Rest ∧ v.Agreed ∧ v.Matches source.descriptor)

theorem readForTransfer_over (source : CommittedSource) (request : SnapshotRequest) :
    Over accounts (fun c => Readable source c.account ∧ Detached c) (readForTransfer source request)
      fun _ c => c.account.Rest := by
  refine Over.bind (G := fun _ c => c.account.Rest) (Over.input.bind fun a => Over.lock
    fun c _ accounted holds => ?_) fun result => ?_
  · obtain ⟨⟨rest, agreed, version⟩, detached⟩ := holds
    split
    · exact ⟨accounted, .refl c, rest⟩
    split
    · refine ⟨⟨accounted.kept, accounted.marked, ?_, accounted.seamless⟩, ⟨id, fun _ => id, .refl c⟩, rest⟩
      intro request source mailbox pending
      obtain ⟨-, rfl, rfl⟩ := PendingIo.transfer.inj (Option.some.inj pending)
      exact ⟨detached, version, agreed, by simp⟩
    · exact ⟨accounted, .refl c, rest⟩
  · cases result with
    | ok _ => exact Over.pure fun _ => id
    | error error =>
      exact (Over.sliding (Completing.failRequest_each _ _)).bind fun _ => Over.pure fun _ => id

/-- What a detached run has found to do. -/
structure Found (work : Option (Option Command)) (c : Coordinator) : Prop where
  poised : c.account.Poised
  detached : Detached c
  agreed : ∀ command, work = some (some command) → c.account.Agreed
  version : ∀ command, work = some (some command) → ∀ source, c.workspace.source = some source →
    c.account.Matches source.descriptor

instance (work : Option (Option Command)) : accounts.Steady (Found work) where
  keep {c c'} meddled found := by
    constructor
    · exact Account.Lasting.keep meddled.1 found.poised
    · exact Addition.Steady.keep meddled found.detached
    · exact fun command taken => Account.Lasting.keep meddled.1 (found.agreed command taken)
    · intro command taken source held
      exact Account.Lasting.keep (P := (Account.Matches · source.descriptor)) meddled.1
        (found.version command taken source (meddled.2.source.symm.trans held))

theorem takeWork_over :
    Over accounts (fun c => ((c.account.Poised ∧ c.Sourced) ∧ Detached c) ∧ Jobless c) takeWork Found := by
  refine Over.lock fun c _ accounted holds => ?_
  obtain ⟨⟨⟨poised, sourced⟩, detached⟩, jobless⟩ := holds
  unfold Admission.takeCheckpointIfAnyWork
  split
  · obtain ⟨kept, owed, -⟩ := keeps_step (slides_of_same rfl rfl rfl ⟨.of_same rfl, .refl c⟩ :
      Slides Keeps c { c with exits := c.exits.lookAgain c.admission.queue }) accounted
    exact ⟨kept, owed, poised, detached, by simp, by simp⟩
  · rename_i request rest front
    have alive := accounted.kept.alive (v := c.account) front
    obtain ⟨free, agreed⟩ := poised.of_open alive
    have version := sourced.resolve_left (fun ended => absurd (alive.symm.trans ended) (by decide))
      detached jobless
    have slides : Slides Keeps c { c with
        admission := { c.admission with queue := rest }
        exits := c.exits.lookAgain c.admission.queue } :=
      ⟨.pop (.checkpoint request) rest front rfl, ⟨.of_same rfl, .refl c⟩, id, id⟩
    obtain ⟨kept, owed, beside, -⟩ := keeps_step slides accounted
    exact ⟨kept, owed, Account.Lasting.keep beside poised, detached, fun _ _ => Account.Lasting.keep beside agreed,
      fun _ _ => version⟩
  · obtain ⟨kept, owed, -⟩ := keeps_step (slides_of_same rfl rfl rfl ⟨.of_same rfl, .refl c⟩ :
      Slides Keeps c { c with exits := c.exits.lookAgain c.admission.queue }) accounted
    exact ⟨kept, owed, poised, detached, by simp, by simp⟩

theorem startRead_over (transfer : Option Command) :
    Over accounts (Found (some transfer)) (startRead transfer) fun _ c => c.account.Rest := by
  apply Over.glance.bind
  intro available
  split
  · refine Over.bind (G := fun (slot : Option CommittedSource) c => (c.account.Rest ∧ Detached c) ∧
      ∀ command, transfer = some command → ∀ source, slot = some source → Readable source c.account)
      (Over.seen fun c _ _ found => ?_) fun slot => ?_
    · refine ⟨⟨found.poised.rest, found.detached⟩, fun command taken source held => ?_⟩
      subst taken
      exact ⟨found.poised.rest, found.agreed command rfl, found.version command rfl source held⟩
    cases slot with
    | none =>
      exact Over.strengthen (F := fun c => c.account.Rest)
        ((Over.sliding (Bystanding.fails _)).bind fun _ => Over.pure fun _ => id) fun _ holds => holds.1.1
    | some source =>
      apply Over.input.bind
      intro memory
      split
      · exact (readForTransfer_over source _).strengthen fun _ holds =>
          ⟨holds.2 _ rfl source rfl, holds.1.2⟩
      · exact Over.strengthen (F := fun c => c.account.Rest)
          (Over.shelving (Shelving.readForRestore_each source)) fun _ holds => holds.1.1
      · exact Over.strengthen (F := fun c => c.account.Rest)
          ((Over.sliding (Completing.failCommand_each _ _)).bind fun _ => Over.pure fun _ => id)
          fun _ holds => holds.1.1
      · exact Over.pure fun _ holds => holds.1.1
  · exact Over.pure fun _ found => found.poised.rest

theorem readBackSource_over :
    Over accounts (fun c => (c.account.Poised ∧ c.Sourced) ∧ Detached c) readBackSource
      fun _ c => c.account.Rest := by
  refine Over.bind (G := fun (busy : Bool) c => ((c.account.Poised ∧ c.Sourced) ∧ Detached c) ∧
    (busy = false → Jobless c)) (Over.seen fun c _ _ holds => ⟨holds, fun free => ?_⟩) fun busy => ?_
  · rw [Jobless, ← Option.not_isSome, free]
    rfl
  cases busy with
  | true => exact Over.pure fun _ holds => holds.1.1.1.rest
  | false =>
    refine (takeWork_over.strengthen fun _ holds => ⟨holds.1, holds.2 rfl⟩).bind fun work => ?_
    cases work with
    | none => exact Over.pure fun _ found => found.poised.rest
    | some transfer => exact startRead_over transfer

theorem takeDuringRestore_over :
    Along accounts (fun k => Primed .usable k ∧ TerminalIs true k) (fun c => c.account.Poised)
      takeDuringRestore
      (fun taken k => match taken with
        | some command => Ready command k
        | none => Live k ∧ Seen .usable k) Looked := by
  refine Along.bind (B := fun (owed : Bool) k => (Primed .usable k ∧ TerminalIs true k) ∧ OwedIs owed k)
    (Over.glance.along (Spec.look fun c _ holds => ⟨holds, rfl⟩)) fun owed => ?_
  cases owed with
  | true => exact Along.pure fun _ core poised => ⟨primed_owed core, poised.rest⟩
  | false => exact takeRestoring_over

/-- Owing history a step is no part of the account. -/
theorem owe_over (command : Command) :
    Along accounts (Ready command) (Fetched command) (onWorkspace fun w => { w with historyStepOwed := true })
      (fun _ => Ready command) fun _ => Fetched command := by
  refine (Over.sliding (Upholds.update fun c => ?_)).along (Spec.update fun c valid ready => ?_)
  · exact slides_of_same rfl rfl rfl ⟨⟨rfl, rfl, .inl rfl⟩, .refl c⟩
  · exact ⟨valid.workspace _ _ _ _, .of_policy rfl rfl rfl, ready_owed ready true⟩

theorem restoreStep_over :
    Along accounts (fun k => Primed .usable k ∧ TerminalIs true k) (fun c => c.account.Poised) restoreStep
      (fun _ => Idle) fun _ c => c.account.Rest := by
  apply takeDuringRestore_over.bind
  intro taken
  cases taken with
  | some command =>
    exact (owe_over command).bind fun _ =>
      ((applyCommand_over command).along (applyCommand_spec command)).weaken fun _ _ live rest =>
        ⟨live.idle, rest⟩
  | none => exact (Over.shelving (P := Account.Rest) Shelving.stepHistory_each).along stepHistory_spec

theorem serveBatch_over (left fed : Nat) (schedule : WorkSchedule) :
    Along accounts Live (fun c => c.account.Rest) (serveBatch left fed schedule) (fun _ => Live)
      fun _ c => c.account.Rest := by
  induction left generalizing fed schedule with
  | zero => exact Along.pure fun _ live rest => ⟨live, rest⟩
  | succ left ih =>
    refine Along.bind (B := fun _ => Live) (G := fun (quiet : Bool) c => c.account.Rest ∧
      (quiet = true → c.account.Slot none)) ((Over.seen fun c _ _ rest => ⟨rest, fun quiet =>
        Option.isNone_iff_eq_none.mp (Bool.and_eq_true_iff.mp quiet).2⟩).along Spec.glance) fun quiet => ?_
    split
    · rename_i goes
      refine (takeOutput_over.strengthen fun _ live holds => ⟨live, holds.1, holds.2 goes.2.2⟩).bind fun taken => ?_
      cases taken with
      | none => exact Along.pure fun _ live rest => ⟨live, rest⟩
      | some command =>
        exact ((applyCommand_over command).along (applyCommand_spec command)).bind fun schedule => ih _ schedule
    · exact Along.pure fun _ live holds => ⟨live, holds.1⟩

theorem serveCommand_over (command : Command) :
    Along accounts (Ready command) (Fetched command) (serveCommand command) (fun _ => Idle)
      fun _ c => c.account.Rest := by
  apply ((applyCommand_over command).along (applyCommand_spec command)).bind
  intro schedule
  cases command with
  | output bytes => exact (serveBatch_over _ _ _).weaken fun _ _ live rest => ⟨live.idle, rest⟩
  | processExited | resize | view | checkpoint => exact Along.pure fun _ live rest => ⟨live.idle, rest⟩

theorem serve_over (r : Residency) (serving : r ≠ .usable) :
    Along accounts (fun k => Primed r k ∧ TerminalIs true k) (fun c => c.account.Poised) serve (fun _ => Idle)
      fun _ c => c.account.Rest := by
  refine ((Over.shelving Shelving.maintain_each).along maintain_spec).bind fun maintenance =>
    (takeNext_over r serving).bind fun taken => ?_
  cases taken with
  | some command => exact serveCommand_over command
  | none =>
    exact (Over.shelving (P := Account.Rest) (Shelving.serveIdle_each maintenance)).along
      (serveIdle_spec maintenance)

theorem takeExit_over {F : Coordinator → Prop} [accounts.Steady F] :
    Over accounts F takeExit fun _ => F := by
  refine Over.bind (G := fun _ => F) (Over.sliding (Upholds.lock fun c => ?_)) fun taken => ?_
  · rcases takeNextIf_cases c.admission (· == .processExited) with refused | ⟨command, rest, exit, front, took⟩
    · rw [refused]
      exact slides_of_same rfl rfl rfl ⟨.of_same rfl, .refl c⟩
    · rw [took]
      obtain rfl : command = .processExited := by simpa using exit
      exact ⟨.pop .processExited rest front rfl, ⟨.of_same rfl, .refl c⟩, id, id⟩
  · cases taken with
    | none => exact Over.pure fun _ => id
    | some command => exact Over.sliding Reporting.applyExit_each

theorem detached_of (r : Residency) (c : Coordinator) (phase : Phase.of r c.workspace = .detached) :
    Detached c := by
  unfold Phase.of at phase
  split at phase
  · exact Option.isNone_iff_eq_none.mp ‹_›
  · split at phase <;> cases phase

theorem runPhase_over (r : Residency) :
    Along accounts (Primed r) (fun c => c.account.Poised ∧ c.Sourced) (runPhase r) (fun _ => Idle)
      fun _ c => c.account.Rest := by
  refine (takeExit_over.along (takeExit_spec r)).bind fun _ =>
    (sealJournalIfDrained_over.along sealJournalIfDrained_spec).bind fun _ => ?_
  refine Along.bind (B := fun (phase : Phase) k => Primed r k ∧ InPhase r k phase)
    (G := fun (phase : Phase) c => (c.account.Poised ∧ c.Sourced) ∧ (phase = .detached → Detached c))
    ((Over.seen fun c _ _ holds => ⟨holds, detached_of r c⟩).along
      (Spec.look fun c _ primed => ⟨primed, inPhase_of r c⟩)) fun phase => ?_
  cases phase with
  | detached =>
    refine (readBackSource_over.along readBackSource_spec).strengthen fun c core holds =>
      ⟨⟨core.1.idle ?_, core.2⟩, holds.1, holds.2 rfl⟩
    rw [Core.dequeues, show c.core.terminal = false from core.2, Bool.false_and]
  | restoring =>
    rintro c ⟨⟨primed, terminal, rfl⟩, holds⟩
    exact restoreStep_over c ⟨⟨primed, terminal⟩, holds.1.1⟩
  | serving =>
    rintro c ⟨⟨primed, terminal, serving⟩, holds⟩
    exact serve_over r serving c ⟨⟨primed, terminal⟩, holds.1.1⟩

theorem runOpen_over (r : Residency) :
    Along accounts (fun k => Idle k ∧ Seen r k) (fun c => c.account.Up) (runOpen r) (fun _ => Idle)
      fun _ c => c.account.Rest := by
  apply (pollInflightOperations_over.along (pollInflightOperations_spec r)).bind
  intro polled
  cases polled with
  | some schedule => exact Along.pure fun _ core holds => ⟨core.1.1, holds.1.rest⟩
  | none =>
    refine ((checkFailure_over r).strengthen fun _ core holds =>
      ⟨⟨core.1, core.2 rfl⟩, holds.1, holds.2 rfl⟩).bind fun failure => ?_
    cases failure with
    | some error =>
      exact ((Over.shelving (P := Account.Rest) Shelving.workWhileFailed_each).along
        workWhileFailed_spec).strengthen fun _ core holds => ⟨core, holds.1.rest⟩
    | none => exact (runPhase_over r).strengthen fun _ core holds => ⟨core, holds.2 rfl⟩

end Coordinator
end PtyRuntime
