import PtyRuntime.Application.Projection.InflightLaws
import PtyRuntime.Application.Projection.IoLaws

/-! Every program that takes the workspace lock keeps the worker's promises, from
any state it can find the projection in. Only a run that has seen no failure and
then a live model dequeues output unguarded. -/
namespace PtyRuntime
open Thread PtyRuntime.Core

namespace Core

/-- Whether a run that began at residency `r` dequeues unguarded. -/
def dequeues (r : Residency) (k : Core) : Bool :=
  k.terminal && (decide (r ≠ .usable) || (!k.owed && k.mutation))

/-- A run that has just seen no failure. -/
structure Primed (r : Residency) (k : Core) : Prop where
  empty : k.trace.hand = none
  shape : Shape k
  clean : k.trace.fed = k.trace.applied.flatten ∨ k.closing = true
  quiet : Quiet k
  seen : Seen r k
  poised : k.trace.poised = k.dequeues r

instance (r : Residency) : Steady (Primed r) where
  keep {k k'} beside primed := by
    obtain ⟨applied, hand, fed, poised, -⟩ := beside.trace
    constructor
    · rw [hand, primed.empty]
    · exact Steady.keep beside primed.shape
    · rw [fed, applied]
      exact primed.clean.imp id beside.closing
    · exact Steady.keep beside primed.quiet
    · exact Steady.keep beside primed.seen
    · obtain ⟨terminal, -, -, -, -, -, owed⟩ := beside.workspace
      rw [poised, primed.poised, dequeues, dequeues, terminal, owed, beside.fixed.2.1]

/-- A primed run that will not dequeue is as good as an idle one. -/
theorem Primed.idle {r : Residency} {k : Core} (primed : Primed r k) (calm : k.dequeues r = false) :
    Idle k :=
  ⟨primed.empty, primed.poised.trans calm, primed.shape, primed.clean.imp id .inr⟩

theorem outputs_inert {k : Core} {command : Command} {rest : List Command}
    (front : k.queue = command :: rest) (inert : command.output? = none) :
    k.outputs = rest.filterMap Command.output? := by
  rw [outputs, front, List.filterMap_cons_none inert]

/-- A queue that lost its head is no less quiet. -/
theorem Attempted.tail {attempt : ParkAttempt} {k k' : Core} {command : Command} {rest : List Command}
    (attempted : Attempted attempt k) (front : k.queue = command :: rest)
    (same : k' = { k with queue := rest, trace := k'.trace }) (since : k'.trace.since = k.trace.since) :
    Attempted attempt k' := by
  rw [same]
  refine ⟨attempted.within, fun current => ?_⟩
  obtain ⟨zero, inert, others⟩ := attempted.quiet current
  refine ⟨since.trans zero, fun command member => inert command ?_, others⟩
  rw [front]
  exact List.mem_cons_of_mem _ member

/-- Dropping a head that moves nothing. -/
theorem takeInert_kept {k : Core} {command : Command} {rest : List Command} (valid : Valid k)
    (front : k.queue = command :: rest) (inert : command.output? = none) :
    Valid { k with queue := rest } ∧ Owes k { k with queue := rest } := by
  have outputs := outputs_inert front inert
  constructor
  · refine { valid with
      conserved := fun alive => ?_
      fed := fun alive => ?_
      attempted := fun attempt pending => ?_ }
    · rw [valid.conserved alive, outputs]
      rfl
    · have fed := valid.fed alive
      rw [outputs] at fed
      exact fed
    · obtain ⟨attempted, version⟩ := valid.attempted attempt pending
      exact ⟨attempted.tail front rfl rfl, version⟩
  · exact .of_policy rfl rfl rfl

/-- The worker is poised only by a look that found no failure. -/
theorem poise_kept {k : Core} (valid : Valid k) (poised : Bool)
    (fine : poised = true → k.policy.status.failure = none) :
    Valid { k with trace := { k.trace with poised } } ∧
      Owes k { k with trace := { k.trace with poised } } := by
  refine ⟨{ valid with attempted := fun attempt pending => ?_ },
    .of_residency rfl rfl rfl rfl fun failed _ _ => ⟨failed, ?_, List.prefix_rfl, .inl rfl⟩⟩
  · obtain ⟨attempted, version⟩ := valid.attempted attempt pending
    exact ⟨⟨attempted.within, attempted.quiet⟩, version⟩
  · apply Bool.eq_false_iff.mpr
    intro poised
    rw [fine poised] at failed
    cases failed

theorem settle_kept {k : Core} (valid : Valid k) :
    Valid { k with trace := { k.trace with poised := false } } ∧
      Owes k { k with trace := { k.trace with poised := false } } :=
  poise_kept valid false fun wrong => by cases wrong

/-- The state after the worker has dequeued the head. -/
def dequeue (k : Core) (command : Command) (rest : List Command) : Core :=
  { k with queue := rest, trace := k.trace.take (some command) }

theorem dequeue_valid {k : Core} {command : Command} {rest : List Command} (valid : Valid k)
    (front : k.queue = command :: rest) (empty : k.trace.hand = none) :
    Valid (k.dequeue command rest) := by
  cases command with
  | output bytes =>
    have outputs : k.outputs = bytes :: rest.filterMap Command.output? := by
      rw [outputs, front]
      rfl
    refine { valid with
      conserved := fun alive => ?_
      fed := fun alive => ?_
      attempted := fun attempt pending => ?_ }
    · have conserved := valid.conserved alive
      rw [outputs, taken, empty] at conserved
      refine conserved.trans ?_
      simp [taken, dequeue, Trace.take, Core.outputs]
    · obtain ⟨part, fed, within⟩ := valid.fed alive
      rw [outputs, empty] at within
      exact ⟨part, fed, within⟩
    · obtain ⟨attempted, version⟩ := valid.attempted attempt pending
      exact ⟨attempted.tail front rfl rfl, version⟩
  | processExited | resize | view | checkpoint =>
    exact (settle_kept (takeInert_kept valid front rfl).1).1

/-- A dequeued chunk leaves the queue past a failure only if the worker was poised. -/
theorem dequeue_owes {k : Core} {command : Command} {rest : List Command}
    (allowed : command.isOutput = true →
      k.policy.status.failure = none ∨ k.trace.poised = true) :
    Owes k (k.dequeue command rest) := by
  refine .of_residency rfl rfl ?_ rfl fun failed calm _ => ?_
  · cases command <;> rfl
  · cases command with
    | output bytes =>
      rcases allowed rfl with fine | poised
      · simp [fine] at failed
      · rw [calm] at poised
        cases poised
    | processExited | resize | view | checkpoint =>
      exact ⟨failed, rfl, List.prefix_rfl, .inl rfl⟩

theorem dequeue_ready {k : Core} {command : Command} {rest : List Command} (valid : Valid k)
    (front : k.queue = command :: rest) (empty : k.trace.hand = none) (shape : Shape k)
    (terminal : k.terminal = true)
    (clean : k.trace.fed = k.trace.applied.flatten ∨ k.closing = true) :
    Coordinator.Ready command (k.dequeue command rest) := by
  have shape : Shape (k.dequeue command rest) := shape.of_live terminal rfl rfl rfl rfl
  have stale : command.mutates = true → Stale (k.dequeue command rest) := fun mutates =>
    valid.stale (.inr (.inr ⟨command, front ▸ List.mem_cons_self, mutates⟩))
  cases command with
  | output bytes =>
    exact ⟨rfl, rfl, shape, terminal, stale rfl, clean.imp (fun level => level.trans (List.append_nil _).symm) id⟩
  | resize size ticket =>
    exact ⟨⟨⟨empty, rfl, shape, clean.imp id .inr⟩, terminal⟩, stale rfl⟩
  | processExited | view | checkpoint =>
    exact ⟨⟨empty, rfl, shape, clean.imp id .inr⟩, terminal⟩

def OwedIs (b : Bool) (k : Core) : Prop := k.owed = b

instance (b : Bool) : Steady (OwedIs b) where
  keep beside := beside.workspace.2.2.2.2.2.2.trans

instance Steady.imp (p : Prop) {A : Core → Prop} [steady : Steady A] : Steady fun k => p → A k where
  keep beside holds premise := steady.keep beside (holds premise)

end Core

namespace Coordinator

theorem core_dequeues (c : Coordinator) (r : Residency) : c.dequeues r = c.core.dequeues r := by
  unfold dequeues Phase.of Core.dequeues core
  cases c.workspace.terminal with
  | none => rfl
  | some terminal => by_cases usable : r = .usable <;> simp [usable]

theorem takeNext_cases (a : Admission) :
    (a.queue = [] ∧ a.takeNext = (none, a)) ∨
      ∃ command rest, a.queue = command :: rest ∧ a.takeNext = (some command, { a with queue := rest }) := by
  unfold Admission.takeNext
  cases front : a.queue with
  | nil =>
    refine .inl ⟨rfl, ?_⟩
    rw [List.head?_nil, List.tail_nil, ← front]
  | cons command rest => exact .inr ⟨command, rest, rfl, rfl⟩

theorem takeNextIf_cases (a : Admission) (allowed : Command → Bool) :
    a.takeNextIf allowed = (none, a) ∨
      ∃ command rest, allowed command = true ∧ a.queue = command :: rest ∧
        a.takeNextIf allowed = (some command, { a with queue := rest }) := by
  unfold Admission.takeNextIf
  split
  · rename_i accepted
    rcases takeNext_cases a with ⟨empty, -⟩ | ⟨command, rest, front, took⟩
    · simp [empty] at accepted
    · rw [front] at accepted
      exact .inr ⟨command, rest, accepted, front, took⟩
  · exact .inl rfl

theorem takeOutput_cases (a : Admission) :
    a.takeNextOutputWhileServing = (none, a) ∨
      ∃ command rest, a.status.failure = none ∧ a.status.residency ≠ .failed ∧ a.closing = false ∧
        command.isOutput = true ∧ a.queue = command :: rest ∧
        a.takeNextOutputWhileServing = (some command, { a with queue := rest }) := by
  unfold Admission.takeNextOutputWhileServing
  split
  · exact .inl rfl
  · rename_i serving
    rw [not_or, not_or, Option.not_isSome_iff_eq_none, Bool.not_eq_true] at serving
    obtain ⟨fine, running, alive⟩ := serving
    rcases takeNextIf_cases a Command.isOutput with refused | ⟨command, rest, output, front, took⟩
    · exact .inl refused
    · exact .inr ⟨command, rest, fine, running, alive, output, front, took⟩

theorem takeCheckpoint_cases (a : Admission) :
    a.takeCheckpointIfAnyWork.2 = a ∨ ∃ request rest, a.queue = .checkpoint request :: rest ∧
      a.takeCheckpointIfAnyWork.2 = { a with queue := rest } := by
  unfold Admission.takeCheckpointIfAnyWork
  split
  · exact .inl rfl
  · exact .inr ⟨_, _, ‹_›, rfl⟩
  · exact .inl rfl

variable (r : Residency)

theorem checkFailure_spec :
    Spec (fun k => (Idle k ∧ Seen r k) ∧ Quiet k) (checkFailure r) fun result k =>
      match result with
      | some _ => Idle k
      | none => Primed r k := by
  apply Spec.lock
  intro c valid holds
  obtain ⟨⟨idle, seen⟩, quiet⟩ := holds
  cases failure : c.admission.status.failure with
  | some error =>
    obtain ⟨kept, owes⟩ := settle_kept valid
    exact ⟨kept, owes, idle.empty, rfl, idle.shape.behind _ _ _, idle.clean⟩
  | none =>
    obtain ⟨kept, owes⟩ := poise_kept valid (c.dequeues r) fun _ => failure
    refine ⟨kept, owes, idle.empty, idle.shape.behind _ _ _, ?_, quiet, seen, core_dequeues c r⟩
    rcases idle.clean with level | failed | ended
    · exact .inl level
    · have recorded := valid.failed failed
      rw [show c.core.policy.status.failure = none from failure] at recorded
      cases recorded
    · exact .inr ended

theorem takeMarker_spec : Spec (Primed r) takeMarker fun _ => Primed r := by
  refine Spec.lock fun c valid primed => ?_
  rcases takeNextIf_cases c.admission (· == .processExited) with
    refused | ⟨command, rest, exit, front, took⟩
  · simp only [refused]
    exact ⟨valid, Owes.refl _, primed⟩
  · simp only [took]
    obtain rfl : command = .processExited := by simpa using exit
    obtain ⟨kept, owes⟩ := takeInert_kept (k := c.core) valid front rfl
    exact ⟨kept, owes, primed.empty, primed.shape.behind _ _ _, primed.clean, primed.quiet, primed.seen,
      primed.poised⟩

theorem takeExit_spec : Spec (Primed r) takeExit fun _ => Primed r := by
  refine (takeMarker_spec r).bind fun taken => ?_
  cases taken with
  | none => exact Spec.skip
  | some command => exact applyExit_spec

theorem sealJournalIfDrained_spec {A : Core → Prop} [Steady A] :
    Spec A sealJournalIfDrained fun _ => A := by
  refine Spec.glance.bind fun engineIdle => Spec.glance.bind fun drain => ?_
  cases drain with
  | none => exact Spec.skip
  | some drain =>
    apply finishProgramDrain_spec.bind
    intro result
    cases result with
    | error error => exact (fail_spec error).weaken fun _ _ holds => holds.1
    | ok _ => exact onJournal_spec _

theorem takeWork_spec :
    Spec (fun k => Idle k ∧ TerminalIs false k ∧ IoFree k) takeWork
      fun _ k => Idle k ∧ TerminalIs false k ∧ IoFree k := by
  apply Spec.lock
  intro c valid holds
  rcases takeCheckpoint_cases c.admission with same | ⟨request, rest, front, took⟩
  · simp only [same]
    exact ⟨valid, Owes.refl _, holds⟩
  · simp only [took]
    obtain ⟨idle, detached, free⟩ := holds
    obtain ⟨kept, owes⟩ := takeInert_kept (k := c.core) valid front rfl
    exact ⟨kept, owes, ⟨idle.empty, idle.calm, idle.shape.behind _ _ _, idle.clean⟩, detached, free⟩

theorem ioFree_of_vacant {c : Coordinator} (vacant : c.workspace.io.isSome = false) : IoFree c.core := by
  have vacant : c.workspace.io = none := by simpa using vacant
  simp [IoFree, core, vacant]

theorem readBackSource_spec :
    Spec (fun k => Idle k ∧ TerminalIs false k) readBackSource fun _ => Idle := by
  refine Spec.bind (B := fun (busy : Bool) k => (Idle k ∧ TerminalIs false k) ∧
    (busy = false → IoFree k)) (Spec.look fun c _ holds => ⟨holds, ioFree_of_vacant⟩) fun busy => ?_
  cases busy with
  | true => exact Spec.pure fun _ holds => holds.1.1
  | false =>
    refine (takeWork_spec.strengthen fun k holds =>
      ⟨holds.1.1, holds.1.2, holds.2 rfl⟩).bind fun work => ?_
    cases work with
    | none => exact Spec.pure fun _ holds => holds.1
    | some transfer => exact startRead_spec transfer

theorem core_dequeue (c : Coordinator) (command : Command) (rest : List Command) :
    ({ c with
      admission := { c.admission with queue := rest }
      trace := c.trace.take (some command)
      order := c.order.take (some command) } : Coordinator).core = c.core.dequeue command rest := rfl

/-- A command may be dequeued while history is owed nothing; output only if the
engine takes mutations then, in which case the run was poised. -/
theorem takeRestoring_spec :
    Spec (fun k => (Primed .usable k ∧ TerminalIs true k) ∧ OwedIs false k)
      (takeCommand fun c => c.admission.takeNextIf c.allowedDuringRestore) fun result k =>
        match result with
        | some command => Ready command k
        | none => Live k ∧ Seen .usable k := by
  apply Spec.lock
  intro c valid holds
  obtain ⟨⟨primed, terminal⟩, owed⟩ := holds
  have terminal : c.core.terminal = true := terminal
  have owed : c.core.owed = false := owed
  rcases takeNextIf_cases c.admission c.allowedDuringRestore with
    refused | ⟨command, rest, allowed, front, took⟩
  · simp only [refused]
    obtain ⟨kept, owes⟩ := settle_kept valid
    exact ⟨kept, owes, ⟨⟨primed.empty, rfl, primed.shape.behind _ _ _, primed.clean.imp id .inr⟩,
      terminal⟩, primed.seen⟩
  · simp only [took]
    rw [core_dequeue]
    refine ⟨dequeue_valid valid front primed.empty, dequeue_owes fun output => .inr ?_,
      dequeue_ready valid front primed.empty primed.shape terminal primed.clean⟩
    cases command with
    | output bytes =>
      have mutation : c.core.mutation = true := allowed
      rw [primed.poised]
      simp [Core.dequeues, terminal, owed, mutation]
    | processExited | resize | view | checkpoint => cases output

/-- A run that owes history a step does not dequeue, so it is as good as idle. -/
theorem primed_owed {k : Core} (holds : (Primed .usable k ∧ TerminalIs true k) ∧ OwedIs true k) :
    Live k ∧ Seen .usable k := by
  obtain ⟨⟨primed, terminal⟩, owed⟩ := holds
  have owed : k.owed = true := owed
  exact ⟨⟨primed.idle (by simp [Core.dequeues, owed]), terminal⟩, primed.seen⟩

theorem takeDuringRestore_spec :
    Spec (fun k => Primed .usable k ∧ TerminalIs true k) takeDuringRestore fun result k =>
      match result with
      | some command => Ready command k
      | none => Live k ∧ Seen .usable k := by
  refine Spec.bind (B := fun (owed : Bool) k => (Primed .usable k ∧ TerminalIs true k) ∧ OwedIs owed k)
    (Spec.look fun c _ holds => ⟨holds, rfl⟩) fun owed => ?_
  cases owed with
  | true => exact Spec.pure fun _ => primed_owed
  | false => exact takeRestoring_spec

theorem ready_owed {command : Command} {k : Core} (ready : Ready command k) (owed : Bool) :
    Ready command { k with owed } := by
  cases command with
  | output bytes =>
    exact ⟨ready.hand, ready.calm, ready.shape.of_live ready.terminal rfl rfl rfl rfl, ready.terminal,
      ready.stale, ready.fed⟩
  | resize size ticket =>
    obtain ⟨⟨idle, terminal⟩, stale⟩ := ready
    exact ⟨⟨⟨idle.empty, idle.calm, idle.shape.of_live terminal rfl rfl rfl rfl, idle.clean⟩,
      terminal⟩, stale⟩
  | processExited | view | checkpoint =>
    obtain ⟨idle, terminal⟩ := ready
    exact ⟨⟨idle.empty, idle.calm, idle.shape.of_live terminal rfl rfl rfl rfl, idle.clean⟩, terminal⟩

instance (command : Command) : Steady (Ready command) :=
  match command with
  | .output bytes => inferInstanceAs (Steady (Held bytes 0))
  | .resize _ _ => inferInstanceAs (Steady fun k => Live k ∧ Stale k)
  | .processExited | .view _ | .checkpoint _ => inferInstanceAs (Steady Live)

/-- A live model seen restoring still has the source it was restored from. -/
theorem progressing_of_live {k : Core} (live : Live k) (seen : Seen .usable k) :
    Progressing { k with owed := false } := by
  refine ⟨live.idle.clear.of_policy rfl id, live.terminal, ?_⟩
  rcases seen with usable | down
  · refine .inl ⟨.inr usable, (live.idle.shape.usable usable).2, Bool.eq_false_iff.mpr fun inflight => ?_⟩
    rcases live.idle.shape.inflight inflight with restoring | down
    · rw [usable] at restoring
      cases restoring
    · exact not_down_of usable (by decide) down
  · exact .inr down

theorem stepHistory_spec :
    Spec (fun k => Live k ∧ Seen .usable k) stepHistory fun _ => Idle := by
  apply Spec.glance.bind
  intro present
  split
  · refine (nativeCall_keeps _).bind fun result => Spec.bind (B := fun _ => Progressing)
      (Spec.update fun c valid holds => ?_) fun _ => ?_
    · exact ⟨valid.workspace _ _ _ _, .of_policy rfl rfl rfl, progressing_of_live holds.1 holds.2⟩
    · cases result with
      | ok progress => exact (historyProgress_spec progress).bind fun _ => Spec.skip
      | error error =>
        exact (fail_spec error).bind fun _ => Spec.pure fun _ holds =>
          holds.1.clear.idle_of_down holds.2
  · exact Spec.pure fun _ holds => holds.1.idle

theorem restoreStep_spec :
    Spec (fun k => Primed .usable k ∧ TerminalIs true k) restoreStep fun _ => Idle := by
  apply takeDuringRestore_spec.bind
  intro taken
  cases taken with
  | some command =>
    refine Spec.bind (A := Ready command) (B := fun _ => Ready command)
      (Spec.update fun c valid ready => ?_) fun _ =>
        (applyCommand_spec command).weaken fun _ _ live => live.idle
    exact ⟨valid.workspace _ _ _ _, .of_policy rfl rfl rfl, ready_owed ready true⟩
  | none => exact stepHistory_spec

theorem takeOutput_spec :
    Spec Live (takeCommand (·.admission.takeNextOutputWhileServing)) fun result k =>
      match result with
      | some command => Ready command k
      | none => Live k := by
  apply Spec.lock
  intro c valid live
  obtain ⟨idle, terminal⟩ := live
  rcases takeOutput_cases c.admission with
    refused | ⟨command, rest, fine, running, alive, -, front, took⟩
  · simp only [refused]
    obtain ⟨kept, owes⟩ := settle_kept valid
    exact ⟨kept, owes, ⟨idle.empty, rfl, idle.shape.behind _ _ _, idle.clean⟩, terminal⟩
  · simp only [took]
    rw [core_dequeue]
    refine ⟨dequeue_valid valid front idle.empty, dequeue_owes fun _ => .inl fine,
      dequeue_ready valid front idle.empty idle.shape terminal ?_⟩
    rcases idle.clean with level | failed | ended
    · exact .inl level
    · exact absurd failed running
    · exact .inr ended

/-- Every chunk of a batch is taken under a fresh look at the failure. -/
theorem serveBatch_spec (left fed : Nat) (schedule : WorkSchedule) :
    Spec Live (serveBatch left fed schedule) fun _ => Live := by
  induction left generalizing fed schedule with
  | zero => exact Spec.skip
  | succ left ih =>
    apply Spec.glance.bind
    intro quiet
    split
    · apply takeOutput_spec.bind
      intro taken
      cases taken with
      | none => exact Spec.skip
      | some command => exact (applyCommand_spec command).bind fun schedule => ih _ schedule
    · exact Spec.skip

theorem serveCommand_spec (command : Command) :
    Spec (Ready command) (serveCommand command) fun _ => Idle := by
  apply (applyCommand_spec command).bind
  intro schedule
  cases command with
  | output bytes => exact (serveBatch_spec _ _ _).weaken fun _ _ live => live.idle
  | processExited | resize | view | checkpoint => exact Spec.pure fun _ live => live.idle

/-- The run's first command is taken without another look, so the run is poised. -/
theorem takeNext_spec (serving : r ≠ .usable) :
    Spec (fun k => Primed r k ∧ TerminalIs true k) (takeCommand (·.admission.takeNext))
      fun result k => match result with
        | some command => Ready command k
        | none => Idle k ∧ Quiet k := by
  apply Spec.lock
  intro c valid holds
  obtain ⟨primed, terminal⟩ := holds
  have terminal : c.core.terminal = true := terminal
  rcases takeNext_cases c.admission with ⟨-, refused⟩ | ⟨command, rest, front, took⟩
  · simp only [refused]
    obtain ⟨kept, owes⟩ := settle_kept valid
    exact ⟨kept, owes, ⟨primed.empty, rfl, primed.shape.behind _ _ _, primed.clean.imp id .inr⟩,
      primed.quiet⟩
  · simp only [took]
    rw [core_dequeue]
    refine ⟨dequeue_valid valid front primed.empty, dequeue_owes fun _ => .inr ?_,
      dequeue_ready valid front primed.empty primed.shape terminal primed.clean⟩
    rw [primed.poised]
    simp [Core.dequeues, terminal, serving]

theorem maintain_spec {A : Core → Prop} [Steady A] : Spec A maintain fun _ => A := by
  apply Spec.glance.bind
  intro due
  split
  · exact startDelete_spec.bind fun _ => Spec.skip
  · exact Spec.skip

theorem considerPark_spec :
    Spec (fun k => (Idle k ∧ Quiet k) ∧ IoFree k) considerPark fun _ => Idle := by
  refine Spec.input.bind fun a => Spec.glance.bind fun delay => ?_
  cases delay with
  | none => exact Spec.pure fun _ holds => holds.1.1
  | some delay =>
    dsimp only
    split
    · exact startPark_spec
    · exact Spec.pure fun _ holds => holds.1.1

theorem serveIdle_spec (maintenance : Option WorkSchedule) :
    Spec (fun k => Idle k ∧ Quiet k) (serveIdle maintenance) fun _ => Idle := by
  cases maintenance with
  | some schedule => exact Spec.pure fun _ holds => holds.1
  | none =>
    refine Spec.bind (B := fun (busy : Bool) k => (Idle k ∧ Quiet k) ∧ (busy = false → IoFree k))
      (Spec.look fun c _ holds => ⟨holds, ioFree_of_vacant⟩) fun busy => Spec.glance.bind fun holding => ?_
    cases busy with
    | true => exact Spec.pure fun _ holds => holds.1.1
    | false =>
      cases holding with
      | true => exact startDelete_spec.weaken fun _ _ holds => holds.1.1
      | false => exact considerPark_spec.strengthen fun _ holds => ⟨holds.1, holds.2 rfl⟩

theorem serve_spec (serving : r ≠ .usable) :
    Spec (fun k => Primed r k ∧ TerminalIs true k) serve fun _ => Idle := by
  refine maintain_spec.bind fun maintenance => (takeNext_spec r serving).bind fun taken => ?_
  cases taken with
  | some command => exact serveCommand_spec command
  | none => exact serveIdle_spec maintenance

/-- What the phase of a run says about its model and the residency it began at. -/
def InPhase (k : Core) : Phase → Prop
  | .detached => k.terminal = false
  | .restoring => k.terminal = true ∧ r = .usable
  | .serving => k.terminal = true ∧ r ≠ .usable

theorem inPhase_of (c : Coordinator) : InPhase r c.core (Phase.of r c.workspace) := by
  unfold Phase.of
  cases terminal : c.workspace.terminal with
  | none => simp [InPhase, core, terminal]
  | some model => by_cases usable : r = .usable <;> simp [InPhase, core, terminal, usable]

theorem runPhase_spec : Spec (Primed r) (runPhase r) fun _ => Idle := by
  refine (takeExit_spec r).bind fun _ => sealJournalIfDrained_spec.bind fun _ => ?_
  refine Spec.bind (B := fun (phase : Phase) k => Primed r k ∧ InPhase r k phase)
    (Spec.look fun c _ primed => ⟨primed, inPhase_of r c⟩) fun phase => ?_
  cases phase with
  | detached =>
    refine readBackSource_spec.strengthen fun k holds => ⟨holds.1.idle ?_, holds.2⟩
    rw [Core.dequeues, show k.terminal = false from holds.2, Bool.false_and]
  | restoring =>
    rintro c ⟨primed, terminal, rfl⟩
    exact restoreStep_spec c ⟨primed, terminal⟩
  | serving =>
    rintro c ⟨primed, terminal, serving⟩
    exact serve_spec r serving c ⟨primed, terminal⟩

end Coordinator
end PtyRuntime
