import PtyRuntime.Application.Projection.CleanupLaws
import PtyRuntime.Application.Projection.Effects

/-! What runs beside the worker does no more than the worker counts on. Together
with the worker's own promises this makes the projection's contract sound, so that
what it says holds in every state any interleaving reaches. -/
namespace PtyRuntime
open Thread PtyRuntime.Core

namespace Coordinator

/-- A step of another thread that admits no output. -/
def Bystands (c c' : Coordinator) : Prop := c'.core = c.core ∨ Disturbance c.core c'.core

/-- A step of another thread. -/
def Meddles (c c' : Coordinator) : Prop := c'.core = c.core ∨ Interference c.core c'.core

theorem Bystands.meddles {c c' : Coordinator} (step : Bystands c c') : Meddles c c' :=
  step.imp id .disturb

instance : Completing (fun _ _ => True) Bystands where
  refl _ := .inl rfl
  tickets _ _ _ := .inl rfl

/-- Failing and completing waits is one of the things others may do. -/
instance : Bystanding (fun _ _ => True) Bystands where
  fails error := Completing.fail_of_steps error (fun _ => .inr (.fail error)) fun _ _ => .inl rfl

theorem recordActivity_error {p q : ProjectionPolicy} {now : Nat} {error : ProjectionError}
    (refused : p.recordActivity now = (.error error, q)) : q = p := by
  rcases p.recordActivity_cases now with ⟨_, same⟩ | ⟨-, recorded⟩
  · exact (Prod.mk.inj (same.symm.trans refused)).2.symm
  · cases recorded.symm.trans refused

theorem admitOutput_error {p q : ProjectionPolicy} {bytes now : Nat} {error : ProjectionError}
    (refused : p.admitOutput bytes now = (.error error, q)) : q = p := by
  rcases p.admitOutput_cases bytes now with ⟨_, same⟩ | ⟨-, -, admitted⟩
  · exact (Prod.mk.inj (same.symm.trans refused)).2.symm
  · cases admitted.symm.trans refused

theorem alive_of_accepting {a : Admission} (accepting : a.checkAccepting = .ok ()) : a.closing = false := by
  by_contra closed
  rw [Bool.not_eq_false] at closed
  rw [Admission.checkAccepting, if_pos closed] at accepting
  cases accepting

/-- A command that moves nothing is queued, or nothing happens. -/
theorem admitInert_each (command : Command) (inert : command.mutates = false) :
    (locked (·.admitCommand fun a => (.ok command, a))).Upholds (fun _ _ => True) Bystands := by
  refine locked_each fun c => ?_
  unfold Admission.admitCommand
  cases c.admission.checkAccepting with
  | error e => exact .inl rfl
  | ok _ => exact .inr (.push command inert)

theorem admitResize_each (size : TerminalSize) (ticket : TicketId) (now : Nat) :
    (admitResize size ticket now).Upholds (fun _ _ => True) Bystands := by
  refine Upholds.lock fun c => ?_
  unfold Admission.admitCommand
  cases c.admission.checkAccepting with
  | error e => exact .inl rfl
  | ok _ =>
    dsimp only
    by_cases drained : c.admission.outputDrain.isSome = true
    · rw [if_pos drained]
      exact .inl rfl
    · rw [if_neg drained]
      rcases recorded : c.admission.policy.recordActivity now with ⟨result, policy⟩
      simp only [Admission.recordActivity, Admission.withPolicy, recorded]
      cases result with
      | error e =>
        obtain rfl := recordActivity_error recorded
        exact .inl rfl
      | ok _ => exact .inr (.resize size ticket now policy recorded)

/-- The exit marker is refused and nothing moves, or it is queued for the only time. -/
theorem recordProcessExit_cases (a : Admission) :
    a.recordProcessExit = (false, a) ∨
      (a.closing = false ∧ a.status.failure = none ∧ a.processExitQueued = false ∧
        a.recordProcessExit =
          (true, { a with processExitQueued := true, queue := a.queue ++ [.processExited] })) := by
  unfold Admission.recordProcessExit Admission.checkAccepting
  cases ended : a.closing with
  | true => exact .inl rfl
  | false =>
    rw [if_neg (by decide)]
    cases failed : a.status.failure with
    | some error => exact .inl rfl
    | none =>
      dsimp only [settledOutcome]
      cases queued : a.processExitQueued with
      | true => exact .inl rfl
      | false => exact .inr ⟨rfl, rfl, rfl, rfl⟩

theorem recordExit_each : recordExit.Upholds (fun _ _ => True) Bystands := by
  refine Upholds.lock fun c => ?_
  rcases recordProcessExit_cases c.admission with refused | ⟨-, -, -, queued⟩
  · rw [refused]
    exact .inl rfl
  · rw [queued]
    exact .inr (.push .processExited rfl)

theorem requestClose_each (waiter : Option TicketId) :
    (requestClose waiter).Upholds (fun _ _ => True) Bystands := by
  refine Upholds.lock fun c => ?_
  unfold Admission.requestClose
  split
  · exact .inl rfl
  · exact .inr .close

/-- Nothing but offered output, a job or another projection does more. -/
instance : Requesting (fun _ _ => True) Bystands where
  admitResize := admitResize_each
  push command inert _ := admitInert_each command inert
  exit := recordExit_each
  drains outcome :=
    notifyOutputDrained_of_steps outcome (locked_each fun _ => .inl rfl) fun _ _ _ => .inl rfl
  closes := close_of_steps requestClose_each fun _ => .inl rfl
  wiring _ _ := .inl rfl
  read _ _ _ := Upholds.lock fun _ => .inl rfl
  cancel _ _ := .inl rfl
  forget _ _ := .inl rfl

/-- A published result leaves the job's kind and attempt as they were. -/
theorem publish_kind (config : ProjectionConfig) (limit : Nat) (a : Answer) (job : PendingIo) :
    (job.publish config limit a).attempt? = job.attempt? ∧
      (job.publish config limit a).restores = job.restores := by
  rcases job with ⟨_, _, _, _ | _⟩ | ⟨_, _ | _⟩ | ⟨_, _, _ | _⟩ | ⟨_, _ | _⟩ <;> exact ⟨rfl, rfl⟩

theorem runJob_each : runJob.Upholds (fun _ _ => True) Bystands := by
  refine Upholds.input.bind fun a => Upholds.update fun c => .inl ?_
  cases slot : c.workspace.io with
  | none => simp [core, slot]
  | some job =>
    obtain ⟨attempt, restores⟩ := publish_kind c.config c.workspace.config.checkpointBytes a job
    simp [core, slot, attempt, restores]

/-- The shared storage budget is beside everything the arguments are about. -/
theorem useDisk_core (c : Coordinator) (use : DiskUse) : (c.useDisk use).core = c.core := by
  cases use with
  | acquire bytes =>
    unfold useDisk
    dsimp only
    split <;> rfl
  | release index =>
    unfold useDisk
    dsimp only
    split <;> rfl
  | surrender index reference key descriptor =>
    unfold useDisk
    dsimp only
    split <;> rfl

theorem shareDisk_each (use : DiskUse) : (shareDisk use).Upholds (fun _ _ => True) Bystands :=
  Upholds.update fun c => .inl (useDisk_core c use)

theorem acceptOutput_cases (c : Coordinator) (bytes : Bytes) (slot allocated : Bool) (now : Nat)
    (a : Admission) :
    (∃ acceptance, acceptance ≠ .accepted ∧
        c.acceptOutput bytes slot allocated now a = (.rejected acceptance, a)) ∨
      (bytes = [] ∧ c.acceptOutput bytes slot allocated now a = (.nothing, a)) ∨
      ∃ policy, a.policy.admitOutput bytes.length now = (.ok (), policy) ∧
        c.acceptOutput bytes slot allocated now a = (.queue (.output bytes), { a with policy }) := by
  unfold acceptOutput
  split
  · exact .inl ⟨.closed, by decide, rfl⟩
  split
  · exact .inl ⟨.closed, by decide, rfl⟩
  split
  · exact .inr (.inl ⟨‹_›, rfl⟩)
  split
  · exact .inl ⟨.backpressure, by decide, rfl⟩
  split
  · exact .inl ⟨.backpressure, by decide, rfl⟩
  split
  · exact .inl ⟨.backpressure, by decide, rfl⟩
  rcases admitted : a.policy.admitOutput bytes.length now with ⟨result, policy⟩
  simp only [Admission.admitOutputBytes, Admission.withPolicy, admitted]
  cases result with
  | error e =>
    obtain rfl := admitOutput_error admitted
    exact .inl ⟨.closed, by decide, rfl⟩
  | ok _ => exact .inr (.inr ⟨policy, rfl, rfl⟩)

/-- Output is queued only while no drain has been reported, and only if there is any. -/
theorem acceptOutput_running {c : Coordinator} {bytes : Bytes} {slot allocated : Bool} {now : Nat}
    {a : Admission} {command : Command} (queued : (c.acceptOutput bytes slot allocated now a).1 = .queue command) :
    a.closing = false ∧ a.outputDrain.isSome = false ∧ bytes ≠ [] := by
  unfold acceptOutput at queued
  split at queued
  · cases queued
  rename_i alive
  split at queued
  · cases queued
  rename_i running
  split at queued
  · cases queued
  rename_i filled
  exact ⟨Bool.eq_false_iff.mpr alive, Bool.eq_false_iff.mpr running, filled⟩

/-- The state after queueing a chunk. -/
def queueOutput (c : Coordinator) (bytes : Bytes) (policy : ProjectionPolicy) : Coordinator :=
  { c with
    admission := { c.admission with policy, queue := c.admission.queue ++ [.output bytes] }
    trace := c.trace.queued bytes
    order := c.order.admit (.output bytes) }

/-- Offered output is rejected or empty and nothing moves, or it is queued. -/
theorem offerOutput_cases (c : Coordinator) (bytes : Bytes) (answer : Answer) :
    (∃ acceptance, acceptance ≠ .accepted ∧ c.offerOutput bytes answer = (.rejected acceptance, c)) ∨
      (bytes = [] ∧ c.offerOutput bytes answer = (.accepted, c)) ∨
      ∃ policy, c.admission.policy.admitOutput bytes.length answer.now = (.ok (), policy) ∧
        c.offerOutput bytes answer = (.queued, c.queueOutput bytes policy) := by
  unfold offerOutput Admission.admitOutput
  rcases acceptOutput_cases c bytes answer.granted answer.allocated answer.now c.admission with
    ⟨acceptance, refused, rejected⟩ | ⟨empty, nothing⟩ | ⟨policy, admitted, queued⟩
  · rw [rejected]
    exact .inl ⟨acceptance, refused, rfl⟩
  · rw [nothing]
    exact .inr (.inl ⟨empty, rfl⟩)
  · rw [queued]
    exact .inr (.inr ⟨policy, admitted, rfl⟩)

theorem admitOutput_each (bytes : Bytes) (answer : Answer) :
    (admitOutput bytes answer).Each Meddles := by
  refine Each.lock fun c => ?_
  rcases offerOutput_cases c bytes answer with
    ⟨acceptance, -, rejected⟩ | ⟨-, nothing⟩ | ⟨policy, admitted, queued⟩
  · rw [rejected]
    exact .inl rfl
  · rw [nothing]
    exact .inl rfl
  · rw [queued]
    exact .inr (.output bytes answer.now policy admitted)

/-- Only offering output admits any. -/
theorem call_bystands (call : Call) (silent : ∀ bytes, call ≠ .stageOutput bytes) :
    call.thread.Each Bystands := by
  by_cases jobless : call = .runJob
  · exact jobless ▸ runJob_each.each
  by_cases own : ∀ use, call ≠ .shareDisk use
  · exact (Requesting.call_each call silent jobless own).each
  · obtain ⟨use, used⟩ := not_forall.mp own
    exact not_not.mp used ▸ (shareDisk_each use).each

theorem stageOutput_meddles (bytes : Bytes) : (stageOutput bytes).Each Meddles := by
  refine (Completing.look_each.each.mono fun _ _ => Bystands.meddles).bind fun available => ?_
  split
  · refine Each.input.bind fun a => (Each.update fun _ => .inl rfl).bind fun _ =>
      (admitOutput_each bytes a).bind fun outcome => ?_
    cases outcome with
    | rejected acceptance => exact Each.pure _
    | accepted => exact Each.pure _
    | queued =>
      exact (Bystanding.wakeOrFail_each.each.mono fun _ _ => Bystands.meddles).bind fun _ => Each.pure _
  · exact Each.pure _

theorem call_meddles (call : Call) : call.thread.Each Meddles := by
  by_cases silent : ∀ bytes, call ≠ .stageOutput bytes
  · exact (call_bystands call silent).mono fun _ _ => Bystands.meddles
  · obtain ⟨bytes, offered⟩ := not_forall.mp silent
    obtain rfl := not_not.mp offered
    exact (stageOutput_meddles bytes).bind fun _ => Each.pure _

theorem projection_sound : projection.Sound where
  steady role c c' step idle := by
    change Idle c'.core
    rcases others_beside step with same | beside
    · exact same ▸ idle
    · exact Steady.keep beside idle
  holder role program entered := by
    obtain ⟨owner, rfl⟩ := entered
    exact owner_spec owner
  caller program called := by
    obtain ⟨call, rfl⟩ := called
    refine Contract.caller_of_each ((call_meddles call).mono fun c c' step valid => ⟨?_, step⟩)
    change Valid c'.core
    rcases step with same | step
    · exact same ▸ valid
    · exact Valid.beside valid step.beside

section Created

variable {lifetime : SessionLifetime} {config : ProjectionConfig} {now identity : Nat}
  {c : Coordinator} (created : create lifetime config now identity = .ok c)
include created

/-- All a new projection holds: a fresh policy, and nothing queued, stored or owed. -/
theorem create_made : ∃ policy store,
    ProjectionPolicy.new config.cellSize lifetime config.options now = .ok policy ∧
      ProgramStatusStore.new identity config.options.programStatusRecords = .ok store ∧
      c = {
        journal := .new lifetime
        config
        admission := { policy }
        workspace := {
          config := config.options.terminal
          terminal := some {}
          reaper := { maxAttempts := config.options.maxDeleteAttempts } }
        programStatus := { store := some store }
        disk := {
          stored := { limit := config.storedBytes, used := 0 }
          storedSlots := { limit := config.storedSlots, used := 0 } } } := by
  unfold create at created
  split at created
  · cases created
  rename_i policy made
  split at created
  · cases created
  rename_i store opened
  exact ⟨policy, store, made, opened, (Except.ok.inj created).symm⟩

theorem create_idle : Valid c.core ∧ Idle c.core := by
  obtain ⟨policy, store, made, -, rfl⟩ := create_made created
  obtain rfl := ProjectionPolicy.new_ok made
  constructor
  · constructor <;> simp [core, Core.closing, Core.residency, Residency.isClosing, taken, outputs]
  · refine ⟨rfl, rfl, ?_, .inl rfl⟩
    constructor <;> simp [core, Core.closing, Core.residency, Residency.isClosing, Down]

theorem create_trace : c.trace = {} := by
  obtain ⟨policy, store, -, -, rfl⟩ := create_made created
  rfl

/-- Every interleaving of a created projection keeps its contract. -/
theorem created_kept : projection.Kept (.start c) :=
  Contract.kept_start (create_idle created).1 fun _ => (create_idle created).2

end Created

end Coordinator
end PtyRuntime
