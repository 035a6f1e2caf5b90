import PtyRuntime.Application.Projection.ExitRuns
import PtyRuntime.Application.Projection.Parking

/-! Process exit is ordered behind output, and it and the final drain drop the records of
a program at work. A run of a parked projection looks at the queue twice, so the law that
exit reads no source back needs that the marker is not queued between the two looks. -/
namespace PtyRuntime
open Thread PtyRuntime.Core Leaving

namespace Coordinator

/-- Exit and the final drain take effect once and in order. -/
structure ExitOrder (c : Coordinator) : Prop where
  /-- The marker is applied at most once. -/
  once : c.exits.appliedAfter.length ≤ 1
  /-- By then every chunk admitted before it has been processed. -/
  behind : ∀ processed ∈ c.exits.appliedAfter, ∃ before,
    c.exits.queuedBehind = some before ∧ before <+: processed
  /-- No source is read back for a queue that holds nothing but the marker. -/
  spared : c.exits.restored = 0
  /-- After both, no record is of a program at work. -/
  calm : c.programStatus.exited = true → c.exits.settled = true → c.programStatus.Calm

section Created

variable {lifetime : SessionLifetime} {config : ProjectionConfig} {now identity : Nat}
  {c : Coordinator} (created : create lifetime config now identity = .ok c)
include created

theorem create_ordered : c.leaving.Ordered := by
  obtain ⟨policy, store, -, -, rfl⟩ := create_made created
  constructor <;> simp [leaving]

theorem after_exits (events : List Event) : (projection.extend departures).Kept (c.after events) := by
  have start : (projection.extend departures).Kept (.start c) :=
    Contract.kept_start ⟨(create_idle created).1, create_ordered created⟩ fun _ =>
      ⟨(create_idle created).2, trivial⟩
  exact start.run departures_sound choices_allowed

end Created

/-- Whenever the exit is reported, the marker is applied at most once and behind the output
admitted before it, and nothing brings the records of a program at work back. -/
theorem exit_takes_effect_once {lifetime : SessionLifetime} {config : ProjectionConfig}
    {now identity : Nat} {c : Coordinator} (created : create lifetime config now identity = .ok c)
    (events : List Event) :
    (c.after events).shared.exits.appliedAfter.length ≤ 1 ∧
      (∀ processed ∈ (c.after events).shared.exits.appliedAfter, ∃ before,
        (c.after events).shared.exits.queuedBehind = some before ∧ before <+: processed) ∧
      ((c.after events).shared.programStatus.exited = true →
        (c.after events).shared.exits.settled = true → (c.after events).shared.programStatus.Calm) := by
  have ordered : (c.after events).shared.leaving.Ordered := (after_exits created events).inv.2
  exact ⟨(Nat.le_add_right _ _).trans (ordered.once.trans (Bool.toNat_le _)), ordered.after,
    fun exited settled => ordered.calm settled exited⟩

/-- In every run, exit and drain keep their order, as long as no exit was reported to a
parked projection with an empty queue between the two looks of a run at that queue. -/
theorem exit_keeps_order {lifetime : SessionLifetime} {config : ProjectionConfig} {now identity : Nat}
    {c : Coordinator} (created : create lifetime config now identity = .ok c) (events : List Event)
    (undisturbed : (c.after events).shared.exits.raced = false) : ExitOrder (c.after events).shared := by
  obtain ⟨once, behind, calm⟩ := exit_takes_effect_once created events
  have ordered : (c.after events).shared.leaving.Ordered := (after_exits created events).inv.2
  exact ⟨once, behind, ordered.spared undisturbed, calm⟩

/-- The program exits while its projection is parked, and the drain follows. -/
def parkedExitSchedule : List Event :=
  idleSchedule ++ wholeCall 1 .notifyProcessExited sampleAnswer ++ wholeRun sampleAnswer ++
    wholeCall 2 (.notifyOutputDrained .eof) sampleAnswer ++ wholeRun sampleAnswer

set_option maxRecDepth 8000 in
theorem exit_keeps_order_parked :
    (sample.after parkedExitSchedule).shared.admission.status.residency = .parked ∧
      (sample.after parkedExitSchedule).shared.programStatus.exited = true ∧
      (sample.after parkedExitSchedule).shared.exits.settled = true ∧
      ExitOrder (sample.after parkedExitSchedule).shared :=
  ⟨rfl, rfl, rfl, exit_keeps_order sample_created parkedExitSchedule rfl⟩

/-- The exit is reported after the run has looked for the marker. -/
def lateExitSchedule : List Event :=
  idleSchedule ++ .enter .run :: List.replicate 9 (.work sampleAnswer) ++
    wholeCall 1 .notifyProcessExited sampleAnswer ++ List.replicate 40 (.work sampleAnswer)

set_option maxRecDepth 8000 in
/-- The second look takes the marker for work, and the source is read back. -/
theorem late_exit_restores :
    (sample.after lateExitSchedule).shared.admission.status.failure = none ∧
      (sample.after lateExitSchedule).shared.admission.status.residency = .restoring ∧
      (sample.after lateExitSchedule).shared.admission.queue = [.processExited] ∧
      (sample.after lateExitSchedule).shared.trace.admitted = [] ∧
      ¬ExitOrder (sample.after lateExitSchedule).shared := by
  refine ⟨rfl, rfl, rfl, rfl, fun order => ?_⟩
  have restored : (sample.after lateExitSchedule).shared.exits.restored = 1 := rfl
  have spared := order.spared
  omega

end Coordinator
end PtyRuntime
