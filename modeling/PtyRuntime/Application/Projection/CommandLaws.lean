import PtyRuntime.Application.Projection.OutputLaws

/-! Applying a dequeued command, of whatever kind, keeps the worker's promises and
leaves a live model behind. -/
namespace PtyRuntime
open Thread PtyRuntime.Core

namespace Coordinator

section Observing

variable {A : Core → Prop} [Steady A]

theorem requestCancelled_spec (request : SnapshotRequest) :
    Spec A (requestCancelled request) fun _ => A := by
  cases request <;> exact ticketCancelled_spec _

theorem openTransfer_spec (ticket : TicketId) (checkpoint : TerminalCheckpoint) :
    Spec A (openTransfer ticket checkpoint) fun _ => A := by
  refine (Spec.aside fun _ => rfl).bind fun opened => ?_
  cases opened with
  | error e => exact completeTicket_spec _ _
  | ok observer =>
    dsimp only
    split
    · exact Spec.bind (B := fun _ => A) (Spec.asideUpdate fun _ => rfl) fun _ =>
        completeTicket_spec _ _
    · exact completeTicket_spec _ _

theorem completeRequest_spec (request : SnapshotRequest)
    (result : Except ProjectionError TerminalCheckpoint) :
    Spec A (completeRequest request result) fun _ => A := by
  cases request with
  | checkpoint ticket => exact completeTicket_spec _ _
  | transfer ticket =>
    apply (ticketCancelled_spec ticket).bind
    intro cancelled
    split
    · exact Spec.skip
    · cases result with
      | error e => exact completeTicket_spec _ _
      | ok checkpoint => exact openTransfer_spec ticket checkpoint

theorem encode_spec (descriptor : CheckpointDescriptor) : Spec A (encode descriptor) fun _ => A := by
  apply Spec.glance.bind
  intro present
  split
  · apply (nativeCall_keeps _).bind
    intro result
    cases result with
    | error e => exact Spec.skip
    | ok checkpoint => exact Spec.glance
  · exact Spec.skip

theorem snapshotResult_spec : Spec A snapshotResult fun _ => A := by
  apply Spec.input.bind
  intro lease
  split
  · exact Spec.glance.bind fun descriptor => encode_spec descriptor
  · exact Spec.skip

theorem snapshot_spec (request : SnapshotRequest) : Spec A (snapshot request) fun _ => A := by
  apply (requestCancelled_spec request).bind
  intro cancelled
  split
  · exact Spec.skip
  · refine snapshotResult_spec.bind fun result => status_spec.bind fun now => ?_
    split
    · exact failRequest_spec _ _
    · exact completeRequest_spec _ _

theorem copyView_spec : Spec A copyView fun _ => A := by
  apply Spec.glance.bind
  intro present
  split
  · apply (nativeCall_keeps _).bind
    intro view
    cases view with
    | error e => exact Spec.skip
    | ok view =>
      apply (nativeCall_keeps _).bind
      intro history
      cases history with
      | error e => exact Spec.skip
      | ok history => exact status_spec.bind fun _ => Spec.skip
  · exact Spec.skip

theorem viewResult_spec : Spec A viewResult fun _ => A := by
  refine Spec.input.bind fun lease => Spec.glance.bind fun reservation => ?_
  cases reservation with
  | error e => exact Spec.skip
  | ok bytes =>
    dsimp only
    split
    · exact copyView_spec
    · exact Spec.skip

theorem applyView_spec (ticket : TicketId) : Spec A (applyView ticket) fun _ => A := by
  apply (ticketCancelled_spec ticket).bind
  intro cancelled
  split
  · exact Spec.skip
  · exact viewResult_spec.bind fun _ => status_spec.bind fun _ => completeTicket_spec _ _

theorem applyProgramExit_spec : Spec A applyProgramExit fun _ => A := by
  apply Spec.aside
  intro c
  split <;> rfl

theorem finishProgramDrain_spec : Spec A finishProgramDrain fun _ => A := by
  apply Spec.aside
  intro c
  split
  · split <;> rfl
  · rfl

theorem applyExit_spec : Spec A applyExit fun _ => A := by
  apply applyProgramExit_spec.bind
  intro result
  cases result with
  | error error => exact (fail_spec error).weaken fun _ _ holds => holds.1
  | ok _ => exact Spec.skip

end Observing

theorem startResize_spec (size : TerminalSize) (ticket : TicketId) (generation : ControlGeneration) :
    Spec (fun k => Live k ∧ Stale k) (startResize size ticket generation) fun _ => Live := by
  apply Spec.input.bind
  intro a
  rcases a.resizing with error | _
  · exact (completeTicket_spec _ _).bind fun _ => Spec.bind
      (B := fun _ k => Live k ∧ Stale k) (Spec.asideUpdate fun _ => rfl) fun _ =>
        Spec.pure fun _ holds => holds.1
  · refine Spec.bind (B := fun _ => Live) (Spec.update fun c valid holds => ?_) fun _ =>
      Spec.skip
    exact operate_kept valid holds.1 holds.2 _ true

/-- A resize goes back to the head while no process is bound. -/
theorem requeue_resize_spec (size : TerminalSize) (ticket : TicketId) :
    Spec (fun k => Live k ∧ Stale k) (requeue (.resize size ticket)) fun _ => Live := by
  refine Spec.bind (B := fun _ => Live) (Spec.lock fun c valid holds => ?_) fun refused => ?_
  · obtain ⟨live, stale⟩ := holds
    have became : ({ c with
        admission := (c.admission.requeue (.resize size ticket)).2
        trace := c.trace.release (.resize size ticket)
        order := c.order.release (.resize size ticket) } : Coordinator).core =
        { c.core with
          queue := if c.admission.closing then c.admission.queue
            else .resize size ticket :: c.admission.queue } := by
      rw [core_advance, requeue_policy, requeue_queue]
      rfl
    rw [became]
    have outputs : outputs { c.core with
        queue := if c.admission.closing then c.admission.queue
          else .resize size ticket :: c.admission.queue } = c.core.outputs := by
      simp only [Core.outputs]
      split <;> rfl
    refine ⟨?_, .of_policy rfl rfl rfl, live.of_live rfl rfl rfl rfl rfl⟩
    exact { valid with
      conserved := fun alive => by rw [outputs]; exact valid.conserved alive
      fed := fun alive => by rw [outputs]; exact valid.fed alive
      attempted := stale.attempted valid rfl rfl rfl rfl }
  · cases refused with
    | none => exact Spec.skip
    | some command => exact failCommand_spec command _

theorem applyResize_spec (size : TerminalSize) (ticket : TicketId) :
    Spec (fun k => Live k ∧ Stale k) (applyResize size ticket) fun _ => Live := by
  apply Spec.glance.bind
  intro bound
  split
  · apply status_spec.bind
    intro status
    cases status.controlGeneration.next with
    | none =>
      exact (completeTicket_spec _ _).bind fun _ => (fail_spec _).bind fun _ =>
        Spec.pure fun _ holds => holds.1.1
    | some generation => exact startResize_spec size ticket generation
  · exact (requeue_resize_spec size ticket).bind fun _ => Spec.skip

/-- What has to hold for the worker to apply a command it has just dequeued. -/
def Ready : Command → Core → Prop
  | .output bytes => Held bytes 0
  | .resize _ _ => fun k => Live k ∧ Stale k
  | .processExited | .view _ | .checkpoint _ => Live

theorem applyCommand_spec (command : Command) :
    Spec (Ready command) (applyCommand command) fun _ => Live := by
  cases command with
  | output bytes => exact applyOutput_spec bytes
  | processExited => exact Spec.bind (A := Live) applyExit_spec fun _ => Spec.skip
  | resize size ticket => exact applyResize_spec size ticket
  | view ticket => exact Spec.bind (A := Live) (applyView_spec ticket) fun _ => Spec.skip
  | checkpoint request => exact Spec.bind (A := Live) (snapshot_spec request) fun _ => Spec.skip

end Coordinator
end PtyRuntime
