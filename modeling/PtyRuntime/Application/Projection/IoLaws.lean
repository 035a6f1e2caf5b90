import PtyRuntime.Application.Projection.ParkLaws
import PtyRuntime.Application.Projection.RestoreLaws

/-! Applying the one finished job, whichever it is, leaves the workspace in the shape
its residency asks for. -/
namespace PtyRuntime
open Thread PtyRuntime.Core

namespace Coordinator

/-- What taking a finished job leaves to be done. -/
def Finishing : Option FinishedIo → Core → Prop
  | some (.commit attempt _ _) => Landed attempt
  | some (.restore _) => Unrestored
  | some (.transfer _ _) | some (.delete _ _) | none => Idle

instance (finished : Option FinishedIo) : Steady (Finishing finished) :=
  match finished with
  | some (.commit attempt _ _) => inferInstanceAs (Steady (Landed attempt))
  | some (.restore _) => inferInstanceAs (Steady Unrestored)
  | some (.transfer _ _) | some (.delete _ _) | none => inferInstanceAs (Steady Idle)

/-- A landed commit is out of the slot; nothing else has moved. -/
theorem takeCommit_kept {attempt : ParkAttempt} {k : Core} (valid : Valid k) (idle : Idle k)
    (pending : k.commit = some attempt) :
    Valid { k with commit := none } ∧ Owes k { k with commit := none } ∧
      Landed attempt { k with commit := none } := by
  obtain ⟨attempted, encoded⟩ := valid.attempted attempt pending
  exact ⟨{ valid with attempted := fun _ wrong => by cases wrong }, .of_policy rfl rfl rfl,
    ⟨idle.empty, idle.calm, idle.shape.behind _ _ _, idle.clean⟩,
    ⟨attempted.within, attempted.quiet⟩, encoded⟩

theorem takeRestore_kept {k : Core} (valid : Valid k) (idle : Idle k) (inflight : k.restore = true) :
    Valid { k with restore := false } ∧ Owes k { k with restore := false } ∧
      Unrestored { k with restore := false } := by
  refine ⟨valid.workspace _ _ _ _, .of_policy rfl rfl rfl, Clear.of_policy idle.clear rfl id, ?_, rfl⟩
  rcases idle.shape.inflight inflight with restoring | down
  · obtain ⟨detached, held, -⟩ := idle.shape.restoring restoring
    exact .inl ⟨restoring, detached, held⟩
  · exact .inr down

theorem takeFinished_spec : Spec Idle takeFinished Finishing := by
  apply Spec.lock
  intro c valid idle
  cases slot : c.workspace.io with
  | none =>
    simp only [Option.bind_none]
    exact ⟨valid, Owes.refl _, idle⟩
  | some job =>
    simp only [Option.bind_some]
    split
    · exact ⟨valid, Owes.refl _, idle⟩
    rename_i finished done
    cases job with
    | commit attempt disk checkpoint mailbox =>
      cases mailbox with
      | none => cases done
      | some result =>
        obtain rfl := Option.some.inj done
        have became : ({ c with
            workspace := { c.workspace with io := none }
            storage := c.storage.take (.commit attempt disk result) } : Coordinator).core =
            { c.core with commit := none } := by
          simp [core, slot, PendingIo.restores]
        rw [became]
        exact takeCommit_kept valid idle (by simp [core, slot, PendingIo.attempt?])
    | restore source mailbox =>
      cases mailbox with
      | none => cases done
      | some result =>
        obtain rfl := Option.some.inj done
        have became : ({ c with
            workspace := { c.workspace with io := none }
            storage := c.storage.take (.restore result) } : Coordinator).core =
            { c.core with restore := false } := by
          simp [core, slot, PendingIo.attempt?]
        rw [became]
        exact takeRestore_kept valid idle (by simp [core, slot, PendingIo.restores])
    | transfer _ _ mailbox | delete _ mailbox =>
      cases mailbox with
      | none => cases done
      | some result =>
        have same : ({ c with
            workspace := { c.workspace with io := none }
            storage := c.storage.take finished } : Coordinator).core = c.core := by
          simp [core, slot, PendingIo.attempt?, PendingIo.restores]
        obtain rfl := Option.some.inj done
        rw [same]
        exact ⟨valid, Owes.refl _, idle⟩

/-- A deletion that spent its attempts is only reported. -/
theorem maintenance_kept {k : Core} (valid : Valid k) (idle : Idle k) (error : ProjectionError) :
    Valid { k with policy := k.policy.maintenanceFailed error } ∧
      Owes k { k with policy := k.policy.maintenanceFailed error } ∧
      Idle { k with policy := k.policy.maintenanceFailed error } := by
  exact ⟨valid.of_policy ⟨rfl, rfl, rfl⟩ rfl rfl valid.failed,
    .of_residency rfl rfl rfl rfl fun failed calm _ => ⟨failed, calm, List.prefix_rfl, .inl rfl⟩,
    Clear.idle (Clear.of_policy idle.clear rfl id) (idle.shape.of_status rfl rfl rfl)⟩

theorem settleDelete_spec {A : Core → Prop} [Steady A] (attempt : DeleteAttempt)
    (result : Except ProjectionError Unit) : Spec A (settleDelete attempt result) fun _ => A := by
  cases result with
  | ok _ => exact (releaseDisk_spec _).bind fun _ => Spec.skip
  | error error => exact Spec.aside fun _ => rfl

theorem maintenanceFailed_spec (error : ProjectionError) :
    Spec Idle (locked fun admission => ((), admission.maintenanceFailed error)) fun _ => Idle :=
  Spec.lock fun _ valid idle => maintenance_kept valid idle error

theorem applyDelete_spec (attempt : DeleteAttempt) (result : Except ProjectionError Unit) :
    Spec Idle (applyDelete attempt result) fun _ => Idle := by
  apply (settleDelete_spec attempt result).bind
  intro failed
  cases failed with
  | none => exact Spec.skip
  | some error => exact maintenanceFailed_spec error

theorem applyFinished_spec (closing : Bool) (finished : FinishedIo) :
    Spec (fun k => Finishing (some finished) k ∧ (closing = true → k.Down))
      (applyFinished closing finished) fun _ => Idle := by
  cases finished with
  | commit attempt disk result =>
    exact (applyCommit_spec attempt disk result).strengthen fun _ holds => holds.1
  | restore result =>
    cases closing with
    | true => exact Spec.pure fun _ holds => holds.1.clear.idle_of_down (holds.2 rfl)
    | false => exact (applyRestore_spec result).strengthen fun _ holds => holds.1
  | transfer request result =>
    exact (completeRequest_spec (A := Idle) request _).strengthen fun _ holds => holds.1
  | delete attempt result => exact (applyDelete_spec attempt result).strengthen fun _ holds => holds.1

/-- Applying a finished job leaves the workspace in the shape its residency asks for. -/
theorem finishIo_spec : Spec Idle finishIo fun _ => Idle := by
  apply services_spec.bind
  intro available
  split
  · apply takeFinished_spec.bind
    intro finished
    cases finished with
    | none => exact Spec.skip
    | some finished =>
      refine Spec.bind (B := fun (now : ProjectionStatus) k => Finishing (some finished) k ∧
        (now.residency.isClosing = true → k.Down)) (Spec.look fun c _ holds => ⟨holds, .inr⟩)
        fun now => applyFinished_spec now.residency.isClosing finished
  · exact Spec.skip

end Coordinator
end PtyRuntime
