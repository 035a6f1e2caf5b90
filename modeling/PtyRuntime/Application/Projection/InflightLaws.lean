import PtyRuntime.Application.Projection.Assertions

/-! Polling the reply and the resize in flight keeps the worker's promises, and a poll
that lets the run go on leaves the engine quiet. -/
namespace PtyRuntime
open Thread PtyRuntime.Core

namespace Core

/-- The state after counting an applied resize. -/
def control (k : Core) (generation : ControlGeneration) : Core :=
  { k with policy := { k.policy with
      status := { k.policy.status with controlGeneration := generation } } }

theorem control_kept {k : Core} (valid : Valid k) (idle : Idle k) (resizing : k.resize = true)
    (generation : ControlGeneration) :
    Valid (k.control generation) ∧ Owes k (k.control generation) ∧ Idle (k.control generation) := by
  have stale := valid.stale (.inr (.inl resizing))
  refine ⟨{ valid with attempted := stale.attempted valid rfl rfl rfl rfl },
    .of_residency rfl rfl rfl rfl fun failed calm _ => ⟨failed, calm, List.prefix_rfl, .inl rfl⟩,
    ⟨idle.empty, idle.calm, { idle.shape with parked := fun parked => ?_ }, idle.clean⟩⟩
  obtain ⟨-, -, -, resize⟩ := idle.shape.parked parked
  rw [resizing] at resize
  cases resize

end Core

namespace Coordinator

variable (r : Residency)

theorem checkWritten_spec {A : Core → Prop} [Steady A] (reply : Reply) (outcome : WriteOutcome) :
    Spec A (checkWritten reply outcome) fun _ => A := by
  unfold checkWritten
  split
  · exact (fail_spec _).weaken fun _ _ holds => holds.1
  · exact Spec.skip

theorem pollReply_spec (reply : Reply) :
    Spec (fun k => Idle k ∧ Seen r k) (pollReply reply) fun result k =>
      (Idle k ∧ Seen r k) ∧ (result = none → k.reply = false) := by
  apply Spec.input.bind
  intro a
  cases a.written with
  | none => exact Spec.pure fun _ holds => ⟨holds, fun wrong => by cases wrong⟩
  | some outcome =>
    refine (checkWritten_spec reply outcome).bind fun _ =>
      Spec.bind (B := fun _ k => (Idle k ∧ Seen r k) ∧ k.reply = false)
        (Spec.update fun c valid holds => ?_) fun _ =>
          Spec.pure fun _ holds => ⟨holds.1, fun _ => holds.2⟩
    obtain ⟨kept, owes, idle⟩ := settleOperation_kept valid holds.1 (fun _ => rfl) id
    exact ⟨kept, owes, ⟨idle, holds.2⟩, rfl⟩

theorem submitReply_spec (reply : Reply) :
    Spec (fun k => (Idle k ∧ Seen r k) ∧ ReplyIs true k) (submitReply reply) fun result k =>
      (Idle k ∧ Seen r k) ∧ (result = none → k.reply = false) := by
  have waits : ∀ schedule : WorkSchedule,
      Spec (fun k => (Idle k ∧ Seen r k) ∧ ReplyIs true k) (pure (some schedule) : Work _)
        fun result k => (Idle k ∧ Seen r k) ∧ (result = none → k.reply = false) :=
    fun schedule => Spec.pure fun _ holds => ⟨holds.1, fun wrong => by cases wrong⟩
  apply Spec.glance.bind
  intro bound
  split
  · apply Spec.input.bind
    intro a
    split
    · split
      · refine Spec.bind (B := fun _ k => Idle k ∧ Seen r k) (Spec.update fun c valid holds => ?_)
          fun _ => pollReply_spec r reply
        have same : ({ c with workspace := { c.workspace with
            reply := some { reply with operation := true } } } : Coordinator).core = c.core := by
          have replying : c.workspace.reply.isSome = true := holds.2
          simp [core, replying]
        rw [same]
        exact ⟨valid, Owes.refl _, holds.1⟩
      · exact waits _
      · refine (fail_spec _).bind fun _ => Spec.bind (B := fun _ k => Idle k ∧ Seen r k)
          (Spec.update fun c valid holds => ?_)
          fun _ => Spec.pure fun _ holds => ⟨holds, fun wrong => by cases wrong⟩
        obtain ⟨kept, owes, idle⟩ := settleOperation_kept valid holds.1.1.1 (fun _ => rfl) id
        exact ⟨kept, owes, idle, holds.1.1.2⟩
    · exact waits _
  · exact waits _

theorem pollReplySlot_spec :
    Spec (fun k => Idle k ∧ Seen r k) pollReplySlot fun result k =>
      (Idle k ∧ Seen r k) ∧ (result = none → k.reply = false) := by
  refine Spec.bind (B := fun (slot : Option Reply) k => (Idle k ∧ Seen r k) ∧ ReplyIs slot.isSome k)
    (Spec.look fun c _ holds => ⟨holds, rfl⟩) fun slot => ?_
  cases slot with
  | none => exact Spec.pure fun _ holds => ⟨holds.1, fun _ => holds.2⟩
  | some reply =>
    dsimp only
    split
    · exact (pollReply_spec r reply).strengthen fun _ holds => holds.1
    · exact submitReply_spec r reply

/-- What holds while a resize settles. -/
def Settling (k : Core) : Prop := ((Idle k ∧ Seen r k) ∧ ReplyIs false k) ∧ ResizeIs true k

instance : Steady (Settling r) :=
  inferInstanceAs (Steady fun k => ((Idle k ∧ Seen r k) ∧ ReplyIs false k) ∧ ResizeIs true k)

theorem resizeModel_spec {A : Core → Prop} [Steady A] (resize : Resizing)
    (os : Except ProcessError Unit) : Spec A (resizeModel resize os) fun _ => A := by
  cases os with
  | error e => exact Spec.skip
  | ok _ =>
    apply Spec.glance.bind
    intro present
    split
    · exact Spec.bind (B := fun _ => A) (Spec.asideUpdate fun _ => rfl) fun _ => nativeCall_keeps _
    · exact Spec.skip

theorem recordControlApplied_spec (generation : ControlGeneration) :
    Spec (Settling r) (recordControlApplied generation) fun _ => Settling r := by
  apply Spec.lock
  intro c valid holds
  rcases c.admission.policy.recordControlApplied_cases generation with
    ⟨error, refused⟩ | ⟨-, applied⟩
  · simp only [Admission.recordControlApplied, Admission.withPolicy, refused]
    exact ⟨valid, Owes.refl _, holds⟩
  · simp only [Admission.recordControlApplied, Admission.withPolicy, applied]
    obtain ⟨⟨⟨idle, seen⟩, replying⟩, resizing⟩ := holds
    obtain ⟨kept, owes, idle⟩ := control_kept valid idle resizing generation
    exact ⟨kept, owes, ⟨⟨idle, seen⟩, replying⟩, resizing⟩

theorem recordResized_spec (resize : Resizing) :
    Spec (Settling r) (recordResized resize) fun _ => Settling r := by
  refine Spec.bind (B := fun _ => Settling r) (Spec.asideUpdate fun _ => rfl) fun _ =>
    (recordControlApplied_spec r resize.generation).bind fun result => ?_
  cases result with
  | error error => exact (fail_spec error).weaken fun _ _ holds => holds.1
  | ok _ => exact Spec.input.bind fun _ => onJournal_spec _

theorem settleModel_spec (resize : Resizing) (os : Except ProcessError Unit)
    (model : Except ProjectionError Unit) :
    Spec (Settling r) (settleModel resize os model) fun _ => Settling r := by
  rcases model with error | _
  · cases os with
    | error e => exact Spec.skip
    | ok _ => exact (fail_spec error).weaken fun _ _ holds => holds.1
  · exact recordResized_spec r resize

theorem finishResize_spec (resize : Resizing) (os : Except ProcessError Unit) :
    Spec (Settling r) (finishResize resize os) fun _ k =>
      (Idle k ∧ Seen r k) ∧ k.reply = false ∧ k.resize = false := by
  refine (resizeModel_spec resize os).bind fun model => (settleModel_spec r resize os model).bind fun _ =>
    (completeTicket_spec _ _).bind fun _ => Spec.update fun c valid holds => ?_
  obtain ⟨⟨⟨idle, seen⟩, replying⟩, -⟩ := holds
  obtain ⟨kept, owes, idle⟩ := settleOperation_kept valid idle id fun _ => rfl
  exact ⟨kept, owes, ⟨idle, seen⟩, replying, rfl⟩

theorem pollResizeSlot_spec :
    Spec (fun k => (Idle k ∧ Seen r k) ∧ ReplyIs false k) pollResizeSlot fun result k =>
      (Idle k ∧ Seen r k) ∧ (result = none → k.reply = false ∧ k.resize = false) := by
  refine Spec.bind (B := fun (slot : Option Resizing) k =>
      ((Idle k ∧ Seen r k) ∧ ReplyIs false k) ∧ ResizeIs slot.isSome k)
    (Spec.look fun c _ holds => ⟨holds, rfl⟩) fun slot => ?_
  cases slot with
  | none => exact Spec.pure fun _ holds => ⟨holds.1.1, fun _ => ⟨holds.1.2, holds.2⟩⟩
  | some resize =>
    apply Spec.input.bind
    intro a
    cases a.osResized with
    | none => exact Spec.pure fun _ holds => ⟨holds.1.1, fun wrong => by cases wrong⟩
    | some os =>
      exact Spec.bind (A := Settling r) (finishResize_spec r resize os) fun _ =>
        Spec.pure fun _ holds => ⟨holds.1, fun _ => holds.2⟩

/-- A poll that lets the run continue leaves the engine quiet. -/
theorem pollInflightOperations_spec :
    Spec (fun k => Idle k ∧ Seen r k) pollInflightOperations fun result k =>
      (Idle k ∧ Seen r k) ∧ (result = none → Quiet k) := by
  refine Spec.bind (B := fun registered k => (Idle k ∧ Seen r k) ∧
    (registered = false → k.closing = true)) (Spec.look fun c valid holds =>
      ⟨holds, valid.registered⟩) fun registered => ?_
  cases registered with
  | false => exact Spec.pure fun _ holds => ⟨holds.1, fun _ => .inr (holds.2 rfl)⟩
  | true =>
    refine ((pollReplySlot_spec r).strengthen fun _ holds => holds.1).bind fun result => ?_
    cases result with
    | some schedule => exact Spec.pure fun _ holds => ⟨holds.1, fun wrong => by cases wrong⟩
    | none =>
      exact (pollResizeSlot_spec r).mono (fun _ holds => ⟨holds.1, holds.2 rfl⟩)
        fun _ _ holds => ⟨holds.1, fun none => .inl (holds.2 none)⟩

end Coordinator
end PtyRuntime
