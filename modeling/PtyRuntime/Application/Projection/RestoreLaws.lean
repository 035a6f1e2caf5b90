import PtyRuntime.Application.Projection.Assertions

/-! Reading a source back keeps the worker's promises. A restored model is adopted
only together with the source it still needs, which is retired once its history is
complete. -/
namespace PtyRuntime
open Thread PtyRuntime.Core

namespace Core

/-- A read for restoring is in flight, but the residency does not say so yet. -/
structure Begun (k : Core) : Prop where
  clear : Clear k
  parked : (k.residency = .parked ∧ k.terminal = false ∧ k.source.isSome) ∨ k.Down
  restore : k.restore = true

instance : Steady Begun where
  keep {k k'} beside begun := by
    obtain ⟨terminal, source, -, restore, -⟩ := beside.workspace
    refine ⟨Steady.keep beside begun.clear, ?_, restore.trans begun.restore⟩
    rcases begun.parked with ⟨parked, detached, held⟩ | down
    · exact beside.residency.imp
        (fun same => ⟨same.trans parked, terminal.trans detached, source ▸ held⟩) id
    · exact .inr (beside.down down)

/-- The restore job has landed and its outcome is still to be applied. -/
structure Unrestored (k : Core) : Prop where
  clear : Clear k
  restoring : (k.residency = .restoring ∧ k.terminal = false ∧ k.source.isSome) ∨ k.Down
  free : k.restore = false

instance : Steady Unrestored where
  keep {k k'} beside landed := by
    obtain ⟨terminal, source, -, restore, -⟩ := beside.workspace
    refine ⟨Steady.keep beside landed.clear, ?_, restore.trans landed.free⟩
    rcases landed.restoring with ⟨restoring, detached, held⟩ | down
    · exact beside.residency.imp
        (fun same => ⟨same.trans restoring, terminal.trans detached, source ▸ held⟩) id
    · exact .inr (beside.down down)

/-- A live model whose restoration has just advanced. -/
structure Progressing (k : Core) : Prop where
  clear : Clear k
  terminal : k.terminal = true
  under : ((k.residency = .restoring ∨ k.residency = .usable) ∧ k.source.isSome ∧
    k.restore = false) ∨ k.Down

instance : Steady Progressing where
  keep {k k'} beside progressing := by
    obtain ⟨terminal, source, -, restore, -⟩ := beside.workspace
    refine ⟨Steady.keep beside progressing.clear, terminal.trans progressing.terminal, ?_⟩
    rcases progressing.under with ⟨under, held, free⟩ | down
    · rcases beside.residency with same | down
      · exact .inl ⟨by rwa [same], source ▸ held, restore.trans free⟩
      · exact .inr down
    · exact .inr (beside.down down)

/-- Restoration has finished; its source is still to be retired. -/
structure Restored (k : Core) : Prop where
  clear : Clear k
  terminal : k.terminal = true
  resident : (k.residency = .resident ∧ k.restore = false) ∨ k.Down

instance : Steady Restored where
  keep {k k'} beside restored := by
    obtain ⟨terminal, -, -, restore, -⟩ := beside.workspace
    refine ⟨Steady.keep beside restored.clear, terminal.trans restored.terminal, ?_⟩
    rcases restored.resident with ⟨resident, free⟩ | down
    · exact beside.residency.imp (fun same => ⟨same.trans resident, restore.trans free⟩) id
    · exact .inr (beside.down down)

end Core

namespace Coordinator

section Asides

variable {A : Core → Prop} [Steady A]

/-- A job that is neither a commit nor a restore leaves the core alone. -/
theorem submit_aside (job : PendingIo) (other : job.attempt? = none ∧ job.restores = false) :
    Spec A (submit job) fun _ => A := by
  refine Spec.input.bind fun a => Spec.aside fun c => ?_
  split
  · rfl
  · rename_i free
    split
    · have none : c.workspace.io = none := by simpa using free
      simp [core, none, other]
    · rfl

theorem startDelete_spec : Spec A startDelete fun _ => A := by
  refine Spec.bind (B := fun _ => A) (Spec.aside fun c => ?_) fun due => ?_
  · split <;> rfl
  · cases due with
    | none => exact Spec.skip
    | some attempt =>
      refine (submit_aside (.delete attempt none) ⟨rfl, rfl⟩).bind fun result => ?_
      cases result with
      | ok _ => exact Spec.skip
      | error e =>
        exact Spec.bind (B := fun _ => A) (Spec.asideUpdate fun _ => rfl) fun _ =>
          Spec.skip

theorem readForTransfer_spec (source : CommittedSource) (request : SnapshotRequest) :
    Spec A (readForTransfer source request) fun _ => A := by
  refine (submit_aside (.transfer request source.toStoredCheckpoint none) ⟨rfl, rfl⟩).bind fun result => ?_
  cases result with
  | ok _ => exact Spec.skip
  | error e => exact (failRequest_spec _ _).bind fun _ => Spec.skip

end Asides

theorem submit_restore_spec (source : StoredCheckpoint) :
    Spec (fun k => Idle k ∧ TerminalIs false k ∧ IoFree k) (submit (.restore source none))
      fun result k => match result with
        | .ok _ => Begun k
        | .error _ => Idle k := by
  refine Spec.input.bind fun a => Spec.lock fun c valid holds => ?_
  obtain ⟨idle, detached, free⟩ := holds
  split
  · exact ⟨valid, Owes.refl _, idle⟩
  split
  · have became : ({ c with
        workspace := { c.workspace with io := some (.restore source none) }
        storage := c.storage.submit (.restore source none)
        rounds := c.rounds.submit (.restore source none) } : Coordinator).core =
        { c.core with restore := true } := by
      have := free.1
      simp_all [core, PendingIo.attempt?, PendingIo.restores]
    rw [became]
    refine ⟨valid.workspace _ _ _ _, .of_policy rfl rfl rfl, idle.clear.of_policy rfl id, ?_, rfl⟩
    exact (idle.parked detached free.2).imp (fun parked => ⟨parked.1, detached, parked.2⟩) id
  · exact ⟨valid, Owes.refl _, idle⟩

theorem beginRestore_spec :
    Spec Begun (locked (·.beginRestore)) fun result k => match result with
      | .ok _ => Idle k
      | .error _ => Begun k := by
  apply Spec.lock
  intro c valid begun
  rcases c.admission.policy.beginRestore_cases with ⟨error, refused⟩ | ⟨parked, restored⟩
  · simp only [Admission.beginRestore, Admission.withPolicy, refused]
    exact ⟨valid, Owes.refl _, begun⟩
  · simp only [Admission.beginRestore, Admission.withPolicy, restored]
    have alive : ¬c.core.Down := not_down_of parked (by decide)
    obtain ⟨-, detached, held⟩ := begun.parked.resolve_right alive
    have ended : c.core.closing = false := closing_of parked rfl
    refine ⟨valid.of_policy ⟨rfl, rfl, rfl⟩ rfl ended.symm (fun wrong => by cases wrong),
      .of_trace rfl rfl (fun wrong => ?_) rfl (fun before => ?_) id, ?_⟩
    · rw [ended] at wrong
      cases wrong
    · rw [show c.core.residency = .parked from parked] at before
      cases before
    · exact Clear.idle (Clear.of_policy begun.clear rfl fun down => absurd down alive)
        (.of_restoring rfl detached held begun.restore)

theorem readForRestore_spec (source : CommittedSource) :
    Spec (fun k => Idle k ∧ TerminalIs false k ∧ IoFree k) (readForRestore source)
      fun _ => Idle := by
  apply Spec.input.bind
  intro resident
  split
  · apply (submit_restore_spec source.toStoredCheckpoint).bind
    intro result
    cases result with
    | error e => exact Spec.skip
    | ok _ =>
      apply beginRestore_spec.bind
      intro begun
      cases begun with
      | error error =>
        exact Spec.bind (A := Begun) (fail_spec error) fun _ => Spec.pure fun _ holds =>
          holds.1.clear.idle_of_down holds.2
      | ok _ => exact Spec.skip
  · exact Spec.pure fun _ holds => holds.1

theorem startRead_spec (transfer : Option Command) :
    Spec (fun k => Idle k ∧ TerminalIs false k ∧ IoFree k) (startRead transfer) fun _ => Idle := by
  apply services_spec.bind
  intro available
  split
  · apply Spec.glance.bind
    intro source
    cases source with
    | none => exact (fail_spec _).bind fun _ => Spec.pure fun _ holds => holds.1.1
    | some source =>
      apply Spec.input.bind
      intro memory
      split
      · exact (readForTransfer_spec source _).weaken fun _ _ holds => holds.1
      · exact readForRestore_spec source
      · exact (failCommand_spec _ _).bind fun _ => Spec.pure fun _ holds => holds.1
      · exact Spec.pure fun _ holds => holds.1
  · exact Spec.pure fun _ holds => holds.1

theorem retireSource_core (c : Coordinator) :
    ({ c with workspace := c.workspace.retireSource } : Coordinator).core =
      { c.core with source := none } := by
  cases held : c.workspace.source <;> simp [core, NativeWorkspace.retireSource, held]

/-- Dropping the source of a finished restoration leaves a resident model. -/
theorem retireRestored_spec : Spec Restored retireRestored fun _ => Idle := by
  apply Spec.update
  intro c valid restored
  rw [retireSource_core]
  refine ⟨valid.workspace _ _ _ _, .of_policy rfl rfl rfl,
    Clear.idle (Clear.of_policy restored.clear rfl id) ?_⟩
  rcases restored.resident with ⟨resident, free⟩ | down
  · exact .of_resident (.inl resident) restored.terminal rfl free
  · exact Shape.of_down down

theorem recordProgress_spec (progress : RestorationProgress) :
    Spec Progressing (locked (·.recordRestorationProgress progress)) fun result k =>
      match result with
      | .error _ => Progressing k
      | .ok _ => if progress.isFinished then Restored k else Idle k := by
  apply Spec.lock
  intro c valid progressing
  rcases c.admission.policy.restorationProgress_cases progress with
    ⟨error, refused⟩ | ⟨under, -, advanced⟩
  · simp only [Admission.recordRestorationProgress, Admission.withPolicy, refused]
    exact ⟨valid, Owes.refl _, progressing⟩
  simp only [Admission.recordRestorationProgress, Admission.withPolicy, advanced]
  have alive : ¬c.core.Down := by
    rcases under with seen | seen
    · exact not_down_of seen (by decide)
    · exact not_down_of seen (by decide)
  have ended : c.core.closing = false := by
    rcases under with seen | seen
    · exact closing_of seen rfl
    · exact closing_of seen rfl
  obtain ⟨-, held, free⟩ := progressing.under.resolve_right alive
  refine ⟨valid.of_policy ⟨rfl, rfl, rfl⟩ rfl ?_ ?_, .of_trace rfl rfl (fun wrong => ?_) rfl ?_ id, ?_⟩
  · rw [ended]
    dsimp only
    split <;> rfl
  · dsimp only
    split <;> exact fun wrong => by cases wrong
  · rw [ended] at wrong
    cases wrong
  · intro before
    rcases under with seen | seen
    · rw [show c.core.residency = .restoring from seen] at before
      cases before
    · rw [show c.core.residency = .usable from seen] at before
      cases before
  split
  · rename_i finished
    refine ⟨Clear.of_policy progressing.clear rfl fun down => absurd down alive,
      progressing.terminal, .inl ⟨?_, free⟩⟩
    simp [Core.residency, core]
  · rename_i unfinished
    refine Clear.idle (Clear.of_policy progressing.clear rfl fun down => absurd down alive)
      (.of_usable ?_ progressing.terminal held free)
    simp [Core.residency, core]

theorem historyProgress_spec (progress : RestorationProgress) :
    Spec Progressing (historyProgress progress) fun _ => Idle := by
  apply (recordProgress_spec progress).bind
  intro result
  cases result with
  | error error =>
    exact (fail_spec (A := Progressing) error).weaken fun _ k holds =>
      holds.1.clear.idle_of_down holds.2
  | ok _ =>
    dsimp only
    split
    · exact retireRestored_spec
    · exact Spec.skip

/-- The restored model joins the source it was restored from. -/
theorem adoptModel_kept {k : Core} (valid : Valid k) (landed : Unrestored k) :
    Valid { k with terminal := true, owed := false } ∧
      Owes k { k with terminal := true, owed := false } ∧
      Progressing { k with terminal := true, owed := false } := by
  refine ⟨valid.workspace _ _ _ _, ⟨⟨rfl, rfl⟩, id, fun before after => ?_, fun _ after => ?_,
    fun failed calm _ => ⟨failed, calm, List.prefix_rfl, .inl rfl⟩⟩,
    Clear.of_policy landed.clear rfl id, rfl, ?_⟩
  · cases before.symm.trans after
  · cases after
  · exact landed.restoring.imp (fun restoring => ⟨.inl restoring.1, restoring.2.2, landed.free⟩) id

theorem adoptModel_spec (terminal : Terminal) :
    Spec Unrestored (onWorkspace fun w => { w with
      terminal := some terminal, historyStepOwed := false }) fun _ => Progressing :=
  Spec.update fun _ valid landed => adoptModel_kept valid landed

theorem adoptTerminal_spec (terminal : Terminal) :
    Spec Unrestored (adoptTerminal terminal) fun _ => Idle := by
  apply (nativeCall_spec _).bind
  intro result
  cases result with
  | error error =>
    refine Spec.pure fun k holds => ?_
    refine holds.1.clear.idle_of_down (holds.2 (fun a error answered => ?_) error rfl)
    cases progress : a.progress <;> simp [progress] at answered
  | ok progress =>
    exact ((adoptModel_spec terminal).strengthen fun _ holds => holds.1).bind fun _ =>
      historyProgress_spec progress

theorem applyRestore_spec (result : Except ProjectionError TerminalCheckpoint) :
    Spec Unrestored (applyRestore result) fun _ => Idle := by
  cases result with
  | error error =>
    exact (fail_spec error).weaken fun _ k holds => holds.1.clear.idle_of_down holds.2
  | ok checkpoint =>
    apply (nativeCall_keeps _).bind
    intro restored
    cases restored with
    | error error =>
      exact (fail_spec error).weaken fun _ k holds => holds.1.clear.idle_of_down holds.2
    | ok terminal => exact adoptTerminal_spec terminal

end Coordinator
end PtyRuntime
