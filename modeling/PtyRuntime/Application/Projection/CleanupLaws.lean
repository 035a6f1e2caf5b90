import PtyRuntime.Application.Projection.WorkerLaws

/-! Cleanup, a panicked run and the teardown after shutdown keep the worker's
promises too, which settles all three programs that take the workspace lock. -/
namespace PtyRuntime
open Thread PtyRuntime.Core

namespace Core

/-- Between runs of a projection that is closing or closed. -/
def Ended (k : Core) : Prop := Idle k ∧ k.closing = true

instance : Steady Ended where
  keep beside ended := ⟨Steady.keep beside ended.1, beside.closing ended.2⟩

/-- While closing, the worker only has to leave positions and attempts alone. -/
theorem Ended.kept {k k' : Core} (valid : Valid k) (ended : Ended k) (trace : k'.trace = k.trace)
    (positions : k'.policy.status.published = k.policy.status.published ∧
      k'.policy.status.processed = k.policy.status.processed ∧
      k'.policy.status.controlGeneration = k.policy.status.controlGeneration)
    (activity : k'.policy.activity = k.policy.activity) (closing : k'.closing = true)
    (queue : k'.queue = k.queue) (reply : k.reply = false → k'.reply = false)
    (resize : k.resize = false → k'.resize = false)
    (commit : ∀ attempt, k'.commit = some attempt → k.commit = some attempt)
    (compatibility : k'.compatibility = k.compatibility) :
    Valid k' ∧ Owes k k' ∧ Ended k' := by
  obtain ⟨published, processed, control⟩ := positions
  have never : k'.closing ≠ false := by simp [closing]
  have owes : Owes k k' := by
    refine ⟨⟨by rw [trace], published⟩, fun _ => closing, fun before => ?_,
      fun _ _ alive => absurd alive never, fun _ _ alive => absurd alive never⟩
    have running := closing_of before rfl
    rw [ended.2] at running
    cases running
  refine ⟨?_, owes, .of_down (trace ▸ ended.1.empty) (trace ▸ ended.1.calm) (.inr closing), closing⟩
  constructor
  · exact fun alive => absurd alive never
  · rw [trace, published, valid.published]
  · rw [trace, processed, valid.processed]
  · exact fun alive => absurd alive never
  · intro failed
    have running := closing_of failed rfl
    exact absurd running never
  · exact fun _ => closing
  · intro attempt pending
    obtain ⟨attempted, version⟩ := valid.attempted attempt (commit attempt pending)
    refine ⟨⟨activity ▸ attempted.within, fun current => ?_⟩, by rw [trace, compatibility, version]⟩
    obtain ⟨since, inert, noReply, noResize, level, same, sameControl⟩ :=
      attempted.quiet (current.trans activity)
    rw [trace, queue, published, processed, control]
    exact ⟨since, inert, reply noReply, resize noResize, level, same, sameControl⟩

end Core

namespace Coordinator

theorem completeWaiters_spec {A : Core → Prop} [Steady A] (waiters : List TicketId)
    (failed : Option ProjectionError) : Spec A (completeWaiters waiters failed) fun _ => A := by
  induction waiters with
  | nil => exact Spec.skip
  | cons waiter rest ih => exact (completeTicket_spec waiter _).bind fun _ => ih

theorem retireRestored_ended : Spec Ended retireRestored fun _ => Ended := by
  apply Spec.update
  intro c valid ended
  rw [retireSource_core]
  exact ended.kept valid rfl ⟨rfl, rfl, rfl⟩ rfl ended.2 rfl id id (fun _ => id) rfl

theorem takeProcess_spec {A : Core → Prop} [Steady A] : Spec A takeProcess fun _ => A :=
  Spec.asideUpdate fun _ => rfl

/-- The scheduler registration is only given up by a closing projection. -/
theorem takeHandle_ended : Spec Ended (Thread.update fun c : Coordinator =>
    { c with wiring := { c.wiring with handle := false } }) fun _ => Ended :=
  Spec.update fun _ valid ended =>
    ended.kept valid rfl ⟨rfl, rfl, rfl⟩ rfl ended.2 rfl id id (fun _ => id) rfl

theorem releaseWiring_spec : Spec Ended releaseWiring fun _ => Ended :=
  Spec.bind (B := fun _ => Ended) (Spec.asideUpdate fun _ => rfl) fun _ => takeHandle_ended

theorem finishClose_policy (a : Admission) (failed : Option ProjectionError) :
    (a.finishClose failed).2.policy.activity = a.policy.activity ∧
      (a.finishClose failed).2.policy.status = { a.policy.status with
        residency := .closed
        failure := (failed.or a.unreclaimedFailure).or a.policy.status.failure } := by
  unfold Admission.finishClose
  cases failed.or a.unreclaimedFailure <;> exact ⟨rfl, rfl⟩

theorem finishClose_spec (failed : Option ProjectionError) :
    Spec Ended (finishClose failed) fun _ => Ended := by
  refine Spec.lock fun c valid ended => ?_
  obtain ⟨activity, status⟩ := finishClose_policy c.admission failed
  refine ended.kept valid rfl ⟨?_, ?_, ?_⟩ activity ?_ rfl id id (fun _ => id) rfl
  · exact congrArg (·.published) status
  · exact congrArg (·.processed) status
  · exact congrArg (·.controlGeneration) status
  · exact congrArg (·.residency.isClosing) status

theorem finishCleanup_spec (failed : Option ProjectionError) :
    Spec Ended (finishCleanup failed) fun _ => Ended :=
  (finishClose_spec failed).bind fun _ => takeProcess_spec.bind fun _ =>
    (completeWaiters_spec _ _).bind fun _ => releaseWiring_spec.bind fun _ => Spec.skip

theorem retryDeletions_spec {A : Core → Prop} [Steady A] (retry : Bool) :
    Spec A (retryDeletions retry) fun _ => A := by
  cases retry with
  | true => exact Spec.asideUpdate fun _ => rfl
  | false => exact Spec.skip

theorem reapForClose_spec {A : Core → Prop} [Steady A] (failed : Option ProjectionError) :
    Spec A (reapForClose failed) fun _ => A := by
  apply Spec.glance.bind
  intro holding
  split
  · cases failed with
    | some error =>
      exact Spec.bind (B := fun _ => A) (Spec.asideUpdate fun _ => rfl) fun _ => Spec.skip
    | none => exact startDelete_spec.bind fun _ => Spec.skip
  · exact Spec.skip

theorem cleanupSources_spec : Spec Ended cleanupSources fun _ => Ended := by
  apply Spec.glance.bind
  intro busy
  split
  · exact Spec.skip
  · refine retireRestored_ended.bind fun _ =>
      Spec.bind (B := fun _ => Ended) (Spec.aside fun _ => rfl) fun pending =>
        (retryDeletions_spec _).bind fun _ => (reapForClose_spec _).bind fun reaped => ?_
    cases reaped with
    | some schedule => exact Spec.skip
    | none => exact finishCleanup_spec _

theorem clearResize_ended : Spec Ended (onWorkspace fun w => { w with resize := none })
    fun _ => Ended :=
  Spec.update fun _ valid ended =>
    ended.kept valid rfl ⟨rfl, rfl, rfl⟩ rfl ended.2 rfl id (fun _ => rfl) (fun _ => id) rfl

theorem closingResize_spec : Spec Ended closingResize fun _ => Ended := by
  apply Spec.glance.bind
  intro slot
  cases slot with
  | none => exact Spec.skip
  | some resize =>
    apply Spec.glance.bind
    intro registered
    split
    · apply Spec.input.bind
      intro a
      cases a.osResized with
      | none => exact Spec.skip
      | some os =>
        exact (completeTicket_spec _ _).bind fun _ => clearResize_ended.bind fun _ =>
          Spec.skip
    · exact Spec.skip

theorem cleanup_spec : Spec Ended cleanup fun _ => Idle := by
  refine Spec.bind (B := fun _ => Ended) (Spec.asideUpdate fun _ => rfl) fun _ =>
    Spec.bind (B := fun _ => Ended) (Spec.update fun c valid ended => ?_) fun _ =>
      closingResize_spec.bind fun waiting => ?_
  · exact ended.kept valid rfl ⟨rfl, rfl, rfl⟩ rfl ended.2 rfl (fun _ => rfl) id (fun _ => id) rfl
  · cases waiting with
    | some schedule => exact Spec.pure fun _ ended => ended.1
    | none => exact cleanupSources_spec.weaken fun _ _ ended => ended.1

theorem workWhileFailed_spec : Spec Idle workWhileFailed fun _ => Idle := by
  apply Spec.glance.bind
  intro due
  split
  · exact startDelete_spec
  · exact Spec.skip

theorem runOpen_spec (r : Residency) :
    Spec (fun k => Idle k ∧ Seen r k) (runOpen r) fun _ => Idle := by
  apply (pollInflightOperations_spec r).bind
  intro polled
  cases polled with
  | some schedule => exact Spec.pure fun _ holds => holds.1.1
  | none =>
    refine ((checkFailure_spec r).strengthen fun _ holds => ⟨holds.1, holds.2 rfl⟩).bind
      fun failure => ?_
    cases failure with
    | some error => exact workWhileFailed_spec
    | none => exact runPhase_spec r

/-- A scheduled run, from any state it can find and beside any other threads. -/
theorem run_spec : Spec Idle run fun _ => Idle := by
  apply services_spec.bind
  intro available
  split
  · refine finishIo_spec.bind fun _ => Spec.bind (B := fun (seen : ProjectionStatus) k =>
      (Idle k ∧ Seen seen.residency k) ∧ (seen.residency.isClosing = true → k.closing = true))
      (Spec.look fun c _ idle => ⟨⟨idle, .inl rfl⟩, id⟩) fun seen => ?_
    split
    · rename_i ending
      exact cleanup_spec.strengthen fun _ holds => ⟨holds.1.1, holds.2 ending⟩
    split
    · exact workWhileFailed_spec.strengthen fun _ holds => holds.1.1
    · exact (runOpen_spec seen.residency).strengthen fun _ holds => holds.1
  · exact Spec.skip

theorem discardOperations_spec : Spec Idle discardOperations fun _ => Idle := by
  refine Spec.bind (B := fun _ => Idle) (Spec.update fun c valid idle =>
    settleOperation_kept valid idle (fun _ => rfl) id)
    fun _ => Spec.glance.bind fun slot => ?_
  cases slot with
  | none => exact Spec.skip
  | some resize =>
    exact Spec.bind (B := fun _ => Idle) (Spec.update fun c valid idle =>
      settleOperation_kept valid idle id fun _ => rfl)
      fun _ => completeTicket_spec _ _

theorem failed_spec : Spec Idle failed fun _ => Idle := by
  refine ((fail_spec .worker).weaken fun _ _ holds => holds.1).bind fun _ =>
    discardOperations_spec.bind fun _ => status_spec.bind fun seen => ?_
  cases seen.residency <;> exact Spec.skip

/-- The teardown closes the projection as a request would. -/
theorem abandonClose_spec : Spec Idle abandonClose fun _ => Ended := by
  apply Spec.lock
  intro c valid idle
  have beside := (Disturbance.close (k := c.core)).beside
  have ended : Core.closing { c.core with policy := c.core.policy.close, queue := [] } = true :=
    close_residency c.core.policy
  refine ⟨valid.beside beside, ⟨⟨rfl, ?_⟩, beside.closing, fun _ after => ?_, fun _ _ alive => ?_,
    fun _ _ alive => ?_⟩, Steady.keep beside idle, ended⟩
  · exact (close_frame c.core.policy).2.2.2.1
  · have running := closing_of after rfl
    exact absurd (running.symm.trans ended) (by decide)
  · exact absurd (alive.symm.trans ended) (by decide)
  · exact absurd (alive.symm.trans ended) (by decide)

theorem abandonJob_spec : Spec Ended (Thread.lock fun c : Coordinator =>
    (c.workspace.io, { c with
      workspace := { c.workspace with io := none }, storage := c.storage.abandon c.workspace.io }))
    fun _ => Ended := by
  refine Spec.lock fun c valid ended => ?_
  refine ended.kept valid rfl ⟨rfl, rfl, rfl⟩ rfl ended.2 rfl id id (fun _ wrong => ?_) rfl
  cases wrong

theorem abandonIo_spec : Spec Ended abandonIo fun _ => Ended := by
  apply abandonJob_spec.bind
  intro pending
  rcases pending with _ | (_ | _ | _ | _)
  · exact Spec.skip
  · exact recordUnreclaimed_spec _
  · exact Spec.skip
  · exact failRequest_spec _ _
  · exact recordUnreclaimed_spec _

theorem dropTerminal_ended : Spec Ended (onWorkspace fun w => { w with terminal := none })
    fun _ => Ended :=
  Spec.update fun _ valid ended =>
    ended.kept valid rfl ⟨rfl, rfl, rfl⟩ rfl ended.2 rfl id id (fun _ => id) rfl

theorem abandonSources_spec : Spec Ended abandonSources fun _ => Ended :=
  retireRestored_ended.bind fun _ =>
    Spec.bind (B := fun _ => Ended) (Spec.asideUpdate fun _ => rfl) fun _ =>
      discardOperations_spec.closing.bind fun _ => dropTerminal_ended

theorem abandonWaiters_spec : Spec Ended (locked (·.abandonWaiters)) fun _ => Ended :=
  Spec.lock fun _ valid ended =>
    ended.kept valid rfl ⟨rfl, rfl, rfl⟩ rfl rfl rfl id id (fun _ => id) rfl

theorem finishAfterShutdown_spec : Spec Idle finishAfterShutdown fun _ => Idle := by
  apply status_spec.bind
  intro seen
  split
  · exact Spec.skip
  · refine Spec.bind (B := fun _ => Idle) (Spec.asideUpdate fun _ => rfl) fun _ =>
      (onJournal_spec _).bind fun _ => abandonClose_spec.bind fun rejected =>
        (failCommands_spec rejected _).bind fun _ => finishIo_spec.closing.bind fun _ =>
          abandonIo_spec.bind fun _ => abandonSources_spec.bind fun _ =>
            abandonWaiters_spec.bind fun waiters => (completeWaiters_spec waiters _).bind fun _ =>
              takeProcess_spec.bind fun _ => releaseWiring_spec.weaken fun _ _ ended => ended.1

theorem discard_spec {α : Type} {A : Core → Prop} {work : Work α} {B : Core → Prop}
    (spec : Spec A work fun _ => B) : Spec A (discard work) fun _ => B :=
  spec.bind fun _ => Spec.skip

/-- Whoever takes the workspace lock gives it back with the projection idle. -/
theorem owner_spec (owner : Owner) : Spec Idle owner.thread fun _ => Idle := by
  cases owner with
  | run => exact discard_spec run_spec
  | failed => exact discard_spec failed_spec
  | finishAfterShutdown => exact finishAfterShutdown_spec

end Coordinator
end PtyRuntime
