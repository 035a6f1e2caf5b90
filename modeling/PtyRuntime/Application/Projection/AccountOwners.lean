import PtyRuntime.Application.Projection.AccountPhases
import PtyRuntime.Application.Projection.CleanupLaws

/-! The three programs that take the workspace lock, on the account of a projection:
finishing a job, running, cleaning up and tearing down. With the steps of everyone beside
them, every run of a projection keeps its account. -/
namespace PtyRuntime
open Thread PtyRuntime.Core

namespace Coordinator

variable {P : Account → Prop} [Account.Lasting P]

/-- A transfer whose source has been read back stands where the stream does. -/
def Handed (finished : FinishedIo) (v : Account) : Prop :=
  ∀ request result, finished = .transfer request result → Carried result v

instance (finished : FinishedIo) : Account.Lasting (Handed finished) where
  keep beside handed request result same := Account.Lasting.keep beside (handed request result same)

theorem handed_of_reading {c : Coordinator} {job : PendingIo} {finished : FinishedIo} (reading : c.Reading)
    (pending : c.workspace.io = some job) (done : job.finished = some finished) :
    Handed finished c.account := by
  rintro request result rfl checkpoint rfl
  rcases job with ⟨_, _, _, _ | _⟩ | ⟨_, _ | _⟩ | ⟨_, source, _ | _⟩ | ⟨_, _ | _⟩ <;> cases done
  obtain ⟨-, version, agreed, read⟩ := reading _ _ _ pending
  rw [Account.Matches, read checkpoint rfl]
  exact ⟨version, agreed⟩

theorem takeFinished_over :
    Over accounts (fun c => P c.account) takeFinished fun finished c => P c.account ∧
      ∀ job, finished = some job → Jobless c ∧ Handed job c.account := by
  refine Over.lock fun c _ accounted holds => ?_
  split
  · exact ⟨accounted, .refl c, holds, by simp⟩
  · rename_i finished taken
    obtain ⟨job, pending, done⟩ := Option.bind_eq_some_iff.mp taken
    refine ⟨⟨accounted.kept, accounted.marked, ?_, accounted.seamless⟩, ⟨id, fun _ => id, .refl c⟩, holds, ?_⟩
    · intro request source mailbox wrong
      cases wrong
    · rintro other same
      obtain rfl := Option.some.inj same
      exact ⟨rfl, (handed_of_reading accounted.reading pending done : Handed finished c.account)⟩

/-- No source is being read back while a model is handed over. -/
theorem adoptTerminal_over (terminal : Terminal) :
    Over accounts (fun c => P c.account ∧ Jobless c) (adoptTerminal terminal) fun _ c => P c.account := by
  apply (Over.sliding (Bystanding.nativeCall_each _)).bind
  intro progress
  cases progress with
  | error e => exact Over.pure fun _ holds => holds.1
  | ok progress =>
    refine Over.bind (G := fun _ c => P c.account) (Over.update fun c _ accounted holds => ?_) fun _ =>
      Over.shelving (Shelving.historyProgress_each progress)
    refine ⟨⟨accounted.kept, accounted.marked, ?_, accounted.seamless⟩, ⟨id, fun _ => id, .refl c⟩, holds.1⟩
    intro request source mailbox pending
    have jobless : c.workspace.io.isNone = true := holds.2
    rw [show c.workspace.io = some _ from pending] at jobless
    cases jobless

theorem applyRestore_over (result : Except ProjectionError TerminalCheckpoint) :
    Over accounts (fun c => P c.account ∧ Jobless c) (applyRestore result) fun _ c => P c.account := by
  cases result with
  | error error => exact (Over.sliding (Bystanding.fails error)).weaken fun _ _ holds => holds.1
  | ok _ =>
    apply (Over.sliding (Bystanding.nativeCall_each _)).bind
    intro restored
    cases restored with
    | error error => exact (Over.sliding (Bystanding.fails error)).weaken fun _ _ holds => holds.1
    | ok terminal => exact adoptTerminal_over terminal

theorem applyFinished_over (closing : Bool) (finished : FinishedIo) :
    Over accounts (fun c => P c.account ∧ Jobless c ∧ Handed finished c.account)
      (applyFinished closing finished) fun _ c => P c.account := by
  cases finished with
  | commit attempt disk result =>
    exact (Over.shelving (P := P) (Shelving.applyCommit_each attempt disk result)).strengthen
      fun _ holds => holds.1
  | restore result =>
    cases closing with
    | true => exact Over.pure fun _ holds => holds.1
    | false => exact (applyRestore_over result).strengthen fun _ holds => ⟨holds.1, holds.2.1⟩
  | transfer request result =>
    refine (completeRequest_over request _).strengthen fun c holds => ⟨holds.1, ?_⟩
    split
    · simp [Carried]
    · exact holds.2.2 request result rfl
  | delete attempt result =>
    exact (Over.shelving (P := P) (Shelving.applyDelete_each attempt result)).strengthen
      fun _ holds => holds.1

theorem finishIo_over : Over accounts (fun c => P c.account) finishIo fun _ c => P c.account := by
  apply Over.glance.bind
  intro available
  split
  · apply takeFinished_over.bind
    intro finished
    cases finished with
    | none => exact Over.pure fun _ holds => holds.1
    | some finished =>
      refine Over.strengthen (F := fun c => P c.account ∧ Jobless c ∧ Handed finished c.account)
        (Over.glance.bind fun now => applyFinished_over _ finished) fun _ holds => ?_
      exact ⟨holds.1, holds.2 finished rfl⟩
  · exact Over.pure fun _ => id

/-- A projection that is down keeps its books. -/
def Sunk (v : Account) : Prop := v.Books ∧ v.Down

instance : Account.Lasting Sunk := inferInstanceAs (Account.Lasting fun v => v.Books ∧ v.Down)

theorem Sunk.rest {v : Account} (sunk : Sunk v) : v.Rest := ⟨sunk.1, .inl sunk.2⟩

/-- What a closing projection keeps to its end. -/
def Ebbing (v : Account) : Prop := Sunk v ∧ v.Ending

instance : Account.Lasting Ebbing := inferInstanceAs (Account.Lasting fun v => Sunk v ∧ v.Ending)

theorem Ebbing.of_ending {v : Account} (rest : v.Rest) (ending : v.Ending) : Ebbing v :=
  ⟨⟨rest.1, .inl ending⟩, ending⟩

theorem Sunk.drop {v : Account} (sunk : Sunk v) : Sunk { v with resize := none } :=
  ⟨⟨⟨sunk.1.counted, sunk.1.level, sunk.1.within⟩, sunk.1.closed⟩, sunk.2⟩

/-- A projection that is down no longer waits for a resize. -/
theorem dropResize_over (drop : ∀ v, P v → P { v with resize := none }) :
    Over accounts (fun c => P c.account) (onWorkspace fun w => { w with resize := none })
      fun _ c => P c.account := by
  refine Over.update fun c _ accounted holds => ?_
  obtain ⟨accounted, owed⟩ := accounted.still (rfl : ({ c with
    workspace := { c.workspace with resize := none } } : Coordinator).account = _)
    ⟨⟨rfl, rfl⟩, rfl, id, .refl c⟩ accounted.kept.discard ⟨rfl, rfl, rfl⟩ (.inr ⟨rfl, rfl, rfl⟩)
  exact ⟨accounted, owed, drop c.account holds⟩

theorem closingResize_over :
    Over accounts (fun c => Ebbing c.account) closingResize fun _ c => Ebbing c.account := by
  apply Over.glance.bind
  intro slot
  cases slot with
  | none => exact Over.pure fun _ => id
  | some resize =>
    apply Over.glance.bind
    intro registered
    split
    · apply Over.input.bind
      intro a
      cases a.osResized with
      | none => exact Over.pure fun _ => id
      | some os =>
        exact (Over.sliding (Completing.completeTicket_each _ (by simp [Gapless]))).bind fun _ =>
          (dropResize_over fun _ ebbing => ⟨ebbing.1.drop, ebbing.2⟩).bind fun _ => Over.pure fun _ => id
    · exact Over.pure fun _ => id

/-- What closes a closing projection for good may put a failure on record. -/
theorem slides_close {c c' : Coordinator} (ending : c.account.Ending)
    (residency : c'.admission.status.residency = .closed)
    (broke : c.account.failed = true → c'.account.failed = true)
    (became : c'.account = { c.account with closing := true, failed := c'.account.failed })
    (rest : c'.workspace = c.workspace ∧ c'.journal = c.journal ∧ c'.tickets = c.tickets) :
    Slides Keeps c c' := by
  obtain ⟨workspace, journal, tickets⟩ := rest
  have same : c'.account = { c.account with failed := c'.account.failed } := by
    refine became.trans ?_
    rw [← show c.account.closing = true from ending]
  refine ⟨?_, ⟨.of_same workspace, fun id => by rw [journal]; exact fun present => present⟩, fun _ _ => .inr ?_, ?_⟩
  · rw [same]
    cases was : c.account.failed with
    | true =>
      rw [broke was, ← was]
      exact .same _
    | false =>
      cases c'.account.failed with
      | true => exact .mark ending
      | false =>
        rw [← was]
        exact .same _
  · change c'.admission.status.residency.isClosing = true
    rw [residency]
    rfl
  · rw [Seamless, Seamless, tickets]
    exact id

theorem finishClose_over (failed : Option ProjectionError) :
    Over accounts (fun c => Ebbing c.account) (finishClose failed)
      fun _ c => Sunk c.account := by
  refine Over.lock fun c _ accounted holds => ?_
  obtain ⟨activity, status⟩ := finishClose_policy c.admission failed
  have slides : Slides Keeps c { c with
      admission := (c.admission.finishClose failed).2
      rounds := c.rounds.act failed c.admission.retryCleanup } := by
    refine slides_close holds.2 (congrArg (·.residency) status) (fun broke => ?_) ?_ ⟨rfl, rfl, rfl⟩
    · have broke : c.admission.policy.status.failure.isSome = true := broke
      change (c.admission.finishClose failed).2.policy.status.failure.isSome = true
      rw [status, Option.isSome_or, broke, Bool.or_true]
    · simp only [account, Admission.status, Admission.closing, activity, status]
      rfl
  obtain ⟨kept, owed, beside, -⟩ := keeps_step slides accounted
  exact ⟨kept, owed, Account.Lasting.keep beside holds.1⟩

theorem abandonWaiters_over :
    Over accounts (fun c => Ebbing c.account) (locked (·.abandonWaiters))
      fun _ c => Sunk c.account := by
  refine Over.lock fun c _ accounted holds => ?_
  have slides : Slides Keeps c { c with admission := c.admission.abandonWaiters.2 } :=
    slides_close holds.2 rfl (fun _ => rfl) rfl ⟨rfl, rfl, rfl⟩
  obtain ⟨kept, owed, beside, -⟩ := keeps_step slides accounted
  exact ⟨kept, owed, Account.Lasting.keep beside holds.1⟩

theorem finishCleanup_over (failed : Option ProjectionError) :
    Over accounts (fun c => Ebbing c.account) (finishCleanup failed)
      fun _ c => Sunk c.account := by
  refine (finishClose_over failed).bind fun settled => (Over.shelving (P := Sunk) Shelving.takeProcess_each).bind
    fun _ => (Over.sliding (Completing.completeWaiters_each _ _)).bind fun _ =>
      (Over.shelving (P := Sunk) Shelving.releaseWiring_each).bind fun _ => Over.pure fun _ => id

theorem cleanupSources_over :
    Over accounts (fun c => Ebbing c.account) cleanupSources fun _ c => Sunk c.account := by
  apply Over.glance.bind
  intro busy
  split
  · exact Over.pure fun _ holds => holds.1
  · refine (Over.shelving Shelving.retireRestored_each).bind fun _ =>
      (Over.shelving Shelving.takeCleanupRetry_each).bind fun pending =>
        (Over.shelving (Shelving.retryDeletions_each _)).bind fun _ =>
          (Over.shelving (Shelving.reapForClose_each _)).bind fun reaped => ?_
    cases reaped with
    | some schedule => exact Over.pure fun _ holds => holds.1
    | none => exact finishCleanup_over _

theorem cleanup_over : Over accounts (fun c => Ebbing c.account) cleanup fun _ c => Sunk c.account := by
  refine (Over.sliding Reporting.clearProgramStatus_each).bind fun _ =>
    (Over.shelving (Upholds.update fun c => ?_)).bind fun _ => closingResize_over.bind fun waiting => ?_
  · exact slides_of_same rfl rfl rfl ⟨⟨.inr rfl, .inl rfl⟩, .refl c⟩
  · cases waiting with
    | some schedule => exact Over.pure fun _ holds => holds.1
    | none => exact cleanupSources_over

/-- A projection that shows neither a failure nor an end is up. -/
theorem up_of_residency {c : Coordinator} (accounted : c.Reckoned) (rest : c.account.Rest)
    (alive : c.admission.status.residency.isClosing = false)
    (running : c.admission.status.residency ≠ .failed) : c.account.Up := by
  refine rest.2.resolve_left ?_
  rintro (ending | broken)
  · exact absurd (alive.symm.trans ending) (by decide)
  · rcases accounted.marked broken with failed | closing
    · exact running failed
    · exact absurd (alive.symm.trans closing) (by decide)

/-- What a run knows from its look at the residency. -/
structure Met (seen : ProjectionStatus) (c : Coordinator) : Prop where
  rest : c.account.Rest
  ending : seen.residency.isClosing = true → c.account.Ending
  up : seen.residency.isClosing = false → seen.residency ≠ .failed → c.account.Up

instance (seen : ProjectionStatus) : accounts.Steady (Met seen) where
  keep meddled met := by
    constructor
    · exact Account.Lasting.keep meddled.1 met.rest
    · exact fun closing => Account.Lasting.keep meddled.1 (met.ending closing)
    · exact fun alive running => Account.Lasting.keep meddled.1 (met.up alive running)

theorem run_over :
    Along accounts Idle (fun c => c.account.Rest) run (fun _ => Idle) fun _ c => c.account.Rest := by
  apply (Over.glance.along services_spec).bind
  intro available
  split
  · refine (finishIo_over.along finishIo_spec).bind fun _ => Along.bind
      (B := fun (seen : ProjectionStatus) k =>
        (Idle k ∧ Seen seen.residency k) ∧ (seen.residency.isClosing = true → k.closing = true))
      (G := Met) ((Over.seen fun c _ accounted rest =>
        ⟨rest, id, up_of_residency accounted rest⟩).along
        (Spec.look fun c _ idle => ⟨⟨idle, .inl rfl⟩, id⟩)) fun seen => ?_
    split
    · rename_i ending
      exact ((cleanup_over.weaken fun _ _ sunk => sunk.rest).along cleanup_spec).strengthen
        fun _ core met => ⟨⟨core.1.1, core.2 ending⟩, .of_ending met.rest (met.ending ending)⟩
    split
    · exact ((Over.shelving (P := Account.Rest) Shelving.workWhileFailed_each).along
        workWhileFailed_spec).strengthen fun _ core met => ⟨core.1.1, met.rest⟩
    · rename_i open_ running
      exact (runOpen_over seen.residency).strengthen fun _ core met =>
        ⟨core.1, met.up (Bool.eq_false_iff.mpr open_) running⟩
  · exact Along.pure fun _ core rest => ⟨core, rest⟩

theorem discardOperations_over (drop : ∀ v, P v → P { v with resize := none }) :
    Over accounts (fun c => P c.account) discardOperations fun _ c => P c.account := by
  refine (Over.sliding (Upholds.update fun c => Replying.reply c _)).bind fun _ =>
    Over.glance.bind fun slot => ?_
  cases slot with
  | none => exact Over.pure fun _ => id
  | some resize =>
    exact (dropResize_over drop).bind fun _ => Over.sliding (Completing.completeTicket_each _ (gapless_error _))

theorem failed_over :
    Over accounts (fun c => c.account.Rest) failed fun _ c => c.account.Rest := by
  refine Over.bind (G := fun _ c => Sunk c.account)
    ((fail_over (F := fun c => c.account.Rest) _).weaken fun _ _ holds => ⟨holds.1.1, holds.2⟩) fun _ =>
      (discardOperations_over (P := Sunk) fun _ => Sunk.drop).bind fun _ => Over.glance.bind fun seen => ?_
  cases seen.residency <;> exact Over.pure fun _ sunk => sunk.rest

/-- The stream of an abandoned projection is closed before the projection is. -/
theorem closeJournal_over :
    Over accounts (fun c => c.account.Rest) (onJournal (·.close)) fun _ c => c.account.Tally := by
  refine Over.update fun c _ accounted rest => ?_
  obtain ⟨accounted, owed⟩ := accounted.still (rfl : ({ c with journal := c.journal.close.2 } : Coordinator).account = _)
    ⟨⟨rfl, rfl⟩, rfl, id, observed_wakers (f := fun _ _ => none) rfl⟩ accounted.kept.shut ⟨rfl, rfl, rfl⟩
    (.inr ⟨rfl, rfl, rfl⟩)
  have tally := rest.1.toTally
  exact ⟨accounted, owed, tally.counted, tally.level.imp id fun behind => ⟨behind.1, .inr rfl⟩, tally.within⟩

theorem abandonClose_over :
    Over accounts (fun c => c.account.Tally) abandonClose fun _ c => Ebbing c.account := by
  refine Over.lock fun c _ accounted tally => ?_
  have closed : c.admission.policy.close.status.residency.isClosing = true := close_residency _
  have frame := close_frame c.admission.policy
  have became : ({ c with
      admission := c.admission.abandonClose.2
      rounds := { c.rounds with abandoned := true } } : Coordinator).account =
      { c.account with closing := true, queue := [] } := by
    simp only [account, Admission.abandonClose, Admission.closing, Admission.status, closed, frame.1, frame.2.1,
      frame.2.2.1, frame.2.2.2.1, frame.2.2.2.2]
  have slides : Slides Keeps c { c with
      admission := c.admission.abandonClose.2
      rounds := { c.rounds with abandoned := true } } :=
    ⟨by rw [became]; exact .close c.account, ⟨.of_same rfl, .refl c⟩,
      fun marked => ProjectionPolicy.step_marked marked .close (by simp), id⟩
  obtain ⟨kept, owed, beside, -⟩ := keeps_step slides accounted
  have tally : ({ c with
      admission := c.admission.abandonClose.2
      rounds := { c.rounds with abandoned := true } } : Coordinator).account.Tally :=
    Account.Lasting.keep beside tally
  exact ⟨kept, owed, ⟨⟨tally, fun _ => .inl closed⟩, .inl closed⟩, closed⟩

theorem abandonSources_over :
    Over accounts (fun c => Ebbing c.account) abandonSources fun _ c => Ebbing c.account := by
  refine (Over.shelving Shelving.retireRestored_each).bind fun _ =>
    (Over.shelving (Upholds.update fun c => Shelving.shelve c _ _ _ _ _ _ _ _ _ (.same _))).bind fun _ =>
      (discardOperations_over fun _ ebbing => ⟨ebbing.1.drop, ebbing.2⟩).bind fun _ =>
        Over.shelving (Upholds.update fun c => ?_)
  exact slides_of_same rfl rfl rfl ⟨⟨.inr rfl, .inl rfl⟩, .refl c⟩

theorem finishAfterShutdown_over :
    Over accounts (fun c => c.account.Rest) finishAfterShutdown fun _ c => c.account.Rest := by
  apply Over.glance.bind
  intro seen
  split
  · exact Over.pure fun _ => id
  · refine (Over.sliding Reporting.clearProgramStatus_each).bind fun _ => closeJournal_over.bind fun _ =>
      abandonClose_over.bind fun rejected => (Over.sliding (Completing.failCommands_each _ _)).bind fun _ =>
        finishIo_over.bind fun _ => (Over.shelving Shelving.abandonIo_each).bind fun _ =>
          abandonSources_over.bind fun _ => abandonWaiters_over.bind fun waiters => ?_
    exact (Over.sliding (Completing.completeWaiters_each _ _)).bind fun _ =>
      (Over.shelving (P := Sunk) Shelving.takeProcess_each).bind fun _ =>
        (Over.shelving (P := Sunk) Shelving.releaseWiring_each).weaken fun _ _ sunk => sunk.rest

theorem owner_over (owner : Owner) :
    Along accounts Idle (fun c => c.account.Rest) owner.thread (fun _ => Idle) fun _ c => c.account.Rest := by
  cases owner with
  | run => exact run_over.bind fun _ => Along.pure fun _ core rest => ⟨core, rest⟩
  | failed =>
    exact (failed_over.along failed_spec).bind fun _ => Along.pure fun _ core rest => ⟨core, rest⟩
  | finishAfterShutdown => exact finishAfterShutdown_over.along finishAfterShutdown_spec

/-- Every program of a projection keeps its account. -/
theorem accounts_sound : (projection.extend accounts).Sound := by
  refine projection_sound.extend (fun role c c' step rest => ?_) (fun role program entered => ?_)
    fun program called => ?_
  · rcases step with meddled | ⟨other, differs, -⟩
    · exact Account.Lasting.keep (P := Account.Rest) meddled.2.1 rest
    · exact absurd rfl differs
  · obtain ⟨owner, rfl⟩ := entered
    exact owner_over owner
  · obtain ⟨call, rfl⟩ := called
    exact Contract.caller_along (projection_sound.caller _ ⟨call, rfl⟩) bystander_sinks (call_slides call)
      fun _ _ slides _ accounted => ⟨accounted.slides slides fun reading =>
        reading.spared slides.account slides.rest, slides.account, slides.rest⟩

end Coordinator
end PtyRuntime
