import PtyRuntime.Application.Projection.ExitLaws

/-! Every program that takes the workspace lock keeps the exit marker and the final
drain in order, and so does every run of a projection, whatever runs beside it. -/
namespace PtyRuntime
open Thread PtyRuntime.Core Leaving

namespace Coordinator

/-- What is known of a command that has just been taken. -/
def Taken (taken : Option Command) (c : Coordinator) : Prop :=
  taken = some .processExited → InHand c.leaving

instance (taken : Option Command) : departures.Steady (Taken taken) where
  keep beside holds marker := Lasting.keep beside.1 (holds marker)

theorem take_exits (take : Coordinator → Option Command × Admission) {c : Coordinator}
    (valid : Valid c.core) (ordered : c.leaving.Ordered) (empty : c.trace.hand = none)
    (took : take c = (none, c.admission) ∨ ∃ command rest, c.admission.queue = command :: rest ∧
      take c = (some command, { c.admission with queue := rest })) :
    let c' : Coordinator := { c with
      admission := (take c).2
      trace := c.trace.take (take c).1
      order := c.order.take (take c).1 }
    c'.leaving.Ordered ∧ Taken (take c).1 c' := by
  have conserved := conserved_of_valid valid
  rcases took with refused | ⟨command, rest, front, took⟩
  · rw [refused]
    exact ⟨ordered, fun wrong => (nomatch wrong)⟩
  rw [took]
  cases command with
  | output bytes => exact ⟨Ordered.takeOutput ordered conserved front, fun wrong => (nomatch wrong)⟩
  | processExited =>
    obtain ⟨kept, inHand⟩ := Ordered.takeMarker ordered conserved empty front
    exact ⟨kept, fun _ => inHand⟩
  | resize | view | checkpoint => exact ⟨Ordered.tail ordered front, fun wrong => (nomatch wrong)⟩

theorem takeNextIf_took (a : Admission) (allowed : Command → Bool) :
    a.takeNextIf allowed = (none, a) ∨ ∃ command rest, a.queue = command :: rest ∧
      a.takeNextIf allowed = (some command, { a with queue := rest }) :=
  (takeNextIf_cases a allowed).imp_right fun ⟨command, rest, _, front, took⟩ => ⟨command, rest, front, took⟩

theorem ordered_of_became {c : Coordinator} {v : Leaving} (became : c.leaving = v)
    (ordered : v.Ordered) : departures.inv c := by
  change c.leaving.Ordered
  rw [became]
  exact ordered

theorem commitStatus_exits {A : Core → Prop} [Core.Steady A] (prepared : PreparedStatus) {bytes : Bytes}
    (held : ∀ k, A k → k.trace.hand = some bytes) :
    Along departures A (fun _ => True) (commitStatus prepared) (fun _ => A) fun _ _ => True := by
  refine Along.lock (commitStatus_spec prepared) fun c _ core ordered _ _ => ?_
  have held : c.leaving.hand = some bytes := held c.core core
  split
  · exact ⟨ordered, trivial, trivial⟩
  · split <;> exact ⟨Ordered.report ordered held rfl, trivial, trivial⟩

theorem recordProcessed_exits (bytes : Bytes) :
    Along departures (Held bytes bytes.length) (fun _ => True) (recordProcessed bytes)
      (fun result k => match result with
        | .ok _ => Live k ∧ Stale k
        | .error _ => Held bytes bytes.length k) fun _ _ => True := by
  refine Along.lock (recordProcessed_spec bytes) fun c _ held ordered _ _ => ?_
  have held : c.leaving.hand = some bytes := held.hand
  split
  all_goals
    rename_i admission result
    obtain rfl : (c.admission.recordProcessed bytes.length).2 = admission := congrArg Prod.snd result
    refine ⟨ordered_of_became (leaving_of_policy (.recordProcessed bytes.length) (by simp) rfl rfl) ?_,
      trivial, trivial⟩
  · exact ordered
  · exact Ordered.count ordered held

theorem commitOutput_exits (prepared : PreparedStatus) (bytes : Bytes) :
    Along departures (Held bytes bytes.length) (fun _ => True) (commitOutput prepared bytes)
      (fun result k => match result with
        | .ok _ => Live k ∧ Stale k
        | .error _ => Held bytes bytes.length k) fun _ _ => True := by
  apply (commitStatus_exits prepared fun k (held : Held bytes bytes.length k) => held.hand).bind
  intro result
  cases result with
  | error e => exact Along.pure fun _ core rest => ⟨core, rest⟩
  | ok _ => exact recordProcessed_exits bytes

theorem applyPrepared_exits (bytes : Bytes) (limit : Nat) (prepared : PreparedStatus)
    (sorted : prepared.plan.queries.Pairwise (· < ·))
    (bounds : ∀ stop ∈ prepared.plan.queries, stop ≤ bytes.length) :
    Along departures (Held bytes 0) (fun _ => True) (applyPrepared bytes limit prepared) (fun _ => Live)
      fun _ _ => True := by
  apply (Along.passing (feedPresent_spec bytes _ limit sorted bounds) (Writing.feedPresent_each _ _ _)).bind
  intro result
  cases result with
  | error error =>
    exact Along.passing (Spec.exists fun n => abandonOutput_spec bytes n error)
      (Returning.abandonOutput_each _ _)
  | ok effects =>
    apply (commitOutput_exits prepared bytes).bind
    intro committed
    cases committed with
    | error error => exact Along.passing (abandonOutput_spec bytes _ error) (Returning.abandonOutput_each _ _)
    | ok _ => exact Along.passing (publishOutput_spec bytes effects) (Writing.publishOutput_each _ _)

theorem applyOutput_exits (bytes : Bytes) :
    Along departures (Held bytes 0) (fun _ => True) (applyOutput bytes) (fun _ => Live)
      fun _ _ => True := by
  refine (Along.passing Spec.glance Completing.look_each).bind fun limit => Along.input.bind fun scan =>
    Along.input.bind fun record => Along.input.bind fun reply => ?_
  refine Along.bind (B := fun result k => Held bytes 0 k ∧
    ∀ prepared, result = .ok prepared → ∃ store : ProgramStatusStore,
      store.scan bytes = .ok prepared.plan) (Along.passing (Spec.look fun c _ held => ?_)
        Completing.look_each) fun result => ?_
  · exact ⟨held, fun prepared accepted => prepareStatus_ok accepted⟩
  rcases result with (_ | error) | prepared
  · refine Along.passing (Spec.bind ((requeue_output_spec bytes 0).strengthen fun _ holds => holds.1)
      fun _ => Spec.pure fun k returned => ?_) ((Returning.requeue_each _ rfl).bind fun _ => Upholds.pure _)
    exact ⟨⟨returned.empty, returned.calm, returned.shape, returned.fed.imp (by simp) .inr⟩,
      returned.terminal⟩
  · exact Along.passing ((abandonOutput_spec bytes 0 error).strengthen fun _ holds => holds.1)
      (Returning.abandonOutput_each _ _)
  · rintro c ⟨⟨held, accepted⟩, rest⟩
    obtain ⟨store, scanned⟩ := accepted prepared rfl
    obtain ⟨sorted, bounds⟩ := ProgramStatusStore.scan_queries scanned
    exact applyPrepared_exits bytes _ prepared sorted (fun stop member => (bounds stop member).2)
      c ⟨held, rest⟩

theorem applyCommand_exits (command : Command) :
    Along departures (Ready command) (Taken (some command)) (applyCommand command) (fun _ => Live)
      fun _ _ => True := by
  cases command with
  | output bytes => exact (applyOutput_exits bytes).strengthen fun _ core _ => ⟨core, trivial⟩
  | processExited =>
    refine Along.bind ((applyExit_exits (A := Live) (F := fun _ => True) fun _ _ _ _ _ => id).strengthen
      fun _ core taken => ⟨core, taken rfl, trivial⟩) fun _ => Along.pure fun _ core rest => ⟨core, rest⟩
  | resize size ticket =>
    exact (Along.passing (applyResize_spec size ticket) (Resizes.applyResize_each size ticket)).strengthen
      fun _ core _ => ⟨core, trivial⟩
  | view ticket =>
    exact (Along.passing (A := Live) (applyCommand_spec (.view ticket))
      ((Bystanding.applyView_each ticket).bind fun _ => Upholds.pure _)).strengthen
        fun _ core _ => ⟨core, trivial⟩
  | checkpoint request =>
    exact (Along.passing (A := Live) (applyCommand_spec (.checkpoint request))
      ((Observing.snapshot_each request).bind fun _ => Upholds.pure _)).strengthen
        fun _ core _ => ⟨core, trivial⟩

theorem takeOutput_exits :
    Along departures Live (fun _ => True) (takeCommand (·.admission.takeNextOutputWhileServing))
      (fun taken k => match taken with
        | some command => Ready command k
        | none => Live k) Taken := by
  refine Along.lock takeOutput_spec fun c valid live ordered _ _ => ?_
  obtain ⟨kept, taken⟩ := take_exits (·.admission.takeNextOutputWhileServing) valid ordered
    live.idle.empty ((takeOutput_cases c.admission).imp_right fun ⟨command, rest, _, _, _, _, front, took⟩ =>
      ⟨command, rest, front, took⟩)
  exact ⟨kept, trivial, taken⟩

theorem serveBatch_exits (left fed : Nat) (schedule : WorkSchedule) :
    Along departures Live (fun _ => True) (serveBatch left fed schedule) (fun _ => Live)
      fun _ _ => True := by
  induction left generalizing fed schedule with
  | zero => exact Along.pure fun _ core rest => ⟨core, rest⟩
  | succ left ih =>
    apply (Along.passing Spec.glance Completing.look_each).bind
    intro quiet
    split
    · apply takeOutput_exits.bind
      intro taken
      cases taken with
      | none => exact Along.pure fun _ core _ => ⟨core, trivial⟩
      | some command => exact (applyCommand_exits command).bind fun schedule => ih _ schedule
    · exact Along.pure fun _ core rest => ⟨core, rest⟩

theorem serveCommand_exits (command : Command) :
    Along departures (Ready command) (Taken (some command)) (serveCommand command) (fun _ => Idle)
      fun _ _ => True := by
  apply (applyCommand_exits command).bind
  intro schedule
  cases command with
  | output bytes => exact (serveBatch_exits _ _ _).weaken fun _ _ live rest => ⟨live.idle, rest⟩
  | processExited | resize | view | checkpoint => exact Along.pure fun _ live rest => ⟨live.idle, rest⟩

theorem takeNext_exits (r : Residency) (serving : r ≠ .usable) :
    Along departures (fun k => Primed r k ∧ TerminalIs true k) (fun _ => True)
      (takeCommand (·.admission.takeNext))
      (fun taken k => match taken with
        | some command => Ready command k
        | none => Idle k ∧ Quiet k) Taken := by
  refine Along.lock (takeNext_spec r serving) fun c valid core ordered _ _ => ?_
  obtain ⟨kept, taken⟩ := take_exits (·.admission.takeNext) valid ordered core.1.empty
    ((takeNext_cases c.admission).imp_left And.right)
  exact ⟨kept, trivial, taken⟩

theorem serve_exits (r : Residency) (serving : r ≠ .usable) :
    Along departures (fun k => Primed r k ∧ TerminalIs true k) (fun _ => True) serve (fun _ => Idle)
      fun _ _ => True := by
  refine (Along.passing maintain_spec Shelving.maintain_each).bind fun maintenance =>
    (takeNext_exits r serving).bind fun taken => ?_
  cases taken with
  | some command => exact serveCommand_exits command
  | none =>
    exact (Along.passing (serveIdle_spec maintenance) (Shelving.serveIdle_each maintenance)).strengthen
      fun _ core _ => ⟨core, trivial⟩

theorem takeDuringRestore_exits :
    Along departures (fun k => Primed .usable k ∧ TerminalIs true k) (fun _ => True) takeDuringRestore
      (fun taken k => match taken with
        | some command => Ready command k
        | none => Live k ∧ Seen .usable k) Taken := by
  refine Along.bind (B := fun (owed : Bool) k => (Primed .usable k ∧ TerminalIs true k) ∧ OwedIs owed k)
    (Along.passing (Spec.look fun c _ holds => ⟨holds, rfl⟩) Completing.look_each) fun owed => ?_
  cases owed with
  | true => exact Along.pure fun _ core _ => ⟨primed_owed core, fun wrong => (nomatch wrong)⟩
  | false =>
    refine Along.lock takeRestoring_spec fun c valid core ordered _ _ => ?_
    obtain ⟨kept, taken⟩ := take_exits (fun c => c.admission.takeNextIf c.allowedDuringRestore)
      valid ordered core.1.1.empty (takeNextIf_took c.admission _)
    exact ⟨kept, trivial, taken⟩

theorem restoreStep_exits :
    Along departures (fun k => Primed .usable k ∧ TerminalIs true k) (fun _ => True) restoreStep
      (fun _ => Idle) fun _ _ => True := by
  apply takeDuringRestore_exits.bind
  intro taken
  cases taken with
  | some command =>
    refine Along.bind (A := Ready command) (B := fun _ => Ready command) (Along.aside (R := Leaves)
      (Spec.update fun c valid ready => ?_) (Upholds.update fun _ => ⟨.same _, rfl, rfl⟩)) fun _ =>
        (applyCommand_exits command).weaken fun _ _ live rest => ⟨live.idle, rest⟩
    exact ⟨valid.workspace _ _ _ _, .of_policy rfl rfl rfl, ready_owed ready true⟩
  | none =>
    exact (Along.passing stepHistory_spec Shelving.stepHistory_each).strengthen
      fun _ core _ => ⟨core, trivial⟩

theorem runPhase_exits (r : Residency) :
    Along departures (Primed r) (fun _ => True) (runPhase r) (fun _ => Idle) fun _ _ => True := by
  refine (takeExit_exits r).bind fun _ => (sealJournalIfDrained_exits r).bind fun _ => ?_
  refine Along.bind (B := fun (phase : Phase) k => Primed r k ∧ InPhase r k phase)
    (Along.aside (R := Leaves) (Spec.look fun c _ primed => ⟨primed, inPhase_of r c⟩)
      Completing.look_each) fun phase => ?_
  cases phase with
  | detached =>
    refine readBackSource_exits.strengthen fun c core watching => ⟨⟨core.1.idle ?_, core.2⟩, watching⟩
    rw [Core.dequeues, show c.core.terminal = false from core.2, Bool.false_and]
  | restoring =>
    rintro c ⟨⟨primed, terminal, rfl⟩, _⟩
    exact restoreStep_exits c ⟨⟨primed, terminal⟩, trivial⟩
  | serving =>
    rintro c ⟨⟨primed, terminal, serving⟩, _⟩
    exact serve_exits r serving c ⟨⟨primed, terminal⟩, trivial⟩

theorem runOpen_exits (r : Residency) :
    Along departures (fun k => Idle k ∧ Seen r k) (fun _ => True) (runOpen r) (fun _ => Idle)
      fun _ _ => True := by
  apply (Along.passing (pollInflightOperations_spec r) Operating.pollInflightOperations_each).bind
  intro polled
  cases polled with
  | some schedule => exact Along.pure fun _ core rest => ⟨core.1.1, rest⟩
  | none =>
    refine ((Along.passing (checkFailure_spec r) (Operating.poise r)).strengthen
      fun _ core rest => ⟨⟨core.1, core.2 rfl⟩, rest⟩).bind fun failure => ?_
    cases failure with
    | some error => exact Along.passing workWhileFailed_spec Shelving.workWhileFailed_each
    | none => exact runPhase_exits r

theorem clearProgramStatus_exits {A : Core → Prop} [Core.Steady A] :
    Along departures A (fun _ => True) clearProgramStatus (fun _ => A) fun _ _ => True :=
  Along.update (Spec.asideUpdate fun _ => rfl) fun _ _ _ ordered _ _ =>
    ⟨Ordered.clear ordered rfl rfl, trivial, trivial⟩

/-- What closes a closing projection for good is beside the marker and the drain. -/
theorem ordered_closed {c c' : Coordinator} (ended : Ended c.core) (ordered : c.leaving.Ordered)
    (closed : c'.leaving.closing = true) (rest : { c'.leaving with closing := true } = { c.leaving with closing := true }) :
    c'.leaving.Ordered := by
  have same : c'.leaving = c.leaving := by
    have before : c.leaving.closing = true := ended.2
    rw [← closed] at rest
    rw [show ({ c'.leaving with closing := c'.leaving.closing } : Leaving) = c'.leaving from rfl] at rest
    rw [rest, closed, ← before]
  rw [same]
  exact ordered

theorem finishClose_exits (failed : Option ProjectionError) :
    Along departures Ended (fun _ => True) (finishClose failed) (fun _ => Ended) fun _ _ => True :=
  Along.lock (finishClose_spec failed) fun c _ ended ordered _ _ =>
    ⟨ordered_closed ended ordered
      (congrArg (·.residency.isClosing) (finishClose_policy c.admission failed).2) rfl, trivial, trivial⟩

theorem finishCleanup_exits (failed : Option ProjectionError) :
    Along departures Ended (fun _ => True) (finishCleanup failed) (fun _ => Ended) fun _ _ => True :=
  (finishClose_exits failed).bind fun _ => (Along.passing takeProcess_spec Shelving.takeProcess_each).bind
    fun _ => (Along.passing (completeWaiters_spec _ _) (Completing.completeWaiters_each _ _)).bind fun _ =>
      (Along.passing releaseWiring_spec Shelving.releaseWiring_each).bind fun _ =>
        Along.pure fun _ core rest => ⟨core, rest⟩

theorem cleanupSources_exits :
    Along departures Ended (fun _ => True) cleanupSources (fun _ => Ended) fun _ _ => True := by
  apply (Along.passing Spec.glance Completing.look_each).bind
  intro busy
  split
  · exact Along.pure fun _ core rest => ⟨core, rest⟩
  · refine (Along.passing retireRestored_ended Shelving.retireRestored_each).bind fun _ =>
      Along.bind (B := fun _ => Ended) (Along.passing (Spec.aside fun _ => rfl)
        Shelving.takeCleanupRetry_each) fun pending =>
          (Along.passing (retryDeletions_spec _) (Shelving.retryDeletions_each _)).bind fun _ =>
            (Along.passing (reapForClose_spec _) (Shelving.reapForClose_each _)).bind fun reaped => ?_
    cases reaped with
    | some schedule => exact Along.pure fun _ core rest => ⟨core, rest⟩
    | none => exact finishCleanup_exits _

theorem cleanup_exits :
    Along departures Ended (fun _ => True) cleanup (fun _ => Idle) fun _ _ => True := by
  refine clearProgramStatus_exits.bind fun _ => Along.bind (B := fun _ => Ended) (Along.passing
    (Spec.update fun c valid ended => ?_) (Upholds.update fun _ => .same _)) fun _ =>
      (Along.passing closingResize_spec Resizes.closingResize_each).bind fun waiting => ?_
  · exact ended.kept valid rfl ⟨rfl, rfl, rfl⟩ rfl ended.2 rfl (fun _ => rfl) id (fun _ => id) rfl
  · cases waiting with
    | some schedule => exact Along.pure fun _ core rest => ⟨core.1, rest⟩
    | none => exact cleanupSources_exits.weaken fun _ _ core rest => ⟨core.1, rest⟩

theorem run_exits :
    Along departures Idle (fun _ => True) run (fun _ => Idle) fun _ _ => True := by
  apply (Along.passing services_spec Completing.look_each).bind
  intro available
  split
  · refine (Along.passing finishIo_spec Storing.finishIo_each).bind fun _ =>
      Along.bind (B := fun (seen : ProjectionStatus) k =>
        (Idle k ∧ Seen seen.residency k) ∧ (seen.residency.isClosing = true → k.closing = true))
        (Along.passing (Spec.look fun c _ idle => ⟨⟨idle, .inl rfl⟩, id⟩) Completing.look_each)
        fun seen => ?_
    split
    · rename_i ending
      exact cleanup_exits.strengthen fun _ core rest => ⟨⟨core.1.1, core.2 ending⟩, rest⟩
    split
    · exact (Along.passing workWhileFailed_spec Shelving.workWhileFailed_each).strengthen
        fun _ core rest => ⟨core.1.1, rest⟩
    · exact (runOpen_exits seen.residency).strengthen fun _ core rest => ⟨core.1, rest⟩
  · exact Along.pure fun _ core rest => ⟨core, rest⟩

theorem abandonClose_exits :
    Along departures Idle (fun _ => True) abandonClose (fun _ => Ended) fun _ _ => True := by
  refine Along.lock abandonClose_spec fun c _ _ ordered _ _ => ⟨?_, trivial, trivial⟩
  have closed : c.admission.policy.close.status.residency.isClosing = true := close_residency _
  refine ordered_of_became ?_ (Ordered.close ordered)
  simp only [leaving, Admission.closing, Admission.status, Admission.abandonClose, closed]

theorem abandonWaiters_exits :
    Along departures Ended (fun _ => True) (locked (·.abandonWaiters)) (fun _ => Ended)
      fun _ _ => True :=
  Along.lock abandonWaiters_spec fun _ _ ended ordered _ _ =>
    ⟨ordered_closed ended ordered rfl rfl, trivial, trivial⟩

theorem finishAfterShutdown_exits :
    Along departures Idle (fun _ => True) finishAfterShutdown (fun _ => Idle) fun _ _ => True := by
  apply (Along.passing status_spec Completing.look_each).bind
  intro seen
  split
  · exact Along.pure fun _ core rest => ⟨core, rest⟩
  · refine clearProgramStatus_exits.bind fun _ => (Along.passing (onJournal_spec _)
      (Upholds.update fun _ => .same _)).bind fun _ => abandonClose_exits.bind fun rejected =>
        (Along.passing (failCommands_spec rejected _) (Completing.failCommands_each _ _)).bind fun _ =>
          (Along.passing finishIo_spec.closing Storing.finishIo_each).bind fun _ =>
            (Along.passing abandonIo_spec Shelving.abandonIo_each).bind fun _ =>
              (Along.passing abandonSources_spec Storing.abandonSources_each).bind fun _ =>
                abandonWaiters_exits.bind fun waiters => ?_
    refine (Along.passing (completeWaiters_spec waiters _) (Completing.completeWaiters_each _ _)).bind
      fun _ => (Along.passing takeProcess_spec Shelving.takeProcess_each).bind fun _ => ?_
    exact (Along.passing releaseWiring_spec Shelving.releaseWiring_each).weaken
      fun _ _ core rest => ⟨core.1, rest⟩

theorem owner_exits (owner : Owner) :
    Along departures Idle (fun _ => True) owner.thread (fun _ => Idle) fun _ _ => True := by
  cases owner with
  | run => exact run_exits.bind fun _ => Along.pure fun _ core rest => ⟨core, rest⟩
  | failed =>
    exact (Along.passing failed_spec Operating.failed_each).bind fun _ =>
      Along.pure fun _ core rest => ⟨core, rest⟩
  | finishAfterShutdown => exact finishAfterShutdown_exits

theorem push_leaves {c c' : Coordinator} (command : Command) (alive : c.admission.closing = false)
    (silent : command.output? = none) (other : command ≠ .processExited)
    (became : c'.leaving = { c.leaving with queue := c.leaving.queue ++ [command] })
    (workspace : c'.workspace = c.workspace) : Leaves c c' := by
  refine ⟨?_, by rw [workspace], by rw [workspace]⟩
  rw [became]
  exact .push command alive silent other

theorem admitInert_leaves (command : Command) (inert : command.mutates = false)
    (other : command ≠ .processExited) :
    (locked (·.admitCommand fun a => (.ok command, a))).Upholds (fun _ _ => True) Leaves := by
  refine locked_each fun c => ?_
  unfold Admission.admitCommand
  cases accepting : c.admission.checkAccepting with
  | error e => exact leaves_of_same rfl rfl
  | ok _ => exact push_leaves command (alive_of_accepting accepting) (output?_inert inert) other rfl rfl

theorem admitResize_leaves (size : TerminalSize) (ticket : TicketId) (now : Nat) :
    (admitResize size ticket now).Upholds (fun _ _ => True) Leaves := by
  refine Upholds.lock fun c => ?_
  unfold Admission.admitCommand
  cases accepting : c.admission.checkAccepting with
  | error e => exact leaves_of_same rfl rfl
  | ok _ =>
    have alive := alive_of_accepting accepting
    dsimp only
    by_cases drained : c.admission.outputDrain.isSome = true
    · rw [if_pos drained]
      exact leaves_of_same rfl rfl
    · rw [if_neg drained]
      rcases recorded : c.admission.policy.recordActivity now with ⟨result, policy⟩
      have stepped : policy = (c.admission.policy.step (.recordActivity now)).2 := by
        simp only [ProjectionPolicy.step, recorded]
      simp only [Admission.recordActivity, Admission.withPolicy, recorded]
      cases result with
      | error e =>
        exact leaves_of_same (leaving_of_policy (.recordActivity now) (by simp) stepped rfl) rfl
      | ok _ =>
        exact push_leaves (.resize size ticket) alive rfl (by simp)
          (leaving_of_policy (.recordActivity now) (by simp) stepped rfl) rfl

theorem recordExit_leaves : recordExit.Upholds (fun _ _ => True) Leaves := by
  refine Upholds.lock fun c => ?_
  rcases recordProcessExit_cases c.admission with refused | ⟨alive, -, first, queued⟩
  · rw [refused]
    exact leaves_of_same rfl rfl
  · rw [queued]
    exact ⟨.exit alive first, rfl, rfl⟩

theorem recordDrain_leaves (outcome : DrainOutcome) :
    (locked (·.recordDrain outcome)).Upholds (fun _ _ => True) Leaves := by
  refine locked_each fun c => ⟨?_, rfl, rfl⟩
  have reported : (c.admission.outputDrain.or (some outcome)).isSome = true := by
    cases c.admission.outputDrain <;> rfl
  simp only [leaving, Admission.recordDrain, reported]
  exact .drain c.leaving

theorem requestClose_leaves (waiter : Option TicketId) :
    (requestClose waiter).Upholds (fun _ _ => True) Leaves := by
  refine Upholds.lock fun c => ?_
  unfold Admission.requestClose
  split
  · exact leaves_of_same rfl rfl
  · have closed : c.admission.policy.close.status.residency.isClosing = true := close_residency _
    refine ⟨?_, rfl, rfl⟩
    simp only [leaving, Admission.closing, Admission.status, closed]
    exact .close c.leaving

theorem admitOutput_leaves (bytes : Bytes) (answer : Answer) :
    (admitOutput bytes answer).Upholds (fun _ _ => True) Leaves := by
  refine Upholds.lock fun c => ?_
  unfold offerOutput Admission.admitOutput
  rcases acceptOutput_cases c bytes answer.granted answer.allocated answer.now c.admission with
    ⟨acceptance, -, rejected⟩ | ⟨-, nothing⟩ | ⟨policy, admitted, queued⟩
  · rw [rejected]
    exact leaves_of_same rfl rfl
  · rw [nothing]
    exact leaves_of_same rfl rfl
  · obtain ⟨alive, running, -⟩ := acceptOutput_running (congrArg Prod.fst queued)
    rw [queued]
    refine ⟨?_, rfl, rfl⟩
    have became := @leaving_of_policy c { c with
      admission := { c.admission with policy, queue := c.admission.queue ++ [.output bytes] }
      trace := c.trace.queued bytes
      order := c.order.admit (.output bytes) } (.admitOutput bytes.length answer.now) ⟨nofun, nofun⟩
      (congrArg Prod.snd admitted).symm _ rfl
    exact became ▸ .output bytes alive running

/-- The jobs and the other projections are beside the marker and the drain. -/
theorem publishJob_leaves (a : Answer) : (publishJob a).Upholds (fun _ _ => True) Leaves := by
  refine Upholds.update fun c => ⟨.same _, rfl, ?_⟩
  cases c.workspace.io <;> rfl

theorem useDisk_leaves (c : Coordinator) (use : DiskUse) : Leaves c (c.useDisk use) := by
  cases use <;> simp only [useDisk] <;> split <;> exact leaves_of_same rfl rfl

instance : Calling (fun _ _ => True) Leaves where
  admitResize := admitResize_leaves
  push := admitInert_leaves
  exit := recordExit_leaves
  drains outcome := notifyOutputDrained_of_steps outcome (recordDrain_leaves outcome) fun _ _ _ =>
    leaves_of_same rfl rfl
  closes := close_of_steps requestClose_leaves fun _ => leaves_of_same rfl rfl
  wiring _ _ := leaves_of_same rfl rfl
  read _ _ _ := Upholds.lock fun _ => leaves_of_same rfl rfl
  cancel _ _ := leaves_of_same rfl rfl
  forget _ _ := leaves_of_same rfl rfl
  stall _ _ := leaves_of_same rfl rfl
  offer := admitOutput_leaves

theorem call_leaves (call : Call) : call.thread.Upholds (fun _ _ => True) Leaves :=
  Calling.call_each call (Upholds.input.bind publishJob_leaves) fun use =>
    Upholds.update fun c => useDisk_leaves c use

/-- Every program of a projection keeps the exit marker and the drain in order. -/
theorem departures_sound : (projection.extend departures).Sound := by
  refine projection_sound.extend (fun _ _ _ _ _ => trivial) (fun role program entered => ?_)
    fun program called => ?_
  · obtain ⟨owner, rfl⟩ := entered
    exact owner_exits owner
  · obtain ⟨call, rfl⟩ := called
    exact Contract.caller_along (projection_sound.caller _ ⟨call, rfl⟩) (fun _ _ _ => trivial)
      (call_leaves call) fun _ _ leaves _ ordered => ⟨ordered.beside leaves.1, leaves⟩

end Coordinator
end PtyRuntime
