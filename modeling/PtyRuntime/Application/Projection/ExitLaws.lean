import PtyRuntime.Application.Projection.Exits
import PtyRuntime.Domain.ProgramStatus.StoreRuns

/-! What the worker's programs make of the exit marker and of the final drain. Most of
them move neither; the marker is taken and applied by hand below, as are the two steps
that drop the records of a program at work. -/
namespace PtyRuntime
open Thread PtyRuntime.Core Leaving

namespace Coordinator

/-- The order of the exit marker and the drain, on top of the projection's contract. -/
def departures : Addition Unit Coordinator where
  inv c := c.leaving.Ordered
  idle _ _ := True
  guar _ _ _ := True
  meddle c c' := Leaving.Beside c.leaving c'.leaving ∧
    c'.workspace.terminal.isNone = c.workspace.terminal.isNone ∧
      c'.workspace.io.isNone = c.workspace.io.isNone

instance : Tracks departures fun _ _ => True := ⟨fun _ _ _ => trivial⟩

/-- What other threads do, the worker may do anywhere. -/
def Leaves (c c' : Coordinator) : Prop := departures.meddle c c'

instance : departures.Neutral () Leaves where
  step leaves ordered := ⟨ordered.beside leaves.1, trivial, leaves⟩

def Passes (c c' : Coordinator) : Prop := Leaving.Passing c.leaving c'.leaving

theorem leaves_of_same {c c' : Coordinator} (same : c'.leaving = c.leaving)
    (workspace : c'.workspace = c.workspace) : Leaves c c' := by
  refine ⟨?_, by rw [workspace], by rw [workspace]⟩
  rw [same]
  exact .same _

/-- A call of the policy that does not close leaves the projection open. -/
theorem leaving_closing {c c' : Coordinator} (call : ProjectionPolicy.Call)
    (other : call ≠ .close ∧ call ≠ .markClosed)
    (policy : c'.admission.policy = (c.admission.policy.step call).2) :
    c'.leaving.closing = c.leaving.closing := by
  change c'.admission.policy.status.residency.isClosing = _
  rw [policy]
  exact c.admission.policy.step_closing other

theorem leaving_of_policy {c c' : Coordinator} (call : ProjectionPolicy.Call)
    (other : call ≠ .close ∧ call ≠ .markClosed)
    (policy : c'.admission.policy = (c.admission.policy.step call).2) {v : Leaving}
    (rest : { c'.leaving with closing := c.leaving.closing } = v) : c'.leaving = v := by
  rw [← leaving_closing call other policy] at rest
  exact rest

theorem passes_of_policy {c c' : Coordinator} (call : ProjectionPolicy.Call)
    (other : call ≠ .close ∧ call ≠ .markClosed)
    (policy : c'.admission.policy = (c.admission.policy.step call).2)
    (rest : { c'.leaving with closing := c.leaving.closing } = c.leaving) : Passes c c' := by
  rw [Passes, leaving_of_policy call other policy rest]
  exact .same _

theorem failed_leaving (c : Coordinator) (error : ProjectionError) :
    ({ c with admission := (c.admission.fail error).2 } : Coordinator).leaving =
      { c.leaving with queue := c.leaving.queue.filter (·.isOutput) } :=
  leaving_of_policy (.fail error) ⟨nofun, nofun⟩ rfl rfl

theorem requeue_passes (c : Coordinator) (command : Command) (mutates : command.mutates = true) :
    Passes c { c with
      admission := (c.admission.requeue command).2
      trace := c.trace.release command
      order := c.order.release command } := by
  have hand : (c.trace.release command).hand = c.trace.hand ∨
      (c.trace.release command).hand = none := by
    unfold Trace.release
    split
    · exact .inr rfl
    · exact .inl rfl
  have admitted : (c.trace.release command).admitted = c.trace.admitted := by
    unfold Trace.release
    split <;> rfl
  have applied : (c.trace.release command).applied = c.trace.applied := by
    unfold Trace.release
    split <;> rfl
  by_cases closed : c.admission.closing = true
  · simp only [Passes, leaving, Admission.requeue, if_pos closed, admitted, applied]
    rcases hand with same | empty
    · rw [same]
      exact .same _
    · rw [empty]
      exact .release c.leaving
  · have alive : c.leaving.closing = false := Bool.eq_false_iff.mpr closed
    have other : command ≠ .processExited := fun marker => by simp [marker, Command.mutates] at mutates
    simp only [Passes, leaving, Admission.requeue, if_neg closed, admitted, applied]
    exact .giveBack command alive other _ hand

theorem recordControlApplied_passes (generation : ControlGeneration) :
    (recordControlApplied generation).Upholds (fun _ _ => True) Passes := by
  refine Upholds.lock fun c => ?_
  split
  all_goals
    rename_i admission counted
    obtain rfl : (c.admission.recordControlApplied generation).2 = admission := congrArg Prod.snd counted
    exact passes_of_policy (.recordControlApplied generation) (by simp) rfl rfl

instance : Completing (fun _ _ => True) Passes where
  refl _ := .same _
  tickets _ _ _ := .same _

instance : Storing (fun _ _ => True) Passes where
  fails error := Completing.fail_of_steps error (fun c => by
    rw [Passes, failed_leaving]
    exact .fail _) fun _ _ => .same _
  observe _ := .same _
  forget _ _ := .same _
  giveBack := requeue_passes
  feed _ _ := .same _
  appendOutput _ _ _ _ := .same _
  reply _ _ := .same _
  slot _ _ := .same _
  size _ _ := .same _
  give _ _ _ := .same _
  settle _ _ := .same _
  finish _ _ := .same _
  control := recordControlApplied_passes
  appendResize _ _ _ _ := .same _
  poise _ := Upholds.lock fun _ => .same _
  sealClean _ _ := .same _
  owe _ _ := .same _
  move _ _ _ _ _ _ _ _ _ _ := .same _
  encoded _ _ := .same _
  park _ call _ _ _ _ parks := passes_of_policy call (ProjectionPolicy.parks_open parks) rfl rfl
  retry _ _ _ := .same _
  wire _ _ := .same _

/-- A program that moves neither, where nothing else is asserted. -/
theorem Along.passing {α : Type} {A : Core → Prop} {work : Work α} {B : α → Core → Prop}
    (base : Spec A work B) (passes : work.Upholds (fun _ _ => True) Passes) :
    Along departures A (fun _ => True) work B fun _ _ => True :=
  Contract.Triple.along base ⟨fun _ _ => trivial⟩ (fun _ _ _ => trivial) passes
    fun _ _ step _ _ _ ordered _ => ⟨ordered.passing step, trivial, trivial⟩

instance : Completing (fun _ _ => True) Leaves where
  refl _ := leaves_of_same rfl rfl
  tickets _ _ _ := leaves_of_same rfl rfl

instance : Bystanding (fun _ _ => True) Leaves where
  fails error := Completing.fail_of_steps error (fun c => by
    refine ⟨?_, rfl, rfl⟩
    rw [failed_leaving]
    exact .fail _) fun _ _ => leaves_of_same rfl rfl

instance {P : Leaving → Prop} [Lasting P] : departures.Steady fun c => P c.leaving where
  keep beside holds := Lasting.keep beside.1 holds

instance : departures.Steady fun _ => True where
  keep _ := id

theorem conserved_of_valid {c : Coordinator} (valid : Valid c.core) : c.leaving.Conserved :=
  valid.conserved

/-- Both looks of the run at the queue see the same workspace. -/
structure Watching (c : Coordinator) : Prop where
  looked : c.exits.looked = (c.workspace.terminal.isNone && c.workspace.io.isNone)
  unmarked : Looking c.leaving

theorem Beside.looked {v v' : Leaving} (beside : Leaving.Beside v v') : v'.log.looked = v.log.looked := by
  cases beside <;> rfl

instance : departures.Steady Watching where
  keep {c c'} beside watching := by
    refine ⟨?_, Lasting.keep beside.1 watching.unmarked⟩
    have looked : c'.exits.looked = c.exits.looked := Beside.looked beside.1
    rw [looked, beside.2.1, beside.2.2]
    exact watching.looked

theorem takeMarker_cases (a : Admission) :
    (a.takeNextIf (· == .processExited) = (none, a) ∧ Unmarked a.queue) ∨
      ∃ rest, a.queue = .processExited :: rest ∧
        a.takeNextIf (· == .processExited) = (some .processExited, { a with queue := rest }) := by
  rcases front : a.queue with _ | ⟨command, rest⟩
  · refine .inl ⟨?_, fun some => absurd rfl some⟩
    simp [Admission.takeNextIf, front]
  · by_cases marker : command = .processExited
    · subst marker
      exact .inr ⟨rest, rfl, by simp [Admission.takeNextIf, Admission.takeNext, front]⟩
    · refine .inl ⟨?_, fun _ => ⟨command, List.mem_cons_self, marker⟩⟩
      simp [Admission.takeNextIf, front, marker]

theorem takeMarker_exits (r : Residency) :
    Along departures (Primed r) (fun _ => True) takeMarker (fun _ => Primed r)
      fun taken c => (taken.isSome = true → InHand c.leaving) ∧ Watching c := by
  refine Along.lock (takeMarker_spec r) fun c valid primed ordered _ _ => ?_
  rcases takeMarker_cases c.admission with ⟨refused, unmarked⟩ | ⟨rest, front, took⟩
  · rw [refused]
    exact ⟨{ ordered with }, trivial, fun wrong => (nomatch wrong), rfl, fun _ _ => unmarked⟩
  · rw [took]
    obtain ⟨kept, inHand⟩ := Ordered.takeMarker ordered (conserved_of_valid valid) primed.empty front
    exact ⟨{ kept with }, trivial, fun _ => { inHand with }, rfl,
      fun _ _ => unmarked_of_not_mem inHand.absent⟩

/-- Dropping the records of a program at work fails and changes nothing, or none is left. -/
theorem exitStore_cases (s : ProgramStatusState) :
    (∃ error, exitStore s = (.error error, s)) ∨
      ∃ store, exitStore s = (.ok (), { s with store := some store }) ∧
        ({ s with store := some store } : ProgramStatusState).Calm := by
  unfold exitStore
  cases kept : s.store with
  | none => exact .inl ⟨_, rfl⟩
  | some store =>
    rcases store.processExited_cases with ⟨error, refused⟩ | ⟨-, -, exited⟩
    · refine .inl ⟨.capacity, ?_⟩
      simp only [refused, ← kept]
    · refine .inr ⟨_, by simp only [exited]; rfl, fun next same r member => ?_⟩
      obtain rfl := Option.some.inj same
      have calm := (List.mem_filter.mp member).2
      simpa using calm

variable {A : Core → Prop} [Core.Steady A] {F : Coordinator → Prop} [departures.Steady F]

/-- Applying the marker, where what else is asserted is not about program status. -/
theorem applyExit_exits (kept : ∀ c programStatus exits, exits.looked = c.exits.looked →
    exits.raced = c.exits.raced → F c → F { c with programStatus, exits }) :
    Along departures A (fun c => InHand c.leaving ∧ F c) applyExit (fun _ => A) fun _ => F := by
  refine Along.bind (B := fun _ => A) (G := fun _ => F)
    (Along.lock applyProgramExit_spec fun c _ _ ordered holds _ => ?_) fun result => ?_
  · obtain ⟨inHand, rest⟩ := holds
    rcases exitStore_cases c.programStatus with ⟨error, refused⟩ | ⟨store, exited, calm⟩
    · rw [refused]
      exact ⟨Ordered.apply ordered inHand rfl ordered.calm, trivial, kept c _ _ rfl rfl rest⟩
    · rw [exited]
      exact ⟨Ordered.apply ordered inHand rfl fun _ _ => calm, trivial, kept c _ _ rfl rfl rest⟩
  · cases result with
    | ok _ => exact Along.pure fun _ core rest => ⟨core, rest⟩
    | error error =>
      exact (Along.aside (fail_spec error) (Bystanding.fails error) (R := Leaves)).weaken
        fun _ _ core rest => ⟨core.1, rest⟩

theorem watching_program {c : Coordinator} (programStatus : ProgramStatusState) (exits : ExitLog)
    (looked : exits.looked = c.exits.looked) (raced : exits.raced = c.exits.raced)
    (watching : Watching c) : Watching { c with programStatus, exits } where
  looked := looked.trans watching.looked
  unmarked again calm := watching.unmarked (looked.symm.trans again) (raced.symm.trans calm)

theorem takeExit_exits (r : Residency) :
    Along departures (Primed r) (fun _ => True) takeExit (fun _ => Primed r) fun _ => Watching := by
  refine (takeMarker_exits r).bind fun taken => ?_
  cases taken with
  | none => exact Along.pure fun _ core holds => ⟨core, holds.2⟩
  | some command =>
    exact (applyExit_exits fun c programStatus exits => watching_program programStatus exits).strengthen
      fun _ core holds => ⟨core, holds.1 rfl, holds.2⟩

/-- A drain is settled only while nothing is queued that output or the marker could
still follow from. -/
theorem settling_of_settled {c : Coordinator} (valid : Valid c.core) (empty : c.trace.hand = none)
    {idle : Bool} {drain : DrainOutcome} (settled : c.admission.settledDrain idle = some drain) :
    Drained c.leaving := by
  unfold Admission.settledDrain at settled
  split at settled
  · rename_i quiet
    refine ⟨Option.isSome_of_eq_some settled, fun alive => ?_⟩
    have silent : c.admission.queue.filterMap Command.output? = [] := by
      rw [List.filterMap_eq_nil_iff]
      intro command member
      have inert := List.all_eq_true.mp quiet.2.2.2.1 command member
      simp only [Bool.and_eq_true, Bool.not_eq_true'] at inert
      exact output?_inert inert.1
    have conserved := conserved_of_valid valid alive
    have silent : c.leaving.queue.filterMap Command.output? = [] := silent
    have empty : c.leaving.hand = none := empty
    rw [silent, empty] at conserved
    simpa using conserved
  · cases settled

theorem finishProgramDrain_exits (empty : ∀ k, A k → k.trace.hand = none)
    (kept : ∀ c programStatus exits, exits.looked = c.exits.looked → exits.raced = c.exits.raced →
      F c → F { c with programStatus, exits }) :
    Along departures A (fun c => Drained c.leaving ∧ F c) finishProgramDrain (fun _ => A) fun _ => F := by
  refine Along.lock finishProgramDrain_spec fun c _ core ordered holds _ => ?_
  obtain ⟨settling, rest⟩ := holds
  have empty : c.leaving.hand = none := empty c.core core
  split
  · rcases exitStore_cases c.programStatus with ⟨error, refused⟩ | ⟨store, exited, calm⟩
    · rw [refused]
      exact ⟨ordered, trivial, rest⟩
    · rw [exited]
      exact ⟨Ordered.settle ordered settling empty fun _ => calm, trivial, kept c _ _ rfl rfl rest⟩
  · rename_i again
    refine ⟨Ordered.settle ordered settling empty fun exited => ?_, trivial, kept c _ _ rfl rfl rest⟩
    have drained : c.programStatus.drained = true := by
      by_contra pending
      exact again ⟨exited, pending⟩
    exact ordered.calm (ordered.drained drained) exited

theorem sealJournalIfDrained_exits (r : Residency) :
    Along departures (Primed r) Watching sealJournalIfDrained (fun _ => Primed r) fun _ => Watching := by
  refine (Along.aside Spec.glance Completing.look_each (R := Leaves)).bind fun engineIdle =>
    Along.bind (B := fun _ => Primed r) (G := fun (drain : Option DrainOutcome) c =>
      Watching c ∧ (drain.isSome = true → Drained c.leaving))
      (Along.look (fun _ => trivial) Spec.glance fun c valid primed _ watching => ⟨watching, fun found => ?_⟩)
      fun drain => ?_
  · obtain ⟨drain, settled⟩ := Option.isSome_iff_exists.mp found
    exact settling_of_settled valid primed.empty settled
  cases drain with
  | none => exact Along.pure fun _ core holds => ⟨core, holds.1⟩
  | some drain =>
    refine ((finishProgramDrain_exits (fun k (primed : Primed r k) => primed.empty)
      fun c programStatus exits => watching_program programStatus exits).strengthen
        fun _ core holds => ⟨core, holds.2 rfl, holds.1⟩).bind fun result => ?_
    cases result with
    | error error =>
      exact (Along.aside (fail_spec error) (Bystanding.fails error) (R := Leaves)).weaken
        fun _ _ core watching => ⟨core.1, watching⟩
    | ok _ =>
      exact Along.aside (onJournal_spec _) (Upholds.update fun _ => leaves_of_same rfl rfl) (R := Leaves)

instance : departures.Steady Jobless where
  keep beside jobless := beside.2.2.trans jobless

theorem takeWork_exits :
    Along departures (fun k => Idle k ∧ TerminalIs false k ∧ IoFree k)
      (fun c => Watching c ∧ Jobless c) takeWork
      (fun _ k => Idle k ∧ TerminalIs false k ∧ IoFree k) fun _ _ => True := by
  refine Along.lock takeWork_spec fun c _ core ordered holds _ => ?_
  obtain ⟨watching, vacant⟩ := holds
  have detached : c.workspace.terminal.isNone = true := by
    have detached : c.workspace.terminal.isSome = false := core.2.1
    simpa using detached
  have looked : c.exits.looked = true := by
    rw [watching.looked, detached, show c.workspace.io.isNone = true from vacant]
    rfl
  have again := Ordered.lookAgain ordered looked watching.unmarked
  rcases takeCheckpoint_cases c.admission with same | ⟨request, rest, front, took⟩
  · simp only [same]
    exact ⟨again, trivial, trivial⟩
  · simp only [took]
    exact ⟨again.tail front, trivial, trivial⟩

theorem readBackSource_exits :
    Along departures (fun k => Idle k ∧ TerminalIs false k) Watching readBackSource (fun _ => Idle)
      fun _ _ => True := by
  refine Along.bind (B := fun (busy : Bool) k => (Idle k ∧ TerminalIs false k) ∧
    (busy = false → IoFree k)) (G := fun (busy : Bool) c =>
    Watching c ∧ (busy = false → Jobless c))
    (Along.look (fun _ => trivial) (Spec.look fun c _ holds => ⟨holds, ioFree_of_vacant⟩)
      fun c _ _ _ watching => ⟨watching, fun free => Option.isNone_iff_eq_none.mpr (by simpa using free)⟩) fun busy => ?_
  cases busy with
  | true => exact Along.pure fun _ core _ => ⟨core.1.1, trivial⟩
  | false =>
    refine (takeWork_exits.strengthen fun c core holds =>
      ⟨⟨core.1.1, core.1.2, core.2 rfl⟩, holds.1, holds.2 rfl⟩).bind fun work => ?_
    cases work with
    | none => exact Along.pure fun _ core _ => ⟨core.1, trivial⟩
    | some transfer => exact Along.passing (startRead_spec transfer) (Storing.startRead_each transfer)

end Coordinator
end PtyRuntime
