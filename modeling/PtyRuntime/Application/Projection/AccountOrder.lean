import PtyRuntime.Application.Projection.AccountOwners
import PtyRuntime.Application.Projection.Parking

/-! What the account comes to over whole runs: commands have their effect in the order
they were admitted in, resizes are counted once, the continuation stream stands where the
policy does whenever the workspace is free, and a clean end is final. -/
namespace PtyRuntime
open Thread PtyRuntime.Core Settled Account

namespace Coordinator

/-- Commands have their effect in the order they were admitted in. -/
structure InOrder (c : Coordinator) : Prop where
  /-- What has settled, what the worker has in hand and what is still queued. -/
  ordered : (c.order.settled.map Settled.command ++ c.order.current.toList ++
    c.admission.queue.filter (·.mutates)).Sublist c.order.admitted
  /-- A command is only dropped by a failure or a close. -/
  whole : c.admission.status.failure = none → c.admission.closing = false →
    c.order.admitted = c.order.settled.map Settled.command ++ c.order.current.toList ++
      c.admission.queue.filter (·.mutates)
  /-- The model was given what has settled and part of at most one command more, which
  was admitted after all of that. -/
  given : ∃ part, c.order.given = c.order.settled.flatMap Settled.inputs ++ part ∧
    (part = [] ∨ ∃ before command after, c.order.admitted = before ++ command :: after ∧
      (c.order.settled.map Settled.command).Sublist before ∧
        Partway (successes c.order.settled) (some command) part)

/-- Resizes are numbered by those that succeeded before them. -/
structure Counted (c : Coordinator) : Prop where
  numbered : Numbered c.order.settled
  /-- The policy has never refused to count a resize. -/
  accepted : c.order.refused = 0
  /-- An OS resize that the model does not follow brings the projection down. -/
  diverged : ∀ size ticket generation error,
    .resize size ticket generation (.ok ()) (.error error) ∈ c.order.settled →
      c.admission.closing = true ∨ c.admission.status.failure.isSome = true

/-- What a stream that ended without a failure leaves behind. -/
structure CleanEnd (c : Coordinator) (ended : TransferEnd) : Prop where
  drained : c.admission.outputDrain.isSome = true
  settled : c.admission.queue.filter (·.mutates) = [] ∧ c.order.current = none ∧ c.workspace.resize = none
  caught : c.admission.status.published = c.admission.status.processed
  version : ended.boundary.processed = c.admission.status.processed ∧
    ended.boundary.controlGeneration = c.admission.status.controlGeneration

theorem down_iff {c : Coordinator} : ¬c.account.Down ↔
    c.admission.status.failure = none ∧ c.admission.closing = false := by
  rw [Account.Down, not_or, Bool.not_eq_true, Bool.not_eq_true]
  change _ ∧ c.admission.status.failure.isSome = false ↔ _
  rw [Option.isSome_eq_false_iff, Option.isNone_iff_eq_none, and_comm]
  rfl

theorem inOrder_of_kept {c : Coordinator} (kept : c.account.Kept) : InOrder c := by
  obtain ⟨past, later, part, split⟩ := kept.ordered
  have admitted : c.order.admitted = past ++ c.order.current.toList ++ later := split.admitted
  constructor
  · rw [admitted]
    exact (split.settled.append (List.Sublist.refl _)).append split.queued
  · intro fine alive
    obtain ⟨settled, pending⟩ := split.whole (down_iff.mpr ⟨fine, alive⟩)
    rw [admitted, ← settled, ← pending]
    rfl
  · refine ⟨part, split.given, ?_⟩
    have begun := split.begun
    rw [List.append_assoc] at admitted
    rcases front : c.order.current.toList ++ later with _ | ⟨command, after⟩
    · left
      rw [show c.account.log.current.toList ++ later = [] from front] at begun
      exact begun
    · right
      rw [show c.account.log.current.toList ++ later = command :: after from front] at begun
      exact ⟨past, command, after, by rw [admitted, front], split.settled, begun⟩

theorem cleanEnd_of_kept {c : Coordinator} (kept : c.account.Kept) {ended : TransferEnd}
    (sealed : c.journal.order.sealed = some ended) (whole : ended.projectionFailure = none) :
    CleanEnd c ended := by
  have clean := kept.clean ended sealed whole
  exact ⟨clean.drain, ⟨clean.empty, clean.idle.2, clean.idle.1⟩, clean.caught, clean.version⟩

theorem moves_ended {c c' : Coordinator} (moves : (projection.extend accounts).Moves c c') {ended : TransferEnd}
    (sealed : c.journal.order.sealed = some ended) : c'.journal.order.sealed = some ended := by
  rcases moves with rfl | meddled | ⟨role, owed⟩
  · exact sealed
  · exact beside_sealed meddled.2.1 sealed
  · exact owed.2.sealed ended sealed

section Created

variable {lifetime : SessionLifetime} {config : ProjectionConfig} {now identity : Nat}
  {c : Coordinator} (created : create lifetime config now identity = .ok c)
include created

theorem create_reckoned : c.Reckoned ∧ Rest c.account := by
  obtain ⟨policy, store, made, -, rfl⟩ := create_made created
  obtain rfl := ProjectionPolicy.new_ok made
  constructor
  · constructor
    · constructor
      · exact fun _ => rfl
      · exact ⟨Nat.le_refl _, Nat.zero_le _⟩
      · intro command member
        cases member
      · exact ⟨[], [], [], ⟨rfl, List.Sublist.refl _, List.Sublist.refl _, fun _ => ⟨rfl, rfl⟩, rfl, rfl⟩⟩
      · intro before s after split
        simp [account] at split
      · rfl
      · intro size ticket generation os error member
        cases member
      · intro ended sealed
        cases sealed
      · intro ended sealed
        cases sealed
      · rfl
    · intro broken
      cases broken
    · intro request source mailbox pending
      cases pending
    · intro t member
      cases member
  · refine Free.rest ⟨⟨rfl, rfl, rfl⟩, ⟨rfl, .inl ⟨rfl, rfl⟩, Nat.le_refl _⟩, fun shut => ?_⟩
    cases shut

theorem after_accounts (events : List Event) : (projection.extend accounts).Kept (c.after events) := by
  obtain ⟨accounted, rest⟩ := create_reckoned created
  have start : (projection.extend accounts).Kept (.start c) :=
    Contract.kept_start ⟨(create_idle created).1, accounted⟩ fun _ => ⟨(create_idle created).2, rest⟩
  exact start.run accounts_sound choices_allowed

theorem after_reckoned (events : List Event) : (c.after events).shared.Reckoned :=
  (after_accounts created events).inv.2

/-- What holds while no run is under way. -/
theorem after_rest {events : List Event} (free : (c.after events).held () = none) :
    Rest (c.after events).shared.account :=
  ((after_accounts created events).idle () free).2

end Created

variable {lifetime : SessionLifetime} {config : ProjectionConfig} {now identity : Nat} {c : Coordinator}

/-- In every run commands have their effect on the model in the order they were admitted
in, and none is dropped while the projection is up. -/
theorem commands_take_effect_in_order (created : create lifetime config now identity = .ok c)
    (events : List Event) : InOrder (c.after events).shared :=
  inOrder_of_kept (after_reckoned created events).kept

def wide : TerminalSize := ⟨132, 50, by decide, by decide, by decide⟩

/-- Every port answers, and the OS has applied the resize in flight. -/
def appliedAnswer : Answer := { sampleAnswer with osResized := some (.ok ()) }

/-- Output, a resize and more output, all taken up by the worker. -/
def resizedSchedule : List Event :=
  wholeCall 0 .bindProcess sampleAnswer ++ wholeCall 1 (.stageOutput [65]) sampleAnswer ++
    wholeCall 2 (.resize wide) sampleAnswer ++ wholeCall 3 (.stageOutput [66]) sampleAnswer ++
      wholeRun appliedAnswer ++ wholeRun appliedAnswer ++ wholeRun appliedAnswer

set_option maxRecDepth 8000 in
theorem commands_take_effect_in_order_resized :
    (sample.after resizedSchedule).shared.order.given = [.byte 65, .resize wide ⟨1⟩, .byte 66] ∧
      InOrder (sample.after resizedSchedule).shared :=
  ⟨rfl, commands_take_effect_in_order sample_created resizedSchedule⟩

/-- In every run a resize is counted exactly when both sides have applied it. -/
theorem resizes_counted_once (created : create lifetime config now identity = .ok c) (events : List Event) :
    Counted (c.after events).shared ∧ ((c.after events).held () = none →
      (c.after events).shared.admission.status.controlGeneration.value =
        successes (c.after events).shared.order.settled) := by
  have kept := (after_reckoned created events).kept
  refine ⟨⟨kept.numbered, kept.refused, fun size ticket generation error member => ?_⟩, fun free => ?_⟩
  · exact kept.modelled size ticket generation () error member
  · exact (after_rest created free).1.counted

set_option maxRecDepth 8000 in
theorem resizes_counted_once_resized :
    (sample.after resizedSchedule).shared.admission.status.controlGeneration = ⟨1⟩ ∧
      Counted (sample.after resizedSchedule).shared ∧
      (sample.after resizedSchedule).shared.admission.status.controlGeneration.value =
        successes (sample.after resizedSchedule).shared.order.settled := by
  obtain ⟨counted, free⟩ := resizes_counted_once sample_created resizedSchedule
  exact ⟨rfl, counted, free rfl⟩

/-- Whenever the workspace is free, the stream of a projection that is up stands where the
policy does. -/
theorem stream_level_at_rest (created : create lifetime config now identity = .ok c) (events : List Event)
    (free : (c.after events).held () = none)
    (fine : (c.after events).shared.admission.status.failure = none)
    (alive : (c.after events).shared.admission.closing = false) :
    (c.after events).shared.journal.order.boundary.processed =
        (c.after events).shared.admission.status.processed ∧
      (c.after events).shared.journal.order.boundary.controlGeneration =
        (c.after events).shared.admission.status.controlGeneration :=
  (after_rest created free).1.level.resolve_right fun behind => down_iff.mpr ⟨fine, alive⟩ behind.1

set_option maxRecDepth 8000 in
theorem stream_level_at_rest_resized :
    (sample.after resizedSchedule).shared.admission.status.processed = ⟨⟨1, 1⟩, 2⟩ ∧
      (sample.after resizedSchedule).shared.journal.order.boundary.processed =
        (sample.after resizedSchedule).shared.admission.status.processed ∧
      (sample.after resizedSchedule).shared.journal.order.boundary.controlGeneration =
        (sample.after resizedSchedule).shared.admission.status.controlGeneration :=
  ⟨rfl, stream_level_at_rest sample_created resizedSchedule rfl rfl rfl⟩

/-- The first end of the stream stands, and after one without a failure nothing moves. -/
theorem first_end_stands (created : create lifetime config now identity = .ok c) (first second : List Event)
    {ended : TransferEnd} (sealed : (c.after first).shared.journal.order.sealed = some ended) :
    (c.after (first ++ second)).shared.journal.order.sealed = some ended ∧
      (ended.projectionFailure = none → CleanEnd (c.after (first ++ second)).shared ended) := by
  have stands : (c.after (first ++ second)).shared.journal.order.sealed = some ended := by
    rw [after_append]
    exact (after_accounts created first).preserve (P := fun c => c.journal.order.sealed = some ended)
      accounts_sound choices_allowed (fun _ _ _ _ moves => moves_ended moves) sealed
  exact ⟨stands, cleanEnd_of_kept (after_reckoned created (first ++ second)).kept stands⟩

/-- The program's output ends, and the worker ends the stream. -/
def drainedSchedule : List Event :=
  wholeCall 0 .bindProcess sampleAnswer ++ wholeCall 1 (.stageOutput [65]) sampleAnswer ++
    wholeCall 2 (.notifyOutputDrained .eof) sampleAnswer ++ wholeRun sampleAnswer ++ wholeRun sampleAnswer

set_option maxRecDepth 8000 in
theorem first_end_stands_drained :
    (sample.after (drainedSchedule ++ wholeCall 3 .close sampleAnswer)).shared.admission.closing = true ∧
      CleanEnd (sample.after (drainedSchedule ++ wholeCall 3 .close sampleAnswer)).shared
        ⟨⟨⟨⟨1, 1⟩, 1⟩, ⟨⟨1, 1⟩, 1⟩, .initial⟩, some .eof, none⟩ :=
  ⟨rfl, (first_end_stands sample_created drainedSchedule (wholeCall 3 .close sampleAnswer) rfl).2 rfl⟩

end Coordinator
end PtyRuntime
