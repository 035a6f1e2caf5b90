import PtyRuntime.Application.Projection.Schedule

/-! Parking never loses state. -/
namespace PtyRuntime
open Thread PtyRuntime.Core

namespace Coordinator

/-- The version of the model a checkpoint encoded now would describe. -/
def version (c : Coordinator) : CheckpointDescriptor where
  compatibility := c.config.compatibility
  processed := c.admission.status.processed
  controlGeneration := c.admission.status.controlGeneration

/-- What the step that decides to park, and the step that drops the live model,
leave behind. -/
structure ParksWhole (c c' : Coordinator) : Prop where
  release : c.admission.status.residency = .parking → c'.admission.status.residency = .parked →
    c'.admission.status.published = c'.admission.status.processed ∧ c'.admission.queue = [] ∧
      c'.workspace.reply.isNone ∧ c'.workspace.resize.isNone ∧
      c'.trace.since = 0 ∧ c'.trace.encoded = some c'.version
  drop : c.workspace.terminal.isSome → c'.workspace.terminal.isNone →
    c'.admission.closing = false →
    ∃ source, c'.workspace.source = some source ∧ source.descriptor = c'.version ∧
      c'.trace.encoded = some source.descriptor ∧
      c'.workspace.reply.isNone ∧ c'.workspace.resize.isNone

/-- The workspace holds what the residency says it does. -/
structure FitsResidency (c : Coordinator) : Prop where
  live : c.admission.status.residency = .resident ∨ c.admission.status.residency = .parking →
    c.workspace.terminal.isSome ∧ c.workspace.source = none
  parked : c.admission.status.residency = .parked →
    c.workspace.terminal = none ∧
      ∃ source, c.workspace.source = some source ∧ source.descriptor = c.version
  usable : c.admission.status.residency = .usable →
    c.workspace.terminal.isSome ∧ c.workspace.source.isSome
  restoring : c.admission.status.residency = .restoring →
    c.workspace.terminal = none ∧ c.workspace.source.isSome ∧
      ∃ source mailbox, c.workspace.io = some (.restore source mailbox)

theorem source_of_core {c : Coordinator} {descriptor : CheckpointDescriptor}
    (held : c.core.source = some descriptor) :
    ∃ source, c.workspace.source = some source ∧ source.descriptor = descriptor :=
  Option.map_eq_some_iff.mp held

theorem isNone_of_core {α : Type} {slot : Option α} (free : slot.isSome = false) : slot.isNone := by
  cases slot with
  | none => rfl
  | some value => cases free

theorem parksWhole_refl (c : Coordinator) : ParksWhole c c where
  release before after := by
    rw [before] at after
    cases after
  drop before after := by
    rw [Option.isNone_iff_eq_none.mp after] at before
    cases before

theorem owes_parksWhole {c c' : Coordinator} (owes : Owes c.core c'.core) : ParksWhole c c' where
  release before after := by
    obtain ⟨level, empty, reply, resize, since, encoded⟩ := owes.release before after
    exact ⟨level, empty, isNone_of_core reply, isNone_of_core resize, since, encoded⟩
  drop before after alive := by
    have gone : c'.core.terminal = false := by
      rw [core, Option.isNone_iff_eq_none.mp after]
      rfl
    obtain ⟨held, encoded, reply, resize⟩ := owes.drop before gone alive
    obtain ⟨source, present, current⟩ := source_of_core held
    exact ⟨source, present, current, encoded.trans (congrArg some current.symm),
      isNone_of_core reply, isNone_of_core resize⟩

/-- Other threads neither park nor drop the model. -/
theorem beside_parksWhole {c c' : Coordinator} (beside : Beside c.core c'.core) :
    ParksWhole c c' where
  release before after := by
    rcases beside.residency with same | down
    · have before : c.core.residency = .parking := before
      rw [← same, show c'.core.residency = .parked from after] at before
      cases before
    · exact absurd down (not_down_of after (by decide))
  drop before after := by
    have same : c'.workspace.terminal.isSome = c.workspace.terminal.isSome := beside.workspace.1
    rw [before, Option.isNone_iff_eq_none.mp after] at same
    cases same

theorem moves_parksWhole {c c' : Coordinator} (moves : projection.Moves c c') : ParksWhole c c' := by
  rcases moves with rfl | (same | step) | ⟨role, owes⟩
  · exact parksWhole_refl c'
  · refine owes_parksWhole ?_
    rw [same]
    exact Owes.refl _
  · exact beside_parksWhole step.beside
  · exact owes_parksWhole owes

theorem restore_of_core {c : Coordinator} (inflight : c.core.restore = true) :
    ∃ source mailbox, c.workspace.io = some (.restore source mailbox) := by
  simp only [core] at inflight
  rcases slot : c.workspace.io with _ | (_ | ⟨source, mailbox⟩ | _ | _)
  · simp [slot] at inflight
  · simp [slot, PendingIo.restores] at inflight
  · exact ⟨source, mailbox, rfl⟩
  · simp [slot, PendingIo.restores] at inflight
  · simp [slot, PendingIo.restores] at inflight

theorem shape_fits {c : Coordinator} (shape : Shape c.core) : FitsResidency c where
  live seen := by
    obtain ⟨terminal, source⟩ := shape.live seen
    exact ⟨terminal, Option.map_eq_none_iff.mp source⟩
  parked seen := by
    obtain ⟨terminal, source, -⟩ := shape.parked seen
    exact ⟨Option.isNone_iff_eq_none.mp (isNone_of_core terminal), source_of_core source⟩
  usable seen := by
    obtain ⟨terminal, source⟩ := shape.usable seen
    exact ⟨terminal, by simpa [core] using source⟩
  restoring seen := by
    obtain ⟨terminal, source, inflight⟩ := shape.restoring seen
    exact ⟨Option.isNone_iff_eq_none.mp (isNone_of_core terminal), by simpa [core] using source,
      restore_of_core inflight⟩

/-- Parking never loses state, whatever runs beside it. Each step of every schedule
parks only a quiet projection whose encoded version is current and drops the model
only for a committed source of that version, and whenever no run holds the
workspace it fits the residency. -/
theorem parking_never_loses_state {lifetime : SessionLifetime} {config : ProjectionConfig}
    {now identity : Nat} {c : Coordinator}
    (created : create lifetime config now identity = .ok c) (events : List Event) :
    (∀ event, ParksWhole (c.after events).shared (c.after (events ++ [event])).shared) ∧
      ((c.after events).held () = none → FitsResidency (c.after events).shared) := by
  constructor
  · intro event
    exact moves_parksWhole (after_moves created events event)
  · intro free
    exact shape_fits ((after_kept created events).idle () free).shape

/-- One run encodes and submits, the pool commits, and the next run drops the model. -/
def idleSchedule : List Event :=
  wholeRun sampleAnswer ++ wholeCall 0 .runJob sampleAnswer ++ wholeRun sampleAnswer

set_option maxRecDepth 4000 in
/-- An idle projection parks, and is whole while it does. -/
theorem parking_never_loses_state_idle :
    (∀ event, ParksWhole (sample.after idleSchedule).shared
        (sample.after (idleSchedule ++ [event])).shared) ∧
      (sample.after idleSchedule).shared.admission.status.residency = .parked ∧
      FitsResidency (sample.after idleSchedule).shared := by
  obtain ⟨steps, free⟩ := parking_never_loses_state sample_created idleSchedule
  exact ⟨steps, rfl, free rfl⟩

end Coordinator
end PtyRuntime
