import PtyRuntime.Application.Projection.CallerLaws

/-! What can happen to a created projection: any number of runs and callers, each
advanced one lock acquisition at a time, in any order and with any answers. -/
namespace PtyRuntime
open Thread PtyRuntime.Core

namespace Coordinator

/-- One scheduling decision about a projection. -/
inductive Event where
  | enter (owner : Owner)
  | work (answer : Answer)
  | call (request : Call)
  | resume (index : Nat) (answer : Answer)

def Event.choice : Event → Choice Unit Coordinator Answer
  | .enter owner => .enter () owner.thread
  | .work answer => .work () answer
  | .call request => .call request.thread
  | .resume index answer => .resume index answer

/-- The projection and its threads after a schedule. -/
def after (c : Coordinator) (events : List Event) : Machine Unit Coordinator Answer :=
  (Machine.start c).run (events.map Event.choice)

theorem after_append (c : Coordinator) (first second : List Event) :
    c.after (first ++ second) = (c.after first).run (second.map Event.choice) := by
  rw [after, List.map_append, Machine.run_append]
  rfl

theorem choice_allowed (event : Event) : projection.Allows event.choice := by
  cases event with
  | enter owner => exact ⟨owner, rfl⟩
  | work answer => trivial
  | call request => exact ⟨request, rfl⟩
  | resume index answer => trivial

theorem choices_allowed {events : List Event} :
    ∀ choice ∈ events.map Event.choice, projection.Allows choice := by
  intro choice member
  obtain ⟨event, -, rfl⟩ := List.mem_map.mp member
  exact choice_allowed event

theorem moves_closing {c c' : Coordinator} (moves : projection.Moves c c')
    (ended : c.core.closing = true) : c'.core.closing = true := by
  rcases moves with rfl | (same | step) | ⟨role, owes⟩
  · exact ended
  · rw [same]
    exact ended
  · exact step.beside.closing ended
  · exact Owes.closing owes ended

section Created

variable {lifetime : SessionLifetime} {config : ProjectionConfig} {now identity : Nat}
  {c : Coordinator} (created : create lifetime config now identity = .ok c)
include created

theorem after_kept (events : List Event) : projection.Kept (c.after events) :=
  (created_kept created).run projection_sound choices_allowed

theorem after_valid (events : List Event) : Valid (c.after events).shared.core :=
  (after_kept created events).inv

/-- What each step of a schedule is: nothing, a caller's step, or the worker's. -/
theorem after_moves (events : List Event) (event : Event) :
    projection.Moves (c.after events).shared (c.after (events ++ [event])).shared := by
  rw [after_append]
  exact ((after_kept created events).step projection_sound (choice_allowed event)).2

/-- What every step preserves between valid states, every schedule preserves. -/
theorem after_preserves {P : Coordinator → Prop} (first second : List Event)
    (step : ∀ c c', Valid c.core → Valid c'.core → projection.Moves c c' → P c → P c')
    (holds : P (c.after first).shared) : P (c.after (first ++ second)).shared := by
  rw [after_append]
  exact (after_kept created first).preserve projection_sound choices_allowed step holds

/-- A projection that is open now was open before. -/
theorem after_open (first second : List Event)
    (alive : (c.after (first ++ second)).shared.admission.closing = false) :
    (c.after first).shared.admission.closing = false := by
  apply Bool.eq_false_iff.mpr
  intro ended
  have ending : (c.after (first ++ second)).shared.core.closing = true :=
    after_preserves created first second (fun _ _ _ _ => moves_closing) ended
  rw [show (c.after (first ++ second)).shared.core.closing = false from alive] at ending
  cases ending

end Created

def sampleConfig : ProjectionConfig where
  options := .new (.new ⟨80, 24, by decide, by decide, by decide⟩)
  compatibility := "engine-1"
  protectedBytes := 8 * 1024 * 1024
  storedBytes := 1024 * 1024 * 1024
  storedSlots := 4096
  mutationDuringRestore := false
  viewLimit := 8 * 1024 * 1024
  cellSize := 72
  mutationSize := 64
  recordSize := 64

def sample : Coordinator where
  journal := .new ⟨1, 1⟩
  config := sampleConfig
  admission := {
    policy := {
      status := {
        published := ⟨⟨1, 1⟩, 0⟩
        processed := ⟨⟨1, 1⟩, 0⟩
        controlGeneration := .initial
        residency := .resident
        history := .complete
        skippedHistoryPages := 0
        failure := none
        parkingFailure := none }
      options := sampleConfig.options
      activity := 0
      operation := 0
      lastActivity := 0
      retryAt := 0
      attempts := 0 } }
  workspace := { config := sampleConfig.options.terminal, terminal := some {}, reaper := { maxAttempts := 3 } }
  programStatus := { store := some { identity := 0, limit := 256 } }
  disk := { stored := ⟨1024 * 1024 * 1024, 0⟩, storedSlots := ⟨4096, 0⟩ }

theorem sample_created : create ⟨1, 1⟩ sampleConfig 0 0 = .ok sample := rfl

/-- An hour in which every port answers and every checkpoint is of a fresh model. -/
def sampleAnswer : Answer where
  now := seconds 3600
  encoded := some (.ok ⟨⟨"engine-1", ⟨⟨1, 1⟩, 0⟩, .initial⟩, [1], 1⟩)
  isProtected := .ok ⟨⟨⟨1, 1⟩, 1⟩, ⟨"engine-1", ⟨⟨1, 1⟩, 0⟩, .initial⟩, [7]⟩
  committed := .ok ⟨0, ⟨⟨1, 1⟩, 1⟩, 1⟩

/-- A run of the worker that nothing interrupts. -/
def wholeRun (answer : Answer) : List Event := .enter .run :: List.replicate 40 (.work answer)

/-- The caller at `index` until it is done. -/
def wholeCall (index : Nat) (request : Call) (answer : Answer) : List Event :=
  .call request :: List.replicate 20 (.resume index answer)

end Coordinator
end PtyRuntime
