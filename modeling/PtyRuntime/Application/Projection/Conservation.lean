import PtyRuntime.Application.Projection.Schedule

/-! Staged output is conserved. -/
namespace PtyRuntime
open Thread PtyRuntime.Core

namespace Coordinator

/-- The queued output chunks, in queue order. -/
def queuedOutput (c : Coordinator) : List Bytes := c.admission.queue.filterMap Command.output?

/-- Everything admitted and not yet counted as processed: the chunk in the worker's
hand, then the queued ones. -/
def unprocessed (c : Coordinator) : List Bytes := c.trace.hand.toList ++ c.queuedOutput

/-- Where every admitted chunk is. -/
structure ConservesOutput (c : Coordinator) : Prop where
  stream : c.unprocessed.flatten =
    (c.trace.admitted.flatten.take c.admission.status.published.offset).drop
      c.admission.status.processed.offset
  lengths : c.admission.status.published.offset =
    c.admission.status.processed.offset + (c.unprocessed.map List.length).sum
  ordered : c.trace.fed <+: c.trace.admitted.flatten
  counted : c.trace.admitted = c.trace.applied ++ c.unprocessed ∧
    c.trace.applied.flatten.length = c.admission.status.processed.offset

theorem valid_conserves {c : Coordinator} (valid : Valid c.core) (alive : c.admission.closing = false) :
    ConservesOutput c := by
  have split : c.trace.admitted = c.trace.applied ++ c.unprocessed := by
    have conserved := valid.conserved alive
    rw [taken, List.append_assoc] at conserved
    exact conserved
  have whole : c.trace.admitted.flatten = c.trace.applied.flatten ++ c.unprocessed.flatten := by
    rw [split, List.flatten_append]
  have processed : c.trace.applied.flatten.length = c.admission.status.processed.offset :=
    valid.processed
  have published : c.trace.admitted.flatten.length = c.admission.status.published.offset :=
    valid.published
  constructor
  · rw [← published, List.take_length, ← processed, whole, List.drop_left]
  · rw [← published, ← processed, whole, List.length_append, List.length_flatten (L := c.unprocessed)]
  · obtain ⟨part, fed, within⟩ := valid.fed alive
    rw [show c.trace.fed = c.trace.applied.flatten ++ part from fed, whole]
    exact (List.prefix_append_right_inj _).mpr within
  · exact ⟨split, processed⟩

/-- A rejected chunk leaves the admission state and the trace of output alone, in
each of the reader's own steps. -/
theorem stageOutput_rejected {bytes : Bytes} {own : List (Coordinator × Coordinator)}
    {acceptance : OutputAcceptance} (runs : (stageOutput bytes).Runs own acceptance)
    (rejected : acceptance ≠ .accepted) :
    ∀ step ∈ own, step.2.admission = step.1.admission ∧ step.2.trace = step.1.trace := by
  obtain ⟨first, own, available, rfl, looked, staging⟩ := runs.of_bind
  obtain ⟨c, rfl, -⟩ := looked.of_lock
  cases available with
  | false =>
    obtain ⟨rfl, -⟩ := Runs.of_pure staging
    simp
  | true =>
    obtain ⟨asked, own, answer, rfl, input, stalling⟩ := Runs.of_bind staging
    obtain rfl := input.of_input
    obtain ⟨stalled, own, _, rfl, updated, admitting⟩ := Runs.of_bind stalling
    obtain ⟨stall, rfl, -⟩ := Runs.of_lock updated
    obtain ⟨offered, own, outcome, rfl, locked, waking⟩ := Runs.of_bind admitting
    obtain ⟨held, rfl, rfl⟩ := Runs.of_lock locked
    rcases offerOutput_cases held bytes answer with
      ⟨refusal, -, refused⟩ | ⟨-, nothing⟩ | ⟨policy, -, queued⟩
    · rw [refused] at waking ⊢
      obtain ⟨rfl, -⟩ := Runs.of_pure waking
      simp
    · rw [nothing] at waking
      exact absurd (Runs.of_pure waking).2 rejected
    · rw [queued] at waking
      obtain ⟨_, _, _, _, _, ended⟩ := Runs.of_bind waking
      exact absurd (Runs.of_pure ended).2 rejected

/-- Staged output is conserved in every state a projection reaches before it closes,
and a rejected chunk changes nothing. -/
theorem staged_output_conserved {lifetime : SessionLifetime} {config : ProjectionConfig}
    {now identity : Nat} {c : Coordinator}
    (created : create lifetime config now identity = .ok c) (events : List Event) :
    ((c.after events).shared.admission.closing = false →
        ConservesOutput (c.after events).shared) ∧
      ∀ (bytes : Bytes) (own : List (Coordinator × Coordinator)) (acceptance : OutputAcceptance),
        (stageOutput bytes).Runs own acceptance → acceptance ≠ .accepted →
          ∀ step ∈ own, step.2.admission = step.1.admission ∧ step.2.trace = step.1.trace := by
  constructor
  · exact valid_conserves (after_valid created events)
  · intro bytes own acceptance runs rejected
    exact stageOutput_rejected runs rejected

/-- A run feeds the first chunk, and a second one arrives after it. -/
def chunkSchedule : List Event :=
  wholeCall 0 (.stageOutput [65, 66]) sampleAnswer ++ wholeRun sampleAnswer ++
    wholeCall 1 (.stageOutput [67]) sampleAnswer

set_option maxRecDepth 4000 in
theorem staged_output_conserved_chunks :
    (sample.after chunkSchedule).shared.trace.fed = [65, 66] ∧
      (sample.after chunkSchedule).shared.unprocessed = [[67]] ∧
      ConservesOutput (sample.after chunkSchedule).shared := by
  exact ⟨rfl, rfl, (staged_output_conserved sample_created chunkSchedule).1 rfl⟩

end Coordinator
end PtyRuntime
