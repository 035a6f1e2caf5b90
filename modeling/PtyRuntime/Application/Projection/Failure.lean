import PtyRuntime.Application.Projection.Conservation

/-! What a failure leaves queued stays queued. The batch behind a run's first chunk
is dequeued under a fresh look at the failure, the first chunk is not, so the law
needs that the failure does not land between the run's look and that dequeue. -/
namespace PtyRuntime
open Thread PtyRuntime.Core

namespace Coordinator

def hasFailed (c : Coordinator) : Bool := c.admission.status.failure.isSome

/-- The worker has seen no failure and will take the head of the queue without
looking again, while output is queued. -/
def Exposed (c : Coordinator) : Prop := c.trace.poised = true ∧ c.queuedOutput ≠ []

/-- The output queued at the first moment is queued at the second, behind no more
than the worker put back, and none of it was fed in between. -/
structure KeepsQueued (c c' : Coordinator) : Prop where
  queued : ∃ back new, c'.queuedOutput = back ++ c.queuedOutput ++ new
  unfed : c.queuedOutput ≠ [] → c'.trace.fed = c.trace.fed ∨
    c'.trace.fed <+: (c.trace.applied ++ c.trace.hand.toList).flatten

/-- What a projection that failed at `k` keeps until it closes. -/
structure Frozen (k k' : Core) : Prop where
  failed : k'.policy.status.failure.isSome
  calm : k'.trace.poised = false
  taken : k'.taken <+: k.taken
  fed : k'.trace.fed = k.trace.fed ∨ k'.trace.fed <+: k.taken.flatten
  admitted : k.trace.admitted <+: k'.trace.admitted

theorem Frozen.refl {k : Core} (failed : k.policy.status.failure.isSome)
    (calm : k.trace.poised = false) : Frozen k k :=
  ⟨failed, calm, List.prefix_rfl, .inl rfl, List.prefix_rfl⟩

theorem Frozen.owes {k k' k'' : Core} (frozen : Frozen k k') (owes : Owes k' k'')
    (alive : k''.closing = false) : Frozen k k'' := by
  obtain ⟨failed, calm, taken, fed⟩ := owes.frozen frozen.failed frozen.calm alive
  refine ⟨failed, calm, taken.trans frozen.taken, ?_, owes.admitted.1 ▸ frozen.admitted⟩
  rcases fed with same | within
  · rw [same]
    exact frozen.fed
  · obtain ⟨rest, split⟩ := frozen.taken
    refine .inr (within.trans ?_)
    rw [← split, List.flatten_append]
    exact List.prefix_append _ _

theorem Frozen.beside {k k' k'' : Core} (frozen : Frozen k k') (beside : Beside k' k'') :
    Frozen k k'' := by
  obtain ⟨applied, hand, fed, poised, -⟩ := beside.trace
  obtain ⟨new, admitted, -⟩ := beside.admitted
  have taken : k''.taken = k'.taken := by rw [Core.taken, Core.taken, applied, hand]
  constructor
  · exact beside.failure frozen.failed
  · rw [poised, frozen.calm]
  · rw [taken]
    exact frozen.taken
  · rw [fed]
    exact frozen.fed
  · rw [admitted]
    exact frozen.admitted.trans (List.prefix_append _ _)

/-- One step of anyone: frozen still, or closing. -/
theorem Frozen.moves {k : Core} {c c' : Coordinator} (moves : projection.Moves c c')
    (frozen : c.core.closing = true ∨ Frozen k c.core) :
    c'.core.closing = true ∨ Frozen k c'.core := by
  rcases moves with rfl | (same | step) | ⟨role, owes⟩
  · exact frozen
  · rw [same]
    exact frozen
  · exact frozen.imp step.beside.closing fun frozen => frozen.beside step.beside
  · have owes : Owes c.core c'.core := owes
    rcases frozen with ended | frozen
    · exact .inl (owes.closing ended)
    · by_cases alive : c'.core.closing = true
      · exact .inl alive
      · exact .inr (frozen.owes owes (Bool.eq_false_iff.mpr alive))

/-- What was taken before is a prefix of what had been taken then, so what was queued
then is still in place behind it. -/
theorem Frozen.keepsQueued {c c' : Coordinator} (frozen : Frozen c.core c'.core)
    (valid : Valid c.core) (valid' : Valid c'.core) (alive : c.core.closing = false)
    (alive' : c'.core.closing = false) : KeepsQueued c c' := by
  constructor
  · obtain ⟨back, split⟩ := frozen.taken
    obtain ⟨new, grown⟩ := frozen.admitted
    refine ⟨back, new, ?_⟩
    rw [valid.conserved alive, valid'.conserved alive', ← split, List.append_assoc,
      List.append_assoc, List.append_cancel_left_eq] at grown
    rw [List.append_assoc]
    exact grown.symm
  · exact fun _ => frozen.fed

/-- Unless the failure landed between a run's look for one and its first dequeue,
with output queued, everything queued then stays queued and unfed until the
projection closes, whatever anyone does. -/
theorem queued_output_stays_after_failure {lifetime : SessionLifetime} {config : ProjectionConfig}
    {now identity : Nat} {c : Coordinator}
    (created : create lifetime config now identity = .ok c) (before later : List Event)
    (failed : (c.after before).shared.hasFailed = true) (covered : ¬Exposed (c.after before).shared)
    (alive : (c.after (before ++ later)).shared.admission.closing = false) :
    KeepsQueued (c.after before).shared (c.after (before ++ later)).shared := by
  by_cases empty : (c.after before).shared.queuedOutput = []
  · refine ⟨⟨(c.after (before ++ later)).shared.queuedOutput, [], ?_⟩, fun queued => absurd empty queued⟩
    rw [empty, List.append_nil, List.append_nil]
  have calm : (c.after before).shared.core.trace.poised = false :=
    Bool.eq_false_iff.mpr fun poised => covered ⟨poised, empty⟩
  have frozen := after_preserves created before later (fun _ _ _ _ => Frozen.moves)
    (.inr (.refl failed calm))
  have ending : (c.after (before ++ later)).shared.core.closing ≠ true := by
    rw [show (c.after (before ++ later)).shared.core.closing = false from alive]
    decide
  exact (frozen.resolve_left ending).keepsQueued (after_valid created before)
    (after_valid created (before ++ later)) (after_open created before later alive) alive

/-- Two chunks are staged while no run is going on; waking the worker for the second
one fails the projection. -/
def failedSchedule : List Event :=
  wholeCall 0 (.stageOutput [65]) sampleAnswer ++
    wholeCall 1 (.stageOutput [66]) { sampleAnswer with woken := false }

set_option maxRecDepth 4000 in
theorem queued_output_stays_after_failure_unraced :
    (sample.after (failedSchedule ++ wholeRun sampleAnswer)).shared.queuedOutput = [[65], [66]] ∧
      KeepsQueued (sample.after failedSchedule).shared
        (sample.after (failedSchedule ++ wholeRun sampleAnswer)).shared := by
  refine ⟨rfl, queued_output_stays_after_failure sample_created failedSchedule
    (wholeRun sampleAnswer) rfl ?_ rfl⟩
  rintro ⟨poised, -⟩
  cases poised

/-- The same two chunks, with a run that has just looked for a failure when the
second one is staged. -/
def racedSchedule : List Event :=
  wholeCall 0 (.stageOutput [65]) sampleAnswer ++
    .enter .run :: List.replicate 8 (.work sampleAnswer) ++
    wholeCall 1 (.stageOutput [66]) { sampleAnswer with woken := false }

set_option maxRecDepth 4000 in
/-- The run takes the chunk the failure left queued, and feeds it. -/
theorem first_dequeue_ignores_failure :
    (sample.after racedSchedule).shared.hasFailed = true ∧
      (sample.after racedSchedule).shared.queuedOutput = [[65], [66]] ∧
      (sample.after racedSchedule).shared.trace.hand = none ∧
      (sample.after racedSchedule).shared.trace.fed = [] ∧
      (sample.after (racedSchedule ++ List.replicate 40 (.work sampleAnswer))).shared.admission.closing
        = false ∧
      (sample.after (racedSchedule ++ List.replicate 40 (.work sampleAnswer))).shared.trace.fed
        = [65] ∧
      ¬KeepsQueued (sample.after racedSchedule).shared
        (sample.after (racedSchedule ++ List.replicate 40 (.work sampleAnswer))).shared := by
  refine ⟨rfl, rfl, rfl, rfl, rfl, rfl, fun keeps => ?_⟩
  obtain ⟨back, new, queued⟩ := keeps.queued
  have lengths := congrArg List.length queued
  rw [List.length_append, List.length_append] at lengths
  have before : (sample.after racedSchedule).shared.queuedOutput.length = 2 := rfl
  have after : (sample.after (racedSchedule ++
    List.replicate 40 (.work sampleAnswer))).shared.queuedOutput.length = 1 := rfl
  omega

end Coordinator
end PtyRuntime
