import PtyRuntime.Application.Projection.RoundRuns
import PtyRuntime.Application.Projection.Schedule

/-! A close request asks for a fresh round of deletions. Cleanup takes a failure it finds
for one of that round, so the law needs that no older one is recorded while the round is
owed, and that no further request arrives while cleanup is giving up. -/
namespace PtyRuntime
open Thread PtyRuntime.Core Reaping

namespace Coordinator

/-- Every source had its full round of deletions after the last close request. -/
structure FreshRound (c : Coordinator) : Prop where
  /-- Cleanup surrenders only if deletions of the oldest source that were submitted after
  the last close request have failed as often as they may. -/
  surrendered : ∀ failures, c.rounds.surrendered = some failures →
    c.config.options.maxDeleteAttempts ≤ failures
  /-- Otherwise every source this projection ever held has been deleted once cleanup has
  finished. -/
  deleted : c.admission.status.residency = .closed → c.rounds.abandoned = false →
    c.rounds.surrendered = none → ∀ id ∈ c.rounds.sources, id ∈ c.storage.deleted
  /-- And the close succeeds, unless the outcome of some commit was uncertain. -/
  succeeded : c.admission.status.residency = .closed → c.rounds.abandoned = false →
    c.rounds.surrendered = none → c.rounds.uncertain = [] → c.admission.closeOutcome = some (.ok ())

theorem sound_grants {c : Coordinator} (sound : c.reaping.Sound) (timely : c.rounds.overtaken = false) :
    FreshRound c where
  surrendered := sound.enough timely
  deleted closed kept given := (sound.ended (decide_eq_true closed) kept timely given).1
  succeeded closed kept given confirmed := by
    have outcome : c.admission.cleanupFailure = c.admission.unreclaimedFailure :=
      (sound.ended (decide_eq_true closed) kept timely given).2
    have sure : c.admission.unreclaimedFailure = none := by
      by_contra uncertain
      exact sound.doubted (Option.isSome_iff_ne_none.mpr uncertain) confirmed
    rw [Admission.closeOutcome, if_pos closed, outcome, sure]
    rfl

section Created

variable {lifetime : SessionLifetime} {config : ProjectionConfig} {now identity : Nat}
  {c : Coordinator} (created : create lifetime config now identity = .ok c)
include created

theorem create_rested : c.reaping.Sound ∧ Resting c.reaping := by
  obtain ⟨policy, store, made, -, rfl⟩ := create_made created
  obtain rfl := ProjectionPolicy.new_ok made
  constructor
  · constructor <;> simp [reaping, Admission.status]
  · refine .inl ⟨?_, ?_, ?_, ?_, ?_⟩ <;> simp [reaping, NativeWorkspace.waiting, Admission.status]

theorem after_rounds (events : List Event) : (projection.extend deletions).Kept (c.after events) := by
  obtain ⟨sound, rest⟩ := create_rested created
  have start : (projection.extend deletions).Kept (.start c) :=
    Contract.kept_start ⟨(create_idle created).1, sound⟩ fun _ => ⟨(create_idle created).2, rest⟩
  exact start.run deletions_sound choices_allowed

end Created

/-- In every run, a close grants each source a fresh round of deletions, as long as
cleanup never went by a failure while a round that had been asked for was yet to begin. -/
theorem close_grants_fresh_round {lifetime : SessionLifetime} {config : ProjectionConfig}
    {now identity : Nat} {c : Coordinator} (created : create lifetime config now identity = .ok c)
    (events : List Event) (timely : (c.after events).shared.rounds.overtaken = false) :
    FreshRound (c.after events).shared :=
  sound_grants (after_rounds created events).inv.2 timely

/-- An answer of a provider that cannot delete. -/
def failingAnswer : Answer := { sampleAnswer with deleted := .error .unavailable }

/-- Output arrives while a park commits, so the committed source is superseded. -/
def supersededSchedule : List Event :=
  wholeRun sampleAnswer ++ wholeCall 0 (.stageOutput [65]) sampleAnswer ++
    wholeCall 1 .runJob sampleAnswer

/-- A run starts a deletion, and it fails. -/
def failedDeletion (index : Nat) : List Event :=
  wholeRun failingAnswer ++ wholeCall index .runJob failingAnswer

/-- The close comes after one failed deletion, and each of the three after it fails. -/
def fullRoundSchedule : List Event :=
  supersededSchedule ++ failedDeletion 2 ++ wholeCall 3 .close sampleAnswer ++ failedDeletion 4 ++
    failedDeletion 5 ++ failedDeletion 6 ++ wholeRun failingAnswer

set_option maxRecDepth 8000 in
theorem close_grants_fresh_round_full :
    (sample.after fullRoundSchedule).shared.admission.status.residency = .closed ∧
      (sample.after fullRoundSchedule).shared.rounds.surrendered = some 3 ∧
      FreshRound (sample.after fullRoundSchedule).shared :=
  ⟨rfl, rfl, close_grants_fresh_round sample_created fullRoundSchedule rfl⟩

/-- The third deletion is in flight when the close comes, and fails after it. -/
def lateFailureSchedule : List Event :=
  supersededSchedule ++ failedDeletion 2 ++ failedDeletion 3 ++ wholeRun failingAnswer ++
    wholeCall 4 .close sampleAnswer ++ wholeCall 5 .runJob failingAnswer ++ wholeRun failingAnswer

set_option maxRecDepth 8000 in
/-- Cleanup takes the failure for one of the round it has yet to begin, and surrenders a
source of which no deletion was submitted after the close. -/
theorem late_failure_forfeits_round :
    (sample.after lateFailureSchedule).shared.admission.status.residency = .closed ∧
      (sample.after lateFailureSchedule).shared.rounds.abandoned = false ∧
      (sample.after lateFailureSchedule).shared.rounds.uncertain = [] ∧
      (sample.after lateFailureSchedule).shared.rounds.sources = [0] ∧
      (sample.after lateFailureSchedule).shared.storage.deleted = [] ∧
      (sample.after lateFailureSchedule).shared.unreclaimed.length = 1 ∧
      ¬FreshRound (sample.after lateFailureSchedule).shared := by
  refine ⟨rfl, rfl, rfl, rfl, rfl, rfl, fun granted => ?_⟩
  have most : (sample.after lateFailureSchedule).shared.config.options.maxDeleteAttempts = 3 := rfl
  have none : (sample.after lateFailureSchedule).shared.rounds.surrendered = some 0 := rfl
  have enough := granted.surrendered 0 none
  omega

end Coordinator
end PtyRuntime
