import PtyRuntime.Application.AttachmentLaws
import PtyRuntime.Application.ProjectedSession
import PtyRuntime.Application.Projection.Schedule

/-! Raw replay and the projection stay in lockstep: an output callback advances both
by its chunk or neither, whatever the worker and the other threads do meanwhile. -/
namespace PtyRuntime
open Thread PtyRuntime.Core

namespace Coordinator

theorem Disturbance.admitted {k k' : Core} (step : Disturbance k k') :
    k'.trace.admitted = k.trace.admitted := by
  cases step <;> rfl

theorem Bystands.admitted {c c' : Coordinator} (step : Bystands c c') :
    c'.trace.admitted = c.trace.admitted := by
  rcases step with same | step
  · exact congrArg (·.trace.admitted) same
  · exact Disturbance.admitted step

theorem Bystands.valid {c c' : Coordinator} (step : Bystands c c') (valid : Valid c.core) :
    Valid c'.core := by
  rcases step with same | step
  · rw [same]
    exact valid
  · exact valid.beside step.beside

/-- The reader admits all the output there is. -/
def reader : Discipline Coordinator where
  inv c := Valid c.core
  rely c c' := c'.trace.admitted = c.trace.admitted
  guar := Meddles

/-- The output admitted so far. -/
def Admitted (stream : Bytes) (c : Coordinator) : Prop := c.trace.admitted.flatten = stream

instance (stream : Bytes) : reader.Stable (Admitted stream) where
  keep rely admitted := by
    unfold Admitted
    rw [show _ = _ from rely]
    exact admitted

theorem bystands_admitted {α : Type} (stream : Bytes) {work : Work α} (each : work.Each Bystands) :
    reader.Triple (Admitted stream) work fun _ => Admitted stream :=
  .of_each each fun c c' step valid admitted => ⟨step.valid valid, step.meddles, by
    unfold Admitted
    rw [step.admitted]
    exact admitted⟩

/-- What staging a chunk does to the admitted stream. -/
def Staged (stream bytes : Bytes) (acceptance : OutputAcceptance) (c : Coordinator) : Prop :=
  if acceptance = .accepted then
    Admitted (stream ++ bytes) c ∧ stream.length + bytes.length ≤ u64Max
  else Admitted stream c

theorem admitOutput_staged (stream bytes : Bytes) (bounded : stream.length ≤ u64Max) (answer : Answer) :
    reader.Triple (Admitted stream) (admitOutput bytes answer) fun outcome c =>
      match outcome with
      | .rejected acceptance => acceptance ≠ .accepted ∧ Admitted stream c
      | .accepted | .queued => Staged stream bytes .accepted c := by
  refine .lock fun c valid admitted => ?_
  have admitted : c.trace.admitted.flatten = stream := admitted
  rcases offerOutput_cases c bytes answer with
    ⟨acceptance, refused, rejected⟩ | ⟨rfl, nothing⟩ | ⟨policy, recorded, queued⟩
  · rw [rejected]
    exact ⟨valid, .inl rfl, refused, admitted⟩
  · rw [nothing]
    refine ⟨valid, .inl rfl, ?_⟩
    simpa [Staged, Admitted] using ⟨admitted, bounded⟩
  · rw [queued]
    have step : Interference c.core (c.queueOutput bytes policy).core :=
      .output bytes answer.now policy recorded
    have level : stream.length = c.admission.policy.status.published.offset := by
      rw [← admitted]
      exact valid.published
    obtain ⟨-, bound, -⟩ := Core.admitOutput_ok recorded
    rw [← level] at bound
    refine ⟨Valid.beside valid step.beside, .inr step, ?_⟩
    simpa [Staged, Admitted, queueOutput, Trace.queued, admitted] using bound

/-- Staging admits the whole chunk exactly when it answers so. -/
theorem stageOutput_staged (stream bytes : Bytes) (bounded : stream.length ≤ u64Max) :
    reader.Triple (Admitted stream) (stageOutput bytes) (Staged stream bytes) := by
  apply (bystands_admitted stream Completing.look_each.each).bind
  intro available
  cases available with
  | false => exact .pure fun _ => id
  | true =>
    refine Discipline.Triple.input.bind fun answer =>
      (bystands_admitted stream (Each.update fun _ => .inl rfl)).bind fun _ =>
        (admitOutput_staged stream bytes bounded answer).bind fun outcome => ?_
    cases outcome with
    | rejected acceptance =>
      refine .pure fun c holds => ?_
      rw [Staged, if_neg holds.1]
      exact holds.2
    | accepted => exact .pure fun _ => id
    | queued =>
      refine Discipline.Triple.bind (Q := fun _ => Staged stream bytes .accepted) (fun c staged => ?_)
        fun _ => .pure fun _ => id
      rw [Staged, if_pos rfl] at staged
      refine (bystands_admitted (stream ++ bytes) Bystanding.wakeOrFail_each.each c staged.1).mono
        fun _ c' admitted => ?_
      rw [Staged, if_pos rfl]
      exact ⟨admitted, staged.2⟩

end Coordinator

namespace Observed

theorem replay_end {lifetime : SessionLifetime} {s : Observed} (valid : s.Valid lifetime) :
    s.context.replay.endOffset = s.stream.length := by
  obtain ⟨w, stream, refines⟩ := valid.ledger
  rw [refines.produced, stream]

/-- A chunk the projection did not take leaves the session alone. -/
theorem output_refused (s : Observed) (bytes : Bytes) {staging : Staging}
    (allocation : ReplayBuffer.Allocation)
    (refused : staging ≠ .answered .accepted ∧ staging ≠ .unprojected) :
    (s.context.outputObserved bytes staging allocation).1 ≠ .accepted ∧
      s.output bytes staging allocation = s := by
  unfold output SessionContext.outputObserved
  by_cases poisoned : s.context.poisoned = true
  · simp [poisoned]
  · rcases staging with _ | _ | (_ | _ | _) <;> simp_all

/-- A chunk the projection took is appended, while its end can be counted. -/
theorem output_accepted {lifetime : SessionLifetime} {s : Observed} (valid : s.Valid lifetime)
    (bytes : Bytes) (allocation : ReplayBuffer.Allocation) (healthy : s.context.poisoned = false)
    (fits : s.stream.length + bytes.length ≤ u64Max) :
    (s.context.outputObserved bytes (.answered .accepted) allocation).1 = .accepted ∧
      (s.output bytes (.answered .accepted) allocation).stream = s.stream ++ bytes := by
  have reached : s.context.outputObserved bytes (.answered .accepted) allocation =
      s.context.retainOutput bytes allocation := by
    simp [SessionContext.outputObserved, healthy]
  obtain ⟨w, stream, refines⟩ := valid.ledger
  have accepted : (s.context.retainOutput bytes allocation).1 = .accepted := by
    obtain ⟨-, v, -, ⟨-, accepted, -⟩ | ⟨exceeds, -⟩⟩ := retainOutput_refines refines bytes allocation
    · exact accepted
    · rw [stream] at exceeds
      omega
  rw [output, reached]
  exact ⟨accepted, if_pos accepted⟩

end Observed

namespace ProjectedSession
open Coordinator

/-- The call advanced both ends by its chunk and returned `Accepted`, or neither and
returned something else; and what the projection accepted was never refused. -/
structure Atomic (call : Callback) : Prop where
  level : call.replay.2 = call.published.2
  moved : (call.returned = .accepted ∧ call.replay.2 = call.replay.1 + call.bytes.length ∧
      call.published.2 = call.published.1 + call.bytes.length) ∨
    ((call.returned = .backpressure ∨ call.returned = .closed) ∧
      call.replay.2 = call.replay.1 ∧ call.published.2 = call.published.1)
  kept : call.staging = .answered .accepted → call.returned = .accepted

structure Sane (lifetime : SessionLifetime) (s : ProjectedSession) : Prop where
  projection : Valid s.projection.core
  observed : s.observed.Valid lifetime
  callbacks : ∀ call ∈ s.callbacks, Atomic call

/-- Raw replay has been given exactly the admitted output. -/
structure Level (s : ProjectedSession) : Prop where
  stream : s.projection.trace.admitted.flatten = s.observed.stream
  bounded : s.observed.stream.length ≤ u64Max

/-- A step of someone who does not hold the state mutex. -/
structure Outside (s s' : ProjectedSession) : Prop where
  admitted : s'.projection.trace.admitted = s.projection.trace.admitted
  stream : s'.observed.stream = s.observed.stream
  poisoned : s'.observed.context.poisoned = s.observed.context.poisoned

theorem Outside.refl (s : ProjectedSession) : Outside s s := ⟨rfl, rfl, rfl⟩

theorem Outside.trans {s t u : ProjectedSession} (first : Outside s t) (second : Outside t u) :
    Outside s u :=
  ⟨second.admitted.trans first.admitted, second.stream.trans first.stream,
    second.poisoned.trans first.poisoned⟩

theorem Level.outside {s s' : ProjectedSession} (level : Level s) (outside : Outside s s') : Level s' := by
  constructor
  · rw [outside.admitted, outside.stream, level.stream]
  · rw [outside.stream]
    exact level.bounded

def lockstep (lifetime : SessionLifetime) : Contract Role ProjectedSession Answer where
  inv := Sane lifetime
  idle
    | .worker, s => Idle s.projection.core
    | .session, s => Level s
  guar
    | .worker, s, s' => Owes s.projection.core s'.projection.core ∧ Outside s s'
    | .session, s, s' => Meddles s.projection s'.projection
  meddle s s' := Bystands s.projection s'.projection ∧ Outside s s'
  enters
    | .worker, program => ∃ owner : Owner, program = onProjection owner.thread
    | .session, program =>
      (∃ bytes available allocation, program = outputObserved bytes available allocation) ∨
        ∃ step, program = update fun s => { s with observed := besides step s.observed }
  calls program := (∃ request, program = onProjection (silenced request)) ∨
    ∃ replayUsed observersUsed, program = update fun s =>
      { s with observed := s.observed.step (.otherSessions replayUsed observersUsed) }

variable {lifetime : SessionLifetime}

/-- What the worker sees of the others is what it sees in a projection alone. -/
theorem others_worker {s s' : ProjectedSession} (step : (lockstep lifetime).Others .worker s s') :
    Meddles s.projection s'.projection := by
  rcases step with ⟨step, -⟩ | ⟨other, differs, owes⟩
  · exact step.meddles
  · cases other with
    | worker => exact absurd rfl differs
    | session => exact owes

theorem others_session {s s' : ProjectedSession} (step : (lockstep lifetime).Others .session s s') :
    Outside s s' := by
  rcases step with ⟨-, outside⟩ | ⟨other, differs, owes⟩
  · exact outside
  · cases other with
    | worker => exact owes.2
    | session => exact absurd rfl differs

theorem rely_session {s s' : ProjectedSession}
    (rely : ((lockstep lifetime).discipline .session).rely s s') : Outside s s' := by
  induction rely with
  | refl => exact .refl s
  | tail _ step ih => exact ih.trans (others_session step)

theorem meddles_idle {c c' : Coordinator} (step : Meddles c c') (idle : Idle c.core) : Idle c'.core := by
  rcases step with same | step
  · rw [same]
    exact idle
  · exact Steady.keep step.beside idle

theorem Sane.replace {s : ProjectedSession} (sane : Sane lifetime s) {c : Coordinator}
    (valid : Valid c.core) : Sane lifetime { s with projection := c } :=
  ⟨valid, sane.observed, sane.callbacks⟩

/-- The worker keeps its promises in a session as it does alone. -/
theorem worker_spec (owner : Owner) :
    ((lockstep lifetime).discipline .worker).Triple ((lockstep lifetime).idle .worker)
      (onProjection owner.thread) fun _ => (lockstep lifetime).idle .worker := by
  intro s idle
  have safe := owner_spec owner s.projection idle
  refine (safe.lift ((lockstep lifetime).discipline .worker) ProjectedSession.projection
    (fun s projection => { s with projection }) (fun _ => True)
    (fun _ _ => rfl) (fun _ sane => Sane.projection sane) (fun t t' rely => ⟨?_, id⟩)
    (fun t c sane valid (owes : Owes _ _) =>
      ⟨Sane.replace sane valid, owes, ⟨owes.admitted.1, rfl, rfl⟩⟩)
    (fun _ _ => id) trivial).mono fun _ _ holds => holds.1
  induction rely with
  | refl => exact .refl
  | tail _ step ih => exact ih.tail (.inl (others_worker step))

/-- Both sides have `stream`. -/
def At (stream : Bytes) (s : ProjectedSession) : Prop :=
  s.projection.trace.admitted.flatten = stream ∧ s.observed.stream = stream

theorem At.ends {stream : Bytes} {s : ProjectedSession} (sane : Sane lifetime s) (at' : At stream s) :
    s.ends = (stream.length, stream.length) := by
  have published : s.projection.trace.admitted.flatten.length =
      s.projection.admission.status.published.offset := sane.projection.published
  rw [ProjectedSession.ends, Observed.replay_end sane.observed, at'.2, ← published, at'.1]

/-- What the projection has answered, and what it admitted. -/
def Answered (stream bytes : Bytes) (staging : Staging) (s : ProjectedSession) : Prop :=
  s.observed.stream = stream ∧
    ((staging = .answered .accepted ∧ s.observed.context.poisoned = false ∧
        s.projection.trace.admitted.flatten = stream ++ bytes ∧
        stream.length + bytes.length ≤ u64Max) ∨
      ((staging ≠ .answered .accepted ∧ staging ≠ .unprojected) ∧
        s.projection.trace.admitted.flatten = stream))

instance (stream : Bytes) : ((lockstep lifetime).discipline .session).Stable (At stream) where
  keep rely at' := by
    have outside := rely_session rely
    exact ⟨by rw [outside.admitted, at'.1], outside.stream.trans at'.2⟩

instance (stream bytes : Bytes) (staging : Staging) :
    ((lockstep lifetime).discipline .session).Stable (Answered stream bytes staging) where
  keep rely answered := by
    have outside := rely_session rely
    unfold Answered
    rw [outside.stream, outside.poisoned, outside.admitted]
    exact answered

theorem session_guar_refl (s : ProjectedSession) :
    ((lockstep lifetime).discipline .session).guar s s := .inl rfl

theorem stage_spec (stream bytes : Bytes) (bounded : stream.length ≤ u64Max) (available : Bool) :
    ((lockstep lifetime).discipline .session).Triple (At stream) (stage bytes available)
      (Answered stream bytes) := by
  refine Discipline.Triple.bind (Q := fun (poisoned : Bool) s =>
    At stream s ∧ s.observed.context.poisoned = poisoned)
    (.look session_guar_refl fun s _ at' => ⟨at', rfl⟩) fun poisoned => ?_
  split
  · exact .pure fun s holds => ⟨holds.1.2, .inr ⟨⟨by decide, by decide⟩, holds.1.1⟩⟩
  · rename_i asked
    have healthy : poisoned = false := by
      cases poisoned with
      | true => simp at asked
      | false => rfl
    subst healthy
    refine Discipline.Triple.bind (Q := fun acceptance s =>
      Coordinator.Staged stream bytes acceptance s.projection ∧
        s.observed.stream = stream ∧ s.observed.context.poisoned = false) ?_ fun acceptance =>
      .pure fun s holds => ?_
    · rintro s ⟨at', healthy⟩
      refine (stageOutput_staged stream bytes bounded s.projection at'.1).lift
        ((lockstep lifetime).discipline .session) ProjectedSession.projection
        (fun s projection => { s with projection })
        (fun s => s.observed.stream = stream ∧ s.observed.context.poisoned = false)
        (fun _ _ => rfl) (fun _ sane => Sane.projection sane) (fun t t' rely => ?_)
        (fun t c sane valid step => ⟨Sane.replace sane valid, step⟩) (fun _ _ => id) ⟨at'.2, healthy⟩
      have outside := rely_session rely
      refine ⟨outside.admitted, fun holds => ?_⟩
      rw [outside.stream, outside.poisoned]
      exact holds
    · obtain ⟨staged, same, healthy⟩ := holds
      refine ⟨same, ?_⟩
      unfold Coordinator.Staged at staged
      split at staged
      · rename_i accepted
        exact .inl ⟨by rw [accepted], healthy, staged.1, staged.2⟩
      · rename_i refused
        exact .inr ⟨⟨by simpa using refused, by simp⟩, staged⟩

/-- Whatever the projection answered, replay follows it. -/
theorem retain_kept {stream bytes : Bytes} {staging : Staging} {s : ProjectedSession}
    (sane : Sane lifetime s) (bounded : stream.length ≤ u64Max)
    (answered : Answered stream bytes staging s) (allocation : ReplayBuffer.Allocation) :
    Sane lifetime (s.retain bytes allocation (stream.length, stream.length) staging) ∧
      Level (s.retain bytes allocation (stream.length, stream.length) staging) := by
  obtain ⟨same, answer⟩ := answered
  have observed := Observed.output_valid sane.observed bytes staging allocation
  have produced := Observed.replay_end observed
  have published : s.projection.trace.admitted.flatten.length =
      s.projection.admission.status.published.offset := sane.projection.published
  have logged : ∀ call : Callback, Atomic call →
      ∀ other ∈ s.callbacks ++ [call], Atomic other := by
    intro call atomic other member
    rcases List.mem_append.mp member with old | new
    · exact sane.callbacks other old
    · rw [List.mem_singleton.mp new]
      exact atomic
  rcases answer with ⟨rfl, healthy, admitted, fits⟩ | ⟨refused, admitted⟩
  · obtain ⟨returned, grown⟩ :=
      Observed.output_accepted sane.observed bytes allocation healthy (by rw [same]; exact fits)
    rw [same] at grown
    rw [grown, List.length_append] at produced
    rw [admitted, List.length_append] at published
    refine ⟨⟨sane.projection, observed, logged _ ⟨?_, .inl ⟨returned, produced, published.symm⟩,
      fun _ => returned⟩⟩, ⟨admitted.trans grown.symm, ?_⟩⟩
    · exact produced.trans published
    · change (s.observed.output bytes (.answered .accepted) allocation).stream.length ≤ u64Max
      rw [grown, List.length_append]
      exact fits
  · obtain ⟨returned, unmoved⟩ := Observed.output_refused s.observed bytes allocation refused
    rw [unmoved, same] at produced
    rw [admitted] at published
    have replay : (s.observed.output bytes staging allocation).context.replay.endOffset =
        stream.length := by
      rw [unmoved]
      exact produced
    refine ⟨⟨sane.projection, observed, logged _ ⟨?_, .inr ⟨?_, replay, published.symm⟩,
      fun accepted => absurd accepted refused.1⟩⟩, ⟨?_, ?_⟩⟩
    · exact replay.trans published
    · change (s.observed.context.outputObserved bytes staging allocation).1 = _ ∨
        (s.observed.context.outputObserved bytes staging allocation).1 = _
      cases answer : (s.observed.context.outputObserved bytes staging allocation).1 with
      | accepted => exact absurd answer returned
      | backpressure => exact .inl rfl
      | closed => exact .inr rfl
    · change s.projection.trace.admitted.flatten = (s.observed.output bytes staging allocation).stream
      rw [unmoved, same, admitted]
    · change (s.observed.output bytes staging allocation).stream.length ≤ u64Max
      rw [unmoved, same]
      exact bounded

theorem outputObserved_spec (bytes : Bytes) (available : Bool)
    (allocation : ReplayBuffer.Allocation) :
    ((lockstep lifetime).discipline .session).Triple Level
      (outputObserved bytes available allocation) fun _ => Level := by
  intro s level
  -- Both sides have the same stream here, and only this callback can extend either.
  have callback : ((lockstep lifetime).discipline .session).Triple (At s.observed.stream)
      (outputObserved bytes available allocation) fun _ => Level := by
    refine Discipline.Triple.bind (Q := fun (began : Nat × Nat) t => At s.observed.stream t ∧
      began = (s.observed.stream.length, s.observed.stream.length))
      (.look session_guar_refl fun t sane at' => ⟨at', at'.ends sane⟩) fun began => ?_
    rintro t ⟨at', rfl⟩
    refine (stage_spec s.observed.stream bytes level.bounded available).bind (fun staging =>
      .update fun u sane answered => ?_) t at'
    obtain ⟨kept, levelled⟩ := retain_kept sane level.bounded answered allocation
    exact ⟨kept, .inl rfl, levelled⟩
  exact callback s ⟨level.stream, rfl⟩

theorem besides_stream (step : Observed.Step) (s : Observed) : (besides step s).stream = s.stream := by
  cases step with
  | attach id position =>
    simp only [besides, Observed.step, Observed.attach]
    split
    · rfl
    · split <;> rfl
  | take id waker =>
    simp only [besides, Observed.step, Observed.take]
    split
    · rfl
    · split
      · rfl
      · split <;> rfl
  | finish id =>
    simp only [besides, Observed.step, Observed.finish]
    split
    · rfl
    · split <;> rfl
  | output | report | otherSessions | poison | register | dropWait | detach => rfl

theorem besides_valid {s : Observed} (valid : s.Valid lifetime) (step : Observed.Step) :
    (besides step s).Valid lifetime := by
  have kept := Observed.step_valid valid step
  cases step with
  | output => exact valid
  | report | otherSessions | poison | register | attach | take | finish | dropWait | detach => exact kept

instance : ((lockstep lifetime).discipline .session).Stable Level where
  keep rely level := level.outside (rely_session rely)

theorem besides_spec (step : Observed.Step) :
    ((lockstep lifetime).discipline .session).Triple Level
      (update fun s => { s with observed := besides step s.observed } :
        Thread ProjectedSession Answer Unit) fun _ => Level := by
  refine .update fun s sane level => ⟨⟨sane.projection, besides_valid sane.observed step,
    sane.callbacks⟩, .inl rfl, ?_, ?_⟩
  · exact level.stream.trans (besides_stream step s.observed).symm
  · change (besides step s.observed).stream.length ≤ u64Max
    rw [besides_stream]
    exact level.bounded

theorem silenced_each (request : Call) : (silenced request).Each Bystands := by
  have bystands := call_bystands request
  cases request with
  | stageOutput bytes => exact Each.pure _
  | _ => exact bystands fun _ same => by cases same

theorem lockstep_sound : (lockstep lifetime).Sound where
  steady role s s' step idle := by
    cases role with
    | worker => exact meddles_idle (others_worker step) idle
    | session => exact Level.outside idle (others_session step)
  holder role program entered := by
    cases role with
    | worker =>
      obtain ⟨owner, rfl⟩ := entered
      exact worker_spec owner
    | session =>
      rcases entered with ⟨bytes, available, allocation, rfl⟩ | ⟨step, rfl⟩
      · exact outputObserved_spec bytes available allocation
      · exact besides_spec step
  caller program called := by
    rcases called with ⟨request, rfl⟩ | ⟨replayUsed, observersUsed, rfl⟩
    · refine Contract.caller_of_each ((silenced_each request).lift fun s c step sane => ?_)
      exact ⟨Sane.replace sane (step.valid sane.projection), step, step.admitted, rfl, rfl⟩
    · refine Contract.caller_of_each (Each.update fun s sane =>
        ⟨⟨sane.projection, ?_, sane.callbacks⟩, .inl rfl, rfl, rfl, rfl⟩)
      exact Observed.step_valid sane.observed (.otherSessions replayUsed observersUsed)

theorem event_allowed (event : Event) : (lockstep lifetime).Allows event.choice := by
  cases event with
  | run owner => exact ⟨owner, rfl⟩
  | work answer => trivial
  | output bytes available allocation => exact .inl ⟨bytes, available, allocation, rfl⟩
  | session step => exact .inr ⟨step, rfl⟩
  | advance answer => trivial
  | call request => exact .inl ⟨request, rfl⟩
  | otherSessions replayUsed observersUsed => exact .inr ⟨replayUsed, observersUsed, rfl⟩
  | resume index answer => trivial

/-- A session that has just been spawned with its projection bound. -/
def spawned (context : SessionContext) (c : Coordinator) : ProjectedSession where
  observed := .new context
  projection := c

/-- Replay and projection stay in lockstep. Whenever no one holds the state mutex both
have the same output, and every completed callback advanced both or neither; what
the projection accepted, replay never refused. -/
theorem replay_follows_projection {config : ProjectionConfig} {now identity : Nat} {c : Coordinator}
    (created : create lifetime config now identity = .ok c) (replayBytes maxObservers pageBytes : Nat)
    (observers replayQuota : Quota) (events : List Event) :
    let session := (spawned (.new lifetime replayBytes maxObservers pageBytes observers replayQuota)
      c).after events
    (session.held .session = none →
        session.shared.observed.context.replay.endCursor.offset =
            session.shared.projection.admission.status.published.offset ∧
          session.shared.observed.stream = session.shared.projection.trace.admitted.flatten) ∧
      ∀ call ∈ session.shared.callbacks, Atomic call := by
  intro session
  have started : (lockstep lifetime).Kept (.start (spawned
      (.new lifetime replayBytes maxObservers pageBytes observers replayQuota) c)) := by
    obtain ⟨valid, idle⟩ := create_idle created
    refine Contract.kept_start ⟨valid, Observed.new_valid .., fun _ member => by cases member⟩
      fun role => ?_
    cases role with
    | worker => exact idle
    | session =>
      refine ⟨?_, Nat.zero_le _⟩
      change c.trace.admitted.flatten = []
      rw [create_trace created]
      rfl
  have kept : (lockstep lifetime).Kept session := by
    refine started.run lockstep_sound fun choice member => ?_
    obtain ⟨event, -, rfl⟩ := List.mem_map.mp member
    exact event_allowed event
  refine ⟨fun free => ?_, kept.inv.callbacks⟩
  have level : Level session.shared := kept.idle .session free
  refine ⟨?_, level.stream.symm⟩
  exact congrArg (fun ends : Nat × Nat => ends.1 = ends.2)
    (At.ends kept.inv ⟨level.stream, rfl⟩) |>.mpr rfl

/-- One chunk is accepted, the next refused for want of a staging slot, and the third
accepted in the middle of a run. -/
def callbackSchedule : List Event :=
  .output [65, 66] true (some 0) :: List.replicate 12 (.advance sampleAnswer) ++
    .output [67] true none :: List.replicate 12 (.advance { sampleAnswer with granted := false }) ++
    .run .run :: List.replicate 20 (.work sampleAnswer) ++
    .output [68] true none :: List.replicate 12 (.advance sampleAnswer)

set_option maxRecDepth 4000 in
theorem replay_follows_projection_callbacks :
    let session := (spawned (.new ⟨1, 1⟩ 8192 4 4096 ⟨8, 0⟩ ⟨65536, 0⟩) sample).after callbackSchedule
    session.shared.callbacks.map (·.returned) = [.accepted, .backpressure, .accepted] ∧
      session.shared.observed.context.replay.endCursor.offset =
        session.shared.projection.admission.status.published.offset ∧
      session.shared.projection.admission.status.published.offset = 3 ∧
      ∀ call ∈ session.shared.callbacks, Atomic call := by
  obtain ⟨level, atomic⟩ := replay_follows_projection sample_created 8192 4 4096 ⟨8, 0⟩ ⟨65536, 0⟩
    callbackSchedule
  exact ⟨rfl, (level rfl).1, rfl, atomic⟩

end ProjectedSession
end PtyRuntime
