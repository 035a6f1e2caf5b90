import PtyRuntime.Application.Projection.Discipline

/-! What the worker asserts between its steps, when such an assertion survives the
other threads, and what a step has to show to keep its promises. -/
namespace PtyRuntime
open Thread PtyRuntime.Core

namespace Core

theorem Shape.of_down {k : Core} (down : k.Down) : Shape k := by
  constructor
  · rintro (same | same) <;> simp [Down, closing, same, Residency.isClosing] at down
  · intro same
    simp [Down, closing, same, Residency.isClosing] at down
  · intro same
    simp [Down, closing, same, Residency.isClosing] at down
  · intro same
    simp [Down, closing, same, Residency.isClosing] at down
  · exact fun _ => .inr down

instance : Steady Shape where
  keep {k k'} beside shape := by
    rcases beside.residency with same | down
    · obtain ⟨terminal, source, -, restore, reply, resize, -⟩ := beside.workspace
      have version : k'.descriptor = k.descriptor := by
        simp only [descriptor, beside.version, beside.fixed]
      constructor
      · rw [same, terminal, source]
        exact shape.live
      · rw [same, terminal, source, reply, resize, version]
        exact shape.parked
      · rw [same, terminal, source]
        exact shape.usable
      · rw [same, terminal, source, restore]
        exact shape.restoring
      · rw [restore, same]
        exact fun inflight => (shape.inflight inflight).imp id beside.down
    · exact Shape.of_down down

instance : Steady Idle where
  keep {k k'} beside idle := by
    obtain ⟨applied, hand, fed, poised, -⟩ := beside.trace
    constructor
    · rw [hand, idle.empty]
    · rw [poised, idle.calm]
    · exact Steady.keep beside idle.shape
    · rw [fed, applied]
      exact idle.clean.imp id beside.down

theorem Idle.of_down {k : Core} (empty : k.trace.hand = none) (calm : k.trace.poised = false)
    (down : k.Down) : Idle k := ⟨empty, calm, .of_down down, .inr down⟩

theorem not_down_of {k : Core} {residency : Residency} (seen : k.residency = residency)
    (alive : residency ≠ .failed ∧ residency.isClosing = false) : ¬k.Down := by
  rintro (failed | ended)
  · exact alive.1 (seen.symm.trans failed)
  · simp [closing, seen, alive.2] at ended

theorem closing_of {k : Core} {residency : Residency} (seen : k.residency = residency)
    (alive : residency.isClosing = false) : k.closing = false := by
  rw [closing, seen, alive]

/-- The shape of the workspace does not depend on the queue, a commit in flight or
the trace. -/
theorem Shape.behind {k : Core} (shape : Shape k) (queue : List Command) (commit : Option ParkAttempt)
    (trace : Trace) : Shape { k with queue, commit, trace } :=
  ⟨shape.live, shape.parked, shape.usable, shape.restoring, shape.inflight⟩

/-- A live model excludes the parked and the restoring workspace. -/
theorem Shape.of_live {k k' : Core} (shape : Shape k) (terminal : k.terminal = true)
    (residency : k'.residency = k.residency) (sameTerminal : k'.terminal = k.terminal)
    (source : k'.source = k.source) (restore : k'.restore = k.restore) : Shape k' := by
  have down : k.Down → k'.Down := by
    simp only [Down, closing, residency]
    exact id
  constructor
  · rw [residency, sameTerminal, source]
    exact shape.live
  · intro parked
    have gone := (shape.parked (residency ▸ parked)).1
    rw [terminal] at gone
    cases gone
  · rw [residency, sameTerminal, source]
    exact shape.usable
  · rw [residency, sameTerminal, source, restore]
    exact shape.restoring
  · rw [restore, residency]
    exact fun inflight => (shape.inflight inflight).imp id down

/-- The shape of the workspace depends on the residency and the version only. -/
theorem Shape.of_status {k : Core} (shape : Shape k) {policy : ProjectionPolicy}
    (residency : policy.status.residency = k.residency)
    (processed : policy.status.processed = k.policy.status.processed)
    (control : policy.status.controlGeneration = k.policy.status.controlGeneration) :
    Shape { k with policy } := by
  have same : ({ k with policy } : Core).residency = k.residency := residency
  have version : ({ k with policy } : Core).descriptor = k.descriptor := by
    simp only [Core.descriptor, processed, control]
  constructor
  · rw [same]
    exact shape.live
  · rw [same, version]
    exact shape.parked
  · rw [same]
    exact shape.usable
  · rw [same]
    exact shape.restoring
  · rw [Down, closing, same]
    exact shape.inflight

/-- The shape of a live model that is not being restored. -/
theorem Shape.of_resident {k : Core} (resident : k.residency = .resident ∨ k.residency = .parking)
    (terminal : k.terminal = true) (source : k.source = none) (free : k.restore = false) :
    Shape k := by
  constructor
  · exact fun _ => ⟨terminal, source⟩
  · intro parked
    rcases resident with seen | seen <;> cases seen.symm.trans parked
  · intro usable
    rcases resident with seen | seen <;> cases seen.symm.trans usable
  · intro restoring
    rcases resident with seen | seen <;> cases seen.symm.trans restoring
  · intro inflight
    cases free.symm.trans inflight

/-- The shape of a released model. -/
theorem Shape.of_parked {k : Core} (parked : k.residency = .parked) (terminal : k.terminal = false)
    (source : k.source = some k.descriptor) (quiet : k.reply = false ∧ k.resize = false)
    (free : k.restore = false) : Shape k := by
  constructor
  · rintro (resident | parking)
    · cases parked.symm.trans resident
    · cases parked.symm.trans parking
  · exact fun _ => ⟨terminal, source, quiet⟩
  · intro usable
    cases parked.symm.trans usable
  · intro restoring
    cases parked.symm.trans restoring
  · intro inflight
    cases free.symm.trans inflight

/-- The shape while the source is being read back. -/
theorem Shape.of_restoring {k : Core} (restoring : k.residency = .restoring)
    (terminal : k.terminal = false) (source : k.source.isSome) (inflight : k.restore = true) :
    Shape k := by
  constructor
  · rintro (resident | parking)
    · cases restoring.symm.trans resident
    · cases restoring.symm.trans parking
  · intro parked
    cases restoring.symm.trans parked
  · intro usable
    cases restoring.symm.trans usable
  · exact fun _ => ⟨terminal, source, inflight⟩
  · exact fun _ => .inl restoring

/-- The shape of a restored model whose history is not complete. -/
theorem Shape.of_usable {k : Core} (usable : k.residency = .usable) (terminal : k.terminal = true)
    (source : k.source.isSome) (free : k.restore = false) : Shape k := by
  constructor
  · rintro (resident | parking)
    · cases usable.symm.trans resident
    · cases usable.symm.trans parking
  · intro parked
    cases usable.symm.trans parked
  · exact fun _ => ⟨terminal, source⟩
  · intro restoring
    cases usable.symm.trans restoring
  · intro inflight
    cases free.symm.trans inflight

/-- A restore is in flight only while the residency says so. -/
theorem Shape.unrestored {k : Core} (shape : Shape k) (alive : ¬k.Down)
    (seen : k.residency ≠ .restoring) : k.restore = false := by
  apply Bool.eq_false_iff.mpr
  intro inflight
  rcases shape.inflight inflight with restoring | down
  · exact seen restoring
  · exact alive down

/-- Without a live model and without a restore in flight, an idle projection is
parked or down. -/
theorem Idle.parked {k : Core} (idle : Idle k) (detached : k.terminal = false) (free : k.restore = false) :
    (k.residency = .parked ∧ k.source.isSome) ∨ k.Down := by
  cases seen : k.residency with
  | resident => simp [(idle.shape.live (.inl seen)).1] at detached
  | parking => simp [(idle.shape.live (.inr seen)).1] at detached
  | parked => exact .inl ⟨rfl, by rw [(idle.shape.parked seen).2.1]; rfl⟩
  | restoring => simp [(idle.shape.restoring seen).2.2] at free
  | usable => simp [(idle.shape.usable seen).1] at detached
  | failed => exact .inr (.inl seen)
  | closing => exact .inr (.inr (by simp [Core.closing, seen, Residency.isClosing]))
  | closed => exact .inr (.inr (by simp [Core.closing, seen, Residency.isClosing]))

/-- A commit in flight can no longer land. -/
def Stale (k : Core) : Prop := ∀ attempt, k.commit = some attempt →
  attempt.activity < k.policy.activity

instance : Steady Stale where
  keep beside stale attempt pending :=
    (stale attempt (beside.workspace.2.2.1 ▸ pending)).trans_le beside.activity

/-- Between commands, with a live model. -/
structure Live (k : Core) : Prop where
  idle : Idle k
  terminal : k.terminal = true

instance : Steady Live where
  keep beside live := ⟨Steady.keep beside live.idle, beside.workspace.1.trans live.terminal⟩

/-- The residency observed when the run began, unless the projection went down. -/
def Seen (residency : Residency) (k : Core) : Prop := k.residency = residency ∨ k.Down

instance (residency : Residency) : Steady (Seen residency) where
  keep {k k'} beside seen := by
    rcases seen with seen | down
    · exact beside.residency.imp (fun same => same.trans seen) id
    · exact .inr (beside.down down)

def ReplyIs (b : Bool) (k : Core) : Prop := k.reply = b

instance (b : Bool) : Steady (ReplyIs b) where
  keep beside := beside.workspace.2.2.2.2.1.trans

def ResizeIs (b : Bool) (k : Core) : Prop := k.resize = b

instance (b : Bool) : Steady (ResizeIs b) where
  keep beside := beside.workspace.2.2.2.2.2.1.trans

/-- Nothing of the engine is outstanding, unless the projection is closing. -/
def Quiet (k : Core) : Prop := (k.reply = false ∧ k.resize = false) ∨ k.closing = true

instance : Steady Quiet where
  keep beside quiet := by
    unfold Quiet
    rw [beside.workspace.2.2.2.2.1, beside.workspace.2.2.2.2.2.1]
    exact quiet.imp id beside.closing

def TerminalIs (b : Bool) (k : Core) : Prop := k.terminal = b

instance (b : Bool) : Steady (TerminalIs b) where
  keep beside := beside.workspace.1.trans

/-- No commit and no restore is in flight. -/
def IoFree (k : Core) : Prop := k.commit = none ∧ k.restore = false

instance : Steady IoFree where
  keep beside free :=
    ⟨beside.workspace.2.2.1.trans free.1, beside.workspace.2.2.2.1.trans free.2⟩

/-- Nothing is in hand and the model has been fed exactly what is counted. -/
structure Clear (k : Core) : Prop where
  empty : k.trace.hand = none
  calm : k.trace.poised = false
  clean : k.trace.fed = k.trace.applied.flatten ∨ k.Down

instance : Steady Clear where
  keep beside clear := {
    empty := beside.trace.2.1.trans clear.empty
    calm := beside.trace.2.2.2.1.trans clear.calm
    clean := by
      rw [beside.trace.2.2.1, beside.trace.1]
      exact clear.clean.imp id beside.down }

theorem Idle.clear {k : Core} (idle : Idle k) : Clear k := ⟨idle.empty, idle.calm, idle.clean⟩

theorem Clear.idle {k : Core} (clear : Clear k) (shape : Shape k) : Idle k :=
  ⟨clear.empty, clear.calm, shape, clear.clean⟩

theorem Clear.idle_of_down {k : Core} (clear : Clear k) (down : k.Down) : Idle k :=
  .of_down clear.empty clear.calm down

/-- Clearness only depends on the trace and on whether the projection is up. -/
theorem Clear.of_policy {k k' : Core} (clear : Clear k) (trace : k'.trace = k.trace)
    (down : k.Down → k'.Down) : Clear k' := by
  constructor
  · rw [trace, clear.empty]
  · rw [trace, clear.calm]
  · rw [trace]
    exact clear.clean.imp id down

theorem Live.of_live {k k' : Core} (live : Live k) (trace : k'.trace = k.trace)
    (policy : k'.policy = k.policy) (terminal : k'.terminal = k.terminal)
    (source : k'.source = k.source) (restore : k'.restore = k.restore) : Live k' := by
  have residency : k'.residency = k.residency := by rw [Core.residency, policy, Core.residency]
  refine ⟨⟨?_, ?_, live.idle.shape.of_live live.terminal residency terminal source restore, ?_⟩, ?_⟩
  · rw [trace, live.idle.empty]
  · rw [trace, live.idle.calm]
  · rw [trace, Down, closing, residency]
    exact live.idle.clean
  · rw [terminal, live.terminal]

/-- What the worker owes when it leaves the trace and the live model alone. -/
theorem Owes.of_trace {k k' : Core} (trace : k'.trace = k.trace)
    (published : k'.policy.status.published = k.policy.status.published)
    (closing : k.closing = true → k'.closing = true)
    (terminal : k'.terminal = k.terminal)
    (parked : k.residency = .parking → k'.residency ≠ .parked)
    (failure : k.policy.status.failure.isSome → k'.policy.status.failure.isSome) : Owes k k' where
  admitted := ⟨by rw [trace], published⟩
  closing := closing
  release before after := absurd after (parked before)
  drop before after := by rw [terminal, before] at after; cases after
  frozen failed calm _ := by
    refine ⟨failure failed, by rw [trace, calm], ?_, .inl (by rw [trace])⟩
    simp only [taken, trace, List.prefix_rfl]

/-- What the worker owes when it neither parks nor drops the model. -/
theorem Owes.of_residency {k k' : Core} (residency : k'.residency = k.residency)
    (terminal : k'.terminal = k.terminal) (admitted : k'.trace.admitted = k.trace.admitted)
    (published : k'.policy.status.published = k.policy.status.published)
    (frozen : k.policy.status.failure.isSome → k.trace.poised = false → k'.closing = false →
      k'.policy.status.failure.isSome ∧ k'.trace.poised = false ∧ k'.taken <+: k.taken ∧
        (k'.trace.fed = k.trace.fed ∨ k'.trace.fed <+: k.taken.flatten)) : Owes k k' where
  admitted := ⟨admitted, published⟩
  closing ended := by rw [Core.closing, residency]; exact ended
  release before after := by rw [residency, before] at after; cases after
  drop before after := by rw [terminal, before] at after; cases after
  frozen := frozen

/-- What the worker owes when it leaves the policy alone as well. -/
theorem Owes.of_policy {k k' : Core} (policy : k'.policy = k.policy) (trace : k'.trace = k.trace)
    (terminal : k'.terminal = k.terminal) : Owes k k' := by
  have residency : k'.residency = k.residency := by rw [Core.residency, policy, Core.residency]
  refine .of_trace trace (by rw [policy]) (fun ended => ?_) terminal (fun before after => ?_) ?_
  · rw [Core.closing, residency]
    exact ended
  · rw [residency, before] at after
    cases after
  · rw [policy]
    exact id

theorem Disturbance.owes_fail (k : Core) (error : ProjectionError) :
    Owes k { k with policy := k.policy.fail error, queue := k.queue.filter (·.isOutput) } := by
  have beside := (Disturbance.fail (k := k) error).beside
  refine Owes.of_trace rfl ?_ beside.closing rfl (fun parking parked => ?_) beside.failure
  · by_cases ended : k.policy.status.residency.isClosing = true
    · rw [ProjectionPolicy.fail_closing ended]
    · rw [ProjectionPolicy.fail_open (by simpa using ended)]
  · rcases beside.residency with same | down
    · rw [same, parking] at parked
      cases parked
    · simp [Down, Core.closing, parked, Residency.isClosing] at down

/-- A commit that can no longer land asks nothing of the state. -/
theorem Stale.attempted {k k' : Core} (stale : Stale k) (valid : Valid k)
    (commit : k'.commit = k.commit) (activity : k'.policy.activity = k.policy.activity)
    (encoded : k'.trace.encoded = k.trace.encoded)
    (compatibility : k'.compatibility = k.compatibility) (attempt : ParkAttempt)
    (pending : k'.commit = some attempt) :
    Attempted attempt k' ∧ k'.trace.encoded = some (attempt.descriptor k'.compatibility) := by
  rw [commit] at pending
  have older : attempt.activity < k'.policy.activity := activity ▸ stale attempt pending
  refine ⟨⟨older.le, fun current => absurd current older.ne⟩, ?_⟩
  rw [encoded, compatibility]
  exact (valid.attempted attempt pending).2

/-- Queued or outstanding mutations outdate a commit in flight. -/
theorem Valid.stale {k : Core} (valid : Valid k)
    (mutating : k.reply = true ∨ k.resize = true ∨ ∃ command ∈ k.queue, command.mutates = true) :
    Stale k := by
  intro attempt pending
  obtain ⟨attempted, -⟩ := valid.attempted attempt pending
  refine lt_of_le_of_ne attempted.within fun current => ?_
  obtain ⟨-, inert, reply, resize, -⟩ := attempted.quiet current
  rcases mutating with replying | resizing | ⟨command, member, mutates⟩
  · simp [replying] at reply
  · simp [resizing] at resize
  · simp [inert command member] at mutates

/-- A policy step that moves no position, no activity and no end of the projection. -/
theorem Valid.of_policy {k : Core} (valid : Valid k) {policy : ProjectionPolicy}
    (positions : policy.status.published = k.policy.status.published ∧
      policy.status.processed = k.policy.status.processed ∧
      policy.status.controlGeneration = k.policy.status.controlGeneration)
    (activity : policy.activity = k.policy.activity)
    (closing : policy.status.residency.isClosing = k.closing)
    (failed : policy.status.residency = .failed → policy.status.failure.isSome) :
    Valid { k with policy } := by
  obtain ⟨published, processed, control⟩ := positions
  constructor
  · exact fun alive => valid.conserved (closing.symm.trans alive)
  · change _ = policy.status.published.offset
    rw [published, ← valid.published]
  · change _ = policy.status.processed.offset
    rw [processed, ← valid.processed]
  · exact fun alive => valid.fed (closing.symm.trans alive)
  · exact failed
  · exact fun gone => closing.trans (valid.registered gone)
  · intro attempt pending
    obtain ⟨attempted, version⟩ := valid.attempted attempt pending
    refine ⟨⟨?_, fun current => ?_⟩, version⟩
    · change _ ≤ policy.activity
      rw [activity]
      exact attempted.within
    · obtain ⟨since, inert, reply, resize, level, same, sameControl⟩ :=
        attempted.quiet (current.trans activity)
      refine ⟨since, inert, reply, resize, ?_, ?_, ?_⟩
      · change policy.status.published = policy.status.processed
        rw [published, processed, level]
      · exact same.trans processed.symm
      · exact sameControl.trans control.symm

/-- Who owns the model, and what is being restored, is no part of the invariant. -/
theorem Valid.workspace {k : Core} (valid : Valid k) (terminal : Bool)
    (source : Option CheckpointDescriptor) (restore owed : Bool) :
    Valid { k with terminal, source, restore, owed } :=
  { valid with
    attempted := fun attempt pending =>
      let ⟨attempted, version⟩ := valid.attempted attempt pending
      ⟨⟨attempted.within, attempted.quiet⟩, version⟩ }

/-- Starting an operation of the engine is safe once no commit can land. -/
theorem operate_kept {k : Core} (valid : Valid k) (live : Live k) (stale : Stale k)
    (reply resize : Bool) :
    Valid { k with reply, resize } ∧ Owes k { k with reply, resize } ∧
      Live { k with reply, resize } :=
  ⟨{ valid with attempted := stale.attempted valid rfl rfl rfl rfl }, .of_policy rfl rfl rfl,
    live.of_live rfl rfl rfl rfl rfl⟩

/-- Finishing an operation of the engine leaves the projection no less quiet. -/
theorem settleOperation_kept {k : Core} (valid : Valid k) (idle : Idle k) {reply resize : Bool}
    (noReply : k.reply = false → reply = false) (noResize : k.resize = false → resize = false) :
    Valid { k with reply, resize } ∧ Owes k { k with reply, resize } ∧
      Idle { k with reply, resize } := by
  refine ⟨{ valid with attempted := fun attempt pending => ?_ }, .of_policy rfl rfl rfl,
    ⟨idle.empty, idle.calm, { idle.shape with parked := fun parked => ?_ }, idle.clean⟩⟩
  · obtain ⟨attempted, version⟩ := valid.attempted attempt pending
    refine ⟨⟨attempted.within, fun current => ?_⟩, version⟩
    obtain ⟨since, inert, replied, resized, rest⟩ := attempted.quiet current
    exact ⟨since, inert, noReply replied, noResize resized, rest⟩
  · obtain ⟨terminal, source, replied, resized⟩ := idle.shape.parked parked
    exact ⟨terminal, source, noReply replied, noResize resized⟩

end Core

namespace Coordinator

section Asides

variable {A : Core → Prop} [Steady A]

theorem services_spec : Spec A services fun _ => A := Spec.glance

theorem status_spec : Spec A status fun _ => A := Spec.glance

theorem completeTicket_spec (ticket : TicketId) (result : Except ProjectionError TicketValue) :
    Spec A (completeTicket ticket result) fun _ => A := Spec.asideUpdate fun _ => rfl

theorem ticketCancelled_spec (ticket : TicketId) : Spec A (ticketCancelled ticket) fun _ => A :=
  Spec.glance

theorem onJournal_spec (f : Journal → List Waker × Journal) : Spec A (onJournal f) fun _ => A :=
  Spec.asideUpdate fun _ => rfl

theorem failRequest_spec (request : SnapshotRequest) (error : ProjectionError) :
    Spec A (failRequest request error) fun _ => A := by
  cases request <;> exact completeTicket_spec _ _

theorem failCommand_spec (command : Command) (error : ProjectionError) :
    Spec A (failCommand command error) fun _ => A := by
  cases command with
  | output bytes => exact Spec.skip
  | processExited => exact Spec.skip
  | resize size ticket => exact completeTicket_spec _ _
  | view ticket => exact completeTicket_spec _ _
  | checkpoint request => exact failRequest_spec _ _

theorem failCommands_spec (commands : List Command) (error : ProjectionError) :
    Spec A (failCommands commands error) fun _ => A := by
  induction commands with
  | nil => exact Spec.skip
  | cons command rest ih => exact (failCommand_spec command error).bind fun _ => ih

/-- The worker's own failure is one of the things others may do anyway. -/
theorem fail_spec (error : ProjectionError) : Spec A (fail error) fun _ k => A k ∧ k.Down := by
  have recorded : Spec A (locked (·.fail error)) fun _ k => A k ∧ k.Down := by
    apply Spec.lock
    intro c valid holds
    have beside := (Disturbance.fail (k := c.core) error).beside
    refine ⟨valid.beside beside, Disturbance.owes_fail c.core error, Steady.keep beside holds, ?_⟩
    by_cases ended : c.core.closing = true
    · exact .inr (beside.closing ended)
    · refine .inl ?_
      have alive : c.admission.policy.status.residency.isClosing = false :=
        Bool.eq_false_iff.mpr ended
      change (c.admission.policy.fail error).status.residency = .failed
      rw [ProjectionPolicy.fail_open alive]
  exact recorded.bind fun _ => (onJournal_spec _).bind fun _ => failCommands_spec _ _

/-- An engine call that can only answer or panic ends well or fails the projection. -/
theorem nativeCall_spec {α : Type} (answer : Answer → Option (Except TerminalError α)) :
    Spec A (nativeCall answer) fun result k => A k ∧
      ((∀ a error, answer a ≠ some (.error error)) → ∀ error, result = .error error → k.Down) := by
  apply Spec.input.bind
  intro a
  rcases answered : answer a with _ | (error | value)
  · exact (fail_spec _).bind fun _ => Spec.pure fun k holds => ⟨holds.1, fun _ _ _ => holds.2⟩
  · exact Spec.pure fun k holds => ⟨holds, fun total => absurd answered (total a error)⟩
  · exact Spec.pure fun k holds => ⟨holds, fun _ _ wrong => by cases wrong⟩

theorem nativeCall_keeps {α : Type} (answer : Answer → Option (Except TerminalError α)) :
    Spec A (nativeCall answer) fun _ => A :=
  (nativeCall_spec answer).weaken fun _ _ holds => holds.1

end Asides

theorem Spec.exists {α ι : Type} {A : ι → Core → Prop} {work : Work α} {B : α → Core → Prop}
    (each : ∀ i, Spec (A i) work B) : Spec (fun k => ∃ i, A i k) work B := by
  rintro c ⟨i, holds⟩
  exact each i c holds

end Coordinator
end PtyRuntime
