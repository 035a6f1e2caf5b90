import PtyRuntime.Application.Projection.Callers
import PtyRuntime.Domain.Projection.PolicySteps

/-! The part of a projection that parking, conservation of output and failure are
about, what other threads may do to it in one step, and the facts that every step
of everyone keeps. -/
namespace PtyRuntime

/-- The job in flight is a parking commit for this attempt. -/
def PendingIo.attempt? : PendingIo → Option ParkAttempt
  | .commit attempt _ _ _ => some attempt
  | _ => none

def PendingIo.restores : PendingIo → Bool
  | .restore _ _ => true
  | _ => false

/-- Mailboxes, tickets, journal, program status and deletions are left out. -/
structure Core where
  policy : ProjectionPolicy
  queue : List Command
  terminal : Bool
  source : Option CheckpointDescriptor
  commit : Option ParkAttempt
  restore : Bool
  reply : Bool
  resize : Bool
  owed : Bool
  handle : Bool
  mutation : Bool
  compatibility : String
  trace : Trace

def Coordinator.core (c : Coordinator) : Core where
  policy := c.admission.policy
  queue := c.admission.queue
  terminal := c.workspace.terminal.isSome
  source := c.workspace.source.map (·.descriptor)
  commit := c.workspace.io.bind PendingIo.attempt?
  restore := c.workspace.io.any PendingIo.restores
  reply := c.workspace.reply.isSome
  resize := c.workspace.resize.isSome
  owed := c.workspace.historyStepOwed
  handle := c.wiring.handle
  mutation := c.config.mutationDuringRestore
  compatibility := c.config.compatibility
  trace := c.trace

namespace Core

def residency (k : Core) : Residency := k.policy.status.residency

def closing (k : Core) : Bool := k.residency.isClosing

/-- Failed, closing or closed: nothing is promised about the workspace any more. -/
def Down (k : Core) : Prop := k.residency = .failed ∨ k.closing = true

/-- The queued output chunks, in queue order. -/
def outputs (k : Core) : List Bytes := k.queue.filterMap Command.output?

/-- The chunks that have left the queue and not come back. -/
def taken (k : Core) : List Bytes := k.trace.applied ++ k.trace.hand.toList

/-- The exact version a checkpoint encoded now would have. -/
def descriptor (k : Core) : CheckpointDescriptor where
  compatibility := k.compatibility
  processed := k.policy.status.processed
  controlGeneration := k.policy.status.controlGeneration

/-- Everything other threads can do in one step, but for admitting output. -/
inductive Disturbance : Core → Core → Prop where
  | resize {k : Core} (size : TerminalSize) (ticket : TicketId) (now : Nat)
      (policy : ProjectionPolicy) (recorded : k.policy.recordActivity now = (.ok (), policy)) :
      Disturbance k { k with
        policy
        queue := k.queue ++ [.resize size ticket]
        trace := { k.trace with since := k.trace.since + 1 } }
  | push {k : Core} (command : Command) (inert : command.mutates = false) :
      Disturbance k { k with queue := k.queue ++ [command] }
  | fail {k : Core} (error : ProjectionError) :
      Disturbance k { k with
        policy := k.policy.fail error, queue := k.queue.filter (·.isOutput) }
  | close {k : Core} : Disturbance k { k with policy := k.policy.close, queue := [] }

inductive Interference : Core → Core → Prop where
  | disturb {k k' : Core} (disturbance : Disturbance k k') : Interference k k'
  | output {k : Core} (bytes : Bytes) (now : Nat) (policy : ProjectionPolicy)
      (admitted : k.policy.admitOutput bytes.length now = (.ok (), policy)) :
      Interference k { k with
        policy, queue := k.queue ++ [.output bytes], trace := k.trace.queued bytes }

/-- What the worker may count on across a step of another thread. The first fields
say that only the worker touches what is its own. -/
structure Beside (k k' : Core) : Prop where
  workspace : k'.terminal = k.terminal ∧ k'.source = k.source ∧ k'.commit = k.commit ∧
    k'.restore = k.restore ∧ k'.reply = k.reply ∧ k'.resize = k.resize ∧ k'.owed = k.owed
  fixed : k'.handle = k.handle ∧ k'.mutation = k.mutation ∧ k'.compatibility = k.compatibility
  trace : k'.trace.applied = k.trace.applied ∧ k'.trace.hand = k.trace.hand ∧
    k'.trace.fed = k.trace.fed ∧ k'.trace.poised = k.trace.poised ∧
    k'.trace.encoded = k.trace.encoded
  version : k'.policy.status.processed = k.policy.status.processed ∧
    k'.policy.status.controlGeneration = k.policy.status.controlGeneration
  residency : k'.residency = k.residency ∨ k'.Down
  down : k.Down → k'.Down
  closing : k.closing = true → k'.closing = true
  failure : k.policy.status.failure.isSome → k'.policy.status.failure.isSome
  failed : k'.residency = .failed →
    k.residency = .failed ∨ k'.policy.status.failure.isSome
  activity : k.policy.activity ≤ k'.policy.activity
  quiet : k'.policy.activity = k.policy.activity →
    k'.policy.status.published = k.policy.status.published ∧ k'.trace.since = k.trace.since ∧
      ∀ command ∈ k'.queue, command.mutates → command ∈ k.queue
  admitted : ∃ new, k'.trace.admitted = k.trace.admitted ++ new ∧
    k'.policy.status.published.offset = k.policy.status.published.offset + new.flatten.length ∧
    (k'.closing = false → k'.outputs = k.outputs ++ new)

theorem recordActivity_ok {p q : ProjectionPolicy} {now : Nat}
    (recorded : p.recordActivity now = (.ok (), q)) :
    p.status.residency.isClosing = false ∧ q.status = p.status ∧ q.activity = p.activity + 1 := by
  rcases p.recordActivity_cases now with ⟨error, refused⟩ | ⟨alive, active⟩
  · cases refused.symm.trans recorded
  · cases active.symm.trans recorded
    exact ⟨alive, rfl, rfl⟩

theorem admitOutput_ok {p q : ProjectionPolicy} {bytes now : Nat}
    (recorded : p.admitOutput bytes now = (.ok (), q)) :
    p.status.residency.isClosing = false ∧ p.status.published.offset + bytes ≤ u64Max ∧
      q.activity = p.activity + 1 ∧ q.status = { p.status with
        published := { p.status.published with offset := p.status.published.offset + bytes } } := by
  rcases p.admitOutput_cases bytes now with ⟨error, refused⟩ | ⟨alive, fits, admitted⟩
  · cases refused.symm.trans recorded
  · cases admitted.symm.trans recorded
    exact ⟨alive, fits, rfl, rfl⟩

theorem filterMap_filter_output (queue : List Command) :
    (queue.filter (·.isOutput)).filterMap Command.output? = queue.filterMap Command.output? := by
  rw [List.filterMap_filter]
  congr 1
  funext command
  cases command <;> rfl

theorem output?_inert {command : Command} (inert : command.mutates = false) :
    command.output? = none := by
  cases command <;> simp_all [Command.mutates, Command.output?]

theorem close_residency (p : ProjectionPolicy) : p.close.status.residency.isClosing = true := by
  rcases p.close_cases with ⟨closed, same⟩ | ⟨-, closing⟩
  · rw [same, closed]
    rfl
  · rw [closing]
    rfl

theorem close_frame (p : ProjectionPolicy) :
    p.close.activity = p.activity ∧ p.close.status.failure = p.status.failure ∧
      p.close.status.processed = p.status.processed ∧
      p.close.status.published = p.status.published ∧
      p.close.status.controlGeneration = p.status.controlGeneration := by
  rcases p.close_cases with ⟨-, same⟩ | ⟨-, closing⟩
  · rw [same]
    exact ⟨rfl, rfl, rfl, rfl, rfl⟩
  · rw [closing]
    exact ⟨rfl, rfl, rfl, rfl, rfl⟩

theorem Interference.beside_output {k : Core} {bytes : Bytes} {now : Nat}
    {policy : ProjectionPolicy} (accepted : k.policy.admitOutput bytes.length now = (.ok (), policy)) :
    Beside k { k with
      policy, queue := k.queue ++ [.output bytes], trace := k.trace.queued bytes } := by
  obtain ⟨alive, -, moved, status⟩ := admitOutput_ok accepted
  constructor <;> simp_all [Core.residency, Core.closing, Down, outputs, Trace.queued,
    List.filterMap_append, Command.output?]

theorem Disturbance.beside {k k' : Core} (step : Disturbance k k') : Beside k k' := by
  cases step with
  | resize size ticket now policy recorded =>
    obtain ⟨alive, status, moved⟩ := recordActivity_ok recorded
    constructor <;> simp_all [Core.residency, Core.closing, Down, outputs,
      List.filterMap_append, Command.output?]
  | push command inert =>
    constructor <;> simp_all [Core.residency, Core.closing, Down, outputs,
      List.filterMap_append, output?_inert inert]
    rintro other (queued | rfl) mutates
    · exact queued
    · simp_all
  | fail error =>
    by_cases ended : k.policy.status.residency.isClosing = true
    · rw [ProjectionPolicy.fail_closing ended]
      constructor <;> simp_all [Core.residency, Core.closing, Down, outputs,
        filterMap_filter_output]
    · rw [ProjectionPolicy.fail_open (by simpa using ended)]
      constructor <;> simp_all [Core.residency, Core.closing, Down, outputs,
        filterMap_filter_output]
  | close =>
    have ended := close_residency k.policy
    obtain ⟨activity, failure, processed, published, control⟩ := close_frame k.policy
    constructor <;> simp_all [Core.residency, Core.closing, Down]
    intro failed
    simp [failed, Residency.isClosing] at ended

theorem Interference.beside {k k' : Core} (step : Interference k k') : Beside k k' := by
  cases step with
  | disturb disturbance => exact disturbance.beside
  | output bytes now policy admitted => exact beside_output admitted

/-- An attempt whose activity has not moved still describes a quiet projection at
its own version. -/
structure Attempted (attempt : ParkAttempt) (k : Core) : Prop where
  within : attempt.activity ≤ k.policy.activity
  quiet : attempt.activity = k.policy.activity →
    k.trace.since = 0 ∧ (∀ command ∈ k.queue, command.mutates = false) ∧
      k.reply = false ∧ k.resize = false ∧
      k.policy.status.published = k.policy.status.processed ∧
      attempt.processed = k.policy.status.processed ∧
      attempt.controlGeneration = k.policy.status.controlGeneration

/-- Output is conserved, the native model has been fed a prefix of it, a failed
projection has its error, and a commit in flight is for an attempt that was quiet. -/
structure Valid (k : Core) : Prop where
  conserved : k.closing = false → k.trace.admitted = k.taken ++ k.outputs
  published : k.trace.admitted.flatten.length = k.policy.status.published.offset
  processed : k.trace.applied.flatten.length = k.policy.status.processed.offset
  fed : k.closing = false → ∃ part, k.trace.fed = k.trace.applied.flatten ++ part ∧
    part <+: (k.trace.hand.toList ++ k.outputs).flatten
  failed : k.residency = .failed → k.policy.status.failure.isSome
  registered : k.handle = false → k.closing = true
  attempted : ∀ attempt, k.commit = some attempt →
    Attempted attempt k ∧ k.trace.encoded = some (attempt.descriptor k.compatibility)

/-- An assertion of the worker that no other thread can falsify. -/
class Steady (A : Core → Prop) : Prop where
  keep : ∀ {k k' : Core}, Beside k k' → A k → A k'

instance Steady.and {A B : Core → Prop} [first : Steady A] [second : Steady B] :
    Steady fun k => A k ∧ B k where
  keep beside both := ⟨first.keep beside both.1, second.keep beside both.2⟩

instance : Steady Down where
  keep beside := beside.down

instance (attempt : ParkAttempt) : Steady (Attempted attempt) where
  keep {k k'} beside attempted := by
    constructor
    · exact attempted.within.trans beside.activity
    · intro current
      have unmoved : k'.policy.activity = k.policy.activity := by
        have := attempted.within
        have := beside.activity
        omega
      obtain ⟨published, since, queued⟩ := beside.quiet unmoved
      obtain ⟨zero, inert, reply, resize, level, processed, control⟩ :=
        attempted.quiet (current.trans unmoved)
      obtain ⟨-, -, -, -, sameReply, sameResize, -⟩ := beside.workspace
      refine ⟨since.trans zero, fun command member => ?_, sameReply.trans reply,
        sameResize.trans resize, ?_, ?_, ?_⟩
      · by_contra mutates
        have mutates : command.mutates = true := by simpa using mutates
        have quiet := inert command (queued command member mutates)
        simp [quiet] at mutates
      · rw [published, beside.version.1, level]
      · rw [beside.version.1, processed]
      · rw [beside.version.2, control]

theorem Valid.beside {k k' : Core} (valid : Valid k) (beside : Beside k k') : Valid k' := by
  obtain ⟨new, admitted, offset, outputs⟩ := beside.admitted
  obtain ⟨applied, hand, fed, poised, encoded⟩ := beside.trace
  obtain ⟨-, -, commit, -⟩ := beside.workspace
  obtain ⟨handle, -, compatibility⟩ := beside.fixed
  have wasOpen : k'.closing = false → k.closing = false := by
    intro ended
    by_contra closed
    have closed := beside.closing (by simpa using closed)
    simp [ended] at closed
  constructor
  · intro alive
    rw [admitted, valid.conserved (wasOpen alive), outputs alive, taken, taken, applied, hand]
    simp
  · rw [admitted, offset, ← valid.published]
    simp
  · rw [applied, beside.version.1, valid.processed]
  · intro alive
    obtain ⟨part, sofar, within⟩ := valid.fed (wasOpen alive)
    refine ⟨part, by rw [fed, applied, sofar], within.trans ?_⟩
    have grown : (k'.trace.hand.toList ++ k'.outputs).flatten =
        (k.trace.hand.toList ++ k.outputs).flatten ++ new.flatten := by
      rw [hand, outputs alive]
      simp
    rw [grown]
    exact List.prefix_append _ _
  · intro failed
    rcases beside.failed failed with before | recorded
    · exact beside.failure (valid.failed before)
    · exact recorded
  · intro gone
    exact beside.closing (valid.registered (handle ▸ gone))
  · intro attempt pending
    obtain ⟨attempted, version⟩ := valid.attempted attempt (commit ▸ pending)
    exact ⟨Steady.keep beside attempted, by rw [encoded, compatibility, version]⟩

end Core
end PtyRuntime
