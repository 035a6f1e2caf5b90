import PtyRuntime.Application.Projection.Creation
import PtyRuntime.Application.Projection.Schedule

/-! What an accepted configuration guarantees: with no lease outstanding, each reservation a
projected session can need fits. -/
namespace PtyRuntime
open Thread Tally

theorem ProjectionLimits.validate_ok {l accepted : ProjectionLimits} (valid : l.validate = .ok accepted) :
    l.stagingSlots ≠ 0 ∧ l.storedSlots ≠ 0 := by
  unfold validate at valid
  dsimp only at valid
  split at valid
  · cases valid
  rename_i bounded
  simp only [List.any_cons, Bool.or_eq_true, decide_eq_true_eq] at bounded
  omega

theorem RuntimeOptions.validate_ok {o : RuntimeOptions} (valid : o.validate = .ok ()) :
    o.inputSlots ≠ 0 ∧ o.projection.stagingSlots ≠ 0 ∧ o.projection.storedSlots ≠ 0 := by
  unfold validate at valid
  split at valid
  · cases valid
  rename_i bounded
  split at valid
  · cases valid
  rename_i limits
  obtain ⟨staging, stored⟩ := ProjectionLimits.validate_ok limits
  exact ⟨by omega, staging, stored⟩

theorem ProcessLimits.validate_ok {l : ProcessLimits} (valid : l.validate = .ok ()) :
    l.inputSlots ≠ 0 ∧ l.inputChunk ≤ l.inputBytes := by
  unfold validate at valid
  split at valid
  · cases valid
  · omega

theorem ProjectionOptions.validate_ok {o accepted : ProjectionOptions} {cellSize : Nat}
    (valid : o.validate cellSize = .ok accepted) :
    o.stagingSlots ≠ 0 ∧ o.terminal.replyBytes ≤ 1024 * 1024 ∧ o.terminal.feedBytes ≤ o.stagingBytes ∧
      o.stagingBytes ≤ isizeMax ∧ o.terminal.nativeBytes ≤ 1024 * 1024 * 1024 := by
  unfold validate at valid
  split at valid
  · cases valid
  rename_i terminal
  unfold TerminalConfig.validate at terminal
  split at terminal
  · cases terminal
  split at valid
  · cases valid
  refine ⟨?_, ?_, ?_, ?_, ?_⟩ <;> omega

theorem SessionOptions.validate_ok {o : SessionOptions} {runtime : RuntimeOptions} {cellSize : Nat}
    {projection : ProjectionOptions} (projected : o.projection = some projection)
    (valid : o.validate cellSize runtime = .ok ()) :
    (o.process.inputSlots ≠ 0 ∧ o.process.inputChunk ≤ o.process.inputBytes) ∧
      o.process.readChunk ≤ projection.terminal.feedBytes ∧ o.process.readChunk ≤ projection.stagingBytes ∧
      o.process.readChunk ≤ runtime.projection.stagingBytes ∧ projection.terminal.replyBytes ≤ runtime.inputBytes ∧
      projection.terminal.replyBytes ≤ o.process.inputChunk := by
  unfold validate at valid
  split at valid
  · cases valid
  rename_i process
  split at valid
  · cases valid
  rw [projected] at valid
  dsimp only at valid
  split at valid
  · cases valid
  split at valid
  · cases valid
  rename_i compared
  refine ⟨ProcessLimits.validate_ok process, ?_⟩
  simp only [not_or] at compared
  omega

namespace Coordinator

variable {lifetime : SessionLifetime} {options : ProjectionOptions} {limits : ProjectionLimits} {sizes : LayoutSizes}
  {resident rest : Quota} {a : CreationAnswer} {c : Coordinator}

theorem create_config {config : ProjectionConfig} {now identity : Nat}
    (created : create lifetime config now identity = .ok c) : c.config = config := by
  obtain ⟨policy, store, -, -, rfl⟩ := create_made created
  rfl

theorem reserveModel_ok {cellSize protectedBytes : Nat}
    (reserved : reserveModel options limits cellSize resident a = .ok (protectedBytes, rest)) :
    (∃ accepted, options.validate cellSize = .ok accepted) ∧
      protectedBytes + options.terminal.checkpointBytes ≤ min limits.checkpointBytes u64Max ∧
      protectedBytes ≤ min limits.storedBytes isizeMax ∧ options.terminal.nativeBytes ≤ resident.limit := by
  unfold reserveModel at reserved
  split at reserved
  · cases reserved
  rename_i accepted valid
  obtain rfl := ProjectionOptions.validate_eq valid
  split at reserved
  · cases reserved
  split at reserved
  · cases reserved
  · cases reserved
  split at reserved
  · cases reserved
  rename_i peak summed
  obtain ⟨bounded, rfl⟩ := checkedAdd_eq_some.mp summed
  split at reserved
  · cases reserved
  split at reserved
  · rename_i compared
    simp only [admits, Bool.and_eq_true, decide_eq_true_eq] at compared
    split at reserved
    · cases reserved
    rename_i granted
    obtain ⟨rfl, -⟩ := Prod.mk.inj (Except.ok.inj reserved)
    rw [Quota.acquire_eq] at granted
    split at granted
    · exact ⟨⟨_, valid⟩, by omega, by omega, by omega⟩
    · cases granted
  · cases reserved

/-- A projection that was created has passed every comparison, and its model was granted. -/
theorem createProjection_ok
    (created : createProjection lifetime options limits sizes resident a = .ok (c, rest)) :
    c.config.options = options ∧ (∃ accepted, options.validate sizes.cell = .ok accepted) ∧
      c.config.protectedBytes + options.terminal.checkpointBytes ≤ min limits.checkpointBytes u64Max ∧
      c.config.protectedBytes ≤ min limits.storedBytes isizeMax ∧ options.terminal.nativeBytes ≤ resident.limit := by
  unfold createProjection at created
  split at created
  · cases created
  rename_i reserved
  split at created
  · cases created
  split at created
  · cases created
  · cases created
  split at created
  · split at created
    · cases created
    rename_i made
    split at created
    · obtain ⟨rfl, rfl⟩ := Prod.mk.inj (Except.ok.inj created)
      rw [create_config made]
      exact ⟨rfl, reserveModel_ok reserved⟩
    · cases created
  · cases created

end Coordinator

/-- A configuration that passed every validator, and the projection that was created with it
on a runtime's counter of resident bytes. -/
structure Accepted (runtime : RuntimeOptions) (session : SessionOptions) (options : ProjectionOptions)
    (sizes : LayoutSizes) (c : Coordinator) : Prop where
  shared : runtime.validate = .ok ()
  own : session.validate sizes.cell runtime = .ok ()
  projected : session.projection = some options
  created : ∃ lifetime resident rest answer, resident.limit = runtime.projection.residentBytes ∧
    Coordinator.createProjection lifetime options runtime.projection sizes resident answer = .ok (c, rest)

/-- No call is under way on the runtime's counters, and nothing is charged to those that
these amounts are taken from. -/
structure Unoccupied (runtime : RuntimeOptions) (options : ProjectionOptions) (r : Reservations Counter)
    (pending : List (Counter × Nat)) : Prop where
  calls : r.tasks = []
  limits : ∀ q, (r.quotas q).limit = q.limit runtime options
  vacant : ∀ entry ∈ pending, (r.quotas entry.1).used = 0

theorem Unoccupied.room {runtime : RuntimeOptions} {options : ProjectionOptions} {r : Reservations Counter}
    {pending : List (Counter × Nat)} (unoccupied : Unoccupied runtime options r pending)
    (fits : ∀ entry ∈ pending, total (amount entry.1) pending ≤ min (entry.1.limit runtime options) u64Max) :
    r.Room pending := by
  intro entry member
  rw [unoccupied.vacant entry member, unoccupied.limits, Nat.zero_add]
  exact fits entry member

namespace Accepted

variable {runtime : RuntimeOptions} {session : SessionOptions} {options : ProjectionOptions} {sizes : LayoutSizes}
  {c : Coordinator} {r : Reservations Counter}

theorem grants_staging (accepted : Accepted runtime session options sizes c) {count : Nat}
    (chunk : count ≤ session.process.readChunk) (owner : Nat)
    (unoccupied : Unoccupied runtime options r (Want.amounts (Coordinator.stagingWants count))) :
    r.Grants owner (Coordinator.stagingWants count) := by
  obtain ⟨-, slots, -⟩ := RuntimeOptions.validate_ok accepted.shared
  obtain ⟨-, -, local_bytes, bytes, -⟩ := SessionOptions.validate_ok accepted.projected accepted.own
  obtain ⟨lifetime, resident, rest, answer, -, created⟩ := accepted.created
  obtain ⟨-, ⟨_, valid⟩, -⟩ := Coordinator.createProjection_ok created
  obtain ⟨local_slots, -, -, bounded, -⟩ := ProjectionOptions.validate_ok valid
  have fits : ∀ entry ∈ Want.amounts (Coordinator.stagingWants count),
      total (amount entry.1) (Want.amounts (Coordinator.stagingWants count)) ≤
        min (entry.1.limit runtime options) u64Max := by
    rw [isizeMax] at bounded
    simp [Coordinator.stagingWants_amounts, amount, Counter.limit, u64Max]
    omega
  exact Reservations.grants unoccupied.calls owner (unoccupied.room fits)

/-- Parking takes both buffers of the job before an identity slot and its bytes. -/
theorem grants_park (accepted : Accepted runtime session options sizes c) (owner : Nat)
    (unoccupied : Unoccupied runtime options r
      (Want.amounts (Coordinator.parkWants options.terminal c.config.protectedBytes))) :
    r.Grants owner (Coordinator.parkWants options.terminal c.config.protectedBytes) := by
  obtain ⟨-, -, slots⟩ := RuntimeOptions.validate_ok accepted.shared
  obtain ⟨lifetime, resident, rest, answer, -, created⟩ := accepted.created
  obtain ⟨-, -, peak, stored, -⟩ := Coordinator.createProjection_ok created
  have fits : ∀ entry ∈ Want.amounts (Coordinator.parkWants options.terminal c.config.protectedBytes),
      total (amount entry.1) (Want.amounts (Coordinator.parkWants options.terminal c.config.protectedBytes)) ≤
        min (entry.1.limit runtime options) u64Max := by
    rw [isizeMax] at stored
    rw [u64Max] at peak
    simp [Coordinator.parkWants_amounts, amount, Counter.limit, u64Max]
    omega
  exact Reservations.grants unoccupied.calls owner (unoccupied.room fits)

/-- Restoring takes both buffers of the job before the model's bytes. -/
theorem grants_restore (accepted : Accepted runtime session options sizes c) (owner : Nat)
    (unoccupied : Unoccupied runtime options r
      (Want.amounts (Coordinator.restoreWants options.terminal c.config.protectedBytes))) :
    r.Grants owner (Coordinator.restoreWants options.terminal c.config.protectedBytes) := by
  obtain ⟨lifetime, resident, rest, answer, limit, created⟩ := accepted.created
  obtain ⟨-, ⟨_, valid⟩, peak, -, native⟩ := Coordinator.createProjection_ok created
  obtain ⟨-, -, -, -, bounded⟩ := ProjectionOptions.validate_ok valid
  have fits : ∀ entry ∈ Want.amounts (Coordinator.restoreWants options.terminal c.config.protectedBytes),
      total (amount entry.1) (Want.amounts (Coordinator.restoreWants options.terminal c.config.protectedBytes)) ≤
        min (entry.1.limit runtime options) u64Max := by
    rw [limit] at native
    rw [u64Max] at peak
    simp [Coordinator.restoreWants_amounts, amount, Counter.limit, u64Max]
    omega
  exact Reservations.grants unoccupied.calls owner (unoccupied.room fits)

/-- A reply is charged one slot and its bytes. -/
theorem grants_reply (accepted : Accepted runtime session options sizes c) {count : Nat}
    (reply : count ≤ options.terminal.replyBytes) (owner : Nat)
    (unoccupied : Unoccupied runtime options r [(.inputSlots, 1), (.inputBytes, count)]) :
    r.GrantsInput owner .inputBytes .inputSlots count := by
  obtain ⟨slots, -, -⟩ := RuntimeOptions.validate_ok accepted.shared
  obtain ⟨-, -, -, -, bytes, -⟩ := SessionOptions.validate_ok accepted.projected accepted.own
  obtain ⟨lifetime, resident, rest, answer, -, created⟩ := accepted.created
  obtain ⟨-, ⟨_, valid⟩, -⟩ := Coordinator.createProjection_ok created
  obtain ⟨-, bounded, -⟩ := ProjectionOptions.validate_ok valid
  have fits : ∀ entry ∈ [(Counter.inputSlots, 1), (Counter.inputBytes, count)],
      total (amount entry.1) [(Counter.inputSlots, 1), (Counter.inputBytes, count)] ≤
        min (entry.1.limit runtime options) u64Max := by
    simp [amount, Counter.limit, u64Max]
    omega
  exact Reservations.grants_input unoccupied.calls owner (unoccupied.room fits)

/-- A reply is admitted by its process if nothing is queued there. -/
theorem writes_reply (accepted : Accepted runtime session options sizes c) {s : ProcessSession} {reply : Bytes}
    (limits : s.limits = session.process.input) (idle : s.input = [] ∧ s.bytes = 0 ∧ s.closed = false)
    (bounded : reply.length ≤ options.terminal.replyBytes) (now : Nat) : (s.writeReserved reply now).1 = .ok () := by
  obtain ⟨⟨slots, chunk⟩, -, -, -, -, admitted⟩ := SessionOptions.validate_ok accepted.projected accepted.own
  obtain ⟨input, bytes, closed⟩ := idle
  have room : ¬(s.limits.inputChunk < reply.length ∨ s.limits.inputSlots ≤ s.input.length ∨
      s.limits.inputBytes - s.bytes < reply.length) := by
    rw [limits, input, bytes]
    simp only [ProcessLimits.input, List.length_nil]
    omega
  simp [ProcessSession.writeReserved, closed, room]

end Accepted

namespace Coordinator

/-- What the admission lock decides about a chunk it has the leases and the buffer for. -/
theorem offerOutput_queued {c : Coordinator} {bytes : Bytes} {answer : Answer} (nonempty : bytes ≠ [])
    (alive : c.admission.closing = false) (services : c.wiring.services = true)
    (undrained : c.admission.outputDrain = none) (bounded : bytes.length ≤ c.config.options.terminal.feedBytes)
    (position : c.admission.status.published.offset + bytes.length ≤ u64Max)
    (activity : c.admission.policy.activity + 1 ≤ u64Max)
    (granted : answer.granted = true) (allocated : answer.allocated = true) :
    (c.offerOutput bytes answer).1 = .queued := by
  have recorded : (c.admission.admitOutputBytes bytes.length answer.now).1 = .ok () := by
    have open' : c.admission.policy.status.residency.isClosing = false := alive
    have published : c.admission.policy.status.published.offset + bytes.length ≤ u64Max := position
    simp [Admission.admitOutputBytes, Admission.withPolicy, ProjectionPolicy.admitOutput,
      ProjectionPolicy.recordActivity, open', checkedAdd, published, activity]
  have decided : (c.acceptOutput bytes answer.granted answer.allocated answer.now c.admission).1 =
      .queue (.output bytes) := by
    rw [acceptOutput, alive, undrained, granted, allocated, services]
    simp only [Bool.false_eq_true, if_false, Option.isSome_none, nonempty, Nat.not_lt.mpr bounded, Bool.not_true,
      Bool.or_self]
    split
    · rename_i refused
      rw [refused] at recorded
      cases recorded
    · rfl
  rw [offerOutput, Admission.admitOutput]
  cases accepted : c.acceptOutput bytes answer.granted answer.allocated answer.now c.admission with
  | mk decision admission =>
    rw [accepted] at decided
    obtain rfl : decision = _ := decided
    rfl

theorem wakeOrFail_alone (c : Coordinator) (woken : Answer) :
    ∃ c', wakeOrFail.alone c (if c.wiring.handle then [woken] else []) = some ((), c') := by
  have refused (inputs : List Answer) (later : (wake.alone c inputs) = some (.error .worker, c)) :
      ∃ c', wakeOrFail.alone c inputs = some ((), c') := by
    obtain ⟨c', failed⟩ := fail_alone .worker c
    exact ⟨c', by rw [wakeOrFail, ← List.append_nil inputs, alone_bind later]; exact failed⟩
  cases handle : c.wiring.handle with
  | false =>
    refine refused [] ?_
    change (if c.wiring.handle then _ else _ : Work _).alone c [] = _
    rw [handle]
    rfl
  | true =>
    have waked : wake.alone c [woken] = some (if woken.woken then .ok () else .error .worker, c) := by
      change (if c.wiring.handle then _ else _ : Work _).alone c [woken] = _
      rw [handle]
      rfl
    cases woken' : woken.woken with
    | false =>
      rw [woken'] at waked
      exact refused _ waked
    | true =>
      rw [woken'] at waked
      refine ⟨c, ?_⟩
      rw [wakeOrFail]
      exact (congrArg (fun inputs => (wake >>= _ : Work Unit).alone c inputs) (List.append_nil [woken]).symm).trans
        (alone_bind waked)

theorem stageOutput_accepts {c : Coordinator} {bytes : Bytes} {answer : Answer} (services : c.wiring.services = true)
    (queued : ({ c with stallGeneration := answer.generation }.offerOutput bytes answer).1 = .queued)
    (woken : Answer) :
    ∃ c', (stageOutput bytes).alone c (answer :: if c.wiring.handle then [woken] else []) = some (.accepted, c') := by
  cases offered : ({ c with stallGeneration := answer.generation } : Coordinator).offerOutput bytes answer with
  | mk outcome next =>
    rw [offered] at queued
    obtain rfl : outcome = _ := queued
    have wired : next.wiring = c.wiring := by
      have same := congrArg (fun offer => offer.2.wiring) offered
      rw [← same, offerOutput]
      dsimp only
      split <;> rfl
    obtain ⟨c', ended⟩ := wakeOrFail_alone next woken
    rw [wired] at ended
    refine ⟨c', ?_⟩
    change (if c.wiring.services then _ else _ : Work _).alone c _ = _
    rw [services]
    change (admitOutput bytes answer >>= _ : Work OutputAcceptance).alone
      { c with stallGeneration := answer.generation } _ = _
    have admitted : (admitOutput bytes answer).alone { c with stallGeneration := answer.generation } [] =
        some (.queued, next) := congrArg some offered
    rw [← List.nil_append (if c.wiring.handle then [woken] else []), alone_bind admitted,
      ← List.append_nil (if c.wiring.handle then [woken] else [])]
    exact alone_bind ended

end Coordinator

/-- With an accepted configuration, on counters that nothing is charged to: any chunk the
reader can bring gets its staging leases and, with them and a buffer, is accepted as long as
the projection is open and undrained and its position and activity can still count it; any
reply the terminal can make is admitted by the runtime's input counters and by an idle
process; and parking and restoring get the leases they take. -/
theorem accepted_configuration {runtime : RuntimeOptions} {session : SessionOptions} {options : ProjectionOptions}
    {sizes : LayoutSizes} {created : Coordinator} (accepted : Accepted runtime session options sizes created)
    (owner : Nat) :
    (∀ bytes : Bytes, bytes ≠ [] → bytes.length ≤ session.process.readChunk →
      (∀ r, Unoccupied runtime options r (Want.amounts (Coordinator.stagingWants bytes.length)) →
        r.Grants owner (Coordinator.stagingWants bytes.length)) ∧
      ∀ (c : Coordinator) (answer woken : Answer), c.config = created.config → c.admission.closing = false →
        c.wiring.services = true → c.admission.outputDrain = none →
        c.admission.status.published.offset + bytes.length ≤ u64Max → c.admission.policy.activity + 1 ≤ u64Max →
        answer.granted = true → answer.allocated = true →
        ∃ c', (Coordinator.stageOutput bytes).alone c (answer :: if c.wiring.handle then [woken] else []) =
          some (.accepted, c')) ∧
    (∀ reply : Bytes, reply.length ≤ options.terminal.replyBytes →
      (∀ r, Unoccupied runtime options r [(.inputSlots, 1), (.inputBytes, reply.length)] →
        r.GrantsInput owner .inputBytes .inputSlots reply.length) ∧
      ∀ (s : ProcessSession) (now : Nat), s.limits = session.process.input →
        s.input = [] ∧ s.bytes = 0 ∧ s.closed = false → (s.writeReserved reply now).1 = .ok ()) ∧
    (∀ r, Unoccupied runtime options r
        (Want.amounts (Coordinator.parkWants options.terminal created.config.protectedBytes)) →
      r.Grants owner (Coordinator.parkWants options.terminal created.config.protectedBytes)) ∧
    ∀ r, Unoccupied runtime options r
        (Want.amounts (Coordinator.restoreWants options.terminal created.config.protectedBytes)) →
      r.Grants owner (Coordinator.restoreWants options.terminal created.config.protectedBytes) := by
  refine ⟨fun bytes nonempty chunk => ⟨fun r => accepted.grants_staging chunk owner, ?_⟩,
    fun reply bounded => ⟨fun r => accepted.grants_reply bounded owner, ?_⟩,
    fun r => accepted.grants_park owner, fun r => accepted.grants_restore owner⟩
  · intro c answer woken config alive services undrained position activity granted allocated
    obtain ⟨-, feed, -⟩ := SessionOptions.validate_ok accepted.projected accepted.own
    obtain ⟨lifetime, resident, rest, creation, -, made⟩ := accepted.created
    obtain ⟨same, -⟩ := Coordinator.createProjection_ok made
    have bounded : bytes.length ≤ c.config.options.terminal.feedBytes := by
      rw [config, same]
      exact chunk.trans feed
    exact Coordinator.stageOutput_accepts services
      (Coordinator.offerOutput_queued nonempty alive services undrained bounded position activity granted allocated) woken
  · intro s now limits idle
    exact accepted.writes_reply limits idle bounded now

/-- One cell, and a view budget above everything creation compares it with. -/
def crampedRuntime : RuntimeOptions where
  projection := { viewBytes := 32768 }

def crampedOptions : ProjectionOptions :=
  .new { TerminalConfig.new .single with viewBytes := 1 }

def crampedSession : SessionOptions where
  size := .single
  projection := some crampedOptions

def crampedSizes : LayoutSizes where
  cell := 56
  mutation := 120
  record := 88

def crampedAnswer : CreationAnswer where
  protectedSize := some (.ok (8 * 1024 * 1024 + 40))
  compatibility := .ok "engine-1"

def cramped : Coordinator where
  journal := .new ⟨1, 1⟩
  config := {
    options := crampedOptions
    compatibility := "engine-1"
    protectedBytes := 8 * 1024 * 1024 + 40
    storedBytes := 1024 * 1024 * 1024
    storedSlots := 4096
    mutationDuringRestore := false
    viewLimit := 32768
    cellSize := 56
    mutationSize := 120
    recordSize := 88 }
  admission := {
    policy := {
      status := {
        published := ⟨⟨1, 1⟩, 0⟩
        processed := ⟨⟨1, 1⟩, 0⟩
        controlGeneration := .initial
        residency := .resident
        history := .complete
        skippedHistoryPages := 0
        failure := none
        parkingFailure := none }
      options := crampedOptions
      activity := 0
      operation := 0
      lastActivity := 0
      retryAt := 0
      attempts := 0 } }
  workspace := {
    config := crampedOptions.terminal
    terminal := some {}
    reaper := { maxAttempts := 3 } }
  programStatus := { store := some { identity := 0, limit := 256 } }
  disk := {
    stored := { limit := 1024 * 1024 * 1024, used := 0 }
    storedSlots := { limit := 4096, used := 0 } }

theorem cramped_created :
    Coordinator.createProjection ⟨1, 1⟩ crampedOptions crampedRuntime.projection crampedSizes
      ⟨1024 * 1024 * 1024, 0⟩ crampedAnswer = .ok (cramped, ⟨1024 * 1024 * 1024, 8 * 1024 * 1024⟩) := by
  have reserved : Coordinator.reserveModel crampedOptions crampedRuntime.projection crampedSizes.cell
      ⟨1024 * 1024 * 1024, 0⟩ crampedAnswer = .ok (8 * 1024 * 1024 + 40, ⟨1024 * 1024 * 1024, 8 * 1024 * 1024⟩) := by
    decide
  rw [Coordinator.createProjection, reserved]
  rfl

theorem cramped_accepted : Accepted crampedRuntime crampedSession crampedOptions crampedSizes cramped :=
  ⟨by decide, by decide, rfl, ⟨1, 1⟩, ⟨1024 * 1024 * 1024, 0⟩, ⟨1024 * 1024 * 1024, 8 * 1024 * 1024⟩, crampedAnswer, rfl,
    cramped_created⟩

/-- The runtime of the cramped session before anything else is charged. -/
def crampedCounters : Reservations Counter := .new (·.limit crampedRuntime crampedOptions) .observers .replay

theorem cramped_unoccupied (pending : List (Counter × Nat)) :
    Unoccupied crampedRuntime crampedOptions crampedCounters pending where
  calls := rfl
  limits _ := rfl
  vacant _ _ := rfl

theorem accepted_configuration_cramped :
    (∃ c', (Coordinator.stageOutput [0x1b]).alone cramped [{}, {}] = some (.accepted, c')) ∧
      crampedCounters.Grants 0 (Coordinator.stagingWants 1) ∧
      crampedCounters.GrantsInput 0 .inputBytes .inputSlots 10 ∧
      ((ProcessSession.new crampedSession.process.input).writeReserved programStatusReply 0).1 = .ok () ∧
      crampedCounters.Grants 0 (Coordinator.parkWants crampedOptions.terminal (8 * 1024 * 1024 + 40)) ∧
      crampedCounters.Grants 0 (Coordinator.restoreWants crampedOptions.terminal (8 * 1024 * 1024 + 40)) := by
  have law := accepted_configuration cramped_accepted 0
  refine ⟨?_, ?_, ?_, ?_, law.2.2.1 _ (cramped_unoccupied _), law.2.2.2 _ (cramped_unoccupied _)⟩
  · exact (law.1 [0x1b] (by decide) (by decide)).2 cramped {} {} rfl rfl rfl rfl (by decide) (by decide) rfl rfl
  · exact (law.1 [0x1b] (by decide) (by decide)).1 _ (cramped_unoccupied _)
  · exact (law.2.1 programStatusReply (by decide)).1 _ (cramped_unoccupied _)
  · exact (law.2.1 programStatusReply (by decide)).2 _ 0 rfl ⟨rfl, rfl, rfl⟩

set_option maxRecDepth 8000 in
/-- The configuration is accepted and the chunk is staged. Whatever the quotas grant, the
memory its scan may take is above the whole view budget, so the projection fails for
capacity, with the chunk neither fed nor taken. -/
theorem escape_never_fits :
    Accepted crampedRuntime crampedSession crampedOptions crampedSizes cramped ∧
      (∀ scan records reply planBytes, (Coordinator.prepareStatus cramped.config cramped.programStatus [0x1b]
        crampedOptions.terminal.replyBytes scan records reply planBytes = .error (.failed .capacity))) ∧
      (cramped.after (Coordinator.wholeCall 0 (.stageOutput [0x1b]) {} ++
        Coordinator.wholeRun {})).shared.admission.status.failure = some .capacity ∧
      (cramped.after (Coordinator.wholeCall 0 (.stageOutput [0x1b]) {} ++
        Coordinator.wholeRun {})).shared.admission.queue = [.output [0x1b]] ∧
      (cramped.after (Coordinator.wholeCall 0 (.stageOutput [0x1b]) {} ++
        Coordinator.wholeRun {})).shared.trace.fed = [] :=
  ⟨cramped_accepted, fun _ _ _ _ => rfl, rfl, rfl, rfl⟩

end PtyRuntime
