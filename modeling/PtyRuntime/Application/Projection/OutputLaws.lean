import PtyRuntime.Application.Projection.Assertions
import PtyRuntime.Domain.ProgramStatus.Splitting

/-! Feeding output keeps the worker's promises: whatever the engine and the other
threads do, a chunk is fed in place, counted once or put back, and nothing is left
in the worker's hand. -/
namespace PtyRuntime
open Thread PtyRuntime.Core

namespace Core

/-- The model has been fed the first `n` bytes of `bytes` past what is counted. -/
def FedTo (bytes : Bytes) (n : Nat) (k : Core) : Prop :=
  k.trace.fed = k.trace.applied.flatten ++ bytes.take n ∨ k.closing = true

instance (bytes : Bytes) (n : Nat) : Steady (FedTo bytes n) where
  keep beside fed := by
    unfold FedTo
    rw [beside.trace.2.2.1, beside.trace.1]
    exact fed.imp id beside.closing

/-- The worker holds a dequeued chunk and has fed the first `n` of its bytes. -/
structure Held (bytes : Bytes) (n : Nat) (k : Core) : Prop where
  hand : k.trace.hand = some bytes
  calm : k.trace.poised = false
  shape : Shape k
  terminal : k.terminal = true
  stale : Stale k
  fed : FedTo bytes n k

instance (bytes : Bytes) (n : Nat) : Steady (Held bytes n) where
  keep beside held := {
    hand := beside.trace.2.1.trans held.hand
    calm := beside.trace.2.2.2.1.trans held.calm
    shape := Steady.keep beside held.shape
    terminal := beside.workspace.1.trans held.terminal
    stale := Steady.keep beside held.stale
    fed := Steady.keep beside held.fed }

/-- The chunk is back in the queue, or was dropped because the projection closes. -/
structure Returned (bytes : Bytes) (n : Nat) (k : Core) : Prop where
  empty : k.trace.hand = none
  calm : k.trace.poised = false
  shape : Shape k
  terminal : k.terminal = true
  fed : FedTo bytes n k

instance (bytes : Bytes) (n : Nat) : Steady (Returned bytes n) where
  keep beside returned := {
    empty := beside.trace.2.1.trans returned.empty
    calm := beside.trace.2.2.2.1.trans returned.calm
    shape := Steady.keep beside returned.shape
    terminal := beside.workspace.1.trans returned.terminal
    fed := Steady.keep beside returned.fed }

/-- The state a put-back chunk leaves. -/
def putBack (k : Core) (bytes : Bytes) : Core :=
  { k with
    queue := if k.closing then k.queue else .output bytes :: k.queue
    trace := { k.trace with hand := none } }

theorem putBack_kept {bytes : Bytes} {n : Nat} {k : Core} (valid : Valid k) (held : Held bytes n k) :
    Valid (k.putBack bytes) ∧ Owes k (k.putBack bytes) ∧ Returned bytes n (k.putBack bytes) := by
  refine ⟨?_, ?_, ⟨rfl, held.calm, held.shape.behind _ _ _, held.terminal, held.fed⟩⟩
  · refine { valid with
      conserved := fun alive => ?_
      fed := fun alive => ?_
      attempted := held.stale.attempted valid rfl rfl rfl rfl }
    · have alive : k.closing = false := alive
      have conserved := valid.conserved alive
      simp_all [taken, outputs, putBack, held.hand, Command.output?]
    · have alive : k.closing = false := alive
      obtain ⟨part, sofar, within⟩ := valid.fed alive
      refine ⟨part, sofar, ?_⟩
      simpa [outputs, putBack, alive, held.hand, Command.output?] using within
  · refine .of_residency rfl rfl rfl rfl fun failed calm _ => ⟨failed, calm, ?_, .inl rfl⟩
    simp [taken, putBack]

theorem take_append_slice (bytes : Bytes) {n m : Nat} (le : n ≤ m) :
    bytes.take n ++ (bytes.take m).drop n = bytes.take m := by
  have start : bytes.take n = (bytes.take m).take n := by rw [List.take_take, Nat.min_eq_left le]
  rw [start, List.take_append_drop]

theorem Held.fed_open {bytes : Bytes} {n : Nat} {k : Core} (held : Held bytes n k)
    (alive : k.closing = false) : k.trace.fed = k.trace.applied.flatten ++ bytes.take n := by
  rcases held.fed with sofar | ended
  · exact sofar
  · rw [alive] at ended
    cases ended

/-- The state after giving the next bytes of the held chunk to the model. -/
def feedSlice (k : Core) (bytes : Bytes) (n m : Nat) : Core :=
  { k with trace := { k.trace with fed := k.trace.fed ++ (bytes.take m).drop n } }

theorem feedSlice_kept {bytes : Bytes} {n m : Nat} {k : Core} (valid : Valid k)
    (held : Held bytes n k) (le : n ≤ m) :
    Valid (k.feedSlice bytes n m) ∧ Owes k (k.feedSlice bytes n m) ∧
      Held bytes m (k.feedSlice bytes n m) := by
  have grown : k.closing = false →
      (k.feedSlice bytes n m).trace.fed = k.trace.applied.flatten ++ bytes.take m := by
    intro alive
    rw [feedSlice, held.fed_open alive, List.append_assoc, take_append_slice bytes le]
  refine ⟨?_, ?_, ⟨held.hand, held.calm, held.shape.of_live held.terminal rfl rfl rfl rfl,
    held.terminal, held.stale, ?_⟩⟩
  · refine { valid with
      fed := fun alive => ⟨bytes.take m, grown alive, ?_⟩
      attempted := held.stale.attempted valid rfl rfl rfl rfl }
    have held' : (k.feedSlice bytes n m).trace.hand = some bytes := held.hand
    rw [held', Option.toList_some, List.singleton_append, List.flatten_cons]
    exact (List.take_prefix m bytes).trans (List.prefix_append _ _)
  · refine .of_residency rfl rfl rfl rfl fun failed calm alive =>
      ⟨failed, calm, List.prefix_rfl, .inr ?_⟩
    rw [grown alive, taken, held.hand, Option.toList_some, List.flatten_append,
      List.flatten_singleton]
    exact (List.prefix_append_right_inj _).mpr (List.take_prefix m bytes)
  · by_cases ended : k.closing = true
    · exact .inr ended
    · exact .inl (grown (Bool.eq_false_iff.mpr ended))

/-- The state after counting the held chunk. -/
def count (k : Core) (bytes : Bytes) : Core :=
  { k with
    policy := { k.policy with
      status := { k.policy.status with
        processed := { k.policy.status.processed with
          offset := k.policy.status.processed.offset + bytes.length } } }
    trace := k.trace.apply bytes }

theorem count_kept {bytes : Bytes} {k : Core} (valid : Valid k) (held : Held bytes bytes.length k) :
    Valid (k.count bytes) ∧ Owes k (k.count bytes) ∧ Live (k.count bytes) ∧ Stale (k.count bytes) := by
  have counted : (k.count bytes).trace.applied.flatten = k.trace.applied.flatten ++ bytes := by
    simp [count, Trace.apply]
  have took : (k.count bytes).taken = k.taken := by
    simp [taken, count, Trace.apply, held.hand]
  have level : k.closing = false →
      (k.count bytes).trace.fed = (k.count bytes).trace.applied.flatten := by
    intro alive
    have whole := held.fed_open alive
    rw [List.take_length] at whole
    rw [counted]
    exact whole
  refine ⟨?_, ?_, ⟨⟨rfl, held.calm, held.shape.of_live held.terminal rfl rfl rfl rfl, ?_⟩,
    held.terminal⟩, held.stale⟩
  · refine { valid with
      conserved := fun alive => ?_
      processed := ?_
      fed := fun alive => ⟨[], by rw [level alive, List.append_nil], List.nil_prefix⟩
      attempted := held.stale.attempted valid rfl rfl rfl rfl }
    · rw [took]
      exact valid.conserved alive
    · rw [counted, List.length_append, valid.processed]
      rfl
  · exact .of_residency rfl rfl rfl rfl fun failed calm _ =>
      ⟨failed, calm, took ▸ List.prefix_rfl, .inl rfl⟩
  · by_cases ended : k.closing = true
    · exact .inr (.inr ended)
    · exact .inl (level (Bool.eq_false_iff.mpr ended))

end Core

namespace Coordinator

theorem core_advance (c : Coordinator) (admission : Admission) (trace : Trace) (order : OrderLog) :
    ({ c with admission, trace, order } : Coordinator).core =
      { c.core with policy := admission.policy, queue := admission.queue, trace } := rfl

theorem requeue_policy (a : Admission) (command : Command) :
    (a.requeue command).2.policy = a.policy := by
  unfold Admission.requeue
  split <;> rfl

theorem requeue_queue (a : Admission) (command : Command) :
    (a.requeue command).2.queue = if a.closing then a.queue else command :: a.queue := by
  unfold Admission.requeue
  split <;> rfl

theorem requeue_output_spec (bytes : Bytes) (n : Nat) :
    Spec (Held bytes n) (requeue (.output bytes)) fun _ => Returned bytes n := by
  refine Spec.bind (B := fun _ => Returned bytes n) (Spec.lock fun c valid held => ?_) fun refused => ?_
  · have became : ({ c with
        admission := (c.admission.requeue (.output bytes)).2
        trace := c.trace.release (.output bytes)
        order := c.order.release (.output bytes) } : Coordinator).core = c.core.putBack bytes := by
      rw [core_advance, requeue_policy, requeue_queue]
      rfl
    rw [became]
    exact putBack_kept valid held
  · cases refused with
    | none => exact Spec.skip
    | some command => exact failCommand_spec command _

theorem feed_spec (bytes : Bytes) {n m : Nat} (le : n ≤ m) :
    Spec (Held bytes n) (feed ((bytes.take m).drop n)) fun _ => Held bytes m := by
  refine Spec.bind (B := fun _ => Held bytes m) (Spec.update fun c valid held => ?_) fun _ =>
    nativeCall_keeps _
  exact feedSlice_kept valid held le

/-- What feeding a chunk leaves: all of it when every feed was taken. -/
def Fed (bytes : Bytes) (result : Except ProjectionError Bytes) (k : Core) : Prop :=
  match result with
  | .ok _ => Held bytes bytes.length k
  | .error _ => ∃ n, Held bytes n k

theorem feedStatusSlice_spec (bytes : Bytes) {n m : Nat} (le : n ≤ m) (aggregate : Bytes)
    (limit : Nat) :
    Spec (Held bytes n) (feedStatusSlice ((bytes.take m).drop n) aggregate limit)
      fun _ => Held bytes m := by
  apply (feed_spec bytes le).bind
  intro result
  cases result with
  | error e => exact Spec.skip
  | ok effects => exact Spec.skip

theorem feedQueries_spec (bytes : Bytes) (limit : Nat) (queries : List Nat) (start : Nat)
    (aggregate : Bytes) (sorted : queries.Pairwise (· < ·))
    (bounds : ∀ stop ∈ queries, start ≤ stop ∧ stop ≤ bytes.length) (within : start ≤ bytes.length) :
    Spec (Held bytes start) (feedQueries bytes limit start aggregate queries) (Fed bytes) := by
  induction queries generalizing start aggregate with
  | nil =>
    unfold feedQueries
    split
    · have rest := feedStatusSlice_spec bytes within aggregate limit
      rw [List.take_length] at rest
      apply rest.weaken
      intro result k held
      cases result with
      | error e => exact ⟨_, held⟩
      | ok effects => exact held
    · have ended : start = bytes.length := by omega
      subst ended
      exact Spec.pure fun _ => id
  | cons stop rest ih =>
    obtain ⟨later, sorted⟩ := List.pairwise_cons.mp sorted
    obtain ⟨before, inside⟩ := bounds stop List.mem_cons_self
    have bounds : ∀ next ∈ rest, stop ≤ next ∧ next ≤ bytes.length := fun next member =>
      ⟨(later next member).le, (bounds next (List.mem_cons_of_mem _ member)).2⟩
    unfold feedQueries
    apply (feedStatusSlice_spec bytes before aggregate limit).bind
    intro result
    cases result with
    | error e => exact Spec.pure fun k held => ⟨_, held⟩
    | ok aggregate =>
      simp only
      split
      · exact Spec.pure fun k held => ⟨_, held⟩
      · exact ih stop _ sorted bounds inside

theorem feedStatusSlices_spec (bytes : Bytes) (queries : List Nat) (limit : Nat)
    (sorted : queries.Pairwise (· < ·)) (bounds : ∀ stop ∈ queries, stop ≤ bytes.length) :
    Spec (Held bytes 0) (feedStatusSlices bytes queries limit) (Fed bytes) := by
  unfold feedStatusSlices
  split
  · have whole := feed_spec bytes (Nat.zero_le bytes.length)
    rw [List.take_length, List.drop_zero] at whole
    apply whole.bind
    intro result
    cases result with
    | error e => exact Spec.pure fun k held => ⟨_, held⟩
    | ok effects =>
      refine Spec.pure fun k held => ?_
      simp only [Fed]
      split
      · exact held
      · exact ⟨_, held⟩
  · exact feedQueries_spec bytes limit queries 0 [] sorted
      (fun stop member => ⟨Nat.zero_le stop, bounds stop member⟩) (Nat.zero_le _)

theorem prepareStatus_ok {config : ProjectionConfig} {s : ProgramStatusState} {bytes : Bytes}
    {replyLimit planBytes : Nat} {scan record reply : Bool} {prepared : PreparedStatus}
    (accepted : prepareStatus config s bytes replyLimit scan record reply planBytes = .ok prepared) :
    ∃ store : ProgramStatusStore, store.scan bytes = .ok prepared.plan := by
  simp only [prepareStatus] at accepted
  cases stored : s.store with
  | none => simp [stored] at accepted
  | some store =>
    cases reserved : store.scanReservationFor config.mutationSize bytes with
    | error e => simp [stored, reserved] at accepted
    | ok scratch =>
      cases scanned : store.scan bytes with
      | error e =>
        simp only [stored, reserved, scanned] at accepted
        split_ifs at accepted
      | ok plan =>
        simp only [stored, reserved, scanned] at accepted
        refine ⟨store, ?_⟩
        split_ifs at accepted
        all_goals
          obtain rfl := Except.ok.inj accepted
          exact scanned

theorem commitStatus_spec {A : Core → Prop} [Steady A] (prepared : PreparedStatus) :
    Spec A (commitStatus prepared) fun _ => A := by
  apply Spec.aside
  intro c
  dsimp only
  split
  · rfl
  · split <;> rfl

theorem recordProcessed_spec (bytes : Bytes) :
    Spec (Held bytes bytes.length) (recordProcessed bytes) fun result k =>
      match result with
      | .ok _ => Live k ∧ Stale k
      | .error _ => Held bytes bytes.length k := by
  apply Spec.lock
  intro c valid held
  rcases c.admission.policy.recordProcessed_cases bytes.length with ⟨error, refused⟩ | ⟨-, counted⟩
  · simp only [Admission.recordProcessed, Admission.withPolicy, refused]
    exact ⟨valid, Owes.refl _, held⟩
  · simp only [Admission.recordProcessed, Admission.withPolicy, counted]
    exact count_kept (k := c.core) valid held

theorem commitOutput_spec (prepared : PreparedStatus) (bytes : Bytes) :
    Spec (Held bytes bytes.length) (commitOutput prepared bytes) fun result k =>
      match result with
      | .ok _ => Live k ∧ Stale k
      | .error _ => Held bytes bytes.length k := by
  apply (commitStatus_spec prepared).bind
  intro result
  cases result with
  | error e => exact Spec.pure fun _ => id
  | ok _ => exact recordProcessed_spec bytes

theorem abandonOutput_spec (bytes : Bytes) (n : Nat) (error : ProjectionError) :
    Spec (Held bytes n) (abandonOutput bytes error) fun _ => Live := by
  refine (requeue_output_spec bytes n).bind fun _ => (fail_spec error).bind fun _ => ?_
  refine Spec.pure fun k holds => ?_
  exact ⟨.of_down holds.1.empty holds.1.calm holds.2, holds.1.terminal⟩

theorem publishOutput_spec (bytes effects : Bytes) :
    Spec (fun k => Live k ∧ Stale k) (publishOutput bytes effects) fun _ => Live := by
  refine status_spec.bind fun _ => Spec.input.bind fun a => (onJournal_spec _).bind fun _ => ?_
  split
  · exact Spec.pure fun _ holds => holds.1
  · refine Spec.bind (B := fun _ => Live) (Spec.update fun c valid holds => ?_) fun _ =>
      Spec.skip
    exact operate_kept valid holds.1 holds.2 true _

theorem feedPresent_spec (bytes : Bytes) (queries : List Nat) (limit : Nat)
    (sorted : queries.Pairwise (· < ·)) (bounds : ∀ stop ∈ queries, stop ≤ bytes.length) :
    Spec (Held bytes 0) (feedPresent bytes queries limit) (Fed bytes) := by
  apply Spec.glance.bind
  intro present
  split
  · exact feedStatusSlices_spec bytes queries limit sorted bounds
  · exact Spec.pure fun _ held => ⟨0, held⟩

theorem applyPrepared_spec (bytes : Bytes) (limit : Nat) (prepared : PreparedStatus)
    (sorted : prepared.plan.queries.Pairwise (· < ·))
    (bounds : ∀ stop ∈ prepared.plan.queries, stop ≤ bytes.length) :
    Spec (Held bytes 0) (applyPrepared bytes limit prepared) fun _ => Live := by
  apply (feedPresent_spec bytes _ limit sorted bounds).bind
  intro result
  cases result with
  | error error => exact Spec.exists fun n => abandonOutput_spec bytes n error
  | ok effects =>
    apply (commitOutput_spec prepared bytes).bind
    intro committed
    cases committed with
    | error error => exact abandonOutput_spec bytes _ error
    | ok _ => exact publishOutput_spec bytes effects

/-- A dequeued chunk is fed and counted, put back, or put back with the projection
failed; in every case the worker's hand is empty again. -/
theorem applyOutput_spec (bytes : Bytes) : Spec (Held bytes 0) (applyOutput bytes) fun _ => Live := by
  refine Spec.glance.bind fun limit => Spec.input.bind fun scan => Spec.input.bind fun record =>
    Spec.input.bind fun reply => ?_
  refine Spec.bind (B := fun result k => Held bytes 0 k ∧
    ∀ prepared, result = .ok prepared → ∃ store : ProgramStatusStore,
      store.scan bytes = .ok prepared.plan) (Spec.look fun c _ held => ?_) fun result => ?_
  · exact ⟨held, fun prepared accepted => prepareStatus_ok accepted⟩
  rcases result with (_ | error) | prepared
  · refine ((requeue_output_spec bytes 0).strengthen fun _ holds => holds.1).bind fun _ => ?_
    refine Spec.pure fun k returned => ⟨⟨returned.empty, returned.calm, returned.shape, ?_⟩,
      returned.terminal⟩
    exact returned.fed.imp (by simp) .inr
  · exact (abandonOutput_spec bytes 0 error).strengthen fun _ holds => holds.1
  · rintro c ⟨held, accepted⟩
    obtain ⟨store, scanned⟩ := accepted prepared rfl
    obtain ⟨sorted, bounds⟩ := ProgramStatusStore.scan_queries scanned
    exact applyPrepared_spec bytes limit prepared sorted (fun stop member => (bounds stop member).2)
      c held

end Coordinator
end PtyRuntime
