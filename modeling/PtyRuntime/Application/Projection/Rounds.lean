import PtyRuntime.Application.Projection.Along
import PtyRuntime.Domain.Projection.PolicyLaws

/-! Rounds of deletions. A close request starts a new round, in which every source may
fail as often as it is allowed to; cleanup surrenders once the oldest source has. Each
lemma says what one movement of a source, or one decision of cleanup, does to that. -/
namespace PtyRuntime
open Thread

/-- The deletion a job makes, with what it has published. -/
def PendingIo.deletion? : PendingIo → Option (DeleteAttempt × Mailbox Unit)
  | .delete attempt mailbox => some (attempt, mailbox)
  | .commit _ _ _ _ | .restore _ _ | .transfer _ _ _ => none

/-- The sources in the order their deletions fall due. One held to be read back comes
last: retiring it only makes its deletion due. -/
def NativeWorkspace.waiting (w : NativeWorkspace) : List DeleteAttempt :=
  w.reaper.queue ++ w.source.toList.map fun source => { source, attempts := 0 }

/-- The part of a projection that deleting sources and cleanup are about. -/
structure Reaping where
  closed : Bool
  services : Bool
  waiting : List DeleteAttempt
  maxAttempts : Nat
  allowed : Nat
  deletion : Option (DeleteAttempt × Mailbox Unit)
  retry : Bool
  failure : Option ProjectionError
  unconfirmed : Option ProjectionError
  deleted : List Nat
  log : RoundLog

def Coordinator.reaping (c : Coordinator) : Reaping where
  closed := decide (c.admission.status.residency = .closed)
  services := c.wiring.services
  waiting := c.workspace.waiting
  maxAttempts := c.workspace.reaper.maxAttempts
  allowed := c.config.options.maxDeleteAttempts
  deletion := c.workspace.io.bind PendingIo.deletion?
  retry := c.admission.retryCleanup
  failure := c.admission.cleanupFailure
  unconfirmed := c.admission.unreclaimedFailure
  deleted := c.storage.deleted
  log := c.rounds

namespace Reaping

/-- The leases of every source that is not in the worker's hand. -/
def held (v : Reaping) : List Nat :=
  v.waiting.map (·.source.disk.id) ++ v.deletion.toList.map (·.1.source.disk.id)

/-- Each attempt counted against a source is a deletion that failed in this round. -/
def Within (v : Reaping) (attempt : DeleteAttempt) : Prop :=
  attempt.attempts ≤ v.log.failed.count attempt.source.disk.id

/-- The oldest source has failed as often as it may. -/
def Spent (v : Reaping) : Prop :=
  ∃ head, v.waiting.head? = some head ∧ v.maxAttempts ≤ head.attempts

/-- What everyone keeps. -/
structure Sound (v : Reaping) : Prop where
  allowed : v.maxAttempts = v.allowed
  enough : v.log.overtaken = false → ∀ failures, v.log.surrendered = some failures → v.allowed ≤ failures
  ended : v.closed = true → v.log.abandoned = false → v.log.overtaken = false →
    v.log.surrendered = none → (∀ id ∈ v.log.sources, id ∈ v.deleted) ∧ v.failure = v.unconfirmed
  doubted : v.unconfirmed.isSome → v.log.uncertain ≠ []
  published : ∀ attempt, v.deletion = some (attempt, some (.ok ())) → attempt.source.disk.id ∈ v.deleted

/-- A round in progress, with some sources in the worker's hand. Nothing is said of the
attempts while a close request waits for its round to begin. -/
structure Paced (hand : List Nat) (v : Reaping) : Prop where
  alive : v.closed = false
  queue : v.retry = false → ∀ attempt ∈ v.waiting, v.Within attempt
  flight : v.retry = false → ∀ attempt mailbox, v.deletion = some (attempt, mailbox) →
    v.log.fresh = true ∧ v.Within attempt ∧ v.failure = none
  spent : v.retry = false → v.failure.isSome → v.Spent
  placed : ∀ id ∈ v.log.sources, id ∈ v.deleted ∨ id ∈ hand ∨ id ∈ v.held

/-- What a step of another thread does: a close is requested, or a deletion ends. -/
inductive Beside : Reaping → Reaping → Prop where
  | same (v : Reaping) : Beside v v
  | close {v : Reaping} (alive : v.closed = false) : Beside v { v with
      retry := true
      failure := none
      log := { v.log with fresh := false, failed := [], surrendered := none } }
  | publish {v : Reaping} {attempt : DeleteAttempt} (result : Except ProjectionError Unit)
      (deleted : List Nat) (due : v.deletion = some (attempt, none)) (kept : v.deleted ⊆ deleted)
      (done : result = .ok () → attempt.source.disk.id ∈ deleted) :
      Beside v { v with deletion := some (attempt, some result), deleted }

/-- An assertion of the worker that no other thread can falsify. -/
class Lasting (P : Reaping → Prop) : Prop where
  keep : ∀ {v v' : Reaping}, Beside v v' → P v → P v'

instance Lasting.and {P Q : Reaping → Prop} [first : Lasting P] [second : Lasting Q] :
    Lasting fun v => P v ∧ Q v where
  keep beside both := ⟨first.keep beside both.1, second.keep beside both.2⟩

instance Lasting.or {P Q : Reaping → Prop} [first : Lasting P] [second : Lasting Q] :
    Lasting fun v => P v ∨ Q v where
  keep beside either := either.imp (first.keep beside) (second.keep beside)

variable {v v' : Reaping}

theorem Sound.beside (sound : v.Sound) (beside : Beside v v') : v'.Sound := by
  cases beside with
  | same => exact sound
  | close alive =>
    refine { sound with enough := fun _ _ wrong => (nomatch wrong), ended := fun closed => ?_ }
    exact absurd (alive.symm.trans closed) (by decide)
  | publish result deleted due kept done =>
    refine { sound with ended := fun closed kept' timely given => ?_, published := fun other ended => ?_ }
    · obtain ⟨gone, outcome⟩ := sound.ended closed kept' timely given
      exact ⟨fun id member => kept (gone id member), outcome⟩
    · obtain ⟨rfl, reported⟩ := Prod.mk.inj (Option.some.inj ended)
      exact done (Option.some.inj reported)

instance (hand : List Nat) : Lasting (Paced hand) where
  keep beside paced := by
    cases beside with
    | same => exact paced
    | close alive =>
      exact {
        alive
        queue := fun wrong => (nomatch wrong)
        flight := fun wrong => (nomatch wrong)
        spent := fun wrong => (nomatch wrong)
        placed := paced.placed }
    | @publish attempt result deleted due kept done =>
      refine { paced with flight := fun round other mailbox same => ?_, placed := fun id member => ?_ }
      · obtain ⟨rfl, -⟩ := Prod.mk.inj (Option.some.inj same)
        exact paced.flight round attempt none due
      · refine (paced.placed id member).imp (@kept id) (Or.imp_right fun held => ?_)
        rw [Reaping.held, due] at held
        exact held

/-- `P`, unless the projection is being torn down and cleanup has been abandoned. -/
def Unless (torn : Prop) (P : Reaping → Prop) (v : Reaping) : Prop :=
  torn ∧ v.log.abandoned = true ∨ P v

instance {torn : Prop} {P : Reaping → Prop} [lasting : Lasting P] : Lasting (Unless torn P) where
  keep beside := by
    refine Or.imp (And.imp_right fun abandoned => ?_) (lasting.keep beside)
    cases beside <;> exact abandoned

/-- While no run holds the workspace, a round is in progress or cleanup has finished. -/
def Resting (v : Reaping) : Prop := Paced [] v ∨ v.closed = true ∧ v.services = false

instance : Lasting Resting where
  keep beside := by
    refine Or.imp (Lasting.keep beside) fun ended => ?_
    cases beside <;> exact ended

/-- The provider has deleted the source under this lease. -/
def Gone (id : Nat) (v : Reaping) : Prop := id ∈ v.deleted

/-- The worker has checked a source out for a deletion. -/
structure Checked (attempt : DeleteAttempt) (v : Reaping) : Prop where
  paced : Paced [attempt.source.disk.id] v
  within : v.retry = false → v.Within attempt ∧ v.failure = none

/-- The worker has been told how a deletion of this round ended. -/
structure Returned (attempt : DeleteAttempt) (v : Reaping) : Prop extends Checked attempt v where
  vacant : v.deletion = none
  fresh : v.retry = false → v.log.fresh = true

/-- A source that has been put back has spent its attempts. -/
structure Failing (v : Reaping) : Prop where
  paced : Paced [] v
  vacant : v.deletion = none
  spent : v.retry = false → v.Spent

theorem Beside.vacant (beside : Beside v v') (vacant : v.deletion = none) : v'.deletion = none := by
  cases beside with
  | same => exact vacant
  | close alive => exact vacant
  | publish result deleted due => cases vacant.symm.trans due

/-- What holds of a round that has begun still holds of it, unless a close request has
come in between. -/
theorem Beside.round (beside : Beside v v') (round : v'.retry = false) :
    v.retry = false ∧ v'.failure = v.failure ∧ v'.log = v.log ∧ v'.waiting = v.waiting ∧
      v'.maxAttempts = v.maxAttempts := by
  cases beside with
  | same => exact ⟨round, rfl, rfl, rfl, rfl⟩
  | close alive => cases round
  | publish => exact ⟨round, rfl, rfl, rfl, rfl⟩

instance (attempt : DeleteAttempt) : Lasting (Checked attempt) where
  keep beside checked := by
    refine ⟨Lasting.keep beside checked.paced, fun round => ?_⟩
    obtain ⟨before, failure, log, -⟩ := beside.round round
    rw [Within, log, failure]
    exact checked.within before

instance (attempt : DeleteAttempt) : Lasting (Returned attempt) where
  keep beside returned := by
    refine ⟨Lasting.keep beside returned.toChecked, beside.vacant returned.vacant, fun round => ?_⟩
    obtain ⟨before, -, log, -⟩ := beside.round round
    rw [log]
    exact returned.fresh before

instance (id : Nat) : Lasting (Gone id) where
  keep beside gone := by
    cases beside with
    | same => exact gone
    | close => exact gone
    | publish result deleted due kept => exact kept gone

instance Lasting.imp (p : Prop) {P : Reaping → Prop} [lasting : Lasting P] :
    Lasting fun v => p → P v where
  keep beside holds premise := lasting.keep beside (holds premise)

instance : Lasting Failing where
  keep beside failing := by
    refine ⟨Lasting.keep beside failing.paced, beside.vacant failing.vacant, fun round => ?_⟩
    obtain ⟨before, -, -, waiting, most⟩ := beside.round round
    rw [Spent, waiting, most]
    exact failing.spent before

/-- Only a source with attempts left is checked out, so no failure is on record then. -/
theorem Paced.checkOut (paced : Paced [] v) {attempt : DeleteAttempt} {rest : List DeleteAttempt}
    (due : v.waiting = attempt :: rest) (left : attempt.attempts < v.maxAttempts) :
    Checked attempt { v with waiting := rest } := by
  have calm : v.retry = false → v.failure = none := by
    intro round
    by_contra failed
    obtain ⟨head, first, spent⟩ := paced.spent round (Option.isSome_iff_ne_none.mpr failed)
    rw [due] at first
    obtain rfl := Option.some.inj first
    omega
  refine ⟨{ paced with queue := ?_, spent := ?_, placed := ?_ }, fun round => ⟨?_, calm round⟩⟩
  · exact fun round other member => paced.queue round other (due ▸ List.mem_cons_of_mem _ member)
  · intro round failed
    rw [calm round] at failed
    cases failed
  · intro id member
    refine (paced.placed id member).imp_right fun held => ?_
    have held := held.resolve_left List.not_mem_nil
    rw [Reaping.held, due, List.map_cons, List.cons_append] at held
    exact (List.mem_cons.mp held).imp_left List.mem_singleton.mpr
  · exact paced.queue round attempt (due ▸ List.mem_cons_self)

theorem Checked.putBack {attempt : DeleteAttempt} (checked : Checked attempt v) :
    Paced [] { v with waiting := attempt :: v.waiting } := by
  refine { checked.paced with queue := ?_, spent := ?_, placed := ?_ }
  · rintro round other (_ | ⟨_, member⟩)
    · exact (checked.within round).1
    · exact checked.paced.queue round other member
  · intro round failed
    rw [(checked.within round).2] at failed
    cases failed
  · intro id member
    rcases checked.paced.placed id member with gone | hand | held
    · exact .inl gone
    · exact .inr (.inr (List.mem_cons.mpr (.inl (List.mem_singleton.mp hand))))
    · exact .inr (.inr (List.mem_cons_of_mem _ held))

/-- A submitted deletion counts for the round that is in progress. -/
theorem Checked.submit {attempt : DeleteAttempt} (checked : Checked attempt v)
    (vacant : v.deletion = none) :
    Paced [] { v with deletion := some (attempt, none), log := { v.log with fresh := true } } := by
  refine { checked.paced with flight := ?_, placed := ?_ }
  · rintro round other mailbox submitted
    obtain ⟨rfl, -⟩ := Prod.mk.inj (Option.some.inj submitted)
    exact ⟨rfl, checked.within round⟩
  · intro id member
    rcases checked.paced.placed id member with gone | hand | held
    · exact .inl gone
    · exact .inr (.inr (List.mem_append_right _ (by simpa using hand)))
    · rw [Reaping.held, vacant, Option.toList_none, List.map_nil, List.append_nil] at held
      exact .inr (.inr (List.mem_append_left _ held))

theorem Paced.take (paced : Paced [] v) {attempt : DeleteAttempt} {mailbox : Mailbox Unit}
    (ended : v.deletion = some (attempt, mailbox)) : Returned attempt { v with deletion := none } := by
  have flight := fun round => paced.flight round attempt mailbox ended
  refine ⟨⟨{ paced with flight := fun _ _ _ wrong => (nomatch wrong), placed := fun id member => ?_ },
    fun round => (flight round).2⟩, rfl, fun round => (flight round).1⟩
  refine (paced.placed id member).imp_right fun held => ?_
  have held := held.resolve_left List.not_mem_nil
  rw [Reaping.held, ended] at held
  rcases List.mem_append.mp held with waiting | taken
  · exact .inr (List.mem_append_left _ waiting)
  · exact .inl taken

/-- A deleted source is gone. -/
theorem Returned.deleted {attempt : DeleteAttempt} (returned : Returned attempt v)
    (gone : attempt.source.disk.id ∈ v.deleted) : Paced [] v := by
  refine { returned.paced with placed := fun id member => ?_ }
  rcases returned.paced.placed id member with deleted | hand | held
  · exact .inl deleted
  · exact .inl (List.mem_singleton.mp hand ▸ gone)
  · exact .inr (.inr held)

/-- A failed deletion raises the count of its source, and no other source's falls. -/
theorem Returned.retry {attempt : DeleteAttempt} (returned : Returned attempt v) {attempts : Nat}
    (next : attempts ≤ attempt.attempts + 1) :
    Paced [] { v with
      waiting := { attempt with attempts } :: v.waiting, log := v.log.fail attempt.source.disk } := by
  have sources : (v.log.fail attempt.source.disk).sources = v.log.sources := by
    unfold RoundLog.fail
    split <;> rfl
  have counted : v.retry = false → (v.log.fail attempt.source.disk).failed =
      v.log.failed ++ [attempt.source.disk.id] := by
    intro round
    rw [RoundLog.fail, if_pos (returned.fresh round)]
  refine ⟨returned.paced.alive, ?_, ?_, ?_, ?_⟩
  · rintro round other (_ | ⟨_, member⟩)
    · have before := (returned.within round).1
      simp only [Within, counted round, List.count_append, List.count_singleton_self] at before ⊢
      omega
    · have before := returned.paced.queue round other member
      simp only [Within, counted round, List.count_append] at before ⊢
      omega
  · intro round other mailbox wrong
    cases returned.vacant.symm.trans wrong
  · intro round failed
    rw [(returned.within round).2] at failed
    cases failed
  · intro id member
    rcases returned.paced.placed id (sources ▸ member) with gone | hand | held
    · exact .inl gone
    · exact .inr (.inr (List.mem_cons.mpr (.inl (List.mem_singleton.mp hand))))
    · exact .inr (.inr (List.mem_cons_of_mem _ held))

theorem Returned.exhausted {attempt : DeleteAttempt} (returned : Returned attempt v) {attempts : Nat}
    (next : attempts ≤ attempt.attempts + 1) (spent : v.maxAttempts ≤ attempts) :
    Failing { v with
      waiting := { attempt with attempts } :: v.waiting, log := v.log.fail attempt.source.disk } :=
  ⟨returned.retry next, returned.vacant, fun _ => ⟨_, rfl, spent⟩⟩

theorem Failing.record (failing : Failing v) (error : ProjectionError) :
    Paced [] { v with failure := some error } := by
  refine { failing.paced with flight := fun round other mailbox wrong => ?_, spent := fun round _ => ?_ }
  · cases failing.vacant.symm.trans wrong
  · exact failing.spent round

/-- A new source is behind every other but the one held to be read back. -/
theorem Paced.hold (paced : Paced [] v) (source : CommittedSource)
    {waiting front back : List DeleteAttempt} (before : v.waiting = front ++ back)
    (unspent : ∀ attempt ∈ back, attempt.attempts = 0)
    (after : waiting = front ++ { source, attempts := 0 } :: back) :
    Paced [] { v with waiting, log := v.log.hold source.disk } := by
  subst after
  refine ⟨paced.alive, fun round other member => ?_, paced.flight, fun round failed => ?_,
    fun id member => ?_⟩
  · rcases List.mem_append.mp member with old | new | ⟨_, old⟩
    · exact paced.queue round other (before ▸ List.mem_append_left _ old)
    · exact Nat.zero_le _
    · exact paced.queue round other (before ▸ List.mem_append_right _ old)
  · obtain ⟨head, first, spent⟩ := paced.spent round failed
    rw [before] at first
    cases front with
    | cons oldest rest => exact ⟨head, first, spent⟩
    | nil =>
      rw [unspent head (List.mem_of_head? first)] at spent
      exact ⟨_, rfl, spent⟩
  · rcases List.mem_append.mp member with old | new
    · refine (paced.placed id old).imp_right fun held => .inr ?_
      have held := held.resolve_left List.not_mem_nil
      simp only [Reaping.held, before, List.map_append, List.map_cons, List.mem_append,
        List.mem_cons] at held ⊢
      tauto
    · simp [Reaping.held, List.mem_singleton.mp new]

def Alive (v : Reaping) : Prop := v.closed = false

theorem Paced.running {torn : Prop} {hand : List Nat} (paced : Unless torn (Paced hand) v) :
    Unless torn Alive v := paced.imp_right Paced.alive

/-- A projection that cleanup has not finished with can still change its mind. -/
theorem Unless.unended {torn p : Prop} (running : Unless torn Alive v)
    (closed : v.closed = true) (kept : v.log.abandoned = false) : p := by
  rcases running with ⟨-, abandoned⟩ | alive
  · cases abandoned.symm.trans kept
  · cases Eq.trans (Eq.symm alive) closed

theorem Sound.submit (sound : v.Sound) (attempt : DeleteAttempt) :
    Sound { v with deletion := some (attempt, none), log := { v.log with fresh := true } } :=
  { sound with published := fun _ wrong => (nomatch wrong) }

theorem Sound.vacate (sound : v.Sound) : Sound { v with deletion := none } :=
  { sound with published := fun _ wrong => (nomatch wrong) }

theorem Sound.retry (sound : v.Sound) (waiting : List DeleteAttempt) (disk : DiskLease) :
    Sound { v with waiting, log := v.log.fail disk } := by
  unfold RoundLog.fail
  split
  · exact { sound with }
  · exact { sound with }

theorem Sound.record {torn : Prop} (sound : v.Sound) (running : Unless torn Alive v) (error : ProjectionError) :
    Sound { v with failure := some error } :=
  { sound with ended := fun closed kept => running.unended closed kept }

theorem Sound.hold {torn : Prop} (sound : v.Sound) (running : Unless torn Alive v) (waiting : List DeleteAttempt)
    (disk : DiskLease) : Sound { v with waiting, log := v.log.hold disk } :=
  { sound with ended := fun closed kept => running.unended closed kept }

theorem Sound.doubt {torn : Prop} (sound : v.Sound) (running : Unless torn Alive v) (error : ProjectionError)
    (disk : DiskLease) : Sound { v with unconfirmed := some error, log := v.log.doubt disk } :=
  { sound with
    ended := fun closed kept => running.unended closed kept
    doubted := fun _ => List.append_ne_nil_of_right_ne_nil _ (List.cons_ne_nil _ _) }

/-- Cleanup has found no failure to go by. A round that is owed starts by restoring the
attempts of every source. -/
structure Beginning (owed : Bool) (v : Reaping) : Prop where
  alive : v.closed = false
  vacant : v.deletion = none
  calm : v.failure = none
  queue : owed = false → v.retry = false → ∀ attempt ∈ v.waiting, v.Within attempt
  placed : ∀ id ∈ v.log.sources, id ∈ v.deleted ∨ id ∈ v.held

/-- Cleanup has found that this round has failed. -/
structure Surrendering (v : Reaping) : Prop where
  alive : v.closed = false
  queue : v.retry = false → ∀ attempt ∈ v.waiting, v.Within attempt
  spent : v.retry = false → v.Spent

def Overtaken (v : Reaping) : Prop := v.log.overtaken = true

/-- Cleanup has given up on whatever it held, and no close request has come since. -/
structure Surrendered (v : Reaping) : Prop where
  alive : v.closed = false
  given : v.retry = false → v.log.surrendered.isSome

/-- Nothing is left to delete. -/
structure Cleared (v : Reaping) : Prop where
  alive : v.closed = false
  gone : ∀ id ∈ v.log.sources, id ∈ v.deleted

theorem Beside.alive (beside : Beside v v') (alive : v.closed = false) : v'.closed = false := by
  cases beside with
  | same => exact alive
  | close => exact alive
  | publish => exact alive

theorem Beside.calm (beside : Beside v v') (calm : v.failure = none) : v'.failure = none := by
  cases beside with
  | same => exact calm
  | close => rfl
  | publish => exact calm

/-- Another thread moves no source; it can only delete one. -/
theorem Beside.placed (beside : Beside v v') :
    v'.log.sources = v.log.sources ∧ v.deleted ⊆ v'.deleted ∧ v'.held = v.held := by
  cases beside with
  | same => exact ⟨rfl, List.Subset.refl _, rfl⟩
  | close alive => exact ⟨rfl, List.Subset.refl _, rfl⟩
  | publish result deleted due kept =>
    refine ⟨rfl, kept, ?_⟩
    simp only [Reaping.held, due]
    rfl

instance (owed : Bool) : Lasting (Beginning owed) where
  keep beside beginning := by
    obtain ⟨sources, kept, held⟩ := beside.placed
    refine ⟨beside.alive beginning.alive, beside.vacant beginning.vacant, beside.calm beginning.calm,
      fun paid round => ?_, fun id member => ?_⟩
    · obtain ⟨before, -, log, waiting, -⟩ := beside.round round
      rw [waiting]
      intro attempt member
      rw [Within, log]
      exact beginning.queue paid before attempt member
    · rw [held]
      exact (beginning.placed id (sources ▸ member)).imp_left (@kept id)

instance : Lasting Surrendering where
  keep beside surrendering := by
    refine ⟨beside.alive surrendering.alive, fun round => ?_, fun round => ?_⟩ <;>
      obtain ⟨before, -, log, waiting, most⟩ := beside.round round
    · rw [waiting]
      intro attempt member
      rw [Within, log]
      exact surrendering.queue before attempt member
    · rw [Spent, waiting, most]
      exact surrendering.spent before

instance : Lasting Overtaken where
  keep beside overtaken := by
    cases beside <;> exact overtaken

instance : Lasting Surrendered where
  keep beside surrendered := by
    refine ⟨beside.alive surrendered.alive, fun round => ?_⟩
    obtain ⟨before, -, log, -⟩ := beside.round round
    rw [log]
    exact surrendered.given before

instance : Lasting Cleared where
  keep beside cleared := by
    obtain ⟨sources, kept, -⟩ := beside.placed
    exact ⟨beside.alive cleared.alive, fun id member => kept (cleared.gone id (sources ▸ member))⟩

theorem act_none (log : RoundLog) (pending : Bool) : log.act none pending = log := by
  simp [RoundLog.act]

/-- What cleanup goes by once it has looked for a failure and for a round to begin. -/
def Decided : Option ProjectionError → Bool → Reaping → Prop
  | none, owed => Beginning owed
  | some _, true => Overtaken
  | some _, false => Surrendering

/-- What it goes by once it has begun the round that was owed. -/
def Acting : Option ProjectionError → Reaping → Prop
  | none => Beginning false
  | some _ => fun v => Overtaken v ∨ Surrendering v

/-- What is left for cleanup to finish with. -/
def Concluded : Option ProjectionError → Reaping → Prop
  | none => Cleared
  | some _ => fun v => Overtaken v ∨ Surrendered v

instance (failed : Option ProjectionError) (owed : Bool) : Lasting (Decided failed owed) := by
  rcases failed with _ | error
  · exact inferInstanceAs (Lasting (Beginning owed))
  · cases owed <;> unfold Decided <;> infer_instance

instance (failed : Option ProjectionError) : Lasting (Acting failed) := by
  cases failed <;> unfold Acting <;> infer_instance

instance (failed : Option ProjectionError) : Lasting (Concluded failed) := by
  cases failed <;> unfold Concluded <;> infer_instance

/-- A failure that cleanup finds is one of this round, unless another one is owed. -/
theorem Paced.decided (paced : Paced [] v) (vacant : v.deletion = none) :
    Decided v.failure v.retry { v with retry := false, log := v.log.act v.failure v.retry } := by
  have cases : ∀ failed, v.failure = failed →
      Decided failed v.retry { v with retry := false, log := v.log.act failed v.retry } := by
    rintro (_ | error) found
    · rw [act_none]
      exact ⟨paced.alive, vacant, found, fun paid _ => paced.queue paid, fun id member =>
        (paced.placed id member).imp_right fun held => held.resolve_left List.not_mem_nil⟩
    · cases owed : v.retry with
      | true => simp [Decided, Overtaken, RoundLog.act]
      | false =>
        have spent := paced.spent owed (Option.isSome_of_eq_some found)
        exact ⟨paced.alive, fun _ => paced.queue owed, fun _ => spent⟩
  exact cases _ rfl

theorem Sound.act (sound : v.Sound) (failed : Option ProjectionError) (pending retry : Bool) :
    Sound { v with retry, log := v.log.act failed pending } := by
  have timely : (v.log.act failed pending).overtaken = false → v.log.overtaken = false := by
    simp only [RoundLog.act, Bool.or_eq_false_iff]
    exact And.left
  exact { sound with
    enough := fun before => sound.enough (timely before)
    ended := fun closed kept before => sound.ended closed kept (timely before) }

theorem Beginning.restore {owed : Bool} (beginning : Beginning owed v) :
    Beginning false { v with waiting := v.waiting.map fun attempt => { attempt with attempts := 0 } } := by
  refine { beginning with queue := fun _ _ other member => ?_, placed := fun id member => ?_ }
  · obtain ⟨attempt, -, rfl⟩ := List.mem_map.mp member
    exact Nat.zero_le _
  · refine (beginning.placed id member).imp_right fun held => ?_
    rw [Reaping.held] at held ⊢
    rw [List.map_map]
    exact held

theorem Beginning.paced (beginning : Beginning false v) : Paced [] v where
  alive := beginning.alive
  queue := beginning.queue rfl
  flight _ _ _ wrong := by cases beginning.vacant.symm.trans wrong
  spent _ failed := by
    rw [beginning.calm] at failed
    cases failed
  placed id member := (beginning.placed id member).imp_right .inr

theorem Beginning.cleared {owed : Bool} (beginning : Beginning owed v) (empty : v.waiting = []) :
    Cleared v := by
  refine ⟨beginning.alive, fun id member => (beginning.placed id member).resolve_right fun held => ?_⟩
  rw [Reaping.held, empty, beginning.vacant] at held
  cases held

theorem Surrendering.empty (surrendering : Surrendering v) (empty : v.waiting = []) :
    Surrendered v := by
  refine ⟨surrendering.alive, fun round => ?_⟩
  obtain ⟨head, first, -⟩ := surrendering.spent round
  rw [empty] at first
  cases first

/-- What cleanup surrenders has failed as often as it may in this round, unless another
one has been asked for in the meantime. -/
theorem Surrendering.give (surrendering : Surrendering v) (sound : v.Sound) (error : ProjectionError) :
    Sound { v with waiting := [], log := (v.log.surrender v.waiting).act (some error) v.retry } ∧
      Surrendered { v with
        waiting := [], log := (v.log.surrender v.waiting).act (some error) v.retry } := by
  refine ⟨{ sound with enough := fun timely failures given => ?_, ended := fun closed => ?_ },
    surrendering.alive, fun round => ?_⟩
  · have round : v.retry = false := by
      simp only [RoundLog.act, Option.isSome_some, Bool.true_and, Bool.or_eq_false_iff] at timely
      exact timely.2
    obtain ⟨head, first, spent⟩ := surrendering.spent round
    have within := surrendering.queue round head (List.mem_of_head? first)
    have counted : v.log.failed.count head.source.disk.id = failures := by
      simpa [RoundLog.act, RoundLog.surrender, first] using given
    rw [Within, counted] at within
    exact sound.allowed ▸ spent.trans within
  · exact absurd (surrendering.alive.symm.trans closed) (by decide)
  · obtain ⟨head, first, -⟩ := surrendering.spent round
    simp [RoundLog.act, RoundLog.surrender, first]

theorem Overtaken.act {log : RoundLog} (overtaken : log.overtaken = true)
    (failed : Option ProjectionError) (pending : Bool) : (log.act failed pending).overtaken = true := by
  simp [RoundLog.act, overtaken]

/-- Nothing is asked of cleanup once it was overtaken. -/
theorem Sound.of_overtaken (sound : v.Sound) (overtaken : v'.log.overtaken = true)
    (allowed : v'.maxAttempts = v.maxAttempts ∧ v'.allowed = v.allowed)
    (doubted : v'.unconfirmed = v.unconfirmed ∧ v'.log.uncertain = v.log.uncertain)
    (published : v'.deletion = v.deletion ∧ v'.deleted = v.deleted) : v'.Sound where
  allowed := by rw [allowed.1, allowed.2, sound.allowed]
  enough timely := by cases overtaken.symm.trans timely
  ended _ _ timely := by cases overtaken.symm.trans timely
  doubted := by
    rw [doubted.1, doubted.2]
    exact sound.doubted
  published := by
    rw [published.1, published.2]
    exact sound.published

theorem Cleared.close (cleared : Cleared v) (sound : v.Sound) :
    Sound { v with
      closed := true, failure := v.unconfirmed, log := v.log.act none v.retry } := by
  rw [act_none]
  exact { sound with ended := fun _ _ _ _ => ⟨cleared.gone, rfl⟩ }

theorem Surrendered.close (surrendered : Surrendered v) (sound : v.Sound) (error : ProjectionError) :
    Sound { v with
      closed := true, failure := some error, log := v.log.act (some error) v.retry } := by
  have timely : (v.log.act (some error) v.retry).overtaken = false →
      v.log.overtaken = false ∧ v.retry = false := by
    simp [RoundLog.act]
  refine { sound with
    enough := fun before => sound.enough (timely before).1
    ended := fun _ _ before given => ?_ }
  have some := surrendered.given (timely before).2
  rw [show v.log.surrendered = none from given] at some
  cases some

end Reaping
end PtyRuntime
