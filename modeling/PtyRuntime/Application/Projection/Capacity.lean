import PtyRuntime.Application.Reservations

/-! The readers of all sessions on the shared staging quotas and the capacity signal.
A reader is suspended at each access to a quota or to the signal. -/
namespace PtyRuntime

/-- The four counters of a staging reservation: two of the runtime, two of a session. -/
inductive StagingQuota where
  | slots
  | bytes
  | sessionSlots (session : Nat)
  | sessionBytes (session : Nat)
  deriving DecidableEq, Repr

namespace StagingQuota

/-- The leases of `reserve_staging` for a chunk that carries bytes. -/
def wants (session count : Nat) : List (Want StagingQuota) :=
  Want.staging slots (sessionSlots session) bytes (sessionBytes session) count

end StagingQuota

/-- What a lease acquires, in order. -/
def Want.demands {κ : Type} (want : Want κ) : List (κ × Nat) :=
  (want.first, want.count) :: (want.second.map fun second => (second, want.count)).toList

/-- `StagingLease::drop` under way: what is left to give back before it notifies, and
whether it has given back anything yet. -/
structure StagingDrop where
  released : Bool
  pending : List (StagingQuota × Nat)
  deriving DecidableEq, Repr

/-- The drop of a complete reservation, its bytes before its slot. -/
def StagingDrop.new (leases : List (Lease StagingQuota)) : StagingDrop :=
  ⟨false, leases.flatMap Lease.releases⟩

/-- Where a session's reader is between its callbacks and inside `stage_output` and
`wait_for_capacity`. -/
inductive ReaderPhase where
  | ready
  /-- Before `first.acquire` and before `second.acquire` of the next lease. -/
  | acquiring (count : Nat) (built : List (Lease StagingQuota)) (want : Want StagingQuota)
      (rest : List (Want StagingQuota))
  | attaching (count : Nat) (built : List (Lease StagingQuota)) (lease : Lease StagingQuota)
      (second : StagingQuota) (rest : List (Want StagingQuota))
  /-- The reservation is complete; the chunk is neither copied nor admitted. -/
  | reserved (count : Nat) (leases : List (Lease StagingQuota))
  /-- A quota refused: the leases built so far are dropped, which does not notify. -/
  | rollingBack (count : Nat) (pending : List (StagingQuota × Nat))
  /-- The complete reservation is dropped before the rejection is returned. -/
  | discarding (count : Nat) (drop : StagingDrop) (closed : Bool)
  /-- `Backpressure` was returned. -/
  | rejected (count : Nat)
  /-- Inside `wait_after` on the remembered generation. -/
  | waiting (count : Nat)
  deriving DecidableEq, Repr

/-- How `stage_output` goes on with a complete reservation: the copy cannot be
allocated, the queue takes no more output, or the chunk is queued. -/
inductive Staged where
  | unallocated
  | closed
  | queued
  deriving DecidableEq, Repr

structure StagingPool where
  quotas : StagingQuota → Quota
  /-- The capacity signal's counter. -/
  generation : Nat := 0
  /-- Each session's `terminal.feed_bytes`. -/
  feedBytes : Nat → Nat
  /-- Each session's `stall_generation`. -/
  stall : Nat → Nat := fun _ => 0
  phase : Nat → ReaderPhase := fun _ => .ready
  /-- The queued chunks' reservations, latest lease first. -/
  held : List (List (Lease StagingQuota)) := []
  dropping : List StagingDrop := []

namespace StagingPool

def setPhase (p : StagingPool) (session : Nat) (phase : ReaderPhase) : StagingPool :=
  { p with phase := Function.update p.phase session phase }

def setQuota (p : StagingPool) (q : StagingQuota) (quota : Quota) : StagingPool :=
  { p with quotas := Function.update p.quotas q quota }

/-- `Quota::release` on one counter. -/
def release (p : StagingPool) (q : StagingQuota) (amount : Nat) : StagingPool :=
  p.setQuota q ((p.quotas q).release amount)

/-- `generation.wrapping_add(1)`. -/
def nextGeneration (p : StagingPool) : Nat := (p.generation + 1) % 2 ^ 64

/-- `ICapacitySignal::notify`. -/
def notify (p : StagingPool) : StagingPool := { p with generation := p.nextGeneration }

/-- `stage_output` up to its first acquisition: the generation is remembered before
anything can be refused. -/
def attempt (p : StagingPool) (session count : Nat) (closed : Bool) : StagingPool :=
  let p := { p with stall := Function.update p.stall session p.generation }
  if closed then p.setPhase session .ready
  else if count = 0 then p.setPhase session .ready
  else if p.feedBytes session < count then p.setPhase session (.rejected count)
  else
    match StagingQuota.wants session count with
    | [] => p.setPhase session (.reserved count [])
    | want :: rest => p.setPhase session (.acquiring count [] want rest)

/-- A lease is complete: go on with the next one. -/
def built (count : Nat) (leases : List (Lease StagingQuota)) :
    List (Want StagingQuota) → ReaderPhase
  | [] => .reserved count leases
  | want :: rest => .acquiring count leases want rest

/-- An early return drops what was built, latest first. -/
def rollBack (count : Nat) (leases : List (Lease StagingQuota)) : ReaderPhase :=
  match leases.flatMap Lease.releases with
  | [] => .rejected count
  | pending => .rollingBack count pending

/-- One access of a reader inside `stage_output`. -/
def advance (p : StagingPool) (session : Nat) (outcome : Staged) : StagingPool :=
  match p.phase session with
  | .acquiring count leases want rest =>
    match (p.quotas want.first).acquire want.count with
    | (false, _) => p.setPhase session (rollBack count leases)
    | (true, quota) =>
      let lease : Lease StagingQuota := ⟨want.first, none, want.count⟩
      (p.setQuota want.first quota).setPhase session <|
        match want.second with
        | none => built count (lease :: leases) rest
        | some second => .attaching count leases lease second rest
  | .attaching count leases lease second rest =>
    match (p.quotas second).acquire lease.count with
    | (false, _) => p.setPhase session (rollBack count (lease :: leases))
    | (true, quota) =>
      (p.setQuota second quota).setPhase session
        (built count ({ lease with second := some second } :: leases) rest)
  | .reserved count leases =>
    match outcome with
    | .unallocated => p.setPhase session (.discarding count (.new leases) false)
    | .closed => p.setPhase session (.discarding count (.new leases) true)
    | .queued => { p with held := p.held ++ [leases] }.setPhase session .ready
  | .rollingBack count [] => p.setPhase session (.rejected count)
  | .rollingBack count ((q, amount) :: pending) =>
    (p.release q amount).setPhase session
      (if pending = [] then .rejected count else .rollingBack count pending)
  | .discarding count ⟨_, (q, amount) :: pending⟩ closed =>
    (p.release q amount).setPhase session (.discarding count ⟨true, pending⟩ closed)
  | .discarding count ⟨_, []⟩ closed =>
    p.notify.setPhase session (if closed then .ready else .rejected count)
  | .ready | .rejected _ | .waiting _ => p

/-- One scheduling decision. `signal` is a notification that follows no release of a
staging quota: a close, or the drop of a control's empty `StagingLease`. -/
inductive Event where
  | attempt (session count : Nat) (closed : Bool)
  | advance (session : Nat) (outcome : Staged)
  /-- `wait_for_capacity` compares the generations under the signal's mutex. -/
  | wait (session : Nat)
  /-- A blocked reader is scheduled after a notification, or its deadline is over. -/
  | wake (session : Nat)
  | timeout (session : Nat)
  /-- A queued chunk's `StagingLease` goes out of scope; one access of its drop. -/
  | drop (index : Nat)
  | advanceDrop (index : Nat)
  | signal
  deriving DecidableEq, Repr

/-- Events that name an absent lease, or a reader that is elsewhere, do nothing. -/
def step (p : StagingPool) : Event → StagingPool
  | .attempt session count closed =>
    match p.phase session with
    | .ready | .rejected _ => p.attempt session count closed
    | _ => p
  | .advance session outcome => p.advance session outcome
  | .wait session =>
    match p.phase session with
    | .rejected count =>
      p.setPhase session (if p.generation = p.stall session then .waiting count else .ready)
    | _ => p
  | .wake session =>
    match p.phase session with
    | .waiting _ => if p.generation = p.stall session then p else p.setPhase session .ready
    | _ => p
  | .timeout session =>
    match p.phase session with
    | .waiting _ => p.setPhase session .ready
    | _ => p
  | .drop index =>
    match p.held[index]? with
    | none => p
    | some leases =>
      { p with held := p.held.eraseIdx index, dropping := p.dropping ++ [.new leases] }
  | .advanceDrop index =>
    match p.dropping[index]? with
    | none => p
    | some ⟨_, (q, amount) :: pending⟩ =>
      { p.release q amount with dropping := p.dropping.set index ⟨true, pending⟩ }
    | some ⟨_, []⟩ => { p.notify with dropping := p.dropping.eraseIdx index }
  | .signal => p.notify

def run (p : StagingPool) (events : List Event) : StagingPool := events.foldl step p

/-- A runtime whose sessions have staged nothing yet. -/
def new (limits : StagingQuota → Nat) (feedBytes : Nat → Nat) : StagingPool where
  quotas q := ⟨limits q, 0⟩
  feedBytes

/-- The acquisitions of one reservation with nothing in between. -/
def acquireAll (quotas : StagingQuota → Quota) :
    List (StagingQuota × Nat) → Option (StagingQuota → Quota)
  | [] => some quotas
  | (q, amount) :: rest =>
    match (quotas q).acquire amount with
    | (false, _) => none
    | (true, quota) => acquireAll (Function.update quotas q quota) rest

/-- The answer to a chunk retried now, on a projection that takes output. -/
def retry (p : StagingPool) (session count : Nat) : OutputAcceptance :=
  if p.feedBytes session < count then .backpressure
  else
    match acquireAll p.quotas ((StagingQuota.wants session count).flatMap Want.demands) with
    | none => .backpressure
    | some _ => .accepted

/-- Some dropped `StagingLease` has released quota and not notified yet. -/
def AboutToNotify (p : StagingPool) : Prop :=
  (∃ drop ∈ p.dropping, drop.released = true) ∨
    ∃ session count drop closed,
      p.phase session = .discarding count drop closed ∧ drop.released = true

end StagingPool
end PtyRuntime
