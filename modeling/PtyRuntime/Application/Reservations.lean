import PtyRuntime.Application.SessionContext

/-! Every reservation against the runtime's shared counters: leases, input leases, the
watchers and the replay storage of sessions. A call is suspended at each access to a
counter, so that calls of other threads run in between; what it owns at that moment
is what its frame lists. Counters are named by `κ`, as `Arc<Quota>` handles are. -/
namespace PtyRuntime

/-- `Lease`: a reservation of one amount against one counter or two. -/
structure Lease (κ : Type) where
  first : κ
  second : Option κ
  count : Nat
  deriving DecidableEq, Repr

/-- What `Lease::drop` gives back, in order. -/
def Lease.releases {κ : Type} (lease : Lease κ) : List (κ × Nat) :=
  (lease.first, lease.count) :: (lease.second.map fun second => (second, lease.count)).toList

/-- `InputLease`: one admitted input chunk. -/
structure InputLease (κ : Type) where
  bytes : κ
  slots : κ
  count : Nat
  deriving DecidableEq, Repr

/-- What `InputLease::drop` gives back, in order. -/
def InputLease.releases {κ : Type} (lease : InputLease κ) : List (κ × Nat) :=
  [(lease.bytes, lease.count), (lease.slots, 1)]

/-- One lease a caller asks for, with the session's own half where it has one. -/
structure Want (κ : Type) where
  first : κ
  second : Option κ
  count : Nat
  deriving DecidableEq, Repr

namespace Want

variable {κ : Type}

/-- `Lease::shared`. -/
def shared (first : κ) (count : Nat) : Want κ := ⟨first, none, count⟩

/-- `Lease::shared_and_local`. -/
def sharedAndLocal (first second : κ) (count : Nat) : Want κ := ⟨first, some second, count⟩

/-- `IoMemory::acquire`: the plain and the protected buffer of one job. -/
def ioMemory (checkpoints : κ) (plain protectedBytes : Nat) : List (Want κ) :=
  [shared checkpoints plain, shared checkpoints protectedBytes]

/-- `DiskLease::acquire`: an identity slot before its bytes. -/
def diskLease (storedSlots stored : κ) (bytes : Nat) : List (Want κ) :=
  [shared storedSlots 1, shared stored bytes]

/-- The two leases of `reserve_staging` for a chunk that carries bytes. -/
def staging (slots sessionSlots bytes sessionBytes : κ) (count : Nat) : List (Want κ) :=
  [sharedAndLocal slots sessionSlots 1, sharedAndLocal bytes sessionBytes count]

end Want

/-- What a session context charges to the shared counters. `acquired` and `released`
sum up what its output callbacks took from and returned to the replay quota. -/
structure ChargedSession where
  id : Nat
  replay : ReplayBuffer
  watchers : SortedMap Nat (Option Waker) := .empty
  nextWatcher : Nat := 0
  poisoned : Bool := false
  replayBytes : Nat
  maxObservers : Nat
  acquired : Nat := 0
  released : Nat := 0

namespace ChargedSession

def new (id : Nat) (lifetime : SessionLifetime) (replayBytes maxObservers : Nat) :
    ChargedSession where
  id
  replay := .new lifetime replayBytes
  replayBytes
  maxObservers

/-- The part of `register_watcher` under the state mutex. -/
def insertWatcher (s : ChargedSession) : Except RuntimeError Nat × ChargedSession :=
  if s.poisoned then (.error .internal, s)
  else if s.watchers.entries.length ≥ s.maxObservers then (.error .capacity, s)
  else
    match checkedAdd s.nextWatcher 1 with
    | none => (.error .capacity, s)
    | some next =>
      (.ok s.nextWatcher,
        { s with nextWatcher := next, watchers := s.watchers.insert s.nextWatcher none })

/-- The part of `remove_watcher` under the state mutex: whether the watcher was there. -/
def takeWatcher (s : ChargedSession) (id : Nat) : Bool × ChargedSession :=
  if s.poisoned ∨ (s.watchers.get? id).isNone then (false, s)
  else (true, { s with watchers := s.watchers.erase id })

/-- The capacity an output callback asks for, in whole pages up to the limit. -/
def replayTarget (s : ChargedSession) (chunkLen : Nat) : Nat :=
  let needed := min (min (s.replay.bytes.length + chunkLen) u64Max) s.replayBytes
  min (min (min (needed + 4095) u64Max / 4096 * 4096) u64Max) s.replayBytes

/-- The end of an output callback: append within the admitted capacity and take the
watchers' wakers. -/
def append (s : ChargedSession) (bytes : Bytes) : ChargedSession :=
  match s.replay.appendWithLimit bytes s.replay.allocated with
  | (.error _, replay) => { s with replay }
  | (.ok (), replay) => { s with replay, watchers := s.watchers.mapValues fun _ _ => none }

end ChargedSession

/-- A call under way, stopped at its next access to a counter or to a session's mutex,
with the leases, the locked session and the loose amounts it owns. -/
inductive Task (κ : Type) where
  /-- Before `first.acquire` of the next lease; `built` are complete. -/
  | acquire (owner : Nat) (built : List (Lease κ)) (want : Want κ) (wants : List (Want κ))
  /-- Before `second.acquire`; the lease holds its first half. -/
  | attach (owner : Nat) (built : List (Lease κ)) (lease : Lease κ) (second : κ)
      (wants : List (Want κ))
  /-- `InputLease::acquire` before its slot, and between its slot and its bytes. -/
  | inputSlots (owner : Nat) (bytes slots : κ) (count : Nat)
  | inputBytes (owner : Nat) (bytes slots : κ) (count : Nat)
  /-- `register_watcher` before its acquisition, and before its locked part. -/
  | registerWatcher (session : Nat)
  | insertWatcher (session : Nat)
  | removeWatcher (session id : Nat)
  /-- An output callback before it locks the state; then, with the state locked, before
  its first and its supplementary acquisition and before a release. -/
  | output (session : Nat) (bytes : Bytes) (staging : Staging)
  | grow (session : ChargedSession) (bytes : Bytes) (target : Nat)
  | excess (session : ChargedSession) (bytes : Bytes) (target actual : Nat)
  | shrink (session : ChargedSession) (bytes : Bytes) (amount : Nat)
  /-- Amounts still to be given back, in order, by a drop or by a refused call. -/
  | giveBack (pending : List (κ × Nat)) (refused : Bool)

/-- The session whose context the call keeps alive. -/
def Task.session? {κ : Type} : Task κ → Option Nat
  | .registerWatcher session | .insertWatcher session | .removeWatcher session _
  | .output session _ _ => some session
  | .grow s _ _ | .excess s _ _ _ | .shrink s _ _ => some s.id
  | .acquire .. | .attach .. | .inputSlots .. | .inputBytes .. | .giveBack .. => none

/-- What is left of a call after one access. -/
inductive Progress (κ : Type) where
  | running (task : Task κ)
  | ended (granted : Bool)

/-- The counters with everything charged to them. A session whose mutex is held is in
the frame of the callback that holds it. -/
structure Reservations (κ : Type) where
  quotas : κ → Quota
  observers : κ
  replayQuota : κ
  leases : List (Nat × Lease κ) := []
  inputs : List (Nat × InputLease κ) := []
  sessions : List ChargedSession := []
  tasks : List (Task κ) := []
  nextSession : Nat := 0

namespace Reservations

variable {κ : Type} [DecidableEq κ]

/-- `Quota::acquire` on one counter. -/
def take (r : Reservations κ) (q : κ) (amount : Nat) : Bool × Reservations κ :=
  (((r.quotas q).acquire amount).1,
    { r with quotas := Function.update r.quotas q ((r.quotas q).acquire amount).2 })

/-- `Quota::release` on one counter. -/
def put (r : Reservations κ) (q : κ) (amount : Nat) : Reservations κ :=
  { r with quotas := Function.update r.quotas q ((r.quotas q).release amount) }

/-- An early return drops what was built, latest first. -/
def abandon (leases : List (Lease κ)) : Progress κ :=
  match leases.flatMap Lease.releases with
  | [] => .ended false
  | pending => .running (.giveBack pending true)

/-- A lease is complete: go on with the next one, or return them all to the owner. -/
def built (r : Reservations κ) (owner : Nat) (leases : List (Lease κ)) :
    List (Want κ) → Reservations κ × Progress κ
  | [] => ({ r with leases := leases.map (owner, ·) ++ r.leases }, .ended true)
  | want :: wants => (r, .running (.acquire owner leases want wants))

/-- The callback is over: the session's mutex is free again. -/
def unlock (r : Reservations κ) (s : ChargedSession) : Reservations κ :=
  { r with sessions := s :: r.sessions }

/-- `SessionEventSink::output_observed` once the state is locked, up to its first
acquisition. -/
def locked (r : Reservations κ) (s : ChargedSession) (bytes : Bytes) (staging : Staging) :
    Reservations κ × Progress κ :=
  if s.poisoned then (r.unlock s, .ended false)
  else
    match staging with
    | .unavailable | .answered .backpressure | .answered .closed => (r.unlock s, .ended false)
    | .unprojected | .answered .accepted =>
      if s.replay.allocated < s.replayTarget bytes.length then
        (r, .running (.grow s bytes (s.replayTarget bytes.length)))
      else (r.unlock (s.append bytes), .ended true)

/-- The storage was asked for after its first charge was admitted. -/
def reserved (r : Reservations κ) (s : ChargedSession) (bytes : Bytes) (target : Nat)
    (allocation : ReplayBuffer.Allocation) : Reservations κ × Progress κ :=
  let before := s.replay.allocated
  match s.replay.reserveCapacity target allocation with
  | (.error _, replay) => (r, .running (.shrink { s with replay } bytes (target - before)))
  | (.ok actual, replay) =>
    let s := { s with replay }
    if actual = target then (r.unlock (s.append bytes), .ended true)
    else if target < actual then (r, .running (.excess s bytes target actual))
    else (r, .running (.shrink s bytes (target - actual)))

/-- One access of a call. `r` no longer lists the call among its tasks. -/
def perform (r : Reservations κ) (task : Task κ) (allocation : ReplayBuffer.Allocation) :
    Reservations κ × Progress κ :=
  match task with
  | .acquire owner leases want wants =>
    match r.take want.first want.count with
    | (false, r) => (r, abandon leases)
    | (true, r) =>
      let lease : Lease κ := ⟨want.first, none, want.count⟩
      match want.second with
      | none => r.built owner (lease :: leases) wants
      | some second => (r, .running (.attach owner leases lease second wants))
  | .attach owner leases lease second wants =>
    match r.take second lease.count with
    | (false, r) => (r, abandon (lease :: leases))
    | (true, r) => r.built owner ({ lease with second := some second } :: leases) wants
  | .inputSlots owner bytes slots count =>
    match r.take slots 1 with
    | (false, r) => (r, .ended false)
    | (true, r) => (r, .running (.inputBytes owner bytes slots count))
  | .inputBytes owner bytes slots count =>
    match r.take bytes count with
    | (false, r) => (r, .running (.giveBack [(slots, 1)] true))
    | (true, r) => ({ r with inputs := (owner, ⟨bytes, slots, count⟩) :: r.inputs }, .ended true)
  | .registerWatcher session =>
    match r.take r.observers 1 with
    | (false, r) => (r, .ended false)
    | (true, r) => (r, .running (.insertWatcher session))
  | .insertWatcher session =>
    match r.sessions.find? (·.id = session) with
    | none => (r, .running (.insertWatcher session))
    | some s =>
      let r := { r with sessions := s.insertWatcher.2 :: r.sessions.eraseP (·.id = session) }
      match s.insertWatcher.1 with
      | .error _ => (r, .running (.giveBack [(r.observers, 1)] true))
      | .ok _ => (r, .ended true)
  | .removeWatcher session id =>
    match r.sessions.find? (·.id = session) with
    | none => (r, .running (.removeWatcher session id))
    | some s =>
      let r := { r with sessions := (s.takeWatcher id).2 :: r.sessions.eraseP (·.id = session) }
      if (s.takeWatcher id).1 then (r, .running (.giveBack [(r.observers, 1)] false))
      else (r, .ended true)
  | .output session bytes staging =>
    match r.sessions.find? (·.id = session) with
    | none => (r, .running (.output session bytes staging))
    | some s => { r with sessions := r.sessions.eraseP (·.id = session) }.locked s bytes staging
  | .grow s bytes target =>
    match r.take r.replayQuota (target - s.replay.allocated) with
    | (false, r) => (r.unlock (s.append bytes), .ended true)
    | (true, r) =>
      r.reserved { s with acquired := s.acquired + (target - s.replay.allocated) } bytes target
        allocation
  | .excess s bytes target actual =>
    match r.take r.replayQuota (actual - target) with
    | (false, r) => (r, .running (.shrink { s with replay := s.replay.releaseStorage } bytes target))
    | (true, r) =>
      (r.unlock ({ s with acquired := s.acquired + (actual - target) }.append bytes), .ended true)
  | .shrink s bytes amount =>
    ((r.put r.replayQuota amount).unlock ({ s with released := s.released + amount }.append bytes),
      .ended true)
  | .giveBack [] refused => (r, .ended (!refused))
  | .giveBack ((q, amount) :: pending) refused =>
    (r.put q amount, if pending = [] then .ended (!refused) else .running (.giveBack pending refused))

/-- The calls of the runtime's threads. -/
inductive Call (κ : Type) where
  | lease (owner : Nat) (want : Want κ) (wants : List (Want κ))
  | inputLease (owner : Nat) (bytes slots : κ) (count : Nat)
  | registerWatcher (session : Nat)
  | removeWatcher (session id : Nat)
  | output (session : Nat) (bytes : Bytes) (staging : Staging)

def Call.task {κ : Type} : Call κ → Task κ
  | .lease owner want wants => .acquire owner [] want wants
  | .inputLease owner bytes slots count => .inputSlots owner bytes slots count
  | .registerWatcher session => .registerWatcher session
  | .removeWatcher session id => .removeWatcher session id
  | .output session bytes staging => .output session bytes staging

/-- One scheduling decision. `moveLease` hands a lease to another owner; `poison` is a
panic under the state mutex; `dropSession` is the end of the last handle. -/
inductive Event (κ : Type) where
  | openSession (lifetime : SessionLifetime) (replayBytes maxObservers : Nat)
  | begin (call : Call κ)
  | advance (index : Nat) (allocation : ReplayBuffer.Allocation)
  | moveLease (index owner : Nat)
  | dropLease (index : Nat)
  | dropInput (index : Nat)
  | poison (session : Nat)
  | dropSession (session : Nat)

/-- What `SessionContext::drop` gives back, in order. -/
def dropReleases (r : Reservations κ) (s : ChargedSession) : List (κ × Nat) :=
  [(r.replayQuota, s.replay.allocated), (r.observers, s.watchers.entries.length)]

def spawn (r : Reservations κ) (task : Task κ) : Reservations κ :=
  { r with tasks := r.tasks ++ [task] }

def settle : Reservations κ × Progress κ → Reservations κ
  | (r, .running task) => r.spawn task
  | (r, .ended _) => r

/-- Events that name an absent lease, call or session, or a context a call still uses,
do nothing. -/
def step (r : Reservations κ) : Event κ → Reservations κ
  | .openSession lifetime replayBytes maxObservers =>
    { r with
      sessions := .new r.nextSession lifetime replayBytes maxObservers :: r.sessions
      nextSession := r.nextSession + 1 }
  | .begin call => r.spawn call.task
  | .advance index allocation =>
    match r.tasks[index]? with
    | none => r
    | some task =>
      settle ({ r with tasks := r.tasks.eraseIdx index }.perform task allocation)
  | .moveLease index owner =>
    match r.leases[index]? with
    | none => r
    | some (_, lease) => { r with leases := (owner, lease) :: r.leases.eraseIdx index }
  | .dropLease index =>
    match r.leases[index]? with
    | none => r
    | some (_, lease) =>
      { r with leases := r.leases.eraseIdx index }.spawn (.giveBack lease.releases false)
  | .dropInput index =>
    match r.inputs[index]? with
    | none => r
    | some (_, lease) =>
      { r with inputs := r.inputs.eraseIdx index }.spawn (.giveBack lease.releases false)
  | .poison session =>
    match r.sessions.find? (·.id = session) with
    | none => r
    | some s =>
      { r with sessions := { s with poisoned := true } :: r.sessions.eraseP (·.id = session) }
  | .dropSession session =>
    match r.sessions.find? (·.id = session) with
    | none => r
    | some s =>
      if r.tasks.any fun task => task.session? = some session then r
      else
        { r with sessions := r.sessions.eraseP (·.id = session) }.spawn
          (.giveBack (r.dropReleases s) false)

def run (r : Reservations κ) (events : List (Event κ)) : Reservations κ := events.foldl step r

/-- A runtime before its first session. -/
def new (limits : κ → Nat) (observers replayQuota : κ) : Reservations κ where
  quotas q := ⟨limits q, 0⟩
  observers
  replayQuota

end Reservations
end PtyRuntime
