import PtyRuntime.Application.Projection.Native
import PtyRuntime.Domain.ProgramStatus.Footprint

/-! Program status memory, charged to the view quota that all of a runtime's sessions
share. The status lock is held for a whole call, so the only thing another holder of the
quota can do to one is to take from the quota, or give back, before each of its accesses. -/
namespace PtyRuntime

/-- One access of another holder. A lease is given back by its place in the list. -/
inductive ViewAccess where
  | acquire (count : Nat)
  | release (index : Nat)

/-- The shared quota, with the leases of everyone but this session's store and calls. -/
structure Views where
  quota : Quota
  elsewhere : List Nat := []

namespace Views

def access (v : Views) : ViewAccess → Views
  | .acquire count =>
    match v.quota.acquire count with
    | (false, _) => v
    | (true, quota) => { quota, elsewhere := v.elsewhere ++ [count] }
  | .release index =>
    match v.elsewhere[index]? with
    | none => v
    | some count => { quota := v.quota.release count, elsewhere := v.elsewhere.eraseIdx index }

def contend (v : Views) (accesses : List ViewAccess) : Views := accesses.foldl access v

/-- `Lease::shared`, after what the others do first. A lease is known by its amount. -/
def lease (v : Views) (others : List ViewAccess) (count : Nat) : Option Nat × Views :=
  match (v.contend others).quota.acquire count with
  | (false, _) => (none, v.contend others)
  | (true, quota) => (some count, { v.contend others with quota })

/-- A lease is taken only for an amount above zero. -/
def leaseAny (v : Views) (others : List ViewAccess) (count : Nat) : Option (Option Nat) × Views :=
  if count > 0 then
    match v.lease others count with
    | (none, v) => (none, v)
    | (some lease, v) => (some (some lease), v)
  else (some none, v)

/-- `Lease::drop`. -/
def drop (v : Views) (count : Nat) : Views := { v with quota := v.quota.release count }

/-- A lease that outlives the call: that of a reply on its way to the process. -/
def keep (v : Views) (count : Nat) : Views := { v with elsewhere := v.elsewhere ++ [count] }

/-- The quota once every other holder has given back what it was granted. -/
def released (v : Views) (own : Nat) : Views := { quota := { v.quota with used := own } }

end Views

/-- What the others do before each of the three admissions of one call. -/
structure Contention where
  scan : List ViewAccess := []
  records : List ViewAccess := []
  reply : List ViewAccess := []

/-- `ProgramStatusState`, with the store's allocations and the amount of its record lease. -/
structure OwnedStatus where
  store : Option OwnedStore
  memory : Option Nat := none

/-- `PreparedStatus`: a plan and the three leases it was admitted with. -/
structure OwnedPrepared where
  plan : OwnedPlan
  scanMemory : Nat
  recordMemory : Option Nat
  replyMemory : Nat

namespace OwnedStatus

/-- What the session's records are charged already. -/
def owned (s : OwnedStatus) (store : OwnedStore) : Nat :=
  if s.memory.isSome then store.recordReservation else 0

/-- Queries are answered into a buffer beside the native one. -/
def replyReservation (plan : OwnedPlan) (replyLimit : Nat) : Nat :=
  if plan.queries.items = [] then replyLimit else replyLimit * 2

/-- The first plan that holds anything on the heap brings the record lease. -/
def recordReservation (s : OwnedStatus) (store : OwnedStore) (plan : OwnedPlan) : Nat :=
  if s.memory.isNone ∧ plan.retainedBytes > 0 then store.recordReservation else 0

/-- The second half of `prepare_status`, where the plan tells how much more is needed. -/
def admitPlan (s : OwnedStatus) (store : OwnedStore) (plan : OwnedPlan) (v : Views) (scratch replyLimit : Nat)
    (busy : Contention) : Except Coordinator.StatusAdmissionError OwnedPrepared × Views :=
  if s.owned store + scratch + replyReservation plan replyLimit + s.recordReservation store plan > v.quota.limit then
    (.error (.failed .capacity), v.drop scratch)
  else
    match v.leaseAny busy.records (s.recordReservation store plan) with
    | (none, v) => (.error .retry, v.drop scratch)
    | (some recordMemory, v) =>
      match v.lease busy.reply (replyReservation plan replyLimit) with
      | (none, v) => (.error .retry, (v.drop (recordMemory.getD 0)).drop scratch)
      | (some replyMemory, v) => (.ok { plan, scanMemory := scratch, recordMemory, replyMemory }, v)

/-- `prepare_status`. The leases of a call that fails are dropped when it returns. -/
def prepareStatus (s : OwnedStatus) (v : Views) (bytes : Bytes) (replyLimit : Nat) (busy : Contention) :
    Except Coordinator.StatusAdmissionError OwnedPrepared × Views :=
  match s.store with
  | none => (.error (.failed .closed), v)
  | some store =>
    match store.scanReservationFor bytes with
    | .error _ => (.error (.failed .capacity), v)
    | .ok scratch =>
      if s.owned store + scratch + replyLimit > v.quota.limit then (.error (.failed .capacity), v)
      else
        match v.lease busy.scan scratch with
        | (none, v) => (.error .retry, v)
        | (some scanMemory, v) =>
          match store.scan bytes with
          | .error _ => (.error (.failed .capacity), v.drop scanMemory)
          | .ok plan => s.admitPlan store plan v scanMemory replyLimit busy

def commitStatus (s : OwnedStatus) (plan : OwnedPlan) (recordMemory : Option Nat) :
    Except ProjectionError Unit × OwnedStatus :=
  match s.store with
  | none => (.error .closed, s)
  | some store =>
    match store.commit plan with
    | (.error _, store) => (.error .worker, { s with store := some store })
    | (.ok (), store) => (.ok (), { store := some store, memory := recordMemory.or s.memory })

end OwnedStatus

/-- How the terminal took an admitted chunk. -/
inductive Feeding where
  | failed
  | fed (replied : Bool)

/-- A session's program status and the quota it is charged to. -/
structure StatusMemory where
  status : OwnedStatus
  views : Views
  replyLimit : Nat

namespace StatusMemory

inductive Event where
  | output (bytes : Bytes) (busy : Contention) (feeding : Feeding)
  | other (access : ViewAccess)
  | processExited
  | cleared

/-- `apply_output` as far as the status memory goes. A chunk that was not fed, or whose plan
is refused, drops all it was admitted with. -/
def apply (m : StatusMemory) (prepared : OwnedPrepared) (v : Views) : Feeding → StatusMemory
  | .failed =>
    { m with views := ((v.drop prepared.replyMemory).drop (prepared.recordMemory.getD 0)).drop prepared.scanMemory }
  | .fed replied =>
    match m.status.commitStatus prepared.plan prepared.recordMemory with
    | (.error _, status) =>
      { m with
        status
        views := ((v.drop (prepared.recordMemory.getD 0)).drop prepared.replyMemory).drop prepared.scanMemory }
    | (.ok (), status) =>
      { m with
        status
        views := (if replied then v.keep prepared.replyMemory else v.drop prepared.replyMemory).drop
          prepared.scanMemory }

def step (m : StatusMemory) : Event → StatusMemory
  | .output bytes busy feeding =>
    match m.status.prepareStatus m.views bytes m.replyLimit busy with
    | (.error _, views) => { m with views }
    | (.ok prepared, views) => m.apply prepared views feeding
  | .other access => { m with views := m.views.access access }
  -- `apply_program_exit`, and `finish_program_drain` once more
  | .processExited => { m with status := { m.status with store := m.status.store.map (·.processExited.2) } }
  | .cleared => { m with status := { store := none }, views := m.views.drop (m.status.memory.getD 0) }

def run (m : StatusMemory) (events : List Event) : StatusMemory := events.foldl step m

/-- A session whose store is empty, on a quota no one has taken from. -/
def start (store : OwnedStore) (viewLimit replyLimit : Nat) : StatusMemory where
  status := { store := some store }
  views := { quota := { limit := viewLimit, used := 0 } }
  replyLimit

end StatusMemory
end PtyRuntime
