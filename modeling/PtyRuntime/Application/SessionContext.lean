import PtyRuntime.Domain.Session
import PtyRuntime.Application.Quota
import PtyRuntime.SortedMap

/-! One session's shared context: raw replay, lifecycle status and the watchers
of its output, all under the state mutex. Quotas are shared with the runtime's
other sessions. -/
namespace PtyRuntime

/-- Where a new attachment starts. -/
inductive AttachPosition where
  | oldest
  | tail
  | cursor (cursor : ReplayCursor)
  deriving DecidableEq, Repr

def AttachPosition.resolve (position : AttachPosition) (replay : ReplayBuffer) : ReplayCursor :=
  match position with
  | .oldest => replay.floor
  | .tail => replay.endCursor
  | .cursor at' => at'

/-- What the projection answered to an output chunk offered to it. -/
inductive Staging where
  | unprojected
  | unavailable
  | answered (acceptance : OutputAcceptance)
  deriving DecidableEq, Repr

/-- The mutex-protected state together with the budgets its methods charge.
`poisoned` holds once a panic unwound through the mutex. -/
structure SessionContext where
  replay : ReplayBuffer
  status : SessionStatus := {}
  watchers : SortedMap Nat (Option Waker) := .empty
  nextWatcher : Nat := 0
  poisoned : Bool := false
  replayBytes : Nat
  maxObservers : Nat
  pageBytes : Nat
  observers : Quota
  replayQuota : Quota

namespace SessionContext

def new (lifetime : SessionLifetime) (replayBytes maxObservers pageBytes : Nat)
    (observers replayQuota : Quota) : SessionContext where
  replay := .new lifetime replayBytes
  replayBytes
  maxObservers
  pageBytes
  observers
  replayQuota

def registerWatcher (c : SessionContext) : Except RuntimeError Nat × SessionContext :=
  match c.observers.acquire 1 with
  | (false, _) => (.error .capacity, c)
  | (true, observers) =>
    let refused (e : RuntimeError) := (.error e, { c with observers := observers.release 1 })
    if c.poisoned then refused .internal
    else if c.watchers.entries.length ≥ c.maxObservers then refused .capacity
    else
      match checkedAdd c.nextWatcher 1 with
      | none => refused .capacity
      | some next =>
        (.ok c.nextWatcher, { c with
          observers
          nextWatcher := next
          watchers := c.watchers.insert c.nextWatcher none })

def removeWatcher (c : SessionContext) (id : Nat) : SessionContext :=
  if c.poisoned ∨ (c.watchers.get? id).isNone then c
  else { c with watchers := c.watchers.erase id, observers := c.observers.release 1 }

def setWaker (c : SessionContext) (id : Nat) (waker : Option Waker) : SessionContext :=
  { c with watchers := c.watchers.mapValues fun key old => if key = id then waker else old }

def clearWaker (c : SessionContext) (id : Nat) : SessionContext :=
  if c.poisoned then c else c.setWaker id none

/-- Take every registered waker. -/
def takeWakers (c : SessionContext) : List Waker × SessionContext :=
  (c.watchers.entries.filterMap (·.2),
    { c with watchers := c.watchers.mapValues fun _ _ => none })

/-- The next page, or completion once no page is left. -/
def read (c : SessionContext) (cursor : ReplayCursor) : Except RuntimeError (Option OutputEvent) :=
  match c.replay.read cursor c.pageBytes with
  | .error _ => .error .invalidCursor
  | .ok .pending => .ok (c.status.completion.map .complete)
  | .ok page => .ok (some (.replay page))

/-- The starting cursor of an attachment whose watcher is registered. -/
def attachCursor (c : SessionContext) (position : AttachPosition) :
    Except RuntimeError ReplayCursor :=
  if c.poisoned then .error .internal
  else
    match c.replay.read (position.resolve c.replay) c.pageBytes with
    | .error _ => .error .invalidCursor
    | .ok _ => .ok (position.resolve c.replay)

/-- A lifecycle callback; every one but a cancellation wakes the watchers. -/
def report (c : SessionContext) (event : SessionStatus.Report) : List Waker × SessionContext :=
  if c.poisoned then ([], c)
  else
    let c := { c with status := c.status.report event }
    if event = .cancel then ([], c) else c.takeWakers

/-- Raise the replay capacity towards what the chunk needs, in pages, as far as
the shared quota and the allocator allow. Capacity the allocator grants in excess
is charged before use, or all storage is released. -/
def admitReplay (replay : ReplayBuffer) (quota : Quota) (replayBytes chunkLen : Nat)
    (allocation : ReplayBuffer.Allocation) : ReplayBuffer × Quota :=
  let capacity := replay.allocated
  let needed := min (min (replay.bytes.length + chunkLen) u64Max) replayBytes
  let target := min (min (min (needed + 4095) u64Max / 4096 * 4096) u64Max) replayBytes
  if target > capacity then
    match quota.acquire (target - capacity) with
    | (false, quota) => (replay, quota)
    | (true, quota) =>
      match replay.reserveCapacity target allocation with
      | (.error _, replay) => (replay, quota.release (target - capacity))
      | (.ok actual, replay) =>
        if actual = target then (replay, quota)
        else if actual > target then
          match quota.acquire (actual - target) with
          | (true, quota) => (replay, quota)
          | (false, quota) => (replay.releaseStorage, quota.release target)
        else (replay, quota.release (target - actual))
  else (replay, quota)

/-- Append a chunk the projection took, or that no projection sees. -/
def retainOutput (c : SessionContext) (bytes : Bytes) (allocation : ReplayBuffer.Allocation) :
    OutputAcceptance × List Waker × SessionContext :=
  let (replay, replayQuota) :=
    admitReplay c.replay c.replayQuota c.replayBytes bytes.length allocation
  match replay.appendWithLimit bytes replay.allocated with
  | (.error _, replay) => (.closed, [], { c with replay, replayQuota })
  | (.ok (), replay) => (.accepted, ({ c with replay, replayQuota }).takeWakers)

/-- The output callback. `staging` is the projection's answer, which is obtained
under the state mutex before raw replay changes. -/
def outputObserved (c : SessionContext) (bytes : Bytes) (staging : Staging)
    (allocation : ReplayBuffer.Allocation) : OutputAcceptance × List Waker × SessionContext :=
  if c.poisoned then (.closed, [], c)
  else
    match staging with
    | .unavailable => (.closed, [], c)
    | .answered .backpressure => (.backpressure, [], c)
    | .answered .closed => (.closed, [], c)
    | .unprojected | .answered .accepted => c.retainOutput bytes allocation

end SessionContext
end PtyRuntime
