import PtyRuntime.Domain.Identity

/-! The bounded latency histogram. Calls on several threads share it through atomic
counters, so a call is modelled as the list of atomic updates it makes. An integer
operation that would leave its type, or an index its array, is a panic. -/
namespace PtyRuntime.Diagnostics

inductive Panic where
  | overflow
  | outOfBounds
  deriving DecidableEq, Repr

/-- `u128::MAX`. -/
def u128Max : Nat := 2 ^ 128 - 1

/-- `+` on an unsigned type with the given greatest value. -/
def addIn (top a b : Nat) : Except Panic Nat := if a + b ≤ top then .ok (a + b) else .error .overflow

/-- `*` on an unsigned type with the given greatest value. -/
def mulIn (top a b : Nat) : Except Panic Nat := if a * b ≤ top then .ok (a * b) else .error .overflow

/-- `div_ceil` on an unsigned type with the given greatest value. -/
def divCeil (top a b : Nat) : Except Panic Nat := if a % b > 0 then addIn top (a / b) 1 else .ok (a / b)

/-- `u64::saturating_add`. -/
def saturatingAdd (a b : UInt64) : UInt64 := .ofNat (min (a.toNat + b.toNat) u64Max)

/-- `std::time::Duration`. -/
structure Duration where
  secs : UInt64
  nanos : Fin 1000000000
  deriving DecidableEq, Repr

namespace Duration

/-- `Duration::MAX`. -/
def max : Duration := ⟨.ofNat u64Max, 999999999⟩

def asNanos (d : Duration) : Except Panic Nat := do
  let whole ← mulIn u128Max d.secs.toNat 1000000000
  addIn u128Max whole d.nanos

end Duration

def BUCKETS : Nat := 1025

def WIDTH_US : Nat := 100

/-- Bounded success histogram and explicit failure count. -/
structure LatencySnapshot where
  /-- Successes distributed across fixed 100us buckets and one overflow bucket. -/
  buckets : Vector UInt64 BUCKETS
  failures : UInt64
  unavailable : UInt64
  /-- Maximum successful elapsed time, rounded up to microseconds. -/
  maximumUs : UInt64
  deriving DecidableEq, Repr

namespace LatencySnapshot

/-- Success sample count; saturation is reported as `u64::MAX`. -/
def samples (s : LatencySnapshot) : UInt64 := s.buckets.toList.foldl saturatingAdd 0

/-- The loop of `percentile_upper_us` over the buckets with their indices. -/
def locate (s : LatencySnapshot) (rank : Nat) : List (UInt64 × Nat) → Nat → Except Panic (Option UInt64)
  | [], _ => .ok none
  | (count, index) :: rest, total => do
    let total ← addIn u128Max total count.toNat
    if total ≥ rank then
      if index = BUCKETS - 1 then return some s.maximumUs
      else
        let next ← addIn u64Max index 1
        let upper ← mulIn u64Max next WIDTH_US
        return some (min (.ofNat upper) s.maximumUs)
    else s.locate rank rest total

/-- Conservative percentile in microseconds; none for no samples or an invalid percentile. -/
def percentileUpperUs (s : LatencySnapshot) (percentile : UInt8) : Except Panic (Option UInt64) :=
  if s.samples = 0 ∨ percentile = 0 ∨ percentile > 100 then .ok none
  else do
    let scaled ← mulIn u128Max s.samples.toNat percentile.toNat
    let rank ← divCeil u128Max scaled 100
    s.locate rank s.buckets.toList.zipIdx 0

end LatencySnapshot

structure Histogram where
  buckets : Vector UInt64 BUCKETS
  failures : UInt64
  unavailable : UInt64
  maximumUs : UInt64
  deriving DecidableEq, Repr

def increment (counter : UInt64) : UInt64 := saturatingAdd counter 1

/-- One atomic read-modify-write of a counter. -/
inductive Update where
  | failed
  | unmeasured
  | longest (micros : UInt64)
  | counted (bucket : Fin BUCKETS)
  deriving DecidableEq, Repr

namespace Histogram

def new : Histogram := ⟨.replicate BUCKETS 0, 0, 0, 0⟩

/-- `unavailable`. -/
def noteUnavailable : List Update := [.unmeasured]

/-- The updates of one `record`. -/
def record (elapsed : Duration) (success : Bool) : Except Panic (List Update) :=
  if !success then .ok [.failed]
  else do
    let nanos ← elapsed.asNanos
    let rounded ← divCeil u128Max nanos 1000
    let micros : UInt64 := .ofNat (min rounded u64Max)
    let bucket := min ((micros.toNat - 1) / WIDTH_US) (BUCKETS - 1)
    if inside : bucket < BUCKETS then return [.longest micros, .counted ⟨bucket, inside⟩]
    else throw .outOfBounds

/-- A call that measures a boundary. -/
inductive Call where
  | record (elapsed : Duration) (success : Bool)
  | unavailable
  deriving DecidableEq, Repr

def Call.updates : Call → Except Panic (List Update)
  | .record elapsed success => Histogram.record elapsed success
  | .unavailable => .ok Histogram.noteUnavailable

def apply (h : Histogram) : Update → Histogram
  | .failed => { h with failures := increment h.failures }
  | .unmeasured => { h with unavailable := increment h.unavailable }
  | .longest micros => { h with maximumUs := max h.maximumUs micros }
  | .counted bucket => { h with buckets := h.buckets.set bucket (increment (h.buckets.get bucket)) }

def run (h : Histogram) (updates : List Update) : Histogram := updates.foldl apply h

def snapshot (h : Histogram) : LatencySnapshot := ⟨h.buckets, h.failures, h.unavailable, h.maximumUs⟩

end Histogram

end PtyRuntime.Diagnostics
