import PtyRuntime.Application.Diagnostics.Histogram
import PtyRuntime.Domain.Projection.Options
import PtyRuntime.Quantile
import Mathlib.Algebra.Order.BigOperators.Group.List
import Mathlib.Algebra.Order.Floor.Div
import Mathlib.GroupTheory.GroupAction.Ring

/-! Latency percentiles. The counters of a quiescent histogram depend only on which calls
were made, and a percentile is the bound of the bucket that holds the sample of its rank. -/
namespace PtyRuntime.Diagnostics
open Quantile

theorem bind_ok {ε α β : Type} {x : Except ε α} {a : α} (done : x = .ok a) (next : α → Except ε β) :
    (x >>= next) = next a := by
  rw [done]
  rfl

theorem addIn_ok {top a b : Nat} (fits : a + b ≤ top) : addIn top a b = .ok (a + b) := if_pos fits

theorem mulIn_ok {top a b : Nat} (fits : a * b ≤ top) : mulIn top a b = .ok (a * b) := if_pos fits

theorem divCeil_ok {top a b : Nat} (positive : 0 < b) (fits : a < top) : divCeil top a b = .ok (a ⌈/⌉ b) := by
  rw [divCeil]
  split
  · rename_i rest
    have least : a / b ≤ a := Nat.div_le_self a b
    have up : a / b + 1 = a ⌈/⌉ b := by
      refine eq_of_forall_ge_iff fun c => ?_
      rw [ceilDiv_le_iff_le_mul positive, Nat.succ_le_iff, Nat.div_lt_iff_lt_mul positive, Nat.mul_comm b c]
      refine ⟨Nat.le_of_lt, fun below => Nat.lt_of_le_of_ne below ?_⟩
      rintro rfl
      exact Nat.ne_of_gt rest (Nat.mul_mod_left c b)
    rw [addIn_ok (by omega), up]
  · rename_i none
    have whole : b * (a / b) = a := Nat.mul_div_cancel' (Nat.dvd_of_mod_eq_zero (Nat.eq_zero_of_not_pos none))
    have same : a / b = a ⌈/⌉ b := by
      refine eq_of_forall_ge_iff fun c => ?_
      rw [ceilDiv_le_iff_le_mul positive]
      exact ⟨fun le => whole ▸ Nat.mul_le_mul_left b le, fun le => Nat.div_le_of_le_mul le⟩
    rw [same]

@[simp] theorem saturatingAdd_toNat (a b : UInt64) : (saturatingAdd a b).toNat = min (a.toNat + b.toNat) u64Max := by
  rw [saturatingAdd, UInt64.toNat_ofNat', Nat.mod_eq_of_lt]
  have : u64Max < 2 ^ 64 := by decide
  omega

theorem toNat_le (a : UInt64) : a.toNat ≤ u64Max := Nat.le_sub_one_of_lt a.toNat_lt

theorem toNat_min (a b : UInt64) : (min a b).toNat = min a.toNat b.toNat := by
  change (if a ≤ b then a else b).toNat = _
  split
  · rename_i order
    exact (Nat.min_eq_left (UInt64.le_iff_toNat_le.mp order)).symm
  · rename_i order
    exact (Nat.min_eq_right (Nat.le_of_lt (UInt64.lt_iff_toNat_lt.mp (UInt64.not_le.mp order)))).symm

theorem max_le_iff {a b bound : UInt64} : max a b ≤ bound ↔ a ≤ bound ∧ b ≤ bound := by
  change (if a ≤ b then b else a) ≤ bound ↔ _
  split
  · rename_i order
    exact ⟨fun below => ⟨UInt64.le_trans order below, below⟩, And.right⟩
  · rename_i order
    exact ⟨fun below => ⟨below, UInt64.le_trans (UInt64.le_of_lt (UInt64.not_le.mp order)) below⟩, And.left⟩

namespace Duration

/-- The time a duration stands for. -/
def nanoseconds (d : Duration) : Nat := d.secs.toNat * 1000000000 + d.nanos

theorem nanoseconds_le (d : Duration) : d.nanoseconds ≤ durationMax :=
  Nat.add_le_add (Nat.mul_le_mul_right _ (toNat_le d.secs)) (Nat.le_of_lt_succ d.nanos.isLt)

theorem asNanos_ok (d : Duration) : d.asNanos = .ok d.nanoseconds := by
  have wide : d.secs.toNat * 1000000000 + d.nanos ≤ u128Max := Nat.le_trans d.nanoseconds_le (by decide)
  have scaled : mulIn u128Max d.secs.toNat 1000000000 = .ok (d.secs.toNat * 1000000000) :=
    mulIn_ok (Nat.le_trans (Nat.le_add_right _ _) wide)
  exact (bind_ok scaled _).trans (addIn_ok wide)

end Duration

/-- A time in nanoseconds as the histogram sees it: whole microseconds, rounded up and
capped at the greatest counter. -/
def recorded (nanos : Nat) : Nat := min (nanos ⌈/⌉ 1000) u64Max

/-- The bucket of a time in nanoseconds. -/
def bucketOf (nanos : Nat) : Nat := min ((recorded nanos - 1) / WIDTH_US) (BUCKETS - 1)

theorem bucketOf_lt (nanos : Nat) : bucketOf nanos < BUCKETS :=
  Nat.lt_of_le_of_lt (Nat.min_le_right _ _) (by decide)

theorem recorded_mono : Monotone recorded := fun first second order =>
  min_le_min_right _ ((gc_mul_ceilDiv (by decide)).monotone_l order)

theorem bucketOf_mono : Monotone bucketOf := fun _ _ order =>
  min_le_min_right _ (Nat.div_le_div_right (Nat.sub_le_sub_right (recorded_mono order) 1))

/-- The updates of a call. -/
def Histogram.Call.made : Histogram.Call → List Update
  | .record elapsed true =>
    [.longest (.ofNat (recorded elapsed.nanoseconds)), .counted ⟨_, bucketOf_lt elapsed.nanoseconds⟩]
  | .record _ false => [.failed]
  | .unavailable => [.unmeasured]

namespace Histogram

theorem recorded_toNat (nanos : Nat) : (UInt64.ofNat (recorded nanos)).toNat = recorded nanos := by
  rw [UInt64.toNat_ofNat', Nat.mod_eq_of_lt]
  exact Nat.lt_of_le_of_lt (Nat.min_le_right _ _) (by decide)

/-- No call overflows or leaves the buckets. -/
theorem updates_ok (call : Call) : call.updates = .ok call.made := by
  cases call with
  | unavailable => rfl
  | record elapsed success =>
    cases success with
    | false => rfl
    | true =>
      have rounded : divCeil u128Max elapsed.nanoseconds 1000 = .ok (elapsed.nanoseconds ⌈/⌉ 1000) :=
        divCeil_ok (by decide) (Nat.lt_of_le_of_lt elapsed.nanoseconds_le (by decide))
      have capped : (UInt64.ofNat (min (elapsed.nanoseconds ⌈/⌉ 1000) u64Max)).toNat = recorded elapsed.nanoseconds :=
        recorded_toNat elapsed.nanoseconds
      rw [Call.updates, record, Bool.not_true, if_neg Bool.false_ne_true, bind_ok elapsed.asNanos_ok,
        bind_ok rounded]
      simp only [capped]
      exact dif_pos (bucketOf_lt elapsed.nanoseconds)

/-- The updates of some calls, each made once, in any order the threads that make them allow. -/
def Recorded (calls : List Call) (updates : List Update) : Prop :=
  ∃ each, List.Forall₂ (fun call made => call.updates = .ok made) calls each ∧ updates.Perm each.flatten

theorem made_of_updates {calls : List Call} {each : List (List Update)}
    (made : List.Forall₂ (fun call updates => call.updates = .ok updates) calls each) :
    each = calls.map Call.made := by
  induction made with
  | nil => rfl
  | cons first _ ih => rw [List.map_cons, ← ih, Except.ok.inj (first.symm.trans (updates_ok _))]

theorem recorded_iff {calls : List Call} {updates : List Update} :
    Recorded calls updates ↔ updates.Perm (calls.flatMap Call.made) := by
  constructor
  · rintro ⟨each, made, perm⟩
    rwa [made_of_updates made] at perm
  · intro perm
    exact ⟨_, List.forall₂_map_right_iff.mpr (List.forall₂_same.mpr fun call _ => updates_ok call), perm⟩

/-- The times of the calls that succeeded, in nanoseconds. -/
def samples (calls : List Call) : List Nat :=
  calls.filterMap fun
    | .record elapsed true => some elapsed.nanoseconds
    | _ => none

/-- The calls that failed. -/
def failed : Call → Bool
  | .record _ success => !success
  | .unavailable => false

section Made

variable (calls : List Call)

theorem count_counted (bucket : Fin BUCKETS) :
    (calls.flatMap Call.made).count (.counted bucket) = ((samples calls).map bucketOf).count bucket.val := by
  induction calls with
  | nil => rfl
  | cons call rest ih =>
    rw [List.flatMap_cons, List.count_append, ih]
    cases call with
    | unavailable => simp [Call.made, samples]
    | record elapsed success =>
      cases success with
      | false => simp [Call.made, samples]
      | true =>
        have kept : samples (.record elapsed true :: rest) = elapsed.nanoseconds :: samples rest := rfl
        rw [kept, List.map_cons, List.count_cons, Nat.add_comm]
        simp [Call.made, List.count_cons, Fin.ext_iff]

theorem longest_mem {micros : UInt64} :
    .longest micros ∈ calls.flatMap Call.made ↔ ∃ nanos ∈ samples calls, .ofNat (recorded nanos) = micros := by
  induction calls with
  | nil => simp [samples]
  | cons call rest ih =>
    rw [List.flatMap_cons, List.mem_append, ih]
    cases call with
    | unavailable => simp [Call.made, samples]
    | record elapsed success => cases success <;> simp [Call.made, samples, eq_comm]

theorem count_failed : (calls.flatMap Call.made).count .failed = calls.countP failed := by
  induction calls with
  | nil => rfl
  | cons call rest ih =>
    rw [List.flatMap_cons, List.count_append, ih, List.countP_cons, Nat.add_comm]
    cases call with
    | unavailable => rfl
    | record elapsed success => cases success <;> rfl

end Made

theorem increment_toNat (counter : UInt64) : (increment counter).toNat = min (counter.toNat + 1) u64Max :=
  saturatingAdd_toNat counter 1

theorem apply_counted (h : Histogram) (other bucket : Fin BUCKETS) :
    (h.apply (.counted other)).buckets.get bucket =
      if other = bucket then increment (h.buckets.get bucket) else h.buckets.get bucket := by
  change (h.buckets.set other (increment (h.buckets.get other)))[bucket.val] = _
  by_cases same : other = bucket
  · subst same
    rw [if_pos rfl, Vector.getElem_set_self]
  · rw [if_neg same, Vector.getElem_set_ne _ _ fun equal => same (Fin.ext equal)]
    rfl

section Run

variable (h : Histogram) (updates : List Update)

theorem run_bucket (bucket : Fin BUCKETS) :
    ((h.run updates).buckets.get bucket).toNat =
      min ((h.buckets.get bucket).toNat + updates.count (.counted bucket)) u64Max := by
  induction updates generalizing h with
  | nil => exact (Nat.min_eq_left (toNat_le _)).symm
  | cons update rest ih =>
    rw [run, List.foldl_cons]
    refine (ih (h.apply update)).trans ?_
    rw [List.count_cons]
    cases update with
    | failed | unmeasured | longest => rfl
    | counted other =>
      rw [apply_counted]
      by_cases same : other = bucket
      · subst same
        simp only [increment_toNat, beq_self_eq_true, if_true]
        omega
      · simp [same]

theorem run_failures : (h.run updates).failures.toNat = min (h.failures.toNat + updates.count .failed) u64Max := by
  induction updates generalizing h with
  | nil => exact (Nat.min_eq_left (toNat_le _)).symm
  | cons update rest ih =>
    rw [run, List.foldl_cons]
    refine (ih (h.apply update)).trans ?_
    rw [List.count_cons]
    cases update with
    | counted | unmeasured | longest => rfl
    | failed =>
      simp only [apply, increment_toNat, beq_self_eq_true, if_true]
      omega

theorem run_maximum_le {bound : UInt64} :
    (h.run updates).maximumUs ≤ bound ↔ h.maximumUs ≤ bound ∧ ∀ micros, .longest micros ∈ updates → micros ≤ bound := by
  induction updates generalizing h with
  | nil => simp [run]
  | cons update rest ih =>
    rw [run, List.foldl_cons]
    refine (ih (h.apply update)).trans ?_
    cases update with
    | counted | unmeasured | failed => simp [apply]
    | longest micros => simp [apply, max_le_iff, and_assoc]

end Run

end Histogram

namespace LatencySnapshot

variable (s : LatencySnapshot)

/-- What the loop answers for a bucket. -/
def upper (bucket : Nat) : UInt64 :=
  if bucket = BUCKETS - 1 then s.maximumUs else min (.ofNat ((bucket + 1) * WIDTH_US)) s.maximumUs

theorem upper_toNat {bucket : Nat} (inside : bucket < BUCKETS) : (s.upper bucket).toNat =
    if bucket = BUCKETS - 1 then s.maximumUs.toNat else min ((bucket + 1) * WIDTH_US) s.maximumUs.toNat := by
  have small : (bucket + 1) * WIDTH_US < 2 ^ 64 :=
    Nat.lt_of_le_of_lt (Nat.mul_le_mul_right _ inside) (by decide)
  rw [upper]
  split
  · rfl
  · rw [toNat_min, UInt64.toNat_ofNat', Nat.mod_eq_of_lt small]

theorem upper_le {bucket : Nat} (inside : bucket < BUCKETS) : (s.upper bucket).toNat ≤ s.maximumUs.toNat := by
  rw [s.upper_toNat inside]
  split
  · exact Nat.le_refl _
  · exact Nat.min_le_right _ _

theorem upper_mono {first second : Nat} (order : first ≤ second) (inside : second < BUCKETS) :
    (s.upper first).toNat ≤ (s.upper second).toNat := by
  have before : first < BUCKETS := Nat.lt_of_le_of_lt order inside
  by_cases last : second = BUCKETS - 1
  · refine Nat.le_trans (s.upper_le before) ?_
    rw [s.upper_toNat inside, if_pos last]
  · have within : first ≠ BUCKETS - 1 := by omega
    rw [s.upper_toNat before, s.upper_toNat inside, if_neg within, if_neg last]
    exact min_le_min_right _ (Nat.mul_le_mul_right _ (Nat.succ_le_succ order))

/-- The bound of a recorded time's bucket is no less than that time. -/
theorem le_upper {nanos : Nat} (kept : recorded nanos ≤ s.maximumUs.toNat) :
    recorded nanos ≤ (s.upper (bucketOf nanos)).toNat := by
  rw [s.upper_toNat (bucketOf_lt nanos)]
  split
  · exact kept
  · rename_i within
    refine Nat.le_min.mpr ⟨?_, kept⟩
    simp only [bucketOf, WIDTH_US, BUCKETS] at within ⊢
    omega

/-- Below the overflow bucket the bound is less than a bucket's width away. -/
theorem upper_close {nanos : Nat} (short : nanos ⌈/⌉ 1000 ≤ (BUCKETS - 1) * WIDTH_US) :
    (s.upper (bucketOf nanos)).toNat ≤ nanos ⌈/⌉ 1000 + WIDTH_US := by
  have plain : recorded nanos = nanos ⌈/⌉ 1000 := Nat.min_eq_left (Nat.le_trans short (by decide))
  have within : bucketOf nanos ≠ BUCKETS - 1 := by
    rw [bucketOf, plain]
    simp only [WIDTH_US, BUCKETS] at short ⊢
    omega
  rw [s.upper_toNat (bucketOf_lt nanos), if_neg within, bucketOf, plain]
  refine Nat.le_trans (Nat.min_le_left _ _) ?_
  simp only [WIDTH_US, BUCKETS] at short ⊢
  omega

/-- The counts as numbers. -/
def tallies : List Nat := s.buckets.toList.map UInt64.toNat

theorem samples_toNat : s.samples.toNat = min s.tallies.sum u64Max := by
  have folded (counts : List UInt64) (start : UInt64) :
      (counts.foldl saturatingAdd start).toNat = min (start.toNat + (counts.map UInt64.toNat).sum) u64Max := by
    induction counts generalizing start with
    | nil => exact (Nat.min_eq_left (toNat_le _)).symm
    | cons count rest ih =>
      rw [List.foldl_cons, ih, saturatingAdd_toNat, List.map_cons, List.sum_cons]
      omega
  rw [samples, folded, tallies]
  simp

theorem locate_eq {rank start : Nat} {counts : List UInt64} {total : Nat}
    (room : start + counts.length ≤ BUCKETS) (fits : total + (counts.map UInt64.toNat).sum ≤ u128Max) :
    s.locate rank (counts.zipIdx start) total =
      .ok ((reaches rank (counts.map UInt64.toNat) total).map fun place => s.upper (start + place)) := by
  induction counts generalizing start total with
  | nil => rfl
  | cons count rest ih =>
    rw [List.map_cons, List.sum_cons] at fits
    rw [List.length_cons] at room
    rw [List.zipIdx_cons, locate, List.map_cons, reaches, bind_ok (addIn_ok (by omega))]
    by_cases reached : rank ≤ total + count.toNat
    · rw [if_pos reached, if_pos reached]
      have small : (start + 1) * WIDTH_US ≤ u64Max :=
        Nat.le_trans (Nat.mul_le_mul_right _ (by omega : start + 1 ≤ BUCKETS)) (by decide)
      have next : start + 1 ≤ u64Max := Nat.le_trans (by omega : start + 1 ≤ BUCKETS) (by decide)
      rw [Option.map_some, upper, Nat.add_zero]
      split
      · rfl
      · rw [bind_ok (addIn_ok next), bind_ok (mulIn_ok small)]
        rfl
    · rw [if_neg reached, if_neg reached, ih (by omega) (by omega), Option.map_map]
      congr 2
      funext place
      exact congrArg s.upper (Nat.succ_add_eq_add_succ start place)

/-- A percentile that can be asked for. -/
def Asked (percentile : UInt8) : Prop := 1 ≤ percentile ∧ percentile ≤ 100

theorem Asked.toNat {percentile : UInt8} (asked : Asked percentile) :
    1 ≤ percentile.toNat ∧ percentile.toNat ≤ 100 :=
  ⟨UInt8.le_iff_toNat_le.mp asked.1, UInt8.le_iff_toNat_le.mp asked.2⟩

theorem tallies_length : s.tallies.length = BUCKETS := by simp [tallies]

theorem tallies_sum_le : s.tallies.sum ≤ BUCKETS * u64Max := by
  have bound := List.sum_le_card_nsmul s.tallies u64Max (by
    intro count member
    obtain ⟨counter, -, rfl⟩ := List.mem_map.mp member
    exact toNat_le counter)
  rwa [tallies_length, smul_eq_mul] at bound

theorem percentile_none {percentile : UInt8} (none : s.samples = 0 ∨ ¬Asked percentile) :
    s.percentileUpperUs percentile = .ok .none := by
  refine if_pos (none.imp_right fun other => ?_)
  by_contra within
  obtain ⟨some, least⟩ := not_or.mp within
  refine other ⟨?_, UInt8.not_lt.mp least⟩
  exact UInt8.le_iff_toNat_le.mpr (Nat.pos_of_ne_zero fun zero => some (UInt8.toNat_inj.mp zero))

theorem percentile_some {percentile : UInt8} (some : s.samples ≠ 0) (asked : Asked percentile) :
    s.percentileUpperUs percentile =
      .ok ((reaches ((s.samples.toNat * percentile.toNat) ⌈/⌉ 100) s.tallies 0).map s.upper) := by
  obtain ⟨least, most⟩ := asked.toNat
  have known : ¬(s.samples = 0 ∨ percentile = 0 ∨ percentile > 100) := by
    rintro (none | rfl | high)
    · exact some none
    · exact absurd least (by decide)
    · exact UInt8.not_lt.mpr asked.2 high
  have product : s.samples.toNat * percentile.toNat ≤ u64Max * 100 := Nat.mul_le_mul (toNat_le _) most
  have scaled : mulIn u128Max s.samples.toNat percentile.toNat = .ok (s.samples.toNat * percentile.toNat) :=
    mulIn_ok (Nat.le_trans product (by decide))
  have rounded : divCeil u128Max (s.samples.toNat * percentile.toNat) 100 =
      .ok ((s.samples.toNat * percentile.toNat) ⌈/⌉ 100) :=
    divCeil_ok (by decide) (Nat.lt_of_le_of_lt product (by decide))
  have room : 0 + s.buckets.toList.length ≤ BUCKETS := by simp
  have fits : 0 + (s.buckets.toList.map UInt64.toNat).sum ≤ u128Max := by
    rw [Nat.zero_add]
    exact Nat.le_trans s.tallies_sum_le (by decide)
  rw [percentileUpperUs, if_neg known, bind_ok scaled, bind_ok rounded, locate_eq s room fits]
  simp only [Nat.zero_add, tallies]

/-- A percentile never overflows, whatever the counters are. -/
theorem percentile_ok (percentile : UInt8) : ∃ answer, s.percentileUpperUs percentile = .ok answer := by
  by_cases known : s.samples = 0 ∨ ¬Asked percentile
  · exact ⟨_, s.percentile_none known⟩
  · obtain ⟨some, asked⟩ := not_or.mp known
    exact ⟨_, s.percentile_some some (not_not.mp asked)⟩

/-- A percentile reads the counts and the maximum only. -/
theorem percentile_congr {s t : LatencySnapshot} (tallies : s.tallies = t.tallies) (maximum : s.maximumUs = t.maximumUs)
    (percentile : UInt8) : s.percentileUpperUs percentile = t.percentileUpperUs percentile := by
  have total : s.samples = t.samples := by
    rw [← UInt64.toNat_inj, samples_toNat, samples_toNat, tallies]
  have bounds : s.upper = t.upper := by
    funext bucket
    rw [upper, upper, maximum]
  by_cases known : s.samples = 0 ∨ ¬Asked percentile
  · rw [s.percentile_none known, t.percentile_none (total ▸ known)]
  · obtain ⟨some, asked⟩ := not_or.mp known
    have asked := not_not.mp asked
    rw [s.percentile_some some asked, t.percentile_some (total ▸ some) asked, total, tallies, bounds]

end LatencySnapshot

namespace Histogram
open LatencySnapshot

variable {calls : List Call} {updates : List Update}

theorem snapshot_tallies (unsaturated : (samples calls).length ≤ u64Max) (made : Recorded calls updates) :
    (new.run updates).snapshot.tallies = counts ((samples calls).map bucketOf) BUCKETS := by
  refine List.ext_getElem (by simp [tallies, counts]) fun bucket inside _ => ?_
  have inside : bucket < BUCKETS := by simpa [tallies] using inside
  have zero : (new.buckets.get ⟨bucket, inside⟩).toNat = 0 := by simp [new, Vector.get]
  have counted := run_bucket new updates ⟨bucket, inside⟩
  have few : ((samples calls).map bucketOf).count bucket ≤ u64Max :=
    Nat.le_trans List.count_le_length (by rwa [List.length_map])
  rw [(recorded_iff.mp made).count_eq, count_counted] at counted
  rw [zero, Nat.zero_add, Nat.min_eq_left few] at counted
  have held : (new.run updates).buckets[bucket].toNat = ((samples calls).map bucketOf).count bucket := counted
  simpa [tallies, counts, snapshot] using held

theorem snapshot_samples (unsaturated : (samples calls).length ≤ u64Max) (made : Recorded calls updates) :
    (new.run updates).snapshot.samples.toNat = (samples calls).length := by
  have bounded : ∀ bucket ∈ (samples calls).map bucketOf, bucket < BUCKETS := by
    intro bucket member
    obtain ⟨nanos, -, rfl⟩ := List.mem_map.mp member
    exact bucketOf_lt nanos
  rw [samples_toNat, snapshot_tallies unsaturated made, sum_counts, List.countP_eq_length.mpr (by simpa using bounded),
    List.length_map, Nat.min_eq_left unsaturated]

/-- The maximum is the greatest recorded time. -/
theorem snapshot_maximum (made : Recorded calls updates) {bound : UInt64} :
    (new.run updates).snapshot.maximumUs ≤ bound ↔ ∀ nanos ∈ samples calls, recorded nanos ≤ bound.toNat := by
  have zero : new.maximumUs ≤ bound := UInt64.zero_le
  refine (run_maximum_le new updates).trans ?_
  simp only [zero, true_and, (recorded_iff.mp made).mem_iff, longest_mem]
  constructor
  · intro all nanos member
    have below := UInt64.le_iff_toNat_le.mp (all _ ⟨nanos, member, rfl⟩)
    rwa [recorded_toNat] at below
  · rintro all _ ⟨nanos, member, rfl⟩
    rw [UInt64.le_iff_toNat_le, recorded_toNat]
    exact all nanos member

theorem maximum_recorded (made : Recorded calls updates) (some : samples calls ≠ []) :
    ∃ longest ∈ samples calls, (new.run updates).snapshot.maximumUs.toNat ≤ recorded longest := by
  obtain ⟨longest, found⟩ := atRank_some (List.length_pos_iff.mpr some) (Nat.le_refl (samples calls).length)
  refine ⟨longest, atRank_mem found, ?_⟩
  have below : (new.run updates).snapshot.maximumUs ≤ .ofNat (recorded longest) := by
    refine (snapshot_maximum made).mpr fun nanos member => ?_
    rw [recorded_toNat]
    exact recorded_mono (le_atRank_length found member)
  have below := UInt64.le_iff_toNat_le.mp below
  rwa [recorded_toNat] at below

theorem rank_within {count : Nat} {percentile : UInt8} (positive : 0 < count) (asked : Asked percentile) :
    0 < (count * percentile.toNat) ⌈/⌉ 100 ∧ (count * percentile.toNat) ⌈/⌉ 100 ≤ count := by
  obtain ⟨least, most⟩ := asked.toNat
  have hundred : 0 < 100 := by decide
  constructor
  · refine Nat.pos_of_ne_zero fun zero => ?_
    have none := (ceilDiv_le_iff_le_mul hundred).mp (Nat.le_of_eq zero)
    have some := Nat.mul_pos positive least
    omega
  · rw [ceilDiv_le_iff_le_mul hundred, Nat.mul_comm 100]
    exact Nat.mul_le_mul_left count most

/-- A percentile is the bound of the bucket of the sample with its rank. -/
theorem percentile_at (unsaturated : (samples calls).length ≤ u64Max) (made : Recorded calls updates)
    (some : samples calls ≠ []) {percentile : UInt8} (asked : Asked percentile) :
    ∃ sample, atRank (samples calls) (((samples calls).length * percentile.toNat) ⌈/⌉ 100) = .some sample ∧
      (new.run updates).snapshot.percentileUpperUs percentile =
        .ok (.some ((new.run updates).snapshot.upper (bucketOf sample))) := by
  have positive : 0 < (samples calls).length := List.length_pos_iff.mpr some
  obtain ⟨least, most⟩ := rank_within positive asked
  obtain ⟨sample, found⟩ := atRank_some least most
  refine ⟨sample, found, ?_⟩
  have total := snapshot_samples unsaturated made
  have known : (new.run updates).snapshot.samples ≠ 0 := by
    intro zero
    rw [zero] at total
    exact Nat.ne_of_gt positive total.symm
  have bounded : ∀ bucket ∈ (samples calls).map bucketOf, bucket < BUCKETS := by
    intro bucket member
    obtain ⟨nanos, -, rfl⟩ := List.mem_map.mp member
    exact bucketOf_lt nanos
  have placed : atRank ((samples calls).map bucketOf) (((samples calls).length * percentile.toNat) ⌈/⌉ 100) =
      .some (bucketOf sample) := by
    rw [atRank_map bucketOf_mono, found]
    rfl
  rw [percentile_some _ known asked, total, snapshot_tallies unsaturated made,
    reaches_counts bounded least (by rwa [List.length_map]), placed]
  rfl

theorem percentile_empty (unsaturated : (samples calls).length ≤ u64Max) (made : Recorded calls updates)
    (none : samples calls = []) (percentile : UInt8) :
    (new.run updates).snapshot.percentileUpperUs percentile = .ok .none := by
  have total := snapshot_samples unsaturated made
  rw [none] at total
  exact percentile_none _ (.inl (UInt64.toNat_inj.mp total))

theorem percentile_bounds (unsaturated : (samples calls).length ≤ u64Max) (made : Recorded calls updates)
    (some : samples calls ≠ []) {percentile : UInt8} (asked : Asked percentile) :
    ∃ sample upper, atRank (samples calls) (((samples calls).length * percentile.toNat) ⌈/⌉ 100) = .some sample ∧
      (new.run updates).snapshot.percentileUpperUs percentile = .ok (.some upper) ∧
      min (sample ⌈/⌉ 1000) u64Max ≤ upper.toNat ∧ upper ≤ (new.run updates).snapshot.maximumUs ∧
      (∃ longest ∈ samples calls, upper.toNat ≤ longest ⌈/⌉ 1000) ∧
      (sample ⌈/⌉ 1000 ≤ 102400 → upper.toNat ≤ sample ⌈/⌉ 1000 + 100) := by
  obtain ⟨sample, found, answered⟩ := percentile_at unsaturated made some asked
  obtain ⟨longest, member, reached⟩ := maximum_recorded made some
  have kept := (snapshot_maximum made).mp UInt64.le_rfl sample (atRank_mem found)
  have capped := upper_le (new.run updates).snapshot (bucketOf_lt sample)
  refine ⟨sample, _, found, answered, le_upper _ kept, UInt64.le_iff_toNat_le.mpr capped, ⟨longest, member, ?_⟩,
    upper_close _⟩
  exact Nat.le_trans capped (Nat.le_trans reached (Nat.min_le_left _ _))

theorem percentile_mono (unsaturated : (samples calls).length ≤ u64Max) (made : Recorded calls updates)
    {first second : UInt8} (asked : Asked first) (again : Asked second) (order : first ≤ second) {low high : UInt64}
    (below : (new.run updates).snapshot.percentileUpperUs first = .ok (.some low))
    (above : (new.run updates).snapshot.percentileUpperUs second = .ok (.some high)) : low ≤ high := by
  by_cases none : samples calls = []
  · rw [percentile_empty unsaturated made none] at below
    cases below
  · obtain ⟨small, found, answer⟩ := percentile_at unsaturated made none asked
    obtain ⟨large, later, answer'⟩ := percentile_at unsaturated made none again
    obtain rfl := Option.some.inj (Except.ok.inj (answer.symm.trans below))
    obtain rfl := Option.some.inj (Except.ok.inj (answer'.symm.trans above))
    have ranks : ((samples calls).length * first.toNat) ⌈/⌉ 100 ≤ ((samples calls).length * second.toNat) ⌈/⌉ 100 :=
      (gc_mul_ceilDiv (by decide)).monotone_l (Nat.mul_le_mul_left _ (UInt8.le_iff_toNat_le.mp order))
    have samples := atRank_mono ranks found later
    exact UInt64.le_iff_toNat_le.mpr (upper_mono _ (bucketOf_mono samples) (bucketOf_lt large))

/-- Only which times succeeded matters, in whatever order and beside whatever failures. -/
theorem percentile_same (unsaturated : (samples calls).length ≤ u64Max) (made : Recorded calls updates)
    {calls' : List Call} {updates' : List Update} (made' : Recorded calls' updates')
    (perm : (samples calls').Perm (samples calls)) (percentile : UInt8) :
    (new.run updates').snapshot.percentileUpperUs percentile =
      (new.run updates).snapshot.percentileUpperUs percentile := by
  refine percentile_congr ?_ ?_ percentile
  · rw [snapshot_tallies (perm.length_eq ▸ unsaturated) made', snapshot_tallies unsaturated made, counts, counts]
    exact List.map_congr_left fun bucket _ => (perm.map bucketOf).count_eq bucket
  · refine UInt64.le_antisymm ?_ ?_
    · refine (snapshot_maximum made').mpr fun nanos member => ?_
      exact (snapshot_maximum made).mp UInt64.le_rfl nanos (perm.mem_iff.mp member)
    · refine (snapshot_maximum made).mpr fun nanos member => ?_
      exact (snapshot_maximum made').mp UInt64.le_rfl nanos (perm.mem_iff.mpr member)

theorem snapshot_failures (made : Recorded calls updates) :
    (new.run updates).snapshot.failures.toNat = min (calls.countP failed) u64Max := by
  have counted := run_failures new updates
  have zero : new.failures.toNat = 0 := rfl
  rw [(recorded_iff.mp made).count_eq, count_failed, zero, Nat.zero_add] at counted
  exact counted

/-- Whatever calls were made and however their updates took turns, a percentile is a bound
from above on the sample of its rank, close below the overflow bucket, and no arithmetic
overflows on the way. -/
theorem percentiles_conservative {calls : List Call} (unsaturated : (samples calls).length ≤ u64Max)
    {updates : List Update} (made : Recorded calls updates) :
    (∀ call : Call, ∃ updates, call.updates = .ok updates) ∧
    (∀ (s : LatencySnapshot) (percentile : UInt8), ∃ answer, s.percentileUpperUs percentile = .ok answer) ∧
    let s := (new.run updates).snapshot
    (samples calls = [] → ∀ percentile, s.percentileUpperUs percentile = .ok none) ∧
    (samples calls ≠ [] → ∀ percentile, Asked percentile → ∃ sample upper,
      atRank (samples calls) (((samples calls).length * percentile.toNat) ⌈/⌉ 100) = some sample ∧
        s.percentileUpperUs percentile = .ok (some upper) ∧
        min (sample ⌈/⌉ 1000) u64Max ≤ upper.toNat ∧ upper ≤ s.maximumUs ∧
        (∃ longest ∈ samples calls, upper.toNat ≤ longest ⌈/⌉ 1000) ∧
        (sample ⌈/⌉ 1000 ≤ 102400 → upper.toNat ≤ sample ⌈/⌉ 1000 + 100)) ∧
    (∀ first second, Asked first → Asked second → first ≤ second → ∀ low high,
      s.percentileUpperUs first = .ok (some low) → s.percentileUpperUs second = .ok (some high) → low ≤ high) ∧
    s.samples.toNat = (samples calls).length ∧ s.failures.toNat = min (calls.countP failed) u64Max ∧
    (∀ calls' updates', Recorded calls' updates' → (samples calls').Perm (samples calls) → ∀ percentile,
      (new.run updates').snapshot.percentileUpperUs percentile = s.percentileUpperUs percentile) := by
  refine ⟨fun call => ⟨_, updates_ok call⟩, percentile_ok, percentile_empty unsaturated made, ?_, ?_,
    snapshot_samples unsaturated made, snapshot_failures made, ?_⟩
  · intro some percentile asked
    exact percentile_bounds unsaturated made some asked
  · intro first second asked again order low high below above
    exact percentile_mono unsaturated made asked again order below above
  · intro calls' updates' made' perm percentile
    exact percentile_same unsaturated made made' perm percentile

/-- Two measured times, a failure and an unmeasured boundary, on threads that take turns. -/
def sampleCalls : List Call :=
  [.record ⟨0, ⟨100000, by decide⟩⟩ true, .record ⟨10, ⟨0, by decide⟩⟩ false,
    .record ⟨0, ⟨100001, by decide⟩⟩ true, .unavailable]

def sampleUpdates : List Update :=
  [.longest 101, .failed, .longest 100, .counted ⟨0, by decide⟩, .unmeasured, .counted ⟨1, by decide⟩]

theorem sample_recorded : Recorded sampleCalls sampleUpdates := recorded_iff.mpr (by decide +kernel)

theorem percentiles_conservative_sample :
    ∃ upper, (new.run sampleUpdates).snapshot.percentileUpperUs 50 = .ok (some upper) ∧
      100 ≤ upper.toNat ∧ upper.toNat ≤ 101 := by
  obtain ⟨-, -, -, bounds, -⟩ := percentiles_conservative (by decide +kernel) sample_recorded
  obtain ⟨sample, upper, found, answered, above, -, ⟨longest, member, below⟩, -⟩ :=
    bounds (by decide +kernel) 50 ⟨by decide, by decide⟩
  have first : atRank (samples sampleCalls) (((samples sampleCalls).length * (50 : UInt8).toNat) ⌈/⌉ 100) =
    some 100000 := by decide +kernel
  obtain rfl := Option.some.inj (first.symm.trans found)
  refine ⟨upper, answered, above, Nat.le_trans below ?_⟩
  have all : ∀ nanos ∈ samples sampleCalls, nanos ⌈/⌉ 1000 ≤ 101 := by decide +kernel
  exact all longest member

/-- A time beyond the greatest counter of microseconds is capped, so the answer is below it;
and without samples there is no answer. -/
theorem longest_duration_capped :
    Recorded [.record .max true] [.longest (.ofNat u64Max), .counted ⟨BUCKETS - 1, by decide⟩] ∧
    (∃ upper, (new.run [.longest (.ofNat u64Max), .counted ⟨BUCKETS - 1, by decide⟩]).snapshot.percentileUpperUs 100 =
      .ok (some upper) ∧ upper.toNat < Duration.max.nanoseconds ⌈/⌉ 1000) ∧
    new.snapshot.percentileUpperUs 100 = .ok none := by
  have made : Recorded [.record .max true] [.longest (.ofNat u64Max), .counted ⟨BUCKETS - 1, by decide⟩] :=
    recorded_iff.mpr (by decide +kernel)
  have few : (samples [.record .max true]).length ≤ u64Max := by decide +kernel
  have some : samples [.record .max true] ≠ [] := by decide +kernel
  have asked : Asked 100 := ⟨by decide, by decide⟩
  obtain ⟨sample, -, answered⟩ := percentile_at few made some asked
  refine ⟨made, ⟨_, answered, ?_⟩, ?_⟩
  · have long : u64Max < Duration.max.nanoseconds ⌈/⌉ 1000 := by decide +kernel
    exact Nat.lt_of_le_of_lt (toNat_le _) long
  · have none : Recorded [] [] := ⟨[], .nil, .nil⟩
    exact percentile_empty (Nat.zero_le _) none rfl 100

end Histogram

end PtyRuntime.Diagnostics
