import PtyRuntime.Application.Projection.StatusMemory
import PtyRuntime.Tally

/-! What one call of `prepare_status` does to the view quota, whatever the other holders do
between its accesses: the books balance at each of them. -/
namespace PtyRuntime

namespace Views

open Tally

/-- The quota stands at the leases of the others and at what this session holds. -/
structure Balanced (limit own : Nat) (v : Views) : Prop where
  capped : v.quota.limit = limit
  used : v.quota.used = total id v.elsewhere + own
  within : v.quota.used ≤ limit

variable {limit own : Nat} {v : Views}

theorem Balanced.access (balanced : v.Balanced limit own) (access : ViewAccess) :
    (v.access access).Balanced limit own := by
  obtain ⟨capped, used, within⟩ := balanced
  cases access with
  | acquire count =>
    simp only [Views.access, Quota.acquire_eq]
    by_cases room : v.quota.used + count ≤ u64Max ∧ v.quota.used + count ≤ v.quota.limit
    · rw [if_pos room]
      refine ⟨capped, ?_, capped ▸ room.2⟩
      simp only [total_append, total_cons, total_nil, id]
      omega
    · rw [if_neg room]
      exact ⟨capped, used, within⟩
  | release index =>
    simp only [Views.access]
    cases found : v.elsewhere[index]? with
    | none => exact ⟨capped, used, within⟩
    | some count =>
      have taken := @total_eraseIdx _ id _ _ _ found
      simp only [id] at taken
      refine ⟨capped, ?_, ?_⟩
      · simp only [Quota.release]
        omega
      · simp only [Quota.release]
        omega

theorem Balanced.contend (balanced : v.Balanced limit own) (accesses : List ViewAccess) :
    (v.contend accesses).Balanced limit own := by
  induction accesses generalizing v with
  | nil => exact balanced
  | cons access rest ih => exact ih (balanced.access access)

theorem Balanced.drop {count : Nat} (balanced : v.Balanced limit (own + count)) :
    (v.drop count).Balanced limit own := by
  obtain ⟨capped, used, within⟩ := balanced
  refine ⟨capped, ?_, ?_⟩
  · simp only [Views.drop, Quota.release]
    omega
  · simp only [Views.drop, Quota.release]
    omega

theorem Balanced.keep {count : Nat} (balanced : v.Balanced limit (own + count)) :
    (v.keep count).Balanced limit own := by
  refine ⟨balanced.capped, ?_, balanced.within⟩
  simp only [Views.keep, total_append, total_cons, total_nil, id]
  have := balanced.used
  omega

/-- A lease is granted and charged, or the others leave too little. -/
theorem Balanced.lease_cases (word : limit ≤ u64Max) (balanced : v.Balanced limit own)
    (others : List ViewAccess) (count : Nat) :
    (∃ v', v.lease others count = (none, v') ∧ v'.Balanced limit own ∧
        limit < total id v'.elsewhere + own + count) ∨
      ∃ v', v.lease others count = (some count, v') ∧ v'.Balanced limit (own + count) := by
  obtain ⟨capped, used, within⟩ := balanced.contend others
  simp only [Views.lease, Quota.acquire_eq]
  by_cases room : (v.contend others).quota.used + count ≤ u64Max ∧
      (v.contend others).quota.used + count ≤ (v.contend others).quota.limit
  · rw [if_pos room]
    refine .inr ⟨_, rfl, capped, ?_, capped ▸ room.2⟩
    simp only
    omega
  · rw [if_neg room]
    exact .inl ⟨_, rfl, ⟨capped, used, within⟩, by omega⟩

theorem Balanced.leaseAny_cases (word : limit ≤ u64Max) (balanced : v.Balanced limit own)
    (others : List ViewAccess) (count : Nat) :
    (∃ v', v.leaseAny others count = (none, v') ∧ v'.Balanced limit own ∧
        limit < total id v'.elsewhere + own + count) ∨
      ∃ v' lease, v.leaseAny others count = (some lease, v') ∧ lease = (if count > 0 then some count else none) ∧
        lease.getD 0 = count ∧ v'.Balanced limit (own + count) := by
  unfold leaseAny
  split
  · rcases balanced.lease_cases word others count with ⟨v', refused, kept⟩ | ⟨v', granted, charged⟩
    · exact .inl ⟨v', by rw [refused], kept⟩
    · exact .inr ⟨v', _, by rw [granted], rfl, rfl, charged⟩
  · rename_i nothing
    obtain rfl : count = 0 := by omega
    exact .inr ⟨v, _, rfl, rfl, rfl, balanced⟩

/-- Two balanced books with the same other holders are the same. -/
theorem Balanced.unique {v' : Views} (balanced : v.Balanced limit own) (balanced' : v'.Balanced limit own)
    (same : v'.elsewhere = v.elsewhere) : v' = v := by
  obtain ⟨⟨cap, used⟩, elsewhere⟩ := v
  obtain ⟨⟨cap', used'⟩, elsewhere'⟩ := v'
  obtain ⟨capped, counted, -⟩ := balanced
  obtain ⟨capped', counted', -⟩ := balanced'
  simp only at *
  subst same
  rw [capped, capped', counted, counted']

/-- Once everyone else has given back its leases the books still balance. -/
theorem Balanced.released (balanced : v.Balanced limit own) : (v.released own).Balanced limit own where
  capped := balanced.capped
  used := (Nat.zero_add own).symm
  within := by
    have := balanced.used
    have := balanced.within
    simp only [Views.released]
    omega

/-- A lease taken with no one else at the quota leaves the others as they were. -/
theorem lease_quiet (v : Views) (count : Nat) : (v.lease [] count).2.elsewhere = v.elsewhere := by
  simp only [Views.lease, Quota.acquire_eq]
  split <;> rfl

theorem leaseAny_quiet (v : Views) (count : Nat) : (v.leaseAny [] count).2.elsewhere = v.elsewhere := by
  have quiet := v.lease_quiet count
  unfold leaseAny
  split
  · split <;> simp_all
  · rfl

end Views

/-- A chunk the scanner can take has a reservation, and its scan fails only for the counters. -/
theorem OwnedStore.scan_cases (store : OwnedStore) {bytes : Bytes} (short : bytes.length ≤ maxScanBytes) :
    (∃ scratch, store.scanReservationFor bytes = .ok scratch) ∧
      ((∃ plan, store.scan bytes = .ok plan) ∨ store.scan bytes = .error .revisionExhausted) := by
  have within : ¬bytes.length > maxScanBytes := Nat.not_lt.mpr short
  constructor
  · simp only [OwnedStore.scanReservationFor, OwnedStore.scanReservation, ProgramStatusStore.scanReservation,
      if_neg within]
    split
    · exact ⟨_, rfl⟩
    · exact ⟨_, rfl⟩
  · simp only [OwnedStore.scan, if_neg within]
    split
    · exact .inr rfl
    · exact .inl ⟨_, rfl⟩

namespace OwnedStatus

variable {s : OwnedStatus} {store : OwnedStore} {v : Views} {limit own scratch : Nat}

/-- All the session would hold once this plan is admitted. -/
def demand (s : OwnedStatus) (store : OwnedStore) (plan : OwnedPlan) (scratch replyLimit : Nat) : Nat :=
  s.owned store + scratch + replyReservation plan replyLimit + s.recordReservation store plan

theorem admitPlan_quiet (s : OwnedStatus) (store : OwnedStore) (plan : OwnedPlan) (v : Views)
    (scratch replyLimit : Nat) : (s.admitPlan store plan v scratch replyLimit {}).2.elsewhere = v.elsewhere := by
  have records := v.leaseAny_quiet (s.recordReservation store plan)
  have reply := (v.leaseAny [] (s.recordReservation store plan)).2.lease_quiet (replyReservation plan replyLimit)
  unfold admitPlan
  split
  · rfl
  · split
    · simp_all [Views.drop]
    · split <;> simp_all [Views.drop]

theorem prepareStatus_quiet (s : OwnedStatus) (v : Views) (bytes : Bytes) (replyLimit : Nat) :
    (s.prepareStatus v bytes replyLimit {}).2.elsewhere = v.elsewhere := by
  unfold prepareStatus
  split
  · rfl
  split
  · rfl
  rename_i store _ scratch _
  have scan := v.lease_quiet scratch
  split
  · rfl
  split
  · simp_all
  split
  · simp_all [Views.drop]
  · rw [admitPlan_quiet]
    simp_all

/-- The two admissions that follow the scan, once the plan's whole demand is known to fit. -/
theorem admitPlan_cases (word : limit ≤ u64Max) (paid : s.owned store = own)
    (books : v.Balanced limit (own + scratch)) (plan : OwnedPlan) (replyLimit : Nat) (busy : Contention) :
    (limit < s.demand store plan scratch replyLimit ∧ ∃ v', v'.Balanced limit own ∧
        s.admitPlan store plan v scratch replyLimit busy = (.error (.failed .capacity), v')) ∨
      (s.demand store plan scratch replyLimit ≤ limit ∧ ∃ v', v'.Balanced limit own ∧
        0 < Tally.total id v'.elsewhere ∧ s.admitPlan store plan v scratch replyLimit busy = (.error .retry, v')) ∨
      (s.demand store plan scratch replyLimit ≤ limit ∧ ∃ v' recordMemory,
        recordMemory = (if s.recordReservation store plan > 0 then some (s.recordReservation store plan) else none) ∧
        v'.Balanced limit (own + scratch + recordMemory.getD 0 + replyReservation plan replyLimit) ∧
        s.admitPlan store plan v scratch replyLimit busy =
          (.ok { plan, scanMemory := scratch, recordMemory, replyMemory := replyReservation plan replyLimit }, v')) := by
  unfold demand admitPlan
  rw [books.capped, paid]
  split
  · rename_i large
    exact .inl ⟨large, _, books.drop, rfl⟩
  rename_i fits
  rcases books.leaseAny_cases word busy.records (s.recordReservation store plan) with
    ⟨w, refused, kept, full⟩ | ⟨w, recordMemory, granted, chosen, amount, charged⟩
  · refine .inr (.inl ⟨by omega, w.drop scratch, kept.drop, ?_, by rw [refused]⟩)
    simp only [Views.drop]
    omega
  · simp only [granted]
    rcases charged.lease_cases word busy.reply (replyReservation plan replyLimit) with
      ⟨x, refused, kept, full⟩ | ⟨x, granted, charged⟩
    · refine .inr (.inl ⟨by omega, (x.drop (recordMemory.getD 0)).drop scratch, ?_, ?_, by rw [refused]⟩)
      · rw [amount]
        exact kept.drop.drop
      · simp only [Views.drop]
        omega
    · refine .inr (.inr ⟨by omega, x, recordMemory, chosen, ?_, by rw [granted]⟩)
      rw [amount]
      exact charged

/-- What a call of `prepare_status` can end in: the books still balance, and why it was not
admitted if it was not. -/
inductive Outcome (limit own : Nat) (s : OwnedStatus) (store : OwnedStore) (v : Views) (bytes : Bytes)
    (replyLimit : Nat) (busy : Contention) : Except Coordinator.StatusAdmissionError OwnedPrepared × Views → Prop where
  | admitted {scratch : Nat} {p : OwnedPrepared} {v' : Views} (room : store.scanReservationFor bytes = .ok scratch)
      (scanned : store.scan bytes = .ok p.plan) (fits : s.demand store p.plan scratch replyLimit ≤ limit)
      (scan : p.scanMemory = scratch)
      (records : p.recordMemory =
        if s.recordReservation store p.plan > 0 then some (s.recordReservation store p.plan) else none)
      (reply : p.replyMemory = replyReservation p.plan replyLimit)
      (books : v'.Balanced limit (own + p.scanMemory + p.recordMemory.getD 0 + p.replyMemory)) :
      Outcome limit own s store v bytes replyLimit busy (.ok p, v')
  | crowded {scratch : Nat} {v' : Views} (room : store.scanReservationFor bytes = .ok scratch)
      (known : s.owned store + scratch + replyLimit ≤ limit)
      (fits : (v.lease busy.scan scratch).1.isSome → ∃ plan, store.scan bytes = .ok plan ∧
        s.demand store plan scratch replyLimit ≤ limit)
      (others : 0 < Tally.total id v'.elsewhere) (books : v'.Balanced limit own) :
      Outcome limit own s store v bytes replyLimit busy (.error .retry, v')
  | outOfBounds (long : maxScanBytes < bytes.length) :
      Outcome limit own s store v bytes replyLimit busy (.error (.failed .capacity), v)
  | exhausted {v' : Views} (short : bytes.length ≤ maxScanBytes)
      (spent : store.scan bytes = .error .revisionExhausted) (books : v'.Balanced limit own) :
      Outcome limit own s store v bytes replyLimit busy (.error (.failed .capacity), v')
  | large {scratch : Nat} {plan : OwnedPlan} {v' : Views} (room : store.scanReservationFor bytes = .ok scratch)
      (scanned : store.scan bytes = .ok plan) (large : limit < s.demand store plan scratch replyLimit)
      (books : v'.Balanced limit own) : Outcome limit own s store v bytes replyLimit busy (.error (.failed .capacity), v')

theorem replyReservation_ge (plan : OwnedPlan) (replyLimit : Nat) : replyLimit ≤ replyReservation plan replyLimit := by
  unfold replyReservation
  split <;> omega

theorem prepareStatus_outcome (word : limit ≤ u64Max) (present : s.store = some store) (paid : s.owned store = own)
    (books : v.Balanced limit own) (bytes : Bytes) (replyLimit : Nat) (busy : Contention) :
    Outcome limit own s store v bytes replyLimit busy (s.prepareStatus v bytes replyLimit busy) := by
  simp only [prepareStatus, present]
  by_cases short : bytes.length ≤ maxScanBytes
  · obtain ⟨⟨scratch, room⟩, scanned⟩ := store.scan_cases short
    simp only [room, books.capped]
    split
    · -- what is known before the scan is too much already
      rename_i much
      rcases scanned with ⟨plan, scanned⟩ | spent
      · have reply := replyReservation_ge plan replyLimit
        exact .large room scanned (by unfold demand; omega) books
      · exact .exhausted short spent books
    · rename_i known
      rcases books.lease_cases word busy.scan scratch with ⟨w, refused, kept, full⟩ | ⟨w, granted, charged⟩
      · simp only [refused]
        refine .crowded room (by omega) (fun some => ?_) (by omega) kept
        rw [refused] at some
        cases some
      · simp only [granted]
        rcases scanned with ⟨plan, scanned⟩ | spent
        · simp only [scanned]
          rcases admitPlan_cases word paid charged plan replyLimit busy with
            ⟨large, x, kept, failed⟩ | ⟨fits, x, kept, others, retried⟩ | ⟨fits, x, lease, chosen, kept, admitted⟩
          · rw [failed]
            exact .large room scanned large kept
          · rw [retried]
            exact .crowded room (by omega) (fun _ => ⟨plan, scanned, fits⟩) others kept
          · rw [admitted]
            exact .admitted room scanned fits rfl chosen rfl kept
        · simp only [spent]
          exact .exhausted short spent charged.drop
  · have long : bytes.length > maxScanBytes := Nat.lt_of_not_le short
    simp only [OwnedStore.scanReservationFor, if_pos long]
    exact .outOfBounds long

end OwnedStatus

namespace Views

theorem access_limit (v : Views) (access : ViewAccess) : (v.access access).quota.limit = v.quota.limit := by
  cases access with
  | acquire count =>
    simp only [Views.access, Quota.acquire_eq]
    split
    · rfl
    · rename_i granted
      split at granted
      · exact (congrArg Quota.limit (Prod.mk.inj granted).2).symm
      · exact absurd granted (by simp)
  | release index =>
    simp only [Views.access]
    split <;> rfl

theorem contend_limit (v : Views) (accesses : List ViewAccess) :
    (v.contend accesses).quota.limit = v.quota.limit := by
  induction accesses generalizing v with
  | nil => rfl
  | cons access rest ih => exact (ih (v.access access)).trans (v.access_limit access)

theorem lease_limit (v : Views) (others : List ViewAccess) (count : Nat) :
    (v.lease others count).2.quota.limit = v.quota.limit := by
  have kept := v.contend_limit others
  simp only [Views.lease, Quota.acquire_eq]
  by_cases room : (v.contend others).quota.used + count ≤ u64Max ∧
      (v.contend others).quota.used + count ≤ (v.contend others).quota.limit
  · rw [if_pos room]
    exact kept
  · rw [if_neg room]
    exact kept

theorem lease_amount (v : Views) (others : List ViewAccess) (count lease : Nat)
    (granted : (v.lease others count).1 = some lease) : lease = count := by
  unfold Views.lease at granted
  split at granted
  · cases granted
  · exact (Option.some.inj granted).symm

end Views

def OwnedStatus.forget (s : OwnedStatus) : ProgramStatusState where
  store := s.store.map OwnedStore.forget
  memory := s.memory.isSome

def OwnedPrepared.forget (p : OwnedPrepared) : Coordinator.PreparedStatus where
  plan := p.plan.forget
  recordMemory := p.recordMemory.isSome

/-- Once a chunk is scanned, its later leases are granted by surroundings or they are not. -/
theorem OwnedStatus.admitPlan_forget (s : OwnedStatus) (store : OwnedStore) (plan : OwnedPlan) (v : Views)
    (scratch replyLimit : Nat) (busy : Contention) :
    ∃ records reply : Bool,
      (let charged := store.forget.recordReservation recordBytes
       let replies := if plan.forget.queries = [] then replyLimit else replyLimit * 2
       let recordMemory := !s.memory.isSome && decide (plan.retainedBytes > 0)
       let growth := if recordMemory then charged else 0
       if (if s.memory.isSome then charged else 0) + scratch + replies + growth > v.quota.limit then
         .error (.failed .capacity)
       else if recordMemory && !records then .error .retry
       else if !reply then .error .retry
       else .ok { plan := plan.forget, recordMemory }) =
        ((s.admitPlan store plan v scratch replyLimit busy).1.map OwnedPrepared.forget :
          Except Coordinator.StatusAdmissionError Coordinator.PreparedStatus) := by
  have positive : store.recordReservation > 0 := by
    unfold OwnedStore.recordReservation
    omega
  have size : store.forget.recordReservation recordBytes = store.recordReservation := rfl
  have growth : s.recordReservation store plan =
      if !s.memory.isSome && decide (plan.retainedBytes > 0) then store.recordReservation else 0 := by
    unfold OwnedStatus.recordReservation
    cases s.memory <;> simp
  have replies : OwnedStatus.replyReservation plan replyLimit =
      if plan.forget.queries = [] then replyLimit else replyLimit * 2 := rfl
  simp only [OwnedStatus.admitPlan, OwnedStatus.owned, growth, replies, size]
  generalize (if plan.forget.queries = [] then replyLimit else replyLimit * 2) = amount
  generalize (if s.memory.isSome = true then store.recordReservation else 0) = charged
  by_cases brings : (!s.memory.isSome && decide (plan.retainedBytes > 0)) = true
  · simp only [brings, if_true, Views.leaseAny, positive, Bool.true_and]
    by_cases large : charged + scratch + amount + store.recordReservation > v.quota.limit
    · simp only [if_pos large]
      exact ⟨true, true, rfl⟩
    simp only [if_neg large]
    rcases v.lease busy.records store.recordReservation with ⟨_ | lease, w⟩
    · exact ⟨false, true, rfl⟩
    · dsimp only
      rcases w.lease busy.reply amount with ⟨_ | lease, x⟩
      · exact ⟨true, false, rfl⟩
      · exact ⟨true, true, rfl⟩
  · simp only [brings, Bool.false_and, Bool.false_eq_true, if_false, Views.leaseAny, Nat.lt_irrefl, gt_iff_lt]
    by_cases large : v.quota.limit < charged + scratch + amount + 0
    · simp only [if_pos large]
      exact ⟨true, true, rfl⟩
    simp only [if_neg large]
    rcases v.lease busy.reply amount with ⟨_ | lease, x⟩
    · exact ⟨true, false, rfl⟩
    · exact ⟨true, true, rfl⟩

/-- The call with its leases counted is the call whose leases are granted by surroundings. -/
theorem OwnedStatus.prepareStatus_forget (config : ProjectionConfig) (mutation : config.mutationSize = mutationBytes)
    (record : config.recordSize = recordBytes) (s : OwnedStatus) (v : Views) (view : config.viewLimit = v.quota.limit)
    (bytes : Bytes) (replyLimit : Nat) (busy : Contention) :
    ∃ scan records reply planBytes,
      Coordinator.prepareStatus config s.forget bytes replyLimit scan records reply planBytes =
        (s.prepareStatus v bytes replyLimit busy).1.map OwnedPrepared.forget := by
  unfold OwnedStatus.prepareStatus Coordinator.prepareStatus OwnedStatus.forget
  cases s.store with
  | none => exact ⟨true, true, true, 0, rfl⟩
  | some store =>
    have scanned := store.scan_forget bytes
    simp only [Option.map_some, mutation, record, view, ← OwnedStore.scanReservationFor_forget, ← scanned]
    cases store.scanReservationFor bytes with
    | error e => exact ⟨true, true, true, 0, rfl⟩
    | ok scratch =>
      have size : store.forget.recordReservation recordBytes = store.recordReservation := rfl
      simp only [size]
      change ∃ scan records reply planBytes, (if s.owned store + scratch + replyLimit > v.quota.limit then _ else _) = _
      by_cases large : s.owned store + scratch + replyLimit > v.quota.limit
      · simp only [if_pos large]
        exact ⟨true, true, true, 0, rfl⟩
      simp only [if_neg large]
      rcases granted : v.lease busy.scan scratch with ⟨_ | lease, w⟩
      · exact ⟨false, true, true, 0, rfl⟩
      have kept := v.lease_limit busy.scan scratch
      have amount := v.lease_amount busy.scan scratch lease
      rw [granted] at kept amount
      obtain rfl := amount rfl
      cases store.scan bytes with
      | error e => exact ⟨true, true, true, 0, rfl⟩
      | ok plan =>
        obtain ⟨records, reply, same⟩ := s.admitPlan_forget store plan w lease replyLimit busy
        rw [kept] at same
        exact ⟨true, records, reply, plan.retainedBytes, same⟩
end PtyRuntime
