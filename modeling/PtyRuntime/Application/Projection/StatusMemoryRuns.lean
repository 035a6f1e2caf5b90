import PtyRuntime.Application.Projection.StatusMemoryLaws

/-! What the status memory of a session is charged, over every run. The store is one that
its own life could have reached, so the reservations made for it cover what it holds. -/
namespace PtyRuntime

namespace OwnedStore

variable {store : OwnedStore}

theorem recordReservation_pos (store : OwnedStore) : 0 < store.recordReservation := by
  unfold recordReservation
  omega

theorem retain_room (store : OwnedStore) (keep : OwnedRecord → Bool) :
    (store.retain keep).scanner = store.scanner ∧ (store.retain keep).records.capacity = store.records.capacity ∧
      (store.retain keep).records.items.Sublist store.records.items :=
  ⟨rfl, rfl, List.filter_sublist⟩

/-- A store that owns nothing still owns nothing once some of its records are dropped. -/
theorem retain_empty (empty : store.retainedBytes = 0) (keep : OwnedRecord → Bool) :
    (store.retain keep).retainedBytes = 0 := by
  obtain ⟨scanner, capacity, sub⟩ := store.retain_room keep
  have fewer := (sub.map OwnedRecord.heapBytes).sum_le_sum fun _ _ => Nat.zero_le _
  unfold retainedBytes at empty ⊢
  rw [scanner, capacity]
  omega

theorem processExited_empty (empty : store.retainedBytes = 0) : store.processExited.2.retainedBytes = 0 := by
  unfold processExited
  split
  · exact empty
  · exact retain_empty empty _

/-- Nor does it once a plan that owns nothing is committed. -/
theorem commit_empty (empty : store.retainedBytes = 0) {plan : OwnedPlan} (light : plan.retainedBytes = 0) :
    (store.commit plan).2.retainedBytes = 0 := by
  have size : mutationBytes = 24 := rfl
  unfold OwnedPlan.retainedBytes at light
  rw [size] at light
  have none : plan.mutations.items = [] := by
    have fits := plan.mutations.fits
    exact List.length_eq_zero_iff.mp (by omega)
  unfold OwnedStore.commit
  split
  · exact empty
  · rw [none]
    unfold retainedBytes at empty ⊢
    simp only [List.foldl_nil]
    omega

theorem run_append (life : OwnedLife) (events later : List OwnedLife.Event) :
    life.run (events ++ later) = (life.run events).run later := List.foldl_append

/-- Some life of the first store has led to this one, with no plan left over. -/
def Reaches (first store : OwnedStore) : Prop :=
  ∃ events, OwnedLife.run { store := first } events = { store }

theorem Reaches.commit {first : OwnedStore} (reaches : first.Reaches store) {bytes : Bytes} {plan : OwnedPlan}
    (scanned : store.scan bytes = .ok plan) : first.Reaches (store.commit plan).2 := by
  obtain ⟨events, reached⟩ := reaches
  refine ⟨events ++ [.scan bytes, .commit 0], ?_⟩
  rw [run_append, reached]
  simp only [OwnedLife.run, List.foldl_cons, List.foldl_nil, OwnedLife.step, scanned]
  rfl

theorem Reaches.processExited {first : OwnedStore} (reaches : first.Reaches store) :
    first.Reaches store.processExited.2 := by
  obtain ⟨events, reached⟩ := reaches
  refine ⟨events ++ [.processExited], ?_⟩
  rw [run_append, reached]
  rfl

/-- What the reservations of a reached store rest on. -/
theorem Reaches.roomy {identity limit : Nat} {first : OwnedStore} (opened : OwnedStore.new identity limit = .ok first)
    (reaches : first.Reaches store) : store.Roomy limit ∧ store.Texts := by
  obtain ⟨events, reached⟩ := reaches
  obtain ⟨least, -, start⟩ := OwnedStore.new_roomy opened
  have first : ({ store := first } : OwnedLife).Roomy limit := ⟨start, fun _ absent => (List.not_mem_nil absent).elim⟩
  have roomy := first.run (by omega) events
  have texts := OwnedStore.reached_texts opened events
  rw [reached] at roomy texts
  exact ⟨roomy.store, texts⟩

/-- All stores of one life reserve the same for their records. -/
theorem Reaches.reservation {identity limit : Nat} {first other : OwnedStore}
    (opened : OwnedStore.new identity limit = .ok first) (reaches : first.Reaches store)
    (reaches' : first.Reaches other) : other.recordReservation = store.recordReservation := by
  have capped := (reaches.roomy opened).1.capped
  have capped' := (reaches'.roomy opened).1.capped
  unfold recordReservation
  rw [capped, capped']

/-- A plan meets the store it was scanned from. -/
theorem commit_scanned {bytes : Bytes} {plan : OwnedPlan} (scanned : store.scan bytes = .ok plan) :
    store.commit plan = (.ok (), (store.commit plan).2) := by
  simp only [OwnedStore.scan] at scanned
  split at scanned
  · cases scanned
  split at scanned
  · cases scanned
  obtain rfl := Except.ok.inj scanned
  simp only [OwnedStore.commit, ne_eq, not_true_eq_false, or_self, if_false]

end OwnedStore

namespace StatusMemory

variable {identity records limit : Nat} {first : OwnedStore} {m : StatusMemory}

/-- The books balance; a session without a record lease owns nothing, and one that has it
holds the whole reservation. -/
structure Sound (first : OwnedStore) (limit : Nat) (m : StatusMemory) : Prop where
  books : m.views.Balanced limit (m.status.memory.getD 0)
  reached : ∀ store ∈ m.status.store, first.Reaches store
  bare : m.status.memory = none → ∀ store ∈ m.status.store, store.retainedBytes = 0
  paid : ∀ n ∈ m.status.memory, ∀ store ∈ m.status.store, n = store.recordReservation
  gone : m.status.store = none → m.status.memory = none

theorem start_sound (opened : OwnedStore.new identity records = .ok first) (limit replyLimit : Nat) :
    (start first limit replyLimit).Sound first limit where
  books := ⟨rfl, rfl, Nat.zero_le _⟩
  reached := by
    rintro store ⟨⟩
    exact ⟨[], rfl⟩
  bare := by
    rintro - store ⟨⟩
    simp only [OwnedStore.new] at opened
    split at opened
    · obtain rfl := Except.ok.inj opened
      rfl
    · cases opened
  paid := nofun
  gone := nofun

theorem Sound.owned (sound : m.Sound first limit) {store : OwnedStore} (present : m.status.store = some store) :
    m.status.owned store = m.status.memory.getD 0 := by
  unfold OwnedStatus.owned
  cases leased : m.status.memory with
  | none => rfl
  | some n => exact (sound.paid n leased store present).symm

/-- What the session is charged covers what its store holds. -/
theorem Sound.covered (opened : OwnedStore.new identity records = .ok first) (sound : m.Sound first limit)
    {store : OwnedStore} (present : m.status.store = some store) :
    store.retainedBytes ≤ m.status.memory.getD 0 := by
  cases leased : m.status.memory with
  | none => exact (sound.bare leased store present).le
  | some n =>
    obtain ⟨roomy, texts⟩ := (sound.reached store present).roomy opened
    rw [sound.paid n leased store present]
    exact roomy.retained_covered texts

/-- What an admitted call is owed: each lease covers its use in full, and all are charged. -/
structure Admitted (m : StatusMemory) (limit : Nat) (store : OwnedStore) (bytes : Bytes) (p : OwnedPrepared) (v : Views) :
    Prop where
  scanned : store.scan bytes = .ok p.plan
  scan : p.plan.retainedBytes ≤ p.scanMemory
  reply : m.replyLimit ≤ p.replyMemory
  answers : p.plan.queries.items ≠ [] → 2 * m.replyLimit ≤ p.replyMemory
  records : (store.commit p.plan).2.retainedBytes ≤ (p.recordMemory.or m.status.memory).getD 0
  charged : v.Balanced limit (m.status.memory.getD 0 + p.scanMemory + p.recordMemory.getD 0 + p.replyMemory)

/-- The record lease is taken once, with the first plan that owns anything. -/
theorem lease_cases {store : OwnedStore} {plan : OwnedPlan} {lease : Option Nat}
    (chosen : lease = if m.status.recordReservation store plan > 0 then
      some (m.status.recordReservation store plan) else none) :
    (m.status.memory = none ∧ lease = some store.recordReservation) ∨
      (lease = none ∧ (m.status.memory = none → plan.retainedBytes = 0)) := by
  have positive := store.recordReservation_pos
  rw [chosen, OwnedStatus.recordReservation]
  by_cases needed : m.status.memory.isNone ∧ plan.retainedBytes > 0
  · rw [if_pos needed, if_pos positive]
    exact .inl ⟨Option.isNone_iff_eq_none.mp needed.1, rfl⟩
  · rw [if_neg needed]
    refine .inr ⟨rfl, fun bare => ?_⟩
    rw [bare] at needed
    simpa using needed

/-- The store a plan is committed to, with the lease the plan may have brought. -/
theorem Sound.commit (sound : m.Sound first limit) {store : OwnedStore} (present : m.status.store = some store)
    (opened : OwnedStore.new identity records = .ok first) {bytes : Bytes} {plan : OwnedPlan}
    (scanned : store.scan bytes = .ok plan) {lease : Option Nat}
    (chosen : lease = if m.status.recordReservation store plan > 0 then
      some (m.status.recordReservation store plan) else none) {views : Views}
    (books : views.Balanced limit (m.status.memory.getD 0 + lease.getD 0)) :
    Sound first limit
      { m with status := { store := some (store.commit plan).2, memory := lease.or m.status.memory }, views } := by
  have reached := sound.reached store present
  have same : (store.commit plan).2.recordReservation = store.recordReservation :=
    reached.reservation opened (reached.commit scanned)
  rcases lease_cases chosen with ⟨bare, rfl⟩ | ⟨rfl, light⟩
  · refine ⟨?_, ?_, nofun, ?_, nofun⟩
    · rw [bare] at books
      simpa using books
    · rintro _ ⟨⟩
      exact reached.commit scanned
    · rintro n ⟨⟩ _ ⟨⟩
      exact same.symm
  · refine ⟨books, ?_, ?_, ?_, nofun⟩
    · rintro _ ⟨⟩
      exact reached.commit scanned
    · rintro bare _ ⟨⟩
      exact OwnedStore.commit_empty (sound.bare bare store present) (light bare)
    · rintro n leased _ ⟨⟩
      rw [same]
      exact sound.paid n leased store present

theorem Sound.admitted (opened : OwnedStore.new identity records = .ok first) (sound : m.Sound first limit)
    {store : OwnedStore} (present : m.status.store = some store) {bytes : Bytes} {scratch : Nat} {p : OwnedPrepared}
    {v : Views} (room : store.scanReservationFor bytes = .ok scratch) (scanned : store.scan bytes = .ok p.plan)
    (scan : p.scanMemory = scratch)
    (chosen : p.recordMemory =
      if m.status.recordReservation store p.plan > 0 then some (m.status.recordReservation store p.plan) else none)
    (reply : p.replyMemory = OwnedStatus.replyReservation p.plan m.replyLimit)
    (books : v.Balanced limit (m.status.memory.getD 0 + p.scanMemory + p.recordMemory.getD 0 + p.replyMemory)) :
    m.Admitted limit store bytes p v := by
  obtain ⟨roomy, -⟩ := (sound.reached store present).roomy opened
  refine ⟨scanned, ?_, ?_, ?_, ?_, books⟩
  · obtain ⟨reservation, room', covered⟩ := roomy.scan_covered scanned
    rw [room] at room'
    rw [scan, Except.ok.inj room']
    exact covered
  · rw [reply]
    exact OwnedStatus.replyReservation_ge _ _
  · intro queries
    rw [reply, OwnedStatus.replyReservation, if_neg queries]
    exact (Nat.mul_comm _ _).le
  · have books : (v.drop p.replyMemory |>.drop p.scanMemory).Balanced limit
        (m.status.memory.getD 0 + p.recordMemory.getD 0) := by
      refine Views.Balanced.drop (Views.Balanced.drop ?_)
      convert books using 1
      omega
    exact (sound.commit present opened scanned chosen books).covered opened rfl

/-- Feeding and committing give back all but the lease of the records and of a reply. -/
theorem Sound.apply (opened : OwnedStore.new identity records = .ok first) (sound : m.Sound first limit)
    {store : OwnedStore} (present : m.status.store = some store) {bytes : Bytes} {p : OwnedPrepared} {v : Views}
    (scanned : store.scan bytes = .ok p.plan)
    (chosen : p.recordMemory =
      if m.status.recordReservation store p.plan > 0 then some (m.status.recordReservation store p.plan) else none)
    (books : v.Balanced limit (m.status.memory.getD 0 + p.scanMemory + p.recordMemory.getD 0 + p.replyMemory))
    (feeding : Feeding) : (m.apply p v feeding).Sound first limit := by
  cases feeding with
  | failed =>
    refine ⟨?_, sound.reached, sound.bare, sound.paid, sound.gone⟩
    exact books.drop.drop.drop
  | fed replied =>
    simp only [StatusMemory.apply, OwnedStatus.commitStatus, present]
    rw [OwnedStore.commit_scanned scanned]
    refine sound.commit present opened scanned chosen (Views.Balanced.drop ?_)
    have charged : v.Balanced limit
        (m.status.memory.getD 0 + p.recordMemory.getD 0 + p.scanMemory + p.replyMemory) := by
      convert books using 1
      omega
    cases replied with
    | false => exact charged.drop
    | true => exact charged.keep

theorem Sound.step (word : limit ≤ u64Max) (opened : OwnedStore.new identity records = .ok first)
    (sound : m.Sound first limit) (event : Event) : (m.step event).Sound first limit := by
  cases event with
  | output bytes busy feeding =>
    simp only [StatusMemory.step]
    cases present : m.status.store with
    | none =>
      simp only [OwnedStatus.prepareStatus, present]
      exact sound
    | some store =>
      have outcome := OwnedStatus.prepareStatus_outcome word present (sound.owned present) sound.books bytes
        m.replyLimit busy
      generalize m.status.prepareStatus m.views bytes m.replyLimit busy = result at outcome ⊢
      cases outcome with
      | admitted room scanned fits scan chosen reply books =>
        exact sound.apply opened present scanned chosen books feeding
      | crowded room known fits others books => exact ⟨books, sound.reached, sound.bare, sound.paid, sound.gone⟩
      | outOfBounds long => exact sound
      | exhausted short spent books => exact ⟨books, sound.reached, sound.bare, sound.paid, sound.gone⟩
      | large room scanned large books => exact ⟨books, sound.reached, sound.bare, sound.paid, sound.gone⟩
  | other access => exact ⟨sound.books.access access, sound.reached, sound.bare, sound.paid, sound.gone⟩
  | processExited =>
    refine ⟨sound.books, ?_, ?_, ?_, fun gone => sound.gone (Option.map_eq_none_iff.mp gone)⟩
    · intro store member
      obtain ⟨before, present, rfl⟩ := Option.map_eq_some_iff.mp member
      exact (sound.reached before present).processExited
    · intro bare store member
      obtain ⟨before, present, rfl⟩ := Option.map_eq_some_iff.mp member
      exact OwnedStore.processExited_empty (sound.bare bare before present)
    · intro n leased store member
      obtain ⟨before, present, rfl⟩ := Option.map_eq_some_iff.mp member
      have reached := sound.reached before present
      rw [reached.reservation opened reached.processExited]
      exact sound.paid n leased before present
  | cleared =>
    have books : m.views.Balanced limit (0 + m.status.memory.getD 0) := by simpa using sound.books
    exact ⟨books.drop, fun _ member => (by cases member), fun _ _ member => (by cases member),
      fun _ leased => (by cases leased), fun _ => rfl⟩

theorem Sound.run (word : limit ≤ u64Max) (opened : OwnedStore.new identity records = .ok first)
    (sound : m.Sound first limit) (events : List Event) : (m.run events).Sound first limit := by
  induction events generalizing m with
  | nil => exact sound
  | cons event rest ih => exact ih (sound.step word opened event)

/-- The record lease stays until the status is cleared. -/
theorem Sound.step_leased (word : limit ≤ u64Max) (sound : m.Sound first limit) {n : Nat}
    (held : m.status.memory = some n ∨ m.status.store = none) (event : Event) :
    (m.step event).status.memory = some n ∨ (m.step event).status.store = none := by
  cases event with
  | output bytes busy feeding =>
    simp only [StatusMemory.step]
    cases present : m.status.store with
    | none =>
      simp only [OwnedStatus.prepareStatus, present]
      exact .inr trivial
    | some store =>
      have leased := held.resolve_right (by simp [present])
      have outcome := OwnedStatus.prepareStatus_outcome word present (sound.owned present) sound.books bytes
        m.replyLimit busy
      generalize m.status.prepareStatus m.views bytes m.replyLimit busy = result at outcome ⊢
      cases outcome with
      | admitted room scanned fits scan chosen reply books =>
        cases feeding with
        | failed => exact .inl leased
        | fed replied =>
          simp only [StatusMemory.apply, OwnedStatus.commitStatus, present]
          rw [OwnedStore.commit_scanned scanned]
          rcases lease_cases chosen with ⟨bare, -⟩ | ⟨without, -⟩
          · rw [leased] at bare
            cases bare
          · rw [without]
            exact .inl leased
      | crowded room known fits others books => exact .inl leased
      | outOfBounds long => exact .inl leased
      | exhausted short spent books => exact .inl leased
      | large room scanned large books => exact .inl leased
  | other access => exact held
  | processExited => exact held.imp id fun gone => Option.map_eq_none_iff.mpr gone
  | cleared => exact .inr rfl

theorem Sound.run_leased (word : limit ≤ u64Max) (opened : OwnedStore.new identity records = .ok first)
    (sound : m.Sound first limit) {n : Nat} (held : m.status.memory = some n ∨ m.status.store = none)
    (events : List Event) : (m.run events).status.memory = some n ∨ (m.run events).status.store = none := by
  induction events generalizing m with
  | nil => exact held
  | cons event rest ih => exact ih (sound.step word opened event) (sound.step_leased word held event)

/-- What one call owes, whatever the other holders of the quota do meanwhile. The whole
demand of a chunk is known only once it is scanned, and the scan has to be admitted first. -/
structure CallLaws (m : StatusMemory) (limit : Nat) (store : OwnedStore) (bytes : Bytes) (busy : Contention) :
    Prop where
  admitted : ∀ p v, m.status.prepareStatus m.views bytes m.replyLimit busy = (.ok p, v) →
    m.Admitted limit store bytes p v
  /-- A refused call has given back all it took; left alone, it leaves the quota as it was. -/
  unchanged : ∀ e v, m.status.prepareStatus m.views bytes m.replyLimit busy = (.error e, v) →
    v.Balanced limit (m.status.memory.getD 0) ∧ (busy = {} → v = m.views)
  failed : ∀ e v, bytes.length ≤ maxScanBytes →
    m.status.prepareStatus m.views bytes m.replyLimit busy = (.error (.failed e), v) →
      e = .capacity ∧ (store.scan bytes = .error .revisionExhausted ∨
        ∃ scratch plan, store.scanReservationFor bytes = .ok scratch ∧ store.scan bytes = .ok plan ∧
          limit < m.status.demand store plan scratch m.replyLimit)
  retry : ∀ v, m.status.prepareStatus m.views bytes m.replyLimit busy = (.error .retry, v) →
    ∃ scratch, store.scanReservationFor bytes = .ok scratch ∧
      m.status.owned store + scratch + m.replyLimit ≤ limit ∧
      ((m.views.lease busy.scan scratch).1.isSome → ∃ plan, store.scan bytes = .ok plan ∧
        m.status.demand store plan scratch m.replyLimit ≤ limit)
  /-- Once every other holder has given back its leases the call is admitted exactly if its
  demand fits, and never has to be tried again. -/
  released :
    let alone := m.status.prepareStatus (m.views.released (m.status.memory.getD 0)) bytes m.replyLimit {}
    (∀ v, alone ≠ (.error .retry, v)) ∧
      ∀ scratch plan, store.scanReservationFor bytes = .ok scratch → store.scan bytes = .ok plan →
        ((∃ p v, alone = (.ok p, v)) ↔ m.status.demand store plan scratch m.replyLimit ≤ limit)

theorem Sound.released (word : limit ≤ u64Max) (sound : m.Sound first limit) {store : OwnedStore}
    (present : m.status.store = some store) (bytes : Bytes) :
    let alone := m.status.prepareStatus (m.views.released (m.status.memory.getD 0)) bytes m.replyLimit {}
    (∀ v, alone ≠ (.error .retry, v)) ∧
      ∀ scratch plan, store.scanReservationFor bytes = .ok scratch → store.scan bytes = .ok plan →
        ((∃ p v, alone = (.ok p, v)) ↔ m.status.demand store plan scratch m.replyLimit ≤ limit) := by
  intro alone
  have quiet : alone.2.elsewhere = [] := OwnedStatus.prepareStatus_quiet _ _ _ _
  have outcome : OwnedStatus.Outcome _ _ _ _ _ _ _ _ alone :=
    OwnedStatus.prepareStatus_outcome word present (sound.owned present) sound.books.released bytes m.replyLimit {}
  generalize alone = result at quiet outcome
  cases outcome with
  | admitted room scanned fits scan chosen reply books =>
    refine ⟨fun v => by simp, fun scratch plan room' scanned' => ?_⟩
    obtain rfl := Except.ok.inj (room.symm.trans room')
    obtain rfl := Except.ok.inj (scanned.symm.trans scanned')
    exact iff_of_true ⟨_, _, rfl⟩ fits
  | crowded room known fits others books =>
    rw [quiet] at others
    exact absurd others (Nat.lt_irrefl 0)
  | outOfBounds long =>
    refine ⟨fun v => by simp, fun scratch plan room' => ?_⟩
    simp only [OwnedStore.scanReservationFor, if_pos long] at room'
    cases room'
  | exhausted short spent books =>
    refine ⟨fun v => by simp, fun scratch plan _ scanned' => ?_⟩
    rw [spent] at scanned'
    cases scanned'
  | large room scanned large books =>
    refine ⟨fun v => by simp, fun scratch plan room' scanned' => ?_⟩
    obtain rfl := Except.ok.inj (room.symm.trans room')
    obtain rfl := Except.ok.inj (scanned.symm.trans scanned')
    exact iff_of_false (by rintro ⟨p, v, wrong⟩; cases wrong) (Nat.not_le.mpr large)

theorem Sound.callLaws (word : limit ≤ u64Max) (opened : OwnedStore.new identity records = .ok first)
    (sound : m.Sound first limit) {store : OwnedStore} (present : m.status.store = some store) (bytes : Bytes)
    (busy : Contention) : m.CallLaws limit store bytes busy := by
  have released := sound.released word present bytes
  have outcome := OwnedStatus.prepareStatus_outcome word present (sound.owned present) sound.books bytes
    m.replyLimit busy
  have alone : busy = {} → (m.status.prepareStatus m.views bytes m.replyLimit busy).2.elsewhere = m.views.elsewhere := by
    rintro rfl
    exact OwnedStatus.prepareStatus_quiet _ _ _ _
  have unchanged {v : Views} (books : v.Balanced limit (m.status.memory.getD 0))
      (same : busy = {} → v.elsewhere = m.views.elsewhere) :
      v.Balanced limit (m.status.memory.getD 0) ∧ (busy = {} → v = m.views) :=
    ⟨books, fun idle => sound.books.unique books (same idle)⟩
  constructor
  · intro p v called
    rw [called] at outcome
    cases outcome with
    | admitted room scanned fits scan chosen reply books =>
      exact sound.admitted opened present room scanned scan chosen reply books
  · intro e v called
    rw [called] at outcome alone
    cases outcome with
    | crowded room known fits others books => exact unchanged books alone
    | outOfBounds long => exact unchanged sound.books alone
    | exhausted short spent books => exact unchanged books alone
    | large room scanned large books => exact unchanged books alone
  · intro e v short called
    rw [called] at outcome
    cases outcome with
    | outOfBounds long => exact absurd short (Nat.not_le.mpr long)
    | exhausted _ spent books => exact ⟨rfl, .inl spent⟩
    | large room scanned large books => exact ⟨rfl, .inr ⟨_, _, room, scanned, large⟩⟩
  · intro v called
    rw [called] at outcome
    cases outcome with
    | crowded room known fits others books => exact ⟨_, room, known, fits⟩
  · exact released

/-- Status memory is charged before it is held. The quota stands at the leases of the other
holders and the record lease; the lease covers the store, which owns nothing without one, and
stays until the status is cleared; and each call keeps `CallLaws`. -/
theorem status_memory_charged (word : limit ≤ u64Max) (opened : OwnedStore.new identity records = .ok first)
    (replyLimit : Nat) (events : List Event) :
    let m := (start first limit replyLimit).run events
    m.views.Balanced limit (m.status.memory.getD 0) ∧
    (∀ store, m.status.store = some store → store.retainedBytes ≤ m.status.memory.getD 0) ∧
    (∀ n, m.status.memory = some n → ∀ later,
      (m.run later).status.memory = some n ∨ (m.run later).status.store = none) ∧
    ∀ store, m.status.store = some store → ∀ bytes busy, m.CallLaws limit store bytes busy := by
  intro m
  have sound : m.Sound first limit := (start_sound opened limit replyLimit).run word opened events
  refine ⟨sound.books, fun store => sound.covered opened, fun n leased => ?_, fun store present => ?_⟩
  · exact sound.run_leased word opened (.inl leased)
  · exact sound.callLaws word opened present

/-- A report is scanned, fed and committed while someone else holds most of the quota. -/
theorem status_memory_charged_report :
    let m := (start { identity := 0, limit := 64 } 300000 1).run
      [.other (.acquire 80000), .output (Scanner.esc :: ascii "]7501;state=idle" ++ [7]) {} (.fed false)]
    m.status.memory = some 180224 ∧ m.views.Balanced 300000 (m.status.memory.getD 0) := by
  intro m
  have opened : OwnedStore.new 0 64 = .ok { identity := 0, limit := 64 } := rfl
  exact ⟨rfl, (status_memory_charged (by decide) opened 1 _).1⟩

/-- A query that could never be answered: with two bytes of the quota taken the call asks to
be tried again, and with all of it free it fails. -/
theorem retry_before_scan :
    let query := Scanner.esc :: ascii "]7501;?" ++ [7]
    let m := (start { identity := 0, limit := 64 } 33381 1).run [.other (.acquire 2)]
    (m.status.prepareStatus m.views query 1 {}).1 = .error .retry ∧
      (m.status.prepareStatus (m.views.released 0) query 1 {}).1 = .error (.failed .capacity) :=
  ⟨rfl, rfl⟩

end StatusMemory
end PtyRuntime
