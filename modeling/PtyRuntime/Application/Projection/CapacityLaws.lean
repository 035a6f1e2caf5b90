import PtyRuntime.Application.Projection.Capacity

/-! When a blocked reader is woken. A refused reservation gives its parts back without a
notification, so the law holds of the runs in which no such part is all that another
refused reader still lacks. -/
namespace PtyRuntime

namespace Quota

/-- The quota has no room for the amount. -/
def Refuses (q : Quota) (amount : Nat) : Prop := (q.acquire amount).1 = false

instance (q : Quota) (amount : Nat) : Decidable (q.Refuses amount) :=
  inferInstanceAs (Decidable (_ = _))

theorem refuses_iff (q : Quota) (amount : Nat) :
    q.Refuses amount ↔ ¬(q.used + amount ≤ u64Max ∧ q.used + amount ≤ q.limit) := by
  rw [Refuses, acquire_eq]
  split <;> simp_all

/-- An acquisition leaves no more room than there was. -/
theorem Refuses.acquired {q quota : Quota} {amount taken : Nat} (refuses : q.Refuses amount)
    (granted : q.acquire taken = (true, quota)) : quota.Refuses amount := by
  rw [refuses_iff] at refuses ⊢
  rw [acquire_granted granted]
  simp only
  omega

end Quota

namespace StagingQuota

/-- All a chunk of `count` bytes acquires. -/
def demands (session count : Nat) : List (StagingQuota × Nat) :=
  (wants session count).flatMap Want.demands

end StagingQuota

open StagingQuota (demands)

/-- The chunk of a reader whose attempt some quota or the feed bound refused. -/
def ReaderPhase.refused : ReaderPhase → Option Nat
  | .rollingBack count _ | .rejected count | .waiting count => some count
  | .ready | .acquiring .. | .attaching .. | .reserved .. | .discarding .. => none

/-- Readers that return `Backpressure`, or have returned it and not left their wait. -/
def ReaderPhase.turnedAway : ReaderPhase → Bool
  | .rollingBack .. | .rejected _ | .waiting _ | .discarding _ _ false => true
  | .ready | .acquiring .. | .attaching .. | .reserved .. | .discarding _ _ true => false

/-- What a reader still acquires belongs to its chunk. -/
def ReaderPhase.Within (session : Nat) : ReaderPhase → Prop
  | .acquiring count _ want rest => (want :: rest).flatMap Want.demands ⊆ demands session count
  | .attaching count _ lease second rest =>
    (second, lease.count) :: rest.flatMap Want.demands ⊆ demands session count
  | .ready | .reserved .. | .rollingBack .. | .discarding .. | .rejected _ | .waiting _ => True

namespace StagingPool

/-- The amount of `q` is all the reader's chunk still lacks. -/
def Awaits (p : StagingPool) (reader count : Nat) (q : StagingQuota) (amount : Nat) : Prop :=
  (∃ wanted, (q, wanted) ∈ demands reader count ∧ (p.quotas q).Refuses wanted ∧
      ¬((p.quotas q).release amount).Refuses wanted) ∧
    ∀ demand ∈ demands reader count, demand.1 ≠ q → ¬(p.quotas demand.1).Refuses demand.2

/-- No refused reader on the current generation awaits the amount, unless a notification
is on its way. -/
def Unawaited (p : StagingPool) (q : StagingQuota) (amount : Nat) : Prop :=
  ∀ reader count, (p.phase reader).refused = some count → p.stall reader = p.generation →
    p.Awaits reader count q amount → p.AboutToNotify

/-- The next generation is not one that a reader turned away before still remembers. -/
def Unwrapped (p : StagingPool) : Prop :=
  ∀ reader, (p.phase reader).turnedAway = true → p.stall reader ≠ p.nextGeneration

/-- The steps that may lose a wakeup, and when they do not: a refused reservation gives
back only what no refused reader awaits, and the generation does not come round. -/
def Meets (p : StagingPool) : Event → Prop
  | .advance session _ =>
    match p.phase session with
    | .rollingBack _ ((q, amount) :: _) => p.Unawaited q amount
    | .discarding _ ⟨_, []⟩ _ => p.Unwrapped
    | _ => True
  | .advanceDrop index =>
    match p.dropping[index]? with
    | some ⟨_, []⟩ => p.Unwrapped
    | _ => True
  | .signal => p.Unwrapped
  | .attempt .. | .wait _ | .wake _ | .timeout _ | .drop _ => True

/-- Every step of the run meets the condition in the state it starts from. -/
def Careful (p : StagingPool) : List Event → Prop
  | [] => True
  | event :: rest => p.Meets event ∧ (p.step event).Careful rest

/-- The chunk would be refused, or a notification is on its way. -/
def Covered (p : StagingPool) (session count : Nat) : Prop :=
  p.feedBytes session < count ∨
    (∃ demand ∈ demands session count, (p.quotas demand.1).Refuses demand.2) ∨ p.AboutToNotify

structure Wakeful (p : StagingPool) : Prop where
  within : ∀ session, (p.phase session).Within session
  covered : ∀ session count, (p.phase session).refused = some count →
    p.stall session = p.generation → p.Covered session count

@[simp] theorem setPhase_same (p : StagingPool) (session : Nat) (phase : ReaderPhase) :
    (p.setPhase session phase).phase session = phase := by
  simp [setPhase]

theorem setPhase_other (p : StagingPool) {session reader : Nat} (phase : ReaderPhase)
    (other : reader ≠ session) : (p.setPhase session phase).phase reader = p.phase reader := by
  simp [setPhase, other]

@[simp] theorem setQuota_same (p : StagingPool) (q : StagingQuota) (quota : Quota) :
    (p.setQuota q quota).quotas q = quota := by
  simp [setQuota]

theorem setQuota_other (p : StagingPool) {q other : StagingQuota} (quota : Quota)
    (different : other ≠ q) : (p.setQuota q quota).quotas other = p.quotas other := by
  simp [setQuota, different]

/-- A drop under way stays so while other readers move. -/
theorem AboutToNotify.setPhase {p : StagingPool} (notifies : p.AboutToNotify) {session : Nat}
    (elsewhere : ∀ count drop closed, p.phase session ≠ .discarding count drop closed)
    (phase : ReaderPhase) : (p.setPhase session phase).AboutToNotify := by
  rcases notifies with dropping | ⟨reader, count, drop, closed, at_, released⟩
  · exact .inl dropping
  · have other : reader ≠ session := by
      rintro rfl
      exact elsewhere _ _ _ at_
    exact .inr ⟨reader, count, drop, closed, by rw [setPhase_other p phase other, at_], released⟩

theorem Covered.mono {p p' : StagingPool} {session count : Nat} (covered : p.Covered session count)
    (feed : p'.feedBytes = p.feedBytes)
    (kept : ∀ q amount, (p.quotas q).Refuses amount → (p'.quotas q).Refuses amount)
    (notifies : p.AboutToNotify → p'.AboutToNotify) : p'.Covered session count := by
  rcases covered with large | ⟨demand, member, refuses⟩ | about
  · exact .inl (by rw [feed]; exact large)
  · exact .inr (.inl ⟨demand, member, kept _ _ refuses⟩)
  · exact .inr (.inr (notifies about))

theorem acquired_kept {p : StagingPool} {q : StagingQuota} {quota : Quota} {taken : Nat}
    (granted : (p.quotas q).acquire taken = (true, quota)) (other : StagingQuota) (amount : Nat)
    (refuses : (p.quotas other).Refuses amount) :
    ((p.setQuota q quota).quotas other).Refuses amount := by
  by_cases same : other = q
  · subst same
    rw [setQuota_same]
    exact refuses.acquired granted
  · rw [setQuota_other p quota same]
    exact refuses

/-- One reader moves on while the others' chunks stay covered. -/
theorem Wakeful.moved {p : StagingPool} (wakeful : p.Wakeful) (session : Nat) {p' : StagingPool}
    (phases : ∀ reader ≠ session, p'.phase reader = p.phase reader)
    (stalls : ∀ reader ≠ session, p'.stall reader = p.stall reader)
    (generation : p'.generation = p.generation)
    (still : ∀ reader count, (p.phase reader).refused = some count →
      p.stall reader = p.generation → p.Covered reader count → p'.Covered reader count)
    (within : (p'.phase session).Within session)
    (own : ∀ count, (p'.phase session).refused = some count →
      p'.stall session = p'.generation → p'.Covered session count) : p'.Wakeful := by
  constructor
  · intro reader
    by_cases same : reader = session
    · subst same
      exact within
    · rw [phases reader same]
      exact wakeful.within reader
  · intro reader count refused stalled
    by_cases same : reader = session
    · subst same
      exact own count refused stalled
    · rw [phases reader same] at refused
      rw [stalls reader same, generation] at stalled
      exact still reader count refused stalled (wakeful.covered reader count refused stalled)

/-- After a notification nobody who was turned away before it waits on its generation. -/
theorem Wakeful.notified {p : StagingPool} (wakeful : p.Wakeful) (unwrapped : p.Unwrapped)
    {p' : StagingPool} (generation : p'.generation = p.nextGeneration) (stalls : p'.stall = p.stall)
    (within : ∀ session, (p.phase session).Within session → (p'.phase session).Within session)
    (before : ∀ session count, (p'.phase session).refused = some count →
      (p.phase session).turnedAway = true) : p'.Wakeful := by
  constructor
  · intro session
    exact within session (wakeful.within session)
  · intro session count refused stalled
    rw [stalls, generation] at stalled
    exact absurd stalled (unwrapped session (before session count refused))

theorem turnedAway_of_refused {phase : ReaderPhase} {count : Nat}
    (refused : phase.refused = some count) : phase.turnedAway = true := by
  cases phase with
  | rollingBack | rejected | waiting => rfl
  | ready | acquiring | attaching | reserved | discarding => cases refused

@[simp] theorem rollBack_refused (count : Nat) (leases : List (Lease StagingQuota)) :
    (rollBack count leases).refused = some count := by
  unfold rollBack
  cases leases.flatMap Lease.releases <;> rfl

theorem rollBack_within (session count : Nat) (leases : List (Lease StagingQuota)) :
    (rollBack count leases).Within session := by
  unfold rollBack
  cases leases.flatMap Lease.releases <;> trivial

@[simp] theorem built_refused (count : Nat) (leases : List (Lease StagingQuota))
    (rest : List (Want StagingQuota)) : (built count leases rest).refused = none := by
  cases rest <;> rfl

theorem built_within {session count : Nat} (leases : List (Lease StagingQuota))
    {rest : List (Want StagingQuota)}
    (within : rest.flatMap Want.demands ⊆ demands session count) :
    (built count leases rest).Within session := by
  cases rest with
  | nil => trivial
  | cons want rest => exact within

/-- A reader that moves within its demands leaves every reader within its own. -/
theorem setPhase_within (p : StagingPool) {session : Nat} {phase : ReaderPhase}
    (moved : phase.Within session) (reader : Nat) (within : (p.phase reader).Within reader) :
    ((p.setPhase session phase).phase reader).Within reader := by
  by_cases same : reader = session
  · subst same
    rw [setPhase_same]
    exact moved
  · rw [setPhase_other _ _ same]
    exact within

/-- A reader moves without touching a quota; what it may then be refused is its own matter. -/
theorem Wakeful.shift {p : StagingPool} (wakeful : p.Wakeful) {session : Nat} {phase : ReaderPhase}
    (elsewhere : ∀ count drop closed, p.phase session ≠ .discarding count drop closed)
    (within : phase.Within session)
    (refused : ∀ count, phase.refused = some count → (p.setPhase session phase).Covered session count) :
    (p.setPhase session phase).Wakeful := by
  apply wakeful.moved session
  · exact fun reader other => setPhase_other p _ other
  · exact fun _ _ => rfl
  · rfl
  · exact fun reader count _ _ covered =>
      covered.mono rfl (fun _ _ => id) fun about => about.setPhase elsewhere _
  · rw [setPhase_same]
    exact within
  · intro count wanted _
    rw [setPhase_same] at wanted
    exact refused count wanted

/-- A quota refused one of the chunk's acquisitions, so a retry fails there too. -/
theorem Wakeful.refuse {p : StagingPool} (wakeful : p.Wakeful) {session count : Nat}
    {q : StagingQuota} {amount : Nat} {quota : Quota}
    (elsewhere : ∀ count drop closed, p.phase session ≠ .discarding count drop closed)
    (member : (q, amount) ∈ demands session count)
    (refuses : (p.quotas q).acquire amount = (false, quota)) (leases : List (Lease StagingQuota)) :
    (p.setPhase session (rollBack count leases)).Wakeful := by
  refine wakeful.shift elsewhere (rollBack_within session count leases) fun wanted refused => ?_
  rw [rollBack_refused] at refused
  cases refused
  exact .inr (.inl ⟨(q, amount), member, congrArg Prod.fst refuses⟩)

/-- An acquisition was granted, which leaves the others no more room. -/
theorem Wakeful.grant {p : StagingPool} (wakeful : p.Wakeful) {session : Nat}
    {q : StagingQuota} {amount : Nat} {quota : Quota} {phase : ReaderPhase}
    (elsewhere : ∀ count drop closed, p.phase session ≠ .discarding count drop closed)
    (granted : (p.quotas q).acquire amount = (true, quota)) (within : phase.Within session)
    (unrefused : phase.refused = none) :
    ((p.setQuota q quota).setPhase session phase).Wakeful := by
  apply wakeful.moved session
  · exact fun reader other => setPhase_other _ _ other
  · exact fun _ _ => rfl
  · rfl
  · exact fun reader count _ _ covered =>
      covered.mono rfl (acquired_kept granted) fun about =>
        AboutToNotify.setPhase (p := p.setQuota q quota) about elsewhere _
  · rw [setPhase_same]
    exact within
  · intro count refused _
    rw [setPhase_same, unrefused] at refused
    cases refused

/-- A released amount reopens no refused reader's chunk that was not awaiting it. -/
theorem Covered.released {p : StagingPool} {reader count : Nat} (covered : p.Covered reader count)
    {q : StagingQuota} {amount : Nat} (spared : p.Awaits reader count q amount → p.AboutToNotify) :
    (p.release q amount).Covered reader count := by
  rcases covered with large | ⟨⟨other, wanted⟩, member, refuses⟩ | about
  · exact .inl large
  · by_cases same : other = q
    · subst same
      by_cases still : ((p.quotas other).release amount).Refuses wanted
      · exact .inr (.inl ⟨(other, wanted), member, by simpa [release] using still⟩)
      -- The released quota admits the chunk now; either another one refuses it or the
      -- chunk awaited exactly this amount.
      · by_cases elsewhere : ∃ demand ∈ demands reader count,
            demand.1 ≠ other ∧ (p.quotas demand.1).Refuses demand.2
        · obtain ⟨demand, inside, different, full⟩ := elsewhere
          refine .inr (.inl ⟨demand, inside, ?_⟩)
          rw [release, setQuota_other p _ different]
          exact full
        · refine .inr (.inr (spared ⟨⟨wanted, member, refuses, still⟩, ?_⟩))
          exact fun demand inside different full => elsewhere ⟨demand, inside, different, full⟩
    · refine .inr (.inl ⟨(other, wanted), member, ?_⟩)
      rw [release, setQuota_other p _ same]
      exact refuses
  · exact .inr (.inr about)

/-- A refused reservation gives back one part. -/
theorem Wakeful.rollBack {p : StagingPool} (wakeful : p.Wakeful) {session count : Nat}
    {q : StagingQuota} {amount : Nat} {pending : List (StagingQuota × Nat)} {phase : ReaderPhase}
    (before : p.phase session = .rollingBack count ((q, amount) :: pending))
    (unawaited : p.Unawaited q amount) (within : phase.Within session)
    (same : phase.refused = some count) :
    ((p.release q amount).setPhase session phase).Wakeful := by
  have about : p.AboutToNotify → ((p.release q amount).setPhase session phase).AboutToNotify := by
    intro about
    exact AboutToNotify.setPhase (p := p.release q amount) about
      (by intro count drop closed discarding; cases before.symm.trans discarding) phase
  have still : ∀ reader count, (p.phase reader).refused = some count →
      p.stall reader = p.generation → p.Covered reader count →
      ((p.release q amount).setPhase session phase).Covered reader count := by
    intro reader count refused stalled covered
    have released := covered.released (unawaited reader count refused stalled)
    exact released.mono rfl (fun _ _ => id) about
  apply wakeful.moved session
  · exact fun reader other => setPhase_other _ _ other
  · exact fun _ _ => rfl
  · rfl
  · exact still
  · rw [setPhase_same]
    exact within
  · intro wanted refused stalled
    rw [setPhase_same, same] at refused
    cases refused
    have refusedBefore : (p.phase session).refused = some count := by rw [before]; rfl
    exact still session count refusedBefore stalled
      (wakeful.covered session count refusedBefore stalled)

/-- A drop gave something back: it is about to notify. -/
theorem Wakeful.giveBack {p : StagingPool} (wakeful : p.Wakeful) {p' : StagingPool}
    (within : ∀ session, (p.phase session).Within session → (p'.phase session).Within session)
    (about : p'.AboutToNotify) : p'.Wakeful :=
  ⟨fun session => within session (wakeful.within session), fun _ _ _ _ => .inr (.inr about)⟩

/-- A reader moves without touching a quota to where nothing is refused. -/
theorem Wakeful.resume {p : StagingPool} (wakeful : p.Wakeful) {session : Nat}
    {phase : ReaderPhase}
    (elsewhere : ∀ count drop closed, p.phase session ≠ .discarding count drop closed)
    (within : phase.Within session) (unrefused : phase.refused = none) :
    (p.setPhase session phase).Wakeful := by
  refine wakeful.shift elsewhere within fun count refused => ?_
  rw [unrefused] at refused
  cases refused

/-- A refused reader moves on with the same chunk. -/
theorem Wakeful.proceed {p : StagingPool} (wakeful : p.Wakeful) {session count : Nat}
    {phase : ReaderPhase} (before : (p.phase session).refused = some count)
    (within : phase.Within session) (same : phase.refused = some count) :
    (p.setPhase session phase).Wakeful := by
  have elsewhere : ∀ count drop closed, p.phase session ≠ .discarding count drop closed := by
    intro _ _ _ discarding
    rw [discarding] at before
    cases before
  have still : ∀ reader count, p.Covered reader count →
      (p.setPhase session phase).Covered reader count := fun reader count covered =>
    covered.mono rfl (fun _ _ => id) fun about => about.setPhase elsewhere _
  apply wakeful.moved session
  · exact fun reader other => setPhase_other p _ other
  · exact fun _ _ => rfl
  · rfl
  · exact fun reader count _ _ => still reader count
  · rw [setPhase_same]
    exact within
  · intro wanted refused stalled
    rw [setPhase_same, same] at refused
    cases refused
    exact still session count (wakeful.covered session count before stalled)

theorem advance_wakeful {p : StagingPool} (wakeful : p.Wakeful) {session : Nat} {outcome : Staged}
    (meets : p.Meets (.advance session outcome)) : (p.advance session outcome).Wakeful := by
  have inside := wakeful.within session
  cases at_ : p.phase session with
  | ready | rejected | waiting =>
    simp only [advance, at_]
    exact wakeful
  | acquiring count leases want rest =>
    rw [at_] at inside
    have elsewhere : ∀ count drop closed, p.phase session ≠ .discarding count drop closed := by
      simp [at_]
    simp only [advance, at_]
    cases granted : (p.quotas want.first).acquire want.count with
    | mk answer quota =>
      cases answer with
      | false =>
        exact wakeful.refuse elsewhere (inside (by simp [Want.demands])) granted leases
      | true =>
        refine wakeful.grant elsewhere granted ?_ ?_
        · cases second : want.second with
          | none =>
            refine built_within _ (List.Subset.trans ?_ inside)
            exact List.subset_append_right _ _
          | some other =>
            refine List.Subset.trans ?_ inside
            simp [Want.demands, second]
        · cases want.second with
          | none => exact built_refused _ _ _
          | some other => rfl
  | attaching count leases lease second rest =>
    rw [at_] at inside
    have elsewhere : ∀ count drop closed, p.phase session ≠ .discarding count drop closed := by
      simp [at_]
    simp only [advance, at_]
    cases granted : (p.quotas second).acquire lease.count with
    | mk answer quota =>
      cases answer with
      | false => exact wakeful.refuse elsewhere (inside List.mem_cons_self) granted _
      | true =>
        exact wakeful.grant elsewhere granted
          (built_within _ fun demand member => inside (List.mem_cons_of_mem _ member))
          (built_refused _ _ _)
  | reserved count leases =>
    have elsewhere : ∀ count drop closed, p.phase session ≠ .discarding count drop closed := by
      simp [at_]
    simp only [advance, at_]
    cases outcome with
    | unallocated | closed => exact wakeful.resume elsewhere trivial rfl
    | queued =>
      have queued : StagingPool.Wakeful { p with held := p.held ++ [leases] } :=
        ⟨wakeful.within, wakeful.covered⟩
      exact queued.resume elsewhere trivial rfl
  | rollingBack count pending =>
    cases pending with
    | nil =>
      simp only [advance, at_]
      exact wakeful.proceed (by rw [at_]; rfl) trivial rfl
    | cons part pending =>
      obtain ⟨q, amount⟩ := part
      simp only [Meets, at_] at meets
      simp only [advance, at_]
      apply wakeful.rollBack at_ meets
      · split <;> trivial
      · split <;> rfl
  | discarding count drop closed =>
    obtain ⟨released, pending⟩ := drop
    cases pending with
    | nil =>
      simp only [Meets, at_] at meets
      simp only [advance, at_]
      refine wakeful.notified meets rfl rfl ?_ ?_
      · exact setPhase_within p (by split <;> trivial)
      · intro reader wanted refused
        by_cases same : reader = session
        · subst same
          rw [setPhase_same] at refused
          rw [at_]
          cases closed with
          | true => cases refused
          | false => rfl
        · rw [setPhase_other _ _ same] at refused
          exact turnedAway_of_refused refused
    | cons part pending =>
      obtain ⟨q, amount⟩ := part
      simp only [advance, at_]
      refine wakeful.giveBack ?_ (.inr ⟨session, count, _, closed, setPhase_same _ _ _, rfl⟩)
      exact setPhase_within (p.release q amount) trivial

/-- A new attempt remembers the generation before anything is refused. -/
theorem attempt_wakeful {p : StagingPool} (wakeful : p.Wakeful) {session count : Nat}
    {closed : Bool}
    (elsewhere : ∀ count drop closed, p.phase session ≠ .discarding count drop closed) :
    (p.attempt session count closed).Wakeful := by
  have start : ∀ phase : ReaderPhase, phase.Within session →
      (phase.refused = none ∨ phase.refused = some count ∧ p.feedBytes session < count) →
      (StagingPool.setPhase { p with stall := Function.update p.stall session p.generation }
        session phase).Wakeful := by
    intro phase within refused
    apply wakeful.moved session
    · exact fun reader other => setPhase_other _ _ other
    · intro reader other
      exact Function.update_of_ne other _ _
    · rfl
    · exact fun reader count _ _ covered =>
        covered.mono rfl (fun _ _ => id) fun about => AboutToNotify.setPhase
          (p := { p with stall := Function.update p.stall session p.generation }) about elsewhere _
    · rw [setPhase_same]
      exact within
    · intro wanted refusedNow _
      rw [setPhase_same] at refusedNow
      rcases refused with none | ⟨same, large⟩
      · rw [none] at refusedNow
        cases refusedNow
      · rw [same] at refusedNow
        cases refusedNow
        exact .inl large
  unfold attempt
  cases closed with
  | true => exact start _ trivial (.inl rfl)
  | false =>
    by_cases empty : count = 0
    · simp only [empty, Bool.false_eq_true, if_false, if_true]
      exact start _ trivial (.inl rfl)
    · by_cases large : p.feedBytes session < count
      · simp only [empty, large, Bool.false_eq_true, if_false, if_true]
        exact start _ trivial (.inr ⟨rfl, large⟩)
      · simp only [empty, large, Bool.false_eq_true, if_false]
        exact start _ (List.Subset.refl _) (.inl rfl)

theorem step_wakeful {p : StagingPool} (wakeful : p.Wakeful) {event : Event}
    (meets : p.Meets event) : (p.step event).Wakeful := by
  cases event with
  | attempt session count closed =>
    cases at_ : p.phase session with
    | ready | rejected =>
      simp only [step, at_]
      exact attempt_wakeful wakeful (by simp [at_])
    | acquiring | attaching | reserved | rollingBack | discarding | waiting =>
      simp only [step, at_]
      exact wakeful
  | advance session outcome => exact advance_wakeful wakeful meets
  | wait session =>
    cases at_ : p.phase session with
    | rejected count =>
      simp only [step, at_]
      split
      · exact wakeful.proceed (by rw [at_]; rfl) trivial rfl
      · exact wakeful.resume (by simp [at_]) trivial rfl
    | ready | acquiring | attaching | reserved | rollingBack | discarding | waiting =>
      simp only [step, at_]
      exact wakeful
  | wake session =>
    cases at_ : p.phase session with
    | waiting count =>
      simp only [step, at_]
      split
      · exact wakeful
      · exact wakeful.resume (by simp [at_]) trivial rfl
    | ready | acquiring | attaching | reserved | rollingBack | discarding | rejected =>
      simp only [step, at_]
      exact wakeful
  | timeout session =>
    cases at_ : p.phase session with
    | waiting count =>
      simp only [step, at_]
      exact wakeful.resume (by simp [at_]) trivial rfl
    | ready | acquiring | attaching | reserved | rollingBack | discarding | rejected =>
      simp only [step, at_]
      exact wakeful
  | drop index =>
    cases found : p.held[index]? with
    | none =>
      simp only [step, found]
      exact wakeful
    | some leases =>
      simp only [step, found]
      refine ⟨wakeful.within, fun session count refused stalled => ?_⟩
      refine (wakeful.covered session count refused stalled).mono rfl (fun _ _ => id) ?_
      rintro (⟨drop, member, released⟩ | discarding)
      · exact .inl ⟨drop, List.mem_append_left _ member, released⟩
      · exact .inr discarding
  | advanceDrop index =>
    cases found : p.dropping[index]? with
    | none =>
      simp only [step, found]
      exact wakeful
    | some drop =>
      obtain ⟨released, pending⟩ := drop
      cases pending with
      | nil =>
        simp only [Meets, found] at meets
        simp only [step, found]
        exact wakeful.notified meets rfl rfl (fun _ => id)
          fun _ _ refused => turnedAway_of_refused refused
      | cons part pending =>
        obtain ⟨q, amount⟩ := part
        simp only [step, found]
        refine wakeful.giveBack (fun _ => id) (.inl ⟨⟨true, pending⟩, ?_, rfl⟩)
        exact List.mem_set (List.getElem?_eq_some_iff.mp found).1 _
  | signal =>
    exact wakeful.notified meets rfl rfl (fun _ => id)
      fun _ _ refused => turnedAway_of_refused refused

theorem run_wakeful {p : StagingPool} (wakeful : p.Wakeful) {events : List Event}
    (careful : p.Careful events) : (p.run events).Wakeful := by
  induction events generalizing p with
  | nil => exact wakeful
  | cons event rest ih => exact ih (step_wakeful wakeful careful.1) careful.2

theorem new_wakeful (limits : StagingQuota → Nat) (feedBytes : Nat → Nat) :
    (new limits feedBytes).Wakeful :=
  ⟨fun _ => trivial, fun _ _ refused => nomatch refused⟩

/-- One refused demand is enough for a retry to fail. -/
theorem acquireAll_refused {quotas : StagingQuota → Quota} {wanted : List (StagingQuota × Nat)}
    {demand : StagingQuota × Nat} (member : demand ∈ wanted)
    (refuses : (quotas demand.1).Refuses demand.2) : acquireAll quotas wanted = none := by
  induction wanted generalizing quotas with
  | nil => cases member
  | cons head rest ih =>
    obtain ⟨q, amount⟩ := head
    unfold acquireAll
    cases granted : (quotas q).acquire amount with
    | mk answer quota =>
      cases answer with
      | false => rfl
      | true =>
        have later : demand ∈ rest := by
          refine (List.mem_cons.mp member).resolve_left ?_
          rintro rfl
          rw [Quota.Refuses, granted] at refuses
          cases refuses
        refine ih later ?_
        by_cases same : demand.1 = q
        · rw [same, Function.update_self]
          rw [same] at refuses
          exact refuses.acquired granted
        · rw [Function.update_of_ne same]
          exact refuses

theorem Covered.retry {p : StagingPool} {session count : Nat} (covered : p.Covered session count) :
    p.retry session count = .backpressure ∨ p.AboutToNotify := by
  rcases covered with large | ⟨demand, member, refuses⟩ | about
  · left
    rw [StagingPool.retry, if_pos large]
  · left
    have refused : acquireAll p.quotas
        ((StagingQuota.wants session count).flatMap Want.demands) = none :=
      acquireAll_refused member refuses
    unfold StagingPool.retry
    split
    · rfl
    · rw [refused]
  · exact .inr about

/-- In a careful run a reader blocked on the generation it remembered lacks quota for its
chunk, or a dropped lease is about to notify it. -/
theorem no_lost_capacity_wakeup (limits : StagingQuota → Nat) (feedBytes : Nat → Nat)
    (events : List Event) (careful : (new limits feedBytes).Careful events)
    (session count : Nat)
    (waiting : ((new limits feedBytes).run events).phase session = .waiting count)
    (current : ((new limits feedBytes).run events).stall session =
      ((new limits feedBytes).run events).generation) :
    ((new limits feedBytes).run events).retry session count = .backpressure ∨
      ((new limits feedBytes).run events).AboutToNotify := by
  have wakeful := run_wakeful (new_wakeful limits feedBytes) careful
  exact (wakeful.covered session count (by rw [waiting]; rfl) current).retry

/-- A runtime with so many staging slots, one of them for each session. -/
def withSlots (slots : Nat) : StagingPool :=
  new (fun
    | .slots => slots
    | .sessionSlots _ => 1
    | .bytes | .sessionBytes _ => 64) fun _ => 16

/-- A chunk of eight bytes is queued. -/
def queueChunk (session : Nat) : List Event :=
  .attempt session 8 false :: List.replicate 5 (.advance session .queued)

/-- Session 2 waits for the only slot, which session 1's chunk is giving back. -/
def awaitedDrop : List Event :=
  queueChunk 1 ++ [.attempt 2 8 false, .advance 2 .queued, .wait 2, .drop 0, .advanceDrop 0]

theorem no_lost_capacity_wakeup_dropping :
    ((withSlots 1).run awaitedDrop).phase 2 = .waiting 8 ∧
      (((withSlots 1).run awaitedDrop).retry 2 8 = .backpressure ∨
        ((withSlots 1).run awaitedDrop).AboutToNotify) :=
  ⟨by decide, no_lost_capacity_wakeup _ _ awaitedDrop
    (by trivial) 2 8 (by decide) (by decide)⟩

/-- A step moves only the reader it names. -/
def Event.reader : Event → Option Nat
  | .attempt session _ _ | .advance session _ | .wait session | .wake session
  | .timeout session => some session
  | .drop _ | .advanceDrop _ | .signal => none

theorem step_phase_other (p : StagingPool) {event : Event} {reader : Nat}
    (other : event.reader ≠ some reader) : (p.step event).phase reader = p.phase reader := by
  cases event with
  | attempt session count closed =>
    have different : reader ≠ session := fun same => other (congrArg some same.symm)
    simp only [step, attempt]
    repeat' split
    all_goals first
      | rfl
      | exact setPhase_other _ _ different
  | advance session outcome =>
    have different : reader ≠ session := fun same => other (congrArg some same.symm)
    simp only [step, advance]
    repeat' split
    all_goals first
      | rfl
      | exact setPhase_other _ _ different
  | wait session | wake session | timeout session =>
    have different : reader ≠ session := fun same => other (congrArg some same.symm)
    simp only [step]
    repeat' split
    all_goals first
      | rfl
      | exact setPhase_other _ _ different
  | drop index | advanceDrop index =>
    simp only [step]
    split <;> rfl
  | signal => rfl

theorem run_phase_other (p : StagingPool) {events : List Event} {reader : Nat}
    (others : ∀ event ∈ events, event.reader ≠ some reader) :
    (p.run events).phase reader = p.phase reader := by
  induction events generalizing p with
  | nil => rfl
  | cons event rest ih =>
    rw [List.forall_mem_cons] at others
    exact (ih (p.step event) others.2).trans (step_phase_other p others.1)

/-- Session 1 holds its slot and takes the last one of the runtime for a second chunk;
session 2 is refused that slot; session 1's own share then refuses it, and it gives the
slot back without a notification before session 2 waits. -/
def silentRollback : List Event :=
  queueChunk 1 ++
    [.attempt 1 8 false, .advance 1 .queued, .attempt 2 8 false, .advance 2 .queued,
      .advance 1 .queued, .advance 1 .queued, .wait 2]

theorem silentRollback_phase (reader : Nat) (count : Nat) (drop : StagingDrop) (closed : Bool) :
    ((withSlots 2).run silentRollback).phase reader ≠ .discarding count drop closed := by
  by_cases first : reader = 1
  · subst first
    rw [show ((withSlots 2).run silentRollback).phase 1 = .rejected 8 by decide]
    nofun
  · by_cases second : reader = 2
    · subst second
      rw [show ((withSlots 2).run silentRollback).phase 2 = .waiting 8 by decide]
      nofun
    · rw [run_phase_other]
      · nofun
      · simp [silentRollback, queueChunk, Event.reader, Ne.symm first, Ne.symm second]

/-- Session 2 sleeps though its chunk would be accepted and nothing will notify it. -/
theorem rollback_loses_wakeup :
    ¬∀ (limits : StagingQuota → Nat) (feedBytes : Nat → Nat) (events : List Event)
        (session count : Nat),
      ((new limits feedBytes).run events).phase session = .waiting count →
      ((new limits feedBytes).run events).stall session =
        ((new limits feedBytes).run events).generation →
      ((new limits feedBytes).run events).retry session count = .backpressure ∨
        ((new limits feedBytes).run events).AboutToNotify := by
  intro claim
  have outcome : ((withSlots 2).run silentRollback).retry 2 8 = .backpressure ∨
      ((withSlots 2).run silentRollback).AboutToNotify :=
    claim _ _ silentRollback 2 8 (by decide) (by decide)
  have accepted : ((withSlots 2).run silentRollback).retry 2 8 = .accepted := by decide
  rcases outcome with refused | ⟨drop, member, -⟩ | ⟨reader, count, drop, closed, at_, -⟩
  · rw [accepted] at refused
    cases refused
  · have none : ((withSlots 2).run silentRollback).dropping = [] := by decide
    rw [none] at member
    cases member
  · exact silentRollback_phase reader count drop closed at_

end StagingPool
end PtyRuntime
