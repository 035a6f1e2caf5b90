import PtyRuntime.Application.Reservations
import PtyRuntime.Tally

/-! Conservation of the shared counters: at every access of every call, each counter
stands at the sum of what the live leases, watchers, replay storage and unfinished
calls hold of it. -/
namespace PtyRuntime

open Tally

variable {κ : Type} [DecidableEq κ]

/-- What one named amount charges to a counter. -/
def amount (q : κ) (entry : κ × Nat) : Nat := if entry.1 = q then entry.2 else 0

theorem amount_zero (q k : κ) : amount q (k, 0) = 0 := by simp [amount]

theorem amount_succ (q k : κ) (n : Nat) : amount q (k, n + 1) = amount q (k, n) + amount q (k, 1) := by
  unfold amount
  split <;> rfl

theorem amount_split (q k : κ) {part whole : Nat} (within : part ≤ whole) :
    amount q (k, whole) = amount q (k, part) + amount q (k, whole - part) := by
  simp only [amount]
  split <;> omega

/-- The count of the lease, once for each counter it is charged to. -/
def Lease.charge (q : κ) (lease : Lease κ) : Nat :=
  amount q (lease.first, lease.count) +
    match lease.second with
    | none => 0
    | some second => amount q (second, lease.count)

def InputLease.charge (q : κ) (lease : InputLease κ) : Nat :=
  amount q (lease.bytes, lease.count) + amount q (lease.slots, 1)

theorem Lease.total_releases (q : κ) (lease : Lease κ) :
    total (amount q) lease.releases = lease.charge q := by
  unfold Lease.releases Lease.charge
  cases lease.second <;> simp

theorem InputLease.total_releases (q : κ) (lease : InputLease κ) :
    total (amount q) lease.releases = lease.charge q := by
  simp [InputLease.releases, InputLease.charge]

theorem total_flatMap_releases (q : κ) (leases : List (Lease κ)) :
    total (amount q) (leases.flatMap Lease.releases) = total (Lease.charge q) leases := by
  induction leases with
  | nil => rfl
  | cons lease rest ih => simp [ih, Lease.total_releases]

namespace ChargedSession

/-- The watchers' ids were all handed out, and the callbacks' charge is the storage
except for what a callback under way still has to settle. -/
structure Settles (s : ChargedSession) (charge : Nat) : Prop where
  ids : ∀ entry ∈ s.watchers.entries, entry.1 < s.nextWatcher
  charged : s.acquired = s.released + charge
  limit : s.replay.limit = s.replayBytes
  fits : s.replay.bytes.length ≤ s.replay.allocated
  bounded : s.replay.bytes.length ≤ s.replayBytes

/-- Between callbacks the charge is exactly the storage. -/
def Sound (s : ChargedSession) : Prop := s.Settles s.replay.allocated

theorem new_sound (id : Nat) (lifetime : SessionLifetime) (replayBytes maxObservers : Nat) :
    (new id lifetime replayBytes maxObservers).Sound where
  ids := by simp [new, SortedMap.empty]
  charged := rfl
  limit := rfl
  fits := Nat.le_refl _
  bounded := Nat.zero_le _

theorem insertWatcher_cases (s : ChargedSession) :
    (∃ e, s.insertWatcher = (.error e, s)) ∨
      s.insertWatcher = (.ok s.nextWatcher, { s with
        nextWatcher := s.nextWatcher + 1, watchers := s.watchers.insert s.nextWatcher none }) := by
  unfold insertWatcher
  by_cases poisoned : s.poisoned = true
  · exact .inl ⟨_, by rw [if_pos poisoned]⟩
  · by_cases full : s.watchers.entries.length ≥ s.maxObservers
    · exact .inl ⟨_, by rw [if_neg poisoned, if_pos full]⟩
    · rw [if_neg poisoned, if_neg full]
      cases next : checkedAdd s.nextWatcher 1 with
      | none => exact .inl ⟨_, rfl⟩
      | some id =>
        obtain ⟨-, rfl⟩ := checkedAdd_eq_some.mp next
        exact .inr rfl

theorem takeWatcher_cases (s : ChargedSession) (id : Nat) :
    s.takeWatcher id = (false, s) ∨
      (s.watchers.get? id).isSome = true ∧
        s.takeWatcher id = (true, { s with watchers := s.watchers.erase id }) := by
  unfold takeWatcher
  by_cases skip : s.poisoned ∨ (s.watchers.get? id).isNone
  · exact .inl (by rw [if_pos skip])
  · rw [if_neg skip]
    refine .inr ⟨?_, rfl⟩
    rw [not_or] at skip
    simpa [Option.isSome_iff_ne_none] using skip.2

/-- What is appended fits the admitted capacity, so the storage never grows here. -/
theorem append_cases (s : ChargedSession) (bytes : Bytes) :
    s.append bytes = s ∨
      ∃ retained endOffset, retained.length ≤ s.replay.limit ∧
        retained.length ≤ s.replay.allocated ∧
        s.append bytes = { s with
          replay := { s.replay with bytes := retained, endOffset }
          watchers := s.watchers.mapValues fun _ _ => none } := by
  unfold append ReplayBuffer.appendWithLimit
  cases sum : checkedAdd s.replay.endOffset bytes.length with
  | none => exact .inl rfl
  | some endOffset =>
    simp only
    generalize fit : min s.replay.limit s.replay.allocated = limit
    generalize kept : s.replay.bytes.drop (s.replay.bytes.length -
      (limit - (bytes.drop (bytes.length - limit)).length)) ++
        bytes.drop (bytes.length - limit) = retained
    have within : retained.length ≤ limit := by
      rw [← kept]
      simp only [List.length_append, List.length_drop]
      omega
    refine .inr ⟨retained, endOffset, by omega, by omega, ?_⟩
    have room : retained.length ≤ s.replay.allocated := by omega
    simp only [ReplayBuffer.grownCapacity, if_pos room]

theorem append_allocated (s : ChargedSession) (bytes : Bytes) :
    (s.append bytes).replay.allocated = s.replay.allocated := by
  rcases append_cases s bytes with same | ⟨retained, endOffset, -, -, same⟩ <;> rw [same]

theorem append_watchers (s : ChargedSession) (bytes : Bytes) :
    (s.append bytes).watchers.entries.length = s.watchers.entries.length := by
  rcases append_cases s bytes with same | ⟨retained, endOffset, -, -, same⟩
  · rw [same]
  · rw [same]
    exact SortedMap.length_mapValues _ _

theorem Settles.append {s : ChargedSession} {charge : Nat} (settles : s.Settles charge)
    (bytes : Bytes) : (s.append bytes).Settles charge := by
  rcases append_cases s bytes with same | ⟨retained, endOffset, limited, fits, same⟩
  · rw [same]
    exact settles
  · rw [same]
    refine ⟨?_, settles.charged, settles.limit, fits, settles.limit ▸ limited⟩
    intro entry member
    obtain ⟨before, registered, rfl⟩ := List.mem_map.mp member
    exact settles.ids before registered

theorem Sound.append {s : ChargedSession} (sound : s.Settles s.replay.allocated) (bytes : Bytes) :
    (s.append bytes).Sound := by
  unfold Sound
  rw [append_allocated]
  exact sound.append bytes

end ChargedSession

namespace Reservations

variable {base r : Reservations κ} {extra : κ → Nat}

/-- What a session charges, given the names of the two counters it uses. -/
def sessionCharge (observers replayQuota q : κ) (s : ChargedSession) : Nat :=
  amount q (replayQuota, s.replay.allocated) + amount q (observers, s.watchers.entries.length)

/-- What a call under way owns: leases, a locked session, loose amounts. -/
def taskCharge (observers replayQuota q : κ) : Task κ → Nat
  | .acquire _ leases _ _ => total (Lease.charge q) leases
  | .attach _ leases lease _ _ => lease.charge q + total (Lease.charge q) leases
  | .inputBytes _ _ slots _ => amount q (slots, 1)
  | .insertWatcher _ => amount q (observers, 1)
  | .grow s _ _ => sessionCharge observers replayQuota q s
  | .excess s _ target _ =>
    amount q (replayQuota, target) + amount q (observers, s.watchers.entries.length)
  | .shrink s _ released =>
    sessionCharge observers replayQuota q s + amount q (replayQuota, released)
  | .giveBack pending _ => total (amount q) pending
  | .inputSlots .. | .registerWatcher _ | .removeWatcher .. | .output .. => 0

/-- Everything live that is charged to a counter. -/
def charged (r : Reservations κ) (q : κ) : Nat :=
  total (fun lease => lease.2.charge q) r.leases + total (fun lease => lease.2.charge q) r.inputs +
    total (sessionCharge r.observers r.replayQuota q) r.sessions +
    total (taskCharge r.observers r.replayQuota q) r.tasks

/-- Where a call stopped, with the storage it has reserved but not yet settled. -/
def TaskSound : Task κ → Prop
  | .attach _ _ lease _ _ => lease.second = none
  | .grow s _ target => s.Sound ∧ s.replay.allocated < target
  | .excess s _ target actual => s.Settles target ∧ s.replay.allocated = actual ∧ target < actual
  | .shrink s _ released => s.Settles (s.replay.allocated + released)
  | _ => True

/-- What no event changes: the limits and which counters sessions use. -/
structure Fixed (base r : Reservations κ) : Prop where
  observers : r.observers = base.observers
  replayQuota : r.replayQuota = base.replayQuota
  limits : ∀ q, (r.quotas q).limit = (base.quotas q).limit

/-- Every counter stands at what is live, plus what a call being performed owns. -/
structure Solvent (base r : Reservations κ) (extra : κ → Nat) : Prop where
  fixed : Fixed base r
  balance : ∀ q, (r.quotas q).used = r.charged q + extra q
  limited : ∀ q, (r.quotas q).used ≤ (r.quotas q).limit
  sessions : ∀ s ∈ r.sessions, s.Sound
  tasks : ∀ task ∈ r.tasks, TaskSound task

theorem Solvent.congr {extra' : κ → Nat} (solvent : Solvent base r extra)
    (same : ∀ q, extra' q = extra q) : Solvent base r extra' :=
  ⟨solvent.fixed, fun q => same q ▸ solvent.balance q, solvent.limited, solvent.sessions,
    solvent.tasks⟩

theorem Fixed.update (fixed : Fixed base r) {q : κ} {quota : Quota}
    (same : quota.limit = (r.quotas q).limit) :
    Fixed base { r with quotas := Function.update r.quotas q quota } := by
  refine ⟨fixed.observers, fixed.replayQuota, fun k => ?_⟩
  rw [← fixed.limits k]
  by_cases here : k = q
  · subst here
    simpa using same
  · simp [Function.update_of_ne here]

/-- A counter after an admitted acquisition. -/
def charge (r : Reservations κ) (q : κ) (n : Nat) : Reservations κ :=
  { r with quotas := Function.update r.quotas q { r.quotas q with used := (r.quotas q).used + n } }

theorem take_cases (r : Reservations κ) (q : κ) (n : Nat) :
    r.take q n = (false, r) ∨
      (r.quotas q).used + n ≤ (r.quotas q).limit ∧ r.take q n = (true, r.charge q n) := by
  unfold take Quota.acquire
  cases sum : (checkedAdd (r.quotas q).used n).filter (· ≤ (r.quotas q).limit) with
  | none =>
    left
    simp only [Function.update_eq_self]
  | some used =>
    obtain ⟨added, room⟩ := Option.filter_eq_some_iff.mp sum
    obtain ⟨-, rfl⟩ := checkedAdd_eq_some.mp added
    exact .inr ⟨by simpa using room, rfl⟩

theorem Solvent.charge (solvent : Solvent base r extra) {q : κ} {n : Nat}
    (room : (r.quotas q).used + n ≤ (r.quotas q).limit) :
    Solvent base (r.charge q n) (fun k => extra k + amount k (q, n)) := by
  refine ⟨solvent.fixed.update rfl, fun k => ?_, fun k => ?_, solvent.sessions, solvent.tasks⟩
  · have before := solvent.balance k
    change (Function.update r.quotas q _ k).used = r.charged k + _
    by_cases same : k = q
    · subst same
      simp only [Function.update_self, amount, if_true]
      omega
    · simp only [Function.update_of_ne same, amount, if_neg (Ne.symm same)]
      omega
  · change (Function.update r.quotas q _ k).used ≤ (Function.update r.quotas q _ k).limit
    by_cases same : k = q
    · subst same
      simpa using room
    · simpa [Function.update_of_ne same] using solvent.limited k

theorem Solvent.put {q : κ} {n : Nat}
    (solvent : Solvent base r (fun k => extra k + amount k (q, n))) : Solvent base (r.put q n) extra := by
  refine ⟨solvent.fixed.update rfl, fun k => ?_, fun k => ?_, solvent.sessions, solvent.tasks⟩
  · have before := solvent.balance k
    change (Function.update r.quotas q _ k).used = r.charged k + _
    by_cases same : k = q
    · subst same
      simp only [Function.update_self, Quota.release]
      simp only [amount, if_true] at before
      omega
    · simp only [Function.update_of_ne same]
      simp only [amount, if_neg (Ne.symm same)] at before
      omega
  · change (Function.update r.quotas q _ k).used ≤ (Function.update r.quotas q _ k).limit
    have before := solvent.limited k
    by_cases same : k = q
    · subst same
      simp only [Function.update_self, Quota.release]
      omega
    · simpa [Function.update_of_ne same] using before

/-- Things may change places as long as each counter's share of them stays the same. -/
theorem Solvent.exchange {extra' : κ → Nat} (solvent : Solvent base r extra)
    {leases : List (Nat × Lease κ)} {inputs : List (Nat × InputLease κ)}
    {sessions : List ChargedSession} {tasks : List (Task κ)} {nextSession : Nat}
    (same : ∀ q, r.charged q + extra q =
      total (fun lease => lease.2.charge q) leases + total (fun lease => lease.2.charge q) inputs +
        total (sessionCharge r.observers r.replayQuota q) sessions +
        total (taskCharge r.observers r.replayQuota q) tasks + extra' q)
    (sound : ∀ s ∈ sessions, s.Sound) (stopped : ∀ task ∈ tasks, TaskSound task) :
    Solvent base { r with leases, inputs, sessions, tasks, nextSession } extra' :=
  ⟨⟨solvent.fixed.observers, solvent.fixed.replayQuota, solvent.fixed.limits⟩,
    fun q => (solvent.balance q).trans (same q), solvent.limited, sound, stopped⟩

/-- What a performed access leaves: the rest of the call still owns what it owned. -/
def Covers (base : Reservations κ) : Reservations κ × Progress κ → Prop
  | (r, .running task) =>
    Solvent base r (fun q => taskCharge r.observers r.replayQuota q task) ∧ TaskSound task
  | (r, .ended _) => Solvent base r fun _ => 0

theorem Covers.running {task : Task κ} (solvent : Solvent base r extra) (sound : TaskSound task)
    (owned : ∀ q, taskCharge r.observers r.replayQuota q task = extra q) :
    Covers base (r, .running task) :=
  ⟨solvent.congr owned, sound⟩

theorem Solvent.unlock {s : ChargedSession} (sound : s.Sound)
    (solvent : Solvent base r fun q => sessionCharge r.observers r.replayQuota q s) :
    Solvent base (r.unlock s) fun _ => 0 := by
  refine solvent.exchange (fun q => ?_) ?_ solvent.tasks
  · simp only [charged, total_cons]
    omega
  · intro other member
    rcases List.mem_cons.mp member with rfl | old
    · exact sound
    · exact solvent.sessions other old

/-- A locked session leaves the table and its charge goes with it. -/
theorem Solvent.lock {s : ChargedSession} {id : Nat} (solvent : Solvent base r extra)
    (found : r.sessions.find? (·.id = id) = some s) :
    s.Sound ∧ Solvent base { r with sessions := r.sessions.eraseP (·.id = id) }
      (fun q => sessionCharge r.observers r.replayQuota q s + extra q) := by
  refine ⟨solvent.sessions s (List.mem_of_find?_eq_some found), ?_⟩
  refine solvent.exchange (fun q => ?_) (fun other member => ?_) solvent.tasks
  · simp only [charged]
    rw [total_eraseP found]
    omega
  · exact solvent.sessions other (List.mem_of_mem_eraseP member)

theorem abandon_covers {leases : List (Lease κ)}
    (solvent : Solvent base r (fun q => total (Lease.charge q) leases)) : Covers base (r, abandon leases) := by
  have owned : ∀ q, total (amount q) (leases.flatMap Lease.releases) =
      total (Lease.charge q) leases := fun q => total_flatMap_releases q leases
  unfold abandon
  split
  · rename_i none
    exact solvent.congr fun q => by rw [← owned q, none]; rfl
  · exact .running solvent trivial owned

theorem built_covers {owner : Nat} {leases : List (Lease κ)} (wants : List (Want κ))
    (solvent : Solvent base r (fun q => total (Lease.charge q) leases)) :
    Covers base (r.built owner leases wants) := by
  cases wants with
  | cons want wants => exact .running solvent trivial fun q => rfl
  | nil =>
    refine solvent.exchange (fun q => ?_) solvent.sessions solvent.tasks
    have mapped : total (fun lease : Nat × Lease κ => lease.2.charge q)
        (leases.map (owner, ·)) = total (Lease.charge q) leases := by
      simp [total, Function.comp_def]
    simp only [charged, total_append, mapped]
    omega

theorem acquire_covers {owner : Nat} {leases : List (Lease κ)} {want : Want κ}
    {wants : List (Want κ)} {allocation : ReplayBuffer.Allocation}
    (solvent : Solvent base r fun q => total (Lease.charge q) leases) :
    Covers base (r.perform (.acquire owner leases want wants) allocation) := by
  rcases take_cases r want.first want.count with refused | ⟨room, taken⟩
  · simp only [perform, refused]
    exact abandon_covers solvent
  · have held : Solvent base (r.charge want.first want.count) fun q =>
        total (Lease.charge q) ((⟨want.first, none, want.count⟩ : Lease κ) :: leases) :=
      (solvent.charge room).congr fun q => by simp [Lease.charge, Nat.add_comm]
    simp only [perform, taken]
    cases want.second with
    | none => exact built_covers wants held
    | some second => exact .running held rfl fun q => (total_cons _ _).symm

theorem attach_covers {owner : Nat} {leases : List (Lease κ)} {lease : Lease κ} {second : κ}
    {wants : List (Want κ)} {allocation : ReplayBuffer.Allocation} (half : lease.second = none)
    (solvent : Solvent base r fun q => lease.charge q + total (Lease.charge q) leases) :
    Covers base (r.perform (.attach owner leases lease second wants) allocation) := by
  rcases take_cases r second lease.count with refused | ⟨room, taken⟩
  · simp only [perform, refused]
    exact abandon_covers (solvent.congr fun q => total_cons _ _)
  · simp only [perform, taken]
    refine built_covers wants ((solvent.charge room).congr fun q => ?_)
    simp only [total_cons, Lease.charge, half]
    omega

theorem input_covers {owner : Nat} {bytes slots : κ} {count : Nat}
    {allocation : ReplayBuffer.Allocation} (solvent : Solvent base r fun q => amount q (slots, 1)) :
    Covers base (r.perform (.inputBytes owner bytes slots count) allocation) := by
  rcases take_cases r bytes count with refused | ⟨room, taken⟩
  · simp only [perform, refused]
    exact .running solvent trivial fun q => by simp [taskCharge]
  · simp only [perform, taken]
    refine (solvent.charge room).exchange (fun q => ?_) solvent.sessions solvent.tasks
    simp only [charged, charge, total_cons, InputLease.charge]
    omega

/-- Putting back a changed session, with what the change left over. -/
theorem Solvent.restore {s s' : ChargedSession} {id : Nat} {extra' : κ → Nat}
    (solvent : Solvent base r extra) (found : r.sessions.find? (·.id = id) = some s)
    (sound : s.Sound → s'.Sound)
    (owned : ∀ q, sessionCharge r.observers r.replayQuota q s + extra q =
      sessionCharge r.observers r.replayQuota q s' + extra' q) :
    Solvent base { r with sessions := s' :: r.sessions.eraseP (·.id = id) } extra' := by
  obtain ⟨before, open'⟩ := solvent.lock found
  refine open'.exchange (fun q => ?_) (fun other member => ?_) open'.tasks
  · have := owned q
    simp only [charged, total_cons]
    omega
  · rcases List.mem_cons.mp member with rfl | old
    · exact sound before
    · exact open'.sessions other old

theorem insertWatcher_covers {session : Nat} {allocation : ReplayBuffer.Allocation}
    (solvent : Solvent base r fun q => amount q (r.observers, 1)) :
    Covers base (r.perform (.insertWatcher session) allocation) := by
  simp only [perform]
  cases found : r.sessions.find? (·.id = session) with
  | none => exact ⟨solvent, trivial⟩
  | some s =>
    rcases s.insertWatcher_cases with ⟨e, refused⟩ | inserted
    · simp only [refused]
      have same := solvent.restore found id (fun q => rfl)
      exact .running same trivial fun q => by simp [taskCharge]
    · simp only [inserted]
      refine solvent.restore found (fun sound => ?_) fun q => ?_
      · refine ⟨fun entry member => ?_, sound.charged, sound.limit, sound.fits, sound.bounded⟩
        rcases SortedMap.mem_insertEntry member with rfl | old
        · exact Nat.lt_succ_self _
        · exact Nat.lt_succ_of_lt (sound.ids entry old)
      · have fresh : ∀ entry ∈ s.watchers.entries, entry.1 ≠ s.nextWatcher := by
          intro entry member
          exact Nat.ne_of_lt ((solvent.lock found).1.ids entry member)
        have more := amount_succ q r.observers s.watchers.entries.length
        simp only [sessionCharge, SortedMap.length_insert fresh]
        omega

theorem removeWatcher_covers {session id : Nat} {allocation : ReplayBuffer.Allocation}
    (solvent : Solvent base r fun _ => 0) :
    Covers base (r.perform (.removeWatcher session id) allocation) := by
  simp only [perform]
  cases found : r.sessions.find? (·.id = session) with
  | none => exact ⟨solvent, trivial⟩
  | some s =>
    rcases s.takeWatcher_cases id with absent | ⟨present, taken⟩
    · simp only [absent, Bool.false_eq_true, if_false]
      exact solvent.restore found (fun sound => sound) fun q => rfl
    · simp only [taken, if_true]
      refine ⟨solvent.restore found (fun sound => ?_) fun q => ?_, trivial⟩
      · refine ⟨fun entry member => ?_, sound.charged, sound.limit, sound.fits, sound.bounded⟩
        exact sound.ids entry (List.mem_of_mem_filter member)
      · have one := SortedMap.length_erase present
        have fewer := amount_succ q r.observers (s.watchers.erase id).entries.length
        rw [one] at fewer
        simp only [sessionCharge, taskCharge, total_cons, total_nil]
        omega

/-- The end of a callback: what is charged is the storage. -/
theorem Solvent.finish {s : ChargedSession} (sound : s.Sound) (bytes : Bytes)
    (solvent : Solvent base r fun q => sessionCharge r.observers r.replayQuota q s) :
    Solvent base (r.unlock (s.append bytes)) fun _ => 0 := by
  refine Solvent.unlock (ChargedSession.Sound.append sound bytes) (solvent.congr fun q => ?_)
  simp only [sessionCharge, ChargedSession.append_allocated, ChargedSession.append_watchers]

theorem locked_covers {s : ChargedSession} {bytes : Bytes} {staging : Staging} (sound : s.Sound)
    (solvent : Solvent base r fun q => sessionCharge r.observers r.replayQuota q s) :
    Covers base (r.locked s bytes staging) := by
  have accepted : Covers base (if s.replay.allocated < s.replayTarget bytes.length then
      (r, .running (.grow s bytes (s.replayTarget bytes.length)))
      else (r.unlock (s.append bytes), .ended true)) := by
    split
    · rename_i below
      exact .running solvent ⟨sound, below⟩ fun q => rfl
    · exact solvent.finish sound bytes
  unfold locked
  split
  · exact solvent.unlock sound
  · cases staging with
    | unprojected => exact accepted
    | unavailable => exact solvent.unlock sound
    | answered acceptance =>
      cases acceptance with
      | accepted => exact accepted
      | backpressure | closed => exact solvent.unlock sound

/-- After the first charge the session owes `target` and has some storage for it. -/
theorem reserved_covers {s : ChargedSession} {bytes : Bytes} {target : Nat}
    {allocation : ReplayBuffer.Allocation} (settles : s.Settles target)
    (below : s.replay.allocated < target)
    (solvent : Solvent base r fun q =>
      amount q (r.replayQuota, target) + amount q (r.observers, s.watchers.entries.length)) :
    Covers base (r.reserved s bytes target allocation) := by
  unfold reserved
  rcases s.replay.reserveCapacity_cases target allocation with ⟨e, refused⟩ | ⟨actual, above, got⟩
  · simp only [refused]
    refine .running solvent ?_ fun q => ?_
    · have whole : s.replay.allocated + (target - s.replay.allocated) = target := by omega
      exact ⟨settles.ids, whole.symm ▸ settles.charged, settles.limit, settles.fits,
        settles.bounded⟩
    · have := amount_split q r.replayQuota (Nat.le_of_lt below)
      simp only [taskCharge, sessionCharge]
      omega
  · have fits := Nat.le_trans settles.fits above
    simp only [got]
    split_ifs with all more
    · subst all
      have sound : ({ s with replay := { s.replay with allocated := actual } }).Sound :=
        ⟨settles.ids, settles.charged, settles.limit, fits, settles.bounded⟩
      exact Solvent.finish sound bytes solvent
    · exact .running solvent
        ⟨⟨settles.ids, settles.charged, settles.limit, fits, settles.bounded⟩, rfl, more⟩ fun q => rfl
    · have within : actual ≤ target := by omega
      refine .running solvent ?_ fun q => ?_
      · have whole : actual + (target - actual) = target := by omega
        exact ⟨settles.ids, whole.symm ▸ settles.charged, settles.limit, fits, settles.bounded⟩
      · have := amount_split q r.replayQuota within
        simp only [taskCharge, sessionCharge]
        omega

theorem grow_covers {s : ChargedSession} {bytes : Bytes} {target : Nat}
    {allocation : ReplayBuffer.Allocation} (sound : s.Sound) (below : s.replay.allocated < target)
    (solvent : Solvent base r fun q => sessionCharge r.observers r.replayQuota q s) :
    Covers base (r.perform (.grow s bytes target) allocation) := by
  rcases take_cases r r.replayQuota (target - s.replay.allocated) with refused | ⟨room, taken⟩
  · simp only [perform, refused]
    exact solvent.finish sound bytes
  · simp only [perform, taken]
    refine reserved_covers ⟨sound.ids, ?_, sound.limit, sound.fits, sound.bounded⟩ below
      ((solvent.charge room).congr fun q => ?_)
    · have := sound.charged
      simp only
      omega
    · have := amount_split q r.replayQuota (Nat.le_of_lt below)
      simp only [charge, sessionCharge]
      omega

theorem excess_covers {s : ChargedSession} {bytes : Bytes} {target actual : Nat}
    {allocation : ReplayBuffer.Allocation} (settles : s.Settles target)
    (allocated : s.replay.allocated = actual) (more : target < actual)
    (solvent : Solvent base r fun q =>
      amount q (r.replayQuota, target) + amount q (r.observers, s.watchers.entries.length)) :
    Covers base (r.perform (.excess s bytes target actual) allocation) := by
  rcases take_cases r r.replayQuota (actual - target) with refused | ⟨room, taken⟩
  · simp only [perform, refused]
    refine .running solvent ?_ fun q => ?_
    · refine ⟨settles.ids, ?_, settles.limit, Nat.zero_le _, Nat.zero_le _⟩
      simpa [ReplayBuffer.releaseStorage] using settles.charged
    · simp only [taskCharge, sessionCharge, ReplayBuffer.releaseStorage, amount_zero]
      omega
  · simp only [perform, taken]
    subst allocated
    have sound : ({ s with acquired := s.acquired + (s.replay.allocated - target) }).Sound := by
      refine ⟨settles.ids, ?_, settles.limit, settles.fits, settles.bounded⟩
      have := settles.charged
      simp only
      omega
    refine Solvent.finish sound bytes ((solvent.charge room).congr fun q => ?_)
    · have := amount_split q r.replayQuota (Nat.le_of_lt more)
      simp only [charge, sessionCharge]
      omega

theorem shrink_covers {s : ChargedSession} {bytes : Bytes} {released : Nat}
    {allocation : ReplayBuffer.Allocation} (settles : s.Settles (s.replay.allocated + released))
    (solvent : Solvent base r fun q =>
      sessionCharge r.observers r.replayQuota q s + amount q (r.replayQuota, released)) :
    Covers base (r.perform (.shrink s bytes released) allocation) := by
  have sound : ({ s with released := s.released + released }).Sound := by
    refine ⟨settles.ids, ?_, settles.limit, settles.fits, settles.bounded⟩
    have := settles.charged
    simp only
    omega
  exact Solvent.finish sound bytes solvent.put

theorem giveBack_covers {pending : List (κ × Nat)} {refused : Bool}
    {allocation : ReplayBuffer.Allocation} (solvent : Solvent base r fun q => total (amount q) pending) :
    Covers base (r.perform (.giveBack pending refused) allocation) := by
  cases pending with
  | nil => exact solvent
  | cons entry pending =>
    have returned : Solvent base (r.put entry.1 entry.2) fun q => total (amount q) pending :=
      Solvent.put (solvent.congr fun q => by rw [total_cons, Nat.add_comm])
    simp only [perform]
    split
    · rename_i last
      exact returned.congr fun q => by rw [last]; rfl
    · exact .running returned trivial fun q => rfl

/-- One access of any call keeps every counter at what is live. -/
theorem perform_covers {task : Task κ} (allocation : ReplayBuffer.Allocation)
    (solvent : Solvent base r fun q => taskCharge r.observers r.replayQuota q task)
    (sound : TaskSound task) : Covers base (r.perform task allocation) := by
  cases task with
  | acquire owner leases want wants => exact acquire_covers solvent
  | attach owner leases lease second wants => exact attach_covers sound solvent
  | inputSlots owner bytes slots count =>
    rcases take_cases r slots 1 with refused | ⟨room, taken⟩
    · simp only [perform, refused]
      exact solvent
    · simp only [perform, taken]
      exact .running (solvent.charge room) trivial fun q => by simp [taskCharge]
  | inputBytes owner bytes slots count => exact input_covers solvent
  | registerWatcher session =>
    rcases take_cases r r.observers 1 with refused | ⟨room, taken⟩
    · simp only [perform, refused]
      exact solvent
    · simp only [perform, taken]
      exact .running (solvent.charge room) trivial fun q => by simp [taskCharge, charge]
  | insertWatcher session => exact insertWatcher_covers solvent
  | removeWatcher session id => exact removeWatcher_covers solvent
  | output session bytes staging =>
    simp only [perform]
    cases found : r.sessions.find? (·.id = session) with
    | none => exact ⟨solvent, trivial⟩
    | some s =>
      obtain ⟨sound, locked⟩ := solvent.lock found
      exact locked_covers sound (locked.congr fun q => rfl)
  | grow s bytes target => exact grow_covers sound.1 sound.2 solvent
  | excess s bytes target actual => exact excess_covers sound.1 sound.2.1 sound.2.2 solvent
  | shrink s bytes released => exact shrink_covers sound solvent
  | giveBack pending refused => exact giveBack_covers solvent

theorem Solvent.spawn {task : Task κ} (sound : TaskSound task)
    (solvent : Solvent base r fun q => taskCharge r.observers r.replayQuota q task) :
    Solvent base (r.spawn task) fun _ => 0 := by
  refine solvent.exchange (fun q => ?_) solvent.sessions fun other member => ?_
  · simp only [charged, total_append, total_cons, total_nil]
    omega
  · rcases List.mem_append.mp member with old | new
    · exact solvent.tasks other old
    · exact List.mem_singleton.mp new ▸ sound

theorem settle_solvent {after : Reservations κ × Progress κ} (covers : Covers base after) :
    Solvent base (settle after) fun _ => 0 := by
  obtain ⟨r, progress⟩ := after
  cases progress with
  | running task => exact covers.1.spawn covers.2
  | ended granted => exact covers

theorem Call.task_free (call : Call κ) (observers replayQuota q : κ) :
    TaskSound call.task ∧ taskCharge observers replayQuota q call.task = 0 := by
  cases call <;> exact ⟨trivial, rfl⟩

theorem step_solvent (solvent : Solvent base r fun _ => 0) (event : Event κ) :
    Solvent base (r.step event) fun _ => 0 := by
  cases event with
  | openSession lifetime replayBytes maxObservers =>
    refine solvent.exchange (fun q => ?_) (fun s member => ?_) solvent.tasks
    · simp [charged, sessionCharge, ChargedSession.new, ReplayBuffer.new, SortedMap.empty,
        amount_zero]
    · rcases List.mem_cons.mp member with rfl | old
      · exact ChargedSession.new_sound _ _ _ _
      · exact solvent.sessions s old
  | begin call =>
    exact Solvent.spawn (call.task_free r.observers r.replayQuota r.observers).1
      (solvent.congr fun q => (call.task_free _ _ q).2)
  | advance index allocation =>
    simp only [step]
    cases found : r.tasks[index]? with
    | none => exact solvent
    | some task =>
      refine settle_solvent (perform_covers allocation ?_
        (solvent.tasks task (List.mem_of_getElem? found)))
      refine solvent.exchange (fun q => ?_) solvent.sessions fun other member => ?_
      · simp only [charged]
        rw [total_eraseIdx found]
        omega
      · exact solvent.tasks other (List.mem_of_mem_eraseIdx member)
  | moveLease index owner =>
    simp only [step]
    split
    · exact solvent
    · rename_i found
      refine solvent.exchange (fun q => ?_) solvent.sessions solvent.tasks
      simp only [charged, total_cons]
      rw [total_eraseIdx found]
  | dropLease index =>
    simp only [step]
    split
    · exact solvent
    · rename_i lease found
      refine Solvent.spawn trivial (solvent.exchange (fun q => ?_) solvent.sessions solvent.tasks)
      simp only [charged, taskCharge, Lease.total_releases]
      rw [total_eraseIdx found]
      simp only
      omega
  | dropInput index =>
    simp only [step]
    split
    · exact solvent
    · rename_i lease found
      refine Solvent.spawn trivial (solvent.exchange (fun q => ?_) solvent.sessions solvent.tasks)
      simp only [charged, taskCharge, InputLease.total_releases]
      rw [total_eraseIdx found]
      simp only
      omega
  | poison session =>
    simp only [step]
    split
    · exact solvent
    · rename_i s found
      refine solvent.restore found (fun sound => ?_) fun q => rfl
      exact ⟨sound.ids, sound.charged, sound.limit, sound.fits, sound.bounded⟩
  | dropSession session =>
    simp only [step]
    split
    · exact solvent
    · rename_i s found
      split
      · exact solvent
      · refine Solvent.spawn trivial ((solvent.lock found).2.congr fun q => ?_)
        simp [taskCharge, dropReleases, sessionCharge]

theorem run_solvent (solvent : Solvent base r fun _ => 0) (events : List (Event κ)) :
    Solvent base (r.run events) fun _ => 0 := by
  induction events generalizing r with
  | nil => exact solvent
  | cons event rest ih => exact ih (step_solvent solvent event)

theorem new_solvent (limits : κ → Nat) (observers replayQuota : κ) :
    Solvent (new limits observers replayQuota) (new limits observers replayQuota) fun _ => 0 where
  fixed := ⟨rfl, rfl, fun _ => rfl⟩
  balance _ := rfl
  limited _ := Nat.zero_le _
  sessions := by simp [new]
  tasks := by simp [new]

end Reservations

end PtyRuntime
