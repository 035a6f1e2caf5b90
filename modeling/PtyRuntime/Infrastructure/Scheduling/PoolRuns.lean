import PtyRuntime.Infrastructure.Scheduling.PoolLaws

/-! What holds of every run of the pool, in any interleaving. -/
namespace PtyRuntime.StdWorkScheduler

variable {s : StdWorkScheduler}

/-- The step starts a run of the registration. -/
def Starts (s : StdWorkScheduler) (event : Event) (id : Nat) : Prop :=
  ∃ run, (s.step event).1 = .taken (.work run) ∧ run.id = id

/-- The step removes the registration for one of the reasons an entry may leave. -/
def Removes (s : StdWorkScheduler) (event : Event) (id : Nat) : Prop :=
  ∃ index entry, s.slot index = some entry ∧ entry.id = id ∧ Removal s event index entry ∧
    ∀ i other, (s.step event).2.slot i = some other → other.id ≠ id

def Pending (s : StdWorkScheduler) (id : Nat) : Prop :=
  ∃ index entry, s.slot index = some entry ∧ entry.id = id ∧ entry.pending = true

def Answer.handle : Answer → Option Handle
  | .registered (.ok handle) => some handle
  | _ => none

/-- The handles that the registrations of a run answered. -/
def issued (s : StdWorkScheduler) : List Event → List Handle
  | [] => []
  | event :: rest => (s.step event).1.handle.toList ++ (s.step event).2.issued rest

theorem Valid.run (valid : Valid s) (events : List Event) : Valid (s.run events) := by
  induction events generalizing s with
  | nil => exact valid
  | cons event rest ih => exact ih (valid.step event)

theorem step_closed (closed : s.closed = true) (event : Event) : (s.step event).2.closed = true := by
  cases event with
  | register work outside => simp [step, register, closed]
  | wake handle => simp [step, wake, closed]
  | close handle =>
    simp only [step, close]
    repeat' split
    all_goals exact closed
  | shutdown => rfl
  | take worker now outside =>
    simp only [step, take, closed, if_true]
    split <;> exact closed
  | ran worker outcome =>
    simp only [step]
    split <;> exact closed
  | complete worker deadline =>
    simp only [step, complete]
    repeat' split
    all_goals exact closed

theorem run_closed (closed : s.closed = true) (events : List Event) : (s.run events).closed = true := by
  induction events generalizing s with
  | nil => exact closed
  | cons event rest ih => exact ih (step_closed closed event)

theorem closed_starts_nothing (closed : s.closed = true) (event : Event) (run : Run) :
    (s.step event).1 ≠ .taken (.work run) := by
  cases event with
  | take worker now outside =>
    simp only [step, take, closed, if_true]
    split <;> simp
  | register | wake | close | shutdown => simp [step]
  | ran worker outcome =>
    simp only [step]
    split <;> simp
  | complete worker deadline =>
    simp only [step]
    split <;> simp

/-- An entry that left its slot is nowhere afterwards. -/
theorem Valid.removed (valid : Valid s) {event : Event} {index : Nat} {entry : Entry}
    (found : s.slot index = some entry) (why : Removal s event index entry)
    (gone : ∀ other, (s.step event).2.slot index = some other → other.id ≠ entry.id) :
    Removes s event entry.id := by
  refine ⟨index, entry, found, rfl, why, fun i other after same => ?_⟩
  rcases entry_origin after with ⟨old, held, id, -⟩ | ⟨-, fresh, -⟩
  · obtain rfl := valid.unique held found (id.trans same)
    exact gone other after same
  · have bound := valid.below found
    omega

/-- Of a pending registration a step leaves the wake alone, starts its run or removes it. -/
theorem Valid.pending_step (valid : Valid s) {id : Nat} (pending : Pending s id) (event : Event) :
    Pending (s.step event).2 id ∨ Starts s event id ∨ Removes s event id := by
  obtain ⟨index, entry, found, rfl, waiting⟩ := pending
  have change := s.step_slot event index
  rw [found] at change
  generalize after : (s.step event).2.slot index = slot at change
  cases change with
  | same => exact .inl ⟨index, _, after, rfl, waiting⟩
  | registered _ fresh _ free =>
    refine .inr (.inr (valid.removed found (free entry rfl) fun other held => ?_))
    obtain rfl := Option.some.inj (after.symm.trans held)
    have bound := valid.below found
    omega
  | woken _ => exact .inl ⟨index, _, after, rfl, rfl⟩
  | marked _ _ => exact .inl ⟨index, _, after, rfl, waiting⟩
  | removed why => exact .inr (.inr (valid.removed found why fun _ held => nomatch after.symm.trans held))
  | started answer _ _ => exact .inr (.inl ⟨_, answer, rfl⟩)
  | stopped _ _ _ => exact .inl ⟨index, _, after, rfl, waiting⟩

theorem Valid.pending_run (valid : Valid s) {id : Nat} (pending : Pending s id) (later : List Event) :
    Pending (s.run later) id ∨ ∃ before event after, later = before ++ event :: after ∧
      (Starts (s.run before) event id ∨ Removes (s.run before) event id) := by
  induction later generalizing s with
  | nil => exact .inl pending
  | cons event rest ih =>
    rcases valid.pending_step pending event with kept | ended
    · rcases ih (valid.step event) kept with kept | ⟨before, next, after, split, ended⟩
      · exact .inl kept
      · exact .inr ⟨event :: before, next, after, by rw [split]; rfl, ended⟩
    · exact .inr ⟨[], event, rest, rfl, ended⟩

theorem wake_pending {handle : Handle} (accepted : (s.wake handle).1 = .ok ()) :
    Pending (s.wake handle).2 handle.id := by
  unfold wake at accepted ⊢
  split at accepted
  · cases accepted
  · split at accepted
    · cases accepted
    · rename_i opened _ entry found
      obtain ⟨held, own⟩ := Option.filter_eq_some_iff.mp found
      have own : entry.id = handle.id ∧ entry.closed = false := by simpa using own
      have placed : (s.setSlot handle.index (some { entry with pending := true })).slot handle.index =
          some { entry with pending := true } := by
        rw [slot_setSlot, if_pos ⟨rfl, slot_lt held⟩]
      simp only [if_neg opened]
      exact ⟨handle.index, _, placed, own.1, rfl⟩

/-- A step through a handle leaves the entries of other registrations alone. -/
theorem handle_own {handle : Handle} {index : Nat} {entry : Entry} (found : s.slot index = some entry)
    (other : entry.id ≠ handle.id) :
    (s.wake handle).2.slot index = some entry ∧ (s.close handle).slot index = some entry := by
  constructor
  · have change := s.wake_slot handle index
    rw [found] at change
    generalize (s.wake handle).2.slot index = after at change ⊢
    cases change with
    | same => rfl
    | woken called => exact absurd (congrArg Handle.id (Event.wake.inj called)).symm other
    | registered answer | started answer => cases answer
    | marked called => cases called <;> contradiction
    | removed why => cases why <;> contradiction
    | stopped called => cases called
  · have change := s.close_slot handle index
    rw [found] at change
    generalize (s.close handle).slot index = after at change ⊢
    cases change with
    | same => rfl
    | woken called => cases called
    | registered answer | started answer => cases answer
    | marked called =>
      rcases called with called | called
      · cases called
      · exact absurd (congrArg Handle.id (Event.close.inj called)).symm other
    | removed why =>
      cases why with
      | closed called own _ =>
        cases called
        exact absurd own.symm other
      | shutdown called | finished called => cases called
      | dropped looked => cases looked
    | stopped called => cases called

theorem complete_own {worker : Nat} {run : Run} {schedule : WorkSchedule} {entry : Entry}
    (phase : s.workers[worker]? = some (.finishing run schedule)) (found : s.slot run.index = some entry)
    (deadline : Option Nat) :
    (s.step (.complete worker deadline)).2.slot run.index =
        (if entry.closed || schedule = .finished then none
          else some { entry with running := false, due := nextDue deadline schedule }) ∧
      ∀ index, index ≠ run.index → (s.step (.complete worker deadline)).2.slot index = s.slot index := by
  simp only [step, phase, slot_setWorker, complete, found]
  split
  · refine ⟨by rw [slot_setSlot, if_pos ⟨rfl, slot_lt found⟩], fun index other => ?_⟩
    rw [slot_setSlot, if_neg fun here => other here.1.symm]
  · refine ⟨by rw [slot_setSlot, if_pos ⟨rfl, slot_lt found⟩], fun index other => ?_⟩
    rw [slot_setSlot, if_neg fun here => other here.1.symm]

/-- A step issues no handle, or one with the next identity. -/
theorem step_issues (s : StdWorkScheduler) (event : Event) :
    ((s.step event).1.handle = none ∧ (s.step event).2.next = s.next) ∨
      ∃ handle, (s.step event).1.handle = some handle ∧ handle.id = s.next + 1 ∧
        (s.step event).2.next = s.next + 1 := by
  rcases s.step_next event with ⟨next, none⟩ | ⟨handle, answer, id, next⟩
  · refine .inl ⟨?_, next⟩
    generalize (s.step event).1 = answer at none
    unfold Answer.handle
    split
    · exact absurd rfl (none _)
    · rfl
  · exact .inr ⟨handle, by rw [answer]; rfl, id, next⟩

theorem issued_ascend (events : List Event) :
    (∀ handle ∈ s.issued events, s.next < handle.id) ∧ ((s.issued events).map (·.id)).Nodup := by
  induction events generalizing s with
  | nil => exact ⟨(fun _ member => nomatch member), List.nodup_nil⟩
  | cons event rest ih =>
    obtain ⟨above, nodup⟩ := ih (s := (s.step event).2)
    unfold issued
    rcases s.step_issues event with ⟨none, next⟩ | ⟨handle, some, id, next⟩
    · rw [none]
      rw [next] at above
      exact ⟨above, nodup⟩
    · rw [some]
      rw [next] at above
      constructor
      · intro other member
        rcases List.mem_cons.mp member with rfl | later
        · omega
        · have bound := above other later
          omega
      · refine List.nodup_cons.mpr ⟨fun member => ?_, nodup⟩
        obtain ⟨other, later, same⟩ := List.mem_map.mp member
        have bound := above other later
        dsimp only at same
        omega

/-- What holds of the pool in a reachable state and of everything that follows it. -/
structure Safe (s : StdWorkScheduler) : Prop where
  /-- At most one run of a registration is in progress. -/
  exclusive : ∀ worker other run run', s.hand worker = some run → s.hand other = some run' →
    run.id = run'.id → worker = other
  /-- The slot a run was taken from still holds its entry. -/
  untouched : ∀ worker run, s.hand worker = some run → ∃ entry, s.slot run.index = some entry ∧
    entry.id = run.id ∧ entry.work = run.work ∧ entry.running = true
  /-- Completion updates exactly the registration that ran. -/
  completes : ∀ worker run schedule deadline, s.workers[worker]? = some (.finishing run schedule) →
    ∃ entry, s.slot run.index = some entry ∧ entry.id = run.id ∧
      (s.step (.complete worker deadline)).2.slot run.index =
        (if entry.closed || schedule = .finished then none
          else some { entry with running := false, due := nextDue deadline schedule }) ∧
      ∀ index, index ≠ run.index → (s.step (.complete worker deadline)).2.slot index = s.slot index
  /-- A handle affects its own registration only. -/
  own : ∀ handle index entry, s.slot index = some entry → entry.id ≠ handle.id →
    (s.wake handle).2.slot index = some entry ∧ (s.close handle).slot index = some entry
  /-- Only its handle or shutdown closes a registration. -/
  marked : ∀ event index entry after, s.slot index = some entry → entry.closed = false →
    (s.step event).2.slot index = some after → after.id = entry.id → after.closed = true →
    event = .shutdown ∨ event = .close ⟨index, entry.id⟩
  /-- An accepted wake stays pending until a run starts or the registration is removed. -/
  kept : ∀ handle later, (s.wake handle).1 = .ok () →
    Pending ((s.wake handle).2.run later) handle.id ∨ ∃ before event after, later = before ++ event :: after ∧
      (Starts ((s.wake handle).2.run before) event handle.id ∨
        Removes ((s.wake handle).2.run before) event handle.id)
  /-- A closed pool stays closed and starts no run. -/
  stopped : s.closed = true → ∀ later event run, (s.run later).closed = true ∧
    ((s.run later).step event).1 ≠ .taken (.work run)

theorem Valid.safe (valid : Valid s) : Safe s where
  exclusive worker other run run' first second same := by
    obtain ⟨entry, found, id, -⟩ := valid.held first
    obtain ⟨entry', found', id', -⟩ := valid.held second
    exact valid.exclusive first second (valid.unique found found' (by rw [id, id', same]))
  untouched worker run holds := valid.held holds
  completes worker run schedule deadline phase := by
    have holds : s.hand worker = some run := by rw [hand, phase]; rfl
    obtain ⟨entry, found, id, -, -⟩ := valid.held holds
    exact ⟨entry, found, id, complete_own phase found deadline⟩
  own handle index entry found other := handle_own found other
  marked event index entry after found opened held same closed := by
    have change := s.step_slot event index
    rw [found, held] at change
    cases change with
    | same => cases opened.symm.trans closed
    | registered _ fresh _ _ =>
      have bound := valid.below found
      omega
    | woken _ | started _ _ _ | stopped _ _ _ => cases opened.symm.trans closed
    | marked called _ => exact called
  kept handle later accepted := (valid.step (.wake handle)).pending_run (wake_pending accepted) later
  stopped closed later event run :=
    ⟨run_closed closed later, closed_starts_nothing (run_closed closed later) event run⟩

/-- Every interleaving of registrations, wakes, closures, shutdowns and workers is safe, and
no two registrations share their identity. -/
theorem scheduler_safe (maxSessions workers : Nat) (events : List Event) :
    Safe ((withWorkers maxSessions workers).run events) ∧
      (((withWorkers maxSessions workers).issued events).map (·.id)).Nodup := by
  exact ⟨((withWorkers_valid maxSessions workers).run events).safe, (issued_ascend events).2⟩

end PtyRuntime.StdWorkScheduler
