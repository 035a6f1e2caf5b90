import PtyRuntime.Chronicle
import PtyRuntime.Infrastructure.Process.Lifecycle

/-! What the supervisor owes a process at every point of a run: which orders, reports and
stops are allowed after what was done before, and that its own fields say what was done. -/
namespace PtyRuntime.OwnedProcess
open Guardian (Kind)
open Chronicle

def Act.begins : Act → Bool
  | .began .. => true
  | _ => false

/-- The last pass over the process began so. -/
def Passing (before : List Act) (now : Nat) (shutting immediate failed : Bool) : Prop :=
  ∃ earlier later, before = earlier ++ .began now shutting immediate failed :: later ∧
    ∀ act ∈ later, act.begins = false

def Ordered (before : List Act) (kind : Kind) : Prop := ∃ now, .ordered now kind ∈ before

/-- Neither an exit was collected nor the supervision lost. -/
def Alive (before : List Act) : Prop := (∀ now status, .recorded now status ∉ before) ∧ .lost ∉ before

/-- What each act requires of what was done before it. -/
def Allowed (limits : ProcessLimits) (before : List Act) : Act → Prop
  | .began .. => .released ∉ before
  | .ordered now .terminate =>
    Alive before ∧ ¬Ordered before .terminate ∧ ¬Ordered before .kill ∧ ¬Ordered before .abort ∧
      ∃ shutting immediate failed, Passing before now shutting immediate failed ∧
        (shutting = true ∨ .cancelled ∈ before)
  | .ordered now .kill =>
    Alive before ∧ ¬Ordered before .kill ∧ ¬Ordered before .abort ∧
      ∃ start, .ordered start .terminate ∈ before ∧ limits.terminateGrace ≤ now - start
  | .ordered now .release =>
    ¬Alive before ∨ ∃ immediate failed, Passing before now true immediate failed
  | .ordered now .abort =>
    .released ∈ before ∨ .lost ∈ before ∨ ∃ shutting immediate failed,
      Passing before now shutting immediate failed ∧ (immediate = true ∨ failed = true)
  | .ordered _ _ => False
  | .recorded _ _ => ∀ now status, .recorded now status ∉ before
  | .lost => .lost ∉ before
  | .stopped =>
    .released ∈ before ∨ .lost ∈ before ∨ ∃ now shutting immediate failed,
      Passing before now shutting immediate failed ∧
        (shutting = true ∨ ∃ start status, .recorded start status ∈ before ∧ limits.drainTimeout ≤ now - start)
  | .reported (.exited status) =>
    (∃ now, .recorded now status ∈ before) ∧ ∀ other, .reported (.exited other) ∉ before
  | .reported (.supervisionFailed error) =>
    error = .internal ∧ .lost ∈ before ∧ .stopped ∈ before ∧ ∀ other, .reported (.supervisionFailed other) ∉ before
  | .cancelled => True
  | .released => .released ∉ before

/-- The pass that is under way. -/
def Phase.pass : Phase → Option (Nat × Bool)
  | .cancelling now shutting | .resizing now shutting _ | .stopping now shutting | .releasing now shutting =>
    some (now, shutting)
  | _ => none

/-- The exit that is about to be reported. -/
def Phase.exit : Phase → Option ExitStatus
  | .noting status _ | .closing (.exit status _) | .finishing (.exit status _) | .exiting status _ => some status
  | _ => none

/-- A failure is about to be reported. -/
def Phase.loses : Phase → Bool
  | .closing (.loss _) | .finishing (.loss _) | .halting _ | .failing _ => true
  | _ => false

def Phase.drops : Phase → Bool
  | .dropping | .closing .drop | .finishing .drop | .joining | .cleaning | .dropped => true
  | _ => false

/-- The teardown of the inputs that is under way. -/
def Phase.finishes : Phase → List ProcessError
  | .finishing next => [next.reason]
  | _ => []

/-- The inputs were just finished. -/
def Phase.cleared : Phase → Bool
  | .exiting _ _ | .halting _ | .failing _ | .joining | .cleaning | .dropped => true
  | _ => false

/-- The reader knows of the exit that is about to be reported. -/
def Phase.noted : Phase → Bool
  | .closing (.exit _ _) | .finishing (.exit _ _) | .exiting _ _ => true
  | _ => false

@[simp] theorem After.phase_pass (after : After) : after.phase.pass = none := by
  rcases after with _ | ⟨_ | _⟩ <;> rfl

@[simp] theorem After.phase_exit (after : After) : after.phase.exit = none := by
  rcases after with _ | ⟨_ | _⟩ <;> rfl

@[simp] theorem After.phase_loses (after : After) : after.phase.loses = false := by
  rcases after with _ | ⟨_ | _⟩ <;> rfl

@[simp] theorem After.phase_drops (after : After) : after.phase.drops = false := by
  rcases after with _ | ⟨_ | _⟩ <;> rfl

@[simp] theorem After.phase_finishes (after : After) : after.phase.finishes = [] := by
  rcases after with _ | ⟨_ | _⟩ <;> rfl

@[simp] theorem After.phase_cleared (after : After) : after.phase.cleared = false := by
  rcases after with _ | ⟨_ | _⟩ <;> rfl

@[simp] theorem After.phase_noted (after : After) : after.phase.noted = false := by
  rcases after with _ | ⟨_ | _⟩ <;> rfl

variable {s s' : OwnedProcess}

/-- The supervisor's fields say what was done, and what was done was allowed. -/
structure Faithful (s : OwnedProcess) : Prop where
  lawful : Lawful (Allowed s.limits) s.trace
  exit : ∀ now, s.exitAt = some now ↔ ∃ status, .recorded now status ∈ s.trace
  lost : s.supervisionLost = true ↔ .lost ∈ s.trace
  terminated : ∀ now, s.cancelAt = some now ↔ .ordered now .terminate ∈ s.trace
  struck : Ordered s.trace .kill ∨ Ordered s.trace .abort → s.killed = true ∨ s.phase.drops = true
  stopped : s.reader.stopReader = true ↔ .stopped ∈ s.trace
  cancelled : s.cancel = true → .cancelled ∈ s.trace
  released : .released ∈ s.trace ↔ s.phase.drops = true
  passing : ∀ now shutting, s.phase.pass = some (now, shutting) →
    ∃ immediate failed, Passing s.trace now shutting immediate failed

/-- What was collected is reported once, by the time the supervisor goes on. -/
structure Telling (s : OwnedProcess) : Prop where
  exited : s.exitAt.isSome = true → (∃ status, .reported (.exited status) ∈ s.trace) ∨ s.phase.exit.isSome = true
  exiting : ∀ status, s.phase.exit = some status →
    (∃ now, .recorded now status ∈ s.trace) ∧ ∀ other, .reported (.exited other) ∉ s.trace
  failed : s.supervisionLost = true → .reported (.supervisionFailed .internal) ∈ s.trace ∨ s.phase.loses = true
  failing : s.phase.loses = true → .lost ∈ s.trace ∧ ∀ error, .reported (.supervisionFailed error) ∉ s.trace
  halted : ∀ after, s.phase = .failing after → .stopped ∈ s.trace

section Records
variable {before : List Act} {act : Act} {now : Nat} {shutting immediate failed : Bool}

theorem Passing.begin : Passing (before ++ [.began now shutting immediate failed]) now shutting immediate failed :=
  ⟨before, [], rfl, fun _ none => nomatch none⟩

theorem Passing.snoc (passing : Passing before now shutting immediate failed) (other : act.begins = false) :
    Passing (before ++ [act]) now shutting immediate failed := by
  obtain ⟨earlier, later, rfl, none⟩ := passing
  refine ⟨earlier, later ++ [act], by rw [List.append_assoc, List.cons_append], ?_⟩
  intro entry member
  rcases List.mem_append.mp member with old | new
  · exact none entry old
  · exact List.mem_singleton.mp new ▸ other

end Records

/-- An order that ends the escalation. -/
def Act.strikes : Act → Bool
  | .ordered _ .kill | .ordered _ .abort => true
  | _ => false

/-- The state after an act, its fields brought up to date. -/
structure Did (s s' : OwnedProcess) (act : Act) : Prop where
  limits : s'.limits = s.limits
  trace : s'.trace = s.trace ++ [act]
  exit : ∀ now, s'.exitAt = some now ↔ s.exitAt = some now ∨ ∃ status, act = .recorded now status
  lost : s'.supervisionLost = true ↔ s.supervisionLost = true ∨ act = .lost
  terminated : ∀ now, s'.cancelAt = some now ↔ s.cancelAt = some now ∨ act = .ordered now .terminate
  stopped : s'.reader.stopReader = true ↔ s.reader.stopReader = true ∨ act = .stopped
  cancelled : s'.cancel = true → s.cancel = true ∨ act = .cancelled
  struck : s.killed = true ∨ act.strikes = true → s'.killed = true ∨ s'.phase.drops = true
  released : s'.phase.drops = true ↔ s.phase.drops = true ∨ act = .released
  passing : ∀ now shutting, s'.phase.pass = some (now, shutting) →
    (∃ immediate failed, act = .began now shutting immediate failed) ∨
      act.begins = false ∧ s.phase.pass = some (now, shutting)

theorem Faithful.did {act : Act} (faithful : s.Faithful) (did : Did s s' act) (allowed : Allowed s.limits s.trace act) :
    s'.Faithful where
  lawful := by
    rw [did.limits, did.trace]
    exact faithful.lawful.snoc allowed
  exit now := by
    rw [did.exit, faithful.exit, did.trace]
    simp only [List.mem_append, List.mem_singleton, exists_or, eq_comm]
  lost := by
    rw [did.lost, faithful.lost, did.trace, List.mem_append, List.mem_singleton, eq_comm]
  terminated now := by
    rw [did.terminated, faithful.terminated, did.trace, List.mem_append, List.mem_singleton, eq_comm]
  struck ordered := by
    have old : (s.killed = true ∨ s.phase.drops = true) ∨ act.strikes = true := by
      rw [did.trace] at ordered
      rcases ordered with ⟨now, member⟩ | ⟨now, member⟩
      all_goals
        rcases List.mem_append.mp member with earlier | last
      · exact .inl (faithful.struck (.inl ⟨now, earlier⟩))
      · exact .inr (List.mem_singleton.mp last ▸ rfl)
      · exact .inl (faithful.struck (.inr ⟨now, earlier⟩))
      · exact .inr (List.mem_singleton.mp last ▸ rfl)
    rcases old with (killed | drops) | strikes
    · exact did.struck (.inl killed)
    · exact .inr (did.released.mpr (.inl drops))
    · exact did.struck (.inr strikes)
  stopped := by
    rw [did.stopped, faithful.stopped, did.trace, List.mem_append, List.mem_singleton, eq_comm]
  cancelled cancel := by
    rw [did.trace, List.mem_append, List.mem_singleton]
    rcases did.cancelled cancel with old | new
    · exact .inl (faithful.cancelled old)
    · exact .inr new.symm
  released := by
    rw [did.released, ← faithful.released, did.trace, List.mem_append, List.mem_singleton, eq_comm]
  passing now shutting pass := by
    rw [did.trace]
    rcases did.passing now shutting pass with ⟨immediate, failed, rfl⟩ | ⟨other, under⟩
    · exact ⟨immediate, failed, .begin⟩
    · obtain ⟨immediate, failed, passing⟩ := faithful.passing now shutting under
      exact ⟨immediate, failed, passing.snoc other⟩

theorem Faithful.goto {phase : Phase} (faithful : s.Faithful) (drops : phase.drops = s.phase.drops)
    (pass : ∀ under, phase.pass = some under → s.phase.pass = some under) : (s.goto phase).Faithful := by
  constructor
  · exact faithful.lawful
  · exact faithful.exit
  · exact faithful.lost
  · exact faithful.terminated
  · intro ordered
    exact (faithful.struck ordered).imp_right fun dropping => drops.trans dropping
  · exact faithful.stopped
  · exact faithful.cancelled
  · exact faithful.released.trans (by rw [← drops]; rfl)
  · intro now shutting under
    exact faithful.passing now shutting (pass _ under)

/-- An act no field but the guardian's and `killed` speaks of. -/
def Act.plain : Act → Bool
  | .ordered _ kind => kind ≠ .terminate
  | .reported _ => true
  | _ => false

theorem did_plain (s : OwnedProcess) (act : Act) (plain : act.plain = true) (guardian : Guardian.Owner) (killed : Bool)
    (struck : s.killed = true ∨ act.strikes = true → killed = true ∨ s.phase.drops = true) :
    Did s { s.log act with guardian, killed } act := by
  constructor
  · rfl
  · rfl
  · intro now
    refine (or_iff_left ?_).symm
    rintro ⟨status, rfl⟩
    cases plain
  · refine (or_iff_left ?_).symm
    rintro rfl
    cases plain
  · intro now
    refine (or_iff_left ?_).symm
    rintro rfl
    cases plain
  · refine (or_iff_left ?_).symm
    rintro rfl
    cases plain
  · exact .inl
  · exact struck
  · refine (or_iff_left ?_).symm
    rintro rfl
    cases plain
  · intro now shutting under
    refine .inr ⟨?_, under⟩
    cases act with
    | began => cases plain
    | _ => rfl

theorem did_began (s : OwnedProcess) (now : Nat) (shutting immediate failed : Bool) (still : s.phase = .waiting) :
    Did s ((s.log (.began now shutting immediate failed)).goto (.cancelling now shutting))
      (.began now shutting immediate failed) := by
  constructor
  · rfl
  · rfl
  · simp [goto, log]
  · simp [goto, log]
  · simp [goto, log]
  · simp [goto, log]
  · exact .inl
  · exact fun struck => struck.imp_right fun none => nomatch none
  · simp [goto, Phase.drops, still]
  · rintro now shutting ⟨⟩
    exact .inl ⟨immediate, failed, rfl⟩

theorem did_terminate (s : OwnedProcess) (now : Nat) (first : s.cancelAt = none) :
    Did s { s.order now .terminate with cancelAt := some now } (.ordered now .terminate) := by
  constructor
  · rfl
  · rfl
  · simp [order, log]
  · simp [order, log]
  · simp [first]
  · simp [order, log]
  · exact .inl
  · exact fun struck => .inl (struck.resolve_right fun none => nomatch none)
  · simp [order, log]
  · exact fun now shutting under => .inr ⟨rfl, under⟩

theorem did_stop (s : OwnedProcess) : Did s s.stop .stopped := by
  constructor
  · rfl
  · rfl
  · simp [stop, log]
  · simp [stop, log]
  · simp [stop, log]
  · simp [stop, log, ProcessReader.stop]
  · exact .inl
  · exact fun struck => .inl (struck.resolve_right fun none => nomatch none)
  · simp [stop, log]
  · exact fun now shutting under => .inr ⟨rfl, under⟩

theorem did_record (s : OwnedProcess) (now : Nat) (status : ExitStatus) (first : s.exitAt = none) :
    Did s ({ s with exitAt := some now }.log (.recorded now status)) (.recorded now status) := by
  constructor
  · rfl
  · rfl
  · simp [log, first]
  · simp [log]
  · simp [log]
  · simp [log]
  · exact .inl
  · exact fun struck => .inl (struck.resolve_right fun none => nomatch none)
  · simp [log]
  · exact fun now shutting under => .inr ⟨rfl, under⟩

theorem did_lose (s : OwnedProcess) : Did s ({ s with supervisionLost := true }.log .lost) .lost := by
  constructor
  · rfl
  · rfl
  · simp [log]
  · simp [log]
  · simp [log]
  · simp [log]
  · exact .inl
  · exact fun struck => .inl (struck.resolve_right fun none => nomatch none)
  · simp [log]
  · exact fun now shutting under => .inr ⟨rfl, under⟩

theorem did_release (s : OwnedProcess) : Did s ((s.log .released).goto .dropping) .released := by
  constructor
  · rfl
  · rfl
  · simp [goto, log]
  · simp [goto, log]
  · simp [goto, log]
  · simp [goto, log]
  · exact .inl
  · exact fun _ => .inr rfl
  · simp [goto, Phase.drops]
  · exact fun now shutting none => nomatch none

theorem did_cancel (s : OwnedProcess) (cancels : List Cancel) :
    Did s ({ s with cancel := true, cancels }.log .cancelled) .cancelled := by
  constructor
  · rfl
  · rfl
  · simp [log]
  · simp [log]
  · simp [log]
  · simp [log]
  · exact fun _ => .inr rfl
  · exact fun struck => .inl (struck.resolve_right fun none => nomatch none)
  · simp [log]
  · exact fun now shutting under => .inr ⟨rfl, under⟩

theorem Faithful.alive (faithful : s.Faithful) (unrecorded : s.exitAt = none) (supervised : s.supervisionLost = false) :
    Alive s.trace := by
  constructor
  · intro now status member
    cases unrecorded.symm.trans ((faithful.exit now).mpr ⟨status, member⟩)
  · intro member
    cases supervised.symm.trans (faithful.lost.mpr member)

theorem Faithful.not_alive (faithful : s.Faithful) (ended : s.exitAt.isSome = true ∨ s.supervisionLost = true) :
    ¬Alive s.trace := by
  rintro ⟨unrecorded, supervised⟩
  rcases ended with some | lost
  · obtain ⟨now, exit⟩ := Option.isSome_iff_exists.mp some
    obtain ⟨status, member⟩ := (faithful.exit now).mp exit
    exact unrecorded now status member
  · exact supervised (faithful.lost.mp lost)

theorem Faithful.unstruck (faithful : s.Faithful) (spared : s.killed = false) (kept : s.phase.drops = false) :
    ¬Ordered s.trace .kill ∧ ¬Ordered s.trace .abort := by
  constructor
  · intro ordered
    simpa [spared, kept] using faithful.struck (.inl ordered)
  · intro ordered
    simpa [spared, kept] using faithful.struck (.inr ordered)

theorem Faithful.begin (faithful : s.Faithful) (still : s.phase = .waiting) (turn : Turn) :
    ((s.begin turn).goto (.cancelling turn.now turn.shutting)).Faithful := by
  have kept : .released ∉ s.trace := by
    rw [faithful.released, still]
    exact Bool.false_ne_true
  have began := faithful.did (s.did_began turn.now turn.shutting turn.immediate s.reader.readerFailed still) kept
  unfold OwnedProcess.begin
  dsimp only
  split
  · rename_i cause
    refine began.did (did_plain _ (.ordered turn.now .abort) rfl _ true fun _ => .inl rfl) ?_
    simp only [Bool.or_eq_true] at cause
    rcases cause with (immediate | lost) | failed
    · exact .inr (.inr ⟨_, _, _, .begin, .inl immediate⟩)
    · exact .inr (.inl (List.mem_append_left _ (faithful.lost.mp lost)))
    · exact .inr (.inr ⟨_, _, _, .begin, .inr failed⟩)
  · exact began

theorem terminate_same (s : OwnedProcess) (now : Nat) :
    (s.terminate now).limits = s.limits ∧ (s.terminate now).exitAt = s.exitAt ∧
      (s.terminate now).supervisionLost = s.supervisionLost ∧ (s.terminate now).killed = s.killed ∧
      (s.terminate now).phase = s.phase ∧ (s.terminate now).session = s.session ∧
      (s.terminate now).reader = s.reader := by
  unfold terminate
  split
  · simp [order, log]
  · simp

theorem Faithful.terminate (faithful : s.Faithful) {now : Nat} {shutting : Bool} (unrecorded : s.exitAt = none)
    (supervised : s.supervisionLost = false) (spared : s.killed = false) (under : s.phase.pass = some (now, shutting))
    (kept : s.phase.drops = false) (asked : shutting = true ∨ s.cancel = true) : (s.terminate now).Faithful := by
  unfold OwnedProcess.terminate
  split
  · rename_i fresh
    have first := Option.isNone_iff_eq_none.mp fresh
    refine faithful.did (s.did_terminate now first) ?_
    obtain ⟨unkilled, unaborted⟩ := faithful.unstruck spared kept
    obtain ⟨immediate, failed, passing⟩ := faithful.passing now shutting under
    refine ⟨faithful.alive unrecorded supervised, ?_, unkilled, unaborted, shutting, immediate, failed, passing,
      asked.imp_right faithful.cancelled⟩
    rintro ⟨earlier, member⟩
    cases first.symm.trans ((faithful.terminated earlier).mpr member)
  · exact faithful

theorem Faithful.escalate (faithful : s.Faithful) {now : Nat} {shutting : Bool} (unrecorded : s.exitAt = none)
    (supervised : s.supervisionLost = false) (spared : s.killed = false) (under : s.phase.pass = some (now, shutting))
    (kept : s.phase.drops = false) (asked : shutting = true ∨ s.cancel = true) : (s.escalate now).Faithful := by
  have terminated := faithful.terminate unrecorded supervised spared under kept asked
  obtain ⟨limits, exitAt, supervisionLost, killed, phase, -, -⟩ := s.terminate_same now
  unfold OwnedProcess.escalate
  dsimp only
  split
  · rename_i grace
    obtain ⟨start, held, ended⟩ := (Option.any_eq_true _ _).mp grace
    obtain ⟨unkilled, unaborted⟩ := terminated.unstruck (killed.trans spared) (phase ▸ kept)
    refine terminated.did (did_plain _ (.ordered now .kill) rfl _ true fun _ => .inl rfl) ?_
    exact ⟨terminated.alive (exitAt.trans unrecorded) (supervisionLost.trans supervised), unkilled, unaborted, start,
      (terminated.terminated start).mp held, of_decide_eq_true ended⟩
  · exact terminated

theorem Faithful.stop (faithful : s.Faithful) (cause : Allowed s.limits s.trace .stopped) : s.stop.Faithful :=
  faithful.did s.did_stop cause

theorem Faithful.drainOver (faithful : s.Faithful) {now : Nat} {shutting : Bool}
    (under : s.phase.pass = some (now, shutting)) (cause : (shutting || s.drainOver now) = true) :
    Allowed s.limits s.trace .stopped := by
  obtain ⟨immediate, failed, passing⟩ := faithful.passing now shutting under
  refine .inr (.inr ⟨now, shutting, immediate, failed, passing, ?_⟩)
  simp only [Bool.or_eq_true, OwnedProcess.drainOver, Option.any_eq_true] at cause
  rcases cause with shut | ⟨start, exit, late⟩
  · exact .inl shut
  · obtain ⟨status, member⟩ := (faithful.exit start).mp exit
    exact .inr ⟨start, status, member, of_decide_eq_true late⟩

theorem Faithful.releaseGuardian (faithful : s.Faithful) {now : Nat} {shutting : Bool}
    (under : s.phase.pass = some (now, shutting)) : (s.releaseGuardian now shutting).Faithful := by
  unfold OwnedProcess.releaseGuardian
  split
  · rename_i cause
    refine faithful.did (did_plain s (.ordered now .release) rfl _ s.killed ?_) ?_
    · exact fun struck => .inl (struck.resolve_right fun none => nomatch none)
    · simp only [Bool.or_eq_true] at cause
      rcases cause with ended | rfl
      · exact .inl (faithful.not_alive ended)
      · obtain ⟨immediate, failed, passing⟩ := faithful.passing now true under
        exact .inr ⟨immediate, failed, passing⟩
  · exact faithful

theorem Faithful.discard (faithful : s.Faithful) (now : Nat) : (s.discard now).Faithful := by
  unfold OwnedProcess.discard
  split
  · exact { faithful with }
  · exact faithful

theorem discard_phase (s : OwnedProcess) (now : Nat) : (s.discard now).phase = s.phase := by
  unfold OwnedProcess.discard
  split <;> rfl

theorem Faithful.still {phase : Phase} (faithful : s.Faithful) (drops : phase.drops = s.phase.drops)
    (idle : phase.pass = none) : (s.goto phase).Faithful :=
  faithful.goto drops fun _ under => nomatch idle.symm.trans under

theorem Faithful.reportFailure (faithful : s.Faithful) (after : After) (kept : s.phase.drops = false) :
    (s.reportFailure after).Faithful := by
  unfold OwnedProcess.reportFailure
  split
  · exact faithful.still (after.phase_drops.trans kept.symm) after.phase_pass
  · rename_i supervised
    have lost := faithful.did s.did_lose fun member => supervised (faithful.lost.mpr member)
    exact lost.still kept.symm rfl

theorem Faithful.recordExit (faithful : s.Faithful) (now : Nat) (status : Int32) (polled : Bool)
    (kept : s.phase.drops = false) : (s.recordExit now status polled).Faithful := by
  unfold OwnedProcess.recordExit
  split
  · exact faithful.still kept.symm rfl
  · rename_i fresh
    have first : s.exitAt = none := by simpa using fresh
    split
    · rename_i status _
      have recorded := faithful.did (s.did_record now status first) fun earlier other member => by
        cases first.symm.trans ((faithful.exit earlier).mpr ⟨other, member⟩)
      exact recorded.still kept.symm rfl
    · exact faithful.reportFailure _ kept

theorem Faithful.reap (faithful : s.Faithful) (turn : Turn) (polled : Bool) (kept : s.phase.drops = false) :
    (s.reap turn polled).Faithful := by
  have same : ∀ (guardian : Guardian.Owner) (watch : Bool), ({ s with guardian, watch } : OwnedProcess).Faithful :=
    fun _ _ => { faithful with }
  unfold OwnedProcess.reap
  dsimp only
  split
  · exact (same _ _).recordExit turn.now _ polled kept
  · exact (same _ _).still kept.symm rfl

theorem Faithful.advance (faithful : s.Faithful) (telling : s.Telling) (turn : Turn) : (s.advance turn).Faithful := by
  cases phase : s.phase with
  | waiting =>
    simp only [OwnedProcess.advance, phase]
    exact faithful.begin phase turn
  | cancelling now shutting =>
    simp only [OwnedProcess.advance, phase]
    have under : s.phase.pass = some (now, shutting) := by
      rw [phase]
      rfl
    split
    · rename_i due
      simp only [Bool.and_eq_true, Bool.not_eq_true', Option.isNone_iff_eq_none, Bool.or_eq_true] at due
      obtain ⟨⟨⟨unrecorded, supervised⟩, spared⟩, asked⟩ := due
      have escalated := faithful.escalate unrecorded supervised spared under (by rw [phase]; rfl) asked
      have held : (s.escalate now).phase = s.phase := by
        have same := (s.terminate_same now).2.2.2.2.1
        unfold OwnedProcess.escalate
        dsimp only
        split
        · exact same
        · exact same
      refine escalated.goto ?_ ?_
      · rw [held, phase]
        rfl
      · rw [held, phase]
        exact fun _ same => same
    · refine faithful.goto ?_ ?_
      · rw [phase]
        rfl
      · rw [phase]
        exact fun _ same => same
  | resizing now shutting alive =>
    simp only [OwnedProcess.advance, phase]
    have same : ({ s with session := if alive then s.session.takeResize turn.resized else s.session } :
        OwnedProcess).Faithful := { faithful with }
    refine same.goto ?_ ?_
    · change _ = s.phase.drops
      rw [phase]
      rfl
    · change ∀ under, _ → s.phase.pass = _
      rw [phase]
      exact fun _ same => same
  | stopping now shutting =>
    simp only [OwnedProcess.advance, phase]
    have under : s.phase.pass = some (now, shutting) := by
      rw [phase]
      rfl
    split
    · rename_i cause
      refine (faithful.stop (faithful.drainOver under cause)).goto ?_ ?_
      · change _ = s.phase.drops
        rw [phase]
        rfl
      · change ∀ under, _ → s.phase.pass = _
        rw [phase]
        exact fun _ same => same
    · refine faithful.goto ?_ ?_
      · rw [phase]
        rfl
      · rw [phase]
        exact fun _ same => same
  | releasing now shutting =>
    simp only [OwnedProcess.advance, phase]
    have under : s.phase.pass = some (now, shutting) := by
      rw [phase]
      rfl
    split
    · refine ((faithful.releaseGuardian under).discard now).still ?_ rfl
      have held : ((s.releaseGuardian now shutting).discard now).phase = s.phase := by
        refine ((s.releaseGuardian now shutting).discard_phase now).trans ?_
        unfold OwnedProcess.releaseGuardian
        split <;> rfl
      rw [held, phase]
      rfl
    · exact faithful.still (by rw [phase]; rfl) rfl
  | retaining =>
    simp only [OwnedProcess.advance, phase]
    split
    · refine faithful.did s.did_release ?_
      change ¬Act.released ∈ s.trace
      rw [faithful.released, phase]
      exact Bool.false_ne_true
    · exact faithful.still (by rw [phase]; rfl) rfl
  | polling =>
    simp only [OwnedProcess.advance, phase]
    refine faithful.still ?_ ?_
    · rw [phase]
      split <;> rfl
    · split <;> rfl
  | reaping polled =>
    simp only [OwnedProcess.advance, phase]
    exact faithful.reap turn polled (by rw [phase]; rfl)
  | noting status polled =>
    simp only [OwnedProcess.advance, phase]
    have same : ({ s with reader := s.reader.noteWorkloadExit } : OwnedProcess).Faithful := { faithful with }
    refine same.still ?_ rfl
    change _ = s.phase.drops
    rw [phase]
    rfl
  | closing next =>
    simp only [OwnedProcess.advance, phase]
    have same : ({ s with session := s.session.beginFinish next.reason } : OwnedProcess).Faithful := { faithful with }
    refine same.still ?_ rfl
    change _ = s.phase.drops
    rw [phase]
    cases next <;> rfl
  | finishing next =>
    simp only [OwnedProcess.advance, phase]
    have same : ({ s with session := s.session.finishInputs 0 } : OwnedProcess).Faithful := { faithful with }
    refine same.still ?_ ?_
    · change _ = s.phase.drops
      rw [phase]
      cases next <;> rfl
    · cases next <;> rfl
  | exiting status polled =>
    simp only [OwnedProcess.advance, phase]
    have reported := faithful.did (did_plain s (.reported (.exited status)) rfl s.guardian s.killed ?_) ?_
    · refine reported.still ?_ rfl
      change _ = s.phase.drops
      rw [phase]
      rfl
    · exact fun struck => .inl (struck.resolve_right fun none => nomatch none)
    · exact telling.exiting status (by rw [phase]; rfl)
  | faulting polled =>
    simp only [OwnedProcess.advance, phase]
    have same : ({ s with guardian := s.guardian.step .takeFault } : OwnedProcess).Faithful := { faithful with }
    have kept : s.phase.drops = false := by
      rw [phase]
      rfl
    split
    · exact same.reportFailure _ kept
    · exact same.still ((After.phase_drops _).trans kept.symm) (After.phase_pass _)
  | halting after =>
    simp only [OwnedProcess.advance, phase]
    have lost := telling.failing (by rw [phase]; rfl)
    refine (faithful.stop (.inr (.inl lost.1))).still ?_ rfl
    change _ = s.phase.drops
    rw [phase]
    rfl
  | failing after =>
    simp only [OwnedProcess.advance, phase]
    have reported := faithful.did (did_plain s (.reported (.supervisionFailed .internal)) rfl s.guardian s.killed ?_) ?_
    · refine reported.still ?_ after.phase_pass
      change _ = s.phase.drops
      rw [phase]
      exact after.phase_drops
    · exact fun struck => .inl (struck.resolve_right fun none => nomatch none)
    · obtain ⟨lost, fresh⟩ := telling.failing (by rw [phase]; rfl)
      exact ⟨rfl, lost, telling.halted after phase, fresh⟩
  | writing =>
    simp only [OwnedProcess.advance, phase]
    have same : ({ s with session := if s.exitAt.isNone then s.session.writeReady turn.now turn.write else s.session } :
        OwnedProcess).Faithful := { faithful with }
    refine same.still ?_ rfl
    change _ = s.phase.drops
    rw [phase]
    rfl
  | dropping =>
    simp only [OwnedProcess.advance, phase]
    have released : .released ∈ s.trace := by
      rw [faithful.released, phase]
      rfl
    refine (faithful.stop (.inl released)).still ?_ rfl
    change _ = s.phase.drops
    rw [phase]
    rfl
  | joining =>
    have released : .released ∈ s.trace := by
      rw [faithful.released, phase]
      rfl
    simp only [OwnedProcess.advance, phase]
    split
    · have aborted := faithful.did (did_plain s (.ordered turn.now .abort) rfl (s.guardian.step (.request .abort))
          s.killed ?_) (.inl released)
      · refine aborted.still ?_ rfl
        change _ = s.phase.drops
        rw [phase]
        rfl
      · intro _
        rw [phase]
        exact .inr rfl
    · exact faithful
  | cleaning =>
    simp only [OwnedProcess.advance, phase]
    split
    · exact faithful.still (by rw [phase]; rfl) rfl
    · exact { faithful with }
  | dropped =>
    simp only [OwnedProcess.advance, phase]
    exact faithful

/-- The reader only reads the flags the supervisor stores. -/
theorem reader_flags (r : ProcessReader) (answers : ProcessReader.Answers) :
    (r.advance answers).stopReader = r.stopReader ∧ (r.advance answers).workloadExited = r.workloadExited := by
  have moved (phase : ProcessReader.Phase) : (r.unlessStopped phase).stopReader = r.stopReader ∧
      (r.unlessStopped phase).workloadExited = r.workloadExited := ⟨rfl, rfl⟩
  unfold ProcessReader.advance
  split
  · exact moved _
  · exact ⟨rfl, rfl⟩
  · exact moved _
  · exact moved _
  · exact ⟨rfl, rfl⟩
  · dsimp only
    split
    · exact ⟨rfl, rfl⟩
    · exact ⟨rfl, rfl⟩
  · dsimp only
    split
    · exact ⟨rfl, rfl⟩
    · exact ⟨rfl, rfl⟩
  · exact moved _
  all_goals exact ⟨rfl, rfl⟩

theorem Faithful.step (faithful : s.Faithful) (telling : s.Telling) (event : Event) : (s.step event).Faithful := by
  cases event with
  | advance turn => exact faithful.advance telling turn
  | unwind =>
    change s.unwind.Faithful
    unfold OwnedProcess.unwind
    split
    · rename_i between
      refine faithful.did s.did_release ?_
      change ¬Act.released ∈ s.trace
      rw [faithful.released]
      cases phase : s.phase with
      | waiting | retaining | polling => exact Bool.false_ne_true
      | _ =>
        rw [phase] at between
        cases between
    · exact faithful
  | read answers =>
    refine { faithful with stopped := ?_ }
    change (s.reader.advance answers).stopReader = true ↔ _
    rw [(reader_flags s.reader answers).1]
    exact faithful.stopped
  | writeReserved bytes now | requestResize size | requestCancel => exact { faithful with }
  | cancelStep call =>
    change (s.cancelStep call).Faithful
    unfold OwnedProcess.cancelStep
    split
    · exact { faithful with }
    · exact { faithful with }
    · exact faithful.did (s.did_cancel _) trivial
    · exact faithful

theorem start_faithful (limits : ProcessLimits) (guardian : Guardian.Owner) (watch : Bool) :
    (start limits guardian watch).Faithful := by
  constructor
  · exact .nil
  · simp [start]
  · simp [start]
  · simp [start]
  · simp [start, Ordered]
  · simp [start, ProcessReader.new]
  · simp [start]
  · simp [start, Phase.drops]
  · intro now shutting none
    cases none

end PtyRuntime.OwnedProcess
