import PtyRuntime.Interleaving.Discipline
import Mathlib.Logic.Relation

/-! Machines of many threads. A role is an exclusive lock held for a whole program;
callers run outside every role. Each role proves its own program against what the
others may do, and the contract of a machine joins these proofs into facts about
every interleaving. -/

/-- Shared state, the program each role's holder still has to run, and the callers. -/
structure Machine (ρ σ ι : Type) where
  shared : σ
  held : ρ → Option (Thread σ ι Unit)
  callers : List (Thread σ ι Unit)

/-- One scheduling decision. -/
inductive Choice (ρ σ ι : Type) where
  | enter (role : ρ) (program : Thread σ ι Unit)
  | work (role : ρ) (input : ι)
  | call (program : Thread σ ι Unit)
  | resume (index : Nat) (input : ι)

namespace Machine

variable {ρ σ ι : Type} [DecidableEq ρ]

/-- Nothing runs yet. -/
def start (shared : σ) : Machine ρ σ ι where
  shared
  held _ := none
  callers := []

/-- Entering an occupied role and driving an absent thread do nothing. -/
def step (m : Machine ρ σ ι) : Choice ρ σ ι → Machine ρ σ ι
  | .enter role program =>
    match m.held role with
    | some _ => m
    | none => { m with held := Function.update m.held role program.running }
  | .work role input =>
    match m.held role with
    | none => m
    | some program =>
      { m with
        shared := (program.step m.shared input).1
        held := Function.update m.held role (program.step m.shared input).2.running }
  | .call program => { m with callers := m.callers ++ [program] }
  | .resume index input =>
    match m.callers[index]? with
    | none => m
    | some program =>
      { m with
        shared := (program.step m.shared input).1
        callers := m.callers.set index (program.step m.shared input).2 }

def run (m : Machine ρ σ ι) (choices : List (Choice ρ σ ι)) : Machine ρ σ ι :=
  choices.foldl step m

theorem run_append (m : Machine ρ σ ι) (first second : List (Choice ρ σ ι)) :
    m.run (first ++ second) = (m.run first).run second := List.foldl_append

end Machine

/-- The invariant everyone keeps, what holds of the state while a role is free, what
the holder of each role and the callers may do in one step, and which programs run. -/
structure Contract (ρ σ ι : Type) where
  inv : σ → Prop
  idle : ρ → σ → Prop
  guar : ρ → σ → σ → Prop
  meddle : σ → σ → Prop
  enters : ρ → Thread σ ι Unit → Prop
  calls : Thread σ ι Unit → Prop

namespace Contract

variable {ρ σ ι : Type} (c : Contract ρ σ ι)

/-- One step of anyone but the holder of `role`. -/
def Others (role : ρ) (s s' : σ) : Prop :=
  c.meddle s s' ∨ ∃ other, other ≠ role ∧ c.guar other s s'

def discipline (role : ρ) : Discipline σ where
  inv := c.inv
  rely := Relation.ReflTransGen (c.Others role)
  guar := c.guar role

/-- One step of a role's holder or of a caller. -/
def Anyone (s s' : σ) : Prop := c.meddle s s' ∨ ∃ role, c.guar role s s'

/-- A caller runs beside every role and every other caller. -/
def bystander : Discipline σ where
  inv := c.inv
  rely := Relation.ReflTransGen c.Anyone
  guar := c.meddle

/-- One step of the machine changes nothing, or is the step of a role or a caller. -/
def Moves (s s' : σ) : Prop := s' = s ∨ c.meddle s s' ∨ ∃ role, c.guar role s s'

def Allows : Choice ρ σ ι → Prop
  | .enter role program => c.enters role program
  | .call program => c.calls program
  | .work _ _ | .resume _ _ => True

/-- Every program is proved against its own discipline. -/
structure Sound : Prop where
  steady : ∀ role s s', c.Others role s s' → c.idle role s → c.idle role s'
  holder : ∀ role program, c.enters role program →
    (c.discipline role).Triple (c.idle role) program fun _ => c.idle role
  caller : ∀ program, c.calls program →
    c.bystander.Triple (fun _ => True) program fun _ _ => True

variable {c}

/-- A caller each of whose steps keeps the invariant, whatever happened before. -/
theorem caller_of_each {program : Thread σ ι Unit}
    (each : program.Each fun s s' => c.inv s → c.inv s' ∧ c.meddle s s') :
    c.bystander.Triple (fun _ => True) program fun _ _ => True := by
  have : c.bystander.Stable fun _ => True := ⟨fun _ _ => trivial⟩
  refine Discipline.Triple.of_each each fun s s' step inv _ => ?_
  obtain ⟨kept, meddled⟩ := step inv
  exact ⟨kept, meddled, trivial⟩

theorem Sound.stable (sound : c.Sound) (role : ρ) : (c.discipline role).Stable (c.idle role) where
  keep rely idle := by
    induction rely with
    | refl => exact idle
    | tail _ step ih => exact sound.steady role _ _ step ih

variable (c) in
/-- Every suspended program still has its proof. -/
structure Kept (m : Machine ρ σ ι) : Prop where
  inv : c.inv m.shared
  idle : ∀ role, m.held role = none → c.idle role m.shared
  safe : ∀ role program, m.held role = some program →
    (c.discipline role).Safe (fun _ => c.idle role) program m.shared
  callers : ∀ program ∈ m.callers, c.bystander.Safe (fun _ _ => True) program m.shared

/-- A step of someone else leaves a role's assertions and proof in place. -/
theorem Kept.others (sound : c.Sound) {m : Machine ρ σ ι} (kept : c.Kept m) {role : ρ} {s' : σ}
    (step : c.Others role m.shared s') :
    (m.held role = none → c.idle role s') ∧
      ∀ program, m.held role = some program →
        (c.discipline role).Safe (fun _ => c.idle role) program s' := by
  constructor
  · exact fun free => sound.steady role _ _ step (kept.idle role free)
  · intro program busy
    exact (kept.safe role program busy).interfere Relation.ReflTransGen.trans
      (fun _ => sound.stable role) (Relation.ReflTransGen.single step)

/-- A step of anyone leaves the proofs of the suspended callers in place. -/
theorem Kept.bystanders {m : Machine ρ σ ι} (kept : c.Kept m) {s' : σ} (step : c.Anyone m.shared s') :
    ∀ program ∈ m.callers, c.bystander.Safe (fun _ _ => True) program s' := by
  intro program member
  exact (kept.callers program member).interfere Relation.ReflTransGen.trans
    (fun _ => ⟨fun _ _ => trivial⟩) (Relation.ReflTransGen.single step)

/-- One step of a holder: it keeps its proof, or ends with its role idle. -/
theorem Safe_step {role : ρ} {program : Thread σ ι Unit} {s : σ} (input : ι)
    (safe : (c.discipline role).Safe (fun _ => c.idle role) program s) (inv : c.inv s) :
    c.inv (program.step s input).1 ∧
      ((program.step s input).1 = s ∨ c.guar role s (program.step s input).1) ∧
      (c.discipline role).Safe (fun _ => c.idle role) (program.step s input).2
        (program.step s input).1 := by
  cases program with
  | done value => exact ⟨inv, .inl rfl, safe⟩
  | ask next => exact ⟨inv, .inl rfl, safe input⟩
  | act effect next =>
    obtain ⟨after, owed, rest⟩ := safe s .refl inv
    exact ⟨after, .inr owed, rest⟩

theorem running_eq_none {program : Thread σ ι Unit} (ended : program.running = none) :
    program = .done () := by
  cases program with
  | done value => rfl
  | ask next => cases ended
  | act effect next => cases ended

theorem running_eq_some {program rest : Thread σ ι Unit} (left : program.running = some rest) :
    rest = program := by
  cases program with
  | done value => cases left
  | ask next => exact (Option.some.inj left).symm
  | act effect next => exact (Option.some.inj left).symm

theorem kept_start {s : σ} (inv : c.inv s) (idle : ∀ role, c.idle role s) :
    c.Kept (Machine.start s : Machine ρ σ ι) where
  inv := inv
  idle role _ := idle role
  safe _ _ busy := by cases busy
  callers _ member := by cases member

variable [DecidableEq ρ]

/-- A role that was just entered or driven, with every other role's view of it. -/
theorem Kept.replace {m : Machine ρ σ ι} {role : ρ} {s' : σ} {program : Thread σ ι Unit} (inv : c.inv s')
    (safe : (c.discipline role).Safe (fun _ => c.idle role) program s')
    (rest : ∀ other, other ≠ role →
      (m.held other = none → c.idle other s') ∧
        ∀ program, m.held other = some program →
          (c.discipline other).Safe (fun _ => c.idle other) program s')
    (callers : ∀ program ∈ m.callers, c.bystander.Safe (fun _ _ => True) program s') :
    c.Kept { m with shared := s', held := Function.update m.held role program.running } where
  inv := inv
  idle other free := by
    by_cases same : other = role
    · subst same
      simp only [Function.update_self] at free
      rw [running_eq_none free] at safe
      exact safe
    · simp only [Function.update_of_ne same] at free
      exact (rest other same).1 free
  safe other left busy := by
    by_cases same : other = role
    · subst same
      simp only [Function.update_self] at busy
      rw [running_eq_some busy]
      exact safe
    · simp only [Function.update_of_ne same] at busy
      exact (rest other same).2 left busy
  callers := callers

theorem Kept.enter (sound : c.Sound) {m : Machine ρ σ ι} (kept : c.Kept m) {role : ρ}
    {program : Thread σ ι Unit} (allowed : c.enters role program) :
    c.Kept (m.step (.enter role program)) := by
  simp only [Machine.step]
  split
  · exact kept
  · rename_i free
    exact .replace kept.inv (sound.holder role program allowed _ (kept.idle role free))
      (fun other _ => ⟨kept.idle other, kept.safe other⟩) kept.callers

theorem Kept.work (sound : c.Sound) {m : Machine ρ σ ι} (kept : c.Kept m) (role : ρ) (input : ι) :
    c.Kept (m.step (.work role input)) ∧
      c.Moves m.shared (m.step (.work role input)).shared := by
  simp only [Machine.step]
  split
  · exact ⟨kept, .inl rfl⟩
  · rename_i program busy
    obtain ⟨inv, moved, safe⟩ := Safe_step input (kept.safe role program busy) kept.inv
    constructor
    · rcases moved with same | owed
      · refine .replace inv safe (fun other _ => ?_) ?_
        · rw [same]
          exact ⟨kept.idle other, kept.safe other⟩
        · rw [same]
          exact kept.callers
      · refine .replace inv safe (fun other differs => ?_) (kept.bystanders (.inr ⟨role, owed⟩))
        exact kept.others sound (.inr ⟨role, Ne.symm differs, owed⟩)
    · exact moved.imp id fun owed => .inr ⟨role, owed⟩

theorem Kept.call {m : Machine ρ σ ι} (sound : c.Sound) (kept : c.Kept m)
    {program : Thread σ ι Unit} (allowed : c.calls program) :
    c.Kept (m.step (.call program)) where
  inv := kept.inv
  idle := kept.idle
  safe := kept.safe
  callers other member := by
    rcases List.mem_append.mp member with old | new
    · exact kept.callers other old
    · rw [List.mem_singleton.mp new]
      exact sound.caller program allowed _ trivial

theorem Kept.resume (sound : c.Sound) {m : Machine ρ σ ι} (kept : c.Kept m) (index : Nat)
    (input : ι) :
    c.Kept (m.step (.resume index input)) ∧
      c.Moves m.shared (m.step (.resume index input)).shared := by
  simp only [Machine.step]
  split
  · exact ⟨kept, .inl rfl⟩
  rename_i program found
  have safe := kept.callers program (List.mem_of_getElem? found)
  have later : ∀ s' rest, (∀ other ∈ m.callers, c.bystander.Safe (fun _ _ => True) other s') →
      c.bystander.Safe (fun _ _ => True) rest s' → ∀ other ∈ m.callers.set index rest,
        c.bystander.Safe (fun _ _ => True) other s' := by
    intro s' rest others own other member
    rcases List.mem_or_eq_of_mem_set member with old | rfl
    · exact others other old
    · exact own
  cases program with
  | done value =>
    exact ⟨⟨kept.inv, kept.idle, kept.safe, later _ _ kept.callers safe⟩, .inl rfl⟩
  | ask next =>
    exact ⟨⟨kept.inv, kept.idle, kept.safe, later _ _ kept.callers (safe input)⟩, .inl rfl⟩
  | act effect next =>
    obtain ⟨inv, meddled, rest⟩ := safe m.shared .refl kept.inv
    exact ⟨⟨inv, fun role => (kept.others sound (.inl meddled)).1,
      fun role => (kept.others sound (.inl meddled)).2,
      later _ _ (kept.bystanders (.inl meddled)) rest⟩, .inr (.inl meddled)⟩

theorem Kept.step (sound : c.Sound) {m : Machine ρ σ ι} (kept : c.Kept m)
    {choice : Choice ρ σ ι} (allowed : c.Allows choice) :
    c.Kept (m.step choice) ∧ c.Moves m.shared (m.step choice).shared := by
  cases choice with
  | enter role program =>
    refine ⟨kept.enter sound allowed, .inl ?_⟩
    simp only [Machine.step]
    split <;> rfl
  | work role input => exact kept.work sound role input
  | call program => exact ⟨kept.call sound allowed, .inl rfl⟩
  | resume index input => exact kept.resume sound index input

theorem Kept.run (sound : c.Sound) {m : Machine ρ σ ι} (kept : c.Kept m)
    {choices : List (Choice ρ σ ι)} (allowed : ∀ choice ∈ choices, c.Allows choice) :
    c.Kept (m.run choices) := by
  induction choices generalizing m with
  | nil => exact kept
  | cons choice rest ih =>
    exact ih (kept.step sound (allowed choice List.mem_cons_self)).1
      fun later member => allowed later (List.mem_cons_of_mem _ member)

/-- What every step of a sound machine preserves, its runs preserve. -/
theorem Kept.preserve (sound : c.Sound) {P : σ → Prop} {m : Machine ρ σ ι} (kept : c.Kept m)
    {choices : List (Choice ρ σ ι)} (allowed : ∀ choice ∈ choices, c.Allows choice)
    (step : ∀ s s', c.inv s → c.inv s' → c.Moves s s' → P s → P s') (holds : P m.shared) :
    P (m.run choices).shared := by
  induction choices generalizing m with
  | nil => exact holds
  | cons choice rest ih =>
    obtain ⟨next, moves⟩ := kept.step sound (allowed choice List.mem_cons_self)
    exact ih next (fun later member => allowed later (List.mem_cons_of_mem _ member))
      (step _ _ kept.inv next.inv moves holds)

end Contract
