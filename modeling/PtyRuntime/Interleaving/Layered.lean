import PtyRuntime.Interleaving.Machine

/-! A contract on top of a contract. What the first one proves of a program is taken
for granted step by step while the addition is proved, so that a program the
addition is not about only has to show what its steps leave alone. -/

/-- More to keep than a contract asks for. -/
structure Addition (ρ σ : Type) where
  inv : σ → Prop
  idle : ρ → σ → Prop
  guar : ρ → σ → σ → Prop
  meddle : σ → σ → Prop

namespace Addition

variable {ρ σ : Type}

/-- An assertion that no step of a caller can falsify. -/
class Steady (a : Addition ρ σ) (F : σ → Prop) : Prop where
  keep : ∀ {s s' : σ}, a.meddle s s' → F s → F s'

/-- Steps of a role's holder that the addition is not about. -/
class Neutral (a : Addition ρ σ) (role : ρ) (R : σ → σ → Prop) : Prop where
  step : ∀ {s s' : σ}, R s s' → a.inv s → a.inv s' ∧ a.guar role s s' ∧ a.meddle s s'

instance Steady.and {a : Addition ρ σ} {F G : σ → Prop} [first : a.Steady F] [second : a.Steady G] :
    a.Steady fun s => F s ∧ G s where
  keep step both := ⟨first.keep step both.1, second.keep step both.2⟩

instance Steady.or {a : Addition ρ σ} {F G : σ → Prop} [first : a.Steady F] [second : a.Steady G] :
    a.Steady fun s => F s ∨ G s where
  keep step either := either.imp (first.keep step) (second.keep step)

instance Steady.imp (p : Prop) {a : Addition ρ σ} {F : σ → Prop} [steady : a.Steady F] :
    a.Steady fun s => p → F s where
  keep step holds premise := steady.keep step (holds premise)

end Addition

namespace Contract

variable {ρ σ ι α : Type} (c : Contract ρ σ ι) (a : Addition ρ σ)

def extend : Contract ρ σ ι where
  inv s := c.inv s ∧ a.inv s
  idle role s := c.idle role s ∧ a.idle role s
  guar role s s' := c.guar role s s' ∧ a.guar role s s'
  meddle s s' := c.meddle s s' ∧ a.meddle s s'
  enters := c.enters
  calls := c.calls

/-- What an addition asks of a role's holder, with what the base proves of each step and
of the others taken for granted. -/
def overlay (role : ρ) : Discipline σ where
  inv := a.inv
  rely s s' := ((c.extend a).discipline role).rely s s' ∧ c.inv s'
  guar := a.guar role

variable {c a} {role : ρ}

theorem Others.base {s s' : σ} (step : (c.extend a).Others role s s') : c.Others role s s' := by
  rcases step with meddled | ⟨other, differs, owed⟩
  · exact .inl meddled.1
  · exact .inr ⟨other, differs, owed.1⟩

theorem rely_base {s s' : σ} (rely : ((c.extend a).discipline role).rely s s') :
    (c.discipline role).rely s s' :=
  Relation.ReflTransGen.mono (fun _ _ step => Others.base step) s s' rely

/-- What no step of the others can falsify, no run of them can. -/
theorem stable_of_step {P : σ → Prop} (step : ∀ s s', c.Others role s s' → P s → P s') :
    (c.discipline role).Stable P where
  keep rely holds := by
    induction rely with
    | refl => exact holds
    | tail _ last ih => exact step _ _ last ih

section Rules

variable {P F : σ → Prop} {Q G : α → σ → Prop}

theorem Safe_join {thread : Thread σ ι α} {s : σ} (base : (c.discipline role).Safe Q thread s)
    (upper : (c.overlay a role).Safe G thread s) :
    ((c.extend a).discipline role).Safe (fun value s => Q value s ∧ G value s) thread s := by
  induction thread generalizing s with
  | done value => exact ⟨base, upper⟩
  | ask next ih => exact fun input => ih input (base input) (upper input)
  | act effect next ih =>
    intro s' moved inv
    obtain ⟨kept, owed, rest⟩ := base s' (rely_base moved) inv.1
    obtain ⟨added, more, later⟩ := upper s' ⟨moved, inv.1⟩ inv.2
    exact ⟨⟨kept, added⟩, ⟨owed, more⟩, ih s' rest later⟩

/-- A proof of the base and one of the addition make one of both. -/
theorem Triple.join {thread : Thread σ ι α} (base : (c.discipline role).Triple P thread Q)
    (upper : (c.overlay a role).Triple F thread G) :
    ((c.extend a).discipline role).Triple (fun s => P s ∧ F s) thread
      fun value s => Q value s ∧ G value s :=
  fun s both => Safe_join (base s both.1) (upper s both.2)

/-- One step, where the base's invariant holds before it. -/
theorem overlay_lock {f : σ → α × σ} (stable : ((c.extend a).discipline role).Stable F)
    (step : ∀ s, c.inv s → a.inv s → F s → a.inv (f s).2 ∧ a.guar role s (f s).2 ∧ G (f s).1 (f s).2) :
    (c.overlay a role).Triple F (Thread.lock f : Thread σ ι α) G :=
  fun _ holds s' moved inv => step s' moved.2 inv (stable.keep moved.1 holds)

/-- A program the addition is not about, whatever the base makes of it. -/
theorem overlay_aside {W R : σ → σ → Prop} {thread : Thread σ ι α}
    (stable : ((c.extend a).discipline role).Stable F)
    (wider : ∀ s s', ((c.extend a).discipline role).rely s s' → W s s') (upholds : thread.Upholds W R)
    (step : ∀ s s', R s s' → a.inv s → F s → a.inv s' ∧ a.guar role s s' ∧ F s') :
    (c.overlay a role).Triple F thread fun _ => F := by
  intro s holds
  have framed : (c.overlay a role).Safe (fun _ s => True ∧ F s) thread s := by
    refine Discipline.Safe.both ?_ ?_ ?_ (upholds s trivial) (upholds s trivial) holds
    · exact fun s s' moved => ⟨wider s s' moved.1, wider s s' moved.1, stable.keep moved.1⟩
    · exact fun _ _ => ⟨trivial, trivial⟩
    · exact fun s s' inv holds _ _ allowed _ => step s s' allowed inv holds
  exact framed.mono fun _ _ both => both.2

/-- A program whose steps all leave the addition and an assertion in place. -/
theorem Triple.along {W R : σ → σ → Prop} {thread : Thread σ ι α}
    (base : (c.discipline role).Triple P thread Q)
    (stable : ((c.extend a).discipline role).Stable F)
    (wider : ∀ s s', ((c.extend a).discipline role).rely s s' → W s s')
    (upholds : thread.Upholds W R)
    (step : ∀ s s', R s s' → c.inv s → c.inv s' → c.guar role s s' → a.inv s → F s →
      a.inv s' ∧ a.guar role s s' ∧ F s') :
    ((c.extend a).discipline role).Triple (fun s => P s ∧ F s) thread
      fun value s => Q value s ∧ F s := by
  rintro s ⟨before, holds⟩
  refine Discipline.Safe.both (fun s s' moved => ⟨rely_base moved, wider s s' moved, stable.keep moved⟩)
    (fun s inv => ⟨inv.1, trivial⟩) (fun s s' inv holds kept _ owed allowed => ?_) (base s before)
    (upholds s trivial) holds
  obtain ⟨added, more, holds⟩ := step s s' allowed inv.1 kept owed inv.2 holds
  exact ⟨⟨kept, added⟩, ⟨owed, more⟩, holds⟩

/-- One step that the base has a proof of. -/
theorem Triple.step {f : σ → α × σ}
    (base : (c.discipline role).Triple P (Thread.lock f : Thread σ ι α) Q)
    (before : (c.discipline role).Stable P) (stable : ((c.extend a).discipline role).Stable F)
    (step : ∀ s, c.inv s → P s → a.inv s → F s → c.inv (f s).2 → c.guar role s (f s).2 →
      Q (f s).1 (f s).2 → a.inv (f s).2 ∧ a.guar role s (f s).2 ∧ G (f s).1 (f s).2) :
    ((c.extend a).discipline role).Triple (fun s => P s ∧ F s) (Thread.lock f : Thread σ ι α)
      fun value s => Q value s ∧ G value s := by
  intro s holds s' moved inv
  obtain ⟨kept, owed, after⟩ := base s holds.1 s' (rely_base moved) inv.1
  obtain ⟨added, more, result⟩ := step s' inv.1 (before.keep (rely_base moved) holds.1) inv.2
    (stable.keep moved holds.2) kept owed after
  exact ⟨⟨kept, added⟩, ⟨owed, more⟩, after, result⟩

end Rules

/-- A caller whose steps all leave the addition in place. -/
theorem caller_along {W R : σ → σ → Prop} {program : Thread σ ι Unit}
    (base : c.bystander.Triple (fun _ => True) program fun _ _ => True)
    (wider : ∀ s s', (c.extend a).bystander.rely s s' → W s s') (upholds : program.Upholds W R)
    (step : ∀ s s', R s s' → c.meddle s s' → a.inv s → a.inv s' ∧ a.meddle s s') :
    (c.extend a).bystander.Triple (fun _ => True) program fun _ _ => True := by
  intro s _
  have narrower : ∀ s s', (c.extend a).bystander.rely s s' → c.bystander.rely s s' :=
    Relation.ReflTransGen.mono fun s s' moved => moved.imp And.left fun ⟨role, owed⟩ => ⟨role, owed.1⟩
  refine (Discipline.Safe.both (F := fun _ => True)
    (fun s s' moved => ⟨narrower s s' moved, wider s s' moved, fun _ => trivial⟩)
    (fun s inv => ⟨inv.1, trivial⟩) (fun s s' inv _ kept _ meddled allowed => ?_) (base s trivial)
    (upholds s trivial) trivial).mono fun _ _ _ => trivial
  obtain ⟨added, more⟩ := step s s' allowed meddled inv.2
  exact ⟨⟨kept, added⟩, ⟨meddled, more⟩, trivial⟩

/-- A sound contract stays sound when every program also meets the addition. -/
theorem Sound.extend (sound : c.Sound)
    (steady : ∀ role s s', (c.extend a).Others role s s' → a.idle role s → a.idle role s')
    (holder : ∀ role program, c.enters role program →
      ((c.extend a).discipline role).Triple ((c.extend a).idle role) program
        fun _ => (c.extend a).idle role)
    (caller : ∀ program, c.calls program →
      (c.extend a).bystander.Triple (fun _ => True) program fun _ _ => True) :
    (c.extend a).Sound where
  steady role s s' step idle :=
    ⟨sound.steady role s s' step.base idle.1, steady role s s' step idle.2⟩
  holder := holder
  caller := caller

end Contract
