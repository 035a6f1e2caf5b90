import PtyRuntime.Interleaving.Thread

/-! A rely/guarantee logic for threads: what a thread may assume of the others, what
it owes them, and rules that follow the program. -/

/-- What a thread may assume of the others and owes them. -/
structure Discipline (σ : Type) where
  inv : σ → Prop
  rely : σ → σ → Prop
  guar : σ → σ → Prop

/-- An assertion no other thread can falsify. -/
class Discipline.Stable {σ : Type} (d : Discipline σ) (P : σ → Prop) : Prop where
  keep : ∀ {s s' : σ}, d.rely s s' → P s → P s'

namespace Discipline

variable {σ τ ι α β : Type} (d : Discipline σ)

/-- From `s` on, every effect of the thread keeps the invariant and meets the
guarantee, and the thread can only end where `Q` holds. -/
def Safe (Q : α → σ → Prop) : Thread σ ι α → σ → Prop
  | .done value, s => Q value s
  | .ask next, s => ∀ input, Safe Q (next input) s
  | .act effect next, s => ∀ s', d.rely s s' → d.inv s' →
      d.inv (effect s') ∧ d.guar s' (effect s') ∧ Safe Q (next s') (effect s')

def Triple (P : σ → Prop) (thread : Thread σ ι α) (Q : α → σ → Prop) : Prop :=
  ∀ s, P s → d.Safe Q thread s

variable {d}

theorem Safe.mono {Q Q' : α → σ → Prop} {thread : Thread σ ι α} {s : σ}
    (safe : d.Safe Q thread s) (weaker : ∀ value s, Q value s → Q' value s) :
    d.Safe Q' thread s := by
  induction thread generalizing s with
  | done value => exact weaker value s safe
  | ask next ih => exact fun input => ih input (safe input)
  | act effect next ih =>
    intro s' rely inv
    obtain ⟨kept, owed, rest⟩ := safe s' rely inv
    exact ⟨kept, owed, ih s' rest⟩

theorem Safe.bind {Q : α → σ → Prop} {Q' : β → σ → Prop} {first : Thread σ ι α}
    {next : α → Thread σ ι β} {s : σ} (safe : d.Safe Q first s)
    (rest : ∀ value s', Q value s' → d.Safe Q' (next value) s') :
    d.Safe Q' (first >>= next) s := by
  induction first generalizing s with
  | done value => exact rest value s safe
  | ask first ih => exact fun input => ih input (safe input)
  | act effect first ih =>
    intro s' rely inv
    obtain ⟨kept, owed, later⟩ := safe s' rely inv
    exact ⟨kept, owed, ih s' later⟩

/-- A suspended thread stays safe while others move. -/
theorem Safe.interfere {Q : α → σ → Prop} (trans : ∀ {a b c}, d.rely a b → d.rely b c → d.rely a c)
    (stable : ∀ value, d.Stable (Q value)) {thread : Thread σ ι α} {s s' : σ}
    (safe : d.Safe Q thread s) (rely : d.rely s s') : d.Safe Q thread s' := by
  induction thread generalizing s with
  | done value => exact (stable value).keep rely safe
  | ask next ih => exact fun input => ih input (safe input) rely
  | act effect next ih => exact fun s'' later => safe s'' (trans rely later)

/-- What neither the others nor the thread's own steps can falsify, its proof keeps. -/
theorem Safe.frame {F : σ → Prop} (others : ∀ s s', d.rely s s' → F s → F s')
    (own : ∀ s s', d.guar s s' → F s → F s') {Q : α → σ → Prop} {thread : Thread σ ι α} {s : σ}
    (safe : d.Safe Q thread s) (holds : F s) :
    d.Safe (fun value s => Q value s ∧ F s) thread s := by
  induction thread generalizing s with
  | done value => exact ⟨safe, holds⟩
  | ask next ih => exact fun input => ih input (safe input) holds
  | act effect next ih =>
    intro s' moved inv
    obtain ⟨kept, owed, later⟩ := safe s' moved inv
    exact ⟨kept, owed, ih s' later (own _ _ owed (others _ _ moved holds))⟩

/-- Two proofs about the same thread make one of their conjunction, together with what
the steps both allow keep. -/
theorem Safe.both {e d' : Discipline σ} {F : σ → Prop}
    (rely : ∀ s s', d'.rely s s' → d.rely s s' ∧ e.rely s s' ∧ (F s → F s'))
    (inv : ∀ s, d'.inv s → d.inv s ∧ e.inv s)
    (step : ∀ s s', d'.inv s → F s → d.inv s' → e.inv s' → d.guar s s' → e.guar s s' →
      d'.inv s' ∧ d'.guar s s' ∧ F s')
    {Q Q' : α → σ → Prop} {thread : Thread σ ι α} {s : σ} (first : d.Safe Q thread s)
    (second : e.Safe Q' thread s) (holds : F s) :
    d'.Safe (fun value s => Q value s ∧ F s) thread s := by
  induction thread generalizing s with
  | done value => exact ⟨first, holds⟩
  | ask next ih => exact fun input => ih input (first input) (second input) holds
  | act effect next ih =>
    intro s' moved kept
    obtain ⟨before, beside, framed⟩ := rely s s' moved
    obtain ⟨firstInv, secondInv⟩ := inv s' kept
    obtain ⟨firstKept, firstOwed, firstRest⟩ := first s' before firstInv
    obtain ⟨secondKept, secondOwed, secondRest⟩ := second s' beside secondInv
    obtain ⟨kept, owed, holds⟩ :=
      step s' _ kept (framed holds) firstKept secondKept firstOwed secondOwed
    exact ⟨kept, owed, ih s' firstRest secondRest holds⟩

/-- A proof over a part of the state is one over the whole, where neither the others
nor the thread's own steps touch what else is known. -/
theorem Safe.lift (d' : Discipline τ) (get : τ → σ) (set : τ → σ → τ) (F : τ → Prop)
    (law : ∀ t s, get (set t s) = s) (inv : ∀ t, d'.inv t → d.inv (get t))
    (rely : ∀ t t', d'.rely t t' → d.rely (get t) (get t') ∧ (F t → F t'))
    (step : ∀ t s, d'.inv t → d.inv s → d.guar (get t) s → d'.inv (set t s) ∧ d'.guar t (set t s))
    (frame : ∀ t s, F t → F (set t s)) {Q : α → σ → Prop} {thread : Thread σ ι α} {t : τ}
    (safe : d.Safe Q thread (get t)) (holds : F t) :
    d'.Safe (fun value t => Q value (get t) ∧ F t) (thread.lift get set) t := by
  induction thread generalizing t with
  | done value => exact ⟨safe, holds⟩
  | ask next ih => exact fun input => ih input (safe input) holds
  | act effect next ih =>
    intro t' moved kept
    obtain ⟨others, framed⟩ := rely t t' moved
    obtain ⟨after, owed, rest⟩ := safe (get t') others (inv t' kept)
    obtain ⟨kept, owed⟩ := step t' _ kept after owed
    refine ⟨kept, owed, ih (get t') ?_ (frame t' _ (framed holds))⟩
    rw [law]
    exact rest

namespace Triple

variable {P P' : σ → Prop} {Q Q' : α → σ → Prop} {R : β → σ → Prop}

theorem pure {value : α} (holds : ∀ s, P s → Q value s) :
    d.Triple P (pure value : Thread σ ι α) Q := holds

theorem bind {first : Thread σ ι α} {next : α → Thread σ ι β} (head : d.Triple P first Q)
    (tail : ∀ value, d.Triple (Q value) (next value) R) : d.Triple P (first >>= next) R :=
  fun s holds => (head s holds).bind tail

theorem mono {thread : Thread σ ι α} (triple : d.Triple P thread Q) (before : ∀ s, P' s → P s)
    (after : ∀ value s, Q value s → Q' value s) : d.Triple P' thread Q' :=
  fun s holds => (triple s (before s holds)).mono after

theorem input : d.Triple P (Thread.input : Thread σ ι ι) fun _ => P := fun _ holds _ => holds

theorem lock [stable : d.Stable P] {f : σ → α × σ}
    (step : ∀ s, d.inv s → P s →
      d.inv (f s).2 ∧ d.guar s (f s).2 ∧ Q (f s).1 (f s).2) :
    d.Triple P (Thread.lock f : Thread σ ι α) Q :=
  fun _ holds s' rely inv => step s' inv (stable.keep rely holds)

theorem look [stable : d.Stable P] (refl : ∀ s, d.guar s s) {f : σ → α}
    (seen : ∀ s, d.inv s → P s → Q (f s) s) :
    d.Triple P (Thread.look f : Thread σ ι α) Q :=
  lock fun s inv holds => ⟨inv, refl s, seen s inv holds⟩

theorem update [stable : d.Stable P] {f : σ → σ} {Q : Unit → σ → Prop}
    (step : ∀ s, d.inv s → P s → d.inv (f s) ∧ d.guar s (f s) ∧ Q () (f s)) :
    d.Triple P (Thread.update f : Thread σ ι Unit) Q :=
  lock step

/-- A thread all of whose effects keep an assertion. -/
theorem of_each [stable : d.Stable P] {R : σ → σ → Prop} {thread : Thread σ ι α} (each : thread.Each R)
    (step : ∀ s s', R s s' → d.inv s → P s → d.inv s' ∧ d.guar s s' ∧ P s') :
    d.Triple P thread fun _ => P := by
  intro s holds
  induction thread generalizing s with
  | done value => exact holds
  | ask next ih => exact fun input => ih input (each input) s holds
  | act effect next ih =>
    intro s' moved inv
    obtain ⟨kept, owed, holds⟩ := step s' _ (each s').1 inv (stable.keep moved holds)
    exact ⟨kept, owed, ih s' (each s').2 _ holds⟩

end Triple

end Discipline

namespace Thread

variable {σ ι α β : Type} {rely P : σ → σ → Prop}

/-- Every step of the thread is one that `P` allows, as long as the others only move
along `rely`. -/
def Upholds (rely P : σ → σ → Prop) (thread : Thread σ ι α) : Prop :=
  Discipline.Triple { inv := fun _ => True, rely, guar := P } (fun _ => True) thread fun _ _ => True

theorem Upholds.bind {first : Thread σ ι α} {next : α → Thread σ ι β} (head : first.Upholds rely P)
    (tail : ∀ value, (next value).Upholds rely P) : (first >>= next).Upholds rely P :=
  Discipline.Triple.bind head tail

theorem Upholds.pure (value : α) : (pure value : Thread σ ι α).Upholds rely P := fun _ _ => trivial

theorem Upholds.input : (input : Thread σ ι ι).Upholds rely P := fun _ _ _ => trivial

theorem Upholds.lock {f : σ → α × σ} (kept : ∀ s, P s (f s).2) :
    (lock f : Thread σ ι α).Upholds rely P := fun _ _ s _ _ => ⟨trivial, kept s, trivial⟩

theorem Upholds.look {f : σ → α} (refl : ∀ s, P s s) : (look f : Thread σ ι α).Upholds rely P :=
  Upholds.lock refl

theorem Upholds.update {f : σ → σ} (kept : ∀ s, P s (f s)) :
    (update f : Thread σ ι Unit).Upholds rely P := Upholds.lock kept

/-- A thread that upholds a relation whatever the others do takes no other step. -/
theorem Upholds.each {thread : Thread σ ι α} (upholds : thread.Upholds (fun _ _ => True) P) :
    thread.Each P := by
  have of_safe : ∀ (thread : Thread σ ι α) (s : σ),
      Discipline.Safe { inv := fun _ => True, rely := fun _ _ => True, guar := P }
        (fun _ _ => True) thread s → thread.Each P := by
    intro thread s safe
    induction thread generalizing s with
    | done value => trivial
    | ask next ih => exact fun input => ih input s (safe input)
    | act effect next ih =>
      intro s'
      obtain ⟨-, allowed, rest⟩ := safe s' trivial trivial
      exact ⟨allowed, ih s' _ rest⟩
  induction thread with
  | done value => trivial
  | ask next ih => exact fun input => ih input fun s known => upholds s known input
  | act effect next ih => exact fun s => of_safe _ s (upholds s trivial) s

end Thread
