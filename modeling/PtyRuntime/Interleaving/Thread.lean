import Mathlib.Logic.Function.Basic
import Mathlib.Data.List.Basic

/-! Threads over a shared state, run one atomic step at a time with inputs from their
surroundings; what each step of a thread does, and what a whole run of it did. -/

/-- A thread asks its surroundings for an input, or performs one atomic effect. Its
continuation sees the state the effect was applied to. -/
inductive Thread (σ ι α : Type) where
  | done (value : α)
  | ask (next : ι → Thread σ ι α)
  | act (effect : σ → σ) (next : σ → Thread σ ι α)

namespace Thread

variable {σ τ ι α β : Type}

def bind : Thread σ ι α → (α → Thread σ ι β) → Thread σ ι β
  | done value, next => next value
  | ask first, next => ask fun input => (first input).bind next
  | act effect first, next => act effect fun s => (first s).bind next

instance : Monad (Thread σ ι) where
  pure := done
  bind := bind

def input : Thread σ ι ι := ask done

/-- One acquisition of a lock around `f`. -/
def lock (f : σ → α × σ) : Thread σ ι α := act (fun s => (f s).2) fun s => done (f s).1

def look (f : σ → α) : Thread σ ι α := lock fun s => (f s, s)

def update (f : σ → σ) : Thread σ ι Unit := lock fun s => ((), f s)

/-- The same thread over a larger state. -/
def lift (get : τ → σ) (set : τ → σ → τ) : Thread σ ι α → Thread τ ι α
  | done value => done value
  | ask next => ask fun input => (next input).lift get set
  | act effect next => act (fun t => set t (effect (get t))) fun t => (next (get t)).lift get set

/-- One step, with the input to use should the thread ask for it. -/
def step (s : σ) (input : ι) : Thread σ ι α → σ × Thread σ ι α
  | done value => (s, done value)
  | ask next => (s, next input)
  | act effect next => (effect s, next s)

/-- What is left to run, if anything. -/
def running : Thread σ ι α → Option (Thread σ ι α)
  | done _ => none
  | thread => some thread

/-- The thread run with no one else about, on exactly the inputs it asks for. -/
def alone : Thread σ ι α → σ → List ι → Option (α × σ)
  | done value, s, inputs => if inputs.isEmpty then some (value, s) else none
  | ask _, _, [] => none
  | ask next, s, input :: inputs => (next input).alone s inputs
  | act effect next, s, inputs => (next s).alone (effect s) inputs

/-- Every effect of the thread, whatever the surroundings do, satisfies `P`. -/
def Each (P : σ → σ → Prop) : Thread σ ι α → Prop
  | done _ => True
  | ask next => ∀ input, (next input).Each P
  | act effect next => ∀ s, P s (effect s) ∧ (next s).Each P

/-- The thread can end with a value after the listed effects of its own; anything
may happen to the state between them. -/
inductive Runs : Thread σ ι α → List (σ × σ) → α → Prop where
  | done (value : α) : Runs (done value) [] value
  | ask {next : ι → Thread σ ι α} {own : List (σ × σ)} {value : α} (input : ι)
      (rest : Runs (next input) own value) : Runs (ask next) own value
  | act {effect : σ → σ} {next : σ → Thread σ ι α} {own : List (σ × σ)} {value : α} (s : σ)
      (rest : Runs (next s) own value) : Runs (act effect next) ((s, effect s) :: own) value

section Each

variable {P : σ → σ → Prop}

theorem Each.bind {first : Thread σ ι α} {next : α → Thread σ ι β} (head : first.Each P)
    (tail : ∀ value, (next value).Each P) : (first >>= next).Each P := by
  induction first with
  | done value => exact tail value
  | ask first ih => exact fun input => ih input (head input)
  | act effect first ih => exact fun s => ⟨(head s).1, ih s (head s).2⟩

theorem Each.pure (value : α) : (pure value : Thread σ ι α).Each P := trivial

theorem Each.input : (input : Thread σ ι ι).Each P := fun _ => trivial

theorem Each.lock {f : σ → α × σ} (kept : ∀ s, P s (f s).2) :
    (lock f : Thread σ ι α).Each P := fun s => ⟨kept s, trivial⟩

theorem Each.update {f : σ → σ} (kept : ∀ s, P s (f s)) : (update f : Thread σ ι Unit).Each P :=
  Each.lock kept

theorem Each.mono {Q : σ → σ → Prop} {thread : Thread σ ι α} (each : thread.Each P)
    (weaker : ∀ s s', P s s' → Q s s') : thread.Each Q := by
  induction thread with
  | done value => trivial
  | ask next ih => exact fun input => ih input (each input)
  | act effect next ih => exact fun s => ⟨weaker _ _ (each s).1, ih s (each s).2⟩

theorem Each.lift {Q : τ → τ → Prop} {get : τ → σ} {set : τ → σ → τ} {thread : Thread σ ι α}
    (each : thread.Each P) (larger : ∀ t s, P (get t) s → Q t (set t s)) :
    (thread.lift get set).Each Q := by
  induction thread with
  | done value => trivial
  | ask next ih => exact fun input => ih input (each input)
  | act effect next ih => exact fun t => ⟨larger t _ (each (get t)).1, ih (get t) (each (get t)).2⟩

end Each

section Runs

variable {own : List (σ × σ)}

theorem Runs.of_pure {value result : α} (runs : (pure value : Thread σ ι α).Runs own result) :
    own = [] ∧ result = value := by
  cases runs
  exact ⟨rfl, rfl⟩

theorem Runs.of_input {result : ι} (runs : (Thread.input : Thread σ ι ι).Runs own result) :
    own = [] := by
  cases runs with
  | ask input rest =>
    cases rest
    rfl

theorem Runs.of_lock {f : σ → α × σ} {result : α} (runs : (Thread.lock f : Thread σ ι α).Runs own result) :
    ∃ s, own = [(s, (f s).2)] ∧ result = (f s).1 := by
  cases runs with
  | act s rest =>
    cases rest
    exact ⟨s, rfl, rfl⟩

theorem Runs.of_bind {first : Thread σ ι α} {next : α → Thread σ ι β} {result : β}
    (runs : (first >>= next).Runs own result) :
    ∃ early late value, own = early ++ late ∧ first.Runs early value ∧ (next value).Runs late result := by
  induction first generalizing own with
  | done value => exact ⟨[], own, value, rfl, .done value, runs⟩
  | ask first ih =>
    cases runs with
    | ask input rest =>
      obtain ⟨early, late, value, split, head, tail⟩ := ih input rest
      exact ⟨early, late, value, split, .ask input head, tail⟩
  | act effect first ih =>
    cases runs with
    | act s rest =>
      obtain ⟨early, late, value, split, head, tail⟩ := ih s rest
      exact ⟨(s, effect s) :: early, late, value, by rw [split]; rfl, .act s head, tail⟩

end Runs

section Alone

variable {s : σ} {inputs later : List ι}

@[simp] theorem alone_pure (value : α) : (pure value : Thread σ ι α).alone s [] = some (value, s) := rfl

theorem alone_lock (f : σ → α × σ) : (lock f : Thread σ ι α).alone s [] = some (f s) := rfl

theorem alone_lock_bind (f : σ → α × σ) (next : α → Thread σ ι β) :
    (lock f >>= next).alone s inputs = (next (f s).1).alone (f s).2 inputs := rfl

theorem alone_input_bind (next : ι → Thread σ ι β) (first : ι) :
    (Thread.input >>= next).alone s (first :: inputs) = (next first).alone s inputs := rfl

theorem alone_bind {first : Thread σ ι α} {next : α → Thread σ ι β} {value : α} {s' : σ}
    (ended : first.alone s inputs = some (value, s')) :
    (first >>= next).alone s (inputs ++ later) = (next value).alone s' later := by
  induction first generalizing s inputs with
  | done result =>
    unfold alone at ended
    split at ended
    · rename_i none
      obtain ⟨rfl, rfl⟩ := Prod.mk.inj (Option.some.inj ended)
      rw [List.isEmpty_iff.mp none]
      rfl
    · cases ended
  | ask first ih =>
    cases inputs with
    | nil => cases ended
    | cons input inputs => exact ih input ended
  | act effect first ih => exact ih s ended

end Alone

end Thread
