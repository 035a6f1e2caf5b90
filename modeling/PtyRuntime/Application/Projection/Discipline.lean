import PtyRuntime.Application.Projection.Core

/-! The worker's side of the bargain: what each of its steps owes, what holds while
the workspace lock is free, and the rules its programs are proved with. -/
namespace PtyRuntime
open Thread PtyRuntime.Core

namespace Core

/-- The workspace fits the residency. -/
structure Shape (k : Core) : Prop where
  live : k.residency = .resident ∨ k.residency = .parking → k.terminal = true ∧ k.source = none
  parked : k.residency = .parked → k.terminal = false ∧ k.source = some k.descriptor ∧
    k.reply = false ∧ k.resize = false
  usable : k.residency = .usable → k.terminal = true ∧ k.source.isSome
  restoring : k.residency = .restoring →
    k.terminal = false ∧ k.source.isSome ∧ k.restore = true
  inflight : k.restore = true → k.residency = .restoring ∨ k.Down

/-- What holds between the operations of a run, and while no run holds the lock. -/
structure Idle (k : Core) : Prop where
  empty : k.trace.hand = none
  calm : k.trace.poised = false
  shape : Shape k
  clean : k.trace.fed = k.trace.applied.flatten ∨ k.Down

/-- What a step of the worker owes. -/
structure Owes (k k' : Core) : Prop where
  admitted : k'.trace.admitted = k.trace.admitted ∧
    k'.policy.status.published = k.policy.status.published
  closing : k.closing = true → k'.closing = true
  /-- The step that decides to park. -/
  release : k.residency = .parking → k'.residency = .parked →
    k'.policy.status.published = k'.policy.status.processed ∧ k'.queue = [] ∧
      k'.reply = false ∧ k'.resize = false ∧ k'.trace.since = 0 ∧
      k'.trace.encoded = some k'.descriptor
  /-- The step that drops the live model. -/
  drop : k.terminal = true → k'.terminal = false → k'.closing = false →
    k'.source = some k'.descriptor ∧ k'.trace.encoded = some k'.descriptor ∧
      k'.reply = false ∧ k'.resize = false
  /-- Past a failure nothing more leaves the queue, unless the worker was poised. -/
  frozen : k.policy.status.failure.isSome → k.trace.poised = false → k'.closing = false →
    k'.policy.status.failure.isSome ∧ k'.trace.poised = false ∧ k'.taken <+: k.taken ∧
      (k'.trace.fed = k.trace.fed ∨ k'.trace.fed <+: k.taken.flatten)

theorem Owes.refl (k : Core) : Owes k k where
  admitted := ⟨rfl, rfl⟩
  closing := id
  release before after := by rw [before] at after; cases after
  drop before after := by rw [before] at after; cases after
  frozen failed calm _ := ⟨failed, calm, List.prefix_rfl, .inl rfl⟩

end Core

/-- One projection: its worker, and everything that runs beside it. -/
def projection : Contract Unit Coordinator Answer where
  inv c := Valid c.core
  idle _ c := Idle c.core
  guar _ c c' := Owes c.core c'.core
  meddle c c' := c'.core = c.core ∨ Interference c.core c'.core
  enters _ program := ∃ owner : Coordinator.Owner, program = owner.thread
  calls program := ∃ call : Coordinator.Call, program = call.thread

namespace Coordinator

theorem others_beside {role : Unit} {c c' : Coordinator} (step : projection.Others role c c') :
    c'.core = c.core ∨ Beside c.core c'.core := by
  rcases step with (same | step) | ⟨other, differs, -⟩
  · exact .inl same
  · exact .inr step.beside
  · exact absurd rfl differs

instance {A : Core → Prop} [steady : Steady A] (role : Unit) :
    (projection.discipline role).Stable fun c => A c.core where
  keep rely holds := by
    induction rely with
    | refl => exact holds
    | tail _ step ih =>
      rcases others_beside step with same | beside
      · exact same ▸ ih
      · exact steady.keep beside ih

/-- The worker, started where `A` holds, ends where `B` holds, whatever runs beside. -/
def Spec {α : Type} (A : Core → Prop) (work : Work α) (B : α → Core → Prop) : Prop :=
  (projection.discipline ()).Triple (fun c => A c.core) work fun value c => B value c.core

namespace Spec

variable {α β : Type} {A A' : Core → Prop} {B B' : α → Core → Prop}

theorem pure {value : α} (holds : ∀ k, A k → B value k) : Spec A (pure value) B :=
  fun c => holds c.core

/-- A program that is done leaves what held before. -/
theorem skip {value : α} : Spec A (Pure.pure value) fun _ => A := pure fun _ => id

theorem bind {C : β → Core → Prop} {first : Work α} {next : α → Work β} (head : Spec A first B)
    (tail : ∀ value, Spec (B value) (next value) C) : Spec A (first >>= next) C :=
  Discipline.Triple.bind head tail

theorem mono {work : Work α} (spec : Spec A work B) (before : ∀ k, A' k → A k)
    (after : ∀ value k, B value k → B' value k) : Spec A' work B' :=
  Discipline.Triple.mono spec (fun c => before c.core) fun value c => after value c.core

theorem weaken {work : Work α} (spec : Spec A work B) (after : ∀ value k, B value k → B' value k) :
    Spec A work B' := spec.mono (fun _ => id) after

theorem strengthen {work : Work α} (spec : Spec A work B) (before : ∀ k, A' k → A k) :
    Spec A' work B := spec.mono before fun _ _ => id

theorem input : Spec A (Thread.input : Work Answer) fun _ => A := Discipline.Triple.input

/-- A closing projection stays closing. -/
theorem closing {work : Work α} (spec : Spec A work B) :
    Spec (fun k => A k ∧ k.closing = true) work fun value k => B value k ∧ k.closing = true := by
  rintro c ⟨holds, ended⟩
  refine Discipline.Safe.frame (F := fun c => c.core.closing = true) (fun _ _ rely ended => ?_)
    (fun _ _ (owes : Owes _ _) => owes.closing) (spec c holds) ended
  induction rely with
  | refl => exact ended
  | tail _ step ih =>
    rcases others_beside step with same | beside
    · exact same ▸ ih
    · exact beside.closing ih

variable [Steady A]

theorem lock {f : Coordinator → α × Coordinator}
    (step : ∀ c, Valid c.core → A c.core →
      Valid (f c).2.core ∧ Owes c.core (f c).2.core ∧ B (f c).1 (f c).2.core) :
    Spec A (Thread.lock f) B := Discipline.Triple.lock step

theorem look {f : Coordinator → α} (seen : ∀ c, Valid c.core → A c.core → B (f c) c.core) :
    Spec A (Thread.look f) B :=
  Discipline.Triple.look (fun c => Owes.refl c.core) seen

theorem glance {f : Coordinator → α} : Spec A (Thread.look f) fun _ => A :=
  look fun _ _ holds => holds

theorem update {f : Coordinator → Coordinator} {B : Unit → Core → Prop}
    (step : ∀ c, Valid c.core → A c.core →
      Valid (f c).core ∧ Owes c.core (f c).core ∧ B () (f c).core) :
    Spec A (Thread.update f) B := lock step

/-- A step beside everything the arguments are about. -/
theorem aside {f : Coordinator → α × Coordinator} (same : ∀ c, (f c).2.core = c.core) :
    Spec A (Thread.lock f) fun _ => A :=
  lock fun c inv holds => by
    rw [same c]
    exact ⟨inv, Owes.refl _, holds⟩

theorem asideUpdate {f : Coordinator → Coordinator} (same : ∀ c, (f c).core = c.core) :
    Spec A (Thread.update f) fun _ => A := aside same

end Spec
end Coordinator
end PtyRuntime
