import PtyRuntime.Application.Projection.CallerLaws
import PtyRuntime.Interleaving.Layered

/-! Rules for proving more of a projection's programs than its contract says, with
what the contract says of them taken for granted. -/
namespace PtyRuntime
open Thread PtyRuntime.Core

namespace Coordinator

/-- The worker, started where `A` and `F` hold, ends where `B` and `G` hold. What is
asserted of the core is proved by the contract, the rest by the addition. -/
def Along {α : Type} (a : Addition Unit Coordinator) (A : Core → Prop) (F : Coordinator → Prop)
    (work : Work α) (B : α → Core → Prop) (G : α → Coordinator → Prop) : Prop :=
  ((projection.extend a).discipline ()).Triple (fun c => A c.core ∧ F c) work
    fun value c => B value c.core ∧ G value c

/-- No job is in flight. -/
def Jobless (c : Coordinator) : Prop := c.workspace.io.isNone = true

/-- What every run of the others is known to be. -/
class Tracks (a : Addition Unit Coordinator) (W : outParam (Coordinator → Coordinator → Prop)) :
    Prop where
  wider : ∀ c c', ((projection.extend a).discipline ()).rely c c' → W c c'

theorem Spec.of_input {α : Type} {A : Core → Prop} {next : Answer → Work α} {B : α → Core → Prop}
    (spec : Spec A (Thread.input >>= next) B) (a : Answer) : Spec A (next a) B :=
  fun c holds => spec c holds a

namespace Along

variable {α β : Type} {a : Addition Unit Coordinator} {A A' : Core → Prop}
  {F F' : Coordinator → Prop} {B B' : α → Core → Prop} {G G' : α → Coordinator → Prop}

theorem stable [steady : a.Steady F] : ((projection.extend a).discipline ()).Stable F := by
  refine Contract.stable_of_step fun c c' step holds => ?_
  rcases step with meddled | ⟨other, differs, -⟩
  · exact steady.keep meddled.2 holds
  · exact absurd rfl differs

theorem pure {value : α} (holds : ∀ c, A c.core → F c → B value c.core ∧ G value c) :
    Along a A F (pure value) B G := fun c both => holds c both.1 both.2

theorem bind {C : β → Core → Prop} {H : β → Coordinator → Prop} {first : Work α}
    {next : α → Work β} (head : Along a A F first B G)
    (tail : ∀ value, Along a (B value) (G value) (next value) C H) :
    Along a A F (first >>= next) C H := Discipline.Triple.bind head tail

theorem mono {work : Work α} (along : Along a A F work B G)
    (before : ∀ c, A' c.core → F' c → A c.core ∧ F c)
    (after : ∀ value c, B value c.core → G value c → B' value c.core ∧ G' value c) :
    Along a A' F' work B' G' :=
  Discipline.Triple.mono along (fun c both => before c both.1 both.2)
    fun value c both => after value c both.1 both.2

theorem weaken {work : Work α} (along : Along a A F work B G)
    (after : ∀ value c, B value c.core → G value c → B' value c.core ∧ G' value c) :
    Along a A F work B' G' := along.mono (fun _ core rest => ⟨core, rest⟩) after

theorem strengthen {work : Work α} (along : Along a A F work B G)
    (before : ∀ c, A' c.core → F' c → A c.core ∧ F c) : Along a A' F' work B G :=
  along.mono before fun _ _ core rest => ⟨core, rest⟩

theorem input : Along a A F (Thread.input : Work Answer) (fun _ => A) fun _ => F :=
  Discipline.Triple.input

/-- A closing projection stays closing. -/
theorem closing {work : Work α} (along : Along a A F work B G) :
    Along a (fun k => A k ∧ k.closing = true) F work (fun value k => B value k ∧ k.closing = true)
      G := by
  rintro c ⟨⟨core, ended⟩, rest⟩
  have stays : ((projection.extend a).discipline ()).Stable fun c => c.core.closing = true := by
    refine Contract.stable_of_step fun c c' step ended => ?_
    rcases others_beside step.base with same | beside
    · exact same ▸ ended
    · exact beside.closing ended
  have own : ∀ c c', ((projection.extend a).discipline ()).guar c c' → c.core.closing = true →
      c'.core.closing = true := fun _ _ owed => owed.1.closing
  exact (Discipline.Safe.frame (fun _ _ => stays.keep) own (along c ⟨core, rest⟩) ended).mono
    fun _ _ both => ⟨⟨both.1.1, both.2⟩, both.1.2⟩

/-- A program the addition is not about. -/
theorem aside {W R : Coordinator → Coordinator → Prop} {work : Work α} [steady : a.Steady F]
    [tracks : Tracks a W] [neutral : a.Neutral () R] (base : Spec A work B)
    (upholds : work.Upholds W R) : Along a A F work B fun _ => F := by
  refine Contract.Triple.along base stable tracks.wider upholds fun c c' step _ _ _ inv holds => ?_
  obtain ⟨kept, owed, meddled⟩ := neutral.step step inv
  exact ⟨kept, owed, steady.keep meddled holds⟩

variable [Core.Steady A] [a.Steady F]

theorem lock {f : Coordinator → α × Coordinator} (base : Spec A (Thread.lock f) B)
    (step : ∀ c, Valid c.core → A c.core → a.inv c → F c → B (f c).1 (f c).2.core →
      a.inv (f c).2 ∧ a.guar () c (f c).2 ∧ G (f c).1 (f c).2) :
    Along a A F (Thread.lock f) B G :=
  Contract.Triple.step base inferInstance stable
    fun c valid core inv holds _ _ after => step c valid core inv holds after

theorem update {f : Coordinator → Coordinator} {B : Unit → Core → Prop}
    {G : Unit → Coordinator → Prop} (base : Spec A (Thread.update f) B)
    (step : ∀ c, Valid c.core → A c.core → a.inv c → F c → B () (f c).core →
      a.inv (f c) ∧ a.guar () c (f c) ∧ G () (f c)) :
    Along a A F (Thread.update f) B G := lock base step

theorem look {f : Coordinator → α} (refl : ∀ c, a.guar () c c) (base : Spec A (Thread.look f) B)
    (seen : ∀ c, Valid c.core → A c.core → a.inv c → F c → G (f c) c) :
    Along a A F (Thread.look f) B G :=
  lock base fun c valid core inv holds _ => ⟨inv, refl c, seen c valid core inv holds⟩

end Along

/-- As `Along`, with nothing asserted of the core: what the contract says of the program
is added once it is needed. -/
def Over {α : Type} (a : Addition Unit Coordinator) (F : Coordinator → Prop) (work : Work α)
    (G : α → Coordinator → Prop) : Prop := (projection.overlay a ()).Triple F work G

namespace Over

variable {α β : Type} {a : Addition Unit Coordinator} {F F' : Coordinator → Prop}
  {G G' : α → Coordinator → Prop}

theorem along {A : Core → Prop} {work : Work α} {B : α → Core → Prop} (upper : Over a F work G)
    (base : Spec A work B) : Along a A F work B G := Contract.Triple.join base upper

theorem pure {value : α} (holds : ∀ c, F c → G value c) : Over a F (pure value) G := holds

theorem bind {H : β → Coordinator → Prop} {first : Work α} {next : α → Work β}
    (head : Over a F first G) (tail : ∀ value, Over a (G value) (next value) H) :
    Over a F (first >>= next) H := Discipline.Triple.bind head tail

theorem mono {work : Work α} (upper : Over a F work G) (before : ∀ c, F' c → F c)
    (after : ∀ value c, G value c → G' value c) : Over a F' work G' :=
  Discipline.Triple.mono upper before after

theorem weaken {work : Work α} (upper : Over a F work G) (after : ∀ value c, G value c → G' value c) :
    Over a F work G' := upper.mono (fun _ => id) after

theorem strengthen {work : Work α} (upper : Over a F work G) (before : ∀ c, F' c → F c) :
    Over a F' work G := upper.mono before fun _ _ => id

theorem input : Over a F (Thread.input : Work Answer) fun _ => F := Discipline.Triple.input

variable [steady : a.Steady F]

/-- A program the addition is not about. -/
theorem aside {W R : Coordinator → Coordinator → Prop} {work : Work α} [tracks : Tracks a W]
    [neutral : a.Neutral () R] (upholds : work.Upholds W R) : Over a F work fun _ => F := by
  refine Contract.overlay_aside Along.stable tracks.wider upholds fun c c' step inv holds => ?_
  obtain ⟨kept, owed, meddled⟩ := neutral.step step inv
  exact ⟨kept, owed, steady.keep meddled holds⟩

theorem lock {f : Coordinator → α × Coordinator}
    (step : ∀ c, Valid c.core → a.inv c → F c →
      a.inv (f c).2 ∧ a.guar () c (f c).2 ∧ G (f c).1 (f c).2) : Over a F (Thread.lock f) G :=
  Contract.overlay_lock Along.stable step

theorem update {f : Coordinator → Coordinator} {G : Unit → Coordinator → Prop}
    (step : ∀ c, Valid c.core → a.inv c → F c → a.inv (f c) ∧ a.guar () c (f c) ∧ G () (f c)) :
    Over a F (Thread.update f) G := lock step

theorem look {f : Coordinator → α} (refl : ∀ c, a.guar () c c)
    (seen : ∀ c, Valid c.core → a.inv c → F c → G (f c) c) : Over a F (Thread.look f) G :=
  lock fun c valid inv holds => ⟨inv, refl c, seen c valid inv holds⟩

end Over
end Coordinator
end PtyRuntime
