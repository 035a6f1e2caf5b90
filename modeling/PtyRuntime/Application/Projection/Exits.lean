import PtyRuntime.Application.Projection.Along
import PtyRuntime.Application.Projection.JobEffects

/-! The exit marker and the final drain. The marker waits in the queue behind the output
admitted before it, and either of the two drops the records of a program at work. Each
lemma says what one movement does to that. -/
namespace PtyRuntime
open Thread

/-- The part of a projection that the exit marker and the final drain are about. -/
structure Leaving where
  closing : Bool
  queue : List Command
  noted : Bool
  drain : Bool
  admitted : List Bytes
  applied : List Bytes
  hand : Option Bytes
  program : ProgramStatusState
  log : ExitLog

def Coordinator.leaving (c : Coordinator) : Leaving where
  closing := c.admission.closing
  queue := c.admission.queue
  noted := c.admission.processExitQueued
  drain := c.admission.outputDrain.isSome
  admitted := c.trace.admitted
  applied := c.trace.applied
  hand := c.trace.hand
  program := c.programStatus
  log := c.exits

/-- No record is of a program at work. -/
def ProgramStatusState.Calm (s : ProgramStatusState) : Prop :=
  ∀ store, s.store = some store → ∀ r ∈ store.records, r.state ≠ .working ∧ r.state ≠ .blocked

namespace Leaving

/-- What everyone keeps. -/
structure Ordered (v : Leaving) : Prop where
  emptied : v.closing = true → v.queue = []
  noted : v.noted = v.log.queuedBehind.isSome
  once : v.log.appliedAfter.length + v.queue.count .processExited ≤ v.noted.toNat
  behind : ∀ ahead rest, v.queue = ahead ++ .processExited :: rest →
    ∀ before, v.log.queuedBehind = some before →
      before ++ rest.filterMap Command.output? = v.admitted
  after : ∀ processed ∈ v.log.appliedAfter, ∃ before,
    v.log.queuedBehind = some before ∧ before <+: processed
  settled : v.log.settled = true → v.drain = true ∧ v.hand = none ∧
    (v.closing = false → v.admitted = v.applied)
  drained : v.program.drained = true → v.log.settled = true
  calm : v.log.settled = true → v.program.exited = true → v.program.Calm
  spared : v.log.raced = false → v.log.restored = 0

/-- What a step of another thread does to it. -/
inductive Beside : Leaving → Leaving → Prop where
  | same (v : Leaving) : Beside v v
  | push {v : Leaving} (command : Command) (alive : v.closing = false)
      (silent : command.output? = none) (other : command ≠ .processExited) :
      Beside v { v with queue := v.queue ++ [command] }
  | output {v : Leaving} (bytes : Bytes) (alive : v.closing = false) (running : v.drain = false) :
      Beside v { v with queue := v.queue ++ [.output bytes], admitted := v.admitted ++ [bytes] }
  | exit {v : Leaving} (alive : v.closing = false) (first : v.noted = false) :
      Beside v { v with
        queue := v.queue ++ [.processExited], noted := true, log := v.log.queue v.admitted v.queue }
  | drain (v : Leaving) : Beside v { v with drain := true }
  | fail (v : Leaving) : Beside v { v with queue := v.queue.filter (·.isOutput) }
  | close (v : Leaving) : Beside v { v with closing := true, queue := [] }

/-- What the worker does to it where no output is taken, counted or admitted and no
marker is moved. -/
inductive Passing : Leaving → Leaving → Prop where
  | same (v : Leaving) : Passing v v
  | fail (v : Leaving) : Passing v { v with queue := v.queue.filter (·.isOutput) }
  | giveBack {v : Leaving} (command : Command) (alive : v.closing = false)
      (other : command ≠ .processExited) (hand : Option Bytes) (put : hand = v.hand ∨ hand = none) :
      Passing v { v with queue := command :: v.queue, hand }
  | release (v : Leaving) : Passing v { v with hand := none }

/-- An assertion of the worker that no other thread can falsify. -/
class Lasting (P : Leaving → Prop) : Prop where
  keep : ∀ {v v' : Leaving}, Beside v v' → P v → P v'

variable {v v' : Leaving}

theorem not_mem_outputs (queue : List Command) :
    Command.processExited ∉ queue.filter (·.isOutput) := fun member => by
  cases (List.mem_filter.mp member).2

/-- A marker behind which something was appended is the marker that was there. -/
theorem snoc_split {queue ahead rest : List Command} {command : Command}
    (other : command ≠ .processExited)
    (split : queue ++ [command] = ahead ++ .processExited :: rest) :
    ∃ before, rest = before ++ [command] ∧ queue = ahead ++ .processExited :: before := by
  rcases List.eq_nil_or_concat rest with rfl | ⟨before, last, rfl⟩
  · exact absurd (List.singleton_inj.mp (List.append_inj' split rfl).2) other
  · rw [List.concat_eq_append] at split ⊢
    have split : queue ++ [command] = (ahead ++ .processExited :: before) ++ [last] := by simpa using split
    obtain ⟨same, ended⟩ := List.append_inj' split rfl
    obtain rfl := List.singleton_inj.mp ended
    exact ⟨before, rfl, same⟩

theorem Ordered.unmarked (ordered : v.Ordered) (first : v.noted = false) :
    v.log.appliedAfter = [] ∧ Command.processExited ∉ v.queue := by
  have once := ordered.once
  rw [first] at once
  have applied : v.log.appliedAfter.length = 0 := by
    simp only [Bool.toNat_false] at once
    omega
  have absent : v.queue.count .processExited = 0 := by
    simp only [Bool.toNat_false] at once
    omega
  exact ⟨List.length_eq_zero_iff.mp applied, List.count_eq_zero.mp absent⟩

/-- Whoever runs beside the worker keeps the order. -/
theorem Ordered.beside (ordered : v.Ordered) (beside : Beside v v') : v'.Ordered := by
  cases beside with
  | same => exact ordered
  | push command alive silent other =>
    refine { ordered with
      emptied := fun closed => absurd (alive.symm.trans closed) (by decide)
      once := ?_
      behind := fun ahead rest split => ?_ }
    · rw [List.count_append, List.count_singleton, if_neg (by simpa using other)]
      exact ordered.once
    · obtain ⟨before, rfl, was⟩ := snoc_split other split
      rw [List.filterMap_append, List.filterMap_cons_none silent, List.filterMap_nil, List.append_nil]
      exact ordered.behind ahead before was
  | output bytes alive running =>
    refine { ordered with
      emptied := fun closed => absurd (alive.symm.trans closed) (by decide)
      once := ?_
      behind := fun ahead rest split before queued => ?_
      settled := fun settled => ?_ }
    · rw [List.count_append, List.count_singleton, if_neg (by simp)]
      exact ordered.once
    · have other : Command.output bytes ≠ .processExited := nofun
      obtain ⟨between, rfl, was⟩ := snoc_split other split
      rw [List.filterMap_append, ← List.append_assoc, ordered.behind ahead between was before queued]
      rfl
    · exact absurd (running.symm.trans (ordered.settled settled).1) (by decide)
  | exit alive first =>
    obtain ⟨applied, absent⟩ := ordered.unmarked first
    have log : (v.log.queue v.admitted v.queue).appliedAfter = [] := applied
    refine {
      emptied := fun closed => absurd (alive.symm.trans closed) (by decide)
      noted := rfl
      once := ?_
      behind := fun ahead rest split before queued => ?_
      after := fun processed member => ?_
      settled := ordered.settled
      drained := ordered.drained
      calm := ordered.calm
      spared := fun calm => ordered.spared (Bool.or_eq_false_iff.mp calm).1 }
    · rw [log, List.count_append, List.count_eq_zero.mpr absent]
      exact Nat.le_refl 1
    · obtain rfl := Option.some.inj queued
      rcases List.eq_nil_or_concat rest with rfl | ⟨between, last, rfl⟩
      · exact List.append_nil _
      · have inside : Command.processExited ∈ v.queue := by
          have split : v.queue ++ [.processExited] = (ahead ++ .processExited :: between) ++ [last] := by
            simpa using split
          rw [(List.append_inj' split rfl).1]
          exact List.mem_append_right _ List.mem_cons_self
        exact absurd inside absent
    · rw [log] at member
      cases member
  | drain => exact { ordered with settled := fun settled => ⟨rfl, (ordered.settled settled).2⟩ }
  | fail =>
    have absent := not_mem_outputs v.queue
    refine { ordered with
      emptied := fun closed => ?_
      once := ?_
      behind := fun ahead rest split => ?_ }
    · change v.queue.filter _ = []
      rw [ordered.emptied closed]
      rfl
    · rw [List.count_eq_zero.mpr absent]
      exact (Nat.le_add_right _ _).trans ordered.once
    · have split : v.queue.filter (·.isOutput) = ahead ++ .processExited :: rest := split
      exact absurd (split ▸ List.mem_append_right _ List.mem_cons_self) absent
  | close =>
    refine { ordered with
      emptied := fun _ => rfl
      once := (Nat.le_add_right _ _).trans ordered.once
      behind := fun ahead rest split => ?_
      settled := fun settled => ?_ }
    · cases ahead <;> cases split
    · exact ⟨(ordered.settled settled).1, (ordered.settled settled).2.1, fun wrong => nomatch wrong⟩

theorem Ordered.passing (ordered : v.Ordered) (passing : Passing v v') : v'.Ordered := by
  cases passing with
  | same => exact ordered
  | fail => exact ordered.beside (.fail v)
  | release => exact { ordered with settled := fun settled => ⟨(ordered.settled settled).1, rfl, (ordered.settled settled).2.2⟩ }
  | giveBack command alive other hand put =>
    refine { ordered with
      emptied := fun closed => absurd (alive.symm.trans closed) (by decide)
      once := ?_
      behind := fun ahead rest split => ?_
      settled := fun settled => ?_ }
    · rw [List.count_cons_of_ne other]
      exact ordered.once
    · cases ahead with
      | nil => exact absurd (List.cons.inj split).1 other
      | cons first ahead => exact ordered.behind ahead rest (List.cons.inj split).2
    · obtain ⟨drained, empty, level⟩ := ordered.settled settled
      exact ⟨drained, put.elim (·.trans empty) id, level⟩

/-- The worker holds the marker, behind which nothing admitted earlier is left. -/
structure InHand (v : Leaving) : Prop where
  noted : v.noted = true
  unapplied : v.log.appliedAfter = []
  absent : Command.processExited ∉ v.queue
  due : ∃ before, v.log.queuedBehind = some before ∧ before <+: v.applied

/-- The worker has seen that the drain is settled. -/
structure Drained (v : Leaving) : Prop where
  drain : v.drain = true
  level : v.closing = false → v.admitted = v.applied

/-- A queue with nothing in it but the marker is not one the worker is about to look at. -/
def Unmarked (queue : List Command) : Prop := queue ≠ [] → ∃ command ∈ queue, command ≠ .processExited

/-- The worker has looked for the marker, and has not been overtaken by it since. -/
def Looking (v : Leaving) : Prop := v.log.looked = true → v.log.raced = false → Unmarked v.queue

theorem unmarked_of_not_mem {queue : List Command} (absent : Command.processExited ∉ queue) :
    Unmarked queue := by
  intro some
  obtain ⟨command, member⟩ := List.exists_mem_of_ne_nil _ some
  exact ⟨command, member, fun marker => absent (marker ▸ member)⟩

theorem Unmarked.snoc {queue : List Command} (unmarked : Unmarked queue) (command : Command)
    (pushed : queue ≠ [] ∨ command ≠ .processExited) : Unmarked (queue ++ [command]) := by
  intro _
  rcases pushed with some | other
  · obtain ⟨first, member, differs⟩ := unmarked some
    exact ⟨first, List.mem_append_left _ member, differs⟩
  · exact ⟨command, List.mem_append_right _ List.mem_cons_self, other⟩

instance : Lasting InHand where
  keep beside inHand := by
    have noted := inHand.noted
    cases beside with
    | same => exact inHand
    | push command alive silent other =>
      exact { inHand with absent := by simpa [inHand.absent] using other.symm }
    | output bytes => exact { inHand with absent := by simp [inHand.absent] }
    | exit alive first => exact absurd (first.symm.trans noted) (by decide)
    | drain => exact { inHand with }
    | fail => exact { inHand with absent := not_mem_outputs _ }
    | close => exact { inHand with absent := List.not_mem_nil }

instance : Lasting Drained where
  keep beside settling := by
    have drain := settling.drain
    cases beside with
    | same => exact settling
    | push | exit | fail => exact ⟨drain, settling.level⟩
    | output bytes alive running => exact absurd (running.symm.trans drain) (by decide)
    | drain => exact ⟨rfl, settling.level⟩
    | close => exact ⟨drain, fun wrong => nomatch wrong⟩

instance : Lasting Looking where
  keep {v v'} beside looking looked calm := by
    cases beside with
    | same => exact looking looked calm
    | push command alive silent other => exact (looking looked calm).snoc command (.inr other)
    | output bytes => exact (looking looked calm).snoc _ (.inr nofun)
    | exit alive first =>
      obtain ⟨calm, busy⟩ := Bool.or_eq_false_iff.mp calm
      have looked : v.log.looked = true := looked
      rw [looked, Bool.true_and] at busy
      exact (looking looked calm).snoc _ (.inl fun empty => by simp [empty] at busy)
    | drain => exact looking looked calm
    | fail => exact unmarked_of_not_mem (not_mem_outputs v.queue)
    | close => exact fun some => absurd rfl some

/-- Output is conserved while the projection is open. -/
def Conserved (v : Leaving) : Prop :=
  v.closing = false → v.admitted = v.applied ++ v.hand.toList ++ v.queue.filterMap Command.output?

theorem Ordered.alive (ordered : v.Ordered) {command : Command} {rest : List Command}
    (front : v.queue = command :: rest) : v.closing = false := by
  by_contra closed
  have empty := ordered.emptied (by simpa using closed)
  cases front.symm.trans empty

/-- What is behind a command stays behind it when the command is gone. -/
theorem Ordered.tail (ordered : v.Ordered) {command : Command} {rest : List Command}
    (front : v.queue = command :: rest) : Ordered { v with queue := rest } := by
  refine { ordered with
    emptied := fun closed => absurd ((ordered.alive front).symm.trans closed) (by decide)
    once := ?_
    behind := fun ahead after split => ?_ }
  · have once := ordered.once
    rw [front] at once
    exact (Nat.add_le_add_left (List.count_le_count_cons) _).trans once
  · refine ordered.behind (command :: ahead) after ?_
    rw [front, List.cons_append, ← show rest = _ from split]

/-- An output that is taken was still to be processed, so no drain has settled. -/
theorem Ordered.takeOutput (ordered : v.Ordered) (conserved : v.Conserved) {bytes : Bytes}
    {rest : List Command} (front : v.queue = .output bytes :: rest) :
    Ordered { v with queue := rest, hand := some bytes } := by
  refine { ordered.tail front with settled := fun settled => ?_ }
  have alive := ordered.alive front
  obtain ⟨-, empty, level⟩ := ordered.settled settled
  have conserved := conserved alive
  rw [level alive, empty, front] at conserved
  simp [Command.output?] at conserved

/-- The marker is taken when everything admitted before it has been processed. -/
theorem Ordered.takeMarker (ordered : v.Ordered) (conserved : v.Conserved) (empty : v.hand = none)
    {rest : List Command} (front : v.queue = .processExited :: rest) :
    Ordered { v with queue := rest } ∧ InHand { v with queue := rest } := by
  refine ⟨ordered.tail front, ?_⟩
  have once := ordered.once
  rw [front, List.count_cons_self] at once
  have bound := Bool.toNat_le v.noted
  have noted : v.noted = true := by
    by_contra unnoted
    rw [Bool.not_eq_true] at unnoted
    rw [unnoted, Bool.toNat_false] at once
    omega
  have unapplied : v.log.appliedAfter.length = 0 := by omega
  have absent : rest.count .processExited = 0 := by omega
  obtain ⟨before, queued⟩ := Option.isSome_iff_exists.mp (ordered.noted ▸ noted)
  refine ⟨noted, List.length_eq_zero_iff.mp unapplied, List.count_eq_zero.mp absent, before, queued, ?_⟩
  have level := ordered.behind [] rest front before queued
  rw [conserved (ordered.alive front), empty, front, List.filterMap_cons_none rfl] at level
  have same : before = v.applied := by
    rw [List.append_cancel_right level, Option.toList_none, List.append_nil]
  exact same ▸ List.prefix_rfl

/-- The worker is done with the marker. -/
theorem Ordered.apply (ordered : v.Ordered) (inHand : InHand v) {program : ProgramStatusState}
    (drained : program.drained = v.program.drained)
    (calm : v.log.settled = true → program.exited = true → program.Calm) :
    Ordered { v with log := v.log.apply v.applied, program } := by
  have applied : (v.log.apply v.applied).appliedAfter = [v.applied] := by
    rw [ExitLog.apply, inHand.unapplied]
    rfl
  refine { ordered with
    once := ?_
    after := fun processed member => ?_
    drained := fun again => ordered.drained (drained ▸ again)
    calm := calm }
  · rw [applied, List.count_eq_zero.mpr inHand.absent, inHand.noted]
    exact Nat.le_refl 1
  · rw [applied] at member
    rw [List.mem_singleton.mp member]
    exact inHand.due

theorem Ordered.settle (ordered : v.Ordered) (settling : Drained v) (empty : v.hand = none)
    {program : ProgramStatusState} (calm : program.exited = true → program.Calm) :
    Ordered { v with log := { v.log with settled := true }, program } :=
  { ordered with
    settled := fun _ => ⟨settling.drain, empty, settling.level⟩
    drained := fun _ => rfl
    calm := fun _ => calm }

/-- Nothing is said of the records while a chunk is being applied. -/
theorem Ordered.report (ordered : v.Ordered) {bytes : Bytes} (held : v.hand = some bytes)
    {program : ProgramStatusState} (drained : program.drained = v.program.drained) :
    Ordered { v with program } := by
  have unsettled : v.log.settled ≠ true := fun settled => by
    cases held.symm.trans (ordered.settled settled).2.1
  exact { ordered with
    drained := fun again => ordered.drained (drained ▸ again)
    calm := fun settled => absurd settled unsettled }

theorem Ordered.count (ordered : v.Ordered) {bytes : Bytes} (held : v.hand = some bytes) :
    Ordered { v with applied := v.applied ++ [bytes], hand := none } :=
  { ordered with settled := fun settled => by cases held.symm.trans (ordered.settled settled).2.1 }

theorem Ordered.clear (ordered : v.Ordered) {program : ProgramStatusState} (gone : program.store = none)
    (drained : program.drained = v.program.drained) : Ordered { v with program } :=
  { ordered with
    drained := fun again => ordered.drained (drained ▸ again)
    calm := fun _ _ store kept => by cases gone.symm.trans kept }

theorem Ordered.close (ordered : v.Ordered) : Ordered { v with closing := true, queue := [] } :=
  ordered.beside (.close v)

theorem Ordered.lookAgain (ordered : v.Ordered) (looked : v.log.looked = true) (looking : Looking v) :
    Ordered { v with log := v.log.lookAgain v.queue } := by
  refine { ordered with spared := fun calm => ?_ }
  have other : ¬(v.queue ≠ [] ∧ v.queue.all (· == .processExited)) := by
    rintro ⟨some, only⟩
    obtain ⟨command, member, differs⟩ := looking looked calm some
    exact differs (by simpa using List.all_eq_true.mp only command member)
  change (if v.queue ≠ [] ∧ v.queue.all (· == .processExited) then _ else _) = 0
  rw [if_neg other]
  exact ordered.spared calm

end Leaving
end PtyRuntime
