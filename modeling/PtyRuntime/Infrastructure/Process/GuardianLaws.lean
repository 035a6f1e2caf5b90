import PtyRuntime.Infrastructure.Process.Guardian

/-! What one frame, one read and one service step can do to the host's view. Every
change is one of a few moves, each with what the owner saw; the invariants of
the owner are derived from the moves alone. -/
namespace PtyRuntime.Guardian

/-- Whether the frame names the workload. -/
def NamesWorkload (f : Frame) : Prop := f.kind = .started ∨ f.kind = .admitted

def HelloShape (sid : Int32) (v : Values) : Prop :=
  v.first = sid ∧ (0 : Int32) < v.second ∧ v.second ≠ sid ∧ v.third = 0 ∧ v.fourth = 0

def StartShape (sid : Int32) (v : Values) : Prop :=
  (0 : Int32) < v.first ∧ v.first ≠ sid ∧ v.first ≠ v.second ∧ v.third = sid ∧ v.fourth = sid

/-- The frames that pass every check, and the state that each leaves. -/
inductive Accepts (g : Guardian) (index : Fin 2) : Frame → Guardian → Prop
  | hello {generation v} (shape : HelloShape g.sid v)
      (known : ∀ i old, g.hello i = some old → old = v) :
      Accepts g index ⟨.hello, generation, v⟩
        { g with hello := Function.update g.hello index (some v) }
  | started {generation v} (one : index = 1) (shape : StartShape g.sid v)
      (hello : ∃ w, g.hello index = some w ∧ w.second = v.second)
      (known : ∀ old, g.started = some old → old = v) :
      Accepts g index ⟨.started, generation, v⟩ { g with started := some v }
  | admitted {generation v} (zero : index = 0) (shape : StartShape g.sid v)
      (hello : ∃ w, g.hello index = some w ∧ w.second = v.second)
      (known : ∀ old, g.started = some old → old = v) :
      Accepts g index ⟨.admitted, generation, v⟩ { g with started := some v, admitted := true }
  | firstExit {generation} {v : Values} (named : ∃ w, g.started = some w ∧ w.first = v.second)
      (status : wifexited v.first ∨ wifsignaled v.first) (fresh : g.observedExit = none) :
      Accepts g index ⟨.workloadExit, generation, v⟩
        { g with observedExit := some v.first, pendingExit := some v.first }
  | sameExit {generation} {v : Values} (named : ∃ w, g.started = some w ∧ w.first = v.second)
      (status : wifexited v.first ∨ wifsignaled v.first) (known : g.observedExit = some v.first) :
      Accepts g index ⟨.workloadExit, generation, v⟩ g
  | startFailed {generation} {v : Values} (unadmitted : g.admitted = false) :
      Accepts g index ⟨.startFailed, generation, v⟩ { g with startError := some (creationError v.first) }
  | signalApplied {generation} {w : Values} (one : index = 1) (named : g.started = some w)
      (controlled : g.control.isSome) :
      Accepts g index ⟨.signalApplied, generation, #v[w.first, SIGTERM, 7, 0]⟩ { g with termApplied := true }
  | escalated {generation} {w : Values} (one : index = 1) (named : g.started = some w)
      (applied reported : Bool) :
      Accepts g index ⟨.escalated, generation, #v[w.first, SIGKILL, 0, 0]⟩
        { g with escalationApplied := applied, escalationReported := reported }
  | retiring {generation} {v : Values} (positive : (0 : Int32) < v.first)
      (other : ∀ w, g.started = some w → v.first ≠ w.first) (own : index = 1 ∨ v.first = g.sid) :
      Accepts g index ⟨.retiring, generation, v⟩
        { g with retiring := Function.update g.retiring index true }
  | successor {generation} {v : Values} (shape : (0 : Int32) < v.first ∧ (0 : Int32) < v.second ∧ v.third = g.sid) :
      Accepts g index ⟨.successor, generation, v⟩ g

theorem id_toInt32 (g : Guardian) : g.id.toInt32 = (g.started.map fun values => values.first).getD 0 := by
  unfold id
  cases g.started <;> simp

theorem id_ne_zero {g : Guardian} (known : g.id ≠ 0) : ∃ w, g.started = some w := by
  unfold id at known
  cases started : g.started with
  | none => simp [started] at known
  | some w => exact ⟨w, rfl⟩

theorem any_ne_false {α : Type} [DecidableEq α] {o : Option α} {a : α} :
    ¬o.any (· ≠ a) = true ↔ ∀ old, o = some old → old = a := by
  cases o <;> simp

theorem said_of_any {o : Option Values} {p : Values → Bool} (any : o.any p = true) :
    ∃ w, o = some w ∧ p w = true := by
  cases o with
  | none => cases any
  | some w => exact ⟨w, rfl, any⟩

theorem other_index (i index : Fin 2) : i = index ∨ i = 1 - index := by
  omega

theorem id_eq {g : Guardian} {w : Values} (started : g.started = some w) : g.id.toInt32 = w.first := by
  rw [id_toInt32, started]
  rfl

/-- Every frame is accepted by one of the guards or marks a fault. -/
theorem receive_cases (g : Guardian) (index : Fin 2) (frame : Frame) :
    g.receive index frame = g.markFault ∨ Accepts g index frame (g.receive index frame) := by
  obtain ⟨kind, generation, v⟩ := frame
  cases kind with
  | hello =>
    unfold receive
    dsimp only
    split
    · rename_i shape
      split
      · exact .inl rfl
      · rename_i known
        obtain ⟨own, peer⟩ := not_or.mp known
        refine .inr (.hello shape fun i old same => ?_)
        rcases other_index i index with rfl | rfl
        · exact any_ne_false.mp own old same
        · exact any_ne_false.mp peer old same
    · exact .inl rfl
  | started =>
    unfold receive
    dsimp only
    split
    · rename_i shape
      obtain ⟨positive, other, distinct, ⟨second, third⟩, hello⟩ := shape
      obtain ⟨w, said, same⟩ := said_of_any hello
      split
      · exact .inl rfl
      · rename_i known
        simp only [true_and, reduceCtorEq, false_and, false_or, not_or, not_not] at known
        exact .inr (.started known.1 ⟨positive, other, distinct, second, third⟩
          ⟨w, said, of_decide_eq_true same⟩ (any_ne_false.mp known.2))
    · exact .inl rfl
  | admitted =>
    unfold receive
    dsimp only
    split
    · rename_i shape
      obtain ⟨positive, other, distinct, ⟨second, third⟩, hello⟩ := shape
      obtain ⟨w, said, same⟩ := said_of_any hello
      split
      · exact .inl rfl
      · rename_i known
        simp only [true_and, reduceCtorEq, false_and, false_or, not_or, not_not] at known
        exact .inr (.admitted known.1 ⟨positive, other, distinct, second, third⟩
          ⟨w, said, of_decide_eq_true same⟩ (any_ne_false.mp known.2))
    · exact .inl rfl
  | workloadExit =>
    unfold receive
    dsimp only
    split
    · rename_i shape
      obtain ⟨own, some, status⟩ := shape
      obtain ⟨w, started⟩ := id_ne_zero some
      have named : ∃ w, g.started = Option.some w ∧ w.first = v.second := ⟨w, started, by rw [own, id_eq started]⟩
      split
      · exact .inl rfl
      · rename_i known
        cases observed : g.observedExit with
        | none => exact .inr (.firstExit named status observed)
        | some old =>
          have same := any_ne_false.mp known old observed
          exact .inr (.sameExit named status (by rw [observed, same]))
    · exact .inl rfl
  | startFailed =>
    unfold receive
    dsimp only
    split
    · rename_i unadmitted
      exact .inr (.startFailed (by simpa using unadmitted))
    · exact .inl rfl
  | signalApplied =>
    unfold receive
    dsimp only
    split
    · rename_i shape
      obtain ⟨one, some, controlled, rfl⟩ := shape
      obtain ⟨w, started⟩ := id_ne_zero some
      rw [id_eq started]
      exact .inr (.signalApplied one started controlled)
    · exact .inl rfl
  | escalated =>
    unfold receive
    dsimp only
    split
    · rename_i shape
      obtain ⟨one, some, rfl⟩ := shape
      obtain ⟨w, started⟩ := id_ne_zero some
      rw [id_eq started]
      split
      · exact .inr (.escalated one started true true)
      · exact .inr (.escalated one started g.escalationApplied g.escalationReported)
    · exact .inl rfl
  | retiring =>
    unfold receive
    dsimp only
    split
    · rename_i shape
      obtain ⟨positive, other, own⟩ := shape
      refine .inr (.retiring positive (fun w started => ?_) own)
      rwa [id_eq started] at other
    · exact .inl rfl
  | successor =>
    unfold receive
    dsimp only
    split
    · rename_i shape
      exact .inr (.successor shape)
    · exact .inl rfl
  | _ => exact .inl rfl

/-- One change of the owner's state, with what it saw. -/
inductive Move (g : Guardian) : List Entry → Guardian → Prop
  | channel (index : Fin 2) (channel : Channel) (held : g.channels index ≠ none) :
      Move g [] { g with channels := Function.update g.channels index (some channel) }
  | sent (sent : Fin 2 → Option Kind) : Move g [] { g with sent := sent }
  | granted : Move g [] { g with executionGranted := true }
  | accepted {index frame g'} (accepts : Accepts g index frame g') : Move g [.frame index frame] g'
  | refused (index : Fin 2) (frame : Frame) : Move g [.frame index frame] g.markFault
  | broken (index : Fin 2) : Move g [.broken index] g.markFault
  | ended (index : Fin 2) : Move g [.ended index] (g.channelEnded index)
  | reaped : Move g [.reaped] { g with reaped := true }
  | waitFailed (reaped : Bool) : Move g [.waitFailed] { g.markFault with reaped := reaped }
  | ungranted : Move g [.ungranted] { g with startError := some .io }
  | requested (kind : Kind) : Move g [.requested kind] (g.request kind)

inductive Moves : Guardian → List Entry → Guardian → Prop
  | nil (g : Guardian) : Moves g [] g
  | cons {g g' g'' : Guardian} {seen later : List Entry} (move : Move g seen g')
      (rest : Moves g' later g'') : Moves g (seen ++ later) g''

namespace Moves

variable {g g' g'' : Guardian} {seen later : List Entry}

theorem single (move : Move g seen g') : Moves g seen g' := by
  have whole := Moves.cons move (.nil g')
  rwa [List.append_nil] at whole

theorem trans (first : Moves g seen g') (second : Moves g' later g'') : Moves g (seen ++ later) g'' := by
  induction first with
  | nil => exact second
  | cons move _ ih =>
    rw [List.append_assoc]
    exact .cons move (ih second)

end Moves

theorem offer_moves (g : Guardian) (index : Fin 2) (writes : List WriteAnswer) :
    Moves g [] (g.offer index writes) := by
  unfold offer
  split
  · exact .nil g
  · rename_i channel held
    exact (Moves.single (.channel index _ (by rw [held]; exact nofun))).trans
      (.single (.sent (Function.update g.sent index _)))

theorem message_moves {g : Guardian} {index : Fin 2} {channel : Channel}
    (held : g.channels index = some channel) (read : ReadAnswer) :
    Moves g (g.message index channel read).2.1 (g.message index channel read).1 := by
  have install := Moves.single (.channel (g := g) index (channel.receive read).2
    (by rw [held]; exact nofun))
  unfold message
  dsimp only
  split
  · rename_i frame _
    refine install.trans ?_
    rcases receive_cases { g with
        channels := Function.update g.channels index (some (channel.receive read).2) } index frame with
      refused | accepts
    · rw [refused]
      exact .single (.refused index frame)
    · exact .single (.accepted accepts)
  · split
    · exact install.trans (.single (.ended index))
    · exact install
  · split
    · exact (install.trans (.single (.broken index))).trans (.single (.ended index))
    · exact install.trans (.single (.broken index))

theorem messages_moves (reads : Nat) (answers : List ReadAnswer) (g : Guardian) (index : Fin 2) :
    Moves g (messages reads answers g index).2 (messages reads answers g index).1 := by
  induction reads generalizing answers g with
  | zero => exact .nil g
  | succ reads ih =>
    cases answers with
    | nil => exact .nil g
    | cons read answers =>
      unfold messages
      split
      · exact .nil g
      · rename_i channel held
        have first := message_moves held read
        dsimp only
        split
        · exact first.trans (ih answers _)
        · exact first

theorem wait_moves (g : Guardian) (answer : WaitAnswer) : Moves g (g.wait answer).2 (g.wait answer).1 := by
  unfold wait
  split
  · exact .nil g
  · cases answer with
    | exited => exact .single .reaped
    | running => exact .nil g
    | failed =>
      dsimp only
      split
      · exact .single (.waitFailed true)
      · exact .single (.waitFailed g.markFault.reaped)

theorem serviceChannel_moves (g : Guardian) (index : Fin 2) (answers : Answers) :
    Moves g (g.serviceChannel index answers).2 (g.serviceChannel index answers).1 :=
  (g.offer_moves index (answers.writes index)).trans (messages_moves 8 _ _ index)

theorem service_moves (g : Guardian) (answers : Answers) :
    Moves g (g.service answers).2 (g.service answers).1 :=
  (g.serviceChannel_moves 0 answers).trans
    ((serviceChannel_moves _ 1 answers).trans (wait_moves _ answers.wait))

theorem grantChannel_moves (g : Guardian) (index : Fin 2) :
    Moves g (g.grantChannel index).2 (g.grantChannel index).1 := by
  unfold grantChannel
  split
  · exact .nil g
  · rename_i channel held
    split
    · exact .single (.channel index _ (by rw [held]; exact nofun))
    · exact (Moves.single (.channel index _ (by rw [held]; exact nofun))).trans (.single .ungranted)

theorem grantExecution_moves (g : Guardian) : Moves g g.grantExecution.2 g.grantExecution.1 := by
  unfold grantExecution
  split
  · have both := (g.grantChannel_moves 0).trans (grantChannel_moves _ 1)
    have whole := both.trans (.single .granted)
    rwa [List.append_nil] at whole
  · exact .nil g

end PtyRuntime.Guardian
