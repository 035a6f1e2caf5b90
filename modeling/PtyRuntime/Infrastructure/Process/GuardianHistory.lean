import PtyRuntime.Infrastructure.Process.GuardianLaws

/-! The host's view against the history of what it was sent. Facts of the view are
grounded in frames of the history; as long as no fault is marked, the view also misses
nothing of that history. -/
namespace PtyRuntime.Guardian

/-- Whether the history reports a workload of this process id. -/
def Named (history : List Entry) (pid : Int32) : Prop :=
  ∃ i f, .frame i f ∈ history ∧ NamesWorkload f ∧ f.values.first = pid

def StartFailed (history : List Entry) : Prop :=
  (∃ i f, .frame i f ∈ history ∧ f.kind = .startFailed) ∨ .ungranted ∈ history

/-- Whether a frame is well placed after a history: the channel may send it, it names
the sentinel, the guardian and the workload of that history, and no earlier frame
of its kind says otherwise. -/
def ExpectedFrame (sid : Int32) (before : List Entry) (index : Fin 2) (f : Frame) : Prop :=
  match f.kind with
  | .hello =>
    HelloShape sid f.values ∧
      ∀ i old, .frame i old ∈ before → old.kind = .hello → old.values = f.values
  | .started | .admitted =>
    (f.kind = .started → index = GUARDIAN) ∧ (f.kind = .admitted → index = SENTINEL) ∧ StartShape sid f.values ∧
      (∃ hello, .frame index hello ∈ before ∧ hello.kind = .hello ∧ hello.values.second = f.values.second) ∧
      ∀ i old, .frame i old ∈ before → NamesWorkload old → old.values = f.values
  | .workloadExit =>
    Named before f.values.second ∧ (wifexited f.values.first ∨ wifsignaled f.values.first) ∧
      ∀ i old, .frame i old ∈ before → old.kind = .workloadExit → old.values.first = f.values.first
  | .startFailed => ∀ i old, .frame i old ∈ before → old.kind ≠ .admitted
  | .signalApplied =>
    index = GUARDIAN ∧ (∃ kind, .requested kind ∈ before) ∧
      ∃ pid, Named before pid ∧ f.values = #v[pid, SIGTERM, 7, 0]
  | .escalated => index = GUARDIAN ∧ ∃ pid, Named before pid ∧ f.values = #v[pid, SIGKILL, 0, 0]
  | .retiring =>
    (0 : Int32) < f.values.first ∧ (∀ pid, Named before pid → f.values.first ≠ pid) ∧
      (index = GUARDIAN ∨ f.values.first = sid)
  | .successor => (0 : Int32) < f.values.first ∧ (0 : Int32) < f.values.second ∧ f.values.third = sid
  | _ => False

/-- Nothing malformed, no failed wait, every frame well placed, and no channel that
ends before it retired, unless the start failed. -/
def Expected (sid : Int32) (before : List Entry) : Entry → Prop
  | .frame index f => ExpectedFrame sid before index f
  | .broken _ | .waitFailed => False
  | .ended index => (∃ f, .frame index f ∈ before ∧ f.kind = .retiring) ∨ StartFailed before
  | .requested _ | .ungranted | .reaped => True

def Orderly (sid : Int32) (history : List Entry) : Prop :=
  ∀ before entry after, history = before ++ entry :: after → Expected sid before entry

theorem Orderly.append {sid : Int32} {history : List Entry} {entry : Entry}
    (orderly : Orderly sid history) (expected : Expected sid history entry) :
    Orderly sid (history ++ [entry]) := by
  intro before other after split
  rcases List.eq_nil_or_concat after with rfl | ⟨front, last, rfl⟩
  · obtain ⟨rfl, same⟩ := List.append_inj' split rfl
    obtain rfl := List.singleton_inj.mp same
    exact expected
  · rw [List.concat_eq_append, ← List.cons_append, ← List.append_assoc] at split
    exact orderly before other front (List.append_inj' split rfl).1

/-- What the view says is in the history. -/
structure Grounded (g : Guardian) (history : List Entry) : Prop where
  hello : ∀ i v, g.hello i = some v → ∃ f, .frame i f ∈ history ∧ f.kind = .hello ∧ f.values = v
  agree : ∀ i j v w, g.hello i = some v → g.hello j = some w → v = w
  started : ∀ v, g.started = some v → ∃ i f, .frame i f ∈ history ∧ NamesWorkload f ∧ f.values = v
  admitted : g.admitted = true → ∃ f w, .frame 0 f ∈ history ∧ f.kind = .admitted ∧
    g.started = some f.values ∧ g.hello 0 = some w ∧ w.second = f.values.second
  exited : ∀ status, g.observedExit = some status → ∃ i f v, .frame i f ∈ history ∧
    f.kind = .workloadExit ∧ f.values.first = status ∧ g.started = some v ∧ v.first = f.values.second
  aborting : g.fault = true → ∃ kind, g.control = some kind ∧ Kind.abort.code ≤ kind.code

/-- What the history says is in the view. -/
structure Attentive (g : Guardian) (history : List Entry) : Prop where
  orderly : Orderly g.sid history
  hello : ∀ i f, .frame i f ∈ history → f.kind = .hello → g.hello i = some f.values
  started : ∀ i f, .frame i f ∈ history → NamesWorkload f → g.started = some f.values
  admitted : ∀ i f, .frame i f ∈ history → f.kind = .admitted → g.admitted = true
  exited : ∀ i f, .frame i f ∈ history → f.kind = .workloadExit → g.observedExit = some f.values.first
  failed : g.startError.isSome → StartFailed history
  retiring : ∀ i, g.retiring i = true → ∃ f, .frame i f ∈ history ∧ f.kind = .retiring
  ended : ∀ i, g.channels i = none → .ended i ∈ history
  reaped : g.reaped = true → .reaped ∈ history
  requested : g.control.isSome → ∃ kind, .requested kind ∈ history

variable {g g' : Guardian} {history seen : List Entry}

theorem new_grounded (sid : Int32) (channels : Fin 2 → Channel) (generation : UInt64) :
    (new sid channels generation).Grounded [] where
  hello _ _ none := by cases none
  agree _ _ _ _ none := by cases none
  started _ none := by cases none
  admitted none := by cases none
  exited _ none := by cases none
  aborting none := by cases none

theorem new_attentive (sid : Int32) (channels : Fin 2 → Channel) (generation : UInt64) :
    (new sid channels generation).Attentive [] where
  orderly before entry after split := by simp at split
  hello _ _ member := by cases member
  started _ _ member := by cases member
  admitted _ _ member := by cases member
  exited _ _ member := by cases member
  failed none := by cases none
  retiring _ none := by cases none
  ended _ none := by cases none
  reaped none := by cases none
  requested none := by cases none

theorem request_fault (g : Guardian) (kind : Kind) : (g.request kind).fault = g.fault := by
  unfold request
  split <;> rfl

theorem request_control (g : Guardian) (kind : Kind) :
    (g.request kind).control = some kind ∧ (∀ old, g.control = some old → old.code < kind.code) ∨
      (g.request kind).control = g.control ∧ ∃ old, g.control = some old ∧ kind.code ≤ old.code := by
  unfold request
  cases held : g.control with
  | none => exact .inl ⟨rfl, nofun⟩
  | some old =>
    by_cases higher : old.code < kind.code
    · left
      simp [higher]
    · right
      simp [held, higher, Nat.le_of_not_lt higher]

theorem request_eq (g : Guardian) (kind : Kind) :
    g.request kind = { g with control := (g.request kind).control } := by
  unfold request
  split <;> rfl

@[simp] theorem markFault_fault (g : Guardian) : g.markFault.fault = true := by
  unfold markFault
  rw [request_fault]
  split
  · rfl
  · rename_i marked
    simpa using marked

/-- A fault only touches its own marks and the control. -/
theorem markFault_eq (g : Guardian) :
    g.markFault = { g with
      fault := true, pendingFault := g.markFault.pendingFault, control := g.markFault.control } := by
  have shape : ∃ pending control, g.markFault =
      { g with fault := true, pendingFault := pending, control := control } := by
    unfold markFault
    rw [request_eq]
    split
    · exact ⟨_, _, rfl⟩
    · rename_i marked
      have marked : true = g.fault := by simpa using marked
      refine ⟨g.pendingFault, (g.request .abort).control, ?_⟩
      rw [marked]
  obtain ⟨pending, control, same⟩ := shape
  rw [same]

namespace Grounded

theorem mono (grounded : g.Grounded history) {longer : List Entry} (sub : history ⊆ longer) :
    g.Grounded longer where
  hello i v said := by
    obtain ⟨f, member, rest⟩ := grounded.hello i v said
    exact ⟨f, sub member, rest⟩
  agree := grounded.agree
  started v said := by
    obtain ⟨i, f, member, rest⟩ := grounded.started v said
    exact ⟨i, f, sub member, rest⟩
  admitted so := by
    obtain ⟨f, w, member, rest⟩ := grounded.admitted so
    exact ⟨f, w, sub member, rest⟩
  exited status so := by
    obtain ⟨i, f, v, member, rest⟩ := grounded.exited status so
    exact ⟨i, f, v, sub member, rest⟩
  aborting := grounded.aborting

theorem markFault (grounded : g.Grounded history) : g.markFault.Grounded history := by
  have control : ∃ kind, g.markFault.control = some kind ∧ Kind.abort.code ≤ kind.code := by
    unfold Guardian.markFault
    rcases request_control (if !g.fault then { g with fault := true, pendingFault := true } else g) .abort with
      ⟨same, -⟩ | ⟨same, old, held, higher⟩
    · exact ⟨.abort, same, Nat.le_refl _⟩
    · exact ⟨old, same.trans held, higher⟩
  rw [markFault_eq]
  exact ⟨grounded.hello, grounded.agree, grounded.started, grounded.admitted, grounded.exited,
    fun _ => control⟩

theorem request (grounded : g.Grounded history) (kind : Kind) : (g.request kind).Grounded history := by
  have control : g.fault = true → ∃ k, (g.request kind).control = some k ∧ Kind.abort.code ≤ k.code := by
    intro fault
    obtain ⟨old, held, high⟩ := grounded.aborting fault
    rcases g.request_control kind with ⟨same, lower⟩ | ⟨same, -⟩
    · exact ⟨kind, same, Nat.le_of_lt (Nat.lt_of_le_of_lt high (lower old held))⟩
    · exact ⟨old, same.trans held, high⟩
  unfold Guardian.request at control ⊢
  split
  · rename_i higher
    rw [if_pos higher] at control
    exact ⟨grounded.hello, grounded.agree, grounded.started, grounded.admitted, grounded.exited, control⟩
  · exact grounded

theorem accepts (grounded : g.Grounded history) {index : Fin 2} {frame : Frame}
    (accepts : Accepts g index frame g') : g'.Grounded (history ++ [.frame index frame]) := by
  have before := grounded.mono (List.subset_append_left history [.frame index frame])
  have here : Entry.frame index frame ∈ history ++ [.frame index frame] := by simp
  cases accepts with
  | @hello generation v shape known =>
    exact {
      hello := fun i w said => by
        dsimp only at said
        by_cases same : i = index
        · subst same
          rw [Function.update_self] at said
          exact ⟨_, here, rfl, Option.some.inj said⟩
        · rw [Function.update_of_ne same] at said
          exact before.hello i w said
      agree := fun i j first' second' first second => by
        have all : ∀ k u, Function.update g.hello index (some v) k = some u → u = v := fun k u said => by
          by_cases same : k = index
          · subst same
            rw [Function.update_self] at said
            exact (Option.some.inj said).symm
          · rw [Function.update_of_ne same] at said
            exact known k u said
        rw [all i first' first, all j second' second]
      started := before.started
      admitted := fun so => by
        obtain ⟨f, w, member, kind, started, said, same⟩ := before.admitted so
        refine ⟨f, w, member, kind, started, ?_, same⟩
        dsimp only
        by_cases zero : (0 : Fin 2) = index
        · subst zero
          rw [Function.update_self, known 0 w said]
        · rw [Function.update_of_ne zero]
          exact said
      exited := before.exited
      aborting := before.aborting }
  | started one shape hello known =>
    exact {
      hello := before.hello
      agree := before.agree
      started := fun w said => ⟨index, _, here, .inl rfl, Option.some.inj said⟩
      admitted := fun so => by
        obtain ⟨f, w, member, kind, started, rest⟩ := before.admitted so
        exact ⟨f, w, member, kind, by rw [known _ started], rest⟩
      exited := fun status so => by
        obtain ⟨i, f, w, member, kind, value, started, same⟩ := before.exited status so
        exact ⟨i, f, w, member, kind, value, by rw [known w started], same⟩
      aborting := before.aborting }
  | admitted zero shape hello known =>
    subst zero
    obtain ⟨w, said, same⟩ := hello
    exact {
      hello := before.hello
      agree := before.agree
      started := fun w said => ⟨0, _, here, .inr rfl, Option.some.inj said⟩
      admitted := fun _ => ⟨_, w, here, rfl, rfl, said, same⟩
      exited := fun status so => by
        obtain ⟨i, f, w, member, kind, value, started, same⟩ := before.exited status so
        exact ⟨i, f, w, member, kind, value, by rw [known w started], same⟩
      aborting := before.aborting }
  | firstExit named status fresh =>
    obtain ⟨w, started, same⟩ := named
    exact {
      hello := before.hello
      agree := before.agree
      started := before.started
      admitted := before.admitted
      exited := fun value so => ⟨index, _, w, here, rfl, Option.some.inj so, started, same⟩
      aborting := before.aborting }
  | sameExit _ _ _ => exact before
  | successor _ => exact before
  | startFailed _ | signalApplied _ _ _ | escalated _ _ _ _ | retiring _ _ _ =>
    exact ⟨before.hello, before.agree, before.started, before.admitted, before.exited, before.aborting⟩

theorem move (grounded : g.Grounded history) (move : Move g seen g') :
    g'.Grounded (history ++ seen) := by
  have before := grounded.mono (List.subset_append_left history seen)
  cases move with
  | channel _ _ _ | sent _ | granted | reaped | ungranted =>
    exact ⟨before.hello, before.agree, before.started, before.admitted, before.exited, before.aborting⟩
  | accepted accepts => exact grounded.accepts accepts
  | refused _ _ => exact before.markFault
  | broken _ => exact before.markFault
  | ended index =>
    have still : ({ g with channels := Function.update g.channels index none } : Guardian).Grounded
        (history ++ [.ended index]) :=
      ⟨before.hello, before.agree, before.started, before.admitted, before.exited, before.aborting⟩
    unfold channelEnded
    dsimp only
    split
    · exact still.markFault
    · exact still
  | waitFailed reaped =>
    have marked := before.markFault
    exact ⟨marked.hello, marked.agree, marked.started, marked.admitted, marked.exited, marked.aborting⟩
  | requested kind => exact before.request kind

end Grounded

theorem StartFailed.mono {longer : List Entry} (failed : StartFailed history) (sub : history ⊆ longer) :
    StartFailed longer := by
  rcases failed with ⟨i, f, member, kind⟩ | ungranted
  · exact .inl ⟨i, f, sub member, kind⟩
  · exact .inr (sub ungranted)

namespace Attentive

/-- What one more observation may add, when the view already has the facts of a frame. -/
theorem append (attentive : g.Attentive history) {entry : Entry} (expected : Expected g.sid history entry)
    (facts : ∀ i f, entry = .frame i f →
      (f.kind = .hello → g.hello i = some f.values) ∧ (NamesWorkload f → g.started = some f.values) ∧
        (f.kind = .admitted → g.admitted = true) ∧
        (f.kind = .workloadExit → g.observedExit = some f.values.first)) :
    g.Attentive (history ++ [entry]) := by
  have sub := List.subset_append_left history [entry]
  have old : ∀ i f, Entry.frame i f ∈ history ++ [entry] → .frame i f ∈ history ∨ entry = .frame i f := by
    intro i f member
    rcases List.mem_append.mp member with before | last
    · exact .inl before
    · exact .inr (List.mem_singleton.mp last).symm
  exact {
    orderly := attentive.orderly.append expected
    hello := fun i f member => (old i f member).elim (attentive.hello i f) fun same => (facts i f same).1
    started := fun i f member => (old i f member).elim (attentive.started i f) fun same => (facts i f same).2.1
    admitted := fun i f member =>
      (old i f member).elim (attentive.admitted i f) fun same => (facts i f same).2.2.1
    exited := fun i f member =>
      (old i f member).elim (attentive.exited i f) fun same => (facts i f same).2.2.2
    failed := fun some => (attentive.failed some).mono sub
    retiring := fun i so => by
      obtain ⟨f, member, kind⟩ := attentive.retiring i so
      exact ⟨f, sub member, kind⟩
    ended := fun i none => sub (attentive.ended i none)
    reaped := fun so => sub (attentive.reaped so)
    requested := fun some => by
      obtain ⟨kind, member⟩ := attentive.requested some
      exact ⟨kind, sub member⟩ }

/-- An observation that is no frame. -/
theorem note (attentive : g.Attentive history) {entry : Entry} (expected : Expected g.sid history entry)
    (frameless : ∀ i f, entry ≠ .frame i f) : g.Attentive (history ++ [entry]) :=
  attentive.append expected fun i f same => absurd same (frameless i f)

/-- A frame whose facts the view already has. -/
theorem see (attentive : g.Attentive history) {index : Fin 2} {frame : Frame}
    (expected : ExpectedFrame g.sid history index frame)
    (hello : frame.kind = .hello → g.hello index = some frame.values)
    (started : NamesWorkload frame → g.started = some frame.values)
    (admitted : frame.kind = .admitted → g.admitted = true)
    (exited : frame.kind = .workloadExit → g.observedExit = some frame.values.first) :
    g.Attentive (history ++ [.frame index frame]) := by
  refine attentive.append expected fun i f same => ?_
  obtain ⟨rfl, rfl⟩ := Entry.frame.inj same
  exact ⟨hello, started, admitted, exited⟩

/-- A frame that adds no fact to the view. -/
theorem see_plain (attentive : g.Attentive history) {index : Fin 2} {frame : Frame}
    (expected : ExpectedFrame g.sid history index frame)
    (plain : frame.kind ≠ .hello ∧ ¬NamesWorkload frame ∧ frame.kind ≠ .workloadExit) :
    g.Attentive (history ++ [.frame index frame]) := by
  obtain ⟨hello, names, exited⟩ := plain
  exact attentive.see expected (fun kind => absurd kind hello) (fun so => absurd so names)
    (fun kind => absurd (.inr kind) names) (fun kind => absurd kind exited)

theorem named (attentive : g.Attentive history) (grounded : g.Grounded history) {pid : Int32} :
    Named history pid ↔ ∃ w, g.started = some w ∧ w.first = pid := by
  constructor
  · rintro ⟨i, f, member, names, rfl⟩
    exact ⟨f.values, attentive.started i f member names, rfl⟩
  · rintro ⟨w, started, rfl⟩
    obtain ⟨i, f, member, names, rfl⟩ := grounded.started w started
    exact ⟨i, f, member, names, rfl⟩

theorem start_expected (attentive : g.Attentive history) (grounded : g.Grounded history)
    {index : Fin 2} {v : Values} (shape : StartShape g.sid v)
    (hello : ∃ w, g.hello index = some w ∧ w.second = v.second) (known : ∀ old, g.started = some old → old = v) :
    StartShape g.sid v ∧
      (∃ hello, .frame index hello ∈ history ∧ hello.kind = .hello ∧ hello.values.second = v.second) ∧
      ∀ i old, .frame i old ∈ history → NamesWorkload old → old.values = v := by
  obtain ⟨w, said, same⟩ := hello
  obtain ⟨f, member, kind, rfl⟩ := grounded.hello index w said
  exact ⟨shape, ⟨f, member, kind, same⟩, fun i old before names =>
    known _ (attentive.started i old before names)⟩

/-- Accepted frames are well placed, and the view takes them in. -/
theorem accepts (attentive : g.Attentive history) (grounded : g.Grounded history) {index : Fin 2}
    {frame : Frame} (accepts : Accepts g index frame g') :
    g'.Attentive (history ++ [.frame index frame]) := by
  cases accepts with
  | @hello generation v shape known =>
    have next : ({ g with hello := Function.update g.hello index (some v) } : Guardian).Attentive
        history :=
      { attentive with
        hello := fun i f member kind => by
          have said := attentive.hello i f member kind
          dsimp only
          by_cases same : i = index
          · subst same
            rw [Function.update_self, known i _ said]
          · rw [Function.update_of_ne same, said] }
    apply next.see
    · exact ⟨shape, fun i old member kind => known i _ (attentive.hello i old member kind)⟩
    · exact fun _ => Function.update_self index _ _
    · rintro (wrong | wrong) <;> cases wrong
    · exact fun wrong => nomatch wrong
    · exact fun wrong => nomatch wrong
  | @started generation v one shape hello known =>
    have next : ({ g with started := some v } : Guardian).Attentive history :=
      { attentive with
        started := fun i f member names => by
          rw [known _ (attentive.started i f member names)] }
    apply next.see
    · exact ⟨fun _ => one, (fun wrong => nomatch wrong), attentive.start_expected grounded shape hello known⟩
    · exact fun wrong => nomatch wrong
    · exact fun _ => rfl
    · exact fun wrong => nomatch wrong
    · exact fun wrong => nomatch wrong
  | @admitted generation v zero shape hello known =>
    have next : ({ g with started := some v, admitted := true } : Guardian).Attentive history :=
      { attentive with
        started := fun i f member names => by
          rw [known _ (attentive.started i f member names)]
        admitted := fun _ _ _ _ => rfl }
    apply next.see
    · exact ⟨(fun wrong => nomatch wrong), fun _ => zero, attentive.start_expected grounded shape hello known⟩
    · exact fun wrong => nomatch wrong
    · exact fun _ => rfl
    · exact fun _ => rfl
    · exact fun wrong => nomatch wrong
  | @firstExit generation v named status fresh =>
    have unseen : ∀ i old, .frame i old ∈ history → old.kind ≠ .workloadExit := fun i old member kind => by
      cases (attentive.exited i old member kind).symm.trans fresh
    have next : ({ g with observedExit := some v.first, pendingExit := some v.first } : Guardian).Attentive
        history :=
      { attentive with
        exited := fun i f member kind => absurd kind (unseen i f member) }
    apply next.see
    · exact ⟨(attentive.named grounded).mpr named, status,
        fun i old member kind => absurd kind (unseen i old member)⟩
    · exact fun wrong => nomatch wrong
    · rintro (wrong | wrong) <;> cases wrong
    · exact fun wrong => nomatch wrong
    · exact fun _ => rfl
  | @sameExit generation v named status known =>
    apply attentive.see
    · refine ⟨(attentive.named grounded).mpr named, status, fun i old member kind => ?_⟩
      exact Option.some.inj ((attentive.exited i old member kind).symm.trans known)
    · exact fun wrong => nomatch wrong
    · rintro (wrong | wrong) <;> cases wrong
    · exact fun wrong => nomatch wrong
    · exact fun _ => known
  | @startFailed generation v unadmitted =>
    have next : g.Attentive (history ++ [.frame index ⟨.startFailed, generation, v⟩]) := by
      apply attentive.see_plain
      · intro i old member kind
        cases (attentive.admitted i old member kind).symm.trans unadmitted
      · simp [NamesWorkload]
    exact { next with
      failed := fun _ => .inl ⟨index, _, List.mem_append_right _ List.mem_cons_self, rfl⟩ }
  | @signalApplied generation w one started controlled =>
    have next : g.Attentive (history ++ [.frame index ⟨.signalApplied, generation, #v[w.first, SIGTERM, 7, 0]⟩]) := by
      apply attentive.see_plain
      · exact ⟨one, attentive.requested controlled, w.first,
          (attentive.named grounded).mpr ⟨w, started, rfl⟩, rfl⟩
      · simp [NamesWorkload]
    exact { next with }
  | @escalated generation w one started applied reported =>
    have next : g.Attentive (history ++ [.frame index ⟨.escalated, generation, #v[w.first, SIGKILL, 0, 0]⟩]) := by
      apply attentive.see_plain
      · exact ⟨one, w.first, (attentive.named grounded).mpr ⟨w, started, rfl⟩, rfl⟩
      · simp [NamesWorkload]
    exact { next with }
  | @retiring generation v positive other own =>
    have next : g.Attentive (history ++ [.frame index ⟨.retiring, generation, v⟩]) := by
      apply attentive.see_plain
      · refine ⟨positive, fun pid named => ?_, own⟩
        obtain ⟨w, started, rfl⟩ := (attentive.named grounded).mp named
        exact other w started
      · simp [NamesWorkload]
    exact { next with
      retiring := fun i so => by
        by_cases same : i = index
        · subst same
          exact ⟨_, List.mem_append_right _ List.mem_cons_self, rfl⟩
        · dsimp only at so
          rw [Function.update_of_ne same] at so
          exact next.retiring i so }
  | @successor generation v shape =>
    apply attentive.see_plain
    · exact shape
    · simp [NamesWorkload]

/-- A fault is never taken back. -/
theorem move_fault (move : Move g seen g') (faultless : g'.fault = false) : g.fault = false := by
  cases move with
  | channel _ _ _ | sent _ | granted | reaped | ungranted => exact faultless
  | accepted accepts => cases accepts <;> exact faultless
  | refused _ _ | broken _ | waitFailed _ =>
    cases (g.markFault_fault).symm.trans faultless
  | ended index =>
    unfold channelEnded at faultless
    dsimp only at faultless
    split at faultless
    · cases (markFault_fault _).symm.trans faultless
    · exact faultless
  | requested kind => exact (request_fault g kind).symm.trans faultless

theorem move (attentive : g.Attentive history) (grounded : g.Grounded history) (move : Move g seen g')
    (faultless : g'.fault = false) : g'.Attentive (history ++ seen) := by
  cases move with
  | channel index channel held =>
    rw [List.append_nil]
    exact { attentive with
      ended := fun i none => by
        dsimp only at none
        by_cases same : i = index
        · subst same
          rw [Function.update_self] at none
          cases none
        · rw [Function.update_of_ne same] at none
          exact attentive.ended i none }
  | sent _ =>
    rw [List.append_nil]
    exact { attentive with }
  | granted =>
    rw [List.append_nil]
    exact { attentive with }
  | accepted accepts => exact attentive.accepts grounded accepts
  | refused _ _ | broken _ | waitFailed _ => cases (g.markFault_fault).symm.trans faultless
  | ended index =>
    unfold channelEnded at faultless ⊢
    dsimp only at faultless ⊢
    split at faultless
    · cases (markFault_fault _).symm.trans faultless
    · rename_i allowed
      have cause : g.retiring index = true ∨ g.startError.isSome := by
        cases retiring : g.retiring index with
        | true => exact .inl rfl
        | false =>
          right
          cases failed : g.startError with
          | none => simp [retiring, failed] at allowed
          | some _ => rfl
      rw [if_neg allowed]
      have next : g.Attentive (history ++ [.ended index]) :=
        attentive.note (cause.imp (attentive.retiring index) attentive.failed) nofun
      exact { next with
        ended := fun i none => by
          by_cases same : i = index
          · subst same
            exact List.mem_append_right _ List.mem_cons_self
          · dsimp only at none
            rw [Function.update_of_ne same] at none
            exact next.ended i none }
  | reaped =>
    have next : g.Attentive (history ++ [.reaped]) := attentive.note trivial nofun
    exact { next with reaped := fun _ => List.mem_append_right _ List.mem_cons_self }
  | ungranted =>
    have next : g.Attentive (history ++ [.ungranted]) := attentive.note trivial nofun
    exact { next with failed := fun _ => .inr (List.mem_append_right _ List.mem_cons_self) }
  | requested kind =>
    have next : g.Attentive (history ++ [.requested kind]) := attentive.note trivial nofun
    rw [request_eq]
    exact { next with requested := fun _ => ⟨kind, List.mem_append_right _ List.mem_cons_self⟩ }

end Attentive

end PtyRuntime.Guardian
