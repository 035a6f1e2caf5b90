import PtyRuntime.Infrastructure.Process.GuardianHistory

/-! The owner of a session over whole runs: what it hands out, what never goes back, and
what a successful cleanup says about the history. -/
namespace PtyRuntime.Guardian

variable {g g' : Guardian} {history seen : List Entry}

/-- Every exit and fault was handed out or is still pending, once. -/
structure Accounted (g : Guardian) (exits : List Int32) (faults : Nat) : Prop where
  exits : exits ++ g.pendingExit.toList = g.observedExit.toList
  faults : faults + g.pendingFault.toNat = g.fault.toNat

theorem Accounted.markFault {exits : List Int32} {faults : Nat} (accounted : g.Accounted exits faults) :
    g.markFault.Accounted exits faults := by
  have balance := accounted.faults
  unfold Guardian.markFault
  rw [request_eq]
  cases fault : g.fault with
  | false =>
    rw [fault] at balance
    refine ⟨accounted.exits, ?_⟩
    simp only [Bool.not_false, if_true, Bool.toNat_true]
    simp only [Bool.toNat_false] at balance
    omega
  | true => exact ⟨accounted.exits, by simpa [fault] using balance⟩

theorem Accounted.move {exits : List Int32} {faults : Nat} (accounted : g.Accounted exits faults)
    (move : Move g seen g') : g'.Accounted exits faults := by
  cases move with
  | channel _ _ _ | sent _ | granted | reaped | ungranted => exact ⟨accounted.exits, accounted.faults⟩
  | accepted accepts =>
    cases accepts with
    | firstExit named status fresh =>
      have none := accounted.exits
      rw [fresh, Option.toList_none, List.append_eq_nil_iff] at none
      exact ⟨by rw [none.1]; rfl, accounted.faults⟩
    | _ => exact ⟨accounted.exits, accounted.faults⟩
  | refused _ _ | broken _ => exact accounted.markFault
  | ended index =>
    have still : ({ g with channels := Function.update g.channels index none } : Guardian).Accounted
        exits faults := ⟨accounted.exits, accounted.faults⟩
    unfold channelEnded
    dsimp only
    split
    · exact still.markFault
    · exact still
  | waitFailed _ => exact ⟨accounted.markFault.exits, accounted.markFault.faults⟩
  | requested kind =>
    rw [request_eq]
    exact ⟨accounted.exits, accounted.faults⟩

/-- The rank of the requested control, zero before the first request. -/
def rank (g : Guardian) : Nat := (g.control.map Kind.code).getD 0

/-- How a later view relates to an earlier one. -/
structure Later (g g' : Guardian) : Prop where
  sid : g'.sid = g.sid
  started : ∀ v, g.started = some v → g'.started = some v
  rank : g.rank ≤ g'.rank

theorem Later.refl (g : Guardian) : Later g g := ⟨rfl, fun _ so => so, Nat.le_refl _⟩

theorem Later.trans {g'' : Guardian} (first : Later g g') (second : Later g' g'') : Later g g'' :=
  ⟨second.sid.trans first.sid, fun v so => second.started v (first.started v so),
    first.rank.trans second.rank⟩

theorem request_later (g : Guardian) (kind : Kind) : Later g (g.request kind) := by
  have grows : g.rank ≤ (g.request kind).rank := by
    unfold rank
    rcases g.request_control kind with ⟨same, lower⟩ | ⟨same, -⟩
    · rw [same]
      cases held : g.control with
      | none => exact Nat.zero_le _
      | some old => exact Nat.le_of_lt (lower old held)
    · rw [same]
  rw [request_eq] at grows ⊢
  exact ⟨rfl, fun _ so => so, grows⟩

theorem markFault_later (g : Guardian) : Later g g.markFault := by
  unfold markFault
  split
  · have marked : Later g { g with fault := true, pendingFault := true } :=
      ⟨rfl, fun _ so => so, Nat.le_refl _⟩
    exact marked.trans (request_later _ .abort)
  · exact g.request_later .abort

theorem move_later (move : Move g seen g') : Later g g' := by
  cases move with
  | channel _ _ _ | sent _ | granted | reaped | ungranted => exact ⟨rfl, fun _ so => so, Nat.le_refl _⟩
  | accepted accepts =>
    cases accepts with
    | started _ _ _ known => exact ⟨rfl, fun old so => congrArg some (known old so).symm, Nat.le_refl _⟩
    | admitted _ _ _ known => exact ⟨rfl, fun old so => congrArg some (known old so).symm, Nat.le_refl _⟩
    | _ => exact ⟨rfl, fun _ so => so, Nat.le_refl _⟩
  | refused _ _ | broken _ => exact g.markFault_later
  | ended index =>
    have closed : Later g { g with channels := Function.update g.channels index none } :=
      ⟨rfl, fun _ so => so, Nat.le_refl _⟩
    unfold channelEnded
    dsimp only
    split
    · exact closed.trans (markFault_later _)
    · exact closed
  | waitFailed _ => exact g.markFault_later.trans ⟨rfl, fun _ so => so, Nat.le_refl _⟩
  | requested kind => exact g.request_later kind

/-- Only a caller requests a control other than an abort. -/
def Commanded (g : Guardian) (history : List Entry) : Prop :=
  ∀ kind, g.control = some kind → kind = .abort ∨ .requested kind ∈ history

theorem Commanded.request (commanded : g.Commanded history) {kind : Kind}
    (cause : kind = .abort ∨ .requested kind ∈ history) : (g.request kind).Commanded history := by
  intro other held
  rcases g.request_control kind with ⟨same, -⟩ | ⟨same, -⟩
  · rw [same, Option.some.injEq] at held
    rwa [← held]
  · exact commanded other (same.symm.trans held)

theorem Commanded.markFault (commanded : g.Commanded history) : g.markFault.Commanded history := by
  unfold Guardian.markFault
  apply Commanded.request _ (.inl rfl)
  split
  · exact commanded
  · exact commanded

theorem Commanded.move (commanded : g.Commanded history) (move : Move g seen g') :
    g'.Commanded (history ++ seen) := by
  have before : g.Commanded (history ++ seen) := fun kind held =>
    (commanded kind held).imp_right (List.mem_append_left _)
  cases move with
  | channel _ _ _ | sent _ | granted | reaped | ungranted => exact before
  | accepted accepts => cases accepts <;> exact before
  | refused _ _ | broken _ | waitFailed _ => exact before.markFault
  | ended index =>
    unfold channelEnded
    dsimp only
    split
    · exact Commanded.markFault before
    · exact before
  | requested kind => exact before.request (.inr (List.mem_append_right _ List.mem_cons_self))

/-- What the owner of a session does with its guardian, in any order. -/
inductive Event where
  | service (answers : Answers)
  | grantExecution
  | request (kind : Kind)
  | takeExit
  | takeFault
  | takeTermApplied
  | takeEscalationApplied

/-- The view, the history of what it was sent, and what it handed out. -/
structure Owner where
  guardian : Guardian
  history : List Entry
  exits : List Int32
  faults : Nat

namespace Owner

def new (sid : Int32) (channels : Fin 2 → Channel) (generation : UInt64) : Owner :=
  { guardian := .new sid channels generation, history := [], exits := [], faults := 0 }

def step (o : Owner) : Event → Owner
  | .service answers =>
    let (guardian, seen) := o.guardian.service answers
    { o with guardian, history := o.history ++ seen }
  | .grantExecution =>
    let (guardian, seen) := o.guardian.grantExecution
    { o with guardian, history := o.history ++ seen }
  | .request kind =>
    { o with guardian := o.guardian.request kind, history := o.history ++ [.requested kind] }
  | .takeExit =>
    let (exit, guardian) := o.guardian.takeExit
    { o with guardian, exits := o.exits ++ exit.toList }
  | .takeFault =>
    let (fault, guardian) := o.guardian.takeFault
    { o with guardian, faults := o.faults + fault.toNat }
  | .takeTermApplied => { o with guardian := o.guardian.takeTermApplied.2 }
  | .takeEscalationApplied => { o with guardian := o.guardian.takeEscalationApplied.2 }

def run (o : Owner) (events : List Event) : Owner := events.foldl step o

/-- What holds between the view and its history at every point of a run. -/
structure Valid (o : Owner) : Prop where
  grounded : o.guardian.Grounded o.history
  attentive : o.guardian.fault = false → o.guardian.Attentive o.history
  accounted : o.guardian.Accounted o.exits o.faults
  commanded : o.guardian.Commanded o.history

variable {o : Owner}

theorem Valid.moves {g g' : Guardian} {history seen : List Entry} {exits : List Int32} {faults : Nat}
    (valid : (⟨g, history, exits, faults⟩ : Owner).Valid) (moves : Moves g seen g') :
    (⟨g', history ++ seen, exits, faults⟩ : Owner).Valid ∧ Later g g' := by
  induction moves generalizing history with
  | nil g =>
    rw [List.append_nil]
    exact ⟨valid, .refl g⟩
  | @cons g g' g'' seen later move _ ih =>
    have next : (⟨g', history ++ seen, exits, faults⟩ : Owner).Valid := {
      grounded := valid.grounded.move move
      attentive := fun faultless =>
        (valid.attentive (Attentive.move_fault move faultless)).move valid.grounded move faultless
      accounted := valid.accounted.move move
      commanded := valid.commanded.move move }
    obtain ⟨last, latest⟩ := ih next
    rw [List.append_assoc] at last
    exact ⟨last, (move_later move).trans latest⟩

theorem Valid.step (valid : o.Valid) (event : Event) :
    (o.step event).Valid ∧ Later o.guardian (o.step event).guardian := by
  have whole := valid
  obtain ⟨grounded, attentive, accounted, commanded⟩ := valid
  cases event with
  | service answers => exact whole.moves (service_moves _ answers)
  | grantExecution => exact whole.moves (grantExecution_moves _)
  | request kind => exact whole.moves (.single (.requested kind))
  | takeExit =>
    have handed : o.exits ++ o.guardian.pendingExit.toList ++ [] = o.guardian.observedExit.toList := by
      rw [List.append_nil, accounted.exits]
    exact ⟨⟨⟨grounded.hello, grounded.agree, grounded.started, grounded.admitted, grounded.exited,
      grounded.aborting⟩, fun faultless => { attentive faultless with },
      ⟨handed, accounted.faults⟩, commanded⟩, ⟨rfl, fun _ so => so, Nat.le_refl _⟩⟩
  | takeFault =>
    exact ⟨⟨⟨grounded.hello, grounded.agree, grounded.started, grounded.admitted, grounded.exited,
      grounded.aborting⟩, fun faultless => { attentive faultless with },
      ⟨accounted.exits, accounted.faults⟩, commanded⟩, ⟨rfl, fun _ so => so, Nat.le_refl _⟩⟩
  | takeTermApplied | takeEscalationApplied =>
    exact ⟨⟨⟨grounded.hello, grounded.agree, grounded.started, grounded.admitted, grounded.exited,
      grounded.aborting⟩, fun faultless => { attentive faultless with },
      ⟨accounted.exits, accounted.faults⟩, commanded⟩, ⟨rfl, fun _ so => so, Nat.le_refl _⟩⟩

theorem new_valid (sid : Int32) (channels : Fin 2 → Channel) (generation : UInt64) :
    (new sid channels generation).Valid where
  grounded := new_grounded sid channels generation
  attentive _ := new_attentive sid channels generation
  accounted := ⟨rfl, rfl⟩
  commanded _ none := by cases none

theorem Valid.run (valid : o.Valid) (events : List Event) :
    (o.run events).Valid ∧ Later o.guardian (o.run events).guardian := by
  induction events generalizing o with
  | nil => exact ⟨valid, .refl _⟩
  | cons event events ih =>
    obtain ⟨next, later⟩ := valid.step event
    obtain ⟨last, latest⟩ := ih next
    exact ⟨last, later.trans latest⟩

/-- What a caller can rely on, against the history of the run. -/
structure Sound (sid : Int32) (o : Owner) : Prop where
  /-- The workload is admitted by the sentinel's own report only, one that agrees with
  both hellos and with the report of the guardian. -/
  admitted : o.guardian.admitted = true → ∃ f w, .frame 0 f ∈ o.history ∧ f.kind = .admitted ∧
    o.guardian.started = some f.values ∧ o.guardian.hello 0 = some w ∧ w.second = f.values.second ∧
    ∀ i v, o.guardian.hello i = some v → v = w
  exits : o.exits.length ≤ 1
  exited : ∀ status ∈ o.exits, ∃ i f v, .frame i f ∈ o.history ∧ f.kind = .workloadExit ∧
    f.values.first = status ∧ o.guardian.started = some v ∧ f.values.second = v.first
  aborting : o.guardian.fault = true → Kind.abort.code ≤ o.guardian.rank
  abort : o.guardian.fault = true →
    (∀ kind, .requested kind ∈ o.history → kind.code ≤ Kind.abort.code) →
    o.guardian.control = some .abort
  faults : o.faults ≤ 1
  cleanup : o.guardian.cleanupSucceeded = true →
    .reaped ∈ o.history ∧ (∀ i, .ended i ∈ o.history) ∧ Orderly sid o.history

theorem Valid.sound (valid : o.Valid) : o.Sound o.guardian.sid where
  admitted so := by
    obtain ⟨f, w, member, kind, started, said, same⟩ := valid.grounded.admitted so
    exact ⟨f, w, member, kind, started, said, same, fun i v also => valid.grounded.agree i 0 v w also said⟩
  exits := by
    have all := congrArg List.length valid.accounted.exits
    rw [List.length_append] at all
    have most : o.guardian.observedExit.toList.length ≤ 1 := by
      cases o.guardian.observedExit <;> simp
    omega
  exited status member := by
    have observed : status ∈ o.guardian.observedExit.toList := by
      rw [← valid.accounted.exits]
      exact List.mem_append_left _ member
    obtain ⟨i, f, v, seen, kind, value, started, same⟩ :=
      valid.grounded.exited status (Option.mem_toList.mp observed)
    exact ⟨i, f, v, seen, kind, value, started, same.symm⟩
  aborting fault := by
    obtain ⟨kind, held, high⟩ := valid.grounded.aborting fault
    rw [rank, held]
    exact high
  abort fault low := by
    obtain ⟨kind, held, high⟩ := valid.grounded.aborting fault
    rcases valid.commanded kind held with rfl | member
    · exact held
    · have same : Kind.codes.encode kind = Kind.codes.encode .abort := Nat.le_antisymm (low kind member) high
      rw [held, Option.some.inj ((Kind.codes.decode_eq.mpr rfl).symm.trans (Kind.codes.decode_eq.mpr same))]
  faults := by
    have all := valid.accounted.faults
    have most : o.guardian.fault.toNat ≤ 1 := Bool.toNat_le _
    omega
  cleanup succeeded := by
    simp only [cleanupSucceeded, complete, Bool.and_eq_true, Bool.not_eq_true', Option.isNone_iff_eq_none]
      at succeeded
    obtain ⟨⟨⟨reaped, first⟩, second⟩, faultless⟩ := succeeded
    have attentive := valid.attentive faultless
    refine ⟨attentive.reaped reaped, fun i => attentive.ended i ?_, attentive.orderly⟩
    match i with
    | 0 => exact first
    | 1 => exact second

/-- At every point of every run of the owner its view is sound, and it never goes back
on a workload process or on the rank of the requested control. -/
theorem host_view_sound (sid : Int32) (channels : Fin 2 → Channel) (generation : UInt64)
    (events : List Event) :
    ((new sid channels generation).run events).Sound sid ∧
      ∀ more, Later ((new sid channels generation).run events).guardian
        (((new sid channels generation).run events).run more).guardian := by
  obtain ⟨valid, later⟩ := (new_valid sid channels generation).run events
  have sound := valid.sound
  rw [later.sid] at sound
  exact ⟨sound, fun more => (valid.run more).2⟩

/-- Two frames that cannot both be true of one session. -/
def Contradicts (old new : Frame) : Prop :=
  (old.kind = .hello ∧ new.kind = .hello ∧ old.values ≠ new.values) ∨
  (NamesWorkload old ∧ NamesWorkload new ∧ old.values ≠ new.values) ∨
  (old.kind = .workloadExit ∧ new.kind = .workloadExit ∧ old.values.first ≠ new.values.first) ∨
  (old.kind = .startFailed ∧ new.kind = .admitted) ∨ (old.kind = .admitted ∧ new.kind = .startFailed)

/-- A record of one channel generation. -/
def record (kind : Kind) (values : Values) : Frame := ⟨kind, 7, values⟩

/-- The guardian reports that the workload could not be started, the sentinel then
admits it, and both retire. -/
def failedThenAdmitted : List Event := [
  .service {
    writes := fun _ => []
    reads := fun i =>
      .data (record .hello #v[100, 101, 0, 0]).encode ::
        if i = SENTINEL then [] else [.data (record .startFailed #v[2, 0, 0, 0]).encode]
    wait := .running },
  .service {
    writes := fun _ => []
    reads := fun i =>
      if i = SENTINEL then [.data (record .admitted #v[102, 101, 100, 100]).encode,
        .data (record .retiring #v[100, 0, 0, 0]).encode, .data []]
      else [.data (record .retiring #v[101, 0, 0, 0]).encode, .data []]
    wait := .exited }]

/-- The admission that contradicts the failed start marks no fault. -/
theorem admitted_after_start_failed :
    ¬∀ (sid : Int32) (channels : Fin 2 → Channel) (generation : UInt64) (events : List Event),
      ((new sid channels generation).run events).guardian.cleanupSucceeded = true →
      ∀ before i f after, ((new sid channels generation).run events).history = before ++ .frame i f :: after →
        ∀ j old, .frame j old ∈ before → ¬Contradicts old f := by
  intro claim
  have succeeded : ((new 100 (fun _ => .new 7) 7).run failedThenAdmitted).guardian.cleanupSucceeded =
      true := by decide +kernel
  have history : ((new 100 (fun _ => .new 7) 7).run failedThenAdmitted).history =
      [.frame 0 (record .hello #v[100, 101, 0, 0]), .frame 1 (record .hello #v[100, 101, 0, 0]),
        .frame 1 (record .startFailed #v[2, 0, 0, 0])] ++
      .frame 0 (record .admitted #v[102, 101, 100, 100]) ::
        [.frame 0 (record .retiring #v[100, 0, 0, 0]), .ended 0,
          .frame 1 (record .retiring #v[101, 0, 0, 0]), .ended 1, .reaped] := by decide +kernel
  apply claim _ _ _ _ succeeded _ _ _ _ history 1 (record .startFailed #v[2, 0, 0, 0]) (by decide)
  exact .inr (.inr (.inr (.inl ⟨rfl, rfl⟩)))

end Owner

end PtyRuntime.Guardian
