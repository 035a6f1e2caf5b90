import PtyRuntime.Helpers.CancellationLaws

/-! Cancellation over whole runs. The stages a cancellation has taken are told by what was
requested and what was applied; an acknowledgement is handed out once and stands for
signals and frames that are in the history. -/
namespace PtyRuntime.Helper.Cancellation

open Guardian

variable {c : Cancellation}

/-- What was requested, what was applied, and the direct signals that were sent. -/
inductive Stages : Option Kind → Option Kind → List Int32 → Prop where
  | idle : Stages none none []
  | asked {kind : Kind} (stage : kind = .terminate ∨ kind = .kill) : Stages (some kind) none []
  | terminating {kind : Kind} (stage : kind = .terminate ∨ kind = .kill) :
    Stages (some kind) (some .terminate) [SIGTERM]
  | killed : Stages (some .kill) (some .kill) [SIGKILL]
  | escalated : Stages (some .kill) (some .kill) [SIGTERM, SIGKILL]

namespace Stages

variable {requested applied : Option Kind} {signals : List Int32}

theorem request (stages : Stages requested applied signals) {kind : Kind}
    (stage : kind = .terminate ∨ kind = .kill) :
    Stages (if requested ≠ some .kill then some kind else requested) applied signals := by
  split
  · cases stages with
    | idle => exact .asked stage
    | asked _ => exact .asked stage
    | terminating _ => exact .terminating stage
    | killed => contradiction
    | escalated => contradiction
  · exact stages

theorem apply {kind : Kind} (stages : Stages (some kind) applied signals)
    (fresh : (some kind : Option Kind) ≠ applied) :
    Stages (some kind) (some kind) (signals ++ [stageSignal kind]) := by
  cases stages with
  | asked stage =>
    rcases stage with rfl | rfl
    · exact .terminating (.inl rfl)
    · exact .killed
  | terminating stage =>
    rcases stage with rfl | rfl
    · exact absurd rfl fresh
    · exact .escalated
  | killed => exact absurd rfl fresh
  | escalated => exact absurd rfl fresh

theorem sublist (stages : Stages requested applied signals) :
    signals.Sublist [SIGTERM, SIGKILL] := by
  cases stages <;> decide

theorem count_kill (stages : Stages requested applied signals) : signals.count SIGKILL ≤ 1 := by
  cases stages <;> decide

/-- Nothing but SIGTERM was sent before the kill. -/
theorem unkilled (stages : Stages requested applied signals) (fresh : applied ≠ some .kill) :
    signals.count SIGKILL = 0 := by
  cases stages with
  | killed => exact absurd rfl fresh
  | escalated => exact absurd rfl fresh
  | _ => decide

theorem terminated (stages : Stages requested (some .terminate) signals) : signals = [SIGTERM] := by
  cases stages
  rfl

end Stages

/-- A delivered SIGKILL that followed a SIGTERM step, outside cleanup. -/
def Escalated (signalled : List Signalled) : Prop :=
  ∃ before kill after, signalled = before ++ kill :: after ∧ kill.signal = SIGKILL ∧
    kill.result = .ok true ∧ kill.cleaning = false ∧ kill.workload.reaped = false ∧
    ∃ term ∈ before, term.signal = SIGTERM

theorem Escalated.push {signalled : List Signalled} (escalated : Escalated signalled) (sent : Signalled) :
    Escalated (signalled ++ [sent]) := by
  obtain ⟨before, kill, after, rfl, facts⟩ := escalated
  exact ⟨before, kill, after ++ [sent], by simp, facts⟩

structure Staged (c : Cancellation) : Prop where
  stages : Stages c.requested c.applied (c.signalled.map Signalled.signal)
  termAt : ∀ start ∈ c.termAt, ∃ term ∈ c.signalled, term.signal = SIGTERM ∧ term.now = start
  escalation : c.escalationApplied = true → Escalated c.signalled
  once : c.escalations + c.escalationApplied.toNat ≤ (c.signalled.map Signalled.signal).count SIGKILL

/-- An anchor of the group said that it sent SIGTERM. -/
def Confirmed (c : Cancellation) (group : Int32) : Prop :=
  ∃ anchor ∈ c.ticked, anchor.group = group ∧ ∃ frame ∈ anchor.received, Anchor.Confirms group frame

structure Acknowledging (c : Cancellation) : Prop where
  direct : c.termDirect = true →
    ∃ term ∈ c.signalled, term.signal = SIGTERM ∧ term.result = .ok true
  groups : ∀ index : Fin 2, c.termGroups.get index = true →
    ∃ targets, c.termTargets = some targets ∧ Confirmed c (targets.get index)
  reported : c.acknowledgements = c.termReported.toNat

structure Cancelling (c : Cancellation) : Prop where
  held : c.Held
  staged : Staged c
  acknowledging : Acknowledging c

theorem new_cancelling (sid guardian : Int32) (generation : UInt64) (grace now : Nat) :
    Cancelling (new sid guardian generation grace now) where
  held := ⟨Nat.zero_le _, List.nodup_nil, by simp [new], List.Perm.refl _⟩
  staged := ⟨.idle, by simp [new], by simp [new], Nat.le_refl _⟩
  acknowledging := {
    direct := by simp [new]
    groups := fun index confirmed => by
      have none : index = 0 ∨ index = 1 := by omega
      rcases none with rfl | rfl <;> cases confirmed
    reported := rfl }

namespace Cancelling

/-- Between ticks only what is requested and what is handed out changes. -/
theorem between (cancelling : Cancelling c) {requested : Option Kind} {escalationApplied termReported : Bool}
    {escalations acknowledgements : Nat}
    (stages : Stages requested c.applied (c.signalled.map Signalled.signal))
    (escalation : escalationApplied = true → c.escalationApplied = true)
    (once : escalations + escalationApplied.toNat = c.escalations + c.escalationApplied.toNat)
    (reported : acknowledgements = termReported.toNat) (resample : Bool) :
    Cancelling
      { c with requested, resample, escalationApplied, escalations, termReported, acknowledgements } where
  held := ⟨cancelling.held.room, cancelling.held.distinct, cancelling.held.honest, cancelling.held.ledger⟩
  staged := ⟨stages, cancelling.staged.termAt,
    fun escalated => cancelling.staged.escalation (escalation escalated),
    Nat.le_trans (Nat.le_of_eq once) cancelling.staged.once⟩
  acknowledging := ⟨cancelling.acknowledging.direct, cancelling.acknowledging.groups, reported⟩

theorem request (cancelling : Cancelling c) {kind : Kind} (stage : kind = .terminate ∨ kind = .kill) :
    Cancelling (c.request kind) := by
  rw [request_eq]
  exact cancelling.between (cancelling.staged.stages.request stage) id rfl
    cancelling.acknowledging.reported c.resample

/-- A target group counts as signalled once an anchor of that group confirmed it. -/
theorem tickAnchors (cancelling : Cancelling c) (ticks : Nat → Anchor.Answers) :
    Cancelling (c.tickAnchors ticks).2 where
  held := cancelling.held.tickAnchors ticks
  staged := ⟨cancelling.staged.stages, cancelling.staged.termAt, cancelling.staged.escalation,
    cancelling.staged.once⟩
  acknowledging := {
    direct := cancelling.acknowledging.direct
    reported := cancelling.acknowledging.reported
    groups := by
      have honest := (cancelling.held.tickAnchors ticks).honest
      intro index counted
      have counted : (c.termGroups.get index || c.termTargets.any fun targets =>
          (afterTicks c.anchors ticks).any fun anchor =>
            anchor.termApplied && targets.get index = anchor.group) = true := by
        change (Vector.ofFn _)[index.val] = true at counted
        simpa only [afterTicks, Vector.getElem_ofFn] using counted
      have told : c.termGroups.get index = true ∨ ∃ targets, c.termTargets = some targets ∧
          ∃ anchor ∈ afterTicks c.anchors ticks, anchor.termApplied = true ∧
            targets.get index = anchor.group := by
        refine ((Bool.or_eq_true _ _).mp counted).imp id fun confirmed => ?_
        cases recorded : c.termTargets with
        | none =>
          rw [recorded] at confirmed
          cases confirmed
        | some targets =>
          rw [recorded, Option.any_some, List.any_eq_true] at confirmed
          obtain ⟨anchor, member, facts⟩ := confirmed
          rw [Bool.and_eq_true, decide_eq_true_eq] at facts
          exact ⟨targets, rfl, anchor, member, facts⟩
      rcases told with before | ⟨targets, recorded, anchor, member, applied, same⟩
      · obtain ⟨targets, recorded, anchor, member, confirms⟩ :=
          cancelling.acknowledging.groups index before
        exact ⟨targets, recorded, anchor, List.mem_append_left _ member, confirms⟩
      · refine ⟨targets, recorded, anchor, List.mem_append_right _ member, same.symm, ?_⟩
        rw [same]
        exact honest anchor member applied }

theorem retainLive (cancelling : Cancelling c) : Cancelling c.retainLive :=
  ⟨cancelling.held.retainLive,
    ⟨cancelling.staged.stages, cancelling.staged.termAt, cancelling.staged.escalation,
      cancelling.staged.once⟩,
    cancelling.acknowledging.direct, cancelling.acknowledging.groups, cancelling.acknowledging.reported⟩

/-- A new stage is one more direct signal, and what is acknowledged about it happened. -/
theorem apply (cancelling : Cancelling c) (workload : Workload) (now : Nat) (cleaning : Bool)
    (answer : KillAnswer) : Cancelling (c.apply workload now cleaning answer).2 := by
  rcases c.apply_cases workload now cleaning answer with ⟨-, same⟩ |
    ⟨kind, direct, escalation, requested, fresh, sent, escalated, after⟩
  · rw [same]
    exact cancelling
  · obtain ⟨held, staged, acknowledging⟩ := cancelling
    have stages := staged.stages
    rw [requested] at stages fresh
    have next := stages.apply fresh
    have delivered (applied : workload.signal answer = .ok true) : workload.reaped = false := by
      unfold Workload.signal at applied
      split at applied
      · cases applied
      · rename_i unsettled
        exact Bool.eq_false_iff.mpr fun reaped => unsettled (.inl reaped)
    rw [after]
    refine ⟨⟨(held.signal kind).room, (held.signal kind).distinct, (held.signal kind).honest,
      (held.signal kind).ledger⟩, ⟨?_, ?_, ?_, ?_⟩, ⟨?_, ?_, acknowledging.reported⟩⟩
    · rw [requested, List.map_append]
      exact next
    · intro start recorded
      by_cases terminate : kind = .terminate
      · rw [if_pos terminate] at recorded
        refine ⟨_, List.mem_append_right _ (List.mem_singleton_self _), ?_, Option.some.inj recorded⟩
        rw [terminate]
        rfl
      · rw [if_neg terminate] at recorded
        obtain ⟨term, member, facts⟩ := staged.termAt start recorded
        exact ⟨term, List.mem_append_left _ member, facts⟩
    · intro escalates
      rcases escalated escalates with before | ⟨rfl, applied, terminated, running⟩
      · exact (staged.escalation before).push _
      · have sent := staged.stages
        rw [terminated] at sent
        have member : SIGTERM ∈ c.signalled.map Signalled.signal := by
          rw [sent.terminated]
          exact List.mem_singleton_self _
        obtain ⟨term, first, signal⟩ := List.mem_map.mp member
        exact ⟨c.signalled, _, [], rfl, rfl, applied, running, delivered applied, term, first, signal⟩
    · have once := staged.once
      have more : (c.signalled.map Signalled.signal).count SIGKILL ≤
          ((c.signalled.map Signalled.signal) ++ [stageSignal kind]).count SIGKILL :=
        (List.sublist_append_left _ _).count_le _
      rw [List.map_append]
      change c.escalations + escalation.toNat ≤
        ((c.signalled.map Signalled.signal) ++ [stageSignal kind]).count SIGKILL
      cases escalation with
      | false =>
        rw [Bool.toNat_false]
        omega
      | true =>
        rcases escalated rfl with before | ⟨rfl, -⟩
        · rw [before] at once
          exact once.trans more
        · have unkilled := staged.stages.unkilled fresh.symm
          rw [unkilled] at once
          rw [List.count_append, unkilled, Nat.eq_zero_of_add_eq_zero_right (Nat.le_zero.mp once)]
          decide
    · intro directly
      rcases sent directly with before | ⟨rfl, applied⟩
      · obtain ⟨term, member, facts⟩ := acknowledging.direct before
        exact ⟨term, List.mem_append_left _ member, facts⟩
      · exact ⟨_, List.mem_append_right _ (List.mem_singleton_self _), rfl, applied⟩
    · intro index counted
      exact acknowledging.groups index counted

theorem sample (cancelling : Cancelling c) (workload : Workload) (now : Nat) (failed : Bool)
    (answers : Answers) : Cancelling (c.sample workload now failed answers).2 := by
  obtain ⟨held, staged, acknowledging⟩ := cancelling
  obtain ⟨termTargets, anchors, launched, resample, retryAt, after, recorded, pinned⟩ :=
    held.sample workload now failed answers
  rw [after]
  refine ⟨⟨pinned.room, pinned.distinct, pinned.honest, pinned.ledger⟩,
    ⟨staged.stages, staged.termAt, staged.escalation, staged.once⟩,
    acknowledging.direct, fun index counted => ?_, acknowledging.reported⟩
  obtain ⟨targets, known, confirmed⟩ := acknowledging.groups index counted
  exact ⟨targets, recorded targets known, confirmed⟩

theorem escalate (cancelling : Cancelling c) (now : Nat) (ticks : Nat → Anchor.Answers) :
    Cancelling (c.escalate now ticks) := by
  have retained := (cancelling.tickAnchors ticks).retainLive
  unfold Cancellation.escalate
  dsimp only
  split
  · exact retained.request (.inr rfl)
  · exact retained

theorem resampled (cancelling : Cancelling c) (resample : Bool) : Cancelling { c with resample } :=
  cancelling.between cancelling.staged.stages id rfl cancelling.acknowledging.reported resample

theorem tick (cancelling : Cancelling c) (workload : Workload) (now : Nat) (cleaning : Bool)
    (answers : Answers) : Cancelling (c.tick workload now cleaning answers).2 := by
  have applied := (cancelling.escalate now answers.ticks).apply workload now cleaning answers.signal
  obtain ⟨after, rfl, ⟨resample, same⟩ | ⟨failed, same⟩⟩ := c.tick_cases workload now cleaning answers
  · rw [same]
    exact applied.resampled resample
  · rw [same]
    exact applied.sample workload now failed answers

theorem takeEscalationApplied (cancelling : Cancelling c) : Cancelling c.takeEscalationApplied.2 := by
  have spent : false = true → c.escalationApplied = true := Bool.noConfusion
  have once : c.escalations + c.escalationApplied.toNat + false.toNat =
      c.escalations + c.escalationApplied.toNat := Nat.add_zero _
  exact cancelling.between cancelling.staged.stages spent once cancelling.acknowledging.reported c.resample

theorem takeTermApplied (cancelling : Cancelling c) : Cancelling c.takeTermApplied.2 := by
  unfold Cancellation.takeTermApplied
  split
  · rename_i ready
    have unreported : c.termReported = false := by simpa using ready.1
    have reported := cancelling.acknowledging.reported
    rw [unreported] at reported
    exact cancelling.between cancelling.staged.stages id rfl (congrArg (· + 1) reported) c.resample
  · exact cancelling

theorem call (cancelling : Cancelling c) (call : Call) : Cancelling (c.call call) := by
  cases call with
  | request kind stage => exact cancelling.request stage
  | stop => exact (cancelling.request (.inr rfl)).resampled false
  | tick workload now cleaning answers => exact cancelling.tick workload now cleaning answers
  | takeEscalationApplied => exact cancelling.takeEscalationApplied
  | takeTermApplied => exact cancelling.takeTermApplied

theorem run (cancelling : Cancelling c) (calls : List Call) : Cancelling (c.run calls) := by
  induction calls generalizing c with
  | nil => exact cancelling
  | cons call rest ih => exact ih (cancelling.call call)

end Cancelling

/-- Whether a call asks for the kill. -/
def Call.AsksKill : Call → Prop
  | .request kind _ => kind = .kill
  | .stop => True
  | _ => False

/-- Unless asked, a kill is requested in the tick that sends it, when the grace is over. -/
structure Unasked (grace : Nat) (c : Cancellation) : Prop where
  limit : c.grace = grace
  requested : c.requested = some .kill → c.applied = some .kill
  elapsed : ∀ kill ∈ c.signalled, kill.signal = SIGKILL →
    ∃ term ∈ c.signalled, term.signal = SIGTERM ∧ grace ≤ kill.now - term.now

namespace Unasked

variable {grace : Nat}

theorem tick (unasked : Unasked grace c) (cancelling : Cancelling c) (workload : Workload) (now : Nat)
    (cleaning : Bool) (answers : Answers) : Unasked grace (c.tick workload now cleaning answers).2 := by
  obtain ⟨signalled, applied, limit, requested⟩ := c.escalate_facts now answers.ticks
  have escalated := cancelling.escalate now answers.ticks
  have staged : Unasked grace
      ((c.escalate now answers.ticks).apply workload now cleaning answers.signal).2 := by
    rcases (c.escalate now answers.ticks).apply_cases workload now cleaning answers.signal with
      ⟨settled, same⟩ | ⟨kind, direct, escalation, asked, fresh, -, -, after⟩
    · rw [same]
      refine ⟨limit.trans unasked.limit, fun kill => ?_, signalled ▸ unasked.elapsed⟩
      rcases settled with equal | missing
      · exact equal.symm.trans kill
      · cases missing.symm.trans kill
    · rw [after]
      refine ⟨limit.trans unasked.limit, fun kill => asked.symm.trans kill, fun kill member signal => ?_⟩
      dsimp only at member ⊢
      rw [signalled] at member ⊢
      rcases List.mem_append.mp member with old | new
      · obtain ⟨term, first, facts⟩ := unasked.elapsed kill old signal
        exact ⟨term, List.mem_append_left _ first, facts⟩
      · obtain rfl := List.mem_singleton.mp new
        have killing : kind = .kill := by
          by_contra other
          rw [stageSignal, if_neg other] at signal
          exact absurd signal (by decide : SIGTERM ≠ SIGKILL)
        rw [asked, killing, applied] at fresh
        rw [asked, killing] at requested
        rcases requested with before | ⟨start, recorded, due⟩
        · exact absurd (unasked.requested before.symm).symm fresh
        · obtain ⟨term, first, sigterm, began⟩ := cancelling.staged.termAt start recorded
          refine ⟨term, List.mem_append_left _ first, sigterm, ?_⟩
          rw [began, ← unasked.limit]
          exact due
  obtain ⟨after, rfl, ⟨resample, same⟩ | ⟨failed, same⟩⟩ := c.tick_cases workload now cleaning answers
  · rw [same]
    exact ⟨staged.limit, staged.requested, staged.elapsed⟩
  · rw [same]
    obtain ⟨_, _, _, _, _, sampled, -⟩ :=
      (escalated.apply workload now cleaning answers.signal).held.sample workload now failed answers
    rw [sampled]
    exact ⟨staged.limit, staged.requested, staged.elapsed⟩

theorem call (unasked : Unasked grace c) (cancelling : Cancelling c) {call : Call}
    (calm : ¬call.AsksKill) : Unasked grace (c.call call) := by
  cases call with
  | request kind stage =>
    change Unasked grace (c.request kind)
    rw [request_eq]
    refine ⟨unasked.limit, fun kill => unasked.requested ?_, unasked.elapsed⟩
    dsimp only at kill
    split at kill
    · exact absurd (Option.some.inj kill) calm
    · exact kill
  | stop => exact absurd trivial calm
  | tick workload now cleaning answers => exact unasked.tick cancelling workload now cleaning answers
  | takeEscalationApplied => exact ⟨unasked.limit, unasked.requested, unasked.elapsed⟩
  | takeTermApplied =>
    change Unasked grace c.takeTermApplied.2
    unfold takeTermApplied
    split
    · exact ⟨unasked.limit, unasked.requested, unasked.elapsed⟩
    · exact unasked

theorem run (unasked : Unasked grace c) (cancelling : Cancelling c) {calls : List Call}
    (calm : ∀ call ∈ calls, ¬call.AsksKill) : Unasked grace (c.run calls) := by
  induction calls generalizing c with
  | nil => exact unasked
  | cons call rest ih =>
    have next := unasked.call cancelling (calm call List.mem_cons_self)
    exact ih next (cancelling.call call) fun later member => calm later (List.mem_cons_of_mem _ member)

end Unasked

/-- The direct SIGTERM was delivered, and an anchor of each recorded target confirmed its own. -/
structure TermApplied (c : Cancellation) : Prop where
  direct : ∃ term ∈ c.signalled, term.signal = SIGTERM ∧ term.result = .ok true
  groups : ∃ targets, c.termTargets = some targets ∧ ∀ index : Fin 2, Confirmed c (targets.get index)

theorem Cancelling.termApplied (cancelling : Cancelling c) (taken : c.takeTermApplied.1 = true) :
    TermApplied c := by
  unfold Cancellation.takeTermApplied at taken
  split at taken
  · rename_i ready
    obtain ⟨-, directly, recorded, all⟩ := ready
    refine ⟨cancelling.acknowledging.direct directly, ?_⟩
    obtain ⟨targets, known⟩ := Option.isSome_iff_exists.mp recorded
    refine ⟨targets, known, fun index => ?_⟩
    have counted : c.termGroups.get index = true := Vector.all_eq_true.mp all index index.isLt
    obtain ⟨others, same, confirmed⟩ := cancelling.acknowledging.groups index counted
    obtain rfl := Option.some.inj (known.symm.trans same)
    exact confirmed
  · cases taken

/-- After any calls: the direct signals are SIGTERM and SIGKILL at most once and in this
order, the kill waits for the grace unless it was asked for, the anchors held are those
started and not seen to exit, and each acknowledgement is handed out at most once and
only for what happened. -/
theorem cancels_in_stages (sid guardian : Int32) (generation : UInt64) (grace created : Nat)
    (calls : List Call) :
    let c := (new sid guardian generation grace created).run calls
    (c.signalled.map Signalled.signal).Sublist [SIGTERM, SIGKILL] ∧
      ((∀ call ∈ calls, ¬call.AsksKill) → ∀ kill ∈ c.signalled, kill.signal = SIGKILL →
        ∃ term ∈ c.signalled, term.signal = SIGTERM ∧ grace ≤ kill.now - term.now) ∧
      (c.anchors.length ≤ 2 ∧ (c.anchors.map Anchor.group).Nodup ∧
        c.launched.Perm (c.finished ++ c.anchors.map Anchor.pid)) ∧
      (c.escalations ≤ 1 ∧ (c.takeEscalationApplied.1 = true → Escalated c.signalled)) ∧
      (c.acknowledgements ≤ 1 ∧ (c.takeTermApplied.1 = true → TermApplied c)) := by
  have fresh := new_cancelling sid guardian generation grace created
  have cancelling := fresh.run calls
  have unasked : Unasked grace (new sid guardian generation grace created) :=
    ⟨rfl, fun kill => (nomatch kill), fun _ member => (nomatch member)⟩
  intro c
  refine ⟨cancelling.staged.stages.sublist, fun calm => (unasked.run fresh calm).elapsed,
    ⟨cancelling.held.room, cancelling.held.distinct, cancelling.held.ledger⟩,
    ⟨?_, cancelling.staged.escalation⟩, ⟨?_, cancelling.termApplied⟩⟩
  · have once := cancelling.staged.once
    have kills := cancelling.staged.stages.count_kill
    exact (Nat.le_add_right _ _).trans (once.trans kills)
  · rw [show c.acknowledgements = c.termReported.toNat from cancelling.acknowledging.reported]
    exact Bool.toNat_le _

/-- Both groups confirm, and the backstop then kills. -/
theorem cancels_in_stages_acknowledged :
    let heard (frame : Frame) : Anchor.Answers := ⟨[.data frame.encode], [], .running⟩
    let tick (now : Nat) (first second : Frame) : Call := .tick ⟨8, false, false⟩ now false
      ⟨fun index => if index = 0 then heard first else heard second, .delivered, 9, some 11, some 12⟩
    let hello : Frame := ⟨.hello, 1, #v[1, 0, 0, 0]⟩
    let confirms (group : Int32) : Frame := ⟨.signalApplied, 1, #v[group, SIGTERM, 0, 0]⟩
    let c := (new 5 6 1 100 0).run
      [.request .terminate (.inl rfl), tick 0 hello hello, tick 1 hello hello,
        tick 2 (confirms 8) (confirms 9), tick 100 (confirms 8) (confirms 9)]
    TermApplied c ∧ Escalated c.signalled := by
  intro heard tick hello confirms c
  obtain ⟨-, -, -, ⟨-, escalated⟩, -, applied⟩ := cancels_in_stages 5 6 1 100 0
    [.request .terminate (.inl rfl), tick 0 hello hello, tick 1 hello hello,
      tick 2 (confirms 8) (confirms 9), tick 100 (confirms 8) (confirms 9)]
  exact ⟨applied (by decide +kernel +zetaReduce), escalated (by decide +kernel +zetaReduce)⟩

end PtyRuntime.Helper.Cancellation
