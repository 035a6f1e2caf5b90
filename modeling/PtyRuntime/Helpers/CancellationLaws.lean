import PtyRuntime.Helpers.AnchorLaws
import PtyRuntime.Helpers.Cancellation

/-! What one step of a cancellation keeps: the anchors it holds, the stages it took and
what its acknowledgements stand for. -/
namespace PtyRuntime.Helper.Cancellation

open Guardian

variable {c : Cancellation}

theorem request_eq (c : Cancellation) (kind : Kind) :
    c.request kind = { c with requested := if c.requested ≠ some .kill then some kind else c.requested } := by
  unfold request
  split <;> rfl

theorem answered_cases (c : Cancellation) (kind : Kind) (cleaning : Bool) (result : Except IoError Bool) :
    ∃ direct escalation,
      (c.answered kind cleaning result).2 = { c with termDirect := direct, escalationApplied := escalation } ∧
      (direct = true → c.termDirect = true ∨ (kind = .terminate ∧ result = .ok true)) ∧
      (escalation = true → c.escalationApplied = true ∨
        (kind = .kill ∧ result = .ok true ∧ c.applied = some .terminate ∧ cleaning = false)) := by
  unfold answered
  cases result with
  | error error => exact ⟨_, _, rfl, .inl, .inl⟩
  | ok applied =>
    dsimp only
    split
    · rename_i terminate
      exact ⟨applied, _, rfl, fun sent => .inr ⟨terminate, sent ▸ rfl⟩, .inl⟩
    · split
      · rename_i escalates
        obtain ⟨delivered, kill, before, running⟩ := escalates
        exact ⟨_, true, rfl, .inl, fun _ =>
          .inr ⟨kill, delivered ▸ rfl, before, by simpa using running⟩⟩
      · exact ⟨_, _, rfl, .inl, .inl⟩

/-- The direct signal of a stage. -/
def stageSignal (kind : Kind) : Int32 := if kind = .kill then SIGKILL else SIGTERM

/-- Either there is no new stage, or it is taken with one direct signal. -/
theorem apply_cases (c : Cancellation) (workload : Workload) (now : Nat) (cleaning : Bool)
    (answer : KillAnswer) :
    ((c.requested = c.applied ∨ c.requested = none) ∧ (c.apply workload now cleaning answer).2 = c) ∨
    ∃ kind direct escalation, c.requested = some kind ∧ c.requested ≠ c.applied ∧
      (direct = true → c.termDirect = true ∨ (kind = .terminate ∧ workload.signal answer = .ok true)) ∧
      (escalation = true → c.escalationApplied = true ∨
        (kind = .kill ∧ workload.signal answer = .ok true ∧ c.applied = some .terminate ∧ cleaning = false)) ∧
      (c.apply workload now cleaning answer).2 =
        { c with
          signalled := c.signalled ++ [⟨stageSignal kind, workload, now, cleaning, workload.signal answer⟩]
          termDirect := direct
          escalationApplied := escalation
          anchors := c.anchors.map fun anchor => anchor.request kind
          termAt := if kind = .terminate then some now else c.termAt
          resample := true
          applied := some kind } := by
  unfold apply
  split
  · rename_i fresh
    split
    · rename_i missing
      exact .inl ⟨.inr missing, rfl⟩
    · rename_i kind requested
      obtain ⟨direct, escalation, after, sent, escalated⟩ :=
        answered_cases { c with
          signalled := c.signalled ++
            [Signalled.mk (stageSignal kind) workload now cleaning (workload.signal answer)] }
          kind cleaning (workload.signal answer)
      refine .inr ⟨kind, direct, escalation, requested, fresh, sent, escalated, ?_⟩
      dsimp only
      rw [← stageSignal, after]
  · rename_i same
    exact .inl ⟨.inl (not_not.mp same), rfl⟩

/-- The state in which `tick` looks for a new stage. -/
def escalate (c : Cancellation) (now : Nat) (ticks : Nat → Anchor.Answers) : Cancellation :=
  let c := (c.tickAnchors ticks).2.retainLive
  if backstopDue c.termAt c.grace now then c.request .kill else c

/-- Only the backstop requests anything. -/
theorem escalate_facts (c : Cancellation) (now : Nat) (ticks : Nat → Anchor.Answers) :
    (c.escalate now ticks).signalled = c.signalled ∧ (c.escalate now ticks).applied = c.applied ∧
      (c.escalate now ticks).grace = c.grace ∧
      ((c.escalate now ticks).requested = c.requested ∨ ∃ start ∈ c.termAt, c.grace ≤ now - start) := by
  unfold escalate
  dsimp only
  split
  · rename_i due
    have started : ∃ start ∈ c.termAt, c.grace ≤ now - start := by
      obtain ⟨start, recorded, elapsed⟩ := (Option.any_eq_true _ _).mp due
      exact ⟨start, recorded, of_decide_eq_true elapsed⟩
    rw [request_eq]
    exact ⟨rfl, rfl, rfl, .inr started⟩
  · exact ⟨rfl, rfl, rfl, .inl rfl⟩

/-- After its stage a tick samples the groups, or at most drops the wish to. -/
theorem tick_cases (c : Cancellation) (workload : Workload) (now : Nat) (cleaning : Bool)
    (answers : Answers) :
    ∃ after, after = ((c.escalate now answers.ticks).apply workload now cleaning answers.signal).2 ∧
      ((∃ resample, (c.tick workload now cleaning answers).2 = { after with resample }) ∨
        ∃ failed, (c.tick workload now cleaning answers).2 = (after.sample workload now failed answers).2) := by
  refine ⟨_, rfl, ?_⟩
  generalize staged : (c.escalate now answers.ticks).apply workload now cleaning answers.signal = result
  have unfolded : ∃ failed, c.tick workload now cleaning answers =
      if cleaning then (failed, { result.2 with resample := false })
      else if result.2.resample ∧ result.2.retryAt ≤ now then result.2.sample workload now failed answers
      else (failed, result.2) := by
    rw [← staged]
    exact ⟨_, rfl⟩
  obtain ⟨failed, same⟩ := unfolded
  rw [same]
  split
  · exact .inl ⟨false, rfl⟩
  · split
    · exact .inr ⟨failed, rfl⟩
    · exact .inl ⟨result.2.resample, rfl⟩

/-- The anchors held are those started and not seen to exit, at most two and one a group. -/
structure Held (c : Cancellation) : Prop where
  room : c.anchors.length ≤ 2
  distinct : (c.anchors.map Anchor.group).Nodup
  honest : ∀ anchor ∈ c.anchors, anchor.Honest
  ledger : c.launched.Perm (c.finished ++ c.anchors.map Anchor.pid)

/-- What the ticks of one pass make of the anchors. -/
def afterTicks (anchors : List Anchor) (ticks : Nat → Anchor.Answers) : List Anchor :=
  (anchors.mapIdx fun index anchor => anchor.tick (ticks index)).map Prod.snd

theorem map_afterTicks {α : Type} (f : Anchor → α)
    (same : ∀ (anchor : Anchor) answers, f (anchor.tick answers).2 = f anchor) (anchors : List Anchor)
    (ticks : Nat → Anchor.Answers) : (afterTicks anchors ticks).map f = anchors.map f := by
  apply List.ext_getElem
  · simp [afterTicks]
  · intro index _ _
    simp [afterTicks, same]

theorem mem_afterTicks {anchors : List Anchor} {ticks : Nat → Anchor.Answers} {after : Anchor}
    (member : after ∈ afterTicks anchors ticks) :
    ∃ anchor ∈ anchors, ∃ answers, after = (anchor.tick answers).2 := by
  obtain ⟨result, inside, rfl⟩ := List.mem_map.mp member
  obtain ⟨index, bound, rfl⟩ := List.mem_mapIdx.mp inside
  exact ⟨_, List.getElem_mem bound, _, rfl⟩

namespace Held

theorem tickAnchors (held : c.Held) (ticks : Nat → Anchor.Answers) : (c.tickAnchors ticks).2.Held where
  room := by
    have length := congrArg List.length (map_afterTicks Anchor.pid (fun _ _ => by simp) c.anchors ticks)
    simp only [List.length_map] at length
    exact length ▸ held.room
  distinct := by
    change ((afterTicks c.anchors ticks).map Anchor.group).Nodup
    rw [map_afterTicks Anchor.group (fun _ _ => by simp)]
    exact held.distinct
  honest after member := by
    obtain ⟨anchor, inside, answers, rfl⟩ := mem_afterTicks member
    exact (held.honest anchor inside).tick answers
  ledger := by
    change c.launched.Perm (c.finished ++ (afterTicks c.anchors ticks).map Anchor.pid)
    rw [map_afterTicks Anchor.pid (fun _ _ => by simp)]
    exact held.ledger

theorem retainLive (held : c.Held) : c.retainLive.Held where
  room := (List.length_filter_le _ _).trans held.room
  distinct := (List.filter_sublist.map Anchor.group).nodup held.distinct
  honest anchor member := held.honest anchor (List.mem_of_mem_filter member)
  ledger := by
    have parted := (List.filter_append_perm (fun anchor : Anchor => anchor.state = .finished) c.anchors).map
      Anchor.pid
    have split := held.ledger.trans (parted.symm.append_left c.finished)
    simpa only [Cancellation.retainLive, List.map_append, List.append_assoc, decide_not] using split

theorem signal (held : c.Held) (kind : Kind) :
    ({ c with anchors := c.anchors.map fun anchor => anchor.request kind } : Cancellation).Held where
  room := by
    rw [List.length_map]
    exact held.room
  distinct := by
    rw [List.map_map]
    have same : Anchor.group ∘ (fun anchor => anchor.request kind) = Anchor.group :=
      funext fun anchor => (anchor.request_follows kind).group
    rw [same]
    exact held.distinct
  honest after member := by
    obtain ⟨anchor, inside, rfl⟩ := List.mem_map.mp member
    exact (anchor.request_follows kind).honest (held.honest anchor inside)
  ledger := by
    rw [List.map_map]
    have same : Anchor.pid ∘ (fun anchor => anchor.request kind) = Anchor.pid :=
      funext fun anchor => (anchor.request_follows kind).pid
    rw [same]
    exact held.ledger

/-- A new anchor for a group that has none. -/
theorem push (held : c.Held) {anchor : Anchor} (fresh : ∀ other ∈ c.anchors, other.group ≠ anchor.group)
    (room : c.anchors.length ≠ 2) (honest : anchor.Honest) :
    { c with anchors := c.anchors ++ [anchor], launched := c.launched ++ [anchor.pid] }.Held where
  room := by
    have bound := held.room
    rw [List.length_append, List.length_singleton]
    omega
  distinct := by
    rw [List.map_append]
    refine held.distinct.append (List.nodup_singleton _) ?_
    rintro group old new
    obtain ⟨other, member, rfl⟩ := List.mem_map.mp old
    exact fresh other member (List.mem_singleton.mp new)
  honest other member := by
    rcases List.mem_append.mp member with old | new
    · exact held.honest other old
    · exact (List.mem_singleton.mp new) ▸ honest
  ledger := by
    rw [List.map_append, ← List.append_assoc]
    exact held.ledger.append_right [anchor.pid]

theorem pin (held : c.Held) (targets : List (Int32 × Option Int32)) (failed : Bool) :
    ∃ anchors launched, (Cancellation.pin targets failed c).2 = { c with anchors, launched } ∧
      { c with anchors, launched }.Held := by
  induction targets generalizing c failed with
  | nil => exact ⟨c.anchors, c.launched, rfl, held⟩
  | cons target rest ih =>
    obtain ⟨group, forked⟩ := target
    unfold Cancellation.pin
    split
    · exact ih held failed
    · rename_i fresh
      simp only [List.any_eq_true, decide_eq_true_eq, not_or, not_exists, not_and] at fresh
      split
      · exact ⟨c.anchors, c.launched, rfl, held⟩
      · rename_i room
        split
        · rename_i anchor started
          obtain ⟨-, joins, -, silent⟩ := Anchor.start_some started
          have honest : anchor.Honest := fun applied => by
            rw [silent] at applied
            cases applied
          have asked : (c.requested.elim anchor anchor.request).group = group ∧
              (c.requested.elim anchor anchor.request).Honest := by
            cases c.requested with
            | none => exact ⟨joins, honest⟩
            | some kind =>
              have follows := anchor.request_follows kind
              exact ⟨follows.group.trans joins, follows.honest honest⟩
          have other (live : Anchor) (member : live ∈ c.anchors) :
              live.group ≠ (c.requested.elim anchor anchor.request).group :=
            asked.1 ▸ fresh.2 live member
          exact ih (held.push other room asked.2) failed
        · exact ih held true

theorem sample (held : c.Held) (workload : Workload) (now : Nat) (failed : Bool) (answers : Answers) :
    ∃ termTargets anchors launched resample retryAt,
      (c.sample workload now failed answers).2 =
        { c with termTargets, anchors, launched, resample, retryAt } ∧
      (∀ targets, c.termTargets = some targets → termTargets = some targets) ∧
      { c with anchors, launched }.Held := by
  unfold Cancellation.sample
  split
  · exact ⟨_, _, _, _, _, rfl, fun _ recorded => recorded, held⟩
  · split
    · exact ⟨_, _, _, _, _, rfl, fun _ recorded => recorded, held⟩
    · dsimp only
      split
      · rename_i unset
        have before : { c with termTargets := some #v[workload.pid, answers.foreground] }.Held :=
          ⟨held.room, held.distinct, held.honest, held.ledger⟩
        obtain ⟨anchors, launched, pinned, after⟩ := before.pin
          [(workload.pid, answers.workloadForked), (answers.foreground, answers.foregroundForked)] failed
        rw [pinned]
        refine ⟨_, _, _, _, _, rfl, fun targets recorded => ?_,
          ⟨after.room, after.distinct, after.honest, after.ledger⟩⟩
        rw [recorded] at unset
        exact absurd unset.2 Bool.false_ne_true
      · obtain ⟨anchors, launched, pinned, after⟩ := held.pin
          [(workload.pid, answers.workloadForked), (answers.foreground, answers.foregroundForked)] failed
        rw [pinned]
        exact ⟨_, _, _, _, _, rfl, fun _ recorded => recorded, after⟩

end Held
end PtyRuntime.Helper.Cancellation
