import PtyRuntime.Helpers.Anchor

/-! What a tick leaves of an anchor: it stays the anchor of the same process and group,
only an observed exit finishes it, and a confirmation it counts was received. -/
namespace PtyRuntime.Helper.Anchor

open Guardian

/-- The frame in which an anchor says that it has sent SIGTERM to its group. -/
def Confirms (group : Int32) (frame : Frame) : Prop :=
  frame.kind = .signalApplied ∧ frame.values = #v[group, SIGTERM, 0, 0]

/-- `b` is what became of `a`. -/
structure Follows (a b : Anchor) : Prop where
  pid : b.pid = a.pid
  group : b.group = a.group
  finished : b.state = .finished → a.state = .finished
  confirmed : b.termApplied = true →
    a.termApplied = true ∨ ∃ frame ∈ b.received, Confirms a.group frame
  received : ∀ frame ∈ a.received, frame ∈ b.received

namespace Follows

variable {a b c : Anchor}

theorem refl (a : Anchor) : Follows a a :=
  ⟨rfl, rfl, id, .inl, fun _ member => member⟩

theorem trans (first : Follows a b) (second : Follows b c) : Follows a c where
  pid := second.pid.trans first.pid
  group := second.group.trans first.group
  finished done := first.finished (second.finished done)
  confirmed applied := by
    rcases second.confirmed applied with before | ⟨frame, member, confirms⟩
    · rcases first.confirmed before with before | ⟨frame, member, confirms⟩
      · exact .inl before
      · exact .inr ⟨frame, second.received frame member, confirms⟩
    · exact .inr ⟨frame, member, first.group ▸ confirms⟩
  received frame member := second.received frame (first.received frame member)

end Follows

/-- A new anchor has said nothing yet. -/
theorem start_some {forked : Option Int32} {group : Int32} {generation : UInt64} {a : Anchor}
    (started : start forked group generation = some a) :
    forked = some a.pid ∧ a.group = group ∧ a.state = .joining ∧ a.termApplied = false := by
  obtain ⟨pid, rfl, rfl⟩ := Option.map_eq_some_iff.mp started
  exact ⟨rfl, rfl, rfl, rfl⟩

/-- The channel is the anchor's own business. -/
theorem channel_follows (a : Anchor) (channel : Channel) : Follows a { a with channel } :=
  ⟨rfl, rfl, id, .inl, fun _ member => member⟩

theorem request_follows (a : Anchor) (kind : Kind) : Follows a (a.request kind) := by
  unfold request
  split
  · exact ⟨rfl, rfl, id, .inl, fun _ member => member⟩
  · exact .refl a

/-- A frame that is accepted is a greeting or a confirmation. -/
theorem receive_ok {a b : Anchor} {frame : Frame} (accepted : a.receive frame = .ok b) :
    (∃ state, state ≠ .finished ∧ b = { a with state }) ∨
      (Confirms a.group frame ∧ b = { a with termApplied := true }) := by
  unfold receive at accepted
  cases kind : frame.kind
  case hello =>
    rw [kind] at accepted
    refine .inl ⟨if frame.values.first = 1 then .pinned else .rejected, ?_, (Except.ok.inj accepted).symm⟩
    split <;> exact State.noConfusion
  case signalApplied =>
    rw [kind] at accepted
    dsimp only at accepted
    split at accepted
    · rename_i confirmed
      exact .inr ⟨⟨kind, confirmed.2.2⟩, (Except.ok.inj accepted).symm⟩
    · cases accepted
  all_goals
    rw [kind] at accepted
    cases accepted

/-- The history grows by the frame before it is looked at. -/
theorem receive_follows {a b : Anchor} {channel : Channel} {frame : Frame}
    (accepted : { a with channel, received := a.received ++ [frame] }.receive frame = .ok b) :
    Follows a b := by
  rcases receive_ok accepted with ⟨state, going, rfl⟩ | ⟨confirms, rfl⟩
  · exact ⟨rfl, rfl, fun done => absurd done going, .inl, fun _ member => List.mem_append_left _ member⟩
  · exact ⟨rfl, rfl, id,
      fun _ => .inr ⟨frame, List.mem_append_right _ (List.mem_singleton_self _), confirms⟩,
      fun _ member => List.mem_append_left _ member⟩

theorem messages_follows (reads : Nat) (answers : List ReadAnswer) (a : Anchor) :
    Follows a (messages reads answers a).2 := by
  induction reads generalizing answers a with
  | zero => exact .refl a
  | succ reads ih =>
    cases answers with
    | nil => exact .refl a
    | cons read answers =>
      unfold messages
      dsimp only
      split
      · exact a.channel_follows _
      · exact a.channel_follows _
      · rename_i frame _
        split
        · exact ⟨rfl, rfl, id, .inl, fun _ member => List.mem_append_left _ member⟩
        · rename_i accepted
          exact (receive_follows accepted).trans (ih _ _)

theorem forward_follows (a : Anchor) : Follows a a.forward.2 := by
  unfold forward
  split
  · split
    · exact .refl a
    · split
      · exact a.channel_follows _
      · exact ⟨rfl, rfl, id, .inl, fun _ member => member⟩
  · exact .refl a

/-- Only an observed exit finishes an anchor. -/
theorem settle_cases (a : Anchor) (answers : Answers) :
    Follows a (a.settle answers).2 ∨
      (answers.wait = .exited ∧ (a.settle answers).1 = .ok () ∧
        ∃ channel, (a.settle answers).2 = { a with channel, state := .finished }) := by
  unfold settle
  cases answers.wait with
  | failed => exact .inl (a.channel_follows _)
  | running => exact .inl (a.channel_follows _)
  | exited => exact .inr ⟨rfl, rfl, _, rfl⟩

theorem tick_cases (a : Anchor) (answers : Answers) :
    Follows a (a.tick answers).2 ∨
      (answers.wait = .exited ∧ (a.tick answers).1 = .ok () ∧
        ∃ before channel, Follows a before ∧
          (a.tick answers).2 = { before with channel, state := .finished }) := by
  unfold tick
  split
  · exact .inl (.refl a)
  · have heard := messages_follows 8 answers.reads a
    split
    · rename_i failed
      exact .inl (failed ▸ heard)
    · rename_i a' read
      rw [read] at heard
      have sent := forward_follows a'
      split
      · rename_i failed
        exact .inl (heard.trans (failed ▸ sent))
      · rename_i b done
        rw [done] at sent
        rcases settle_cases b answers with waits | ⟨exited, fine, channel, gone⟩
        · exact .inl (heard.trans (sent.trans waits))
        · exact .inr ⟨exited, fine, b, channel, heard.trans sent, gone⟩

@[simp] theorem tick_pid (a : Anchor) (answers : Answers) : (a.tick answers).2.pid = a.pid := by
  rcases a.tick_cases answers with follows | ⟨-, -, before, channel, follows, gone⟩
  · exact follows.pid
  · rw [gone]
    exact follows.pid

@[simp] theorem tick_group (a : Anchor) (answers : Answers) : (a.tick answers).2.group = a.group := by
  rcases a.tick_cases answers with follows | ⟨-, -, before, channel, follows, gone⟩
  · exact follows.group
  · rw [gone]
    exact follows.group

/-- A confirmation that counts was received. -/
def Honest (a : Anchor) : Prop := a.termApplied = true → ∃ frame ∈ a.received, Confirms a.group frame

theorem Follows.honest {a b : Anchor} (follows : Follows a b) (honest : a.Honest) : b.Honest := by
  intro applied
  rw [follows.group]
  rcases follows.confirmed applied with before | confirmed
  · obtain ⟨frame, member, confirms⟩ := honest before
    exact ⟨frame, follows.received frame member, confirms⟩
  · exact confirmed

theorem Honest.tick {a : Anchor} (honest : a.Honest) (answers : Answers) : (a.tick answers).2.Honest := by
  rcases a.tick_cases answers with follows | ⟨-, -, before, channel, follows, gone⟩
  · exact follows.honest honest
  · rw [gone]
    exact follows.honest honest

theorem tick_finished {a : Anchor} {answers : Answers} (going : a.state ≠ .finished)
    (finished : (a.tick answers).2.state = .finished) :
    answers.wait = .exited ∧ (a.tick answers).1 = .ok () := by
  rcases a.tick_cases answers with follows | ⟨exited, fine, -⟩
  · exact absurd (follows.finished finished) going
  · exact ⟨exited, fine⟩

end PtyRuntime.Helper.Anchor
