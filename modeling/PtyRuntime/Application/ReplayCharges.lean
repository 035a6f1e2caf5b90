import PtyRuntime.Application.ReservationLaws

/-! Replay storage is exactly charged over every run, and a callback that nothing
interrupts is the atomic callback of the session context. -/
namespace PtyRuntime.Reservations

open Tally

variable {κ : Type} [DecidableEq κ]

/-- A call driven to its end with no other access in between. -/
def alone (allocation : ReplayBuffer.Allocation) : Nat → Reservations κ × Progress κ →
    Reservations κ × Progress κ
  | 0, state => state
  | _ + 1, (r, .ended granted) => (r, .ended granted)
  | fuel + 1, (r, .running task) => alone allocation fuel (r.perform task allocation)

/-- The context of a session as its own callbacks see it. -/
structure Views (r : Reservations κ) (s : ChargedSession) (c : SessionContext) : Prop where
  replay : s.replay = c.replay
  watchers : s.watchers = c.watchers
  poisoned : s.poisoned = c.poisoned
  replayBytes : s.replayBytes = c.replayBytes
  quota : r.quotas r.replayQuota = c.replayQuota

/-- The same runtime with the replay quota at another level. -/
def withReplay (r : Reservations κ) (quota : Quota) : Reservations κ :=
  { r with quotas := Function.update r.quotas r.replayQuota quota }

theorem withReplay_self (r : Reservations κ) : r.withReplay (r.quotas r.replayQuota) = r := by
  simp [withReplay]

/-- The admission of a callback that nothing interrupts. -/
theorem admit_alone (r : Reservations κ) (s : ChargedSession) (bytes : Bytes)
    (allocation : ReplayBuffer.Allocation) :
    let admitted := SessionContext.admitReplay s.replay (r.quotas r.replayQuota) s.replayBytes
      bytes.length allocation
    ∃ acquired released,
      alone allocation 3
        (if s.replay.allocated < s.replayTarget bytes.length then
          (r, .running (.grow s bytes (s.replayTarget bytes.length)))
        else (r.unlock (s.append bytes), .ended true)) =
      ((r.withReplay admitted.2).unlock
        ({ s with replay := admitted.1, acquired, released }.append bytes), .ended true) := by
  intro admitted
  have shape : admitted = SessionContext.admitReplay s.replay (r.quotas r.replayQuota)
    s.replayBytes bytes.length allocation := rfl
  obtain ⟨target, asked⟩ : ∃ target, target = s.replayTarget bytes.length := ⟨_, rfl⟩
  rw [← asked]
  simp only [ChargedSession.replayTarget] at asked
  simp only [SessionContext.admitReplay, ← asked] at shape
  by_cases below : s.replay.allocated < target
  · rw [if_pos below] at shape ⊢
    rcases first : (r.quotas r.replayQuota).acquire (target - s.replay.allocated) with ⟨ok, quota⟩
    cases ok with
    | false =>
      rw [first] at shape
      refine ⟨s.acquired, s.released, ?_⟩
      simp only [shape]
      simp [alone, perform, take, first, withReplay]
    | true =>
      rw [first] at shape
      rcases given : s.replay.reserveCapacity target allocation with ⟨answer, replay⟩
      rw [given] at shape
      cases answer with
      | error e =>
        refine ⟨s.acquired + (target - s.replay.allocated),
          s.released + (target - s.replay.allocated), ?_⟩
        simp only [shape]
        simp [alone, perform, take, first, withReplay, reserved, given, put]
      | ok actual =>
        by_cases all : actual = target
        · refine ⟨s.acquired + (target - s.replay.allocated), s.released, ?_⟩
          simp only [shape, if_pos all]
          simp [alone, perform, take, first, withReplay, reserved, given, all]
        · by_cases more : target < actual
          · rcases second : quota.acquire (actual - target) with ⟨ok, quota'⟩
            simp only [if_neg all, if_pos more, second] at shape
            cases ok with
            | false =>
              refine ⟨s.acquired + (target - s.replay.allocated), s.released + target, ?_⟩
              simp only [shape]
              simp [alone, perform, take, first, withReplay, reserved, given, all, more, second, put]
            | true =>
              refine ⟨s.acquired + (target - s.replay.allocated) + (actual - target), s.released, ?_⟩
              simp only [shape]
              simp [alone, perform, take, first, withReplay, reserved, given, all, more, second]
          · refine ⟨s.acquired + (target - s.replay.allocated), s.released + (target - actual), ?_⟩
            simp only [shape, if_neg all, if_neg more]
            simp [alone, perform, take, first, withReplay, reserved, given, all, more, put]
  · rw [if_neg below] at shape ⊢
    refine ⟨s.acquired, s.released, ?_⟩
    simp only [shape]
    rw [withReplay_self]
    rfl

/-- Between its lock and its unlock, a callback that nothing interrupts is the atomic
`outputObserved` of the session's context. -/
theorem callback_alone {r : Reservations κ} {s : ChargedSession} {c : SessionContext}
    (views : Views r s c) (bytes : Bytes) (staging : Staging)
    (allocation : ReplayBuffer.Allocation) :
    ∃ s' granted, alone allocation 3 (r.locked s bytes staging) =
        ((r.withReplay (c.outputObserved bytes staging allocation).2.2.replayQuota).unlock s',
          .ended granted) ∧
      s'.replay = (c.outputObserved bytes staging allocation).2.2.replay ∧
      s'.watchers = (c.outputObserved bytes staging allocation).2.2.watchers := by
  have refused : ∃ s' granted, alone allocation 3 (r.unlock s, .ended false) =
      ((r.withReplay c.replayQuota).unlock s', .ended granted) ∧
        s'.replay = c.replay ∧ s'.watchers = c.watchers := by
    rw [← views.quota, withReplay_self]
    exact ⟨s, false, rfl, views.replay, views.watchers⟩
  have accepted : ∃ s' granted, alone allocation 3
      (if s.replay.allocated < s.replayTarget bytes.length then
        (r, .running (.grow s bytes (s.replayTarget bytes.length)))
      else (r.unlock (s.append bytes), .ended true)) =
      ((r.withReplay (c.retainOutput bytes allocation).2.2.replayQuota).unlock s',
        .ended granted) ∧
      s'.replay = (c.retainOutput bytes allocation).2.2.replay ∧
      s'.watchers = (c.retainOutput bytes allocation).2.2.watchers := by
    obtain ⟨acquired, released, finished⟩ := admit_alone r s bytes allocation
    rw [finished, views.quota, views.replay, views.replayBytes]
    unfold SessionContext.retainOutput ChargedSession.append
    rcases SessionContext.admitReplay c.replay c.replayQuota c.replayBytes bytes.length allocation
      with ⟨replay, quota⟩
    rcases appended : replay.appendWithLimit bytes replay.allocated with ⟨answer, replay'⟩
    simp only [appended]
    cases answer with
    | error e => exact ⟨_, true, rfl, rfl, views.watchers⟩
    | ok =>
      refine ⟨_, true, rfl, rfl, ?_⟩
      simp only [views.watchers, SessionContext.takeWakers]
  unfold locked SessionContext.outputObserved
  rw [← views.poisoned]
  split
  · exact refused
  · cases staging with
    | unprojected => exact accepted
    | unavailable => exact refused
    | answered acceptance =>
      cases acceptance with
      | accepted => exact accepted
      | backpressure | closed => exact refused

/-- Replay memory is exactly charged over every run: between callbacks each session's
charge is its allocated capacity, which holds what it retains; the charges make up the
quota's level together with what else is charged there, within the limit; no append
reallocates; and dropping a session gives back its charge. -/
theorem replay_exactly_charged (limits : κ → Nat) (observers replayQuota : κ)
    (events : List (Event κ)) :
    let r := (new limits observers replayQuota).run events
    (∀ s ∈ r.sessions, s.acquired = s.released + s.replay.allocated ∧
      s.replay.bytes.length ≤ s.replay.allocated ∧ s.replay.bytes.length ≤ s.replayBytes) ∧
    (∀ (s : ChargedSession) (bytes : Bytes),
      (s.append bytes).replay.allocated = s.replay.allocated) ∧
    (r.quotas replayQuota).used =
      total (fun lease => lease.2.charge replayQuota) r.leases +
      total (fun lease => lease.2.charge replayQuota) r.inputs +
      total (fun s => s.acquired - s.released +
        amount replayQuota (observers, s.watchers.entries.length)) r.sessions +
      total (taskCharge observers replayQuota replayQuota) r.tasks ∧
    (r.quotas replayQuota).used ≤ limits replayQuota ∧
    (∀ id s, r.sessions.find? (·.id = id) = some s →
      (r.tasks.any fun task => task.session? = some id) = false →
      r.step (.dropSession id) =
        { r with sessions := r.sessions.eraseP (·.id = id) }.spawn
          (.giveBack [(replayQuota, s.acquired - s.released),
            (observers, s.watchers.entries.length)] false)) := by
  intro r
  have solvent : Solvent (new limits observers replayQuota) r fun _ => 0 :=
    run_solvent (new_solvent ..) events
  have named : r.observers = observers ∧ r.replayQuota = replayQuota :=
    ⟨solvent.fixed.observers, solvent.fixed.replayQuota⟩
  have exactly : ∀ s ∈ r.sessions, s.acquired - s.released = s.replay.allocated := by
    intro s member
    have := (solvent.sessions s member).charged
    omega
  refine ⟨fun s member => ?_, ChargedSession.append_allocated, ?_, ?_, ?_⟩
  · have sound := solvent.sessions s member
    exact ⟨sound.charged, sound.fits, sound.bounded⟩
  · have sums : total (fun s => s.acquired - s.released +
        amount replayQuota (observers, s.watchers.entries.length)) r.sessions =
        total (sessionCharge observers replayQuota replayQuota) r.sessions := by
      refine total_congr fun s member => ?_
      rw [exactly s member]
      simp [sessionCharge, amount]
    rw [sums, solvent.balance, charged, named.1, named.2]
    rfl
  · have := solvent.limited replayQuota
    rw [solvent.fixed.limits] at this
    exact this
  · intro id s found unused
    have member := List.mem_of_find?_eq_some found
    simp only [step, found, unused, dropReleases, named.1, named.2, exactly s member]
    rfl

end PtyRuntime.Reservations
