import PtyRuntime.Application.Runtime.SlotLaws

/-! What a section of a call may do to the gate and the registry. -/
namespace PtyRuntime

/-- No fact that `s` has is missing from `t`. -/
structure SessionStatus.Within (s t : SessionStatus) : Prop where
  exit : s.exit.isSome → t.exit.isSome
  drain : s.drain.isSome → t.drain.isSome
  supervision : s.supervisionError.isSome → t.supervisionError.isSome
  admission : s.admissionError.isSome → t.admissionError.isSome

namespace SessionStatus

theorem Within.trans {s t u : SessionStatus} (first : Within s t) (second : Within t u) : Within s u where
  exit known := second.exit (first.exit known)
  drain known := second.drain (first.drain known)
  supervision known := second.supervision (first.supervision known)
  admission known := second.admission (first.admission known)

theorem within_refl (s : SessionStatus) : Within s s :=
  ⟨(fun known => known), (fun known => known), (fun known => known), fun known => known⟩

theorem recordExit_within (s : SessionStatus) (status : ExitStatus) : Within s (s.recordExit status).2 := by
  unfold recordExit
  split
  · exact within_refl s
  · exact { within_refl s with exit := fun _ => rfl }

theorem recordDrain_within (s : SessionStatus) (outcome : DrainOutcome) : Within s (s.recordDrain outcome).2 := by
  unfold recordDrain
  split
  · exact within_refl s
  · exact { within_refl s with drain := fun _ => rfl }

theorem recordFailure_within (s : SessionStatus) (error : ProcessError) : Within s (s.recordFailure error) :=
  { within_refl s with supervision := fun _ => by simp [recordFailure] }

theorem recordAdmissionFailure_within (s : SessionStatus) (error : RuntimeError) :
    Within s (s.recordAdmissionFailure error) :=
  { within_refl s with admission := fun _ => by simp [recordAdmissionFailure] }

theorem report_within (s : SessionStatus) (event : Report) : Within s (s.report event) := by
  cases event with
  | exited status =>
    have recorded := s.recordExit_within status
    simp only [report]
    split
    · rename_i t failed
      rw [failed] at recorded
      exact recorded.trans (recordFailure_within t .internal)
    · rename_i t kept
      rw [kept] at recorded
      exact recorded
  | drained outcome =>
    have recorded := s.recordDrain_within outcome
    simp only [report]
    split
    · rename_i t failed
      rw [failed] at recorded
      exact recorded.trans (recordFailure_within t .internal)
    · rename_i t kept
      rw [kept] at recorded
      exact recorded
  | supervisionFailed error => exact s.recordFailure_within error
  | cancel =>
    simp only [report, admitCancel]
    split
    · exact within_refl s
    · exact { within_refl s with exit := fun known => known }
  | projectionRejected error => exact (s.recordAdmissionFailure_within error).trans (recordDrain_within _ _)
  | processRejected error => exact (s.recordFailure_within error).trans (recordDrain_within _ _)

/-- A finished session stays finished, whatever is reported of it. -/
theorem report_finished {s : SessionStatus} (finished : s.completion.isSome = true) (event : Report) :
    (s.report event).completion.isSome = true := by
  obtain ⟨supervised, drained, -⟩ := completion_eq_some.mp (completion_isSome.mp finished)
  have more := s.report_within event
  have supervised := supervised.imp more.exit (Or.imp more.supervision more.admission)
  exact completion_isSome.mpr (completion_eq_some.mpr ⟨supervised, more.drain drained, rfl⟩)

end SessionStatus

namespace Runtime

variable {s : Runtime}

/-- The call counts as a spawn in progress. -/
def Call.spawning : Call → Bool
  | .forgetting _ _ | .forgetClosing _ _ | .removing _ _ | .confirming _ _ | .confirmed _ _ | .returned => false
  | _ => true

/-- The gate hands out the next lifetime, or nothing and is left as it was. -/
theorem gateAdmit_cases (s : Runtime) :
    (∃ error, s.gateAdmit = (.error error, s)) ∨ s.closing = false ∧
      s.gateAdmit = (.ok ⟨s.owner, s.sequence + 1⟩, { s with
        sequence := s.sequence + 1
        spawns := s.spawns + 1
        issued := s.issued ++ [⟨s.owner, s.sequence + 1⟩] }) := by
  unfold gateAdmit
  cases opened : s.closing with
  | true => exact .inl ⟨.closed, by rw [if_pos rfl]⟩
  | false =>
    simp only [Bool.false_eq_true, if_false]
    cases numbered : checkedAdd s.sequence 1 with
    | none => exact .inl ⟨.capacity, rfl⟩
    | some sequence =>
      cases counted : checkedAdd s.spawns 1 with
      | none => exact .inl ⟨.capacity, rfl⟩
      | some spawns =>
        obtain ⟨-, rfl⟩ := checkedAdd_eq_some.mp numbered
        obtain ⟨-, rfl⟩ := checkedAdd_eq_some.mp counted
        exact .inr ⟨trivial, rfl⟩

/-- What no call touches. -/
structure Framed (s s' : Runtime) : Prop where
  owner : s'.owner = s.owner
  maxSessions : s'.maxSessions = s.maxSessions
  projection : s'.projection = s.projection
  closing : s'.closing = s.closing
  sequence : s'.sequence = s.sequence
  issued : s'.issued = s.issued
  services : s'.services = s.services
  closed : s'.closed = s.closed
  finished : s'.finished = s.finished
  calls : s'.calls = s.calls
  shutdown : s'.shutdown = s.shutdown
  down : s'.down = s.down

theorem Framed.refl (s : Runtime) : Framed s s := by constructor <;> rfl

theorem removeLifetime_framed (s : Runtime) (id : SessionId) (lifetime : SessionLifetime) :
    Framed s (s.removeLifetime id lifetime) := by
  unfold removeLifetime
  split <;> constructor <;> rfl

theorem advance_framed (s : Runtime) (answer : Answer) (phase : Call) :
    Framed s (s.advance answer phase).2 := by
  cases phase with
  | registered id lifetime projection =>
    simp only [advance]
    split
    · rcases s.reserve_eq with ⟨error, same⟩ | ⟨index, vacant, same⟩
      · rw [same]
        constructor <;> rfl
      · rw [same]
        constructor <;> rfl
    · exact .refl s
  | admitted id lifetime projection =>
    simp only [advance, register]
    split
    · exact .refl s
    · rename_i registered
      split at registered
      · cases registered
      · split at registered
        · cases registered
        · cases registered
          constructor <;> rfl
  | rollingBack id lifetime close => exact s.removeLifetime_framed id lifetime
  | confirmed id lifetime => exact s.removeLifetime_framed id lifetime
  | reserved | launching | forgetting | forgetClosing | removing | confirming =>
    simp only [advance]
    repeat' split
    all_goals constructor <;> rfl
  | unreserving | built | published | refused | rejected | leaving => constructor <;> rfl
  | closingModel | returned => exact .refl s

theorem advance_spawns (s : Runtime) (answer : Answer) (phase : Call) :
    (phase = .leaving ∧ (s.advance answer phase).1 = .returned ∧
        (s.advance answer phase).2.spawns = s.spawns - 1) ∨
      (s.advance answer phase).1.spawning = phase.spawning ∧ (s.advance answer phase).2.spawns = s.spawns := by
  cases phase with
  | leaving => exact .inl ⟨rfl, rfl, rfl⟩
  | registered id lifetime projection =>
    simp only [advance]
    split
    · rcases s.reserve_eq with ⟨error, same⟩ | ⟨index, vacant, same⟩
      · rw [same]
        exact .inr ⟨rfl, rfl⟩
      · rw [same]
        exact .inr ⟨rfl, rfl⟩
    · exact .inr ⟨rfl, rfl⟩
  | admitted id lifetime projection =>
    simp only [advance, register]
    split
    · exact .inr ⟨rfl, rfl⟩
    · rename_i registered
      split at registered
      · cases registered
      · split at registered
        · cases registered
        · cases registered
          exact .inr ⟨rfl, rfl⟩
  | rollingBack id lifetime close =>
    simp only [advance, removeLifetime]
    repeat' split
    all_goals exact .inr ⟨rfl, rfl⟩
  | reserved | launching | forgetting | forgetClosing | removing | confirming | confirmed =>
    simp only [advance, removeLifetime]
    repeat' split
    all_goals exact .inr ⟨rfl, rfl⟩
  | unreserving | built | published | refused | rejected | closingModel | returned => exact .inr ⟨rfl, rfl⟩

/-- Everything a section may do to the registry. -/
inductive Recorded (s : Runtime) (phase : Call) (s' : Runtime) : Prop where
  | same (entries : s'.entries = s.entries)
  | registers {id : SessionId} {lifetime : SessionLifetime} {projection : Bool}
      (called : phase = .admitted id lifetime projection) (fresh : ∀ entry ∈ s.entries, entry.1 ≠ id)
      (room : s.entries.length < s.maxSessions) (entries : s'.entries = (id, lifetime) :: s.entries)
  | removes {id : SessionId} {lifetime : SessionLifetime}
      (called : (∃ close, phase = .rollingBack id lifetime close) ∨ phase = .confirmed id lifetime)
      (current : s.entries.lookup id = some lifetime) (entries : s'.entries = s.entries.filter (·.1 ≠ id))

theorem removeLifetime_entries (s : Runtime) (id : SessionId) (lifetime : SessionLifetime) :
    (s.removeLifetime id lifetime).entries = s.entries ∨
      s.entries.lookup id = some lifetime ∧
        (s.removeLifetime id lifetime).entries = s.entries.filter (·.1 ≠ id) := by
  unfold removeLifetime
  split
  · rename_i current
    exact .inr ⟨current, rfl⟩
  · exact .inl rfl

theorem advance_entries (s : Runtime) (answer : Answer) (phase : Call) :
    Recorded s phase (s.advance answer phase).2 := by
  cases phase with
  | admitted id lifetime projection =>
    simp only [advance, register]
    split
    · exact .same rfl
    · rename_i registered
      split at registered
      · cases registered
      · rename_i fresh
        split at registered
        · cases registered
        · rename_i room
          cases registered
          refine .registers rfl (fun entry member same => ?_) (Nat.not_le.mp room) rfl
          exact fresh (List.lookup_isSome_iff.mpr ⟨entry, member, by rw [same, beq_self_eq_true]⟩)
  | registered id lifetime projection =>
    simp only [advance]
    split
    · rcases s.reserve_eq with ⟨error, same⟩ | ⟨index, vacant, same⟩
      · rw [same]
        exact .same rfl
      · rw [same]
        exact .same rfl
    · exact .same rfl
  | rollingBack id lifetime close =>
    rcases s.removeLifetime_entries id lifetime with same | ⟨current, removed⟩
    · exact .same same
    · exact .removes (.inl ⟨close, rfl⟩) current removed
  | confirmed id lifetime =>
    rcases s.removeLifetime_entries id lifetime with same | ⟨current, removed⟩
    · exact .same same
    · exact .removes (.inr rfl) current removed
  | reserved | launching | forgetting | forgetClosing | removing | confirming =>
    simp only [advance]
    repeat' split
    all_goals exact .same rfl
  | unreserving | built | published | refused | rejected | leaving | closingModel | returned => exact .same rfl

theorem report_statuses (s : Runtime) (lifetime : SessionLifetime) (event : SessionStatus.Report)
    {other : SessionLifetime} (finished : (s.statuses other).completion.isSome = true) :
    ((s.report lifetime event).statuses other).completion.isSome = true := by
  unfold report
  dsimp only
  by_cases same : other = lifetime
  · subst same
    rw [Function.update_self]
    exact SessionStatus.report_finished finished event
  · rw [Function.update_of_ne same]
    exact finished

theorem reserve_facts (s : Runtime) : s.reserve.2.failed = s.failed ∧ s.reserve.2.statuses = s.statuses := by
  rcases s.reserve_eq with ⟨error, same⟩ | ⟨index, vacant, same⟩
  · rw [same]
    exact ⟨rfl, rfl⟩
  · rw [same]
    exact ⟨rfl, rfl⟩

/-- A call rolls back after its own spawn failed, and confirms what it saw finished; what
failed or finished stays so. -/
structure Known (s : Runtime) (next : Call) (s' : Runtime) : Prop where
  failed : ∀ lifetime ∈ s.failed, lifetime ∈ s'.failed
  finished : ∀ lifetime, (s.statuses lifetime).completion.isSome = true →
    (s'.statuses lifetime).completion.isSome = true
  rolled : ∀ id lifetime close, next = .rollingBack id lifetime close → lifetime ∈ s'.failed
  confirmed : ∀ id lifetime, next = .confirmed id lifetime → (s'.statuses lifetime).completion.isSome = true

theorem Known.of_same {s s' : Runtime} {next : Call} (failed : s'.failed = s.failed)
    (statuses : s'.statuses = s.statuses) (rolled : ∀ id lifetime close, next ≠ .rollingBack id lifetime close)
    (confirmed : ∀ id lifetime, next ≠ .confirmed id lifetime) : Known s next s' where
  failed _ member := failed ▸ member
  finished _ finished := statuses ▸ finished
  rolled _ _ _ same := absurd same (rolled _ _ _)
  confirmed _ _ same := absurd same (confirmed _ _)

theorem advance_known (s : Runtime) (answer : Answer) (phase : Call) :
    Known s (s.advance answer phase).1 (s.advance answer phase).2 := by
  cases phase with
  | admitted id lifetime projection =>
    simp only [advance, register]
    split
    · exact .of_same rfl rfl (by simp) (by simp)
    · rename_i registered
      split at registered
      · cases registered
      · split at registered
        · cases registered
        · cases registered
          exact .of_same rfl rfl (by simp) (by simp)
  | registered id lifetime projection =>
    obtain ⟨failed, statuses⟩ := s.reserve_facts
    simp only [advance]
    split
    · split
      · rename_i same
        rw [same] at failed statuses
        exact .of_same failed statuses (by simp) (by simp)
      · rename_i same
        rw [same] at failed statuses
        exact .of_same failed statuses (by simp) (by simp)
    · exact .of_same rfl rfl (by simp) (by simp)
  | refused id lifetime error =>
    refine ⟨fun _ member => List.mem_cons_of_mem _ member, ?_, ?_, by simp [advance]⟩
    · exact fun other finished => s.report_statuses lifetime _ finished
    · rintro _ _ _ same
      cases same
      exact List.mem_cons_self
  | rejected id lifetime error =>
    refine ⟨fun _ member => List.mem_cons_of_mem _ member, ?_, ?_, by simp [advance]⟩
    · exact fun other finished => s.report_statuses lifetime _ finished
    · rintro _ _ _ same
      cases same
      exact List.mem_cons_self
  | confirming id lifetime =>
    simp only [advance]
    split
    · exact .of_same rfl rfl (by simp) (by simp)
    · rename_i finished
      refine ⟨fun _ member => member, fun _ finished => finished, by simp, ?_⟩
      rintro _ _ same
      cases same
      exact Option.isSome_iff_ne_none.mpr (by simpa using finished)
  | rollingBack | confirmed =>
    simp only [advance, removeLifetime]
    repeat' split
    all_goals exact .of_same rfl rfl (by simp) (by simp)
  | reserved | launching | forgetting | forgetClosing | removing =>
    simp only [advance]
    repeat' split
    all_goals exact .of_same rfl rfl (by simp) (by simp)
  | unreserving | built | published | leaving | closingModel | returned =>
    simp only [advance]
    exact .of_same rfl rfl (by simp) (by simp)

end Runtime
end PtyRuntime
