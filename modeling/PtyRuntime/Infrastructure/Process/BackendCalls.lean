import PtyRuntime.Infrastructure.Process.BackendLaws

/-! Calls of `spawn`: each step of a call moves its own request at most, so with the steps
of the threads every step keeps each request in one place. -/
namespace PtyRuntime.UnixProcessBackend
open Tally

variable {s s' : UnixProcessBackend}

theorem setCaller_custody {caller : Nat} {before : Caller} (found : s.callers[caller]? = some before)
    (after : Caller) (measure : Nat → Nat) :
    total measure (s.setCaller caller after).custody + total measure before.held =
      total measure s.custody + total measure after.held := by
  have moved := @total_set _ (fun caller => total measure caller.held) _ _ _ found after
  simp only [total_custody, calling, queued, setCaller] at moved ⊢
  omega

/-- What a call does to itself: the requests of all others stay where they are. -/
structure Own (s s' : UnixProcessBackend) (caller : Nat) (after : Caller) : Prop where
  callers : s'.callers = s.callers.set caller after
  length : s'.replies.length = s.replies.length
  replies : ∀ {other : Nat}, other ≠ caller → s'.replies[other]? = s.replies[other]?
  processes : s'.processes = s.processes
  admitted : s'.active = s'.custody.length + s'.processes.length
  bounded : s'.active ≤ s'.max
  others : ∀ other, other ≠ caller → s'.custody.count other + s'.owed.count other = s.custody.count other + s.owed.count other
  once : s'.custody.count caller + s'.owed.count caller ≤ 1
  placed : 0 < s'.custody.count caller + s'.owed.count caller ↔ after.out = true ∧ s'.replies[caller]? = some .empty
  named : ∀ {request}, after = .sending request → request = caller
  early : after = .entering ∨ after = .admitting → s'.replies[caller]? = some .empty
  registered : s.replies[caller]? = some (.sent (.ok ())) → s'.replies[caller]? = some (.sent (.ok ()))
  told : ∀ {answer}, after = .returned answer → s'.replies[caller]? = some (.sent answer) ∨
    (∃ error, answer = .error error) ∧ (s'.replies[caller]? = some .empty ∨ s'.replies[caller]? = some .dropped)

theorem Own.valid {caller : Nat} {after : Caller} (own : Own s s' caller after) {before : Caller}
    (found : s.callers[caller]? = some before) (valid : s.Valid) : s'.Valid := by
  have here : s'.callers[caller]? = some after := by
    rw [own.callers, List.getElem?_set_self (List.getElem?_eq_some_iff.mp found).1]
  have there {other : Nat} (differs : other ≠ caller) : s'.callers[other]? = s.callers[other]? := by
    rw [own.callers, List.getElem?_set_ne (Ne.symm differs)]
  constructor
  · exact own.admitted
  · exact own.bounded
  · rw [own.length, own.callers, List.length_set]
    exact valid.paired
  · intro other request sending
    by_cases same : other = caller
    · subst same
      exact own.named (Option.some.inj (here.symm.trans sending))
    · exact valid.named (there same ▸ sending)
  · intro other waits
    by_cases same : other = caller
    · subst same
      rw [here, Option.some_inj, Option.some_inj] at waits
      exact own.early waits
    · rw [there same] at waits
      rw [own.replies same]
      exact valid.early waits
  · intro other
    by_cases same : other = caller
    · exact same ▸ own.once
    · rw [own.others other same]
      exact valid.once other
  · intro other
    by_cases same : other = caller
    · subst same
      rw [own.placed, Awaits, here]
      simp
    · rw [own.others other same, valid.placed other, Awaits, Awaits, there same, own.replies same]
  · exact own.processes ▸ valid.alive
  · intro other member
    have before := valid.registered (own.processes ▸ member)
    by_cases same : other = caller
    · subst same
      exact own.registered before
    · rw [own.replies same]
      exact before
  · intro other answer returned
    by_cases same : other = caller
    · subst same
      exact own.told (Option.some.inj (here.symm.trans returned))
    · rw [there same] at returned
      rw [own.replies same]
      exact valid.told returned

/-- The phase changes, and the request stays with somebody. -/
theorem Own.turn {caller : Nat} {after : Caller} (callers : s'.callers = s.callers.set caller after)
    (custody : ∀ m, total m s'.custody = total m s.custody) (owed : s'.owed = s.owed)
    (active : s'.active = s.active ∧ s'.max = s.max) (replies : s'.replies = s.replies)
    (processes : s'.processes = s.processes) (named : ∀ {request}, after = .sending request → request = caller)
    (same : s.Awaits caller ↔ after.out = true ∧ s.replies[caller]? = some .empty)
    (early : after = .entering ∨ after = .admitting → s.replies[caller]? = some .empty)
    (told : ∀ {answer}, after = .returned answer → s.replies[caller]? = some (.sent answer) ∨
      (∃ error, answer = .error error) ∧ (s.replies[caller]? = some .empty ∨ s.replies[caller]? = some .dropped))
    (valid : s.Valid) : Own s s' caller after := by
  constructor
  · exact callers
  · rw [replies]
  · exact fun _ => by rw [replies]
  · exact processes
  · rw [length_kept custody, processes, active.1]
    exact valid.admitted
  · rw [active.1, active.2]
    exact valid.bounded
  · exact fun other _ => by rw [count_kept custody, owed]
  · rw [count_kept custody, owed]
    exact valid.once caller
  · rw [count_kept custody, owed, replies]
    exact (valid.placed caller).trans same
  · exact named
  · exact replies ▸ early
  · exact replies ▸ id
  · exact replies ▸ told

theorem awaits_iff {caller : Nat} {phase : Caller} (found : s.callers[caller]? = some phase) :
    s.Awaits caller ↔ phase.out = true ∧ s.replies[caller]? = some .empty := by
  simp [Awaits, found]

/-- A call that is out holds its own request, or has sent it. -/
theorem Valid.admits (valid : s.Valid) {caller : Nat} (found : s.callers[caller]? = some .admitting)
    (room : s.active < s.max) :
    Own s ({ s with active := s.active + 1 }.setCaller caller (.sending caller)) caller (.sending caller) := by
  have empty := valid.early (.inr found)
  have custody (m : Nat → Nat) :
      total m ({ s with active := s.active + 1 }.setCaller caller (.sending caller)).custody = total m s.custody + m caller := by
    have moved := @setCaller_custody { s with active := s.active + 1 } caller _ found (.sending caller) m
    simp only [Caller.held, total_cons, total_nil, Nat.add_zero] at moved
    exact moved
  have none : s.custody.count caller + s.owed.count caller = 0 := by
    refine Nat.eq_zero_of_not_pos fun more => ?_
    cases ((awaits_iff found).mp ((valid.placed caller).mp more)).1
  have counts := count_moved fun m => (custody m).symm
  have own := counts caller
  rw [if_pos rfl] at own
  refine ⟨rfl, rfl, fun _ => rfl, rfl, ?_, room, fun other differs => ?_, ?_, ?_, ?_, fun _ => empty, id, ?_⟩
  · have length := length_moved fun m => (custody m).symm
    have admitted := valid.admitted
    change s.active + 1 = _ + s.processes.length
    omega
  · have kept := counts other
    rw [if_neg (Ne.symm differs), Nat.add_zero] at kept
    rw [← kept]
    rfl
  · change _ + s.owed.count caller ≤ 1
    omega
  · refine ⟨fun _ => ⟨rfl, empty⟩, fun _ => ?_⟩
    omega
  · rintro request ⟨⟩
    rfl
  · rintro answer ⟨⟩

theorem Valid.refuses (valid : s.Valid) {caller : Nat} (found : s.callers[caller]? = some (.sending caller)) :
    Own s ((s.discard caller).setCaller caller (.returned (.error .closed))) caller (.returned (.error .closed)) := by
  have custody (m : Nat → Nat) :
      total m ((s.discard caller).setCaller caller (.returned (.error .closed))).custody + m caller =
        total m s.custody := by
    have moved := @setCaller_custody (s.discard caller) caller _ found (.returned (.error .closed)) m
    simp only [Caller.held, total_cons, total_nil, Nat.add_zero] at moved
    exact moved
  have held := count_moved custody caller
  rw [if_pos rfl] at held
  have once := valid.once caller
  have within := (List.getElem?_eq_some_iff.mp found).1
  have dropped : ((s.discard caller).setCaller caller (.returned (.error .closed))).replies[caller]? = some .dropped :=
    List.getElem?_set_self (valid.paired.symm ▸ within)
  have none : ((s.discard caller).setCaller caller (.returned (.error .closed))).custody.count caller +
      s.owed.count caller = 0 := by
    omega
  refine ⟨rfl, List.length_set .., fun differs => List.getElem?_set_ne (Ne.symm differs), rfl, ?_, ?_, fun other differs => ?_,
    none.trans_le (Nat.zero_le 1), ?_, ?_, ?_, fun before => ?_, ?_⟩
  · have length := length_moved custody
    have admitted := valid.admitted
    change s.active - 1 = _ + s.processes.length
    omega
  · exact (Nat.sub_le s.active 1).trans valid.bounded
  · have kept := count_moved custody other
    rw [if_neg (Ne.symm differs), Nat.add_zero] at kept
    rw [kept]
    rfl
  · refine ⟨fun more => absurd more ?_, fun out => by cases out.1⟩
    exact (Nat.not_lt_zero 0) ∘ (none ▸ ·)
  · rintro request ⟨⟩
  · rintro (waits | waits) <;> cases waits
  · have awaited := ((awaits_iff found).mp ((valid.placed caller).mp (by omega))).2
    cases awaited.symm.trans before
  · rintro answer ⟨⟩
    exact .inr ⟨⟨_, rfl⟩, .inr dropped⟩

/-- Neither the request nor the answer of a call that holds nothing moves with it. -/
theorem setCaller_idle {caller : Nat} {before after : Caller} (found : s.callers[caller]? = some before)
    (kept : before.held = [] ∧ after.held = []) (measure : Nat → Nat) :
    total measure (s.setCaller caller after).custody = total measure s.custody := by
  have moved := setCaller_custody found after measure
  rwa [kept.1, kept.2] at moved

theorem Valid.call (valid : s.Valid) (caller : Nat) : (s.call caller).Valid := by
  unfold UnixProcessBackend.call
  cases found : s.callers[caller]? with
  | none => exact valid
  | some phase =>
    have awaits := awaits_iff found
    have turns {after : Caller} (kept : phase.held = [] ∧ after.held = [])
        (same : s.Awaits caller ↔ after.out = true ∧ s.replies[caller]? = some .empty)
        (early : after = .entering ∨ after = .admitting → s.replies[caller]? = some .empty)
        (told : ∀ {answer}, after = .returned answer → s.replies[caller]? = some (.sent answer) ∨
          (∃ error, answer = .error error) ∧ (s.replies[caller]? = some .empty ∨ s.replies[caller]? = some .dropped)) :
        (s.setCaller caller after).Valid := by
      refine (Own.turn rfl (setCaller_idle found kept) rfl ⟨rfl, rfl⟩ rfl rfl ?_ same early told valid).valid found valid
      rintro request rfl
      cases kept.2
    cases phase with
    | entering =>
      have empty := valid.early (.inl found)
      dsimp only
      split
      · refine turns ⟨rfl, rfl⟩ (by simp [awaits, Caller.out]) (fun _ => empty) ?_
        rintro answer ⟨⟩
        exact .inr ⟨⟨_, rfl⟩, .inl empty⟩
      · refine turns ⟨rfl, rfl⟩ (by simp [awaits, Caller.out]) (fun _ => empty) ?_
        rintro answer ⟨⟩
    | admitting =>
      have empty := valid.early (.inr found)
      dsimp only
      split
      · rename_i room
        exact (valid.admits found room).valid found valid
      · refine turns ⟨rfl, rfl⟩ (by simp [awaits, Caller.out]) (fun _ => empty) ?_
        rintro answer ⟨⟩
        exact .inr ⟨⟨_, rfl⟩, .inl empty⟩
    | sending request =>
      obtain rfl := valid.named found
      dsimp only
      rcases s.request?_cases (.launch request) with ⟨sent, -⟩ | ⟨full, -⟩
      · rw [sent]
        have custody (m : Nat → Nat) : total m ({ s with requests := s.requests ++ [Message.launch request] }.setCaller
            request .waking).custody = total m s.custody := by
          have moved := setCaller_custody found .waking m
          simp [total_custody, calling, queued, setCaller, Message.held, Caller.held] at moved ⊢
          omega
        refine (@Own.turn _ _ _ .waking rfl custody rfl ⟨rfl, rfl⟩ rfl rfl ?_ awaits ?_ ?_ valid).valid found valid
        · rintro request ⟨⟩
        · rintro (waits | waits) <;> cases waits
        · rintro answer ⟨⟩
      · rw [full]
        exact (valid.refuses found).valid found valid
    | waking =>
      have custody (m : Nat → Nat) : total m ({ s with wake := true }.setCaller caller .waiting).custody = total m s.custody :=
        @setCaller_idle { s with wake := true } _ _ .waiting found ⟨rfl, rfl⟩ m
      dsimp only
      refine (@Own.turn _ _ _ .waiting rfl custody rfl ⟨rfl, rfl⟩ rfl rfl ?_ awaits ?_ ?_ valid).valid found valid
      · rintro request ⟨⟩
      · rintro (waits | waits) <;> cases waits
      · rintro answer ⟨⟩
    | waiting =>
      dsimp only
      cases came : s.replies[caller]? with
      | none => exact valid
      | some reply =>
        have returns {answer : Answer} (settled : reply ≠ .empty) (told : reply = .sent answer ∨
            (∃ error, answer = .error error) ∧ reply = .dropped) : (s.setCaller caller (.returned answer)).Valid := by
          refine turns ⟨rfl, rfl⟩ (by simp [awaits, came, Caller.out, settled]) (by simp) ?_
          rintro answer ⟨⟩
          rcases told with rfl | ⟨error, rfl⟩
          · exact .inl came
          · exact .inr ⟨error, .inr came⟩
        cases reply with
        | empty => exact valid
        | sent answer => exact returns (by simp) (.inl rfl)
        | dropped => exact returns (by simp) (.inr ⟨⟨_, rfl⟩, rfl⟩)
    | returned answer => exact valid

theorem spawnerStep_callers (s : UnixProcessBackend) (launch : Launch) :
    (s.spawnerStep launch).callers = s.callers ∧ (s.spawnerStep launch).max = s.max := by
  unfold spawnerStep
  cases s.spawner with
  | handing request =>
    dsimp only
    rcases s.hand?_cases request with ⟨handed, -⟩ | ⟨full, -⟩
    · rw [handed]
      exact ⟨rfl, rfl⟩
    · rw [full]
      exact ⟨rfl, rfl⟩
  | receiving | draining | leaving panicked =>
    dsimp only
    split <;> exact ⟨rfl, rfl⟩
  | _ => exact ⟨rfl, rfl⟩

theorem supervisorStep_callers (s : UnixProcessBackend) (outcome : Outcome) :
    (s.supervisorStep outcome).callers = s.callers ∧ (s.supervisorStep outcome).max = s.max := by
  unfold supervisorStep
  cases s.supervisor with
  | sending =>
    dsimp only
    rcases s.request?_cases .shutdown with ⟨sent, -⟩ | ⟨full, -⟩
    · rw [sent]
      exact ⟨rfl, rfl⟩
    · rw [full]
      exact ⟨rfl, rfl⟩
  | unwinding held =>
    cases held with
    | none =>
      dsimp only
      split <;> exact ⟨rfl, rfl⟩
    | some request => exact ⟨rfl, rfl⟩
  | _ =>
    dsimp only
    repeat' split
    all_goals exact ⟨rfl, rfl⟩

theorem stopperStep_still (s : UnixProcessBackend) (stopper : Nat) :
    Change s (s.stopperStep stopper) ∧ (s.stopperStep stopper).callers = s.callers ∧ (s.stopperStep stopper).max = s.max := by
  unfold stopperStep
  split
  case h_4 =>
    rcases s.request?_cases .shutdown with ⟨sent, -⟩ | ⟨full, -⟩
    · rw [sent]
      refine ⟨.idle (fun m => ?_) (fun m => rfl) rfl rfl rfl, rfl, rfl⟩
      simp [total_custody, calling, queued, setStopper, Message.held]
    · rw [full]
      exact ⟨.still rfl rfl rfl rfl rfl, rfl, rfl⟩
  all_goals
    repeat' split
    all_goals exact ⟨.still rfl rfl rfl rfl rfl, rfl, rfl⟩

/-- A call joins at the end, and nothing has been asked for it yet. -/
theorem Valid.spawn (valid : s.Valid) (limits : ProcessLimits) : (s.spawn limits).Valid := by
  obtain ⟨phase, callers, kept⟩ : ∃ phase : Caller, (s.spawn limits).callers = s.callers ++ [phase] ∧
      phase.held = [] ∧ phase.out = false ∧ ∀ {answer}, phase = .returned answer → ∃ error, answer = .error error := by
    refine ⟨_, rfl, ?_⟩
    cases limits.validate with
    | ok => exact ⟨rfl, rfl, fun h => by cases h⟩
    | error error => exact ⟨rfl, rfl, fun h => ⟨error, (Caller.returned.inj h).symm⟩⟩
  have replies : (s.spawn limits).replies = s.replies ++ [.empty] := rfl
  have custody (m : Nat → Nat) : total m (s.spawn limits).custody = total m s.custody := by
    simp only [total_custody, calling, callers, total_append, total_cons, kept.1, total_nil]
    rfl
  have paired := valid.paired
  have found {caller : Nat} {phase' : Caller} (here : (s.spawn limits).callers[caller]? = some phase') :
      (s.callers[caller]? = some phase' ∧ (s.spawn limits).replies[caller]? = s.replies[caller]?) ∨
        (phase' = phase ∧ (s.spawn limits).replies[caller]? = some .empty) := by
    rw [callers] at here
    rw [replies]
    rcases Nat.lt_trichotomy caller s.callers.length with within | rfl | beyond
    · rw [List.getElem?_append_left within] at here
      rw [List.getElem?_append_left (paired.symm ▸ within)]
      exact .inl ⟨here, rfl⟩
    · rw [List.getElem?_concat_length] at here
      rw [← paired, List.getElem?_concat_length]
      exact .inr ⟨(Option.some.inj here).symm, rfl⟩
    · have length : (s.callers ++ [phase]).length ≤ caller := by
        rw [List.length_append]
        exact beyond
      cases (List.getElem?_eq_none length).symm.trans here
  constructor
  · rw [length_kept custody]
    exact valid.admitted
  · exact valid.bounded
  · rw [callers, replies, List.length_append, List.length_append, paired]
    rfl
  · intro caller request sending
    rcases found sending with ⟨here, -⟩ | ⟨rfl, -⟩
    · exact valid.named here
    · cases kept.1
  · rintro caller (waits | waits)
    all_goals
      rcases found waits with ⟨here, same⟩ | ⟨-, empty⟩
    · exact same.trans (valid.early (.inl here))
    · exact empty
    · exact same.trans (valid.early (.inr here))
    · exact empty
  · intro request
    rw [count_kept custody]
    exact valid.once request
  · intro request
    rw [count_kept custody]
    refine (valid.placed request).trans ⟨?_, ?_⟩
    · rintro ⟨⟨before, here, out⟩, empty⟩
      refine ⟨⟨before, ?_, out⟩, ?_⟩
      · rw [callers, List.getElem?_append_left (List.getElem?_eq_some_iff.mp here).1]
        exact here
      · rw [replies, List.getElem?_append_left (List.getElem?_eq_some_iff.mp empty).1]
        exact empty
    · rintro ⟨⟨before, here, out⟩, empty⟩
      rcases found here with ⟨here, same⟩ | ⟨rfl, -⟩
      · exact ⟨⟨before, here, out⟩, same ▸ empty⟩
      · cases kept.2.1.symm.trans out
  · exact valid.alive
  · intro request member
    have before := valid.registered member
    rw [replies, List.getElem?_append_left (List.getElem?_eq_some_iff.mp before).1]
    exact before
  · intro caller answer returned
    rcases found returned with ⟨here, same⟩ | ⟨rfl, empty⟩
    · rw [same]
      exact valid.told here
    · exact .inr ⟨kept.2.2 rfl, .inl empty⟩

theorem Valid.step (valid : s.Valid) (event : Event) : (s.step event).Valid := by
  cases event with
  | spawn limits => exact valid.spawn limits
  | call caller => exact valid.call caller
  | spawner launch =>
    obtain ⟨callers, max⟩ := s.spawnerStep_callers launch
    exact (s.spawnerStep_change launch).valid callers max valid
  | supervisor outcome =>
    obtain ⟨callers, max⟩ := s.supervisorStep_callers outcome
    exact (s.supervisorStep_change outcome).valid callers max valid
  | stop immediate =>
    have change : Change s (s.stop immediate) := .still rfl rfl rfl rfl rfl
    exact change.valid rfl rfl valid
  | stopper stopper =>
    obtain ⟨change, callers, max⟩ := s.stopperStep_still stopper
    exact change.valid callers max valid

theorem step_max (s : UnixProcessBackend) (event : Event) : (s.step event).max = s.max := by
  cases event with
  | spawn limits | stop immediate => rfl
  | call caller =>
    change (s.call caller).max = s.max
    unfold call
    split
    case h_3 request found =>
      rcases s.request?_cases (.launch request) with ⟨sent, -⟩ | ⟨full, -⟩
      · rw [sent]
        rfl
      · rw [full]
        rfl
    all_goals
      repeat' split
      all_goals rfl
  | spawner launch => exact (s.spawnerStep_callers launch).2
  | supervisor outcome => exact (s.supervisorStep_callers outcome).2
  | stopper stopper => exact (s.stopperStep_still stopper).2.2

theorem run_max (events : List Event) : (s.run events).max = s.max := by
  induction events generalizing s with
  | nil => rfl
  | cons event rest ih => exact ih.trans (s.step_max event)

theorem new_max {max : Nat} (made : new max = .ok s) : s.max = max := by
  unfold new at made
  split at made
  · cases made
  · cases made
    rfl

end PtyRuntime.UnixProcessBackend
