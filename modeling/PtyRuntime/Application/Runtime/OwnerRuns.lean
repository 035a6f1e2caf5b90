import PtyRuntime.Application.Runtime.OwnerLaws
import Mathlib.Data.List.Nodup

/-! Session identity and shutdown admission, over every interleaving. -/
namespace PtyRuntime.Runtime

variable {s : Runtime}

/-- No spawn is in progress from here on. -/
def Shutdown.quiet : Shutdown → Bool
  | .started | .begun => false
  | _ => true

/-- The slots the shutdown has taken and not yet looked at for the last time. -/
def Shutdown.table : Shutdown → List Slot
  | .closing table _ => table
  | .stopping table => table
  | .finishing remaining => remaining
  | _ => []

/-- Coordinators not yet closed are where somebody will find them. -/
def Covered (s : Runtime) (model : Nat) : Prop :=
  s.closed model = true ∨ s.finished model = true ∨ Slot.owned model ∈ s.slots ∨
    (∃ call, Builds s.calls call model) ∨ ∃ phase, s.shutdown = some phase ∧ Slot.owned model ∈ phase.table

structure Valid (s : Runtime) : Prop where
  counted : s.spawns = s.calls.countP Call.spawning
  bounded : ∀ lifetime ∈ s.issued, lifetime.sequence ≤ s.sequence
  distinct : s.issued.Nodup
  keys : (s.entries.map Prod.fst).Nodup
  capacity : s.entries.length ≤ s.maxSessions
  rolled : ∀ {call : Nat} {id : SessionId} {lifetime : SessionLifetime} {close : Bool},
    s.calls[call]? = some (.rollingBack id lifetime close) → lifetime ∈ s.failed
  confirmed : ∀ {call : Nat} {id : SessionId} {lifetime : SessionLifetime},
    s.calls[call]? = some (.confirmed id lifetime) → (s.statuses lifetime).completion.isSome = true
  slotted : Slotted s.calls s.slots s.created
  begun : ∀ {phase : Shutdown}, s.shutdown = some phase → phase ≠ .started → s.closing = true
  idle : ∀ {phase : Shutdown}, s.shutdown = some phase → phase.quiet = true → s.spawns = 0
  taken : ∀ {phase : Shutdown}, s.shutdown = some phase → phase.quiet = true → phase ≠ .idle → s.slots = []
  unprojected : s.projection = false → s.slots = [] ∧ s.created = 0
  stopped : s.services = false → s.slots = []
  spent : s.services = false → ∀ {table : List Slot}, (∃ remaining, s.shutdown = some (.closing table remaining)) ∨
    s.shutdown = some (.stopping table) → table = []
  covered : ∀ model < s.created, Covered s model
  down : s.down = true → s.closing = true ∧ s.spawns = 0 ∧
    ∀ model < s.created, s.closed model = true ∨ s.finished model = true

theorem new_valid (owner maxSessions : Nat) (projection : Bool) : Valid (new owner maxSessions projection) := by
  have vacant {index : Nat} {slot : Slot} (found : (new owner maxSessions projection).slots[index]? = some slot) :
      slot = .vacant := by
    simp only [new] at found
    split at found
    · rw [List.getElem?_replicate] at found
      split at found
      · exact (Option.some.inj found).symm
      · cases found
    · cases found
  have empty (none : projection = false) : (new owner maxSessions projection).slots = [] := by
    simp [new, none]
  exact {
    counted := rfl
    bounded := fun _ member => nomatch member
    distinct := List.nodup_nil
    keys := List.nodup_nil
    capacity := Nat.zero_le _
    rolled := fun found => nomatch found
    confirmed := fun found => nomatch found
    slotted := {
      held := fun holds => nomatch holds
      exclusive := fun holds => nomatch holds
      reserved := fun found => nomatch vacant found
      unique := fun found => nomatch vacant found
      below := fun found => nomatch vacant found
      building := fun builds => nomatch builds
      distinct := fun builds => nomatch builds }
    begun := fun found => nomatch found
    idle := fun found => nomatch found
    taken := fun found => nomatch found
    unprojected := fun none => ⟨empty none, rfl⟩
    stopped := empty
    spent := fun _ _ found => by
      rcases found with ⟨_, found⟩ | found <;> cases found
    covered := fun _ below => absurd below (Nat.not_lt_zero _)
    down := fun wrong => nomatch wrong }

/-- Without spawns in progress, no call is one. -/
theorem Valid.not_spawning (valid : Valid s) (none : s.spawns = 0) {call : Nat} {phase : Call}
    (found : s.calls[call]? = some phase) : phase.spawning = false := by
  have count := valid.counted.symm.trans none
  rw [List.countP_eq_zero] at count
  simpa using count phase (List.mem_of_getElem? found)

theorem Call.spawning_of_index {phase : Call} {index : Nat} (holds : phase.index = some index) :
    phase.spawning = true := by
  cases phase <;> first | rfl | cases holds

theorem Call.spawning_of_model {phase : Call} {model : Nat} (builds : phase.model = some model) :
    phase.spawning = true := by
  cases phase <;> first | rfl | cases builds

theorem Valid.holds_nothing (valid : Valid s) (none : s.spawns = 0) (call index : Nat) :
    ¬Holds s.calls call index := by
  intro holds
  obtain ⟨phase, found, held⟩ := Option.bind_eq_some_iff.mp holds
  cases (Call.spawning_of_index held).symm.trans (valid.not_spawning none found)

theorem Valid.builds_nothing (valid : Valid s) (none : s.spawns = 0) (call model : Nat) :
    ¬Builds s.calls call model := by
  intro builds
  obtain ⟨phase, found, held⟩ := Option.bind_eq_some_iff.mp builds
  cases (Call.spawning_of_model held).symm.trans (valid.not_spawning none found)

theorem Advanced.slots_nil {phase next : Call} {s' : Runtime} (advanced : Advanced s phase next s')
    (empty : s.slots = []) : s'.slots = [] := by
  cases advanced with
  | keeps slots | builds slots => rw [slots, empty]
  | reclaims slots | reserves _ slots | frees slots | publishes slots =>
    rw [slots, empty]
    rfl

/-- A section creates a coordinator only while it holds a slot. -/
theorem Advanced.created_of_free {phase next : Call} {s' : Runtime} (advanced : Advanced s phase next s')
    (free : phase.index = none) : s'.created = s.created := by
  cases advanced with
  | keeps _ created | reclaims _ created | reserves _ _ created => exact created
  | builds _ _ before | frees _ _ before | publishes _ _ before => cases free.symm.trans before

theorem reclaim_mem {closed : Nat → Bool} {slots : List Slot} {model : Nat} (member : Slot.owned model ∈ slots) :
    closed model = true ∨ Slot.owned model ∈ slots.map (reclaim closed) := by
  cases finished : closed model with
  | true => exact .inl rfl
  | false => exact .inr (List.mem_map.mpr ⟨_, member, by simp [reclaim, finished]⟩)

/-- Another slot of the list stays in it. -/
theorem mem_set_of_ne {slots : List Slot} {i : Nat} {old slot other : Slot} (found : slots[i]? = some old)
    (member : other ∈ slots) (differs : other ≠ old) : other ∈ slots.set i slot := by
  obtain ⟨j, there⟩ := List.getElem?_of_mem member
  refine List.mem_of_getElem? (i := j) ?_
  rw [List.getElem?_set_ne]
  · exact there
  · rintro rfl
    exact differs (Option.some.inj (there.symm.trans found))

/-- A slot changes hands without losing a coordinator. -/
theorem Valid.covered_advance (valid : Valid s) {call : Nat} {phase next : Call} {s' : Runtime}
    (found : s.calls[call]? = some phase) (advanced : Advanced s phase next s') (framed : Framed s s')
    {model : Nat} (below : model < s'.created) : Covered { s' with calls := s'.calls.set call next } model := by
  unfold Covered
  dsimp only
  rw [framed.closed, framed.finished, framed.shutdown, framed.calls]
  -- a coordinator of `s` is where it was unless this section moved it
  have carry (old : model < s.created)
      (slots : Slot.owned model ∈ s.slots → s.closed model = true ∨ Slot.owned model ∈ s'.slots)
      (builds : ∀ other, Builds s.calls other model →
        Slot.owned model ∈ s'.slots ∨ Builds (s.calls.set call next) other model) :
      s.closed model = true ∨ s.finished model = true ∨ Slot.owned model ∈ s'.slots ∨
        (∃ other, Builds (s.calls.set call next) other model) ∨
        ∃ phase, s.shutdown = some phase ∧ Slot.owned model ∈ phase.table := by
    rcases valid.covered model old with closed | finished | member | ⟨other, building⟩ | table
    · exact .inl closed
    · exact .inr (.inl finished)
    · rcases slots member with closed | member
      · exact .inl closed
      · exact .inr (.inr (.inl member))
    · rcases builds other building with member | building
      · exact .inr (.inr (.inl member))
      · exact .inr (.inr (.inr (.inl ⟨other, building⟩)))
    · exact .inr (.inr (.inr (.inr table)))
  cases advanced with
  | keeps slots created index same =>
    rw [created] at below
    refine carry below (fun member => .inr (slots ▸ member)) fun other building => .inr ?_
    exact (builds_same found same other model).mpr building
  | reclaims slots created before index unbuilt same =>
    rw [created] at below
    refine carry below (fun member => ?_) fun other building => .inr ?_
    · rw [slots]
      exact reclaim_mem member
    · exact (builds_same found (same.trans unbuilt.symm) other model).mpr building
  | reserves vacant slots created before index unbuilt same =>
    rw [created] at below
    refine carry below (fun member => ?_) fun other building => .inr ?_
    · rw [slots]
      refine (reclaim_mem member).imp (fun closed => closed) fun member => ?_
      exact mem_set_of_ne vacant member (by simp)
    · exact (builds_same found (same.trans unbuilt.symm) other model).mpr building
  | builds slots created before index unbuilt fresh =>
    rw [created] at below
    rcases Nat.lt_succ_iff_lt_or_eq.mp below with old | rfl
    · refine carry old (fun member => .inr (slots ▸ member)) fun other building => .inr ?_
      refine (builds_set found other model).mpr ?_
      rw [if_neg]
      · exact building
      · rintro rfl
        rw [builds_found found, unbuilt] at building
        cases building
    · exact .inr (.inr (.inr (.inl ⟨call, (builds_set found call _).mpr (by rw [if_pos rfl, fresh])⟩)))
  | frees slots created before index unbuilt same =>
    rw [created] at below
    have held := valid.slotted.held ((holds_found found _).mpr before)
    refine carry below (fun member => .inr ?_) fun other building => .inr ?_
    · rw [slots]
      exact mem_set_of_ne held member (by simp)
    · exact (builds_same found (same.trans unbuilt.symm) other model).mpr building
  | @publishes i m slots created before index building same =>
    rw [created] at below
    have held := valid.slotted.held ((holds_found found _).mpr before)
    refine carry below (fun member => .inr ?_) fun other builds => ?_
    · rw [slots]
      exact mem_set_of_ne held member (by simp)
    · by_cases here : call = other
      · subst here
        rw [builds_found found, building] at builds
        obtain rfl := Option.some.inj builds
        obtain ⟨within, -⟩ := List.getElem?_eq_some_iff.mp held
        rw [slots]
        exact .inl (List.mem_set within _)
      · exact .inr ((builds_set found other model).mpr (by rw [if_neg here]; exact builds))

theorem Valid.counted_advance (valid : Valid s) {call : Nat} {phase : Call} (found : s.calls[call]? = some phase)
    (answer : Answer) :
    (s.advance answer phase).2.spawns = (s.calls.set call (s.advance answer phase).1).countP Call.spawning := by
  obtain ⟨within, here⟩ := List.getElem?_eq_some_iff.mp found
  rw [List.countP_set within, here, ← valid.counted]
  have positive : phase.spawning = true → 0 < s.spawns := by
    intro spawning
    rw [valid.counted]
    exact List.countP_pos_iff.mpr ⟨phase, List.mem_of_getElem? found, spawning⟩
  rcases s.advance_spawns answer phase with ⟨rfl, returned, spawns⟩ | ⟨same, spawns⟩
  · rw [returned, spawns]
    simp [Call.spawning]
  · rw [same, spawns]
    cases spawning : phase.spawning with
    | false => simp
    | true =>
      have some := positive spawning
      simp only [if_true]
      omega

/-- A registration or a removal keeps ids apart and within the capacity. -/
theorem Valid.entries_advance (valid : Valid s) {phase : Call} {s' : Runtime} (recorded : Recorded s phase s') :
    (s'.entries.map Prod.fst).Nodup ∧ s'.entries.length ≤ s.maxSessions := by
  cases recorded with
  | same entries =>
    rw [entries]
    exact ⟨valid.keys, valid.capacity⟩
  | registers called fresh room entries =>
    rw [entries]
    refine ⟨List.nodup_cons.mpr ⟨fun member => ?_, valid.keys⟩, room⟩
    obtain ⟨entry, held, same⟩ := List.mem_map.mp member
    exact fresh entry held same
  | removes called current entries =>
    rw [entries]
    refine ⟨valid.keys.sublist (List.filter_sublist.map _), ?_⟩
    exact Nat.le_trans (List.length_filter_le _ _) valid.capacity

theorem Valid.resume (valid : Valid s) {call : Nat} {phase : Call} (found : s.calls[call]? = some phase)
    (answer : Answer) :
    Valid { (s.advance answer phase).2 with
      calls := (s.advance answer phase).2.calls.set call (s.advance answer phase).1 } := by
  have framed := s.advance_framed answer phase
  have known := s.advance_known answer phase
  have advanced := s.advance_slots answer phase
  have counted := valid.counted_advance found answer
  obtain ⟨keys, capacity⟩ := valid.entries_advance (s.advance_entries answer phase)
  have covered {model : Nat} (below : model < (s.advance answer phase).2.created) :=
    valid.covered_advance found advanced framed below
  have spawns : s.spawns = 0 → (s.advance answer phase).2.spawns = 0 := by
    intro none
    rcases s.advance_spawns answer phase with ⟨-, -, spawns⟩ | ⟨-, spawns⟩
    · rw [spawns, none]
    · rw [spawns, none]
  have created : s.spawns = 0 → (s.advance answer phase).2.created = s.created := by
    intro none
    refine advanced.created_of_free ?_
    cases holds : phase.index with
    | none => rfl
    | some index => exact absurd ((holds_found found index).mpr holds) (valid.holds_nothing none call index)
  generalize s.advance answer phase = after at *
  obtain ⟨next, s'⟩ := after
  dsimp only at *
  have at_call {other : Nat} {phase' : Call} (there : (s'.calls.set call next)[other]? = some phase') :
      phase' = next ∨ s.calls[other]? = some phase' := by
    rw [framed.calls, List.getElem?_set] at there
    split at there
    · split at there
      · exact .inl (Option.some.inj there).symm
      · cases there
    · exact .inr there
  exact {
    counted := by
      dsimp only
      rw [framed.calls]
      exact counted
    bounded := by
      dsimp only
      rw [framed.issued, framed.sequence]
      exact valid.bounded
    distinct := by
      dsimp only
      rw [framed.issued]
      exact valid.distinct
    keys
    capacity := by
      dsimp only
      rw [framed.maxSessions]
      exact capacity
    rolled := by
      intro other id lifetime close there
      rcases at_call there with same | old
      · exact known.rolled id lifetime close same.symm
      · exact known.failed lifetime (valid.rolled old)
    confirmed := by
      intro other id lifetime there
      rcases at_call there with same | old
      · exact known.confirmed id lifetime same.symm
      · exact known.finished lifetime (valid.confirmed old)
    slotted := by
      dsimp only
      rw [framed.calls]
      exact valid.slotted.advance found advanced
    begun := by
      dsimp only
      rw [framed.shutdown, framed.closing]
      exact valid.begun
    idle := by
      dsimp only
      rw [framed.shutdown]
      exact fun there quiet => spawns (valid.idle there quiet)
    taken := by
      dsimp only
      rw [framed.shutdown]
      exact fun there quiet other => advanced.slots_nil (valid.taken there quiet other)
    unprojected := by
      dsimp only
      rw [framed.projection]
      intro none
      obtain ⟨empty, zero⟩ := valid.unprojected none
      refine ⟨advanced.slots_nil empty, ?_⟩
      rw [advanced.created_of_free, zero]
      cases holds : phase.index with
      | none => rfl
      | some index =>
        have held := valid.slotted.held ((holds_found found index).mpr holds)
        rw [empty] at held
        cases held
    stopped := by
      dsimp only
      rw [framed.services]
      exact fun none => advanced.slots_nil (valid.stopped none)
    spent := by
      dsimp only
      rw [framed.services, framed.shutdown]
      exact valid.spent
    covered := fun model below => covered below
    down := by
      dsimp only
      rw [framed.down, framed.closing, framed.closed, framed.finished]
      intro down
      obtain ⟨closing, none, finished⟩ := valid.down down
      refine ⟨closing, spawns none, fun model below => finished model ?_⟩
      rw [created none] at below
      exact below }

/-- A quiet shutdown has closed the gate. -/
theorem Valid.quiet_closed (valid : Valid s) {phase : Shutdown} (there : s.shutdown = some phase)
    (quiet : phase.quiet = true) : s.closing = true := by
  refine valid.begun there ?_
  rintro rfl
  cases quiet

theorem mem_append_call {calls : List Call} {phase other : Call} {call : Nat}
    (there : (calls ++ [phase])[call]? = some other) : other = phase ∨ calls[call]? = some other := by
  rw [List.getElem?_append] at there
  split at there
  · exact .inr there
  · exact .inl (List.mem_singleton.mp (List.mem_of_getElem? there))

/-- A call that holds nothing yet joins. -/
theorem Valid.covered_append (valid : Valid s) {phase : Call} (unbuilt : phase.model = none) {model : Nat}
    (below : model < s.created) :
    s.closed model = true ∨ s.finished model = true ∨ Slot.owned model ∈ s.slots ∨
      (∃ call, Builds (s.calls ++ [phase]) call model) ∨
      ∃ phase, s.shutdown = some phase ∧ Slot.owned model ∈ phase.table := by
  rcases valid.covered model below with closed | finished | member | ⟨call, building⟩ | table
  · exact .inl closed
  · exact .inr (.inl finished)
  · exact .inr (.inr (.inl member))
  · refine .inr (.inr (.inr (.inl ⟨call, ?_⟩)))
    rw [Builds, bind_append Call.model unbuilt]
    exact building
  · exact .inr (.inr (.inr (.inr table)))

theorem Valid.admitted (valid : Valid s) (opened : s.closing = false) (id : SessionId) (projection : Bool) :
    Valid { s with
      sequence := s.sequence + 1
      spawns := s.spawns + 1
      issued := s.issued ++ [⟨s.owner, s.sequence + 1⟩]
      calls := s.calls ++ [.admitted id ⟨s.owner, s.sequence + 1⟩ projection] } where
  counted := by simp [valid.counted, Call.spawning]
  bounded := by
    intro lifetime member
    rcases List.mem_append.mp member with old | new
    · exact Nat.le_succ_of_le (valid.bounded lifetime old)
    · obtain rfl := List.mem_singleton.mp new
      exact Nat.le_refl _
  distinct := by
    refine List.nodup_append.mpr ⟨valid.distinct, List.nodup_cons.mpr ⟨List.not_mem_nil, List.nodup_nil⟩, ?_⟩
    rintro lifetime old other new rfl
    have bound := valid.bounded lifetime old
    rw [List.mem_singleton.mp new] at bound
    exact absurd bound (Nat.not_succ_le_self _)
  keys := valid.keys
  capacity := valid.capacity
  rolled there := by
    rcases mem_append_call there with same | old
    · cases same
    · exact valid.rolled old
  confirmed there := by
    rcases mem_append_call there with same | old
    · cases same
    · exact valid.confirmed old
  slotted := valid.slotted.appended rfl rfl
  begun := valid.begun
  idle there quiet := by cases opened.symm.trans (valid.quiet_closed there quiet)
  taken := valid.taken
  unprojected := valid.unprojected
  stopped := valid.stopped
  spent := valid.spent
  covered model below := valid.covered_append rfl below
  down down := by cases opened.symm.trans (valid.down down).1

theorem Valid.forgets (valid : Valid s) (id : SessionId) (lifetime : SessionLifetime) :
    Valid { s with calls := s.calls ++ [.forgetting id lifetime] } where
  counted := by simp [valid.counted, Call.spawning]
  bounded := valid.bounded
  distinct := valid.distinct
  keys := valid.keys
  capacity := valid.capacity
  rolled there := by
    rcases mem_append_call there with same | old
    · cases same
    · exact valid.rolled old
  confirmed there := by
    rcases mem_append_call there with same | old
    · cases same
    · exact valid.confirmed old
  slotted := valid.slotted.appended rfl rfl
  begun := valid.begun
  idle := valid.idle
  taken := valid.taken
  unprojected := valid.unprojected
  stopped := valid.stopped
  spent := valid.spent
  covered model below := valid.covered_append rfl below
  down := valid.down

theorem Valid.starts (valid : Valid s) (free : s.shutdown = none) : Valid { s with shutdown := some .started } :=
  { valid with
    begun := fun there other => by
      cases there
      exact absurd rfl other
    idle := fun there quiet => by
      cases there
      cases quiet
    taken := fun there quiet => by
      cases there
      cases quiet
    spent := fun _ _ there => by rcases there with ⟨_, there⟩ | there <;> cases there
    covered := fun model below => by
      rcases valid.covered model below with closed | finished | member | building | ⟨phase, there, _⟩
      · exact .inl closed
      · exact .inr (.inl finished)
      · exact .inr (.inr (.inl member))
      · exact .inr (.inr (.inr (.inl building)))
      · cases free.symm.trans there }

theorem Valid.reported (valid : Valid s) (lifetime : SessionLifetime) (report : SessionStatus.Report) :
    Valid (s.report lifetime report) :=
  { valid with confirmed := fun there => s.report_statuses lifetime report (valid.confirmed there) }

theorem update_true {f : Nat → Bool} {model other : Nat} (holds : f other = true) :
    Function.update f model true other = true := by
  by_cases same : other = model
  · rw [same, Function.update_self]
  · rw [Function.update_of_ne same]
    exact holds

theorem Valid.closes (valid : Valid s) (model : Nat) :
    Valid { s with closed := Function.update s.closed model true } := by
  exact { valid with
    covered := fun other below => (valid.covered other below).imp update_true fun rest => rest
    down := fun down => by
      obtain ⟨closing, none, finished⟩ := valid.down down
      exact ⟨closing, none, fun other below => (finished other below).imp update_true fun rest => rest⟩ }

/-- The shutdown moves on, its table unchanged. -/
theorem Valid.moves (valid : Valid s) {phase next : Shutdown} (there : s.shutdown = some phase)
    (closed : phase ≠ .started) (quiet : next.quiet = true → s.spawns = 0)
    (taken : next.quiet = true → next ≠ .idle → s.slots = [])
    (spent : s.services = false → ∀ table, (∃ remaining, next = .closing table remaining) ∨
      next = .stopping table → table = [])
    (table : ∀ model, Slot.owned model ∈ phase.table → Slot.owned model ∈ next.table) :
    Valid { s with shutdown := some next } :=
  { valid with
    begun := fun _ _ => valid.begun there closed
    idle := fun same now => by
      cases same
      exact quiet now
    taken := fun same now other => by
      cases same
      exact taken now other
    spent := fun none table found => by
      refine spent none table ?_
      rcases found with ⟨remaining, same⟩ | same
      · exact .inl ⟨remaining, Option.some.inj same⟩
      · exact .inr (Option.some.inj same)
    covered := fun model below => by
      rcases valid.covered model below with closed | finished | member | building | ⟨old, same, member⟩
      · exact .inl closed
      · exact .inr (.inl finished)
      · exact .inr (.inr (.inl member))
      · exact .inr (.inr (.inr (.inl building)))
      · obtain rfl := Option.some.inj (there.symm.trans same)
        exact .inr (.inr (.inr (.inr ⟨next, rfl, table model member⟩))) }

/-- The shutdown returns when every coordinator it could find is closed or finished. -/
theorem Valid.returns (valid : Valid s) {phase : Shutdown} (there : s.shutdown = some phase)
    (closed : phase ≠ .started) (idle : s.spawns = 0) (empty : s.slots = [])
    (table : ∀ model, Slot.owned model ∉ phase.table) : Valid { s with shutdown := none, down := true } := by
  have settled (model : Nat) (below : model < s.created) : s.closed model = true ∨ s.finished model = true := by
    rcases valid.covered model below with closed | finished | member | ⟨call, building⟩ | ⟨old, same, member⟩
    · exact .inl closed
    · exact .inr finished
    · rw [empty] at member
      cases member
    · exact absurd building (valid.builds_nothing idle call model)
    · obtain rfl := Option.some.inj (there.symm.trans same)
      exact absurd member (table model)
  exact { valid with
    begun := fun wrong => nomatch wrong
    idle := fun wrong => nomatch wrong
    taken := fun wrong => nomatch wrong
    spent := fun _ _ found => by rcases found with ⟨_, wrong⟩ | wrong <;> cases wrong
    covered := fun model below => (settled model below).imp (fun closed => closed) .inl
    down := fun _ => ⟨valid.begun there closed, idle, settled⟩ }

/-- The shutdown takes the whole table while no spawn is in progress. -/
theorem Valid.takes (valid : Valid s) (there : s.shutdown = some .idle) :
    Valid { s with slots := [], shutdown := some (.closing s.slots s.slots) } :=
  { valid with
    slotted := valid.slotted.emptied (valid.holds_nothing (valid.idle there rfl))
    begun := fun _ _ => valid.begun there (by simp)
    idle := fun _ _ => valid.idle there rfl
    taken := fun _ _ _ => rfl
    unprojected := fun none => ⟨rfl, (valid.unprojected none).2⟩
    stopped := fun _ => rfl
    spent := fun none table found => by
      rcases found with ⟨_, same⟩ | same
      · cases same
        exact valid.stopped none
      · cases same
    covered := fun model below => by
      rcases valid.covered model below with closed | finished | member | building | ⟨old, same, member⟩
      · exact .inl closed
      · exact .inr (.inl finished)
      · exact .inr (.inr (.inr (.inr ⟨_, rfl, member⟩)))
      · exact .inr (.inr (.inr (.inl building)))
      · cases there.symm.trans same
        cases member }

/-- One look at a coordinator after both pools have joined. -/
theorem Valid.finishes (valid : Valid s) {model : Nat} {remaining : List Slot}
    (there : s.shutdown = some (.finishing (.owned model :: remaining))) {finished : Nat → Bool}
    (grows : ∀ other, s.finished other = true → finished other = true)
    (here : s.closed model = true ∨ finished model = true) :
    Valid { s with finished, shutdown := some (.finishing remaining) } :=
  { valid with
    begun := fun _ _ => valid.begun there (by simp)
    idle := fun _ _ => valid.idle there rfl
    taken := fun _ _ _ => valid.taken there rfl (by simp)
    spent := fun _ _ found => by rcases found with ⟨_, wrong⟩ | wrong <;> cases wrong
    covered := fun other below => by
      rcases valid.covered other below with closed | done | member | building | ⟨old, same, member⟩
      · exact .inl closed
      · exact .inr (.inl (grows other done))
      · exact .inr (.inr (.inl member))
      · exact .inr (.inr (.inr (.inl building)))
      · cases there.symm.trans same
        rcases List.mem_cons.mp member with this | later
        · cases this
          exact here.imp (fun closed => closed) .inl
        · exact .inr (.inr (.inr (.inr ⟨_, rfl, later⟩)))
    down := fun down => by
      obtain ⟨closing, none, settled⟩ := valid.down down
      exact ⟨closing, none, fun other below => (settled other below).imp (fun closed => closed) (grows other)⟩ }

theorem Valid.proceed (valid : Valid s) {phase : Shutdown} (there : s.shutdown = some phase) :
    Valid { (s.proceed phase).2 with shutdown := (s.proceed phase).1 } := by
  cases phase with
  | started =>
    exact { valid with
      begun := fun _ _ => rfl
      idle := fun same quiet => by
        cases same
        cases quiet
      taken := fun same quiet => by
        cases same
        cases quiet
      spent := fun _ _ found => by rcases found with ⟨_, wrong⟩ | wrong <;> cases wrong
      covered := fun model below => by
        rcases valid.covered model below with closed | finished | member | building | ⟨old, same, member⟩
        · exact .inl closed
        · exact .inr (.inl finished)
        · exact .inr (.inr (.inl member))
        · exact .inr (.inr (.inr (.inl building)))
        · cases there.symm.trans same
          cases member
      down := fun down => ⟨rfl, (valid.down down).2⟩ }
  | begun =>
    simp only [Runtime.proceed]
    split
    · exact valid.moves there (by simp) (fun quiet => nomatch quiet) (fun quiet => nomatch quiet)
        (fun _ _ found => by rcases found with ⟨_, wrong⟩ | wrong <;> cases wrong) (fun _ member => nomatch member)
    · rename_i busy
      have idle : s.spawns = 0 := Decidable.not_not.mp busy
      split
      · exact valid.moves there (by simp) (fun _ => idle) (fun _ other => absurd rfl other)
          (fun _ _ found => by rcases found with ⟨_, wrong⟩ | wrong <;> cases wrong) (fun _ member => nomatch member)
      · rename_i unprojected
        have empty := (valid.unprojected (Bool.not_eq_true _ ▸ unprojected)).1
        exact valid.returns there (by simp) idle empty (fun _ member => nomatch member)
  | idle => exact valid.takes there
  | closing table remaining =>
    have idle := valid.idle there rfl
    have empty := valid.taken there rfl (by simp)
    cases remaining with
    | nil =>
      exact valid.moves there (by simp) (fun _ => idle) (fun _ _ => empty)
        (fun none other found => by
          rcases found with ⟨_, same⟩ | same
          · cases same
          · cases same
            exact valid.spent none (.inl ⟨[], there⟩)) (fun _ member => member)
    | cons slot rest =>
      exact valid.moves there (by simp) (fun _ => idle) (fun _ _ => empty)
        (fun none other found => by
          rcases found with ⟨_, same⟩ | same
          · cases same
            exact valid.spent none (.inl ⟨slot :: rest, there⟩)
          · cases same) (fun _ member => member)
  | stopping table =>
    have idle := valid.idle there rfl
    have empty := valid.taken there rfl (by simp)
    simp only [Runtime.proceed]
    split
    · have moved : Valid { s with shutdown := some (.finishing table) } :=
        valid.moves there (by simp) (fun _ => idle) (fun _ _ => empty) (fun _ _ found => by rcases found with ⟨_, wrong⟩ | wrong <;> cases wrong) (fun _ member => member)
      exact { moved with
        stopped := fun _ => empty
        spent := fun _ _ found => by rcases found with ⟨_, wrong⟩ | wrong <;> cases wrong }
    · rename_i gone
      have none := valid.spent (Bool.not_eq_true _ ▸ gone) (.inr there)
      subst none
      exact valid.returns there (by simp) idle empty (fun _ member => nomatch member)
  | finishing remaining =>
    have idle := valid.idle there rfl
    have empty := valid.taken there rfl (by simp)
    cases remaining with
    | nil => exact valid.returns there (by simp) idle empty (fun _ member => nomatch member)
    | cons slot rest =>
      cases slot with
      | owned model =>
        simp only [Runtime.proceed]
        split
        · rename_i closed
          exact valid.finishes there (fun _ done => done) (.inl closed)
        · exact valid.finishes there (fun other => update_true) (.inr (Function.update_self ..))
      | vacant | reserved =>
        exact valid.moves there (by simp) (fun _ => idle) (fun _ _ => empty)
          (fun _ _ found => by rcases found with ⟨_, wrong⟩ | wrong <;> cases wrong)
          (fun _ member => by
            rcases List.mem_cons.mp member with wrong | later
            · cases wrong
            · exact later)

theorem Valid.step (valid : Valid s) (event : Event) : Valid (s.step event) := by
  cases event with
  | spawn id projection =>
    simp only [Runtime.step]
    split
    · exact valid
    · rcases s.gateAdmit_cases with ⟨error, same⟩ | ⟨opened, same⟩
      · rw [same]
        exact valid
      · rw [same]
        exact valid.admitted opened id projection
  | lookup id => exact valid
  | forget id =>
    simp only [Runtime.step]
    split
    · exact valid
    · exact valid.forgets id _
  | resume call answer =>
    simp only [Runtime.step]
    split
    · exact valid
    · rename_i found
      exact valid.resume found answer
  | shutdown =>
    simp only [Runtime.step]
    split
    · exact valid
    · rename_i free
      exact valid.starts (by simpa using free)
  | proceed =>
    simp only [Runtime.step]
    split
    · exact valid
    · rename_i there
      exact valid.proceed there
  | report lifetime report => exact valid.reported lifetime report
  | close model => exact valid.closes model

theorem Valid.run (valid : Valid s) (events : List Event) : Valid (s.run events) := by
  induction events generalizing s with
  | nil => exact valid
  | cons event rest ih => exact ih (valid.step event)

theorem proceed_facts (s : Runtime) (phase : Shutdown) :
    (s.proceed phase).2.entries = s.entries ∧ (s.proceed phase).2.issued = s.issued ∧
      (s.closing = true → (s.proceed phase).2.closing = true) := by
  unfold Runtime.proceed
  repeat' split
  all_goals first | exact ⟨rfl, rfl, fun closing => closing⟩ | exact ⟨rfl, rfl, fun _ => rfl⟩

/-- Only a section of a call touches the registry. -/
theorem step_entries (s : Runtime) (event : Event) :
    (s.step event).entries = s.entries ∨ ∃ call answer phase, event = .resume call answer ∧
      s.calls[call]? = some phase ∧ Recorded s phase (s.step event) := by
  cases event with
  | resume call answer =>
    simp only [step]
    split
    · exact .inl rfl
    · rename_i phase found
      have recorded := s.advance_entries answer phase
      refine .inr ⟨call, answer, phase, rfl, found, ?_⟩
      cases recorded with
      | same entries => exact .same entries
      | registers called fresh room entries => exact .registers called fresh room entries
      | removes called current entries => exact .removes called current entries
  | spawn id projection =>
    simp only [step]
    split
    · exact .inl rfl
    · rcases s.gateAdmit_cases with ⟨error, same⟩ | ⟨-, same⟩
      · rw [same]
        exact .inl rfl
      · rw [same]
        exact .inl rfl
  | lookup | report | close => exact .inl rfl
  | forget id =>
    simp only [step]
    split <;> exact .inl rfl
  | shutdown =>
    simp only [step]
    split <;> exact .inl rfl
  | proceed =>
    simp only [step]
    split
    · exact .inl rfl
    · exact .inl (s.proceed_facts _).1

/-- A closed gate stays closed and hands out nothing. -/
theorem step_closing (closing : s.closing = true) (event : Event) :
    (s.step event).closing = true ∧ (s.step event).issued = s.issued := by
  cases event with
  | spawn id projection =>
    simp only [step]
    split
    · exact ⟨closing, rfl⟩
    · rcases s.gateAdmit_cases with ⟨error, same⟩ | ⟨opened, -⟩
      · rw [same]
        exact ⟨closing, rfl⟩
      · cases opened.symm.trans closing
  | resume call answer =>
    simp only [step]
    split
    · exact ⟨closing, rfl⟩
    · rename_i phase found
      have framed := s.advance_framed answer phase
      exact ⟨framed.closing.trans closing, framed.issued⟩
  | lookup | report | close => exact ⟨closing, rfl⟩
  | forget id =>
    simp only [step]
    split <;> exact ⟨closing, rfl⟩
  | shutdown =>
    simp only [step]
    split <;> exact ⟨closing, rfl⟩
  | proceed =>
    simp only [step]
    split
    · exact ⟨closing, rfl⟩
    · rename_i phase there
      obtain ⟨-, issued, closed⟩ := s.proceed_facts phase
      exact ⟨closed closing, issued⟩

theorem run_closing (closing : s.closing = true) (events : List Event) : (s.run events).issued = s.issued := by
  induction events generalizing s with
  | nil => rfl
  | cons event rest ih =>
    obtain ⟨closed, issued⟩ := step_closing closing event
    exact (ih closed).trans issued

theorem eq_of_nodup_fst {entries : List (SessionId × SessionLifetime)} (keys : (entries.map Prod.fst).Nodup)
    {id : SessionId} {lifetime other : SessionLifetime} (first : (id, lifetime) ∈ entries)
    (second : (id, other) ∈ entries) : lifetime = other :=
  congrArg Prod.snd (List.inj_on_of_nodup_map keys first second rfl)

/-- A registered id keeps its lifetime while it is registered. -/
theorem Valid.never_replaced (valid : Valid s) {event : Event} {id : SessionId} {lifetime other : SessionLifetime}
    (before : (id, lifetime) ∈ s.entries) (after : (id, other) ∈ (s.step event).entries) : other = lifetime := by
  rcases s.step_entries event with same | ⟨call, answer, phase, -, -, recorded⟩
  · rw [same] at after
    exact eq_of_nodup_fst valid.keys after before
  · have keys := (valid.step event).keys
    cases recorded with
    | same entries =>
      rw [entries] at after
      exact eq_of_nodup_fst valid.keys after before
    | registers called fresh room entries =>
      refine eq_of_nodup_fst keys after ?_
      rw [entries]
      exact List.mem_cons_of_mem _ before
    | removes called current entries =>
      rw [entries] at after
      exact eq_of_nodup_fst valid.keys (List.mem_of_mem_filter after) before

/-- An entry leaves by the rollback of its own spawn, or by a removal that names its
lifetime and saw it finished. -/
theorem Valid.leaves (valid : Valid s) {event : Event} {id : SessionId} {lifetime : SessionLifetime}
    (before : (id, lifetime) ∈ s.entries) (after : (id, lifetime) ∉ (s.step event).entries) :
    ∃ call answer, event = .resume call answer ∧
      ((∃ close, s.calls[call]? = some (.rollingBack id lifetime close)) ∧ lifetime ∈ s.failed ∨
        s.calls[call]? = some (.confirmed id lifetime) ∧ (s.statuses lifetime).completion.isSome = true) := by
  rcases s.step_entries event with same | ⟨call, answer, phase, called, found, recorded⟩
  · exact absurd (same ▸ before) after
  · refine ⟨call, answer, called, ?_⟩
    cases recorded with
    | same entries => exact absurd (entries ▸ before) after
    | registers _ _ _ entries => exact absurd (by rw [entries]; exact List.mem_cons_of_mem _ before) after
    | @removes removed named called current entries =>
      -- the entry that left is the one the call names
      have here : id = removed := by
        by_contra other
        refine after ?_
        rw [entries]
        exact List.mem_filter.mpr ⟨before, by simpa using other⟩
      subst here
      obtain ⟨first, second, split, -⟩ := List.lookup_eq_some_iff.mp current
      have member : (id, named) ∈ s.entries := by
        rw [split]
        exact List.mem_append_right _ List.mem_cons_self
      obtain rfl := eq_of_nodup_fst valid.keys before member
      rcases called with ⟨close, rfl⟩ | rfl
      · exact .inl ⟨⟨close, found⟩, valid.rolled found⟩
      · exact .inr ⟨found, valid.confirmed found⟩

theorem step_maxSessions (s : Runtime) (event : Event) : (s.step event).maxSessions = s.maxSessions := by
  cases event with
  | spawn id projection =>
    simp only [step]
    split
    · rfl
    · rcases s.gateAdmit_cases with ⟨error, same⟩ | ⟨-, same⟩
      · rw [same]
      · rw [same]
  | resume call answer =>
    simp only [step]
    split
    · rfl
    · exact (s.advance_framed answer _).maxSessions
  | lookup | report | close => rfl
  | forget id =>
    simp only [step]
    split <;> rfl
  | shutdown =>
    simp only [step]
    split <;> rfl
  | proceed =>
    simp only [step, Runtime.proceed]
    repeat' split
    all_goals rfl

theorem run_maxSessions (s : Runtime) (events : List Event) : (s.run events).maxSessions = s.maxSessions := by
  induction events generalizing s with
  | nil => rfl
  | cons event rest ih => exact (ih _).trans (s.step_maxSessions event)

/-- What holds of the gate, the registry and the slots in a reachable state. -/
structure Orderly (s : Runtime) (maxSessions : Nat) : Prop where
  /-- Lifetimes are pairwise distinct, and a closed gate hands out no more. -/
  lifetimes : s.issued.Nodup ∧ (s.closing = true → ∀ later, (s.run later).issued = s.issued)
  /-- The registry is a map within its capacity. -/
  registry : (s.entries.map Prod.fst).Nodup ∧ s.entries.length ≤ maxSessions
  /-- A registered id is never replaced. -/
  kept : ∀ event id lifetime other, (id, lifetime) ∈ s.entries → (id, other) ∈ (s.step event).entries →
    other = lifetime
  /-- An entry leaves by an operation that names its lifetime, after its own spawn failed or
  it was seen finished. -/
  leaves : ∀ event id lifetime, (id, lifetime) ∈ s.entries → (id, lifetime) ∉ (s.step event).entries →
    ∃ call answer, event = .resume call answer ∧
      ((∃ close, s.calls[call]? = some (.rollingBack id lifetime close)) ∧ lifetime ∈ s.failed ∨
        s.calls[call]? = some (.confirmed id lifetime) ∧ (s.statuses lifetime).completion.isSome = true)
  /-- The index of a reservation is valid and nobody else's. -/
  reservations : ∀ call index, Holds s.calls call index →
    s.slots[index]? = some .reserved ∧ ∀ other, Holds s.calls other index → other = call
  /-- A reserved slot belongs to a spawn, and a coordinator is in one slot. -/
  slots : (∀ index : Nat, s.slots[index]? = some .reserved → ∃ call, Holds s.calls call index) ∧
    ∀ i j model : Nat, s.slots[i]? = some (.owned model) → s.slots[j]? = some (.owned model) → i = j
  /-- The table is taken while no spawn is in progress. -/
  taking : s.shutdown = some .idle → s.closing = true ∧
    ∀ (call : Nat) (phase : Call), s.calls[call]? = some phase → phase.spawning = false
  /-- When a shutdown has returned, every coordinator ever created is closed or was finished. -/
  down : s.down = true → ∀ model < s.created, s.closed model = true ∨ s.finished model = true

theorem Valid.orderly (valid : Valid s) : Orderly s s.maxSessions where
  lifetimes := ⟨valid.distinct, run_closing⟩
  registry := ⟨valid.keys, valid.capacity⟩
  kept _ _ _ _ before after := valid.never_replaced before after
  leaves _ _ _ before after := valid.leaves before after
  reservations _ _ holds := ⟨valid.slotted.held holds, fun _ same => valid.slotted.exclusive same holds⟩
  slots := ⟨fun _ found => valid.slotted.reserved found, fun _ _ _ first second => valid.slotted.unique first second⟩
  taking there := ⟨valid.quiet_closed there rfl, fun _ _ found => valid.not_spawning (valid.idle there rfl) found⟩
  down down := (valid.down down).2.2

/-- Every interleaving of spawns, lookups, forgets, shutdowns and what the ports answer
keeps session identity and shutdown admission. -/
theorem runtime_orderly (owner maxSessions : Nat) (projection : Bool) (events : List Event) :
    Orderly ((new owner maxSessions projection).run events) maxSessions := by
  have orderly := ((new_valid owner maxSessions projection).run events).orderly
  rwa [run_maxSessions] at orderly

end PtyRuntime.Runtime
