import PtyRuntime.Application.Runtime.Owner

/-! The projection slots. A reserved slot belongs to the one spawn that holds its index, and
an owned one to the one coordinator in it, whatever calls do in between. -/
namespace PtyRuntime.Runtime

variable {s : Runtime} {calls : List Call} {slots : List Slot} {created : Nat}

/-- The index a call holds a reservation for. -/
def Call.index : Call → Option Nat
  | .reserved _ _ index => some index
  | .unreserving _ _ index _ => some index
  | .built _ _ index _ => some index
  | _ => none

/-- The coordinator a call has created and not yet published. -/
def Call.model : Call → Option Nat
  | .built _ _ _ model => some model
  | _ => none

def Holds (calls : List Call) (call index : Nat) : Prop := calls[call]?.bind Call.index = some index

def Builds (calls : List Call) (call model : Nat) : Prop := calls[call]?.bind Call.model = some model

/-- Setting one call changes what it holds and nothing of the others. -/
theorem bind_set {α : Type} {call other : Nat} {phase next : Call} (f : Call → Option α)
    (found : calls[call]? = some phase) :
    (calls.set call next)[other]?.bind f = if call = other then f next else calls[other]?.bind f := by
  rw [List.getElem?_set]
  by_cases same : call = other
  · obtain ⟨within, -⟩ := List.getElem?_eq_some_iff.mp found
    subst same
    simp [within]
  · simp [same]

theorem bind_append {α : Type} {other : Nat} {phase : Call} (f : Call → Option α) (none : f phase = none) :
    (calls ++ [phase])[other]?.bind f = calls[other]?.bind f := by
  rw [List.getElem?_append]
  split
  · rfl
  · rename_i out
    rw [List.getElem?_eq_none (Nat.not_lt.mp out)]
    cases at_end : [phase][other - calls.length]? with
    | none => rfl
    | some last =>
      have same := List.mem_of_getElem? at_end
      rw [List.mem_singleton.mp same]
      exact none

/-- Everything a section of a call may do to slots and coordinators. -/
inductive Advanced (s : Runtime) (phase next : Call) (s' : Runtime) : Prop where
  | keeps (slots : s'.slots = s.slots) (created : s'.created = s.created) (index : next.index = phase.index)
      (model : next.model = phase.model)
  | reclaims (slots : s'.slots = s.slots.map (reclaim s.closed)) (created : s'.created = s.created)
      (before : phase.index = none) (index : next.index = none) (unbuilt : phase.model = none)
      (model : next.model = none)
  | reserves {i : Nat} (vacant : (s.slots.map (reclaim s.closed))[i]? = some .vacant)
      (slots : s'.slots = (s.slots.map (reclaim s.closed)).set i .reserved) (created : s'.created = s.created)
      (before : phase.index = none) (index : next.index = some i) (unbuilt : phase.model = none)
      (model : next.model = none)
  | builds {i : Nat} (slots : s'.slots = s.slots) (created : s'.created = s.created + 1)
      (before : phase.index = some i) (index : next.index = some i) (unbuilt : phase.model = none)
      (model : next.model = some s.created)
  | frees {i : Nat} (slots : s'.slots = s.slots.set i .vacant) (created : s'.created = s.created)
      (before : phase.index = some i) (index : next.index = none) (unbuilt : phase.model = none)
      (model : next.model = none)
  | publishes {i m : Nat} (slots : s'.slots = s.slots.set i (.owned m)) (created : s'.created = s.created)
      (before : phase.index = some i) (index : next.index = none) (building : phase.model = some m)
      (model : next.model = none)

theorem removeLifetime_slots (s : Runtime) (id : SessionId) (lifetime : SessionLifetime) :
    (s.removeLifetime id lifetime).slots = s.slots ∧ (s.removeLifetime id lifetime).created = s.created := by
  unfold removeLifetime
  split <;> exact ⟨rfl, rfl⟩

theorem reserve_eq (s : Runtime) :
    (∃ error, s.reserve = (.error error, { s with slots := s.slots.map (reclaim s.closed) })) ∨
      ∃ index, (s.slots.map (reclaim s.closed))[index]? = some .vacant ∧
        s.reserve = (.ok index, { s with slots := (s.slots.map (reclaim s.closed)).set index .reserved }) := by
  unfold reserve
  cases place : (s.slots.map (reclaim s.closed)).findIdx? (· = .vacant) with
  | none => exact .inl ⟨.capacity, by simp only [place]⟩
  | some index =>
    obtain ⟨within, vacant, -⟩ := List.findIdx?_eq_some_iff_getElem.mp place
    refine .inr ⟨index, ?_, by simp only [place]⟩
    rw [List.getElem?_eq_getElem within]
    exact congrArg some (of_decide_eq_true vacant)

theorem advance_slots (s : Runtime) (answer : Answer) (phase : Call) :
    Advanced s phase (s.advance answer phase).1 (s.advance answer phase).2 := by
  cases phase with
  | admitted id lifetime projection =>
    simp only [advance, register]
    split
    · exact .keeps rfl rfl rfl rfl
    · rename_i registered
      split at registered
      · cases registered
      · split at registered
        · cases registered
        · cases registered
          exact .keeps rfl rfl rfl rfl
  | registered id lifetime projection =>
    simp only [advance]
    split
    · rcases s.reserve_eq with ⟨error, same⟩ | ⟨index, vacant, same⟩
      · rw [same]
        exact .reclaims rfl rfl rfl rfl rfl rfl
      · rw [same]
        exact .reserves vacant rfl rfl rfl rfl rfl rfl
    · exact .keeps rfl rfl rfl rfl
  | reserved id lifetime index =>
    simp only [advance]
    split
    · split
      · exact .keeps rfl rfl rfl rfl
      · exact .builds rfl rfl rfl rfl rfl rfl
    · exact .keeps rfl rfl rfl rfl
  | unreserving id lifetime index error => exact .frees rfl rfl rfl rfl rfl rfl
  | built id lifetime index model => exact .publishes rfl rfl rfl rfl rfl rfl
  | launching id lifetime =>
    simp only [advance]
    split <;> exact .keeps rfl rfl rfl rfl
  | rollingBack id lifetime close =>
    obtain ⟨slots, created⟩ := s.removeLifetime_slots id lifetime
    simp only [advance]
    split <;> exact .keeps slots created rfl rfl
  | forgetting id lifetime =>
    simp only [advance]
    repeat' split
    all_goals exact .keeps rfl rfl rfl rfl
  | forgetClosing | removing | confirming =>
    simp only [advance]
    split <;> exact .keeps rfl rfl rfl rfl
  | confirmed id lifetime =>
    obtain ⟨slots, created⟩ := s.removeLifetime_slots id lifetime
    exact .keeps slots created rfl rfl
  | published | refused | rejected | closingModel | leaving | returned => exact .keeps rfl rfl rfl rfl

/-- Who holds which slot, and which coordinators are where. -/
structure Slotted (calls : List Call) (slots : List Slot) (created : Nat) : Prop where
  held : ∀ {call index : Nat}, Holds calls call index → slots[index]? = some .reserved
  exclusive : ∀ {call other index : Nat}, Holds calls call index → Holds calls other index → call = other
  reserved : ∀ {index : Nat}, slots[index]? = some .reserved → ∃ call, Holds calls call index
  unique : ∀ {i j model : Nat}, slots[i]? = some (.owned model) → slots[j]? = some (.owned model) → i = j
  below : ∀ {i model : Nat}, slots[i]? = some (.owned model) → model < created
  building : ∀ {call model : Nat}, Builds calls call model → model < created ∧ Slot.owned model ∉ slots
  distinct : ∀ {call other model : Nat}, Builds calls call model → Builds calls other model → call = other

theorem reclaim_reserved {closed : Nat → Bool} {index : Nat} :
    (slots.map (reclaim closed))[index]? = some .reserved ↔ slots[index]? = some .reserved := by
  rw [List.getElem?_map]
  cases slots[index]? with
  | none => exact Iff.rfl
  | some slot =>
    cases slot with
    | vacant | reserved => exact Iff.rfl
    | owned model =>
      simp only [Option.map_some, reclaim, Option.some.injEq]
      split <;> simp

theorem reclaim_owned {closed : Nat → Bool} {index model : Nat}
    (found : (slots.map (reclaim closed))[index]? = some (.owned model)) :
    slots[index]? = some (.owned model) := by
  rw [List.getElem?_map] at found
  cases held : slots[index]? with
  | none =>
    rw [held] at found
    cases found
  | some slot =>
    rw [held] at found
    cases slot with
    | vacant | reserved => cases found
    | owned other =>
      simp only [Option.map_some, reclaim, Option.some.injEq] at found
      split at found
      · cases found
      · rw [found]

theorem Slotted.reclaimed (slotted : Slotted calls slots created) (closed : Nat → Bool) :
    Slotted calls (slots.map (reclaim closed)) created where
  held holds := reclaim_reserved.mpr (slotted.held holds)
  exclusive := slotted.exclusive
  reserved found := slotted.reserved (reclaim_reserved.mp found)
  unique first second := slotted.unique (reclaim_owned first) (reclaim_owned second)
  below found := slotted.below (reclaim_owned found)
  building builds := by
    obtain ⟨bound, absent⟩ := slotted.building builds
    refine ⟨bound, fun member => ?_⟩
    obtain ⟨index, found⟩ := List.getElem?_of_mem member
    exact absent (List.mem_of_getElem? (reclaim_owned found))
  distinct := slotted.distinct

/-- Only what calls hold matters of them. -/
theorem Slotted.congr {calls' : List Call} (slotted : Slotted calls slots created)
    (holds : ∀ call index, Holds calls' call index ↔ Holds calls call index)
    (builds : ∀ call model, Builds calls' call model ↔ Builds calls call model) :
    Slotted calls' slots created where
  held held := slotted.held ((holds _ _).mp held)
  exclusive first second := slotted.exclusive ((holds _ _).mp first) ((holds _ _).mp second)
  reserved found := (slotted.reserved found).imp fun call held => (holds call _).mpr held
  unique := slotted.unique
  below := slotted.below
  building built := slotted.building ((builds _ _).mp built)
  distinct first second := slotted.distinct ((builds _ _).mp first) ((builds _ _).mp second)

section Set

variable {call : Nat} {phase next : Call} (found : calls[call]? = some phase)
include found

theorem holds_set (other index : Nat) : Holds (calls.set call next) other index ↔
    if call = other then next.index = some index else Holds calls other index := by
  unfold Holds
  rw [bind_set Call.index found]
  split <;> exact Iff.rfl

theorem builds_set (other model : Nat) : Builds (calls.set call next) other model ↔
    if call = other then next.model = some model else Builds calls other model := by
  unfold Builds
  rw [bind_set Call.model found]
  split <;> exact Iff.rfl

theorem holds_found (index : Nat) : Holds calls call index ↔ phase.index = some index := by
  unfold Holds
  rw [found]
  exact Iff.rfl

theorem builds_found (model : Nat) : Builds calls call model ↔ phase.model = some model := by
  unfold Builds
  rw [found]
  exact Iff.rfl

theorem holds_same (index : next.index = phase.index) (other i : Nat) :
    Holds (calls.set call next) other i ↔ Holds calls other i := by
  rw [holds_set found, index]
  split
  · rename_i same
    rw [← same, holds_found found]
  · exact Iff.rfl

theorem builds_same (model : next.model = phase.model) (other m : Nat) :
    Builds (calls.set call next) other m ↔ Builds calls other m := by
  rw [builds_set found, model]
  split
  · rename_i same
    rw [← same, builds_found found]
  · exact Iff.rfl

/-- A call that keeps what it holds changes nothing here. -/
theorem Slotted.moved (slotted : Slotted calls slots created) (index : next.index = phase.index)
    (model : next.model = phase.model) : Slotted (calls.set call next) slots created :=
  slotted.congr (holds_same found index) (builds_same found model)

/-- A call that held nothing takes a vacant slot. -/
theorem Slotted.took (slotted : Slotted calls slots created) {i : Nat} (vacant : slots[i]? = some .vacant)
    (before : phase.index = none) (index : next.index = some i) (model : next.model = phase.model) :
    Slotted (calls.set call next) (slots.set i .reserved) created := by
  have builds : ∀ other m, Builds (calls.set call next) other m ↔ Builds calls other m := builds_same found model
  obtain ⟨within, -⟩ := List.getElem?_eq_some_iff.mp vacant
  have placed (j : Nat) : (slots.set i .reserved)[j]? = if i = j then some .reserved else slots[j]? := by
    rw [List.getElem?_set]
    simp [within]
  have owned {j model : Nat} (found : (slots.set i .reserved)[j]? = some (.owned model)) :
      slots[j]? = some (.owned model) := by
    rw [placed] at found
    split at found
    · cases found
    · exact found
  have elsewhere {other j : Nat} (differs : call ≠ other) (holds : Holds (calls.set call next) other j) :
      Holds calls other j ∧ i ≠ j := by
    rw [holds_set found, if_neg differs] at holds
    refine ⟨holds, ?_⟩
    rintro rfl
    cases vacant.symm.trans (slotted.held holds)
  exact {
    held := by
      intro other j holds
      rw [placed]
      split
      · rfl
      · rename_i differs
        rw [holds_set found] at holds
        split at holds
        · exact absurd (Option.some.inj (index.symm.trans holds)) differs
        · exact slotted.held holds
    exclusive := by
      intro first second j one two
      by_cases this : call = first
      · by_cases that : call = second
        · rw [← this, ← that]
        · rw [holds_set found, if_pos this] at one
          exact absurd (Option.some.inj (index.symm.trans one)) (elsewhere that two).2
      · by_cases that : call = second
        · rw [holds_set found, if_pos that] at two
          exact absurd (Option.some.inj (index.symm.trans two)) (elsewhere this one).2
        · exact slotted.exclusive (elsewhere this one).1 (elsewhere that two).1
    reserved := by
      intro j reserved
      rw [placed] at reserved
      split at reserved
      · rename_i here
        exact ⟨call, (holds_set found call j).mpr (by rw [if_pos rfl, index, here])⟩
      · obtain ⟨other, holds⟩ := slotted.reserved reserved
        refine ⟨other, (holds_set found other j).mpr ?_⟩
        rw [if_neg]
        · exact holds
        · rintro rfl
          rw [holds_found found, before] at holds
          cases holds
    unique := fun first second => slotted.unique (owned first) (owned second)
    below := fun found => slotted.below (owned found)
    building := by
      intro other m built
      obtain ⟨bound, absent⟩ := slotted.building ((builds _ _).mp built)
      refine ⟨bound, fun member => ?_⟩
      obtain ⟨j, found⟩ := List.getElem?_of_mem member
      exact absent (List.mem_of_getElem? (owned found))
    distinct := fun first second => slotted.distinct ((builds _ _).mp first) ((builds _ _).mp second) }

/-- A call gives up the slot it holds, empty or with the coordinator it built. -/
theorem Slotted.gave (slotted : Slotted calls slots created) {i : Nat} {slot : Slot}
    (before : phase.index = some i) (index : next.index = none) (model : next.model = none)
    (content : slot = .vacant ∨ ∃ m, slot = .owned m ∧ phase.model = some m) :
    Slotted (calls.set call next) (slots.set i slot) created := by
  have mine : Holds calls call i := (holds_found found i).mpr before
  obtain ⟨within, -⟩ := List.getElem?_eq_some_iff.mp (slotted.held mine)
  have placed (j : Nat) : (slots.set i slot)[j]? = if i = j then some slot else slots[j]? := by
    rw [List.getElem?_set]
    simp [within]
  have elsewhere {other j : Nat} (holds : Holds (calls.set call next) other j) :
      Holds calls other j ∧ i ≠ j := by
    rw [holds_set found, index] at holds
    split at holds
    · cases holds
    · rename_i differs
      refine ⟨holds, ?_⟩
      rintro rfl
      exact differs (slotted.exclusive mine holds)
  have building {other m : Nat} (builds : Builds (calls.set call next) other m) :
      Builds calls other m ∧ call ≠ other := by
    rw [builds_set found, model] at builds
    split at builds
    · cases builds
    · rename_i differs
      exact ⟨builds, differs⟩
  have owned {j m : Nat} (found' : (slots.set i slot)[j]? = some (.owned m)) :
      i = j ∧ Builds calls call m ∨ i ≠ j ∧ slots[j]? = some (.owned m) := by
    rw [placed] at found'
    split at found'
    · rename_i here
      obtain rfl := Option.some.inj found'
      rcases content with vacant | ⟨_, same, built⟩
      · cases vacant
      · cases same
        exact .inl ⟨here, (builds_found found m).mpr built⟩
    · rename_i differs
      exact .inr ⟨differs, found'⟩
  exact {
    held := by
      intro other j holds
      obtain ⟨old, differs⟩ := elsewhere holds
      rw [placed, if_neg differs]
      exact slotted.held old
    exclusive := fun first second => slotted.exclusive (elsewhere first).1 (elsewhere second).1
    reserved := by
      intro j reserved
      rw [placed] at reserved
      split at reserved
      · obtain rfl := Option.some.inj reserved
        rcases content with vacant | ⟨_, same, _⟩
        · cases vacant
        · cases same
      · rename_i differs
        obtain ⟨other, holds⟩ := slotted.reserved reserved
        refine ⟨other, (holds_set found other j).mpr ?_⟩
        rw [if_neg]
        · exact holds
        · rintro rfl
          rw [holds_found found, before] at holds
          exact differs (Option.some.inj holds)
    unique := by
      intro j k m first second
      rcases owned first with ⟨here, built⟩ | ⟨-, first⟩
      · rcases owned second with ⟨there, -⟩ | ⟨-, second⟩
        · rw [← here, ← there]
        · exact absurd (List.mem_of_getElem? second) (slotted.building built).2
      · rcases owned second with ⟨-, built⟩ | ⟨-, second⟩
        · exact absurd (List.mem_of_getElem? first) (slotted.building built).2
        · exact slotted.unique first second
    below := by
      intro j m first
      rcases owned first with ⟨-, built⟩ | ⟨-, first⟩
      · exact (slotted.building built).1
      · exact slotted.below first
    building := by
      intro other m builds
      obtain ⟨old, differs⟩ := building builds
      obtain ⟨bound, absent⟩ := slotted.building old
      refine ⟨bound, fun member => ?_⟩
      obtain ⟨j, first⟩ := List.getElem?_of_mem member
      rcases owned first with ⟨-, built⟩ | ⟨-, first⟩
      · exact differs (slotted.distinct built old)
      · exact absent (List.mem_of_getElem? first)
    distinct := fun first second => slotted.distinct (building first).1 (building second).1 }

/-- A call that holds a slot creates the next coordinator. -/
theorem Slotted.built (slotted : Slotted calls slots created) (index : next.index = phase.index)
    (model : next.model = some created) : Slotted (calls.set call next) slots (created + 1) := by
  have holds : ∀ other i, Holds (calls.set call next) other i ↔ Holds calls other i := holds_same found index
  have builds {other m : Nat} (builds : Builds (calls.set call next) other m) :
      call = other ∧ m = created ∨ call ≠ other ∧ Builds calls other m := by
    rw [builds_set found, model] at builds
    split at builds
    · rename_i here
      exact .inl ⟨here, (Option.some.inj builds).symm⟩
    · rename_i differs
      exact .inr ⟨differs, builds⟩
  exact {
    held := fun held => slotted.held ((holds _ _).mp held)
    exclusive := fun first second => slotted.exclusive ((holds _ _).mp first) ((holds _ _).mp second)
    reserved := fun found => (slotted.reserved found).imp fun other held => (holds other _).mpr held
    unique := slotted.unique
    below := fun found => Nat.lt_succ_of_lt (slotted.below found)
    building := by
      intro other m built
      rcases builds built with ⟨-, rfl⟩ | ⟨-, old⟩
      · refine ⟨Nat.lt_succ_self _, fun member => ?_⟩
        obtain ⟨j, found⟩ := List.getElem?_of_mem member
        exact Nat.lt_irrefl _ (slotted.below found)
      · exact ⟨Nat.lt_succ_of_lt (slotted.building old).1, (slotted.building old).2⟩
    distinct := by
      intro first second m one two
      rcases builds one with ⟨here, same⟩ | ⟨-, one⟩
      · rcases builds two with ⟨there, -⟩ | ⟨-, two⟩
        · rw [← here, ← there]
        · exact absurd (slotted.building two).1 (by omega)
      · rcases builds two with ⟨-, same⟩ | ⟨-, two⟩
        · exact absurd (slotted.building one).1 (by omega)
        · exact slotted.distinct one two }

theorem Slotted.advance {s' : Runtime} (slotted : Slotted calls s.slots s.created)
    (advanced : Advanced s phase next s') : Slotted (calls.set call next) s'.slots s'.created := by
  cases advanced with
  | keeps slots created index model =>
    rw [slots, created]
    exact slotted.moved found index model
  | reclaims slots created before index unbuilt model =>
    rw [slots, created]
    exact (slotted.reclaimed s.closed).moved found (index.trans before.symm) (model.trans unbuilt.symm)
  | reserves vacant slots created before index unbuilt model =>
    rw [slots, created]
    exact (slotted.reclaimed s.closed).took found vacant before index (model.trans unbuilt.symm)
  | builds slots created before index unbuilt model =>
    rw [slots, created]
    exact slotted.built found (index.trans before.symm) model
  | frees slots created before index unbuilt model =>
    rw [slots, created]
    exact slotted.gave found before index model (.inl rfl)
  | publishes slots created before index building model =>
    rw [slots, created]
    exact slotted.gave found before index model (.inr ⟨_, rfl, building⟩)

end Set

theorem Slotted.appended (slotted : Slotted calls slots created) {phase : Call} (index : phase.index = none)
    (model : phase.model = none) : Slotted (calls ++ [phase]) slots created := by
  refine slotted.congr (fun call i => ?_) fun call m => ?_
  · rw [Holds, Holds, bind_append Call.index index]
  · rw [Builds, Builds, bind_append Call.model model]

/-- Without holders the whole table can be taken away. -/
theorem Slotted.emptied (slotted : Slotted calls slots created) (free : ∀ call index, ¬Holds calls call index) :
    Slotted calls [] created where
  held holds := absurd holds (free _ _)
  exclusive holds := absurd holds (free _ _)
  reserved found := nomatch found
  unique found := nomatch found
  below found := nomatch found
  building builds := ⟨(slotted.building builds).1, List.not_mem_nil⟩
  distinct := slotted.distinct

end PtyRuntime.Runtime
