import PtyRuntime.Domain.ProgramStatus.StoreRuns

/-! Which application a record inherits. The walk from a record's identifier through its
parents visits exactly the identifiers it lies within, longest first, so it ends at the
nearest record that names an application. -/
namespace PtyRuntime.ProgramStatusStore

/-- An identifier lies within itself, the segments before one of its slashes, and the root. -/
def Within (id ancestor : Bytes) : Prop :=
  ancestor = id ∨ ancestor = [] ∨ ∃ suffix, id = ancestor ++ '/'.toUInt8 :: suffix

theorem Within.length_le {id ancestor : Bytes} (within : Within id ancestor) :
    ancestor.length ≤ id.length := by
  rcases within with rfl | rfl | ⟨suffix, rfl⟩
  · exact Nat.le_refl _
  · exact Nat.zero_le _
  · rw [List.length_append]
    exact Nat.le_add_right _ _

theorem Within.isPrefix {id ancestor : Bytes} (within : Within id ancestor) : ancestor <+: id := by
  rcases within with rfl | rfl | ⟨suffix, rfl⟩
  · exact List.prefix_rfl
  · exact List.nil_prefix
  · exact List.prefix_append _ _

theorem within_nil {ancestor : Bytes} : Within [] ancestor ↔ ancestor = [] := by
  constructor
  · intro within
    exact List.length_eq_zero_iff.mp (Nat.le_zero.mp within.length_le)
  · exact .inl

theorem rdropWhile_segment (path : Bytes) {segment : Bytes} (single : '/'.toUInt8 ∉ segment) :
    (path ++ segment).rdropWhile (· != '/'.toUInt8) = path.rdropWhile (· != '/'.toUInt8) := by
  induction segment using List.reverseRecOn with
  | nil => rw [List.append_nil]
  | append_singleton segment byte ih =>
    rw [List.mem_append, not_or, List.mem_singleton] at single
    have other : (byte != '/'.toUInt8) = true := bne_iff_ne.mpr fun same => single.2 same.symm
    rw [← List.append_assoc,
      List.rdropWhile_concat_pos (· != '/'.toUInt8) (path ++ segment) byte other, ih single.1]

theorem parent_single {segment : Bytes} (single : '/'.toUInt8 ∉ segment) : parent segment = [] := by
  have dropped := rdropWhile_segment [] single
  rw [List.nil_append] at dropped
  rw [parent, dropped]
  rfl

theorem parent_path (path : Bytes) {segment : Bytes} (single : '/'.toUInt8 ∉ segment) :
    parent (path ++ '/'.toUInt8 :: segment) = path := by
  have dropped := rdropWhile_segment (path ++ ['/'.toUInt8]) single
  rw [List.append_assoc, List.singleton_append] at dropped
  rw [parent, dropped, List.rdropWhile_concat_neg _ _ _ (by decide), List.dropLast_concat]

/-- What an identifier lies within besides itself is what its parent lies within. -/
theorem within_parent {id : Bytes} (ancestor : Bytes) (named : id ≠ []) :
    Within id ancestor ↔ ancestor = id ∨ Within (parent id) ancestor := by
  by_cases nested : '/'.toUInt8 ∈ id
  · obtain ⟨backwards, rest, reversed, single⟩ :=
      List.eq_append_cons_of_mem (List.mem_reverse.mpr nested)
    obtain ⟨path, segment, rfl, single⟩ :
        ∃ path segment, id = path ++ '/'.toUInt8 :: segment ∧ '/'.toUInt8 ∉ segment := by
      refine ⟨rest.reverse, backwards.reverse, ?_, by rwa [List.mem_reverse]⟩
      rw [← List.reverse_reverse id, reversed]
      simp
    rw [parent_path path single]
    constructor
    · rintro (same | root | ⟨suffix, split⟩)
      · exact .inl same
      · exact .inr (.inr (.inl root))
      · right
        -- The ancestor's slash is the path's last one or lies inside the path.
        rcases List.append_eq_append_iff.mp split with ⟨more, rfl, tail⟩ | ⟨more, rfl, tail⟩
        · rcases more with _ | ⟨slash, more⟩
          · exact .inl (List.append_nil _)
          · obtain ⟨rfl, rfl⟩ := List.cons.inj tail
            exact absurd (List.mem_append_right _ List.mem_cons_self) single
        · rcases more with _ | ⟨slash, more⟩
          · exact .inl (List.append_nil _).symm
          · obtain ⟨rfl, -⟩ := List.cons.inj tail
            exact .inr (.inr ⟨more, rfl⟩)
    · rintro (same | rfl | root | ⟨suffix, rfl⟩)
      · exact .inl same
      · exact .inr (.inr ⟨segment, rfl⟩)
      · exact .inr (.inl root)
      · exact .inr (.inr ⟨suffix ++ '/'.toUInt8 :: segment, by rw [List.append_assoc]; rfl⟩)
  · rw [parent_single nested, within_nil]
    constructor
    · rintro (same | root | ⟨suffix, rfl⟩)
      · exact .inl same
      · exact .inr root
      · exact absurd (List.mem_append_right _ List.mem_cons_self) nested
    · rintro (same | root)
      · exact .inl same
      · exact .inr (.inl root)

/-- The application of the nearest record an identifier lies within that names one. -/
def Inherits (records : List ProgramStatusRecord) (id : Bytes) : Option Bytes → Prop
  | none => ∀ r ∈ records, Within id r.id → r.app = none
  | some app => ∃ r ∈ records, Within id r.id ∧ r.app = some app ∧
      ∀ other ∈ records, Within id other.id → other.app ≠ none → other.id.length ≤ r.id.length

/-- No identifier lies within two others of one length, so there is one nearest record. -/
theorem Inherits.unique {records : List ProgramStatusRecord} (distinct : (records.map (·.id)).Nodup)
    {id : Bytes} {app other : Option Bytes} (first : Inherits records id app)
    (second : Inherits records id other) : app = other := by
  match app, other with
  | none, none => rfl
  | none, some _ =>
    obtain ⟨r, member, within, named, -⟩ := second
    exact absurd named (by rw [first r member within]; exact nofun)
  | some _, none =>
    obtain ⟨r, member, within, named, -⟩ := first
    exact absurd named (by rw [second r member within]; exact nofun)
  | some _, some _ =>
    obtain ⟨r, member, within, named, nearest⟩ := first
    obtain ⟨r', member', within', named', nearest'⟩ := second
    have length : r.id.length = r'.id.length :=
      Nat.le_antisymm (nearest' r member within (by rw [named]; exact nofun))
        (nearest r' member' within' (by rw [named']; exact nofun))
    have same : r.id = r'.id :=
      (List.prefix_of_prefix_length_le within.isPrefix within'.isPrefix length.le).eq_of_length length
    obtain rfl := List.inj_on_of_nodup_map distinct member member' same
    rw [← named, named']

/-- With distinct identifiers, a search finds an identifier's own application. -/
theorem found_app {records : List ProgramStatusRecord} (distinct : (records.map (·.id)).Nodup)
    {id : Bytes} {r : ProgramStatusRecord} (member : r ∈ records) (named : r.id = id) :
    (records.find? (·.id == id)).bind (·.app) = r.app := by
  cases found : records.find? (·.id == id) with
  | none => exact absurd named (by simpa using List.find?_eq_none.mp found r member)
  | some r' =>
    have matched : r'.id = id := by simpa using List.find?_some found
    obtain rfl := List.inj_on_of_nodup_map distinct (List.mem_of_find?_eq_some found) member
      (matched.trans named.symm)
    rfl

/-- The walk ends at the nearest record that names an application. -/
theorem resolveApp_inherits {records : List ProgramStatusRecord}
    (distinct : (records.map (·.id)).Nodup) (id : Bytes) :
    Inherits records id (resolveApp records id) := by
  induction id using resolveApp.induct records with
  | case1 id app own =>
    rw [resolveApp, own]
    obtain ⟨r, found, named⟩ := Option.bind_eq_some_iff.mp own
    have matched : r.id = id := by simpa using List.find?_some found
    exact ⟨r, List.mem_of_find?_eq_some found, .inl matched, named,
      fun other _ within _ => matched ▸ within.length_le⟩
  | case2 own =>
    rw [resolveApp, own]
    intro r member within
    rw [← found_app distinct member (within_nil.mp within), own]
  | case3 id own named ih =>
    rw [resolveApp, own, dif_neg named]
    have elsewhere (r : ProgramStatusRecord) (member : r ∈ records) (app : r.app ≠ none)
        (within : Within id r.id) : Within (parent id) r.id := by
      rcases (within_parent r.id named).mp within with same | above
      · exact absurd ((found_app distinct member same).symm.trans own) app
      · exact above
    cases resolved : resolveApp records (parent id) with
    | none =>
      rw [resolved] at ih
      intro r member within
      by_contra app
      exact app (ih r member (elsewhere r member app within))
    | some app =>
      rw [resolved] at ih
      obtain ⟨r, member, within, owns, nearest⟩ := ih
      exact ⟨r, member, (within_parent r.id named).mpr (.inr within), owns,
        fun other present within app => nearest other present (elsewhere other present app within) app⟩

/-- In every store that can arise, a snapshot is the records in their order with the
application each inherits, and nothing else of them changed; and each step of the walk
to a parent shortens the identifier. -/
theorem snapshot_inherits {identity limit : Nat} {store : ProgramStatusStore}
    (created : ProgramStatusStore.new identity limit = .ok store) (events : List Life.Event) :
    let s := (({ store } : Life).run events).store
    s.snapshot.revision = s.revision ∧
    List.Forall₂ (fun shown stored : ProgramStatusRecord =>
      shown = { stored with resolvedApp := shown.resolvedApp } ∧
      ∀ app, shown.resolvedApp = app ↔ Inherits s.records stored.id app)
      s.snapshot.records s.records ∧
    ∀ id, id ≠ [] → (parent id).length < id.length ∧ Within id (parent id) := by
  intro s
  obtain ⟨positive, start⟩ := Life.new_sound created
  obtain ⟨stamped, agrees⟩ := (Life.run_sound positive start events).agrees
  have distinct : (s.records.map (·.id)).Nodup := by
    rw [agrees.records, List.map_map]
    exact agrees.lists.keys_nodup
  refine ⟨rfl, ?_, fun id named => ⟨parent_length named, ?_⟩⟩
  · rw [snapshot, List.forall₂_map_left_iff, List.forall₂_same]
    refine fun stored _ => ⟨rfl, fun app => ⟨?_, ?_⟩⟩
    · rintro rfl
      exact resolveApp_inherits distinct stored.id
    · exact (resolveApp_inherits distinct stored.id).unique distinct
  · exact (within_parent _ named).mpr (.inr (.inl rfl))

/-- A record three levels down with only its outermost ancestor in the store. -/
theorem snapshot_inherits_outer :
    let chunk := 0x1b :: ascii "]7501;state=idle:app=v:id=a" ++ [7, 0x1b] ++
      ascii "]7501;state=idle:id=a/b/c" ++ [7]
    let s := (({ store := { identity := 0, limit := 64 } } : Life).run
      [.scan chunk, .commit 0]).store
    s.snapshot.revision = s.revision ∧ s.snapshot.records.length = s.records.length := by
  intro chunk s
  have created : ProgramStatusStore.new 0 64 = .ok { identity := 0, limit := 64 } := rfl
  have law := snapshot_inherits created [.scan chunk, .commit 0]
  exact ⟨law.1, law.2.1.length_eq⟩

end PtyRuntime.ProgramStatusStore
