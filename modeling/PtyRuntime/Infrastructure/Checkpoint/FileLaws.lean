import PtyRuntime.Infrastructure.Checkpoint.BoundedMap
import Mathlib.Data.List.Nodup

/-! The disk store refines the bounded map: its files and entries read as one map, and
every operation, whatever fails under it, is a step of that map. -/
namespace PtyRuntime

namespace Directory

variable {d : Directory}

/-- Whatever a step answers, it leaves the other files alone. -/
def SameExcept (names : List FileName) (d d' : Directory) : Prop :=
  ∀ name ∉ names, d' name = d name

theorem sameExcept_refl (names : List FileName) (d : Directory) : SameExcept names d d := fun _ _ => rfl

theorem SameExcept.trans {names : List FileName} {d d' d'' : Directory} (first : SameExcept names d d')
    (second : SameExcept names d' d'') : SameExcept names d d'' :=
  fun name other => (second name other).trans (first name other)

theorem sameExcept_update {names : List FileName} {name : FileName} (member : name ∈ names)
    (d : Directory) (content : Option Bytes) : SameExcept names d (Function.update d name content) := by
  intro other absent
  apply Function.update_of_ne
  rintro rfl
  exact absent member

theorem create_same (d : Directory) (name : FileName) (answers : OpenAnswers) :
    SameExcept [name] d (d.create name answers).2 := by
  unfold create
  split
  · exact sameExcept_refl _ d
  · split
    · exact sameExcept_refl _ d
    · exact sameExcept_update List.mem_cons_self d _

theorem create_ok {name : FileName} {answers : OpenAnswers} (ok : (d.create name answers).1 = .ok ()) :
    (d.create name answers).2 = Function.update d name (some []) := by
  unfold create at ok ⊢
  split at ok
  · cases ok
  · split at ok
    · cases ok
    · rename_i absent
      rw [if_neg absent]

theorem write_same (d : Directory) (name : FileName) (bytes : Bytes) (failure : Option (Nat × Fault)) :
    SameExcept [name] d (d.write name bytes failure).2 := by
  unfold write
  dsimp only
  split
  · exact sameExcept_update List.mem_cons_self d _
  · exact sameExcept_update List.mem_cons_self d _

theorem write_ok {name : FileName} {bytes : Bytes} {failure : Option (Nat × Fault)}
    (ok : (d.write name bytes failure).1 = .ok ()) :
    (d.write name bytes failure).2 = Function.update d name (some ((d name).getD [] ++ bytes)) := by
  unfold write at ok ⊢
  dsimp only at ok ⊢
  split at ok
  · cases ok
  · rfl

theorem rename_cases (d : Directory) (old new : FileName) (failure : Option Fault) :
    (∃ error, d.rename old new failure = (.error error, d)) ∨
      ∃ content, d old = some content ∧
        d.rename old new failure = (.ok (), Function.update (Function.update d old none) new (some content)) := by
  cases failure with
  | some fault => exact .inl ⟨_, rfl⟩
  | none =>
    cases content : d old with
    | none => exact .inl ⟨DiskError.notFound.map, by simp only [rename, content]⟩
    | some bytes => exact .inr ⟨bytes, rfl, by simp only [rename, content]⟩

theorem openRead_ok {name : FileName} {answers : OpenAnswers} {content : Bytes}
    (ok : d.openRead name answers = .ok content) : d name = some content := by
  unfold openRead at ok
  split at ok
  · cases ok
  · split at ok
    · cases ok
    · rename_i held
      cases checked : checkMetadata answers.metadata with
      | error error => rw [checked] at ok; cases ok
      | ok =>
        rw [checked] at ok
        cases ok
        exact held

theorem remove_cases (d : Directory) (name : FileName) (failure : Option Fault) :
    (∃ error, d.remove name failure = (.error error, d)) ∨
      d.remove name failure = (.ok (), Function.update d name none) := by
  cases failure with
  | some fault => exact .inl ⟨(DiskError.fault fault).map, rfl⟩
  | none =>
    right
    cases content : d name with
    | none =>
      have same : Function.update d name none = d := by
        rw [← content, Function.update_eq_self]
      simp [remove, unlink, content, same]
    | some bytes => simp [remove, unlink, content]

end Directory

namespace FileCheckpointStore

open Directory

/-- A failed publication touches only the temporary file; a successful one puts the
whole ciphertext under the final name. -/
theorem publish_cases (d : Directory) {temp name : FileName} (other : temp ≠ name) (bytes : Bytes)
    (answers : CommitAnswers) :
    (∃ error, (publish d temp name bytes answers).1 = .error error ∧
        SameExcept [temp] d (publish d temp name bytes answers).2) ∨
      ((publish d temp name bytes answers).1 = .ok () ∧
        (publish d temp name bytes answers).2 name = some bytes ∧
        (publish d temp name bytes answers).2 temp = none ∧
        SameExcept [temp, name] d (publish d temp name bytes answers).2) := by
  have created := d.create_same temp answers.opening
  unfold publish
  cases opened : d.create temp answers.opening with
  | mk result d₁ =>
    rw [opened] at created
    cases result with
    | error error => exact .inl ⟨error, rfl, created⟩
    | ok =>
      have first : d₁ = Function.update d temp (some []) := by
        have step := create_ok (congrArg Prod.fst opened)
        rwa [opened] at step
      have wrote := d₁.write_same temp bytes answers.write
      dsimp only
      cases written : d₁.write temp bytes answers.write with
      | mk result d₂ =>
        rw [written] at wrote
        cases result with
        | error error => exact .inl ⟨error, rfl, created.trans wrote⟩
        | ok =>
          have second : d₂ temp = some bytes := by
            have step := write_ok (congrArg Prod.fst written)
            rw [written] at step
            dsimp only at step
            rw [step, Function.update_self, first, Function.update_self]
            rfl
          dsimp only
          cases answers.sync with
          | some fault => exact .inl ⟨_, rfl, created.trans wrote⟩
          | none =>
            dsimp only
            rcases d₂.rename_cases temp name answers.rename with ⟨error, same⟩ | ⟨content, held, same⟩
            · rw [same]
              exact .inl ⟨error, rfl, created.trans wrote⟩
            · obtain rfl := Option.some.inj (second.symm.trans held)
              rw [same]
              refine .inr ⟨rfl, Function.update_self _ _ _, ?_, ?_⟩
              · dsimp only
                rw [Function.update_of_ne other, Function.update_self]
              · intro unrelated absent
                have notTemp : unrelated ≠ temp := fun same => absent (by rw [same]; exact List.mem_cons_self)
                have notName : unrelated ≠ name := fun same => absent (by rw [same]; simp)
                dsimp only
                rw [Function.update_of_ne notName, Function.update_of_ne notTemp]
                exact (created.trans wrote) unrelated (by simpa using notTemp)

/-- What every operation keeps of the store. -/
structure Sound (s : FileCheckpointStore) : Prop where
  keys : (s.entries.map (·.reference.key)).Nodup
  names : (s.entries.map (·.name)).Nodup
  named : ∀ entry ∈ s.entries, ∃ n ≤ s.sequence, entry.name = .checkpoint n
  files : ∀ entry ∈ s.entries, ∃ content, s.directory entry.name = some content ∧
    content.length = entry.reference.bytes
  committed : s.committed = (s.entries.map (·.reference.bytes)).sum
  bounded : s.committed + s.abandoned ≤ s.limit
  idle : s.inflight = 0

/-- The map that the entries and their files stand for. -/
def view (s : FileCheckpointStore) : BoundedMap where
  limit := s.limit
  stored key := (s.lookup key).bind fun entry =>
    (s.directory entry.name).map fun content =>
      ⟨entry.reference, entry.reference.key, entry.descriptor, content⟩
  committed := s.committed
  abandoned := s.abandoned

variable {s : FileCheckpointStore}

theorem lookup_mem {key : CheckpointKey} {entry : FileEntry} (found : s.lookup key = some entry) :
    entry ∈ s.entries ∧ entry.reference.key = key :=
  ⟨List.mem_of_find?_eq_some found, by simpa using List.find?_some found⟩

theorem view_of_lookup {key : CheckpointKey} {entry : FileEntry} {content : Bytes}
    (found : s.lookup key = some entry) (file : s.directory entry.name = some content) :
    s.view.stored key = some ⟨entry.reference, key, entry.descriptor, content⟩ := by
  obtain ⟨-, rfl⟩ := lookup_mem found
  simp only [view, found, Option.bind_some, file, Option.map_some]

theorem view_of_absent {key : CheckpointKey} (absent : s.lookup key = none) : s.view.stored key = none := by
  simp only [view, absent, Option.bind_none]

/-- What the view stores depends on the entries and their files only. -/
theorem stored_congr {s s' : FileCheckpointStore} (entries : s'.entries = s.entries)
    (files : ∀ entry ∈ s.entries, s'.directory entry.name = s.directory entry.name) :
    s'.view.stored = s.view.stored := by
  funext key
  have found : s'.lookup key = s.lookup key := by rw [lookup, lookup, entries]
  simp only [view, found]
  cases look : s.lookup key with
  | none => rfl
  | some entry => simp only [Option.bind_some, files entry (lookup_mem look).1]

theorem view_congr {s : FileCheckpointStore} (s' : FileCheckpointStore) (entries : s'.entries = s.entries)
    (files : ∀ entry ∈ s.entries, s'.directory entry.name = s.directory entry.name) :
    s'.view = ⟨s'.limit, s.view.stored, s'.committed, s'.abandoned⟩ := by
  rw [← stored_congr entries files]
  rfl

theorem fromDirectory_sound (directory : Directory) (limit : Nat) : Sound (fromDirectory directory limit) where
  keys := List.nodup_nil
  names := List.nodup_nil
  named _ member := nomatch member
  files _ member := nomatch member
  committed := rfl
  bounded := Nat.zero_le _
  idle := rfl

/-- A later sequence number, a larger abandoned charge within the limit and other files
changed keep the store sound. -/
theorem Sound.extend (sound : Sound s) {directory : Directory} {sequence inflight abandoned : Nat}
    {orphans : List FileName} (later : s.sequence ≤ sequence) (idle : inflight = 0)
    (bounded : s.committed + abandoned ≤ s.limit)
    (files : ∀ entry ∈ s.entries, directory entry.name = s.directory entry.name) :
    Sound { s with directory, sequence, inflight, abandoned, orphans } where
  keys := sound.keys
  names := sound.names
  named entry member := by
    obtain ⟨n, within, name⟩ := sound.named entry member
    exact ⟨n, Nat.le_trans within later, name⟩
  files entry member := by
    obtain ⟨content, held, length⟩ := sound.files entry member
    exact ⟨content, (files entry member).trans held, length⟩
  committed := sound.committed
  bounded := bounded
  idle := idle

/-- Entries bear the names of earlier commits. -/
theorem Sound.name_ne (sound : Sound s) {entry : FileEntry} (member : entry ∈ s.entries) :
    entry.name ∉ [FileName.pending (s.sequence + 1), FileName.checkpoint (s.sequence + 1)] := by
  obtain ⟨n, within, name⟩ := sound.named entry member
  rw [name]
  intro same
  simp only [List.mem_cons, reduceCtorEq, FileName.checkpoint.injEq, List.not_mem_nil, or_false, false_or] at same
  omega

/-- The new entry of a successful commit. -/
theorem Sound.insert (sound : Sound s) {checkpoint : ProtectedCheckpoint} {objectId : Nat}
    {directory : Directory} (fresh : s.lookup checkpoint.key = none)
    (fits : s.committed + s.abandoned + checkpoint.ciphertext.length ≤ s.limit)
    (published : directory (.checkpoint (s.sequence + 1)) = some checkpoint.ciphertext)
    (others : Directory.SameExcept [.pending (s.sequence + 1), .checkpoint (s.sequence + 1)] s.directory directory) :
    Sound { s with
      directory
      sequence := s.sequence + 1
      inflight := 0
      entries := ⟨⟨objectId, checkpoint.key, checkpoint.ciphertext.length⟩, checkpoint.descriptor,
        .checkpoint (s.sequence + 1)⟩ :: s.entries
      committed := s.committed + checkpoint.ciphertext.length } where
  keys := by
    refine List.nodup_cons.mpr ⟨?_, sound.keys⟩
    intro member
    obtain ⟨entry, held, key⟩ := List.mem_map.mp member
    have different := List.find?_eq_none.mp fresh entry held
    exact different (by simpa using key)
  names := by
    refine List.nodup_cons.mpr ⟨?_, sound.names⟩
    intro member
    obtain ⟨entry, held, name⟩ := List.mem_map.mp member
    exact sound.name_ne held (by rw [name]; simp)
  named := by
    intro entry member
    rcases List.mem_cons.mp member with rfl | old
    · exact ⟨s.sequence + 1, Nat.le_refl _, rfl⟩
    · obtain ⟨n, within, name⟩ := sound.named entry old
      exact ⟨n, Nat.le_succ_of_le within, name⟩
  files := by
    intro entry member
    rcases List.mem_cons.mp member with rfl | old
    · exact ⟨checkpoint.ciphertext, published, rfl⟩
    · obtain ⟨content, held, length⟩ := sound.files entry old
      exact ⟨content, (others entry.name (sound.name_ne old)).trans held, length⟩
  committed := by
    simp only [List.map_cons, List.sum_cons, sound.committed]
    omega
  bounded := by
    dsimp only
    omega
  idle := rfl

theorem view_insert {s s' : FileCheckpointStore} (entry : FileEntry) {content : Bytes}
    (entries : s'.entries = entry :: s.entries) (published : s'.directory entry.name = some content)
    (files : ∀ entry ∈ s.entries, s'.directory entry.name = s.directory entry.name) :
    s'.view.stored = Function.update s.view.stored entry.reference.key
      (some ⟨entry.reference, entry.reference.key, entry.descriptor, content⟩) := by
  funext key
  by_cases same : entry.reference.key = key
  · subst same
    rw [Function.update_self]
    refine view_of_lookup ?_ published
    simp only [lookup, entries, List.find?_cons, decide_true]
  · have found : s'.lookup key = s.lookup key := by
      simp only [lookup, entries, List.find?_cons, same, decide_false]
    rw [Function.update_of_ne (Ne.symm same)]
    simp only [view, found]
    cases look : s.lookup key with
    | none => rfl
    | some entry => simp only [Option.bind_some, files entry (lookup_mem look).1]

/-- A commit that failed but left no file behind is refused; the store has counted on. -/
theorem refused_refines (sound : Sound s) (checkpoint : ProtectedCheckpoint) (error : CheckpointError)
    {cleanup : TempCleanup} (kept : cleanup ≠ .failed) {directory : Directory} {inflight : Nat}
    (idle : inflight = 0) (files : ∀ entry ∈ s.entries, directory entry.name = s.directory entry.name) :
    BoundedMap.Step s.view (.commit checkpoint) (.commit (.error error) cleanup)
        { s with directory, inflight, sequence := s.sequence + 1 }.view ∧
      Sound { s with directory, inflight, sequence := s.sequence + 1 } := by
  refine ⟨?_, sound.extend (Nat.le_succ _) idle sound.bounded files⟩
  rw [view_congr (s := s) { s with directory, inflight, sequence := s.sequence + 1 } rfl files]
  exact .refused kept

/-- A commit whose temporary file stays is charged for it. -/
theorem leaked_refines (sound : Sound s) {checkpoint : ProtectedCheckpoint} (error : CheckpointError)
    (fresh : s.lookup checkpoint.key = none)
    (fits : s.committed + s.abandoned + checkpoint.ciphertext.length ≤ s.limit) {directory : Directory}
    (orphans : List FileName) (files : ∀ entry ∈ s.entries, directory entry.name = s.directory entry.name) :
    BoundedMap.Step s.view (.commit checkpoint) (.commit (.error error) .failed)
        { s with
          directory, orphans
          inflight := 0
          abandoned := s.abandoned + checkpoint.ciphertext.length
          sequence := s.sequence + 1 }.view ∧
      Sound { s with
        directory, orphans
        inflight := 0
        abandoned := s.abandoned + checkpoint.ciphertext.length
        sequence := s.sequence + 1 } := by
  refine ⟨?_, sound.extend (Nat.le_succ _) rfl (by omega) files⟩
  rw [view_congr (s := s) { s with
    directory, orphans
    inflight := 0
    abandoned := s.abandoned + checkpoint.ciphertext.length
    sequence := s.sequence + 1 } rfl files]
  exact .leaked (view_of_absent fresh) fits

/-- A published ciphertext becomes the entry of its key. -/
theorem committed_refines (sound : Sound s) {checkpoint : ProtectedCheckpoint} (objectId : Nat)
    (fresh : s.lookup checkpoint.key = none) (nonempty : checkpoint.ciphertext ≠ [])
    (fits : s.committed + s.abandoned + checkpoint.ciphertext.length ≤ s.limit) {directory : Directory}
    (published : directory (.checkpoint (s.sequence + 1)) = some checkpoint.ciphertext)
    (others : Directory.SameExcept [.pending (s.sequence + 1), .checkpoint (s.sequence + 1)] s.directory
      directory) {s' : FileCheckpointStore}
    (after : s' = { s with
      directory
      sequence := s.sequence + 1
      inflight := 0
      entries := ⟨⟨objectId, checkpoint.key, checkpoint.ciphertext.length⟩, checkpoint.descriptor,
        .checkpoint (s.sequence + 1)⟩ :: s.entries
      committed := s.committed + checkpoint.ciphertext.length }) :
    BoundedMap.Step s.view (.commit checkpoint)
        (.commit (.ok ⟨objectId, checkpoint.key, checkpoint.ciphertext.length⟩) .unneeded) s'.view ∧
      Sound s' := by
  have kept : Sound s' := after ▸ sound.insert fresh fits published others
  have stored : s'.view.stored = Function.update s.view.stored checkpoint.key
      (some ⟨⟨objectId, checkpoint.key, checkpoint.ciphertext.length⟩, checkpoint⟩) := by
    subst after
    refine view_insert (s := s) ⟨⟨objectId, checkpoint.key, checkpoint.ciphertext.length⟩, checkpoint.descriptor,
      .checkpoint (s.sequence + 1)⟩ rfl published fun entry member => ?_
    exact others entry.name (sound.name_ne member)
  have view : s'.view = ⟨s'.limit, s'.view.stored, s'.committed, s'.abandoned⟩ := rfl
  refine ⟨?_, kept⟩
  rw [view, stored, after]
  exact .committed (view_of_absent fresh) nonempty fits

theorem commit_refines (sound : Sound s) (checkpoint : ProtectedCheckpoint) (answers : CommitAnswers) :
    BoundedMap.Step s.view (.commit checkpoint)
        (.commit (s.commit checkpoint answers).1 (s.commit checkpoint answers).2.1)
        (s.commit checkpoint answers).2.2.view ∧
      Sound (s.commit checkpoint answers).2.2 := by
  have unchanged (error : CheckpointError) :
      BoundedMap.Step s.view (.commit checkpoint) (.commit (.error error) .unneeded) s.view ∧ Sound s :=
    ⟨.refused (by decide), sound⟩
  unfold commit
  split
  · exact unchanged _
  · rename_i missing
    have fresh : s.lookup checkpoint.key = none := by simpa using missing
    dsimp only
    split
    · exact unchanged _
    · rename_i nonempty
      split
      · exact unchanged _
      · rename_i room
        have bounded := sound.bounded
        have fits : s.committed + s.abandoned + checkpoint.ciphertext.length ≤ s.limit := by omega
        cases added : checkedAdd s.sequence 1 with
        | none => exact unchanged _
        | some sequence =>
          obtain ⟨-, rfl⟩ := checkedAdd_eq_some.mp added
          dsimp only
          cases answers.entropy with
          | none => exact refused_refines sound checkpoint _ (by simp) sound.idle fun _ _ => rfl
          | some objectId =>
            have other : FileName.pending (s.sequence + 1) ≠ .checkpoint (s.sequence + 1) := by simp
            have outcomes := publish_cases s.directory other checkpoint.ciphertext answers
            dsimp only
            generalize publish s.directory (.pending (s.sequence + 1)) (.checkpoint (s.sequence + 1))
              checkpoint.ciphertext answers = published at outcomes ⊢
            obtain ⟨outcome, directory⟩ := published
            dsimp only at outcomes ⊢
            rcases outcomes with ⟨error, rfl, others⟩ | ⟨rfl, written, -, others⟩
            · have files (entry : FileEntry) (member : entry ∈ s.entries) :
                  directory entry.name = s.directory entry.name :=
                others entry.name fun temp => sound.name_ne member (List.mem_cons.mpr (.inl (by simpa using temp)))
              dsimp only
              rcases directory.remove_cases (.pending (s.sequence + 1)) answers.unlink with
                ⟨fault, same⟩ | same
              · rw [same]
                exact leaked_refines sound error fresh fits _ files
              · rw [same]
                refine refused_refines sound checkpoint error (by simp) rfl fun entry member => ?_
                rw [Function.update_of_ne, files entry member]
                exact fun temp => sound.name_ne member (by simp [temp])
            · exact committed_refines sound objectId fresh
                (by simpa [List.length_eq_zero_iff] using nonempty) fits written others rfl

/-- A file that a read returns is the whole file of the current entry. -/
theorem read_eq_ok (sound : Sound s) {reference : CheckpointRef} {maxBytes : Nat} {answers : ReadAnswers}
    {checkpoint : ProtectedCheckpoint} (ok : s.read reference maxBytes answers = .ok checkpoint) :
    ∃ entry content, s.lookup reference.key = some entry ∧ s.directory entry.name = some content ∧
      entry.reference = reference ∧ reference.bytes ≤ maxBytes ∧
      checkpoint = ⟨reference.key, entry.descriptor, content⟩ := by
  unfold read at ok
  split at ok
  · cases ok
  · rename_i within
    split at ok
    · cases ok
    · rename_i entry filtered
      obtain ⟨found, current⟩ := Option.filter_eq_some_iff.mp filtered
      obtain ⟨content, file, length⟩ := sound.files entry (lookup_mem found).1
      have current : entry.reference = reference := by simpa using current
      split at ok
      · cases ok
      · rename_i opened
        obtain rfl := Option.some.inj (file.symm.trans (openRead_ok opened))
        rw [current] at length
        simp only [length, ne_eq, not_true_eq_false, if_false] at ok
        have whole : content.take reference.bytes = content := List.take_of_length_le (Nat.le_of_eq length)
        have rest : content.drop reference.bytes = [] := List.drop_eq_nil_of_le (Nat.le_of_eq length)
        simp only [whole, rest, List.length_nil, not_true_eq_false, if_false] at ok
        split at ok
        · cases ok
        · split at ok
          · cases ok
          · split at ok
            · cases ok
            · cases ok
              exact ⟨entry, content, found, file, current, Nat.not_lt.mp within, rfl⟩

theorem read_refines (sound : Sound s) (reference : CheckpointRef) (maxBytes : Nat) (answers : ReadAnswers) :
    BoundedMap.Step s.view (.read reference maxBytes) (.read (s.read reference maxBytes answers)) s.view := by
  cases result : s.read reference maxBytes answers with
  | error error => exact .unread
  | ok checkpoint =>
    obtain ⟨entry, content, found, file, rfl, within, rfl⟩ := read_eq_ok sound result
    exact @BoundedMap.Step.read s.view ⟨entry.reference, _⟩ maxBytes (view_of_lookup found file) within

/-- No step of a read fails. -/
def granted : ReadAnswers := ⟨⟨none, .owned⟩, none, none, none⟩

/-- What the view stores can be read. -/
theorem read_stored (sound : Sound s) {key : CheckpointKey} {stored : Stored} {maxBytes : Nat}
    (held : s.view.stored key = some stored) (within : stored.reference.bytes ≤ maxBytes) :
    s.read stored.reference maxBytes granted = .ok stored.checkpoint := by
  cases found : s.lookup key with
  | none => cases (view_of_absent found).symm.trans held
  | some entry =>
    obtain ⟨member, rfl⟩ := lookup_mem found
    obtain ⟨content, file, length⟩ := sound.files entry member
    obtain rfl := Option.some.inj ((view_of_lookup found file).symm.trans held)
    have whole : content.take entry.reference.bytes = content := List.take_of_length_le (Nat.le_of_eq length)
    have rest : content.drop entry.reference.bytes = [] := List.drop_eq_nil_of_le (Nat.le_of_eq length)
    have opened : s.directory.openRead entry.name ⟨none, .owned⟩ = .ok content := by
      simp only [openRead, file, checkMetadata]
      rfl
    have current : (some entry).filter (·.reference = entry.reference) = some entry := by simp
    simp only [read, Nat.not_lt.mpr within, if_false, found, current, granted, opened, length, whole, rest, ne_eq,
      not_true_eq_false, List.length_nil]

/-- Keys being distinct, exactly one entry goes. -/
theorem sum_without_key {entries : List FileEntry} (keys : (entries.map (·.reference.key)).Nodup)
    {entry : FileEntry} (member : entry ∈ entries) :
    ((entries.filter (·.reference.key ≠ entry.reference.key)).map (·.reference.bytes)).sum +
        entry.reference.bytes = (entries.map (·.reference.bytes)).sum := by
  induction entries with
  | nil => cases member
  | cons head rest ih =>
    obtain ⟨headFresh, restKeys⟩ := List.nodup_cons.mp keys
    rcases List.mem_cons.mp member with rfl | inRest
    · have others : rest.filter (·.reference.key ≠ entry.reference.key) = rest := by
        refine List.filter_eq_self.mpr fun other held => ?_
        simp only [ne_eq, decide_eq_true_eq]
        exact fun same => headFresh (List.mem_map.mpr ⟨other, held, same⟩)
      simp only [ne_eq, not_true_eq_false, decide_false, Bool.false_eq_true, not_false_eq_true,
        List.filter_cons_of_neg, List.map_cons, List.sum_cons] at others ⊢
      rw [others, Nat.add_comm]
    · have different : head.reference.key ≠ entry.reference.key := fun same =>
        headFresh (List.mem_map.mpr ⟨entry, inRest, same.symm⟩)
      have rest := ih restKeys inRest
      simp only [ne_eq, different, not_false_eq_true, decide_true, List.filter_cons_of_pos, List.map_cons,
        List.sum_cons] at rest ⊢
      omega

/-- Two entries share their name only when they are the same. -/
theorem Sound.name_of_ne (sound : Sound s) {entry other : FileEntry} (member : entry ∈ s.entries)
    (held : other ∈ s.entries) (key : other.reference.key ≠ entry.reference.key) : other.name ≠ entry.name := by
  intro same
  have equal := List.inj_on_of_nodup_map sound.names held member same
  exact key (by rw [equal])

/-- Deleting the current entry of a key. -/
theorem Sound.erase (sound : Sound s) {entry : FileEntry} (member : entry ∈ s.entries) :
    Sound { s with
      directory := Function.update s.directory entry.name none
      entries := s.entries.filter (·.reference.key ≠ entry.reference.key)
      committed := s.committed - entry.reference.bytes } where
  keys := sound.keys.sublist (List.filter_sublist.map _)
  names := sound.names.sublist (List.filter_sublist.map _)
  named other held := sound.named other (List.mem_of_mem_filter held)
  files other held := by
    obtain ⟨old, different⟩ := List.mem_filter.mp held
    obtain ⟨content, file, length⟩ := sound.files other old
    have elsewhere := sound.name_of_ne member old (by simpa using different)
    exact ⟨content, (Function.update_of_ne elsewhere _ _).trans file, length⟩
  committed := by
    have total := sum_without_key sound.keys member
    have charged := sound.committed
    dsimp only
    omega
  bounded := by
    have bounded := sound.bounded
    dsimp only
    omega
  idle := sound.idle

theorem view_erase (sound : Sound s) {entry : FileEntry} (found : s.lookup entry.reference.key = some entry)
    (s' : FileCheckpointStore)
    (entries : s'.entries = s.entries.filter (·.reference.key ≠ entry.reference.key))
    (directory : s'.directory = Function.update s.directory entry.name none) :
    s'.view.stored = Function.update s.view.stored entry.reference.key none := by
  funext key
  by_cases same : key = entry.reference.key
  · subst same
    rw [Function.update_self]
    refine view_of_absent (List.find?_eq_none.mpr fun other held => ?_)
    rw [entries] at held
    simpa using (List.mem_filter.mp held).2
  · have kept : s'.lookup key = s.lookup key := by
      rw [lookup, lookup, entries, List.find?_filter]
      congr 1
      funext other
      by_cases current : other.reference.key = key
      · simp [current, same]
      · simp [current]
    rw [Function.update_of_ne same]
    simp only [view, kept]
    cases look : s.lookup key with
    | none => rfl
    | some other =>
      obtain ⟨held, rfl⟩ := lookup_mem look
      rw [directory]
      simp only [Option.bind_some, Function.update_of_ne (sound.name_of_ne (lookup_mem found).1 held same)]

theorem delete_refines (sound : Sound s) (reference : CheckpointRef) (unlink : Option Fault) :
    BoundedMap.Step s.view (.delete reference) (.delete (s.delete reference unlink).1)
        (s.delete reference unlink).2.view ∧
      Sound (s.delete reference unlink).2 := by
  unfold delete
  cases found : s.lookup reference.key with
  | none => exact ⟨.absent (view_of_absent found), sound⟩
  | some entry =>
    obtain ⟨member, key⟩ := lookup_mem found
    obtain ⟨content, file, -⟩ := sound.files entry member
    have stored := view_of_lookup found file
    have held : s.view.stored reference.key ≠ none := by rw [stored]; exact Option.some_ne_none _
    dsimp only
    split
    · exact ⟨.undeleted held, sound⟩
    · rename_i current
      obtain rfl : entry.reference = reference := Decidable.not_not.mp current
      rcases s.directory.remove_cases entry.name unlink with ⟨error, same⟩ | same
      · rw [same]
        exact ⟨.undeleted held, sound⟩
      · rw [same]
        refine ⟨?_, sound.erase member⟩
        have step := @BoundedMap.Step.deleted s.view ⟨entry.reference, _⟩ stored
        dsimp only at step
        rwa [← view_erase sound found { s with
          directory := Function.update s.directory entry.name none
          entries := s.entries.filter (·.reference.key ≠ entry.reference.key)
          committed := s.committed - entry.reference.bytes } rfl rfl] at step

/-- One call with what the system answers under it. -/
inductive Call where
  | commit (checkpoint : ProtectedCheckpoint) (answers : CommitAnswers)
  | read (reference : CheckpointRef) (maxBytes : Nat) (answers : ReadAnswers)
  | delete (reference : CheckpointRef) (unlink : Option Fault)
  | capacity
  deriving DecidableEq, Repr

def Call.operation : Call → BoundedMap.Operation
  | .commit checkpoint _ => .commit checkpoint
  | .read reference maxBytes _ => .read reference maxBytes
  | .delete reference _ => .delete reference
  | .capacity => .capacity

def call (s : FileCheckpointStore) : Call → BoundedMap.Reply × FileCheckpointStore
  | .commit checkpoint answers =>
    let (result, cleanup, s) := s.commit checkpoint answers
    (.commit result cleanup, s)
  | .read reference maxBytes answers => (.read (s.read reference maxBytes answers), s)
  | .delete reference unlink =>
    let (result, s) := s.delete reference unlink
    (.delete result, s)
  | .capacity => (.capacity s.capacity, s)

/-- The store after a sequence of calls, and what they answered. -/
def run (s : FileCheckpointStore) : List Call → List (BoundedMap.Operation × BoundedMap.Reply) × FileCheckpointStore
  | [] => ([], s)
  | next :: calls =>
    let (reply, s) := s.call next
    let (trace, s) := run s calls
    ((next.operation, reply) :: trace, s)

theorem call_refines (sound : Sound s) (next : Call) :
    BoundedMap.Step s.view next.operation (s.call next).1 (s.call next).2.view ∧ Sound (s.call next).2 := by
  cases next with
  | commit checkpoint answers => exact commit_refines sound checkpoint answers
  | read reference maxBytes answers => exact ⟨read_refines sound reference maxBytes answers, sound⟩
  | delete reference unlink => exact delete_refines sound reference unlink
  | capacity =>
    refine ⟨?_, sound⟩
    have idle : s.capacity = ⟨s.limit, s.committed, 0, s.abandoned⟩ := by rw [capacity, sound.idle]
    simp only [call, idle]
    exact .capacity

theorem run_refines (sound : Sound s) (calls : List Call) :
    BoundedMap.Steps s.view (s.run calls).1 (s.run calls).2.view ∧ Sound (s.run calls).2 := by
  induction calls generalizing s with
  | nil => exact ⟨.nil _, sound⟩
  | cons next rest ih =>
    obtain ⟨step, kept⟩ := call_refines sound next
    obtain ⟨steps, final⟩ := ih kept
    exact ⟨.cons step steps, final⟩

/-- A stored checkpoint survives every run that does not delete its reference. -/
theorem run_keeps (sound : Sound s) {key : CheckpointKey} {stored : Stored} (held : s.view.stored key = some stored)
    {calls : List Call} (kept : ∀ call ∈ calls, call.operation ≠ .delete stored.reference) :
    (s.run calls).2.view.stored key = some stored := by
  induction calls generalizing s with
  | nil => exact held
  | cons next rest ih =>
    obtain ⟨step, sound'⟩ := call_refines sound next
    exact ih sound' (step.keeps held (kept next List.mem_cons_self))
      fun call member => kept call (List.mem_cons_of_mem next member)

/-- What the operations answer and change, read through the view. -/
structure Answers (s : FileCheckpointStore) : Prop where
  readable : ∀ entry ∈ s.entries, ∃ checkpoint : ProtectedCheckpoint, checkpoint.key = entry.reference.key ∧
    checkpoint.ciphertext.length = entry.reference.bytes ∧
    s.view.stored entry.reference.key = some ⟨entry.reference, checkpoint⟩ ∧
    ∀ maxBytes, entry.reference.bytes ≤ maxBytes → s.read entry.reference maxBytes granted = .ok checkpoint
  unreadable : ∀ reference maxBytes answers checkpoint, s.read reference maxBytes answers = .ok checkpoint →
    s.view.stored reference.key = some ⟨reference, checkpoint⟩
  failedCommit : ∀ checkpoint answers error, (s.commit checkpoint answers).1 = .error error →
    (s.commit checkpoint answers).2.2.view = { s.view with
      abandoned := s.abandoned +
        if (s.commit checkpoint answers).2.1 = .failed then checkpoint.ciphertext.length else 0 }
  committed : ∀ checkpoint answers reference, (s.commit checkpoint answers).1 = .ok reference →
    s.view.stored checkpoint.key = none ∧
      (s.commit checkpoint answers).2.2.view = { s.view with
        stored := Function.update s.view.stored checkpoint.key (some ⟨reference, checkpoint⟩)
        committed := s.committed + checkpoint.ciphertext.length }
  stale : ∀ reference stored unlink, s.view.stored reference.key = some stored → stored.reference ≠ reference →
    (s.delete reference unlink).2.view = s.view ∧ ∃ error, (s.delete reference unlink).1 = .error error
  failedDelete : ∀ reference unlink error, (s.delete reference unlink).1 = .error error →
    (s.delete reference unlink).2.view = s.view
  absentDelete : ∀ reference unlink, s.view.stored reference.key = none →
    (s.delete reference unlink).2.view = s.view ∧ (s.delete reference unlink).1 = .ok ()

theorem Sound.lookup_entry (sound : Sound s) {entry : FileEntry} (member : entry ∈ s.entries) :
    s.lookup entry.reference.key = some entry := by
  cases found : s.lookup entry.reference.key with
  | none =>
    have absent := List.find?_eq_none.mp found entry member
    simp at absent
  | some other =>
    obtain ⟨held, key⟩ := lookup_mem found
    rw [List.inj_on_of_nodup_map sound.keys held member key]

theorem Sound.answers (sound : Sound s) : Answers s where
  readable entry member := by
    obtain ⟨content, file, length⟩ := sound.files entry member
    have stored := view_of_lookup (sound.lookup_entry member) file
    exact ⟨_, rfl, length, stored, fun maxBytes within => read_stored sound stored within⟩
  unreadable reference maxBytes answers checkpoint ok := by
    have step := read_refines sound reference maxBytes answers
    rw [ok] at step
    exact (BoundedMap.read_current step).1
  failedCommit checkpoint answers error failed := by
    have step := (commit_refines sound checkpoint answers).1
    rw [failed] at step
    exact BoundedMap.failed_commit step
  committed checkpoint answers reference ok := by
    have step := (commit_refines sound checkpoint answers).1
    rw [ok] at step
    exact BoundedMap.commit_fresh step
  stale reference stored unlink held stale :=
    BoundedMap.delete_stale held stale (delete_refines sound reference unlink).1
  failedDelete reference unlink error failed := by
    have step := (delete_refines sound reference unlink).1
    rw [failed] at step
    exact BoundedMap.delete_failed step
  absentDelete reference unlink absent := BoundedMap.delete_absent absent (delete_refines sound reference unlink).1

/-- For every sequence of calls, whatever fails under them, the store is a bounded map that
is written once per key. -/
theorem run_refines_bounded_map (directory : Directory) (limit : Nat) (calls : List Call) :
    let s := ((fromDirectory directory limit).run calls).2
    BoundedMap.Steps (.empty limit) ((fromDirectory directory limit).run calls).1 s.view ∧
      (s.entries.map (·.reference.key)).Nodup ∧
      s.committed = (s.entries.map (·.reference.bytes)).sum ∧
      s.committed + s.abandoned ≤ limit ∧ Answers s := by
  obtain ⟨steps, sound⟩ := run_refines (fromDirectory_sound directory limit) calls
  have empty : (fromDirectory directory limit).view = .empty limit := rfl
  rw [empty] at steps
  have bounded := sound.bounded
  rw [show ((fromDirectory directory limit).run calls).2.limit = limit from steps.limit] at bounded
  exact ⟨steps, sound.keys, sound.committed, bounded, sound.answers⟩

end FileCheckpointStore
end PtyRuntime
