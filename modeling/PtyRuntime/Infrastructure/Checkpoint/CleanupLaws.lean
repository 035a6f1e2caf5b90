import PtyRuntime.Domain.ProgramStatus.ParseLaws
import PtyRuntime.Infrastructure.Checkpoint.Cleanup
import PtyRuntime.Infrastructure.Checkpoint.FileLaws

/-! A maintenance pass unlinks only inside namespaces whose lock it took, and what it could
not finish shows in its report. -/
namespace PtyRuntime.Cleanup

variable {system : System} {limits : CheckpointCleanupLimits}

/-- A step that `remove_objects` makes in the namespace; it unlinks object names only. -/
def Action.Inside (name : Bytes) : Action → Prop
  | .objects n _ | .nextObject n _ | .openObject n _ _ | .metadata n _ _ => n = name
  | .remove n object _ => n = name ∧ objectName object = true
  | _ => False

/-- Every entry that the enumeration answered was unlinked. -/
def Emptied (name : Bytes) (steps : List Action) : Prop :=
  ∀ object, .nextObject name (.ok (some object)) ∈ steps → .remove name object (.ok ()) ∈ steps

/-- Objects are unlinked in a namespace of a valid name whose lock was just acquired. -/
def Unlinks (log : List Action) : Prop :=
  ∀ before name object result after, log = before ++ .remove name object result :: after →
    namespaceName name = true ∧ objectName object = true ∧
      ∃ earlier since, before = earlier ++ .tryLock name (.ok true) :: since ∧ ∀ a ∈ since, a.Inside name

/-- A namespace is removed under its lock, after a scan to the end that unlinked all it saw. -/
def Removes (log : List Action) : Prop :=
  ∀ before name result after, log = before ++ .removeNamespace name result :: after →
    namespaceName name = true ∧ ∃ earlier since,
      before = earlier ++ .tryLock name (.ok true) :: (since ++ [.nextObject name (.ok none)]) ∧
        (∀ a ∈ since, a.Inside name) ∧ Emptied name since

/-- The steps that follow tell that nothing of the namespace is left behind. -/
inductive Resolved (name : Bytes) : List Action → Prop
  | vanished (rest : List Action) : Resolved name (.child name (.error .notFound) :: rest)
  | live (rest : List Action) : Resolved name (.child name (.ok ()) :: .tryLock name (.ok false) :: rest)
  | gone (since rest : List Action) (result : Except CheckpointError Unit)
      (unlinked : result = .ok () ∨ result = .error .notFound) :
      Resolved name (.child name (.ok ()) :: .tryLock name (.ok true) ::
        (since ++ .removeNamespace name result :: rest))

/-- The report tells of a failure or of an unfinished namespace. -/
def Visible (report : CheckpointCleanupReport) : Prop :=
  report.failure.isSome = true ∨ report.abandonedIncomplete = true

/-- Every arena entry that was enumerated is resolved, or the report tells. -/
def Accounted (report : CheckpointCleanupReport) (log : List Action) : Prop :=
  ∀ before name after, log = before ++ .next (.ok (some name)) :: after →
    Visible report ∨ namespaceName name = true ∧ Resolved name after

theorem split_append {α : Type} {log chunk before after : List α} {a : α}
    (same : log ++ chunk = before ++ a :: after) :
    (∃ rest, log = before ++ a :: rest ∧ after = rest ++ chunk) ∨
      ∃ front, before = log ++ front ∧ chunk = front ++ a :: after := by
  rcases List.append_eq_append_iff.mp same with ⟨front, left, right⟩ | ⟨front, left, right⟩
  · exact .inr ⟨front, left, right⟩
  · cases front with
    | nil => exact .inr ⟨[], by simpa using left.symm, right.symm⟩
    | cons first rest =>
      obtain ⟨rfl, rfl⟩ := List.cons.inj right
      exact .inl ⟨rest, left, rfl⟩

theorem Unlinks.append {log chunk : List Action} (first : Unlinks log) (second : Unlinks chunk) :
    Unlinks (log ++ chunk) := by
  intro before name object result after same
  rcases split_append same with ⟨rest, split, -⟩ | ⟨front, rfl, split⟩
  · exact first before name object result rest split
  · obtain ⟨valid, form, earlier, since, rfl, inside⟩ := second front name object result after split
    exact ⟨valid, form, log ++ earlier, since, (List.append_assoc ..).symm, inside⟩

theorem Removes.append {log chunk : List Action} (first : Removes log) (second : Removes chunk) :
    Removes (log ++ chunk) := by
  intro before name result after same
  rcases split_append same with ⟨rest, split, -⟩ | ⟨front, rfl, split⟩
  · exact first before name result rest split
  · obtain ⟨valid, earlier, since, rfl, inside, emptied⟩ := second front name result after split
    exact ⟨valid, log ++ earlier, since, (List.append_assoc ..).symm, inside, emptied⟩

theorem Resolved.append {name : Bytes} {steps : List Action} (resolved : Resolved name steps)
    (more : List Action) : Resolved name (steps ++ more) := by
  cases resolved with
  | vanished rest => exact .vanished (rest ++ more)
  | live rest => exact .live (rest ++ more)
  | gone since rest result unlinked =>
    have same : .child name (.ok ()) :: .tryLock name (.ok true) ::
        (since ++ .removeNamespace name result :: rest) ++ more =
      .child name (.ok ()) :: .tryLock name (.ok true) ::
        (since ++ .removeNamespace name result :: (rest ++ more)) := by simp
    rw [same]
    exact .gone since (rest ++ more) result unlinked

/-- The steps of `inspect` on one candidate. -/
inductive Inspection (name : Bytes) : List Action → Prop
  | refused (result : Except CheckpointError Unit) : Inspection name [.child name result]
  | unlocked (result : Except CheckpointError Bool) :
      Inspection name [.child name (.ok ()), .tryLock name result]
  | kept {since : List Action} (inside : ∀ a ∈ since, a.Inside name) :
      Inspection name (.child name (.ok ()) :: .tryLock name (.ok true) :: since)
  | removed {since : List Action} (inside : ∀ a ∈ since, a.Inside name) (emptied : Emptied name since)
      (result : Except CheckpointError Unit) :
      Inspection name (.child name (.ok ()) :: .tryLock name (.ok true) ::
        (since ++ [.nextObject name (.ok none), .removeNamespace name result]))

theorem Inspection.unlinks {name : Bytes} (valid : namespaceName name = true) {chunk : List Action}
    (inspection : Inspection name chunk) : Unlinks chunk := by
  intro before n object result after same
  -- whatever follows the lock in this namespace, an object is unlinked among steps inside it
  have locked {since more : List Action} (inside : ∀ a ∈ since, a.Inside name)
      (others : ∀ n object result, .remove n object result ∉ more)
      (same : .child name (.ok ()) :: .tryLock name (.ok true) :: (since ++ more) =
        before ++ .remove n object result :: after) :
      namespaceName n = true ∧ objectName object = true ∧ ∃ earlier since,
        before = earlier ++ .tryLock n (.ok true) :: since ∧ ∀ a ∈ since, a.Inside n := by
    match before, same with
    | [], same => cases same
    | [_], same => cases same
    | _ :: _ :: front, same =>
      simp only [List.cons_append, List.cons.injEq] at same
      obtain ⟨rfl, rfl, split⟩ := same
      rcases split_append split with ⟨rest, rfl, -⟩ | ⟨tail, -, rfl⟩
      · obtain ⟨rfl, form⟩ := inside (.remove n object result) (by simp)
        exact ⟨valid, form, [.child n (.ok ())], front, rfl, fun a member => inside a (by simp [member])⟩
      · exact absurd (by simp) (others n object result)
  cases inspection with
  | refused r => simp [List.cons_eq_append_iff] at same
  | unlocked r => simp [List.cons_eq_append_iff] at same
  | kept inside => exact locked inside (fun _ _ _ => List.not_mem_nil) (by simpa using same)
  | removed inside emptied r => exact locked inside (by simp) same

theorem Inspection.removes {name : Bytes} (valid : namespaceName name = true) {chunk : List Action}
    (inspection : Inspection name chunk) : Removes chunk := by
  intro before n result after same
  have absent {since : List Action} (inside : ∀ a ∈ since, a.Inside name) : .removeNamespace n result ∉ since :=
    fun member => inside _ member
  cases inspection with
  | refused r => simp [List.cons_eq_append_iff] at same
  | unlocked r => simp [List.cons_eq_append_iff] at same
  | @kept since inside =>
    have member : .removeNamespace n result ∈ .child name (.ok ()) :: .tryLock name (.ok true) :: since := by
      rw [same]
      simp
    simp [absent inside] at member
  | @removed since inside emptied r =>
    have last : (.child name (.ok ()) :: .tryLock name (.ok true) :: (since ++ [.nextObject name (.ok none)])) ++
        [.removeNamespace name r] = before ++ .removeNamespace n result :: after := by
      rw [← same]
      simp
    rcases split_append last with ⟨rest, split, -⟩ | ⟨front, rfl, split⟩
    · have member : .removeNamespace n result ∈
          .child name (.ok ()) :: .tryLock name (.ok true) :: (since ++ [.nextObject name (.ok none)]) := by
        rw [split]
        simp
      simp [absent inside] at member
    · simp only [List.singleton_eq_append_iff, List.cons.injEq, reduceCtorEq, and_false, or_false] at split
      obtain ⟨rfl, ⟨rfl, rfl⟩, rfl⟩ := split
      exact ⟨valid, [.child name (.ok ())], since, by simp, inside, emptied⟩

/-- What `remove_objects` makes of a pass. -/
structure Swept (limits : CheckpointCleanupLimits) (name : Bytes) (p : Pass) (result : Except CheckpointError Bool)
    (p' : Pass) : Prop where
  steps : ∃ since, p'.log = p.log ++ since ∧ (∀ a ∈ since, a.Inside name) ∧
    (result = .ok true → ∃ front, since = front ++ [.nextObject name (.ok none)] ∧ Emptied name front)
  failure : p'.report.failure = p.report.failure
  incomplete : p'.report.abandonedIncomplete = p.report.abandonedIncomplete
  scan : p'.report.scanComplete = p.report.scanComplete
  namespaces : p'.report.examinedNamespaces = p.report.examinedNamespaces
  entries : p.report.examinedEntries ≤ limits.entries → p'.report.examinedEntries ≤ limits.entries
  bytes : p.report.reclaimedBytes ≤ limits.bytes → p'.report.reclaimedBytes ≤ limits.bytes

/-- One round of the loop, within the entry limit. -/
theorem removeObject_steps {name : Bytes} {p p' : Pass} {ended : Option (Except CheckpointError Bool)}
    (within : p.report.examinedEntries < limits.entries) (round : removeObject system limits name p = (ended, p')) :
    (∃ since, p'.log = p.log ++ since ∧ (∀ a ∈ since, a.Inside name) ∧
        (ended = some (.ok true) → since = [.nextObject name (.ok none)]) ∧ (ended = none → Emptied name since)) ∧
      p'.report.failure = p.report.failure ∧ p'.report.abandonedIncomplete = p.report.abandonedIncomplete ∧
      p'.report.scanComplete = p.report.scanComplete ∧
      p'.report.examinedNamespaces = p.report.examinedNamespaces ∧ p'.report.examinedEntries ≤ limits.entries ∧
      (p.report.reclaimedBytes ≤ limits.bytes → p'.report.reclaimedBytes ≤ limits.bytes) := by
  have next : p.report.examinedEntries + 1 ≤ limits.entries := within
  unfold removeObject at round
  cases named : system.nextObject name p.log with
  | error error =>
    rw [named] at round
    cases round
    exact ⟨⟨_, rfl, by simp [Action.Inside], by simp, by simp⟩, rfl, rfl, rfl, rfl, Nat.le_of_lt within, id⟩
  | ok answer =>
    cases answer with
    | none =>
      rw [named] at round
      cases round
      exact ⟨⟨_, rfl, by simp [Action.Inside], fun _ => rfl, by simp⟩, rfl, rfl, rfl, rfl, Nat.le_of_lt within, id⟩
    | some object =>
      rw [named] at round
      dsimp only at round
      split at round
      · cases round
        exact ⟨⟨_, rfl, by simp [Action.Inside], by simp, by simp⟩, rfl, rfl, rfl, rfl, next, id⟩
      · split at round
        · cases round
          exact ⟨⟨_, rfl, by simp [Action.Inside], by simp, by simp⟩, rfl, rfl, rfl, rfl, next, id⟩
        · rename_i form
          have form : objectName object = true := by simpa using form
          split at round
          · cases round
            exact ⟨⟨_, List.append_assoc .., by simp [Action.Inside], by simp, by simp⟩, rfl, rfl, rfl, rfl, next, id⟩
          · split at round
            · rename_i error _
              cases round
              refine ⟨⟨[.nextObject name (.ok (some object)), .openObject name object (.ok ()),
                .metadata name object (.error error)], ?_, ?_, by simp, by simp⟩, rfl, rfl, rfl, rfl, next, id⟩
              · simp [Pass.did, Pass.examine]
              · simp [Action.Inside]
            · rename_i bytes _
              split at round
              · cases round
                refine ⟨⟨[.nextObject name (.ok (some object)), .openObject name object (.ok ()),
                  .metadata name object (.ok bytes)], ?_, ?_, by simp, by simp⟩, rfl, rfl, rfl, rfl, next, id⟩
                · simp [Pass.did, Pass.examine]
                · simp [Action.Inside]
              · rename_i fits
                split at round
                · rename_i error _
                  cases round
                  refine ⟨⟨[.nextObject name (.ok (some object)), .openObject name object (.ok ()),
                    .metadata name object (.ok bytes), .remove name object (.error error)], ?_, ?_, by simp, by simp⟩,
                    rfl, rfl, rfl, rfl, next, id⟩
                  · simp [Pass.did, Pass.examine]
                  · simp [Action.Inside, form]
                · cases round
                  refine ⟨⟨[.nextObject name (.ok (some object)), .openObject name object (.ok ()),
                    .metadata name object (.ok bytes), .remove name object (.ok ())], ?_, ?_, by simp, fun _ => ?_⟩,
                    rfl, rfl, rfl, rfl, next, fun bound => ?_⟩
                  · simp [Pass.did, Pass.examine, Pass.reclaimed]
                  · simp [Action.Inside, form]
                  · simp [Emptied]
                  · simp only [Pass.did, Pass.examine, Pass.reclaimed] at fits ⊢
                    omega

theorem Emptied.append {name : Bytes} {first second : List Action} (emptied : Emptied name first)
    (emptied' : Emptied name second) : Emptied name (first ++ second) := by
  intro object member
  rcases List.mem_append.mp member with here | there
  · exact List.mem_append_left _ (emptied object here)
  · exact List.mem_append_right _ (emptied' object there)

theorem removeLoop_swept (name : Bytes) (p : Pass) :
    Swept limits name p (removeLoop system limits name p).1 (removeLoop system limits name p).2 := by
  fun_induction removeLoop system limits name p with
  | case1 p within result p' round =>
    obtain ⟨⟨since, log, inside, ended, -⟩, failure, incomplete, scan, namespaces, entries, bytes⟩ :=
      removeObject_steps within round
    refine ⟨⟨since, log, inside, fun full => ⟨[], ?_, by simp [Emptied]⟩⟩, failure, incomplete, scan, namespaces,
      fun _ => entries, bytes⟩
    subst full
    exact ended rfl
  | case2 p within p' round ih =>
    obtain ⟨⟨since, log, inside, -, emptied⟩, failure, incomplete, scan, namespaces, entries, bytes⟩ :=
      removeObject_steps within round
    obtain ⟨⟨since', log', inside', ended'⟩, failure', incomplete', scan', namespaces', entries', bytes'⟩ := ih
    refine ⟨⟨since ++ since', ?_, ?_, fun full => ?_⟩, failure'.trans failure, incomplete'.trans incomplete,
      scan'.trans scan, namespaces'.trans namespaces, fun _ => entries' entries, fun bound => bytes' (bytes bound)⟩
    · rw [log', log, List.append_assoc]
    · intro a member
      rcases List.mem_append.mp member with here | there
      · exact inside a here
      · exact inside' a there
    · obtain ⟨front, rfl, emptied'⟩ := ended' full
      exact ⟨since ++ front, (List.append_assoc ..).symm, (emptied rfl).append emptied'⟩
  | case3 p _ =>
    exact ⟨⟨[], (List.append_nil _).symm, by simp, by simp⟩, rfl, rfl, rfl, rfl, id, id⟩

theorem removeObjects_swept (name : Bytes) (p : Pass) :
    Swept limits name p (removeObjects system limits name p).1 (removeObjects system limits name p).2 := by
  unfold removeObjects
  split
  · exact ⟨⟨_, rfl, by simp [Action.Inside], nofun⟩, rfl, rfl, rfl, rfl, id, id⟩
  · obtain ⟨⟨since, log, inside, ended⟩, failure, incomplete, scan, namespaces, entries, bytes⟩ :=
      @removeLoop_swept system limits name (p.did (.objects name (.ok ())))
    refine ⟨⟨.objects name (.ok ()) :: since, ?_, ?_, fun full => ?_⟩, failure, incomplete, scan, namespaces,
      entries, bytes⟩
    · rw [log]
      exact List.append_assoc ..
    · intro a member
      rcases List.mem_cons.mp member with rfl | later
      · rfl
      · exact inside a later
    · obtain ⟨front, rfl, emptied⟩ := ended full
      refine ⟨.objects name (.ok ()) :: front, rfl, fun object member => ?_⟩
      exact List.mem_cons_of_mem _ (emptied object (by simpa using member))

/-- What `inspect` makes of a pass. -/
structure Inspected (limits : CheckpointCleanupLimits) (name : Bytes) (p p' : Pass) : Prop where
  steps : ∃ chunk, p'.log = p.log ++ chunk ∧ Inspection name chunk ∧ (Visible p'.report ∨ Resolved name chunk)
  visible : Visible p.report → Visible p'.report
  scan : p'.report.scanComplete = p.report.scanComplete
  namespaces : p'.report.examinedNamespaces = p.report.examinedNamespaces
  entries : p.report.examinedEntries ≤ limits.entries → p'.report.examinedEntries ≤ limits.entries
  bytes : p.report.reclaimedBytes ≤ limits.bytes → p'.report.reclaimedBytes ≤ limits.bytes

theorem failed_visible (p : Pass) (error : CheckpointError) : Visible (p.failed error).report := by
  left
  simp [Pass.failed, Pass.fail]

theorem inspect_inspected (name : Bytes) (p : Pass) : Inspected limits name p (inspect system limits name p) := by
  unfold inspect
  split
  · exact ⟨⟨_, rfl, .refused _, .inr (.vanished [])⟩, id, rfl, rfl, id, id⟩
  · exact ⟨⟨_, rfl, .refused _, .inl (failed_visible _ _)⟩, fun _ => failed_visible _ _, rfl, rfl, id, id⟩
  · dsimp only
    split
    · exact ⟨⟨_, List.append_assoc .., .unlocked _, .inr (.live [])⟩, id, rfl, rfl, id, id⟩
    · exact ⟨⟨_, List.append_assoc .., .unlocked _, .inl (failed_visible _ _)⟩, fun _ => failed_visible _ _, rfl,
        rfl, id, id⟩
    · have swept := @removeObjects_swept system limits name
        ((p.did (.child name (.ok ()))).did (.tryLock name (.ok true)))
      generalize removeObjects system limits name
        ((p.did (.child name (.ok ()))).did (.tryLock name (.ok true))) = answer at swept ⊢
      obtain ⟨result, q⟩ := answer
      obtain ⟨⟨since, log, inside, ended⟩, failure, incomplete, scan, namespaces, entries, bytes⟩ := swept
      dsimp only at log ended failure incomplete scan namespaces entries bytes
      have visible : Visible p.report → Visible q.report := by
        unfold Visible
        rw [failure, incomplete]
        exact id
      have log : q.log = p.log ++ (.child name (.ok ()) :: .tryLock name (.ok true) :: since) := by
        simp [log, Pass.did]
      cases result with
      | error error =>
        exact ⟨⟨_, log, .kept inside, .inl (failed_visible _ _)⟩, fun _ => failed_visible _ _, scan, namespaces,
          entries, bytes⟩
      | ok complete =>
        cases complete with
        | false =>
          exact ⟨⟨_, log, .kept inside, .inl (.inr rfl)⟩, fun _ => .inr rfl, scan, namespaces, entries, bytes⟩
        | true =>
          obtain ⟨front, rfl, emptied⟩ := ended rfl
          have within : ∀ a ∈ front, a.Inside name := fun a member => inside a (List.mem_append_left _ member)
          have steps (r : Except CheckpointError Unit) : q.log ++ [.removeNamespace name r] = p.log ++
              (.child name (.ok ()) :: .tryLock name (.ok true) ::
                (front ++ [.nextObject name (.ok none), .removeNamespace name r])) := by
            simp [log]
          have gone (r : Except CheckpointError Unit) (unlinked : r = .ok () ∨ r = .error .notFound) :
              Resolved name (.child name (.ok ()) :: .tryLock name (.ok true) ::
                (front ++ [.nextObject name (.ok none), .removeNamespace name r])) := by
            have same := @Resolved.gone name (front ++ [.nextObject name (.ok none)]) [] r unlinked
            simpa using same
          dsimp only
          split
          · exact ⟨⟨_, steps _, .removed within emptied _, .inr (gone _ (.inl rfl))⟩, visible, scan, namespaces,
              entries, bytes⟩
          · exact ⟨⟨_, steps _, .removed within emptied _, .inr (gone _ (.inr rfl))⟩, visible, scan, namespaces,
              entries, bytes⟩
          · exact ⟨⟨_, steps _, .removed within emptied _, .inl (failed_visible _ _)⟩, fun _ => failed_visible _ _,
              scan, namespaces, entries, bytes⟩

/-- What a pass did is within its limits and in order, and its report tells the truth. -/
structure Truthful (limits : CheckpointCleanupLimits) (p : Pass) : Prop where
  entries : p.report.examinedEntries ≤ limits.entries
  namespaces : p.report.examinedNamespaces ≤ limits.namespaces
  bytes : p.report.reclaimedBytes ≤ limits.bytes
  unlinks : Unlinks p.log
  removes : Removes p.log
  /-- The enumeration of the arena answered its end. -/
  complete : p.report.scanComplete = true → ∃ before, p.log = before ++ [.next (.ok none)]
  accounted : Accounted p.report p.log

theorem Inspection.no_next {name : Bytes} {chunk : List Action} (inspection : Inspection name chunk)
    (result : Except CheckpointError (Option Bytes)) : .next result ∉ chunk := by
  have absent {since : List Action} (inside : ∀ a ∈ since, a.Inside name) : .next result ∉ since :=
    fun member => inside _ member
  cases inspection with
  | refused | unlocked => simp
  | kept inside => simp [absent inside]
  | removed inside emptied r => simp [absent inside]

theorem next_unlinks (result : Except CheckpointError (Option Bytes)) : Unlinks [.next result] := by
  intro before name object r after same
  simp [List.singleton_eq_append_iff] at same

theorem next_removes (result : Except CheckpointError (Option Bytes)) : Removes [.next result] := by
  intro before name r after same
  simp [List.singleton_eq_append_iff] at same

/-- One more arena entry, and the steps that it led to. -/
theorem Accounted.append {report report' : CheckpointCleanupReport} {log chunk : List Action}
    {result : Except CheckpointError (Option Bytes)} (accounted : Accounted report log)
    (visible : Visible report → Visible report') (no_next : ∀ r, .next r ∉ chunk)
    (entry : ∀ name, result = .ok (some name) → Visible report' ∨ namespaceName name = true ∧ Resolved name chunk) :
    Accounted report' (log ++ .next result :: chunk) := by
  intro before name after same
  rcases split_append same with ⟨rest, split, rfl⟩ | ⟨front, rfl, split⟩
  · rcases accounted before name rest split with told | ⟨valid, resolved⟩
    · exact .inl (visible told)
    · exact .inr ⟨valid, resolved.append _⟩
  · cases front with
    | nil =>
      obtain ⟨head, rfl⟩ := List.cons.inj split
      exact entry name (Action.next.inj head)
    | cons first front =>
      obtain ⟨-, rfl⟩ := List.cons.inj split
      exact absurd (by simp) (no_next (.ok (some name)))

theorem reclaimLoop_truthful (p : Pass) (truthful : Truthful limits p) (scanning : p.report.scanComplete = false) :
    Truthful limits (reclaimLoop system limits p).2 ∧ ∀ report, (reclaimLoop system limits p).1 = .ok report →
      report = (reclaimLoop system limits p).2.report := by
  fun_induction reclaimLoop system limits p with
  | case1 p within error answered =>
    refine ⟨⟨truthful.entries, truthful.namespaces, truthful.bytes, truthful.unlinks.append (next_unlinks _),
      truthful.removes.append (next_removes _), fun full => ?_, ?_⟩, nofun⟩
    · cases scanning.symm.trans full
    · exact truthful.accounted.append id (fun _ => List.not_mem_nil) nofun
  | case2 p within answered q =>
    refine ⟨⟨truthful.entries, truthful.namespaces, truthful.bytes, truthful.unlinks.append (next_unlinks _),
      truthful.removes.append (next_removes _), fun _ => ⟨p.log, rfl⟩, ?_⟩, ?_⟩
    · exact truthful.accounted.append id (fun _ => List.not_mem_nil) nofun
    · intro report same
      exact (Except.ok.inj same).symm
  | case3 p within name answered foreign ih =>
    refine ih ⟨within.1, truthful.namespaces, truthful.bytes, truthful.unlinks.append (next_unlinks _),
      truthful.removes.append (next_removes _), fun full => ?_, ?_⟩ scanning
    · cases scanning.symm.trans full
    · have told : Visible ((p.did (.next (.ok (some name)))).examine.fail .unavailable).report := by
        left
        simp [Pass.fail]
      exact truthful.accounted.append (fun _ => told) (fun _ => List.not_mem_nil) fun _ _ => .inl told
  | case4 p within name answered valid ih =>
    have valid : namespaceName name = true := by simpa using valid
    obtain ⟨⟨chunk, log, inspection, outcome⟩, visible, scan, namespaces, entries, bytes⟩ :=
      @inspect_inspected system limits name (p.did (.next (.ok (some name)))).examine.candidate
    have log : (inspect system limits name (p.did (.next (.ok (some name)))).examine.candidate).log =
        p.log ++ .next (.ok (some name)) :: chunk := by
      rw [log]
      exact List.append_assoc ..
    refine ih ⟨entries within.1, namespaces.trans_le within.2, bytes truthful.bytes, ?_, ?_, fun full => ?_, ?_⟩
      (scan.trans scanning)
    · rw [log]
      exact truthful.unlinks.append ((next_unlinks _).append (inspection.unlinks valid))
    · rw [log]
      exact truthful.removes.append ((next_removes _).append (inspection.removes valid))
    · cases (scan.trans scanning).symm.trans full
    · rw [log]
      refine truthful.accounted.append visible inspection.no_next fun other same => ?_
      obtain rfl := Option.some.inj (Except.ok.inj same)
      exact outcome.imp id fun resolved => ⟨valid, resolved⟩
  | case5 p _ =>
    refine ⟨truthful, fun report same => ?_⟩
    exact (Except.ok.inj same).symm

theorem reclaim_pass (system : System) (limits : CheckpointCleanupLimits) :
    Truthful limits (reclaim system limits).2 ∧ ∀ report, (reclaim system limits).1 = .ok report →
      report = (reclaim system limits).2.report := by
  have started (result : Except CheckpointError Unit) : Truthful limits (Pass.did {} (.entries result)) := by
    refine ⟨Nat.zero_le _, Nat.zero_le _, Nat.zero_le _, ?_, ?_, by simp [Pass.did], ?_⟩
    all_goals
      intro before
      intros
      simp_all [Pass.did, List.singleton_eq_append_iff]
  unfold reclaim
  split
  · exact ⟨started _, by simp⟩
  · exact reclaimLoop_truthful _ (started _) rfl

/-- A name that a commit can format. -/
def Created : FileName → Prop
  | .checkpoint sequence | .pending sequence => 0 < sequence ∧ sequence ≤ u64Max

theorem hexDigit_cases : ∀ digit < 16, isAsciiHexLowercase (Nat.digitChar digit).toUInt8 = true ∧
    digitValue (Nat.digitChar digit).toUInt8 = digit ∧ (Nat.digitChar digit).toUInt8 < 128 := by
  decide

theorem hex_lowercase (width n : Nat) : ((hex width n).map Char.toUInt8).all isAsciiHexLowercase = true := by
  induction width generalizing n with
  | zero => rfl
  | succ width ih =>
    rw [hex, List.map_append, List.all_append, ih]
    simpa using (hexDigit_cases (n % 16) (Nat.mod_lt n (by decide))).1

theorem radixValue_hex (width n : Nat) : radixValue ((hex width n).map Char.toUInt8) = n % 16 ^ width := by
  induction width generalizing n with
  | zero => simp [hex, radixValue, Nat.mod_one]
  | succ width ih =>
    have digit := (hexDigit_cases (n % 16) (Nat.mod_lt n (by decide))).2.1
    have front := ih (n / 16)
    unfold radixValue at front ⊢
    rw [hex, List.map_append, List.foldl_append, front]
    simp only [List.map_cons, List.map_nil, List.foldl_cons, List.foldl_nil, digit]
    rw [pow_succ', Nat.mod_mul]
    omega

theorem stripEnd_append (stem ending : Bytes) : stripEnd ending (stem ++ ending) = some stem := by
  rw [stripEnd, if_pos (List.isSuffixOf_iff_suffix.mpr (List.suffix_append stem ending)), List.length_append,
    Nat.add_sub_cancel, List.take_left]

theorem stripEnd_other {ending other : Bytes} {last last' : UInt8} (ends : ending.getLast? = some last)
    (ends' : other.getLast? = some last') (differ : last ≠ last') (stem : Bytes) :
    stripEnd ending (stem ++ other) = none := by
  refine if_neg fun suffix => differ ?_
  obtain ⟨front, same⟩ := List.isSuffixOf_iff_suffix.mp suffix
  have lasts := congrArg List.getLast? same
  rw [List.getLast?_append, List.getLast?_append, ends, ends'] at lasts
  exact Option.some.inj lasts

theorem stem_accepted {sequence : Nat} (positive : 0 < sequence) (within : sequence ≤ u64Max) :
    (((hex 16 sequence).map Char.toUInt8).length = 16 && ((hex 16 sequence).map Char.toUInt8).all isAsciiHexLowercase &&
      radixValue ((hex 16 sequence).map Char.toUInt8) ≠ 0) = true := by
  have width : 16 ^ 16 = u64Max + 1 := by decide
  rw [hex_lowercase, radixValue_hex, Nat.mod_eq_of_lt (by omega), List.length_map, length_hex]
  simp only [decide_true, Bool.and_self, Bool.true_and, ne_eq, decide_not, Bool.not_eq_true', decide_eq_false_iff_not]
  omega

theorem hex_ascii (width n : Nat) : ∀ b ∈ (hex width n).map Char.toUInt8, b < 128 := by
  induction width generalizing n with
  | zero => simp [hex]
  | succ width ih =>
    intro b member
    rw [hex, List.map_append, List.mem_append] at member
    rcases member with front | last
    · exact ih (n / 16) b front
    · rw [List.map_singleton, List.mem_singleton] at last
      rw [last]
      exact (hexDigit_cases (n % 16) (Nat.mod_lt n (by decide))).2.2

/-- Every name that a commit can format is an object name. -/
theorem created_accepted {file : FileName} (created : Created file) :
    isUtf8 file.text = true ∧ objectName file.text = true := by
  have plain (ending : Bytes) (small : ∀ b ∈ ending, b < 128) (n : Nat) :
      isUtf8 ((hex 16 n).map Char.toUInt8 ++ ending) = true :=
    Report.isUtf8_of_ascii fun b member => (List.mem_append.mp member).elim (hex_ascii 16 n b) (small b)
  cases file with
  | checkpoint sequence =>
    refine ⟨plain _ (by decide +kernel) sequence, ?_⟩
    rw [FileName.text, objectName, stripEnd_append, Option.some_or, Option.any_some]
    exact stem_accepted created.1 created.2
  | pending sequence =>
    refine ⟨plain _ (by decide +kernel) sequence, ?_⟩
    have other : stripEnd (ascii ".checkpoint") ((hex 16 sequence).map Char.toUInt8 ++ ascii ".pending") = none :=
      stripEnd_other rfl rfl (by decide) _
    rw [FileName.text, objectName, other, stripEnd_append, Option.none_or, Option.any_some]
    exact stem_accepted created.1 created.2

/-- A commit touches no names but the two that it formats. -/
theorem commit_created (s : FileCheckpointStore) (checkpoint : ProtectedCheckpoint) (answers : CommitAnswers)
    (file : FileName) :
    (s.commit checkpoint answers).2.2.directory file = s.directory file ∨ Created file := by
  unfold FileCheckpointStore.commit
  split
  · exact .inl rfl
  · dsimp only
    split
    · exact .inl rfl
    · split
      · exact .inl rfl
      · cases numbered : checkedAdd s.sequence 1 with
        | none => exact .inl rfl
        | some sequence =>
          obtain ⟨within, rfl⟩ := checkedAdd_eq_some.mp numbered
          by_cases own : Created file
          · exact .inr own
          · have temp : file ≠ .pending (s.sequence + 1) := by
              rintro rfl
              exact own ⟨Nat.succ_pos _, within⟩
            have final : file ≠ .checkpoint (s.sequence + 1) := by
              rintro rfl
              exact own ⟨Nat.succ_pos _, within⟩
            left
            dsimp only
            cases answers.entropy with
            | none => rfl
            | some objectId =>
              have outcomes := FileCheckpointStore.publish_cases s.directory
                (FileName.noConfusion : FileName.pending (s.sequence + 1) ≠ .checkpoint (s.sequence + 1))
                checkpoint.ciphertext answers
              dsimp only
              generalize FileCheckpointStore.publish s.directory (.pending (s.sequence + 1))
                (.checkpoint (s.sequence + 1)) checkpoint.ciphertext answers = published at outcomes ⊢
              obtain ⟨outcome, directory⟩ := published
              dsimp only at outcomes ⊢
              rcases outcomes with ⟨error, rfl, others⟩ | ⟨rfl, -, -, others⟩
              · have kept : directory file = s.directory file := others file (by simpa using temp)
                dsimp only
                rcases directory.remove_cases (.pending (s.sequence + 1)) answers.unlink with ⟨fault, same⟩ | same
                · rw [same]
                  exact kept
                · rw [same]
                  exact (Function.update_of_ne temp _ _).trans kept
              · exact others file (by simp [temp, final])

/-- Every file that a store ever left in its directory has an object name. -/
theorem run_created {s : FileCheckpointStore} (created : ∀ file, s.directory file ≠ none → Created file)
    (calls : List FileCheckpointStore.Call) (file : FileName) (left : (s.run calls).2.directory file ≠ none) :
    Created file := by
  induction calls generalizing s with
  | nil => exact created file left
  | cons next rest ih =>
    refine ih (fun other held => ?_) left
    cases next with
    | commit checkpoint answers =>
      rcases commit_created s checkpoint answers other with same | own
      · exact created other (same ▸ held)
      · exact own
    | read | capacity => exact created other held
    | delete reference unlink =>
      have gone : (s.delete reference unlink).2.directory other = s.directory other ∨
          (s.delete reference unlink).2.directory other = none := by
        unfold FileCheckpointStore.delete
        split
        · exact .inl rfl
        · split
          · exact .inl rfl
          · rename_i entry _ _
            rcases s.directory.remove_cases entry.name unlink with ⟨fault, same⟩ | same
            · rw [same]
              exact .inl rfl
            · rw [same]
              by_cases here : other = entry.name
              · subst here
                exact .inr (Function.update_self ..)
              · exact .inl (Function.update_of_ne here _ _)
      rcases gone with same | none
      · exact created other (same ▸ held)
      · exact absurd none held

/-- No step on the namespace fails, and its files are those that a store left there. -/
structure Crashed (system : System) (name : Bytes) : Prop where
  objects : ∀ log, system.objects name log = .ok ()
  nextObject : ∀ log, ∃ next, system.nextObject name log = .ok next ∧
    ∀ object, next = some object → ∃ file, Created file ∧ object = file.text
  openObject : ∀ object log, system.openObject name object log = .ok ()
  metadata : ∀ object log, ∃ bytes, system.metadata name object log = .ok bytes
  remove : ∀ object log, system.remove name object log = .ok ()

/-- One round on a crashed store's namespace ends at its end or at the byte limit. -/
theorem Crashed.round {name : Bytes} (crashed : Crashed system name) {p p' : Pass}
    {result : Except CheckpointError Bool} (round : removeObject system limits name p = (some result, p')) :
    result = .ok true ∨ result = .ok false ∧ ∃ object log bytes, system.metadata name object log = .ok bytes ∧
      limits.bytes - p'.report.reclaimedBytes < bytes := by
  unfold removeObject at round
  obtain ⟨next, named, accepted⟩ := crashed.nextObject p.log
  rw [named] at round
  cases next with
  | none =>
    cases round
    exact .inl rfl
  | some object =>
    obtain ⟨file, created, rfl⟩ := accepted object rfl
    obtain ⟨utf8, form⟩ := created_accepted created
    dsimp only at round
    rw [utf8, form, crashed.openObject] at round
    dsimp only at round
    obtain ⟨bytes, measured⟩ := crashed.metadata file.text
      ((p.did (.nextObject name (.ok (some file.text)))).examine.did (.openObject name file.text (.ok ()))).log
    simp only [Bool.not_true, Bool.false_eq_true, if_false, measured] at round
    split at round
    · rename_i large
      cases round
      exact .inr ⟨rfl, _, _, bytes, measured, large⟩
    · rw [crashed.remove] at round
      cases round

/-- A crashed store's namespace is emptied unless a limit is reached. -/
theorem Crashed.emptied {name : Bytes} (crashed : Crashed system name) (p : Pass) :
    (removeObjects system limits name p).1 = .ok true ∨ (removeObjects system limits name p).1 = .ok false ∧
      (limits.entries ≤ (removeObjects system limits name p).2.report.examinedEntries ∨
        ∃ object log bytes, system.metadata name object log = .ok bytes ∧
          limits.bytes - (removeObjects system limits name p).2.report.reclaimedBytes < bytes) := by
  unfold removeObjects
  rw [crashed.objects]
  dsimp only
  generalize p.did (.objects name (.ok ())) = q
  fun_induction removeLoop system limits name q with
  | case1 q _ result q' round =>
    rcases crashed.round round with full | ⟨stopped, large⟩
    · exact .inl full
    · exact .inr ⟨stopped, .inr large⟩
  | case2 q _ q' round ih => exact ih
  | case3 q spent => exact .inr ⟨rfl, .inl (Nat.not_lt.mp spent)⟩

/-- Whatever the arena holds and whichever steps fail, a pass ends within its limits, unlinks
only what its owner abandoned, and its report tells the truth; and every file that a store
leaves behind can be reclaimed. -/
theorem reclaim_truthful (system : System) (limits : CheckpointCleanupLimits) :
    Truthful limits (reclaim system limits).2 ∧
    (∀ report, (reclaim system limits).1 = .ok report → report = (reclaim system limits).2.report) ∧
    (∀ limit calls file,
      ((FileCheckpointStore.fromDirectory (fun _ => none) limit).run calls).2.directory file ≠ none →
        isUtf8 file.text = true ∧ objectName file.text = true) ∧
    ∀ name p, Crashed system name → (removeObjects system limits name p).1 = .ok true ∨
      (removeObjects system limits name p).1 = .ok false ∧
        (limits.entries ≤ (removeObjects system limits name p).2.report.examinedEntries ∨
          ∃ object log bytes, system.metadata name object log = .ok bytes ∧
            limits.bytes - (removeObjects system limits name p).2.report.reclaimedBytes < bytes) := by
  obtain ⟨truthful, told⟩ := reclaim_pass system limits
  refine ⟨truthful, told, fun limit calls file left => ?_, fun name p crashed => crashed.emptied p⟩
  exact created_accepted (run_created (fun _ held => absurd rfl held) calls file left)

/-- An arena with the namespace of one crashed store, which left one file of three bytes. -/
def crashedArena : System where
  entries _ := .ok ()
  next log :=
    .ok (if log.any fun | .next _ => true | _ => false then none else some (ascii "owner-" ++ List.replicate 32 48))
  child _ _ := .ok ()
  tryLock _ _ := .ok true
  objects _ _ := .ok ()
  nextObject _ log :=
    .ok (if log.any fun | .nextObject _ _ => true | _ => false then none else some (FileName.checkpoint 1).text)
  openObject _ _ _ := .ok ()
  metadata _ _ _ := .ok 3
  remove _ _ _ := .ok ()
  removeNamespace _ _ := .ok ()

theorem reclaim_truthful_crashed :
    Truthful ⟨1, 4, 8⟩ (reclaim crashedArena ⟨1, 4, 8⟩).2 ∧
      ((removeObjects crashedArena ⟨1, 4, 8⟩ [] {}).1 = .ok true ∨
        (removeObjects crashedArena ⟨1, 4, 8⟩ [] {}).1 = .ok false ∧
          (4 ≤ (removeObjects crashedArena ⟨1, 4, 8⟩ [] {}).2.report.examinedEntries ∨
            ∃ object log bytes, crashedArena.metadata [] object log = .ok bytes ∧
              8 - (removeObjects crashedArena ⟨1, 4, 8⟩ [] {}).2.report.reclaimedBytes < bytes)) := by
  obtain ⟨truthful, -, -, emptied⟩ := reclaim_truthful crashedArena ⟨1, 4, 8⟩
  refine ⟨truthful, emptied [] {} ⟨fun _ => rfl, fun log => ⟨_, rfl, fun object same => ?_⟩, fun _ _ => rfl,
    fun _ _ => ⟨3, rfl⟩, fun _ _ => rfl⟩⟩
  split at same
  · cases same
  · exact ⟨.checkpoint 1, ⟨by decide, by decide⟩, (Option.some.inj same).symm⟩

end PtyRuntime.Cleanup
