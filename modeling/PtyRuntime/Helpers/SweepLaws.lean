import PtyRuntime.Helpers.AnchorLaws
import PtyRuntime.Helpers.Sweep

/-! A sweep retires after a clean scan only. The flags of a sweep speak about the scan
that is open: whatever makes an earlier observation stale also drops the scan. -/
namespace PtyRuntime.Helper.Sweep

open Guardian

/-- The anchors started, in order. -/
def launches (log : List Entry) : List Int32 :=
  log.filterMap fun entry =>
    match entry with
    | .launched pid => some pid
    | _ => none

/-- The anchors seen to have exited, in order. -/
def finishes (log : List Entry) : List Int32 :=
  log.filterMap fun entry =>
    match entry with
    | .finished pid => some pid
    | _ => none

theorem launches_append (log more : List Entry) : launches (log ++ more) = launches log ++ launches more :=
  List.filterMap_append

theorem finishes_append (log more : List Entry) : finishes (log ++ more) = finishes log ++ finishes more :=
  List.filterMap_append

/-- What a scan that may retire consists of. A group that is the sweep's own counts as
such, also where it is recorded as a peer's. -/
def Entry.Clean (own : Int32) (members : ReservedMembers) : Entry → Prop
  | .observed _ .outsideOrGone => True
  | .observed peers (.member pid group) =>
    pid = own ∨ some pid ∈ peers ∨ (group = own ∧ members.own = true) ∨
      (group ≠ own ∧ some group ∈ peers ∧ members.peer = true)
  | .peerAdded _ => True
  | _ => False

/-- The scan that is open since the entry `started`, with what it reserved. -/
def Scanning (own : Int32) (members : ReservedMembers) (log : List Entry) : Prop :=
  ∃ before scan, log = before ++ .started :: scan ∧ ∀ entry ∈ scan, entry.Clean own members

namespace Scanning

variable {own : Int32} {members : ReservedMembers} {log : List Entry}

theorem opened (own : Int32) (members : ReservedMembers) (log : List Entry) :
    Scanning own members (log ++ [.started]) :=
  ⟨log, [], rfl, fun _ member => nomatch member⟩

theorem push (scanning : Scanning own members log) {entry : Entry} (clean : entry.Clean own members) :
    Scanning own members (log ++ [entry]) := by
  obtain ⟨before, scan, rfl, all⟩ := scanning
  refine ⟨before, scan ++ [entry], by simp, ?_⟩
  intro other member
  rcases List.mem_append.mp member with earlier | last
  · exact all other earlier
  · rw [List.mem_singleton.mp last]
    exact clean

theorem reserve (scanning : Scanning own members log) (more : ReservedMembers)
    (ownMore : members.own = true → more.own = true)
    (peerMore : members.peer = true → more.peer = true) : Scanning own more log := by
  obtain ⟨before, scan, rfl, all⟩ := scanning
  refine ⟨before, scan, rfl, fun entry member => ?_⟩
  have clean := all entry member
  match entry with
  | .observed peers .outsideOrGone => exact trivial
  | .peerAdded pid => exact trivial
  | .observed peers (.member pid group) =>
    rcases clean with self | peer | ⟨inside, flag⟩ | ⟨outside, inside, flag⟩
    · exact .inl self
    · exact .inr (.inl peer)
    · exact .inr (.inr (.inl ⟨inside, ownMore flag⟩))
    · exact .inr (.inr (.inr ⟨outside, inside, peerMore flag⟩))

end Scanning

/-- The flags of a sweep hold what its open scan saw, and its ledger the live anchor. -/
structure Sweeping (own : Int32) (s : Sweep) : Prop where
  identity : s.own = own
  scanning : s.scan = true → s.uncertain = false → s.acted = false → Scanning own s.reserved s.log
  busy : s.anchor.isSome = true → s.scan = true → s.uncertain = true ∨ s.acted = true
  ledger : launches s.log = finishes s.log ++ (s.anchor.map Anchor.pid).toList
  live : ∀ anchor ∈ s.anchor, anchor.state ≠ .finished

/-- The scan a sweep retires on. -/
structure CleanScan (own : Int32) (members : ReservedMembers) (scan : List Entry) : Prop where
  undisturbed : ∀ entry ∈ scan, (∃ peers observation, entry = .observed peers observation) ∨
    ∃ pid, entry = .peerAdded pid
  known : ∀ peers, Entry.observed peers .unknown ∉ scan
  recorded : ∀ peers pid group, Entry.observed peers (.member pid group) ∈ scan →
    pid = own ∨ some pid ∈ peers ∨ group = own ∨ some group ∈ peers
  ownGroup : members.own = false → ∀ peers pid group,
    Entry.observed peers (.member pid group) ∈ scan → pid ≠ own → some pid ∉ peers → group ≠ own
  -- a group recorded as a peer's that is the sweep's own is told by the other flag
  peerGroup : members.peer = false → ∀ peers pid group,
    Entry.observed peers (.member pid group) ∈ scan → pid ≠ own → some pid ∉ peers →
      some group ∈ peers → group = own ∧ members.own = true

theorem cleanScan {own : Int32} {members : ReservedMembers} {scan : List Entry}
    (clean : ∀ entry ∈ scan, entry.Clean own members) : CleanScan own members scan where
  undisturbed entry member := by
    have fine := clean entry member
    cases entry with
    | observed peers observation => exact .inl ⟨peers, observation, rfl⟩
    | peerAdded pid => exact .inr ⟨pid, rfl⟩
    | _ => exact fine.elim
  known peers member := clean _ member
  recorded peers pid group member := by
    rcases clean _ member with self | peer | ⟨inside, -⟩ | ⟨-, inside, -⟩
    · exact .inl self
    · exact .inr (.inl peer)
    · exact .inr (.inr (.inl inside))
    · exact .inr (.inr (.inr inside))
  ownGroup unset peers pid group member other unrecorded := by
    rcases clean _ member with self | peer | ⟨-, flag⟩ | ⟨outside, -⟩
    · exact absurd self other
    · exact absurd peer unrecorded
    · rw [unset] at flag
      cases flag
    · exact outside
  peerGroup unset peers pid group member other unrecorded _ := by
    rcases clean _ member with self | peer | inside | ⟨-, -, flag⟩
    · exact absurd self other
    · exact absurd peer unrecorded
    · exact inside
    · rw [unset] at flag
      cases flag

/-- What holds when a sweep is ready to retire: the scan is the last thing it did. -/
structure Retires (own : Int32) (members : ReservedMembers) (s : Sweep) : Prop where
  idle : s.anchor = none
  scanned : ∃ before scan, s.log = before ++ .started :: (scan ++ [.ended]) ∧ CleanScan own members scan

/-- The outcome of a part of `step`. -/
structure Outcome (own : Int32) (result : Progress × Sweep) : Prop where
  sweeping : Sweeping own result.2
  retires : ∀ members, result.1 = .readyToRetire members → Retires own members result.2

variable {own : Int32} {s : Sweep}

theorem new_sweeping (own : Int32) (peer : Option Int32) (generation : UInt64) (now : Nat) :
    Sweeping own (new own peer generation now) where
  identity := rfl
  scanning opened := nomatch opened
  busy live := nomatch live
  ledger := rfl
  live _ member := nomatch member

namespace Sweeping

/-- Forgetting the scan is always sound. -/
theorem dropScan (sweeping : Sweeping own s) {entry : Entry} (launched : launches [entry] = [])
    (finished : finishes [entry] = []) (peers : Peers) (uncertain acted : Bool)
    (reserved : ReservedMembers) (retryAt : Nat) :
    Sweeping own
      { s with log := s.log ++ [entry], peers, scan := false, uncertain, acted, reserved, retryAt } where
  identity := sweeping.identity
  scanning opened := nomatch opened
  busy _ opened := nomatch opened
  ledger := by
    rw [launches_append, finishes_append, launched, finished, List.append_nil, List.append_nil]
    exact sweeping.ledger
  live := sweeping.live

theorem retry (sweeping : Sweeping own s) (now : Nat) : Sweeping own (s.retry now).2 :=
  sweeping.dropScan rfl rfl s.peers false false ⟨false, false⟩ (now + millis 50)

theorem peerGone (sweeping : Sweeping own s) (now : Nat) : Sweeping own (s.peerGone now) :=
  sweeping.dropScan rfl rfl #v[none, none] false false ⟨false, false⟩ now

/-- An entry that neither starts nor ends an anchor is recorded in the open scan. -/
theorem record (sweeping : Sweeping own s) {entry : Entry} (launched : launches [entry] = [])
    (finished : finishes [entry] = []) (peers : Peers) {uncertain : Bool} {reserved : ReservedMembers}
    (doubt : s.uncertain = true → uncertain = true)
    (scanning : s.scan = true → uncertain = false → s.acted = false →
      Scanning own reserved (s.log ++ [entry])) :
    Sweeping own { s with log := s.log ++ [entry], peers, uncertain, reserved } where
  identity := sweeping.identity
  scanning := scanning
  busy live opened := (sweeping.busy live opened).imp doubt id
  ledger := by
    rw [launches_append, finishes_append, launched, finished, List.append_nil, List.append_nil]
    exact sweeping.ledger
  live := sweeping.live

theorem additionalPeer (sweeping : Sweeping own s) (pid : Int32) : Sweeping own (s.additionalPeer pid) :=
  sweeping.record rfl rfl (s.peers.set 1 (some pid)) id
    fun opened certain idle => (sweeping.scanning opened certain idle).push trivial

/-- A sweep that is about to act needs to know nothing of the scan. -/
theorem mark (sweeping : Sweeping own s) : Sweeping own { s with acted := true } where
  identity := sweeping.identity
  scanning _ _ idle := nomatch idle
  busy _ _ := .inr rfl
  ledger := sweeping.ledger
  live := sweeping.live

/-- The new anchor joins the ledger. -/
theorem act (sweeping : Sweeping own { s with acted := true }) (idle : s.anchor = none)
    (group : Int32) (forked : Option Int32) : Sweeping own (s.act group forked) := by
  have settled : launches s.log = finishes s.log := by
    have ledger := sweeping.ledger
    dsimp only at ledger
    rw [ledger, idle]
    exact List.append_nil _
  have noted (entry : Entry) (launched : launches [entry] = []) (finished : finishes [entry] = []) :
      launches (s.log ++ [entry]) = finishes (s.log ++ [entry]) := by
    rw [launches_append, finishes_append, launched, finished, settled]
  unfold Sweep.act
  dsimp only
  split
  · rename_i anchor started
    have killer := anchor.request_follows .kill
    exact {
      identity := sweeping.identity
      scanning := fun _ _ idle => nomatch idle
      busy := fun _ _ => .inr rfl
      ledger := by
        change launches ((s.log ++ [.acted group]) ++ [.launched anchor.pid]) =
          finishes ((s.log ++ [.acted group]) ++ [.launched anchor.pid]) ++ [(anchor.request .kill).pid]
        rw [launches_append, finishes_append, noted _ rfl rfl, killer.pid]
        exact congrArg (· ++ [anchor.pid]) (List.append_nil _).symm
      live := by
        rintro _ ⟨⟩ done
        have joining := (Anchor.start_some started).2.2.1
        rw [killer.finished done] at joining
        cases joining }
  · exact {
      identity := sweeping.identity
      scanning := fun _ certain => nomatch certain
      busy := fun _ _ => .inl rfl
      ledger := by
        change launches (s.log ++ [.acted group]) =
          finishes (s.log ++ [.acted group]) ++ (s.anchor.map Anchor.pid).toList
        rw [noted _ rfl rfl, idle]
        exact (List.append_nil _).symm
      live := sweeping.live }

/-- A live anchor is kept with what its tick made of it. -/
theorem hold (sweeping : Sweeping own s) {anchor after : Anchor} (current : s.anchor = some anchor)
    (same : after.pid = anchor.pid) (going : after.state ≠ .finished) {uncertain : Bool}
    (doubt : s.uncertain = true → uncertain = true) (retryAt : Nat) :
    Sweeping own { s with anchor := some after, uncertain, retryAt } where
  identity := sweeping.identity
  scanning opened certain idle := by
    refine sweeping.scanning opened (Bool.eq_false_iff.mpr fun was => ?_) idle
    exact absurd (doubt was) (Bool.eq_false_iff.mp certain)
  busy _ opened := (sweeping.busy (by rw [current]; rfl) opened).imp doubt id
  ledger := by
    have ledger := sweeping.ledger
    rw [current, Option.map_some, Option.toList_some] at ledger
    rw [Option.map_some, Option.toList_some, same]
    exact ledger
  live := by
    rintro _ ⟨⟩
    exact going

/-- An anchor is dropped when it is finished; the scan it belongs to is marked, so nothing
is said of it. -/
theorem release (sweeping : Sweeping own s) {anchor : Anchor} (current : s.anchor = some anchor) :
    Sweeping own { s.did (.finished anchor.pid) with anchor := none } where
  identity := sweeping.identity
  scanning opened certain idle := by
    rcases sweeping.busy (by rw [current]; rfl) opened with doubt | acted
    · exact absurd (certain.symm.trans doubt) Bool.false_ne_true
    · exact absurd (idle.symm.trans acted) Bool.false_ne_true
  busy live := nomatch live
  ledger := by
    have ledger := sweeping.ledger
    rw [current, Option.map_some, Option.toList_some] at ledger
    change launches (s.log ++ [.finished anchor.pid]) = finishes (s.log ++ [.finished anchor.pid]) ++ []
    rw [launches_append, finishes_append, ledger, List.append_nil]
    exact List.append_nil _
  live _ member := nomatch member

theorem serveAnchor (sweeping : Sweeping own s) (now : Nat) (answers : Anchor.Answers) :
    Sweeping own (s.serveAnchor now answers).2 ∧
      ((s.serveAnchor now answers).1 = none → (s.serveAnchor now answers).2.anchor = none) ∧
      ∀ members, (s.serveAnchor now answers).1 ≠ some (.readyToRetire members) := by
  unfold Sweep.serveAnchor
  cases current : s.anchor with
  | none => exact ⟨sweeping, fun _ => current, fun _ ready => nomatch ready⟩
  | some anchor =>
    have kept := anchor.tick_pid answers
    have ends (done : (anchor.tick answers).2.state = .finished) : (anchor.tick answers).1 = .ok () :=
      (Anchor.tick_finished (sweeping.live anchor current) done).2
    dsimp only
    split
    · rename_i error after failed
      rw [failed] at kept ends
      have going : after.state ≠ .finished := fun done => nomatch ends done
      exact ⟨sweeping.hold current kept going (fun _ => rfl) (now + millis 10),
        fun done => (nomatch done), fun _ ready => nomatch ready⟩
    · rename_i after ticked
      rw [ticked] at kept
      split
      · rename_i going
        exact ⟨sweeping.hold current kept going id s.retryAt, fun done => (nomatch done),
          fun _ ready => nomatch ready⟩
      · rw [show after.pid = anchor.pid from kept]
        exact ⟨sweeping.release current, fun _ => rfl, fun _ ready => nomatch ready⟩

theorem finishScan (sweeping : Sweeping own s) (opened : s.scan = true) (idle : s.anchor = none)
    (now : Nat) : Outcome own (s.finishScan now) := by
  have closed : Sweeping own { s.did .ended with scan := false } :=
    sweeping.dropScan rfl rfl s.peers s.uncertain s.acted s.reserved s.retryAt
  unfold Sweep.finishScan
  dsimp only
  split
  · exact ⟨closed.retry now, fun _ ready => nomatch ready⟩
  · rename_i certain
    split
    · exact ⟨closed.dropScan rfl rfl s.peers s.uncertain false ⟨false, false⟩ (now + millis 10),
        fun _ ready => nomatch ready⟩
    · rename_i calm
      refine ⟨closed, ?_⟩
      rintro _ ⟨⟩
      obtain ⟨before, scan, log, clean⟩ := sweeping.scanning opened (Bool.eq_false_iff.mpr certain)
        (Bool.eq_false_iff.mpr calm)
      refine ⟨idle, before, scan, ?_, cleanScan clean⟩
      change s.log ++ [.ended] = _
      rw [log, List.append_assoc, List.cons_append]

/-- Each observation is judged with the peers recorded when it is made. -/
theorem observe (sweeping : Sweeping own s) (opened : s.scan = true) (idle : s.anchor = none)
    (now : Nat) (forked : Option Int32) (left : Nat) (observations : List Observation) :
    Outcome own (Sweep.observe now forked left observations s) := by
  induction left generalizing observations s with
  | zero => exact ⟨sweeping, fun _ ready => nomatch ready⟩
  | succ left ih =>
    cases observations with
    | nil => exact sweeping.finishScan opened idle now
    | cons observation rest =>
      have seen (reserved : ReservedMembers) (clean : s.uncertain = false → s.acted = false →
          Scanning own reserved (s.log ++ [Entry.observed s.peers observation])) :
          Sweeping own { s.did (.observed s.peers observation) with reserved } :=
        sweeping.record rfl rfl s.peers id fun _ => clean
      have same := sweeping.identity
      cases observation with
      | outsideOrGone =>
        refine ih (seen s.reserved fun certain calm => ?_) opened idle rest
        exact (sweeping.scanning opened certain calm).push trivial
      | unknown =>
        have doubt : Sweeping own { s.did (.observed s.peers .unknown) with uncertain := true } :=
          sweeping.record rfl rfl s.peers (fun _ => rfl) fun _ certain => nomatch certain
        exact ih doubt opened idle rest
      | member pid group =>
        unfold Sweep.observe
        dsimp only
        split
        · rename_i reserved
          refine ih (seen s.reserved fun certain calm => ?_) opened idle rest
          refine (sweeping.scanning opened certain calm).push ?_
          rcases reserved with self | peer
          · exact .inl (self.trans same)
          · exact .inr (.inl peer)
        · split
          · rename_i inside
            refine ih (seen ⟨true, s.reserved.peer⟩ fun certain calm => ?_) opened idle rest
            have wider := (sweeping.scanning opened certain calm).reserve ⟨true, s.reserved.peer⟩
              (fun _ => rfl) id
            exact wider.push (.inr (.inr (.inl ⟨inside.trans same, rfl⟩)))
          · rename_i outside
            split
            · rename_i inside
              refine ih (seen ⟨s.reserved.own, true⟩ fun certain calm => ?_) opened idle rest
              have wider := (sweeping.scanning opened certain calm).reserve ⟨s.reserved.own, true⟩
                id fun _ => rfl
              exact wider.push
                (.inr (.inr (.inr ⟨fun self => outside (self.trans same.symm), inside, rfl⟩)))
            · refine ⟨?_, fun _ ready => nomatch ready⟩
              refine act (s := s.did (.observed s.peers (.member pid group))) ?_ idle group forked
              exact sweeping.mark.record rfl rfl s.peers id fun _ _ calm => nomatch calm

theorem begin (sweeping : Sweeping own s) (idle : s.anchor = none) :
    Sweeping own { s.did .started with scan := true } where
  identity := sweeping.identity
  scanning _ _ _ := .opened own s.reserved s.log
  busy live _ := by
    dsimp only [did] at live
    rw [idle] at live
    cases live
  ledger := by
    have ledger := sweeping.ledger
    rw [idle] at ledger
    dsimp only [did]
    rw [launches_append, finishes_append, ledger, idle]
    simp [launches, finishes]
  live := sweeping.live

theorem discover (sweeping : Sweeping own s) (idle : s.anchor = none) (now : Nat) (answers : Answers) :
    Outcome own (s.discover now answers) := by
  unfold Sweep.discover
  split
  · rename_i opened
    exact sweeping.observe opened idle now _ _ _
  · split
    · exact (sweeping.begin idle).observe rfl idle now _ _ _
    · exact ⟨sweeping.retry now, fun _ ready => nomatch ready⟩

theorem step (sweeping : Sweeping own s) (now : Nat) (answers : Answers) :
    Outcome own (s.step now answers) := by
  unfold Sweep.step
  split
  · exact ⟨sweeping, fun _ ready => nomatch ready⟩
  · obtain ⟨served, idle, going⟩ := sweeping.serveAnchor now answers.tick
    split
    · rename_i progress after answered
      rw [answered] at served going
      exact ⟨served, fun members ready => absurd (congrArg some ready) (going members)⟩
    · rename_i after answered
      rw [answered] at served idle
      exact served.discover (idle rfl) now answers

theorem call (sweeping : Sweeping own s) (call : Call) : Sweeping own (s.call call) := by
  cases call with
  | step now answers => exact (sweeping.step now answers).sweeping
  | peerGone now => exact sweeping.peerGone now
  | additionalPeer pid => exact sweeping.additionalPeer pid
  | retainForRetry now => exact sweeping.retry now

theorem run (sweeping : Sweeping own s) (calls : List Call) : Sweeping own (s.run calls) := by
  induction calls generalizing s with
  | nil => exact sweeping
  | cons call rest ih => exact ih (sweeping.call call)

end Sweeping

/-- The anchor is still the sweep's, or the call saw it exit. -/
def Kept (s : Sweep) (call : Call) (anchor : Anchor) : Prop :=
  (∃ later, (s.call call).anchor = some later ∧ later.pid = anchor.pid ∧ later.group = anchor.group) ∨
    ∃ now answers, call = .step now answers ∧ answers.tick.wait = .exited

theorem Sweeping.keeps (sweeping : Sweeping own s) {anchor : Anchor} (current : s.anchor = some anchor)
    (call : Call) : Kept s call anchor := by
  cases call with
  | peerGone now => exact .inl ⟨anchor, current, rfl, rfl⟩
  | additionalPeer pid => exact .inl ⟨anchor, current, rfl, rfl⟩
  | retainForRetry now => exact .inl ⟨anchor, current, rfl, rfl⟩
  | step now answers =>
    change (∃ later, (s.step now answers).2.anchor = some later ∧ _) ∨ _
    unfold Sweep.step
    by_cases early : now < s.retryAt
    · rw [if_pos early]
      exact .inl ⟨anchor, current, rfl, rfl⟩
    · rw [if_neg early]
      by_cases ended : (anchor.tick answers.tick).2.state = .finished
      · have exited := (Anchor.tick_finished (sweeping.live anchor current) ended).1
        exact .inr ⟨now, answers, rfl, exited⟩
      · have served : ∃ progress after, s.serveAnchor now answers.tick = (some progress, after) ∧
            after.anchor = some (anchor.tick answers.tick).2 := by
          unfold Sweep.serveAnchor
          rw [current]
          dsimp only
          split
          · rename_i failed
            rw [failed]
            exact ⟨_, _, rfl, rfl⟩
          · rename_i going
            rw [going] at ended ⊢
            exact ⟨_, _, if_pos ended, rfl⟩
        obtain ⟨progress, after, answered, later⟩ := served
        rw [answered]
        exact .inl ⟨_, later, anchor.tick_pid _, anchor.tick_group _⟩

/-- From any sequence of calls: every anchor started was seen to exit but for the one
held, which no call forgets before that, and a sweep that is ready to retire holds none
and has just ended a scan that saw nothing but what its flags tell. -/
theorem retires_after_clean_scan (own : Int32) (peer : Option Int32) (generation : UInt64) (created : Nat)
    (calls : List Call) :
    let s := (new own peer generation created).run calls
    launches s.log = finishes s.log ++ (s.anchor.map Anchor.pid).toList ∧
      (∀ anchor, s.anchor = some anchor → ∀ call, Kept s call anchor) ∧
      ∀ now answers members, (s.step now answers).1 = .readyToRetire members →
        Retires own members (s.step now answers).2 := by
  have sweeping := (new_sweeping own peer generation created).run calls
  exact ⟨sweeping.ledger, fun _ current call => sweeping.keeps current call,
    fun now answers members ready => (sweeping.step now answers).retires members ready⟩

/-- One pass kills a group through its anchor, the next one finds only a peer's member. -/
theorem retires_after_clean_scan_killed :
    let s := (new 5 (some 4) 1 0).run
      [.step 0 ⟨⟨[], [], .running⟩, true, [.member 5 5, .member 7 8], some 9⟩,
        .step 1 ⟨⟨[], [], .exited⟩, true, [], none⟩]
    let last := s.step 20000000
      ⟨⟨[], [], .running⟩, true, [.outsideOrGone, .member 4 4, .member 6 4], none⟩
    finishes s.log = [9] ∧ last.1 = .readyToRetire ⟨false, true⟩ ∧ Retires 5 ⟨false, true⟩ last.2 :=
  ⟨by decide +kernel, by decide +kernel,
    (retires_after_clean_scan 5 (some 4) 1 0
      [.step 0 ⟨⟨[], [], .running⟩, true, [.member 5 5, .member 7 8], some 9⟩,
        .step 1 ⟨⟨[], [], .exited⟩, true, [], none⟩]).2.2 20000000
      ⟨⟨[], [], .running⟩, true, [.outsideOrGone, .member 4 4, .member 6 4], none⟩ ⟨false, true⟩
      (by decide +kernel)⟩

end PtyRuntime.Helper.Sweep
