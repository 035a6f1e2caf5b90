import PtyRuntime.Helpers.EndpointLaws

/-! Status delivery over whole runs, and the order in which one flush queues frames. -/
namespace PtyRuntime.Helper.Endpoint

open Guardian

variable {e : Endpoint} {sends done queued : List Frame}

namespace Delivering

/-- A frame leaves its slot for the queue, where it stays if it is there already. -/
theorem clear (delivering : Delivering e sends done queued) {frame : Frame}
    (held : e.pending frame.kind.slot = some frame) {channel : Channel} {added : List Frame}
    (wire : Wire { e with channel, pending := Function.update e.pending frame.kind.slot none } done
      (queued ++ added))
    (fits : added = [frame] ∨ (¬frame.kind.OneShot ∧ added = [])) :
    Delivering { e with channel, pending := Function.update e.pending frame.kind.slot none } sends done
      (queued ++ added) where
  wire := wire
  slots index other pending := by
    refine delivering.slots index other ?_
    dsimp only at pending
    by_cases same : index = frame.kind.slot
    · rw [same, Function.update_self] at pending
      cases pending
    · rwa [Function.update_of_ne same] at pending
  first kind once := by
    have followed := delivering.first kind once
    by_cases same : frame.kind = kind
    · subst same
      obtain ⟨first, -, sent, unqueued, unwritten⟩ := followed.pends held
      obtain rfl := fits.resolve_right fun repeated => repeated.1 once
      rw [first]
      refine ⟨rfl, sent, .inr (.inl ⟨Function.update_self .., ?_, unwritten⟩)⟩
      rw [ofKind_append, unqueued, ofKind_self]
      rfl
    · have apart : kind.slot ≠ frame.kind.slot := fun slot => same (Kind.slot_injective slot.symm)
      have unchanged : ofKind kind (queued ++ added) = ofKind kind queued := by
        rcases fits with rfl | ⟨-, rfl⟩
        · rw [ofKind_append, ofKind_other same, List.append_nil]
        · rw [List.append_nil]
      refine followed.other ?_ (Function.update_of_ne apart ..) unchanged rfl
      rfl

/-- The frames a flush hands over join the queue, but for those that wait there already. -/
theorem handOver (delivering : Delivering e sends done queued) (indices : List (Fin 19)) :
    ∃ added, Delivering (Endpoint.handOver indices e).2 sends done (queued ++ added) ∧
      added.Sublist (Endpoint.handOver indices e).1 ∧
      ∀ frame ∈ (Endpoint.handOver indices e).1,
        frame ∈ added ∨ (¬frame.kind.OneShot ∧ frame ∈ queued) := by
  induction indices generalizing e queued with
  | nil =>
    refine ⟨[], ?_, List.Sublist.refl _, fun _ member => nomatch member⟩
    rw [List.append_nil]
    exact delivering
  | cons index rest ih =>
    unfold Endpoint.handOver
    cases held : e.pending index with
    | none => exact ih delivering
    | some frame =>
      obtain rfl := delivering.slots index frame held
      dsimp only
      rcases e.channel.enqueue_cases frame with ⟨error, refused⟩ | ⟨waiting, coalesced⟩ |
        ⟨-, fresh, room, pushed⟩
      · rw [refused]
        refine ⟨[], ?_, List.Sublist.refl _, fun _ member => nomatch member⟩
        rw [List.append_nil]
        exact delivering
      · rw [coalesced]
        have inside : frame ∈ queued := by
          rw [delivering.wire.outgoing] at waiting
          obtain ⟨other, member, same⟩ := List.mem_map.mp waiting
          exact Frame.encode_injective same ▸ member
        have repeated : ¬frame.kind.OneShot := by
          intro once
          have unqueued := ((delivering.first _ once).pends held).2.2.2.1
          have kept : frame ∈ ofKind frame.kind queued := mem_ofKind.mpr ⟨inside, rfl⟩
          rw [unqueued] at kept
          cases kept
        have wire : Wire
            { e with channel := e.channel, pending := Function.update e.pending frame.kind.slot none }
            done (queued ++ []) := by
          rw [List.append_nil]
          exact ⟨delivering.wire.outgoing, delivering.wire.written, delivering.wire.channel⟩
        have next := delivering.clear held wire (.inr ⟨repeated, rfl⟩)
        rw [List.append_nil] at next
        obtain ⟨added, after, sub, told⟩ := ih next
        refine ⟨added, after, sub.cons _, fun other member => ?_⟩
        rcases List.mem_cons.mp member with rfl | later
        · exact .inr ⟨repeated, inside⟩
        · exact told other later
      · rw [pushed]
        have wire : Wire
            { e with
              channel := { e.channel with outgoing := e.channel.outgoing ++ [frame.encode] }
              pending := Function.update e.pending frame.kind.slot none }
            done (queued ++ [frame]) := delivering.wire.push room _
        obtain ⟨added, after, sub, told⟩ := ih (delivering.clear held wire (.inl rfl))
        refine ⟨frame :: added, ?_, sub.cons_cons _, fun other member => ?_⟩
        · rw [List.append_assoc] at after
          exact after
        · rcases List.mem_cons.mp member with rfl | later
          · exact .inl List.mem_cons_self
          · rcases told other later with new | ⟨repeated, old⟩
            · exact .inl (List.mem_cons_of_mem _ new)
            · rcases List.mem_append.mp old with before | last
              · exact .inr ⟨repeated, before⟩
              · exact .inl (List.mem_singleton.mp last ▸ List.mem_cons_self)

theorem drain (delivering : Delivering e sends done queued) (answers : List WriteAnswer) :
    ∃ gone rest, queued = gone ++ rest ∧ Delivering (e.drain answers) sends (done ++ gone) rest := by
  obtain ⟨gone, rest, split, wire⟩ := delivering.wire.drain answers
  exact ⟨gone, rest, split, wire, delivering.slots,
    fun kind once => (delivering.first kind once).moved split rfl rfl⟩

theorem send (delivering : Delivering e sends done queued) (frame : Frame) (healthy : e.healthy = true)
    (writable : e.writable = true) : Delivering (e.send frame) (sends ++ [frame]) done queued := by
  have first (kind : Kind) : firstOf kind (sends ++ [frame]) =
      (firstOf kind sends).or (if frame.kind = kind then some frame else none) := by
    unfold firstOf
    rw [List.find?_append, List.find?_singleton]
    simp only [decide_eq_true_eq]
  -- a kind that was sent before keeps its first frame
  have stays (sent : (e.sent frame.kind.slot).isSome = true) :
      Delivering e (sends ++ [frame]) done queued := by
    refine ⟨delivering.wire, delivering.slots, fun kind once => ?_⟩
    have followed := delivering.first kind once
    rw [first]
    cases known : firstOf kind sends with
    | some earlier =>
      rw [known] at followed
      exact followed
    | none =>
      rw [known] at followed
      by_cases same : frame.kind = kind
      · subst same
        rw [followed.1] at sent
        cases sent
      · rw [if_neg same]
        exact followed
  unfold Endpoint.send
  dsimp only
  split
  · rename_i ignored
    refine stays ?_
    rcases ignored with sick | stuck | same
    · simp [healthy] at sick
    · simp [writable] at stuck
    · rw [same]
      rfl
  · split
    · rename_i again
      exact stays again.1
    · rename_i fresh
      refine ⟨⟨delivering.wire.outgoing, delivering.wire.written, delivering.wire.channel⟩, ?_, ?_⟩
      · intro index other pending
        dsimp only at pending
        by_cases same : index = frame.kind.slot
        · rw [same, Function.update_self] at pending
          exact Option.some.inj pending ▸ same.symm
        · rw [Function.update_of_ne same] at pending
          exact delivering.slots index other pending
      · intro kind once
        have followed := delivering.first kind once
        rw [first]
        by_cases same : frame.kind = kind
        · subst same
          cases known : firstOf frame.kind sends with
          | some earlier =>
            rw [known] at followed
            have sent : (e.sent frame.kind.slot).isSome = true := by rw [followed.2.1]; rfl
            exact absurd ⟨sent, once⟩ fresh
          | none =>
            rw [known] at followed
            obtain ⟨-, -, unqueued, unwritten⟩ := followed
            rw [if_pos rfl]
            exact ⟨rfl, Function.update_self .., .inl ⟨Function.update_self .., unqueued, unwritten⟩⟩
        · have apart : kind.slot ≠ frame.kind.slot := fun slot => same (Kind.slot_injective slot.symm)
          rw [if_neg same, Option.or_none]
          exact followed.other (Function.update_of_ne apart ..) (Function.update_of_ne apart ..) rfl rfl

theorem messages (delivering : Delivering e sends done queued) (left : Nat) (reads : List ReadAnswer) :
    Delivering (Endpoint.messages left reads e).2 sends done queued := by
  induction left generalizing e reads with
  | zero => exact delivering
  | succ left ih =>
    cases reads with
    | nil => exact delivering
    | cons read reads =>
      obtain ⟨incoming, received, eof, after⟩ := e.channel.receive_sends read
      have next : Delivering { e with channel := (e.channel.receive read).2 } sends done queued := by
        obtain ⟨⟨outgoing, written, records, sent, idle, within⟩, slots, first⟩ := delivering
        rw [after]
        exact ⟨⟨outgoing, written, records, sent, idle, within⟩, slots, first⟩
      unfold Endpoint.messages
      dsimp only
      split
      · exact ih next reads
      · exact next
      · exact ⟨⟨next.wire.outgoing, next.wire.written, next.wire.channel⟩, next.slots, next.first⟩

theorem receive (delivering : Delivering e sends done queued) (reads : List ReadAnswer) :
    Delivering (e.receive reads).2 sends done queued := by
  unfold Endpoint.receive
  split
  · exact delivering
  · have next := delivering.messages 8 reads
    dsimp only
    split
    · exact ⟨⟨next.wire.outgoing, next.wire.written, next.wire.channel⟩, next.slots, next.first⟩
    · exact next

end Delivering

/-- The loop of `flush` empties the slots before the first refusal and leaves the rest. -/
theorem handOver_cut (indices : List (Fin 19)) (distinct : indices.Nodup) (e : Endpoint) :
    ∃ before after, indices = before ++ after ∧
      (handOver indices e).1 = before.filterMap e.pending ∧
      (∀ index ∈ before, (handOver indices e).2.pending index = none) ∧
      (∀ index, index ∉ before → (handOver indices e).2.pending index = e.pending index) ∧
      (after = [] ∨ ∃ index rest frame error, after = index :: rest ∧ e.pending index = some frame ∧
        ((handOver indices e).2.channel.enqueue frame).1 = .error error) := by
  induction indices generalizing e with
  | nil => exact ⟨[], [], rfl, rfl, fun _ member => (nomatch member), fun _ _ => rfl, .inl rfl⟩
  | cons index rest ih =>
    obtain ⟨alone, distinct⟩ := List.nodup_cons.mp distinct
    unfold handOver
    cases held : e.pending index with
    | none =>
      obtain ⟨before, after, split, handed, emptied, kept, stopped⟩ := ih distinct e
      refine ⟨index :: before, after, congrArg (index :: ·) split, ?_, ?_, ?_, stopped⟩
      · rw [List.filterMap_cons_none held]
        exact handed
      · intro other member
        rcases List.mem_cons.mp member with rfl | later
        · have outside : other ∉ before := fun inside =>
            alone (split ▸ List.mem_append_left _ inside)
          exact (kept other outside).trans held
        · exact emptied other later
      · exact fun other outside => kept other fun inside => outside (List.mem_cons_of_mem _ inside)
    | some frame =>
      dsimp only
      split
      · rename_i error channel refused
        have same : channel = e.channel := by
          rcases e.channel.enqueue_cases frame with ⟨_, told⟩ | ⟨-, told⟩ | ⟨-, -, -, told⟩
          · exact congrArg Prod.snd (refused.symm.trans told)
          · cases refused.symm.trans told
          · cases refused.symm.trans told
        subst same
        refine ⟨[], index :: rest, rfl, rfl, fun _ member => (nomatch member), fun _ _ => rfl, .inr ?_⟩
        exact ⟨index, rest, frame, error, rfl, held, congrArg Prod.fst refused⟩
      · rename_i channel accepted
        obtain ⟨before, after, split, handed, emptied, kept, stopped⟩ := ih distinct
          { e with channel, pending := Function.update e.pending index none }
        have apart (other : Fin 19) (inside : other ∈ before ∨ other ∈ after) :
            Function.update e.pending index none other = e.pending other := by
          refine Function.update_of_ne ?_ ..
          rintro rfl
          exact alone (split ▸ List.mem_append.mpr inside)
        refine ⟨index :: before, after, congrArg (index :: ·) split, ?_, ?_, ?_, ?_⟩
        · rw [List.filterMap_cons_some held]
          refine congrArg (frame :: ·) (handed.trans (List.filterMap_congr ?_))
          exact fun other inside => apart other (.inl inside)
        · intro other member
          rcases List.mem_cons.mp member with rfl | later
          · have outside : other ∉ before := fun inside =>
              alone (split ▸ List.mem_append_left _ inside)
            exact (kept other outside).trans (Function.update_self ..)
          · exact emptied other later
        · intro other outside
          obtain ⟨differs, absent⟩ := not_or.mp (mt List.mem_cons.mpr outside)
          exact (kept other absent).trans (Function.update_of_ne differs ..)
        · refine stopped.imp id ?_
          rintro ⟨first, later, refused, error, rfl, waiting, told⟩
          exact ⟨first, later, refused, error, rfl, (apart first (.inr List.mem_cons_self)) ▸ waiting, told⟩

/-- The first part of all slots is those below its length. -/
theorem mem_front {n : Nat} {before after : List (Fin n)} (split : List.finRange n = before ++ after)
    (index : Fin n) : index ∈ before ↔ index.val < before.length := by
  have position (place : Nat) (inside : place < before.length) : before[place].val = place := by
    have same : (List.finRange n)[place]? = some before[place] := by
      rw [split, List.getElem?_append_left inside, List.getElem?_eq_getElem inside]
    obtain ⟨bound, found⟩ := List.getElem?_eq_some_iff.mp same
    rw [← found, List.getElem_finRange]
    rfl
  constructor
  · intro member
    obtain ⟨place, inside, rfl⟩ := List.getElem_of_mem member
    rw [position place inside]
    exact inside
  · intro below
    have found : before[index.val] = index := Fin.ext (position index.val below)
    exact found ▸ List.getElem_mem below

/-- One flush: it hands the frames of the slots below `cut` to the channel in ascending
order, and `cut` is the slot of a refused frame if there is one. Those added to the queue
go out in this order behind what was queued; a repeated handoff that is still queued is
not added again. -/
structure Flush (before after : Endpoint) (done queued handed added done' queued' : List Frame)
    (cut : Nat) : Prop where
  wire : Wire after done' queued'
  order : done' ++ queued' = done ++ (queued ++ added)
  ascending : handed.Pairwise fun first second => first.kind.code < second.kind.code
  fresh : added.Sublist handed
  repeated : ∀ frame ∈ handed, frame ∈ added ∨ (¬frame.kind.OneShot ∧ frame ∈ queued)
  emptied : ∀ index : Fin 19, index.val < cut →
    after.pending index = none ∧ ∀ frame, before.pending index = some frame → frame ∈ handed
  kept : ∀ index : Fin 19, cut ≤ index.val → after.pending index = before.pending index
  refused : cut = 19 ∨ ∃ index : Fin 19, index.val = cut ∧ ∃ frame error,
    before.pending index = some frame ∧
      ((handOver (List.finRange 19) before).2.channel.enqueue frame).1 = .error error

theorem Delivering.flush (delivering : Delivering e sends done queued) (healthy : e.healthy = true)
    (writable : e.writable = true) (answers : List WriteAnswer) :
    ∃ handed added done' queued' cut,
      Delivering (e.flush answers) sends done' queued' ∧
      Flush e (e.flush answers) done queued handed added done' queued' cut := by
  obtain ⟨added, after, sub, told⟩ := delivering.handOver (List.finRange 19)
  obtain ⟨gone, rest, split, drained⟩ := after.drain answers
  obtain ⟨before, behind, slots, handed, emptied, kept, stopped⟩ :=
    handOver_cut (List.finRange 19) (List.nodup_finRange 19) e
  have flushed : e.flush answers = (Endpoint.handOver (List.finRange 19) e).2.drain answers := by
    unfold Endpoint.flush
    simp [healthy, writable]
  rw [flushed]
  have front := mem_front slots
  refine ⟨_, added, done ++ gone, rest, before.length, drained, drained.wire, ?_, ?_, sub, told, ?_, ?_, ?_⟩
  · rw [List.append_assoc, split]
  · rw [handed]
    have sorted : before.Pairwise (· < ·) := (slots ▸ List.pairwise_lt_finRange 19).sublist
      (List.sublist_append_left _ _)
    refine List.pairwise_filterMap.mpr (sorted.imp ?_)
    intro i j less first heldFirst second heldSecond
    rw [← delivering.slots i first heldFirst, ← delivering.slots j second heldSecond] at less
    exact less
  · intro index below
    have inside := (front index).mpr below
    refine ⟨emptied index inside, fun frame held => ?_⟩
    rw [handed]
    exact List.mem_filterMap.mpr ⟨index, inside, held⟩
  · exact fun index above => kept index fun inside => absurd ((front index).mp inside) (by omega)
  · rcases stopped with rfl | ⟨index, later, frame, error, rfl, held, refused⟩
    · left
      have size := congrArg List.length slots
      rw [List.length_finRange, List.append_nil] at size
      exact size.symm
    · right
      have place : (List.finRange 19)[before.length]? = some index := by
        rw [slots, List.getElem?_append_right (Nat.le_refl _), Nat.sub_self]
        rfl
      obtain ⟨bound, found⟩ := List.getElem?_eq_some_iff.mp place
      rw [List.getElem_finRange] at found
      exact ⟨index, (congrArg Fin.val found).symm, frame, error, held, refused⟩

theorem messages_flags (left : Nat) (reads : List ReadAnswer) (e : Endpoint) :
    ((messages left reads e).2.healthy = true → e.healthy = true) ∧
      (messages left reads e).2.writable = e.writable := by
  induction left generalizing reads e with
  | zero => exact ⟨id, rfl⟩
  | succ left ih =>
    cases reads with
    | nil => exact ⟨id, rfl⟩
    | cons read reads =>
      unfold messages
      dsimp only
      split
      · exact ih reads _
      · exact ⟨id, rfl⟩
      · exact ⟨fun healthy => (nomatch healthy), rfl⟩

/-- An endpoint that is fit after a call was fit before it. -/
theorem call_flags {call : Call} (healthy : (e.call call).healthy = true)
    (writable : (e.call call).writable = true) : e.healthy = true ∧ e.writable = true := by
  cases call with
  | send frame =>
    simp only [Endpoint.call, Endpoint.send] at healthy writable
    split at healthy
    · rename_i ignored
      rw [if_pos ignored] at writable
      exact ⟨healthy, writable⟩
    · rename_i taken
      simp only [not_or, Bool.not_eq_true', Bool.not_eq_false] at taken
      exact ⟨taken.1, taken.2.1⟩
  | receive reads =>
    obtain ⟨sane, same⟩ := messages_flags 8 reads e
    simp only [Endpoint.call, Endpoint.receive] at healthy writable
    split at healthy
    · rename_i sick
      rw [if_pos sick] at writable
      exact ⟨healthy, writable⟩
    · rename_i fit
      rw [if_neg fit] at writable
      split at healthy
      · cases healthy
      · rename_i live
        rw [if_neg live, same] at writable
        exact ⟨sane healthy, writable⟩
  | flush answers =>
    by_cases stuck : e.healthy = true ∧ e.writable = true
    · exact stuck
    · have idle : e.flush answers = e := by
        unfold Endpoint.flush
        rw [if_pos]
        rcases not_and_or.mp stuck with sick | shut
        · exact .inl (by simpa using sick)
        · exact .inr (by simpa using shut)
      change (e.flush answers).healthy = true at healthy
      change (e.flush answers).writable = true at writable
      rw [idle] at healthy writable
      exact ⟨healthy, writable⟩

/-- The frames given to `send`, in order. -/
def sendsOf (calls : List Call) : List Frame :=
  calls.filterMap fun call =>
    match call with
    | .send frame => some frame
    | _ => none

theorem run_delivering (generation : UInt64) (calls : List Call)
    (healthy : ((new generation).run calls).healthy = true)
    (writable : ((new generation).run calls).writable = true) :
    ∃ done queued, Delivering ((new generation).run calls) (sendsOf calls) done queued := by
  induction calls using List.reverseRecOn with
  | nil => exact ⟨[], [], new_delivering generation⟩
  | append_singleton calls call ih =>
    have stepped : (new generation).run (calls ++ [call]) = ((new generation).run calls).call call := by
      unfold run
      rw [List.foldl_append]
      rfl
    have sends : sendsOf (calls ++ [call]) = sendsOf calls ++ sendsOf [call] := List.filterMap_append
    rw [stepped] at healthy writable ⊢
    rw [sends]
    obtain ⟨fit, free⟩ := call_flags healthy writable
    obtain ⟨done, queued, delivering⟩ := ih fit free
    cases call with
    | send frame => exact ⟨done, queued, delivering.send frame fit free⟩
    | receive reads =>
      refine ⟨done, queued, ?_⟩
      rw [show sendsOf [Call.receive reads] = [] from rfl, List.append_nil]
      exact delivering.receive reads
    | flush answers =>
      obtain ⟨_, _, done', queued', _, after, -⟩ := delivering.flush fit free answers
      refine ⟨done', queued', ?_⟩
      rw [show sendsOf [Call.flush answers] = [] from rfl, List.append_nil]
      exact after

/-- While an endpoint is fit, the first frame of a kind that is sent once is pending,
queued or written, and no other frame of its kind is queued or written; and a flush
queues pending frames in ascending order up to the first that is refused. -/
theorem statuses_delivered_in_place (generation : UInt64) (calls : List Call)
    (healthy : ((new generation).run calls).healthy = true)
    (writable : ((new generation).run calls).writable = true) :
    let e := (new generation).run calls
    ∃ done queued, Wire e done queued ∧
      (∀ kind : Kind, kind.OneShot → ∀ frame, firstOf kind (sendsOf calls) = some frame →
        Once e done queued frame) ∧
      ∀ answers, ∃ handed added done' queued' cut,
        Flush e (e.flush answers) done queued handed added done' queued' cut := by
  obtain ⟨done, queued, delivering⟩ := run_delivering generation calls healthy writable
  refine ⟨done, queued, delivering.wire, fun kind once frame known => ?_, fun answers => ?_⟩
  · have followed := delivering.first kind once
    rw [known] at followed
    exact followed.2.2
  · obtain ⟨handed, added, done', queued', cut, -, flush⟩ := delivering.flush healthy writable answers
    exact ⟨handed, added, done', queued', cut, flush⟩

/-- Nine statuses meet a queue of eight records, of which twenty bytes are taken. -/
theorem statuses_delivered_in_place_full :
    let status (kind : Kind) : Frame := ⟨kind, 41, #v[1, 1, 1, 1]⟩
    let e := (new 41).run
      [.send (status .release), .send (status .kill), .send (status .terminate), .send (status .retiring),
        .send (status .fault), .send (status .startFailed), .send (status .workloadExit),
        .send (status .admitted), .send (status .started), .flush [.accepted 20, .wouldBlock]]
    ∃ done queued, Wire e done queued ∧ Once e done queued (status .started) ∧
      Once e done queued (status .release) := by
  intro status e
  obtain ⟨done, queued, wire, once, -⟩ := statuses_delivered_in_place 41
    [.send (status .release), .send (status .kill), .send (status .terminate), .send (status .retiring),
      .send (status .fault), .send (status .startFailed), .send (status .workloadExit),
      .send (status .admitted), .send (status .started), .flush [.accepted 20, .wouldBlock]]
    (by decide +kernel +zetaReduce) (by decide +kernel +zetaReduce)
  exact ⟨done, queued, wire, once .started (by decide) _ (by decide +kernel +zetaReduce),
    once .release (by decide) _ (by decide +kernel +zetaReduce)⟩

/-- A handoff that repeats one still queued is handed over after a fault and goes out
before it. -/
theorem repeated_handoff_goes_first :
    let successor (pid : Int32) : Frame := ⟨.successor, 1, #v[pid, 2, 3, 0]⟩
    let fault : Frame := ⟨.fault, 1, .replicate 4 0⟩
    let e := (new 1).run
      [.send (successor 7), .flush [.wouldBlock], .send (successor 8), .send (successor 7), .send fault]
    (e.healthy = true ∧ e.writable = true) ∧
      (handOver (List.finRange 19) e).1 = [fault, successor 7] ∧
      (e.flush [.accepted 32, .accepted 32]).written = (successor 7).encode ++ fault.encode := by
  decide +kernel

end PtyRuntime.Helper.Endpoint
