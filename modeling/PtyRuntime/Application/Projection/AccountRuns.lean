import PtyRuntime.Application.ObserverWakeups
import PtyRuntime.Application.Projection.AccountLaws

/-! Every program that takes the workspace lock keeps the account of a projection, from
any state it can find it in. What takes effect is followed from the queue into the
worker's hand, to the native model and into the stream. -/
namespace PtyRuntime
open Thread PtyRuntime.Core Settled

namespace Coordinator

variable {c c' : Coordinator}

instance {P : Account → Prop} [Account.Lasting P] : accounts.Steady fun c => P c.account where
  keep meddled holds := Account.Lasting.keep meddled.1 holds

/-- There is a live model. -/
def Modelled (c : Coordinator) : Prop := c.workspace.terminal.isSome = true

instance : accounts.Steady Modelled where
  keep meddled modelled := by
    rw [Modelled, meddled.2.terminal]
    exact modelled

/-- There is no live model. -/
def Detached (c : Coordinator) : Prop := c.workspace.terminal = none

instance : accounts.Steady Detached where
  keep meddled detached := meddled.2.terminal.trans detached

instance : accounts.Steady Jobless where
  keep meddled jobless := by
    rcases meddled.2.io with same | ⟨config, limit, answer, published⟩
    · rw [Jobless, same]
      exact jobless
    · rw [Jobless, published, Option.isNone_map]
      exact jobless

theorem Honours.refl (c : Coordinator) : Honours c c := ⟨id, fun _ => id, .refl c⟩

theorem beside_sealed {v v' : Account} (beside : Account.Beside v v') {ended : TransferEnd}
    (sealed : v.sealed = some ended) : v'.sealed = some ended := by
  cases beside with
  | cut down drain error unsealed => cases unsealed.symm.trans sealed
  | _ => exact sealed

theorem Reckoned.slides {D : Coordinator → Coordinator → Prop} (accounted : c.Reckoned)
    (slides : Slides D c c') (reading : c.Reading → c'.Reading) : c'.Reckoned where
  kept := accounted.kept.beside slides.account
  marked := slides.marked accounted.marked
  reading := reading accounted.reading
  seamless := slides.seamless accounted.seamless

theorem Slides.honours {D : Coordinator → Coordinator → Prop} (slides : Slides D c c')
    (observed : Observed c c') : Honours c c' where
  down := Account.Lasting.keep slides.account
  sealed _ := beside_sealed slides.account
  observed := observed

theorem keeps_step (slides : Slides Keeps c c') (accounted : c.Reckoned) :
    c'.Reckoned ∧ Honours c c' ∧ accounts.meddle c c' :=
  ⟨accounted.slides slides fun reading => reading.spared slides.account slides.rest.1,
    slides.honours slides.rest.2, slides.account, slides.rest.1⟩

instance : accounts.Neutral () (Slides Keeps) := ⟨keeps_step⟩

theorem Reading.shelved (reading : c.Reading) (beside : Account.Beside c.account c'.account)
    (shelved : Shelved c.workspace c'.workspace.terminal c'.workspace.io) : c'.Reading := by
  intro request source mailbox pending
  rcases shelved.io with same | gone | ⟨job, started, kind⟩
  · rw [same] at pending
    obtain ⟨detached, carries⟩ := reading request source mailbox pending
    refine ⟨?_, carries.beside beside⟩
    rcases shelved.terminal with same | dropped
    · exact same.trans detached
    · exact dropped
  · rw [gone] at pending
    cases pending
  · rw [started] at pending
    obtain rfl := Option.some.inj pending
    cases kind

namespace Over

variable {α : Type} {work : Work α} {F : Coordinator → Prop} {P : Account → Prop}

theorem sliding [accounts.Steady F] (upholds : work.Upholds Sinks (Slides Keeps)) :
    Over accounts F work fun _ => F := Over.aside upholds

theorem glance [accounts.Steady F] {f : Coordinator → α} : Over accounts F (Thread.look f) fun _ => F :=
  sliding Completing.look_each

/-- A program of the blocking-I/O lifecycle only moves what is beside the account. -/
theorem shelving [lasting : Account.Lasting P] (upholds : work.Upholds Sinks (Slides Shelves)) :
    Over accounts (fun c => P c.account) work fun _ c => P c.account := by
  refine Contract.overlay_aside Along.stable Tracks.wider upholds fun c c' slides accounted holds => ?_
  exact ⟨accounted.slides slides fun reading => reading.shelved slides.account slides.rest.1,
    slides.honours slides.rest.2, lasting.keep slides.account holds⟩

theorem seen [accounts.Steady F] {f : Coordinator → α} {G : α → Coordinator → Prop}
    (seen : ∀ c, Valid c.core → c.Reckoned → F c → G (f c) c) : Over accounts F (Thread.look f) G :=
  Over.look Honours.refl seen

end Over

/-- Such a step leaves the rest alone. -/
structure Still (c c' : Coordinator) : Prop where
  workspace : c'.workspace.terminal = c.workspace.terminal ∧ c'.workspace.io = c.workspace.io
  tickets : c'.tickets = c.tickets
  marked : c.admission.policy.Marked → c'.admission.policy.Marked
  observed : Observed c c'

/-- A step of the worker. The version and the boundary only move where there is a live
model, so no source that is read back is left behind. -/
theorem Reckoned.move {v : Account} (accounted : c.Reckoned)
    (became : c'.account = v) (still : Still c c') (kept : v.Kept)
    (ends : v.closing = c.account.closing ∧ v.failed = c.account.failed ∧
      ∀ ended, c.account.sealed = some ended → v.sealed = some ended)
    (version : Modelled c ∨ (v.processed = c.account.processed ∧ v.control = c.account.control ∧
      v.boundary = c.account.boundary)) : c'.Reckoned ∧ Honours c c' := by
  subst became
  obtain ⟨closing, failed, sealed⟩ := ends
  constructor
  · refine ⟨kept, still.marked accounted.marked, ?_, ?_⟩
    · intro request source mailbox pending
      rw [still.workspace.2] at pending
      obtain ⟨detached, carries⟩ := accounted.reading request source mailbox pending
      rcases version with modelled | ⟨processed, control, boundary⟩
      · rw [Modelled, detached] at modelled
        cases modelled
      · refine ⟨still.workspace.1.trans detached, ?_, ?_, carries.read⟩
        · rw [Account.Matches, processed, control]
          exact carries.version
        · rw [Account.Agreed, processed, control, boundary]
          exact carries.agreed
    · rw [Seamless, still.tickets]
      exact accounted.seamless
  · refine ⟨fun down => ?_, sealed, still.observed⟩
    rw [Account.Down, closing, failed]
    exact down

/-- A step of the worker that ends nothing. -/
theorem Reckoned.still {v : Account} (accounted : c.Reckoned)
    (became : c'.account = v) (still : Still c c') (kept : v.Kept)
    (ends : v.closing = c.account.closing ∧ v.failed = c.account.failed ∧ v.sealed = c.account.sealed)
    (version : Modelled c ∨ (v.processed = c.account.processed ∧ v.control = c.account.control ∧
      v.boundary = c.account.boundary)) : c'.Reckoned ∧ Honours c c' :=
  accounted.move became still kept ⟨ends.1, ends.2.1, fun _ same => ends.2.2.trans same⟩ version

/-- Failing, after which the projection is down. -/
theorem fail_over {F : Coordinator → Prop} [steady : accounts.Steady F] (error : ProjectionError) :
    Over accounts F (fail error) fun _ c => F c ∧ c.account.Down := by
  refine Over.bind (G := fun _ c => F c ∧ c.account.Down) (Over.lock fun c _ accounted holds => ?_)
    fun answer => Over.bind (G := fun _ c => F c ∧ c.account.Down)
      (Over.update fun c _ accounted holds => ?_) fun _ =>
        Over.sliding (Completing.failCommands_each _ _)
  · obtain ⟨kept, owed, meddled⟩ := keeps_step (slides_fail c error) accounted
    exact ⟨kept, owed, steady.keep meddled holds, fail_down c error⟩
  · obtain ⟨kept, owed, meddled⟩ := keeps_step (slides_cut c holds.2 answer.2 error) accounted
    exact ⟨kept, owed, steady.keep meddled holds.1, Account.Lasting.keep meddled.1 holds.2⟩

theorem requeue_account (c : Coordinator) {command : Command} (mutates : command.mutates = true) :
    ({ c with
      admission := (c.admission.requeue command).2
      trace := c.trace.release command
      order := c.order.release command } : Coordinator).account =
      { c.account with
        queue := if c.account.closing then c.account.queue else command :: c.account.queue
        log := { c.account.log with current := none } } := by
  have closing : c.account.closing = c.admission.closing := rfl
  rw [closing]
  by_cases closed : c.admission.closing = true
  · simp only [account, Admission.requeue, if_pos closed, OrderLog.release, if_pos mutates]
  · simp only [account, Admission.requeue, if_neg closed, OrderLog.release, if_pos mutates]
    rfl

theorem requeue_over {command : Command} (mutates : command.mutates = true) (part : List ModelInput) :
    Over accounts (fun c => c.account.Has command part) (requeue command)
      fun _ c => c.account.Holds none none part ∧ c.account.Books := by
  refine Over.bind (G := fun _ c => c.account.Holds none none part ∧ c.account.Books)
    (Over.lock fun c _ accounted has => ?_) fun refused => ?_
  · obtain ⟨⟨holds, books⟩, -⟩ := has
    have became := requeue_account c mutates
    obtain ⟨kept, holds⟩ := accounted.kept.release holds mutates rfl
    obtain ⟨accounted, owed⟩ := accounted.still became
      ⟨⟨rfl, rfl⟩, rfl, by rw [requeue_policy]; exact id, .refl c⟩ kept ⟨rfl, rfl, rfl⟩
      (.inr ⟨rfl, rfl, rfl⟩)
    refine ⟨accounted, owed, became ▸ holds, ?_⟩
    rw [became]
    exact ⟨⟨books.counted, books.level, books.within⟩, books.closed⟩
  · cases refused with
    | none => exact Over.pure fun _ => id
    | some command => exact Over.sliding (Completing.failCommand_each command _)

/-- A live model has been given the first `n` bytes of the chunk in hand. -/
def FedOf (bytes : Bytes) (n : Nat) (c : Coordinator) : Prop :=
  c.account.Has (.output bytes) ((bytes.take n).map .byte) ∧ Modelled c

instance (bytes : Bytes) (n : Nat) : accounts.Steady (FedOf bytes n) :=
  inferInstanceAs (accounts.Steady fun c => Account.Has _ _ c.account ∧ Modelled c)

theorem feed_over (bytes : Bytes) {n m : Nat} (le : n ≤ m) :
    Over accounts (FedOf bytes n) (feed ((bytes.take m).drop n)) fun _ => FedOf bytes m := by
  refine Over.bind (G := fun _ => FedOf bytes m) (Over.update fun c _ accounted fed => ?_)
    fun _ => Over.sliding (Bystanding.nativeCall_each _)
  obtain ⟨⟨⟨holds, books⟩, agreed⟩, modelled⟩ := fed
  have whole : (bytes.take n).map ModelInput.byte ++ ((bytes.take m).drop n).map .byte =
      (bytes.take m).map .byte := by rw [← List.map_append, take_append_slice bytes le]
  obtain ⟨kept, holds⟩ := accounted.kept.give holds (((bytes.take m).drop n).map .byte) (by
    rw [whole]
    exact (List.take_prefix m bytes).map _)
  rw [whole] at holds
  obtain ⟨accounted, owed⟩ := accounted.still (rfl : ({ c with
    trace := { c.trace with fed := c.trace.fed ++ (bytes.take m).drop n }
    order := c.order.give (((bytes.take m).drop n).map .byte) } : Coordinator).account = _) ⟨⟨rfl, rfl⟩, rfl, id, .refl c⟩ kept
    ⟨rfl, rfl, rfl⟩ (.inr ⟨rfl, rfl, rfl⟩)
  exact ⟨accounted, owed, ⟨⟨holds, ⟨books.counted, books.level, books.within⟩, books.closed⟩, agreed⟩, modelled⟩

/-- What feeding a chunk leaves: all of it when every feed was taken. -/
def FedBy (bytes : Bytes) (result : Except ProjectionError Bytes) (c : Coordinator) : Prop :=
  match result with
  | .ok _ => FedOf bytes bytes.length c
  | .error _ => ∃ n, FedOf bytes n c

theorem feedStatusSlice_over (bytes : Bytes) {n m : Nat} (le : n ≤ m) (aggregate : Bytes) (limit : Nat) :
    Over accounts (FedOf bytes n) (feedStatusSlice ((bytes.take m).drop n) aggregate limit)
      fun _ => FedOf bytes m := by
  apply (feed_over bytes le).bind
  intro result
  cases result <;> exact Over.pure fun _ => id

theorem feedQueries_over (bytes : Bytes) (limit : Nat) (queries : List Nat) (start : Nat)
    (aggregate : Bytes) (sorted : queries.Pairwise (· < ·))
    (bounds : ∀ stop ∈ queries, start ≤ stop ∧ stop ≤ bytes.length) (within : start ≤ bytes.length) :
    Over accounts (FedOf bytes start) (feedQueries bytes limit start aggregate queries) (FedBy bytes) := by
  induction queries generalizing start aggregate with
  | nil =>
    unfold feedQueries
    split
    · have rest := feedStatusSlice_over bytes within aggregate limit
      rw [List.take_length] at rest
      apply rest.weaken
      intro result c fed
      cases result with
      | error e => exact ⟨_, fed⟩
      | ok effects => exact fed
    · obtain rfl : start = bytes.length := by omega
      exact Over.pure fun _ => id
  | cons stop rest ih =>
    obtain ⟨later, sorted⟩ := List.pairwise_cons.mp sorted
    obtain ⟨before, inside⟩ := bounds stop List.mem_cons_self
    unfold feedQueries
    apply (feedStatusSlice_over bytes before aggregate limit).bind
    intro result
    cases result with
    | error e => exact Over.pure fun _ fed => ⟨_, fed⟩
    | ok aggregate =>
      dsimp only
      split
      · exact Over.pure fun _ fed => ⟨_, fed⟩
      · refine ih stop _ sorted (fun next member => ?_) inside
        exact ⟨(later next member).le, (bounds next (List.mem_cons_of_mem _ member)).2⟩

theorem feedPresent_over (bytes : Bytes) (queries : List Nat) (limit : Nat)
    (sorted : queries.Pairwise (· < ·)) (bounds : ∀ stop ∈ queries, stop ≤ bytes.length) :
    Over accounts (FedOf bytes 0) (feedPresent bytes queries limit) (FedBy bytes) := by
  apply Over.glance.bind
  intro present
  split
  · unfold feedStatusSlices
    split
    · have whole := feed_over bytes (Nat.zero_le bytes.length)
      rw [List.take_length, List.drop_zero] at whole
      apply whole.bind
      intro result
      cases result with
      | error e => exact Over.pure fun _ fed => ⟨_, fed⟩
      | ok effects =>
        refine Over.pure fun _ fed => ?_
        simp only [FedBy]
        split
        · exact fed
        · exact ⟨_, fed⟩
    · exact feedQueries_over bytes limit queries 0 [] sorted
        (fun stop member => ⟨Nat.zero_le stop, bounds stop member⟩) (Nat.zero_le _)
  · exact Over.pure fun _ fed => ⟨0, fed⟩

/-- A chunk that failed goes back to the queue of a projection that is down. -/
theorem abandonOutput_over (bytes : Bytes) (n : Nat) (error : ProjectionError) :
    Over accounts (FedOf bytes n) (abandonOutput bytes error) fun _ c => c.account.Rest :=
  ((requeue_over rfl _).strengthen fun _ fed => fed.1).bind fun _ => (fail_over error).bind fun _ =>
    Over.pure fun _ rest => ⟨rest.1.2, .inl rest.2⟩

theorem Over.exists {α ι : Type} {F : ι → Coordinator → Prop} {work : Work α}
    {G : α → Coordinator → Prop} (each : ∀ i, Over accounts (F i) work G) :
    Over accounts (fun c => ∃ i, F i c) work G := by
  rintro c ⟨i, holds⟩
  exact each i c holds

theorem countOutput_account (c : Coordinator) (bytes : Bytes) :
    ({ c with
      admission := { c.admission with policy := { c.admission.policy with
        status := { c.admission.policy.status with
          processed := { c.admission.policy.status.processed with
            offset := c.admission.policy.status.processed.offset + bytes.length } } } }
      trace := c.trace.apply bytes
      order := c.order.settle (.output bytes) } : Coordinator).account =
      { c.account with
        processed := { c.account.processed with offset := c.account.processed.offset + bytes.length }
        log := c.account.log.settle (.output bytes) } := rfl

/-- What counting a chunk leaves: it is still to be journaled. -/
def CountedBy (bytes : Bytes) (result : Except ProjectionError Unit) (c : Coordinator) : Prop :=
  match result with
  | .ok _ => c.account.Unwritten ∧ Modelled c
  | .error _ => FedOf bytes bytes.length c

theorem recordProcessed_over (bytes : Bytes) :
    Over accounts (FedOf bytes bytes.length) (recordProcessed bytes) (CountedBy bytes) := by
  apply Over.lock
  intro c _ accounted fed
  rcases c.admission.policy.recordProcessed_cases bytes.length with ⟨error, refused⟩ | ⟨-, counted⟩
  · simp only [Admission.recordProcessed, Admission.withPolicy, refused]
    exact ⟨accounted, .refl c, fed⟩
  · obtain ⟨has, modelled⟩ := fed
    rw [List.take_length] at has
    have unwritten := has.settle accounted.kept
    obtain ⟨kept, -⟩ := accounted.kept.settle (.output bytes) has.1.1 (by simp [Settled.generation?])
      (by simp) c.account.resize
      { c.account.processed with offset := c.account.processed.offset + bytes.length }
    simp only [Admission.recordProcessed, Admission.withPolicy, counted]
    obtain ⟨accounted, owed⟩ := Reckoned.still (c := c) accounted (countOutput_account c bytes)
      ⟨⟨rfl, rfl⟩, rfl, id, .refl c⟩ kept ⟨rfl, rfl, rfl⟩ (.inl modelled)
    exact ⟨accounted, owed, unwritten, modelled⟩

theorem append_observed (c : Coordinator) (leases : Nat → Bool) (kind : RecordKind)
    (processed : Option ReplayCursor) :
    Observed c { c with journal := (c.journal.append leases kind processed).2 } := by
  rcases c.journal.append_observers leases kind processed with same | taken
  · intro id present
    rw [same]
    exact present
  · exact observed_wakers taken

/-- What journaling a mutation does to the account. -/
theorem append_account (c : Coordinator) (leases : Nat → Bool) (kind : RecordKind)
    (processed : Option ReplayCursor) (available : c.account.lost = false) :
    ((c.account.sealed.isSome = true ∨ c.account.shut = true) ∧
        ({ c with journal := (c.journal.append leases kind processed).2 } : Coordinator).account =
          c.account) ∨
      ((c.account.sealed = none ∧ c.account.shut = false) ∧
        ((∃ error, (c.journal.advance kind processed).1 = .error error) ∨
          ∃ after, (c.journal.advance kind processed).1 = .ok after ∧
            ({ c with journal := (c.journal.append leases kind processed).2 } : Coordinator).account =
              { c.account with boundary := after })) := by
  have live {o : TransferOrder} (accepts : o.acceptsEvents = true) : o.sealed = none ∧ o.closed = false :=
    ⟨(TransferOrder.acceptsEvents_readable accepts).2, (TransferOrder.acceptsEvents_readable accepts).1.1⟩
  have available : c.journal.order.unavailable = false := available
  rcases c.journal.append_order leases kind processed with
    ⟨refuses, same⟩ | ⟨accepts, error, refused⟩ | ⟨accepts, after, oldest, advanced, became⟩
  · refine .inl ⟨?_, account_journal c same⟩
    change c.journal.order.sealed.isSome = true ∨ c.journal.order.closed = true
    rw [TransferOrder.acceptsEvents, available] at refuses
    cases sealed : c.journal.order.sealed with
    | some ended => exact .inl rfl
    | none =>
      rw [sealed] at refuses
      exact .inr (by simpa using refuses)
  · exact .inr ⟨live accepts, .inl ⟨error, refused⟩⟩
  · refine .inr ⟨live accepts, .inr ⟨after, advanced, ?_⟩⟩
    simp only [account, became]

/-- The next resize runs at this generation. -/
def Next (generation : ControlGeneration) (v : Account) : Prop := v.control.next = some generation

instance (generation : ControlGeneration) : Account.Lasting (Next generation) where
  keep beside next := by
    rw [Next, beside.version.2.1]
    exact next

/-- The policy stands at this position. -/
def At (processed : ReplayCursor) (v : Account) : Prop := processed = v.processed

instance (processed : ReplayCursor) : Account.Lasting (At processed) where
  keep beside same := same.trans beside.version.1.symm

/-- Output that has settled is journaled, unless the stream has ended. -/
theorem journalOutput_over (leases : Nat → Bool) (bytes : Bytes) (processed : ReplayCursor) :
    Over accounts (fun c => (Account.Unwritten c.account ∧ Modelled c) ∧ At processed c.account)
      (onJournal (·.output leases bytes processed)) fun _ c => Account.Free c.account := by
  apply Over.update
  rintro c _ accounted ⟨⟨unwritten, modelled⟩, same⟩
  obtain rfl : processed = c.account.processed := same
  have kept := accounted.kept
  have still : Still c { c with journal := (c.journal.output leases bytes c.account.processed).2 } :=
    ⟨⟨rfl, rfl⟩, rfl, id, append_observed c _ _ _⟩
  rcases append_account c leases (.output bytes) (some c.account.processed) kept.available with
    ⟨ended, same⟩ | ⟨⟨unsealed, opened⟩, answered⟩
  · obtain ⟨accounted, owed⟩ := accounted.still same still kept ⟨rfl, rfl, rfl⟩ (.inl modelled)
    exact ⟨accounted, owed, same.symm ▸ unwritten.skip ended⟩
  have room : c.account.boundary.cursor.sequence + 1 ≤ u64Max :=
    (unwritten.within.trans ((Nat.le_add_right _ _).trans kept.length_settled)).trans kept.room.2
  have accepted := TransferOrder.output_accepted (o := c.journal.order) ⟨opened, kept.available⟩ unsealed
    unwritten.lifetime unwritten.ahead room
  rcases answered with ⟨error, refused⟩ | ⟨after, advanced, became⟩
  · cases refused.symm.trans accepted
  · obtain rfl := Except.ok.inj (advanced.symm.trans accepted)
    obtain ⟨accounted, owed⟩ := accounted.still became still (kept.write _) ⟨rfl, rfl, rfl⟩ (.inl modelled)
    exact ⟨accounted, owed, became.symm ▸ unwritten.write⟩

theorem publishOutput_over (bytes effects : Bytes) :
    Over accounts (fun c => Account.Unwritten c.account ∧ Modelled c) (publishOutput bytes effects)
      fun _ c => Account.Free c.account := by
  refine Over.bind (G := fun (applied : ProjectionStatus) c =>
    (Account.Unwritten c.account ∧ Modelled c) ∧ At applied.processed c.account)
    (Over.seen fun c _ _ holds => ⟨holds, rfl⟩) fun applied => Over.input.bind fun a =>
      (journalOutput_over a.leases bytes applied.processed).bind fun _ => ?_
  split
  · exact Over.pure fun _ => id
  · exact (Over.sliding (Upholds.update fun c => Replying.reply c _)).bind fun _ => Over.pure fun _ => id

theorem applyPrepared_over (bytes : Bytes) (limit : Nat) (prepared : PreparedStatus)
    (sorted : prepared.plan.queries.Pairwise (· < ·))
    (bounds : ∀ stop ∈ prepared.plan.queries, stop ≤ bytes.length) :
    Over accounts (FedOf bytes 0) (applyPrepared bytes limit prepared) fun _ c => c.account.Rest := by
  apply (feedPresent_over bytes _ limit sorted bounds).bind
  intro result
  cases result with
  | error error => exact Over.exists fun n => abandonOutput_over bytes n error
  | ok effects =>
    have committed : Over accounts (FedOf bytes bytes.length) (commitOutput prepared bytes) (CountedBy bytes) := by
      apply (Over.sliding (Reporting.commitStatus_each prepared)).bind
      intro result
      cases result with
      | error e => exact Over.pure fun _ => id
      | ok _ => exact recordProcessed_over bytes
    apply committed.bind
    intro result
    cases result with
    | error error => exact abandonOutput_over bytes _ error
    | ok _ => exact (publishOutput_over bytes effects).weaken fun _ _ free => free.rest

/-- A dequeued chunk is fed, counted and journaled, put back, or put back with the
projection failed. -/
theorem applyOutput_over (bytes : Bytes) :
    Over accounts (FedOf bytes 0) (applyOutput bytes) fun _ c => c.account.Rest := by
  refine Over.glance.bind fun limit => Over.input.bind fun scan => Over.input.bind fun record =>
    Over.input.bind fun reply => ?_
  refine Over.bind (G := fun result c => FedOf bytes 0 c ∧
    ∀ prepared, result = .ok prepared → ∃ store : ProgramStatusStore,
      store.scan bytes = .ok prepared.plan) (Over.seen fun c _ _ holds => ?_) fun result => ?_
  · exact ⟨holds, fun prepared accepted => prepareStatus_ok accepted⟩
  rcases result with (_ | error) | prepared
  · refine ((requeue_over rfl []).strengthen fun _ holds => holds.1.1).bind fun _ => Over.pure fun _ free => ?_
    exact Account.Free.rest free
  · exact (abandonOutput_over bytes 0 error).strengthen fun _ holds => holds.1
  · rintro c ⟨holds, accepted⟩
    obtain ⟨store, scanned⟩ := accepted prepared rfl
    obtain ⟨sorted, bounds⟩ := ProgramStatusStore.scan_queries scanned
    exact applyPrepared_over bytes _ prepared sorted (fun stop member => (bounds stop member).2) c holds

/-- The OS half of a resize starts, or the resize settles without an effect. -/
theorem startResize_over (size : TerminalSize) (ticket : TicketId) (generation : ControlGeneration) :
    Over accounts (fun c => c.account.Has (.resize size ticket) [] ∧ Next generation c.account)
      (startResize size ticket generation) fun _ c => c.account.Rest := by
  apply Over.input.bind
  intro a
  rcases a.resizing with error | ⟨⟩
  · refine (Over.sliding (Completing.completeTicket_each ticket (by simp [Gapless]))).bind fun _ =>
      Over.bind (G := fun _ c => c.account.Free) (Over.update fun c _ accounted holds => ?_) fun _ =>
        Over.pure fun _ free => free.rest
    obtain ⟨⟨⟨held, books⟩, -⟩, next⟩ := holds
    obtain ⟨kept, free⟩ := accounted.kept.settle
      (.resize size ticket generation (.error error) (.error (.process error))) held
      (fun ran same => by
        rw [← Option.some.inj same, ← books.counted]
        exact (ControlGeneration.next_eq_some.mp next).2)
      (by simp) c.account.resize c.account.processed
    obtain ⟨accounted, owed⟩ := accounted.still (rfl : ({ c with
      order := c.order.settle
        (.resize size ticket generation (.error error) (.error (.process error))) } : Coordinator).account = _)
      ⟨⟨rfl, rfl⟩, rfl, id, .refl c⟩ kept ⟨rfl, rfl, rfl⟩ (.inr ⟨rfl, rfl, rfl⟩)
    refine ⟨accounted, owed, ⟨held.resize, free.current, free.given⟩, ⟨?_, books.level, ?_⟩, books.closed⟩
    · refine books.counted.trans ?_
      simp [OrderLog.settle, Coordinator.account, successes, Settled.applied]
    · refine books.within.trans ?_
      simp [OrderLog.settle, Coordinator.account]
  · refine Over.bind (G := fun _ c => c.account.Rest) (Over.update fun c _ accounted holds => ?_) fun _ =>
      Over.pure fun _ => id
    obtain ⟨⟨⟨held, books⟩, -⟩, next⟩ := holds
    have kept := accounted.kept.advance held.current (some { size, generation, ticket })
      c.account.processed c.account.control
    obtain ⟨accounted, owed⟩ := accounted.still (rfl : ({ c with workspace := { c.workspace with
      resize := some { size, generation, ticket } } } : Coordinator).account = _)
      ⟨⟨rfl, rfl⟩, rfl, id, .refl c⟩ kept ⟨rfl, rfl, rfl⟩ (.inr ⟨rfl, rfl, rfl⟩)
    have books : ({ c with workspace := { c.workspace with
        resize := some { size, generation, ticket } } } : Coordinator).account.Books :=
      ⟨⟨books.counted, books.level, books.within⟩, books.closed⟩
    exact ⟨accounted, owed, books, .inr (.inr ⟨_, ⟨⟨rfl, held.current, held.given⟩, books⟩, next⟩)⟩

theorem applyResize_over (size : TerminalSize) (ticket : TicketId) :
    Over accounts (fun c => c.account.Has (.resize size ticket) []) (applyResize size ticket)
      fun _ c => c.account.Rest := by
  apply Over.glance.bind
  intro bound
  split
  · refine Over.bind (G := fun (status : ProjectionStatus) c => c.account.Has (.resize size ticket) [] ∧
      ∀ generation, status.controlGeneration.next = some generation → Next generation c.account)
      (Over.seen fun c _ _ has => ⟨has, fun _ => id⟩) fun status => ?_
    cases next : status.controlGeneration.next with
    | none =>
      refine Over.strengthen (F := fun c => c.account.Has (.resize size ticket) []) ?_ fun _ holds => holds.1
      exact (Over.sliding (Completing.completeTicket_each ticket (gapless_error _))).bind fun _ =>
        (fail_over _).bind fun _ => Over.pure fun _ holds => ⟨holds.1.1.2, .inl holds.2⟩
    | some generation =>
      exact (startResize_over size ticket generation).strengthen fun _ holds => ⟨holds.1, holds.2 generation rfl⟩
  · exact (requeue_over rfl []).bind fun _ => Over.pure fun _ free => Account.Free.rest free

/-- Both halves of a resize have answered, and the model was given what it settles with. -/
structure Answered (resize : Resizing) (os : Except ProcessError Unit) (model : Except ProjectionError Unit)
    (c : Coordinator) : Prop where
  holds : c.account.Holds (some resize) (some (.resize resize.size resize.ticket))
    (resize.settled os model).inputs
  books : c.account.Books
  next : Next resize.generation c.account
  effect : model = .ok () → os = .ok () ∧ Modelled c

instance (resize : Resizing) (os : Except ProcessError Unit) (model : Except ProjectionError Unit) :
    accounts.Steady (Answered resize os model) where
  keep {c c'} meddled answered := by
    constructor
    · exact Account.Lasting.keep meddled.1 answered.holds
    · exact Account.Lasting.keep meddled.1 answered.books
    · exact Account.Lasting.keep meddled.1 answered.next
    · intro done
      obtain ⟨ran, modelled⟩ := answered.effect done
      exact ⟨ran, Addition.Steady.keep meddled modelled⟩

theorem nativeCall_over {α : Type} {F : Coordinator → Prop} [accounts.Steady F]
    (answer : Answer → Option (Except TerminalError α)) :
    Over accounts F (nativeCall answer) fun result c => F c ∧ result ≠ .error .closed := by
  apply Over.input.bind
  intro a
  rcases answer a with _ | (error | value)
  · exact (fail_over _).bind fun _ => Over.pure fun _ holds => ⟨holds.1, by simp⟩
  · exact Over.pure fun _ holds => ⟨holds, by simp⟩
  · exact Over.pure fun _ holds => ⟨holds, by simp⟩

theorem inputs_error (resize : Resizing) (os : Unit) {error : ProjectionError} (other : error ≠ .closed) :
    (resize.settled (.ok os) (.error error)).inputs = [.resize resize.size resize.generation] := by
  cases error <;> first
    | rfl
    | exact absurd rfl other

theorem resizeModel_over (resize : Resizing) (os : Except ProcessError Unit) :
    Over accounts (fun c => c.account.Flying resize) (resizeModel resize os) (Answered resize os) := by
  cases os with
  | error error => exact Over.pure fun _ flying => ⟨flying.1.1, flying.1.2, flying.2, by simp⟩
  | ok ran =>
    refine Over.bind (G := fun (present : Bool) c => c.account.Flying resize ∧ (present = true → Modelled c))
      (Over.seen fun c _ _ flying => ⟨flying, id⟩) fun present => ?_
    split
    · rename_i present
      refine Over.bind (G := fun _ => Answered resize (.ok ran) (.ok ())) (Over.update
        fun c _ accounted holds => ?_) fun _ => (nativeCall_over _).weaken fun result c answered => ?_
      · obtain ⟨⟨⟨held, books⟩, next⟩, modelled⟩ := holds
        have numbered : resize.generation = ⟨successes c.account.log.settled + 1⟩ := by
          rw [← books.counted, ← (ControlGeneration.next_eq_some.mp next).2]
        obtain ⟨kept, held⟩ := accounted.kept.give held [.resize resize.size resize.generation]
          (.inr (by rw [numbered]; rfl))
        obtain ⟨accounted, owed⟩ := accounted.still (rfl : ({ c with
          order := c.order.give [.resize resize.size resize.generation] } : Coordinator).account = _)
          ⟨⟨rfl, rfl⟩, rfl, id, .refl c⟩ kept ⟨rfl, rfl, rfl⟩ (.inr ⟨rfl, rfl, rfl⟩)
        exact ⟨accounted, owed, held, ⟨⟨books.counted, books.level, books.within⟩, books.closed⟩, next,
          fun _ => ⟨rfl, modelled present⟩⟩
      · obtain ⟨answered, other⟩ := answered
        rcases result with error | _
        · have inputs := inputs_error resize ran fun same => other (congrArg _ same)
          exact ⟨inputs ▸ answered.holds, answered.books, answered.next, by simp⟩
        · exact answered
    · exact Over.pure fun _ holds => ⟨holds.1.1.1, holds.1.1.2, holds.1.2, by simp⟩

/-- A resize that one side refused settles without moving anything. -/
theorem Answered.settling {resize : Resizing} {os : Except ProcessError Unit}
    {model : Except ProjectionError Unit} (answered : Answered resize os model c)
    (refused : (resize.settled os model).applied = false)
    (down : ∀ ran error, os = .ok ran → model = .error error → c.account.Down) :
    c.account.Settling resize (resize.settled os model) := by
  constructor
  · exact answered.holds
  · intro generation ran
    rw [← Option.some.inj ran, ← answered.books.counted]
    exact (ControlGeneration.next_eq_some.mp answered.next).2
  · rw [answered.books.counted]
    simp [successes, refused]
  · exact answered.books.level
  · exact Nat.le_succ_of_le answered.books.within
  · exact answered.books.closed
  · intro size ticket generation ran error same
    obtain ⟨-, -, -, rfl, rfl⟩ := Settled.resize.inj same
    exact down ran error rfl rfl

/-- Counting a resize that both sides have applied is never refused. -/
theorem recordControlApplied_over (resize : Resizing) :
    Over accounts (Answered resize (.ok ()) (.ok ())) (recordControlApplied resize.generation)
      fun result c => result = .ok () ∧ c.account.Unjournaled resize ∧ Modelled c := by
  apply Over.lock
  intro c _ accounted answered
  have expected : ¬c.admission.policy.status.controlGeneration.next ≠ some resize.generation :=
    not_not.mpr answered.next
  have kept := accounted.kept.advance answered.holds.current c.account.resize c.account.processed
    resize.generation
  have counted := Account.Flying.count answered.holds answered.books answered.next
    (accounted.kept.held answered.holds.current).2
  have modelled := (answered.effect rfl).2
  simp only [Admission.recordControlApplied, Admission.withPolicy, ProjectionPolicy.recordControlApplied,
    if_neg expected]
  obtain ⟨accounted, owed⟩ := Reckoned.still (c := c) accounted (rfl : ({ c with
    admission := { c.admission with policy := { c.admission.policy with
      status := { c.admission.policy.status with
        controlGeneration := resize.generation } } } } : Coordinator).account = _)
    ⟨⟨rfl, rfl⟩, rfl, id, .refl c⟩ kept ⟨rfl, rfl, rfl⟩ (.inl modelled)
  exact ⟨accounted, owed, trivial, counted, modelled⟩

/-- A resize that is counted is journaled, unless the stream has ended. -/
theorem journalResize_over (leases : Nat → Bool) (resize : Resizing) :
    Over accounts (fun c => c.account.Unjournaled resize ∧ Modelled c)
      (onJournal (·.resized leases resize.size resize.generation))
      fun _ c => c.account.Settling resize (resize.settled (.ok ()) (.ok ())) := by
  apply Over.update
  rintro c _ accounted ⟨unjournaled, modelled⟩
  have kept := accounted.kept
  have still : Still c { c with journal := (c.journal.resized leases resize.size resize.generation).2 } :=
    ⟨⟨rfl, rfl⟩, rfl, id, append_observed c _ _ _⟩
  rcases append_account c leases (.resize resize.size resize.generation) none kept.available with
    ⟨ended, same⟩ | ⟨⟨unsealed, opened⟩, answered⟩
  · obtain ⟨accounted, owed⟩ := accounted.still same still kept ⟨rfl, rfl, rfl⟩ (.inl modelled)
    exact ⟨accounted, owed, same.symm ▸ unjournaled.skip ended⟩
  have level := unjournaled.next.resolve_left fun behind => by
    rcases behind.2 with sealed | shut
    · rw [unsealed] at sealed
      cases sealed
    · exact absurd (opened.symm.trans shut) (by decide)
  have room : c.account.boundary.cursor.sequence + 1 ≤ u64Max := by
    have held := kept.length_settled
    rw [unjournaled.holds.current] at held
    exact ((Nat.succ_le_succ unjournaled.within).trans held).trans kept.room.2
  have accepted := TransferOrder.resized_accepted (o := c.journal.order) ⟨opened, kept.available⟩ unsealed
    level.2 room
  rcases answered with ⟨error, refused⟩ | ⟨after, advanced, became⟩
  · cases refused.symm.trans accepted
  · obtain rfl := Except.ok.inj (advanced.symm.trans accepted)
    obtain ⟨accounted, owed⟩ := accounted.still became still (kept.write _) ⟨rfl, rfl, rfl⟩ (.inl modelled)
    exact ⟨accounted, owed, became.symm ▸ unjournaled.write level.1⟩

theorem settleModel_over (resize : Resizing) (os : Except ProcessError Unit)
    (model : Except ProjectionError Unit) :
    Over accounts (Answered resize os model) (settleModel resize os model)
      fun _ c => c.account.Settling resize (resize.settled os model) := by
  rcases model with error | _
  · cases os with
    | error refused =>
      exact Over.pure fun _ answered => answered.settling rfl fun _ _ same => by cases same
    | ok ran =>
      exact (fail_over error).weaken fun _ _ holds => holds.1.settling rfl fun _ _ _ _ => holds.2
  · cases os with
    | error refused => exact fun c answered => absurd (answered.effect rfl).1 (by simp)
    | ok ran =>
      refine (Over.sliding (Upholds.update fun c => ?_)).bind fun _ =>
        (recordControlApplied_over resize).bind fun result => ?_
      · exact slides_of_same rfl rfl rfl ⟨⟨rfl, rfl, .inl rfl⟩, .refl c⟩
      · cases result with
        | error error => exact fun c holds => absurd holds.1 (by simp)
        | ok _ =>
          exact Over.bind (Over.mono Over.input (fun _ holds => holds.2) fun _ _ => id) fun a =>
            journalResize_over a.leases resize

/-- However its two halves end, a resize settles and leaves nothing in flight. -/
theorem finishResize_over (resize : Resizing) (os : Except ProcessError Unit) :
    Over accounts (fun c => c.account.Flying resize) (finishResize resize os)
      fun _ c => c.account.Free := by
  refine (resizeModel_over resize os).bind fun model => (settleModel_over resize os model).bind fun _ =>
    (Over.sliding (Completing.completeTicket_each _ (by simp [Gapless]))).bind fun _ => Over.update ?_
  intro c _ accounted settling
  obtain ⟨kept, free⟩ := settling.free accounted.kept
  obtain ⟨accounted, owed⟩ := accounted.still (rfl : ({ c with
    workspace := { c.workspace with resize := none }
    order := c.order.settle (resize.settled os model) } : Coordinator).account = _)
    ⟨⟨rfl, rfl⟩, rfl, id, .refl c⟩ kept ⟨rfl, rfl, rfl⟩ (.inr ⟨rfl, rfl, rfl⟩)
  exact ⟨accounted, owed, free⟩

end Coordinator
end PtyRuntime
