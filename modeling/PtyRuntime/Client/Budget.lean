import PtyRuntime.Client.FrameLaws
import PtyRuntime.Client.Mirror

/-! Which encodings end. A pass restarts the table when its styles do not fit, and the
passes after a restart all start from a cleared table, so what one cleared table cannot
hold is encoded forever. -/
namespace PtyRuntime.Client

open StyleTable

namespace StyleTable

/-- The tables the server's operations lead to. -/
inductive Reached : StyleTable → Prop where
  | new : Reached {}
  | beginEncode {t : StyleTable} (reached : Reached t) : Reached t.beginEncode
  | intern {t : StyleTable} (reached : Reached t) (style : TerminalStyle)
    (palette : TerminalPalette) : Reached (t.intern style palette).2
  | takeRestarted {t : StyleTable} (reached : Reached t) : Reached t.takeRestarted.2
  | takePending {t : StyleTable} (reached : Reached t) : Reached t.takePending.2
  | clear {t : StyleTable} (reached : Reached t) : Reached t.clear

theorem intern_sound {t : StyleTable} (sound : t.Sound) (style : TerminalStyle)
    (palette : TerminalPalette) : (t.intern style palette).2.Sound := by
  rcases intern_cases sound style palette with ⟨_, -, interned, -⟩ | ⟨visible, fresh, full, -⟩
  · exact interned
  · have missing : t.ids.lookup (StyleKey.of style palette) = none := by
      cases found : t.ids.lookup (StyleKey.of style palette) with
      | none => rfl
      | some id => exact absurd (List.mem_map_of_mem (mem_keys_of_lookup found)) fresh
    simp only [intern, visible, missing, full, if_false, if_true]
    split
    · exact sound
    · exact (allocate_grows (sound_empty [] true true) List.not_mem_nil (by decide)).2

theorem Reached.sound {t : StyleTable} (reached : t.Reached) : t.Sound := by
  induction reached with
  | new => exact sound_empty [] false false
  | beginEncode _ ih => exact ih.beginEncode
  | intern _ style palette ih => exact intern_sound ih style palette
  | takeRestarted _ ih => exact ⟨ih.numbered, ih.distinct, ih.bounded⟩
  | takePending _ ih => exact ⟨ih.numbered, ih.distinct, ih.bounded⟩
  | clear => exact sound_empty [] false false

end StyleTable

/-- The wire shows the cells, those of a style that a full table has no entry for with the
default style. -/
def Mapped (t : StyleTable) (palette : TerminalPalette) (cells : List TerminalCell)
    (line : List WireCell) : Prop :=
  List.Forall₂ (fun cell wire => wire.1 = cell.text ∧ wire.2.1 = cell.width ∧
    (t.Names (StyleKey.of cell.style palette) wire.2.2 ∨
      wire.2.2 = 0 ∧ styleCap ≤ t.ids.length ∧ StyleKey.of cell.style palette ∉ t.keys)) cells line

theorem Shown.mapped {t : StyleTable} {palette : TerminalPalette} {cells : List TerminalCell}
    {line : List WireCell} (shown : Shown t palette cells line) : Mapped t palette cells line :=
  shown.imp fun _ _ cell => ⟨cell.1, cell.2.1, .inl cell.2.2⟩

/-- The cells of each row of a history that a pass encodes. -/
def TerminalHistory.rows (history : TerminalHistory) : List (List TerminalCell) :=
  if 0 < history.cols then chunks history.cols history.cells.length history.cells else []

/-- A pass without a restart shows every row in its final table. -/
theorem encodeChunks_shown {palette : TerminalPalette} {y : Nat} {rows : List (List TerminalCell)}
    {t : StyleTable} (sound : t.Sound) (uncapped : t.capped = false)
    (kept : (encodeChunks palette y rows t).2.restarted = false) :
    List.Forall₂ (fun cells row => Shown (encodeChunks palette y rows t).2 palette cells row.cells)
      rows (encodeChunks palette y rows t).1 := by
  induction rows generalizing y t with
  | nil => exact .nil
  | cons cells rest ih =>
    simp only [encodeChunks] at kept ⊢
    have table := encodeChunks_table palette (y + 1) rest (encodeCells palette cells t).2
    have unmarked : (encodeCells palette cells t).2.restarted = false := by
      by_contra marked
      rw [table, encodeCells_restarted (Bool.eq_true_of_not_eq_false marked)] at kept
      cases kept
    obtain ⟨first, grown, encoded, shown, -⟩ := encodeCells_grows sound uncapped unmarked
    have uncapped' := grown.capped.trans uncapped
    obtain ⟨second, later, -⟩ := encodeCells_grows encoded uncapped' (table ▸ kept)
    exact .cons (shown.grow (table ▸ later.ids)) (ih encoded uncapped' kept)

/-- The read ends, within the cap, with every row mapped. -/
def HistoryEncodes (history : TerminalHistory) (palette : TerminalPalette) (t : StyleTable) : Prop :=
  ∃ passes rows fresh reset t', encodeHistory history palette passes t false =
      some (rows, fresh, reset, t') ∧ t'.ids.length ≤ styleCap ∧
    List.Forall₂ (fun cells row => Mapped t' palette cells row.cells)
      (TerminalHistory.rows history) rows

/-- What one pass over a fitting read returns. -/
theorem encodeHistory_kept {history : TerminalHistory} {palette : TerminalPalette} {t : StyleTable}
    (kept : (encodeHistoryPass history palette t.beginEncode).2.restarted = false) (passes : Nat)
    (reset : Bool) :
    encodeHistory history palette (passes + 1) t reset =
      some ((encodeHistoryPass history palette t.beginEncode).1,
        (encodeHistoryPass history palette t.beginEncode).2.pending, reset,
        { (encodeHistoryPass history palette t.beginEncode).2 with
          restarted := false, pending := [] }) := by
  simp only [encodeHistory, takeRestarted, kept, takePending]

theorem encodeHistoryPass_shown {history : TerminalHistory} {palette : TerminalPalette}
    {t : StyleTable} (sound : t.Sound)
    (kept : (encodeHistoryPass history palette t.beginEncode).2.restarted = false) :
    List.Forall₂ (fun cells row => Shown (encodeHistoryPass history palette t.beginEncode).2 palette
      cells row.cells) (TerminalHistory.rows history)
      (encodeHistoryPass history palette t.beginEncode).1 := by
  unfold encodeHistoryPass TerminalHistory.rows at *
  split
  · rename_i positive
    simp only [positive, if_true] at kept
    exact encodeChunks_shown sound.beginEncode rfl kept
  · exact .nil

theorem encodeHistory_mapped {history : TerminalHistory} {palette : TerminalPalette}
    {t : StyleTable} (sound : t.Sound) (fits : HistoryFits history palette t) (reset : Bool) :
    ∃ rows fresh t', encodeHistory history palette 1 t reset = some (rows, fresh, reset, t') ∧
      t'.ids.length ≤ styleCap ∧
      List.Forall₂ (fun cells row => Mapped t' palette cells row.cells)
        (TerminalHistory.rows history) rows := by
  have kept := (encodeHistoryPass_kept_iff sound).mpr fits
  have unmarked := kept
  rw [encodeHistoryPass_table] at unmarked
  obtain ⟨_, -, encoded, -⟩ := encodeCells_grows sound.beginEncode rfl unmarked
  rw [← encodeHistoryPass_table] at encoded
  refine ⟨_, _, _, encodeHistory_kept kept 0 reset, encoded.bounded, ?_⟩
  exact (encodeHistoryPass_shown sound kept).imp fun _ _ shown => Shown.mapped shown

/-- A read ends exactly when a table of its own could hold its styles. -/
theorem historyEncodes_iff {t : StyleTable} (sound : t.Sound) (history : TerminalHistory)
    (palette : TerminalPalette) : HistoryEncodes history palette t ↔
      (wanted palette (TerminalHistory.shown history)).card ≤ styleCap := by
  constructor
  · rintro ⟨passes, rows, fresh, reset, t', ended, -⟩
    by_contra large
    rw [encodeHistory_diverges sound (Nat.lt_of_not_le large)] at ended
    cases ended
  · intro budget
    by_cases fits : HistoryFits history palette t
    · obtain ⟨rows, fresh, t', ended, rest⟩ := encodeHistory_mapped sound fits false
      exact ⟨1, rows, fresh, false, t', ended, rest⟩
    · have empty : HistoryFits history palette {} := by
        rw [HistoryFits]
        change (∅ ∪ _ : Finset StyleKey).card ≤ styleCap
        rwa [Finset.empty_union]
      obtain ⟨rows, fresh, t', ended, rest⟩ :=
        encodeHistory_mapped (sound_empty [] false false) empty true
      exact ⟨2, rows, fresh, true, t', (encodeHistory_overflows sound fits 1 false).trans ended, rest⟩

/-- The cells of the rows that differ from what is remembered of the screen. -/
def changedCells (view : TerminalView) (ys : List Nat) (rows : List (List TerminalCell)) :
    List TerminalCell :=
  (ys.filter fun y => rows[y]? ≠ some (screenRow view y)).flatMap (screenRow view)

/-- A pass encodes the cells that changed. -/
theorem encodeChanged_cells {view : TerminalView} {ys : List Nat} (distinct : ys.Nodup)
    (inside : ∀ y ∈ ys, y < view.size.rows) (rows : List (List TerminalCell)) (t : StyleTable) :
    (encodeChanged view ys rows t).2.2 =
      (encodeCells view.palette (changedCells view ys rows) t).2 := by
  induction ys generalizing rows t with
  | nil => rfl
  | cons y rest ih =>
    rw [List.nodup_cons] at distinct
    rw [List.forall_mem_cons] at inside
    rw [encodeChanged, viewRow_eq view inside.1]
    by_cases same : rows[y]? = some (screenRow view y)
    · simp only [same, if_true]
      rw [ih distinct.2 inside.2, changedCells, changedCells, List.filter_cons_of_neg (by simpa using same)]
    · simp only [same, if_false]
      have others : rest.filter (fun other => (rows.set y (screenRow view y))[other]? ≠
            some (screenRow view other)) =
          rest.filter fun other => rows[other]? ≠ some (screenRow view other) := by
        refine List.filter_congr fun other later => ?_
        have apart : y ≠ other := fun here => distinct.1 (by rw [here]; exact later)
        rw [List.getElem?_set_ne apart]
      rw [ih distinct.2 inside.2, changedCells, changedCells, others,
        List.filter_cons_of_pos (by simpa using same), List.flatMap_cons, encodeCells_append]

/-- The rows of a screen are all its cells. -/
theorem screenRows_flatten (view : TerminalView) (n : Nat) :
    (List.range n).flatMap (screenRow view) = view.cells.take (n * view.size.cols) := by
  induction n with
  | zero => simp
  | succ n ih =>
    rw [List.range_succ, List.flatMap_append, ih, List.flatMap_cons, List.flatMap_nil,
      List.append_nil, screenRow, ← List.take_add, Nat.succ_mul]

/-- Against a forgotten screen every cell changed. -/
theorem changedCells_blank (view : TerminalView) :
    changedCells view (List.range view.size.rows) (List.replicate view.size.rows []) = view.cells := by
  have all : (List.range view.size.rows).filter (fun y =>
      (List.replicate view.size.rows ([] : List TerminalCell))[y]? ≠ some (screenRow view y)) =
        List.range view.size.rows := by
    refine List.filter_eq_self.mpr fun y member => ?_
    rw [List.mem_range] at member
    rw [List.getElem?_replicate_of_lt member]
    simpa using (screenRow_ne_nil view member).symm
  rw [changedCells, all, screenRows_flatten, Nat.mul_comm, ← view.complete, List.take_length]

/-- The styles of the changed cells fit beside those of the table. -/
def FrameFits (view : TerminalView) (rows : List (List TerminalCell)) (t : StyleTable) : Prop :=
  (t.keys.toFinset ∪ wanted view.palette
    (changedCells view (List.range view.size.rows) rows)).card ≤ styleCap

theorem frameFits_blank (view : TerminalView) :
    FrameFits view (List.replicate view.size.rows []) {} ↔
      (wanted view.palette view.cells).card ≤ styleCap := by
  rw [FrameFits, changedCells_blank]
  change (∅ ∪ _ : Finset StyleKey).card ≤ styleCap ↔ _
  rw [Finset.empty_union]

theorem encodeChanged_kept_iff {view : TerminalView} {rows : List (List TerminalCell)}
    {t : StyleTable} (sound : t.Sound) :
    (encodeChanged view (List.range view.size.rows) rows t.beginEncode).2.2.restarted = false ↔
      FrameFits view rows t := by
  rw [encodeChanged_cells List.nodup_range fun y => List.mem_range.mp]
  exact encodeCells_kept_iff sound.beginEncode rfl rfl

/-- A pass without a restart shows every row it sends in its final table. -/
theorem encodeChanged_shown {view : TerminalView} {ys : List Nat} (distinct : ys.Nodup)
    (inside : ∀ y ∈ ys, y < view.size.rows) {rows : List (List TerminalCell)} {t : StyleTable}
    (sound : t.Sound) (uncapped : t.capped = false)
    (kept : (encodeChanged view ys rows t).2.2.restarted = false) :
    ∀ row ∈ (encodeChanged view ys rows t).1, row.y ∈ ys ∧
      Shown (encodeChanged view ys rows t).2.2 view.palette (screenRow view row.y) row.cells := by
  induction ys generalizing rows t with
  | nil => exact fun row member => absurd member List.not_mem_nil
  | cons y rest ih =>
    rw [List.nodup_cons] at distinct
    rw [List.forall_mem_cons] at inside
    rw [encodeChanged, viewRow_eq view inside.1] at kept ⊢
    by_cases same : rows[y]? = some (screenRow view y)
    · simp only [same, if_true] at kept ⊢
      intro row member
      obtain ⟨among, shown⟩ := ih distinct.2 inside.2 sound uncapped kept row member
      exact ⟨List.mem_cons_of_mem _ among, shown⟩
    · simp only [same, if_false] at kept ⊢
      have table := encodeChanged_cells distinct.2 inside.2 (rows.set y (screenRow view y))
        (encodeCells view.palette (screenRow view y) t).2
      have unmarked : (encodeCells view.palette (screenRow view y) t).2.restarted = false := by
        by_contra marked
        rw [table, encodeCells_restarted (Bool.eq_true_of_not_eq_false marked)] at kept
        cases kept
      obtain ⟨first, grown, encoded, shown, -⟩ := encodeCells_grows sound uncapped unmarked
      have uncapped' := grown.capped.trans uncapped
      obtain ⟨second, later, -⟩ := encodeCells_grows encoded uncapped' (table ▸ kept)
      intro row member
      rcases List.mem_cons.mp member with rfl | after
      · exact ⟨List.mem_cons_self, shown.grow (table ▸ later.ids)⟩
      · obtain ⟨among, shown⟩ := ih distinct.2 inside.2 encoded uncapped' kept row after
        exact ⟨List.mem_cons_of_mem _ among, shown⟩

/-- What one pass over a screen that fits returns. -/
theorem encodeFrame_kept {view : TerminalView} {rows : List (List TerminalCell)} {t : StyleTable}
    (sound : t.Sound) (fits : FrameFits view rows t) (reset : Bool) :
    ∃ changed rows' t', encodeFrame view 1 rows t reset = some (changed, rows', t', reset) ∧
      t'.ids.length ≤ styleCap ∧ ∀ row ∈ changed, row.y < view.size.rows ∧
        Mapped t' view.palette (screenRow view row.y) row.cells := by
  have kept := (encodeChanged_kept_iff sound).mpr fits
  have within : ∀ y ∈ List.range view.size.rows, y < view.size.rows := fun y => List.mem_range.mp
  have unmarked := kept
  rw [encodeChanged_cells List.nodup_range within] at unmarked
  obtain ⟨_, -, encoded, -⟩ := encodeCells_grows sound.beginEncode rfl unmarked
  rw [← encodeChanged_cells List.nodup_range within] at encoded
  have shown := encodeChanged_shown List.nodup_range within sound.beginEncode rfl kept
  generalize passed : encodeChanged view (List.range view.size.rows) rows t.beginEncode = pass
    at kept encoded shown
  refine ⟨pass.1, pass.2.1, { pass.2.2 with restarted := false }, ?_, encoded.bounded,
    fun row member => ⟨within row.y (shown row member).1, (shown row member).2.mapped⟩⟩
  simp only [encodeFrame, passed, takeRestarted, kept]

theorem encodeFrame_overflows {view : TerminalView} {rows : List (List TerminalCell)}
    {t : StyleTable} (sound : t.Sound) (large : ¬FrameFits view rows t) (passes : Nat)
    (reset : Bool) : encodeFrame view (passes + 1) rows t reset =
      encodeFrame view passes (List.replicate view.size.rows []) {} true := by
  have restarted :
      (encodeChanged view (List.range view.size.rows) rows t.beginEncode).2.2.restarted = true := by
    by_contra kept
    exact large ((encodeChanged_kept_iff sound).mp (Bool.eq_false_iff.mpr kept))
  simp only [encodeFrame, takeRestarted, restarted]
  rfl

/-- A screen with more styles than a cleared table has room for is encoded forever. -/
theorem encodeFrame_diverges {view : TerminalView}
    (large : ¬(wanted view.palette view.cells).card ≤ styleCap) {rows : List (List TerminalCell)}
    {t : StyleTable} (sound : t.Sound) (overflows : ¬FrameFits view rows t) (passes : Nat)
    (reset : Bool) : encodeFrame view passes rows t reset = none := by
  induction passes generalizing rows t reset with
  | zero => rfl
  | succ passes ih =>
    rw [encodeFrame_overflows sound overflows]
    exact ih (sound_empty [] false false) (fun fits => large ((frameFits_blank view).mp fits)) true

/-- The encoding loop ends when the changed cells fit the table, or all cells one of
their own. -/
theorem encodeFrame_ends {view : TerminalView} {rows : List (List TerminalCell)} {t : StyleTable}
    (sound : t.Sound)
    (budget : (wanted view.palette view.cells).card ≤ styleCap ∨ FrameFits view rows t) :
    ∃ passes changed rows' t' reset,
      encodeFrame view passes rows t false = some (changed, rows', t', reset) ∧
      t'.ids.length ≤ styleCap ∧ ∀ row ∈ changed, row.y < view.size.rows ∧
        Mapped t' view.palette (screenRow view row.y) row.cells := by
  by_cases fits : FrameFits view rows t
  · obtain ⟨changed, rows', t', ended, rest⟩ := encodeFrame_kept sound fits false
    exact ⟨1, changed, rows', t', false, ended, rest⟩
  · have blank := (frameFits_blank view).mpr (budget.resolve_right fits)
    obtain ⟨changed, rows', t', ended, rest⟩ :=
      encodeFrame_kept (sound_empty [] false false) blank true
    exact ⟨2, changed, rows', t', true, (encodeFrame_overflows sound fits 1 false).trans ended, rest⟩

/-- Where the encoding loop of a diff starts: the rows remembered and the table. -/
theorem diff_starts (sent : Sent) (view : TerminalView) (t : StyleTable) :
    let announced := sent.announce view t
    let rows := ((announced.2.1.announceModes view).2.fitRows view).rows
    (sent.palette = some (WirePalette.of view.palette) ∧
        sent.size = some (view.size.cols, view.size.rows) ∧
        rows = (sent.fitRows view).rows ∧ announced.2.2 = t) ∨
      (¬(sent.palette = some (WirePalette.of view.palette) ∧
        sent.size = some (view.size.cols, view.size.rows)) ∧
        rows = List.replicate view.size.rows [] ∧ announced.2.2 = {}) := by
  have modes (sent : Sent) : ((sent.announceModes view).2.fitRows view).rows = (sent.fitRows view).rows := by
    unfold Sent.announceModes
    split
    · simp only [Sent.fitRows]
      split <;> rfl
    · rfl
  simp only [modes, Sent.announce]
  split
  · rename_i changed
    right
    refine ⟨by rwa [not_and_or], ?_, rfl⟩
    have tall : 0 ≠ view.size.rows := (Nat.pos_iff_ne_zero.mp view.size.positive.2).symm
    simp only [Sent.fitRows, List.length_nil]
    rw [if_pos (.inl tall)]
  · rename_i same
    rw [not_or, not_not, not_not] at same
    exact .inl ⟨same.1, same.2, rfl, rfl⟩

/-- A diff ends with its encoding loop, and its frame has the changed rows. -/
theorem diff_some {passes : Nat} {sent : Sent} {view : TerminalView} {t t' : StyleTable}
    {changed : List Row} {rows' : List (List TerminalCell)} {reset : Bool}
    (encoded : encodeFrame view passes
      (((sent.announce view t).2.1.announceModes view).2.fitRows view).rows
      (sent.announce view t).2.2 false = some (changed, rows', t', reset)) (total scrollback : Nat) :
    ∃ messages sent', sent.diff passes view t total scrollback =
        some (messages, sent', t'.takePending.2) ∧
      ∀ seq cursor rows total scrollback,
        ServerMessage.frame seq cursor rows total scrollback ∈ messages → rows = changed := by
  simp only [Sent.diff, encoded]
  refine ⟨_, _, rfl, fun seq cursor rows total' scrollback' member => ?_⟩
  simp only [List.mem_append] at member
  rcases member with (((ready | modes) | again) | fresh) | frame
  · simp only [Sent.announce] at ready
    split at ready <;> simp at ready
  · simp only [Sent.announceModes] at modes
    split at modes <;> simp at modes
  · split at again <;> simp at again
  · split at fresh <;> simp at fresh
  · simp only [Sent.finish] at frame
    split at frame
    · rw [List.mem_singleton] at frame
      injection frame
    · cases frame

/-- The diff ends, within the cap, with every row of its frame mapped. -/
def FrameEncodes (sent : Sent) (view : TerminalView) (t : StyleTable) (total scrollback : Nat) :
    Prop :=
  ∃ passes messages sent' t', sent.diff passes view t total scrollback =
      some (messages, sent', t') ∧ t'.ids.length ≤ styleCap ∧
    ∀ seq cursor rows total scrollback,
      ServerMessage.frame seq cursor rows total scrollback ∈ messages →
        ∀ row ∈ rows, row.y < view.size.rows ∧
          Mapped t' view.palette (screenRow view row.y) row.cells

/-- A table of its own could hold the screen's styles; or the client was told the same
geometry and palette, and the styles of the rows to send fit beside those of the table. -/
def FrameBudget (sent : Sent) (view : TerminalView) (t : StyleTable) : Prop :=
  (wanted view.palette view.cells).card ≤ styleCap ∨
    sent.palette = some (WirePalette.of view.palette) ∧
      sent.size = some (view.size.cols, view.size.rows) ∧
      FrameFits view (sent.fitRows view).rows t

theorem frameEncodes_iff {t : StyleTable} (sound : t.Sound) (sent : Sent) (view : TerminalView)
    (total scrollback : Nat) :
    FrameEncodes sent view t total scrollback ↔ FrameBudget sent view t := by
  have starts := diff_starts sent view t
  dsimp only at starts
  have encodes : FrameEncodes sent view t total scrollback ↔
      (wanted view.palette view.cells).card ≤ styleCap ∨
        FrameFits view (((sent.announce view t).2.1.announceModes view).2.fitRows view).rows
          (sent.announce view t).2.2 := by
    have start : (sent.announce view t).2.2.Sound := by
      rcases starts with ⟨-, -, -, same⟩ | ⟨-, -, cleared⟩
      · rw [same]
        exact sound
      · rw [cleared]
        exact sound_empty [] false false
    constructor
    · rintro ⟨passes, messages, sent', t', ended, -⟩
      by_contra neither
      rw [not_or] at neither
      simp only [Sent.diff, encodeFrame_diverges neither.1 start neither.2] at ended
      cases ended
    · intro budget
      obtain ⟨passes, changed, rows', t', reset, ended, bounded, mapped⟩ :=
        encodeFrame_ends start budget
      obtain ⟨messages, sent', whole, frames⟩ := diff_some ended total scrollback
      refine ⟨passes, messages, sent', _, whole, bounded, ?_⟩
      intro seq cursor rows total scrollback member row inside
      rw [frames _ _ _ _ _ member] at inside
      exact mapped row inside
  rw [encodes, FrameBudget]
  rcases starts with ⟨palette, size, rows, table⟩ | ⟨other, rows, table⟩
  · rw [rows, table]
    simp only [palette, size, true_and]
  · rw [rows, table, frameFits_blank, or_self]
    constructor
    · exact .inl
    · rintro (whole | ⟨palette, size, -⟩)
      · exact whole
      · exact absurd ⟨palette, size⟩ other

/-- From every table the server can have, no operation passes the cap; but a read ends
only when an empty table could hold its styles, and a diff only when that holds of the
screen or the rows to send fit beside the table's styles. -/
theorem encodings_end_iff {t : StyleTable} (reached : t.Reached) :
    t.ids.length ≤ styleCap ∧
    (∀ history palette, HistoryEncodes history palette t ↔
      (wanted palette (TerminalHistory.shown history)).card ≤ styleCap) ∧
    ∀ sent view total scrollback,
      FrameEncodes sent view t total scrollback ↔ FrameBudget sent view t :=
  ⟨reached.sound.bounded, historyEncodes_iff reached.sound, frameEncodes_iff reached.sound⟩

/-- A read of 513 colors into a new table. -/
theorem encodings_end_iff_colors :
    HistoryEncodes (colors 513) boldCell.palette {} ↔
      (wanted boldCell.palette (TerminalHistory.shown (colors 513))).card ≤ styleCap :=
  (encodings_end_iff .new).2.1 (colors 513) boldCell.palette

/-- The read of 513 colors into a new table is never encoded. -/
theorem colors_never_encoded :
    StyleTable.Reached {} ∧
      ∀ passes, encodeHistory (colors 513) boldCell.palette passes {} false = none := by
  refine ⟨.new, fun passes => encodeHistory_diverges (sound_empty [] false false) ?_ passes false⟩
  rw [wanted_colors _ (by decide), card_colors (by decide)]
  decide

end PtyRuntime.Client
