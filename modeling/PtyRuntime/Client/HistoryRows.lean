import PtyRuntime.Client.Budget

/-! The rows of a history reply: every retained row is sent once, in order, and its
position is absolute as far as the wire's `u16` reaches. -/
namespace PtyRuntime.Client

open StyleTable

/-- The cells of a retained row. -/
def TerminalHistory.row (history : TerminalHistory) (i : Nat) : List TerminalCell :=
  (history.cells.drop (i * history.cols)).take history.cols

theorem chunks_whole {α : Type} {size : Nat} (positive : 0 < size) {fuel n : Nat} {items : List α}
    (whole : items.length = n * size) (enough : n ≤ fuel) :
    chunks size fuel items = (List.range n).map fun i => (items.drop (i * size)).take size := by
  induction n generalizing fuel items with
  | zero =>
    rw [Nat.zero_mul] at whole
    rw [List.length_eq_zero_iff.mp whole]
    cases fuel <;> rfl
  | succ n ih =>
    obtain ⟨fuel, rfl⟩ := Nat.exists_eq_succ_of_ne_zero (Nat.ne_of_gt (Nat.lt_of_lt_of_le n.succ_pos enough))
    have some : items ≠ [] := by
      rintro rfl
      have count : 0 < (n + 1) * size := Nat.mul_pos n.succ_pos positive
      rw [← whole] at count
      exact Nat.lt_irrefl 0 count
    have shorter : (items.drop size).length = n * size := by
      rw [List.length_drop, whole, Nat.succ_mul, Nat.add_sub_cancel]
    have split : chunks size (fuel + 1) items = items.take size :: chunks size fuel (items.drop size) := by
      obtain ⟨item, rest, rfl⟩ := List.exists_cons_of_ne_nil some
      rfl
    rw [split, ih shorter (Nat.le_of_succ_le_succ enough), List.range_succ_eq_map, List.map_cons,
      List.map_map, Nat.zero_mul, List.drop_zero]
    refine congrArg _ (List.map_congr_left fun i _ => ?_)
    rw [Function.comp_apply, List.drop_drop, Nat.succ_mul, Nat.add_comm]

/-- What the source's chunks are when the cells are whole rows. -/
theorem TerminalHistory.rows_eq {history : TerminalHistory} (positive : 0 < history.cols)
    (whole : history.cols ∣ history.cells.length) :
    TerminalHistory.rows history =
      (List.range (history.cells.length / history.cols)).map (TerminalHistory.row history) := by
  rw [TerminalHistory.rows, if_pos positive]
  exact chunks_whole positive (Nat.div_mul_cancel whole).symm (Nat.div_le_self _ _)

/-- Positions as the wire has them. -/
theorem encodeChunks_y (palette : TerminalPalette) (y : Nat) (rows : List (List TerminalCell))
    (t : StyleTable) :
    (encodeChunks palette y rows t).1.map (·.y) =
      (List.range' y rows.length).map fun position => min (position % 2 ^ 64) 65535 := by
  induction rows generalizing y t with
  | nil => rfl
  | cons cells rest ih =>
    rw [List.length_cons, List.range'_succ, List.map_cons, ← ih (y + 1) (encodeCells palette cells t).2]
    rfl

/-- What a reply is built from: the pass that did without a restart. -/
theorem encodeHistory_final {history : TerminalHistory} {palette : TerminalPalette} {passes : Nat}
    {t t' : StyleTable} {reset reset' : Bool} {rows : List Row} {fresh : List WireStyle}
    (sound : t.Sound)
    (ended : encodeHistory history palette passes t reset = some (rows, fresh, reset', t')) :
    ∃ start : StyleTable, start.Sound ∧
      (encodeHistoryPass history palette start.beginEncode).2.restarted = false ∧
      rows = (encodeHistoryPass history palette start.beginEncode).1 ∧
      t'.ids = (encodeHistoryPass history palette start.beginEncode).2.ids := by
  induction passes generalizing t reset with
  | zero => cases ended
  | succ passes ih =>
    by_cases fits : HistoryFits history palette t
    · have kept := (encodeHistoryPass_kept_iff sound).mpr fits
      rw [encodeHistory_kept kept] at ended
      obtain ⟨rfl, -, -, rfl⟩ : _ ∧ _ ∧ _ ∧ _ := by simpa only [Option.some.injEq, Prod.mk.injEq] using ended
      exact ⟨t, sound, kept, rfl, rfl⟩
    · rw [encodeHistory_overflows sound fits] at ended
      exact ih (sound_empty [] false false) ended

/-- Every retained row has one row of the reply, in order, with its cells and its
absolute position. -/
structure Placed (history : TerminalHistory) (palette : TerminalPalette) (t : StyleTable)
    (rows : List Row) : Prop where
  shown : List.Forall₂ (fun i row => Shown t palette (TerminalHistory.row history i) row.cells)
    (List.range (history.cells.length / history.cols)) rows
  positions : rows.map (·.y) =
    List.range' history.start (history.cells.length / history.cols)

/-- A position survives the wire exactly when a `u16` holds it. -/
theorem positions_iff (start n : Nat) :
    (List.range' start n).map (fun position => min (position % 2 ^ 64) 65535) = List.range' start n ↔
      n = 0 ∨ start + n ≤ 65536 := by
  conv_lhs => rhs; rw [← List.map_id (List.range' start n)]
  rw [List.map_inj_left]
  simp only [id]
  constructor
  · intro same
    rcases Nat.eq_zero_or_pos n with none | some
    · exact .inl none
    · have last := same (start + (n - 1)) (List.mem_range'_1.mpr (by omega))
      omega
  · rintro (rfl | small) position member
    · cases member
    · have bounds := List.mem_range'_1.mp member
      omega

/-- Whenever a read ends its rows are sent in order with their cells; their positions are
absolute exactly when the last of them fits the wire. -/
theorem history_rows_placed_iff {history : TerminalHistory} {palette : TerminalPalette}
    {t t' : StyleTable} {passes : Nat} {rows : List Row} {fresh : List WireStyle} {reset : Bool}
    (reached : t.Reached) (positive : 0 < history.cols)
    (whole : history.cols ∣ history.cells.length)
    (ended : encodeHistory history palette passes t false = some (rows, fresh, reset, t')) :
    List.Forall₂ (fun i row => Shown t' palette (TerminalHistory.row history i) row.cells)
      (List.range (history.cells.length / history.cols)) rows ∧
    (Placed history palette t' rows ↔
      history.cells = [] ∨ history.start + history.cells.length / history.cols ≤ 65536) := by
  obtain ⟨start, sound, kept, rfl, ids⟩ := encodeHistory_final reached.sound ended
  have passShown := encodeHistoryPass_shown sound kept
  rw [TerminalHistory.rows_eq positive whole, List.forall₂_map_left_iff] at passShown
  have shown : List.Forall₂ (fun i row => Shown t' palette (TerminalHistory.row history i) row.cells)
      (List.range (history.cells.length / history.cols))
      (encodeHistoryPass history palette start.beginEncode).1 :=
    passShown.imp fun i row cells => cells.grow (ids.trans (List.append_nil _).symm)
  have numbered : (encodeHistoryPass history palette start.beginEncode).1.map (·.y) =
      (List.range' history.start (history.cells.length / history.cols)).map
        fun position => min (position % 2 ^ 64) 65535 := by
    have rows := TerminalHistory.rows_eq positive whole
    rw [TerminalHistory.rows, if_pos positive] at rows
    rw [encodeHistoryPass, if_pos positive, encodeChunks_y, rows, List.length_map, List.length_range]
  have none : history.cells.length / history.cols = 0 ↔ history.cells = [] := by
    rw [Nat.div_eq_zero_iff, ← List.length_eq_zero_iff]
    rcases Nat.eq_zero_or_pos history.cells.length with empty | some
    · omega
    · have := Nat.le_of_dvd some whole
      omega
  refine ⟨shown, ?_⟩
  rw [← none, ← positions_iff, ← numbered]
  exact ⟨fun placed => placed.positions, fun positions => ⟨shown, positions⟩⟩

/-- Two retained rows of one blank cell, the second past the last position of the wire. -/
def deepHistory : TerminalHistory where
  start := 65535
  cols := 1
  cells := [⟨" ", 1, {}⟩, ⟨" ", 1, {}⟩]
  total := 65537
  scrollback := 65536

theorem deepHistory_encoded : encodeHistory deepHistory boldCell.palette 1 {} false =
    some ([⟨65535, [(" ", 1, 0)]⟩, ⟨65535, [(" ", 1, 0)]⟩], [], false, {}) := rfl

theorem history_rows_placed_iff_deep :
    Placed deepHistory boldCell.palette {} [⟨65535, [(" ", 1, 0)]⟩, ⟨65535, [(" ", 1, 0)]⟩] ↔
      deepHistory.cells = [] ∨ deepHistory.start + deepHistory.cells.length / deepHistory.cols ≤ 65536 :=
  (history_rows_placed_iff .new (by decide) (by decide) deepHistory_encoded).2

/-- Both rows are sent with one position. -/
theorem deep_rows_collide :
    ∃ rows fresh reset t, encodeHistory deepHistory boldCell.palette 1 {} false =
        some (rows, fresh, reset, t) ∧
      rows.map (·.y) = [65535, 65535] ∧ ¬Placed deepHistory boldCell.palette t rows := by
  refine ⟨_, _, _, _, deepHistory_encoded, rfl, fun placed => ?_⟩
  exact absurd placed.positions (by decide)

end PtyRuntime.Client
