import PtyRuntime.Client.StyleLaws
import PtyRuntime.Client.Session

/-! One encoding pass over a screen: applied to the lines it was computed against, the
changed rows make every line show its row of the view. -/
namespace PtyRuntime.Client

open StyleTable

/-- One row of the view's cells. -/
def screenRow (view : TerminalView) (y : Nat) : List TerminalCell :=
  (view.cells.drop (y * view.size.cols)).take view.size.cols

theorem row_within (view : TerminalView) {y : Nat} (inside : y < view.size.rows) :
    y * view.size.cols + view.size.cols ≤ view.cells.length := by
  rw [view.complete, ← Nat.succ_mul, Nat.mul_comm view.size.cols]
  exact Nat.mul_le_mul_right _ inside

theorem viewRow_eq (view : TerminalView) {y : Nat} (inside : y < view.size.rows) :
    viewRow view y = some (screenRow view y) := by
  rw [viewRow, if_pos (row_within view inside)]
  rfl

theorem screenRow_length (view : TerminalView) {y : Nat} (inside : y < view.size.rows) :
    (screenRow view y).length = view.size.cols := by
  have bound := row_within view inside
  rw [screenRow, List.length_take, List.length_drop]
  omega

theorem screenRow_ne_nil (view : TerminalView) {y : Nat} (inside : y < view.size.rows) :
    screenRow view y ≠ [] := by
  intro empty
  have length := screenRow_length view inside
  rw [empty] at length
  have positive := view.size.positive.1
  simp at length
  omega

theorem screenRow_subset (view : TerminalView) (y : Nat) : screenRow view y ⊆ view.cells :=
  fun _ member => List.mem_of_mem_drop (List.mem_of_mem_take member)

theorem setLine_inside {lines : List (List WireCell)} {row : Row} (inside : row.y < lines.length) :
    Browser.setLine lines row = lines.set row.y row.cells := by
  rw [Browser.setLine, if_pos inside]

/-- A pass encodes some of the view's cells, in order. -/
theorem encodeChanged_table (view : TerminalView) (ys : List Nat)
    (rows : List (List TerminalCell)) (t : StyleTable) :
    ∃ cells, cells ⊆ view.cells ∧
      (encodeChanged view ys rows t).2.2 = (encodeCells view.palette cells t).2 := by
  induction ys generalizing rows t with
  | nil => exact ⟨[], List.nil_subset _, rfl⟩
  | cons y rest ih =>
    unfold encodeChanged
    cases found : viewRow view y with
    | none => exact ⟨[], List.nil_subset _, rfl⟩
    | some row =>
      have inside : row ⊆ view.cells := by
        unfold viewRow at found
        simp only at found
        split at found
        · cases found
          exact screenRow_subset view y
        · cases found
      simp only
      split
      · exact ih rows t
      · obtain ⟨cells, later, same⟩ := ih (rows.set y row) (encodeCells view.palette row t).2
        refine ⟨row ++ cells, List.append_subset.mpr ⟨inside, later⟩, ?_⟩
        rw [encodeCells_append]
        exact same

theorem wanted_mono {palette : TerminalPalette} {some all : List TerminalCell}
    (subset : some ⊆ all) : wanted palette some ⊆ wanted palette all := by
  intro key member
  obtain ⟨visible, cell, inside, same⟩ := mem_wanted.mp member
  exact mem_wanted.mpr ⟨visible, cell, subset inside, same⟩

/-- On a cleared table a screen within the cap is encoded without a restart. -/
theorem encodeChanged_fits {view : TerminalView}
    (fits : (wanted view.palette view.cells).card ≤ styleCap) (ys : List Nat)
    (rows : List (List TerminalCell)) :
    (encodeChanged view ys rows (beginEncode {})).2.2.restarted = false := by
  obtain ⟨cells, inside, same⟩ := encodeChanged_table view ys rows (beginEncode {})
  rw [same]
  exact encodeCells_fits (sound_empty [] false false) rfl (by simp [keys, beginEncode])
    (wanted_mono inside) fits

/-- What a pass leaves behind when it did not restart: it visited the rows `ys`. -/
structure Visited (view : TerminalView) (ys : List Nat) (rows rows' : List (List TerminalCell))
    (t' : StyleTable) (lines lines' : List (List WireCell)) : Prop where
  remembered : rows'.length = rows.length
  visited : ∀ y ∈ ys, rows'[y]? = some (screenRow view y)
  skipped : ∀ y, y ∉ ys → rows'[y]? = rows[y]? ∧ lines'[y]? = lines[y]?
  height : lines'.length = lines.length
  shown : ∀ y ∈ ys,
    (rows[y]? = some (screenRow view y) ∧ lines'[y]? = lines[y]?) ∨
      ∃ line, lines'[y]? = some line ∧ Shown t' view.palette (screenRow view y) line

theorem encodeChanged_visits {view : TerminalView} {ys : List Nat} (distinct : ys.Nodup)
    (inside : ∀ y ∈ ys, y < view.size.rows) {rows : List (List TerminalCell)}
    (tall : rows.length = view.size.rows) {lines : List (List WireCell)}
    (high : lines.length = view.size.rows) {t : StyleTable} (sound : t.Sound)
    (uncapped : t.capped = false) (kept : (encodeChanged view ys rows t).2.2.restarted = false) :
    ∃ added, t.Grows (encodeChanged view ys rows t).2.2 added ∧
      (encodeChanged view ys rows t).2.2.Sound ∧
      Visited view ys rows (encodeChanged view ys rows t).2.1 (encodeChanged view ys rows t).2.2
        lines ((encodeChanged view ys rows t).1.foldl Browser.setLine lines) := by
  induction ys generalizing rows lines t with
  | nil =>
    refine ⟨[], .refl t, sound, ?_⟩
    exact ⟨rfl, by simp, fun _ _ => ⟨rfl, rfl⟩, rfl, by simp⟩
  | cons y rest ih =>
    rw [List.nodup_cons] at distinct
    rw [List.forall_mem_cons] at inside
    have here := viewRow_eq view inside.1
    by_cases same : rows[y]? = some (screenRow view y)
    -- The row is remembered as it is: nothing is sent for it.
    · have unfolded : encodeChanged view (y :: rest) rows t = encodeChanged view rest rows t := by
        rw [encodeChanged, here]
        simp only [same, if_true]
      rw [unfolded] at kept ⊢
      obtain ⟨added, grows, encoded, visit⟩ :=
        ih distinct.2 inside.2 tall high sound uncapped kept
      refine ⟨added, grows, encoded, visit.remembered, ?_, ?_, visit.height, ?_⟩
      · intro other member
        rcases List.mem_cons.mp member with rfl | later
        · rw [(visit.skipped other distinct.1).1, same]
        · exact visit.visited other later
      · intro other absent
        exact visit.skipped other fun member => absent (List.mem_cons_of_mem _ member)
      · intro other member
        rcases List.mem_cons.mp member with rfl | later
        · exact .inl ⟨same, (visit.skipped other distinct.1).2⟩
        · exact visit.shown other later
    · have unfolded : encodeChanged view (y :: rest) rows t =
          (⟨y, (encodeCells view.palette (screenRow view y) t).1⟩ ::
            (encodeChanged view rest (rows.set y (screenRow view y))
              (encodeCells view.palette (screenRow view y) t).2).1,
            (encodeChanged view rest (rows.set y (screenRow view y))
              (encodeCells view.palette (screenRow view y) t).2).2) := by
        rw [encodeChanged, here]
        simp only [same, if_false]
      rw [unfolded] at kept ⊢
      simp only at kept ⊢
      have unmarked : (encodeCells view.palette (screenRow view y) t).2.restarted = false := by
        by_contra marked
        obtain ⟨cells, -, table⟩ := encodeChanged_table view rest
          (rows.set y (screenRow view y)) (encodeCells view.palette (screenRow view y) t).2
        rw [table, encodeCells_restarted (Bool.eq_true_of_not_eq_false marked)] at kept
        cases kept
      obtain ⟨first, grown, interned, shown, -⟩ := encodeCells_grows sound uncapped unmarked
      have narrow : (lines.set y (encodeCells view.palette (screenRow view y) t).1).length =
          view.size.rows := by
        rw [List.length_set, high]
      obtain ⟨second, grows, encoded, visit⟩ := ih distinct.2 inside.2
        (by rw [List.length_set, tall]) narrow interned (grown.capped.trans uncapped) kept
      rw [List.foldl_cons, setLine_inside (by rw [high]; exact inside.1)]
      refine ⟨first ++ second, grown.trans grows, encoded, ?_, ?_, ?_, ?_, ?_⟩
      · rw [visit.remembered, List.length_set]
      · intro other member
        rcases List.mem_cons.mp member with rfl | later
        · rw [(visit.skipped other distinct.1).1, List.getElem?_set_self (by rw [tall]; exact inside.1)]
        · exact visit.visited other later
      · intro other absent
        rw [List.mem_cons, not_or] at absent
        obtain ⟨row, line⟩ := visit.skipped other absent.2
        rw [row, line, List.getElem?_set_ne (Ne.symm absent.1), List.getElem?_set_ne (Ne.symm absent.1)]
        exact ⟨rfl, rfl⟩
      · rw [visit.height, List.length_set]
      · intro other member
        rcases List.mem_cons.mp member with rfl | later
        · refine .inr ⟨_, ?_, shown.grow grows.ids⟩
          rw [(visit.skipped other distinct.1).2,
            List.getElem?_set_self (by rw [high]; exact inside.1)]
        · have apart : other ≠ y := fun same => distinct.1 (same ▸ later)
          rcases visit.shown other later with ⟨row, line⟩ | shownLater
          · rw [List.getElem?_set_ne (Ne.symm apart)] at row line
            exact .inl ⟨row, line⟩
          · exact .inr shownLater

end PtyRuntime.Client
