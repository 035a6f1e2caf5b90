import PtyRuntime.Client.FrameLaws

/-! The browser's grid follows the screen: every push keeps the client's lines, its style
map and the server's memory of them in step, as long as no history read restarts the
shared style table. -/
namespace PtyRuntime.Client

open StyleTable

/-- The grid of the browser is the view, cell by cell. -/
structure Browser.Mirrors (b : Browser) (view : TerminalView) : Prop where
  cols : b.cols = view.size.cols
  rows : b.rows = view.size.rows
  height : b.lines.length = view.size.rows
  cells : ∀ y < view.size.rows, ∃ cells, b.lines[y]? = some cells ∧
    cells.length = view.size.cols ∧
    ∀ x < view.size.cols, ∃ cell wire, view.cells[y * view.size.cols + x]? = some cell ∧
      cells[x]? = some wire ∧ wire.1 = cell.text ∧ wire.2.1 = cell.width ∧
      b.style wire.2.2 = some (StyleKey.of cell.style view.palette)

/-- The client knows every style of the table, and all of them were sent. -/
structure Known (t : StyleTable) (b : Browser) : Prop where
  sound : t.Sound
  settled : t.pending = []
  styles : ∀ entry ∈ t.ids, b.styles.get? entry.2 = some ⟨entry.2, entry.1⟩
  height : b.lines.length = b.rows

/-- What a pass starts from: a remembered row is what the client's line shows. -/
structure Primed (view : TerminalView) (memory : List (List TerminalCell)) (t : StyleTable)
    (b : Browser) : Prop where
  known : Known t b
  cols : b.cols = view.size.cols
  rows : b.rows = view.size.rows
  tall : memory.length = view.size.rows
  shown : ∀ y < view.size.rows, memory[y]? = some [] ∨
    ∃ row line, memory[y]? = some row ∧ b.lines[y]? = some line ∧ Shown t view.palette row line

/-- The server remembers the view and the client shows it. -/
structure Screens (sent : Sent) (t : StyleTable) (b : Browser) (view : TerminalView) : Prop where
  size : sent.size = some (view.size.cols, view.size.rows)
  palette : sent.palette = some (WirePalette.of view.palette)
  remembered : sent.rows = (List.range view.size.rows).map (screenRow view)
  primed : Primed view sent.rows t b

theorem names_style {t : StyleTable} {b : Browser} (known : Known t b) {key : StyleKey} {id : Nat}
    (names : t.Names key id) : b.style id = some key := by
  rcases names with ⟨rfl, rfl⟩ | member
  · rfl
  · have positive : id ≠ 0 := by
      have inside : id ∈ List.range' 1 t.ids.length := by
        rw [← known.sound.numbered]
        exact List.mem_map.mpr ⟨_, member, rfl⟩
      rw [List.mem_range'_1] at inside
      omega
    rw [Browser.style, if_neg positive, known.styles _ member]
    rfl

theorem Screens.mirrors {sent : Sent} {t : StyleTable} {b : Browser} {view : TerminalView}
    (screens : Screens sent t b view) : b.Mirrors view := by
  obtain ⟨-, -, remembered, primed⟩ := screens
  refine ⟨primed.cols, primed.rows, primed.known.height.trans primed.rows, ?_⟩
  intro y inside
  have row : sent.rows[y]? = some (screenRow view y) := by
    rw [remembered, List.getElem?_map, List.getElem?_range inside]
    rfl
  have shownRow : ∃ line, b.lines[y]? = some line ∧
      Shown t view.palette (screenRow view y) line := by
    rcases primed.shown y inside with empty | ⟨other, line, same, found, shown⟩
    · rw [row] at empty
      exact absurd (Option.some.inj empty) (screenRow_ne_nil view inside)
    · rw [row] at same
      cases same
      exact ⟨line, found, shown⟩
  obtain ⟨line, found, shown⟩ := shownRow
  have length := shown.length_eq
  rw [screenRow_length view inside] at length
  refine ⟨line, found, length.symm, fun x across => ?_⟩
  have left : x < (screenRow view y).length := by
    rw [screenRow_length view inside]
    exact across
  have right : x < line.length := by
    rw [← length]
    exact across
  obtain ⟨text, width, names⟩ := List.Forall₂.get shown left right
  refine ⟨(screenRow view y).get ⟨x, left⟩, line.get ⟨x, right⟩, ?_,
    List.getElem?_eq_getElem right, text, width, names_style primed.known names⟩
  rw [← List.getElem?_drop, ← List.getElem?_take_of_lt across]
  exact List.getElem?_eq_getElem left

/-- The client inserts the styles the table grew by. -/
theorem Known.grow {t t' : StyleTable} {b : Browser} (known : Known t b)
    {added : List (StyleKey × Nat)} (ids : t'.ids = t.ids ++ added) (sound : t'.Sound)
    (settled : t'.pending = []) :
    Known t' (b.receive (.styles (announced added))) := by
  have distinct : (t.ids.map Prod.snd ++ added.map Prod.snd).Nodup := by
    have numbers := sound.numbered
    rw [ids, List.map_append] at numbers
    rw [numbers]
    exact List.nodup_range'
  refine ⟨sound, settled, ?_, known.height⟩
  intro entry member
  rw [ids] at member
  rcases List.mem_append.mp member with old | new
  · rw [Browser.receive, SortedMap.get?_foldl_insert_of_not_mem]
    · exact known.styles entry old
    · intro style inside same
      obtain ⟨other, among, rfl⟩ := List.mem_map.mp inside
      rw [List.nodup_append] at distinct
      exact distinct.2.2 _ (List.mem_map_of_mem old) _ (List.mem_map_of_mem among) same.symm
  · have fresh : ((announced added).map WireStyle.id).Nodup := by
      rw [announced, List.map_map]
      exact (List.nodup_append.mp distinct).2.1
    have inside : (⟨entry.2, entry.1⟩ : WireStyle) ∈ announced added :=
      List.mem_map.mpr ⟨entry, new, rfl⟩
    exact SortedMap.get?_foldl_insert_of_mem WireStyle.id id fresh inside b.styles

/-- Receiving nothing is receiving an empty list of styles. -/
theorem receive_fresh (b : Browser) (pending : List WireStyle) :
    b.receiveAll (if pending = [] then [] else [.styles pending]) = b.receive (.styles pending) := by
  split
  · rename_i empty
    rw [empty]
    rfl
  · rfl

/-- The browser with the styles and the changed rows of one pass. -/
def Browser.painted (b : Browser) (pending : List WireStyle) (changed : List Row) : Browser :=
  { b.receive (.styles pending) with lines := changed.foldl setLine b.lines }

def screenRows (view : TerminalView) : List (List TerminalCell) :=
  (List.range view.size.rows).map (screenRow view)

theorem screenRows_getElem? (view : TerminalView) {y : Nat} (inside : y < view.size.rows) :
    (screenRows view)[y]? = some (screenRow view y) := by
  rw [screenRows, List.getElem?_map, List.getElem?_range inside]
  rfl

/-- A pass that does not restart brings the client up to date. -/
theorem Primed.pass {view : TerminalView} {memory : List (List TerminalCell)} {t : StyleTable}
    {b : Browser} (primed : Primed view memory t b)
    (kept : (encodeChanged view (List.range view.size.rows) memory t.beginEncode).2.2.restarted =
      false) :
    ∃ changed t', encodeChanged view (List.range view.size.rows) memory t.beginEncode =
        (changed, screenRows view, t') ∧ t'.restarted = false ∧
      Primed view (screenRows view) { t' with pending := [], restarted := false }
        (b.painted t'.pending changed) := by
  have high : b.lines.length = view.size.rows := primed.known.height.trans primed.rows
  obtain ⟨added, grows, encoded, visit⟩ := encodeChanged_visits List.nodup_range
    (fun y inside => List.mem_range.mp inside) primed.tall high primed.known.sound.beginEncode rfl
    kept
  revert kept grows encoded visit
  generalize encodeChanged view (List.range view.size.rows) memory t.beginEncode = out
  obtain ⟨changed, rows, t'⟩ := out
  intro kept grows encoded visit
  simp only at kept grows encoded visit
  have remembered : rows = screenRows view := by
    refine List.ext_getElem? fun y => ?_
    by_cases inside : y < view.size.rows
    · rw [visit.visited y (List.mem_range.mpr inside), screenRows_getElem? view inside]
    · have beyond : rows.length ≤ y := by
        rw [visit.remembered, primed.tall]
        exact Nat.le_of_not_lt inside
      rw [List.getElem?_eq_none beyond, List.getElem?_eq_none]
      rw [screenRows, List.length_map, List.length_range]
      exact Nat.le_of_not_lt inside
  have pending : t'.pending = announced added := by
    rw [grows.pending]
    simp [beginEncode, primed.known.settled]
  have known : Known { t' with pending := [], restarted := false }
      (b.receive (.styles (announced added))) :=
    primed.known.grow grows.ids ⟨encoded.numbered, encoded.distinct, encoded.bounded⟩ rfl
  refine ⟨changed, t', by rw [remembered], kept, ⟨?_, primed.cols, primed.rows, ?_, ?_⟩⟩
  · rw [pending]
    exact ⟨known.sound, known.settled, known.styles, visit.height.trans primed.known.height⟩
  · rw [screenRows, List.length_map, List.length_range]
  · intro y inside
    right
    rw [screenRows_getElem? view inside]
    rcases visit.shown y (List.mem_range.mpr inside) with ⟨same, line⟩ | ⟨line, found, shown⟩
    · rcases primed.shown y inside with empty | ⟨row, line', row', found, shown⟩
      · rw [same] at empty
        exact absurd (Option.some.inj empty) (screenRow_ne_nil view inside)
      · rw [same] at row'
        cases row'
        exact ⟨_, line', rfl, line.trans found, shown.grow grows.ids⟩
    · exact ⟨_, line, rfl, found, shown⟩

/-- A new table and an empty memory, whatever lines the client has. -/
theorem primed_empty {view : TerminalView} {b : Browser} (cols : b.cols = view.size.cols)
    (rows : b.rows = view.size.rows) (height : b.lines.length = b.rows) :
    Primed view (List.replicate view.size.rows []) {} b := by
  refine ⟨⟨sound_empty [] false false, rfl, by simp, height⟩, cols, rows, List.length_replicate, ?_⟩
  intro y inside
  left
  rw [List.getElem?_replicate, if_pos inside]

/-- The browser after a `ready` for the geometry of the view. -/
theorem ready_height {b : Browser} (height : b.lines.length = b.rows) (cols rows : Nat)
    (palette : WirePalette) : (b.receive (.ready cols rows palette)).lines.length = rows := by
  simp only [Browser.receive]
  split
  · rename_i same
    exact height.trans same.2
  · simp [Browser.adaptLines]

/-- The encoding loop ends within two passes; a restart is answered by a `ready`. -/
theorem Primed.encodeFrame {view : TerminalView} {memory : List (List TerminalCell)}
    {t : StyleTable} {b : Browser} (primed : Primed view memory t b)
    (fits : (wanted view.palette view.cells).card ≤ styleCap) (passes : Nat) :
    ∃ changed t' reset,
      Client.encodeFrame view (passes + 2) memory t false =
        some (changed, screenRows view, t', reset) ∧
      (t = {} → reset = false) ∧
      Primed view (screenRows view) { t' with pending := [] }
        ((b.receiveAll (if reset then
          [.ready view.size.cols view.size.rows (WirePalette.of view.palette)] else [])).painted
            t'.pending changed) := by
  by_cases kept : (encodeChanged view (List.range view.size.rows) memory
      t.beginEncode).2.2.restarted = false
  · obtain ⟨changed, t', encoded, unmarked, painted⟩ := primed.pass kept
    refine ⟨changed, { t' with restarted := false }, false, ?_, fun _ => rfl, painted⟩
    simp only [Client.encodeFrame, encoded, takeRestarted, unmarked]
  -- The first pass ran over the cap: everything is encoded again on a cleared table.
  · have restarted := Bool.eq_true_of_not_eq_false kept
    generalize announced : b.receive
      (.ready view.size.cols view.size.rows (WirePalette.of view.palette)) = cleared
    have again : Primed view (List.replicate view.size.rows []) {} cleared := by
      rw [← announced]
      exact primed_empty rfl rfl (ready_height primed.known.height _ _ _)
    obtain ⟨changed, t', encoded, unmarked, painted⟩ := again.pass (encodeChanged_fits fits _ _)
    refine ⟨changed, { t' with restarted := false }, true, ?_, ?_, ?_⟩
    · simp only [Client.encodeFrame, takeRestarted, restarted, clear]
      rw [encoded]
      simp only [unmarked]
    · rintro rfl
      exact absurd (encodeChanged_fits fits _ _) kept
    · simpa [Browser.receiveAll, announced] using painted

theorem WirePalette.of_injective {first second : TerminalPalette}
    (same : WirePalette.of first = WirePalette.of second) : first = second := by
  obtain ⟨foreground, background, cursor, indexed⟩ := first
  obtain ⟨foreground', background', cursor', indexed'⟩ := second
  simp only [WirePalette.of, WirePalette.mk.injEq] at same
  obtain ⟨rfl, rfl, rfl, list⟩ := same
  rw [Vector.toList_inj.mp list]

/-- Nothing was projected yet, or the client shows the last view. -/
def Follows (sent : Sent) (t : StyleTable) (b : Browser) : Option TerminalView → Prop
  | none => sent.palette = none
  | some view => Screens sent t b view

/-- After the announcements the memory and the table fit the view. -/
theorem announce_primed {sent : Sent} {t : StyleTable} {b : Browser} {last : Option TerminalView}
    (known : Known t b) (follows : Follows sent t b last) (view : TerminalView) :
    ∃ ready sent' t', sent.announce view t = (ready, sent', t') ∧
      sent'.size = some (view.size.cols, view.size.rows) ∧
      sent'.palette = some (WirePalette.of view.palette) ∧
      (sent'.modes = sent.modes ∧ sent'.cursor = sent.cursor ∧ sent'.totals = sent.totals ∧
        sent'.seq = sent.seq) ∧
      (ready.any isReady = true → t' = {}) ∧
      Primed view (sent'.fitRows view).rows t' (b.receiveAll ready) := by
  unfold Sent.announce
  by_cases changed : sent.palette ≠ some (WirePalette.of view.palette) ∨
      sent.size ≠ some (view.size.cols, view.size.rows)
  · simp only [changed, if_true]
    refine ⟨_, _, _, rfl, rfl, rfl, ⟨rfl, rfl, rfl, rfl⟩, fun _ => rfl, ?_⟩
    have short : ([] : List (List TerminalCell)).length ≠ view.size.rows := by
      have positive := view.size.positive.2
      simp only [List.length_nil]
      omega
    rw [Sent.fitRows, if_pos (.inl short)]
    exact primed_empty rfl rfl (ready_height known.height _ _ _)
  · simp only [changed, if_false]
    rw [not_or, not_not, not_not] at changed
    obtain ⟨palette, size⟩ := changed
    refine ⟨_, _, _, rfl, size, palette, ⟨rfl, rfl, rfl, rfl⟩, by simp, ?_⟩
    cases last with
    | none =>
      have unsent : sent.palette = none := follows
      rw [palette] at unsent
      cases unsent
    | some old =>
      have screens : Screens sent t b old := follows
      have samePalette : old.palette = view.palette :=
        WirePalette.of_injective (Option.some.inj (screens.palette.symm.trans palette))
      have sameSize := Option.some.inj (screens.size.symm.trans size)
      have sameCols : old.size.cols = view.size.cols := congrArg Prod.fst sameSize
      have sameRows : old.size.rows = view.size.rows := congrArg Prod.snd sameSize
      have primed := screens.primed
      have head : sent.rows.head?.any (fun row => decide (row.length ≠ view.size.cols)) = false := by
        rw [screens.remembered, List.head?_map]
        cases first : (List.range old.size.rows).head? with
        | none => rfl
        | some y =>
          have inside := List.mem_range.mp (List.mem_of_mem_head? first)
          simp [screenRow_length old inside, sameCols]
      have fitting : sent.fitRows view = sent := by
        rw [Sent.fitRows, if_neg]
        rw [not_or, not_not, Bool.not_eq_true]
        exact ⟨primed.tall.trans sameRows, head⟩
      rw [fitting]
      refine ⟨known, primed.cols.trans sameCols, primed.rows.trans sameRows,
        primed.tall.trans sameRows, fun y inside => ?_⟩
      rw [← samePalette]
      exact primed.shown y (by rw [sameRows]; exact inside)

theorem announceModes_keeps (sent : Sent) (view : TerminalView) (b : Browser) :
    ∃ modes sent', sent.announceModes view = (modes, sent') ∧ modes.any isReady = false ∧
      frameSeqs modes = [] ∧ b.receiveAll modes = b ∧ sent'.rows = sent.rows ∧
      sent'.size = sent.size ∧ sent'.palette = sent.palette ∧ sent'.seq = sent.seq := by
  unfold Sent.announceModes
  split
  · exact ⟨_, _, rfl, rfl, rfl, rfl, rfl, rfl, rfl, rfl⟩
  · exact ⟨_, _, rfl, rfl, rfl, rfl, rfl, rfl, rfl, rfl⟩

/-- The frame is left out only when no row changed. -/
theorem finish_paints (sent : Sent) (view : TerminalView) (changed : List Row)
    (total scrollback : Nat) (b : Browser) :
    ∃ frame sent', sent.finish view changed total scrollback = (frame, sent') ∧
      b.receiveAll frame = { b with lines := changed.foldl Browser.setLine b.lines } ∧
      (frameSeqs frame = [] ∧ sent'.seq = sent.seq ∨
        frameSeqs frame = [(sent.seq + 1) % 2 ^ 64] ∧ sent'.seq = (sent.seq + 1) % 2 ^ 64) ∧
      sent'.rows = sent.rows ∧ sent'.size = sent.size ∧ sent'.palette = sent.palette := by
  unfold Sent.finish
  simp only
  split
  · exact ⟨_, _, rfl, rfl, .inr ⟨rfl, rfl⟩, rfl, rfl, rfl⟩
  · rename_i still
    have none : changed = [] := by
      by_contra some
      exact still (.inl some)
    subst none
    exact ⟨_, _, rfl, rfl, .inl ⟨rfl, rfl⟩, rfl, rfl, rfl⟩

theorem frameSeqs_append (first second : List ServerMessage) :
    frameSeqs (first ++ second) = frameSeqs first ++ frameSeqs second :=
  List.filterMap_append

theorem receiveAll_append (b : Browser) (first second : List ServerMessage) :
    b.receiveAll (first ++ second) = (b.receiveAll first).receiveAll second :=
  List.foldl_append

theorem announce_frames (sent : Sent) (view : TerminalView) (t : StyleTable) :
    frameSeqs (sent.announce view t).1 = [] := by
  unfold Sent.announce
  simp only
  split <;> rfl

/-- A projection of at most `styleCap` styles is sent whole. -/
theorem diff_screens {sent : Sent} {t : StyleTable} {b : Browser} {last : Option TerminalView}
    (known : Known t b) (follows : Follows sent t b last) {view : TerminalView}
    (fits : (wanted view.palette view.cells).card ≤ styleCap) (passes total scrollback : Nat) :
    ∃ messages sent' t', sent.diff (passes + 2) view t total scrollback =
        some (messages, sent', t') ∧
      Screens sent' t' (b.receiveAll messages) view ∧
      (frameSeqs messages = [] ∧ sent'.seq = sent.seq ∨
        frameSeqs messages = [(sent.seq + 1) % 2 ^ 64] ∧ sent'.seq = (sent.seq + 1) % 2 ^ 64) := by
  have readyFrames := announce_frames sent view t
  obtain ⟨ready, first, cleared, announced, size, palette, ⟨-, -, -, seq⟩, fresh, primed⟩ :=
    announce_primed known follows view
  rw [announced] at readyFrames
  obtain ⟨modes, second, moded, unready, modeFrames, kept, rows₂, size₂, palette₂, seq₂⟩ :=
    announceModes_keeps first view (b.receiveAll ready)
  have memory : (second.fitRows view).rows = (first.fitRows view).rows := by
    unfold Sent.fitRows
    rw [rows₂]
    split <;> simp [rows₂]
  have fitted : (second.fitRows view).size = second.size ∧
      (second.fitRows view).palette = second.palette ∧
      (second.fitRows view).seq = second.seq := by
    unfold Sent.fitRows
    split <;> exact ⟨rfl, rfl, rfl⟩
  obtain ⟨changed, table, reset, encoded, unreset, painted⟩ := primed.encodeFrame fits passes
  generalize again : (if reset then [ServerMessage.ready view.size.cols view.size.rows
    (WirePalette.of view.palette)] else []) = repeated at painted
  have repeats : (if reset ∧ ¬(ready ++ modes).any isReady then [ServerMessage.ready view.size.cols
      view.size.rows (WirePalette.of view.palette)] else []) = repeated := by
    rw [← again]
    cases resets : reset with
    | false => simp
    | true =>
      -- A table cleared by the announcement has room for the whole screen.
      have silent : (ready ++ modes).any isReady = false := by
        rw [List.any_append, unready, Bool.or_false, Bool.eq_false_iff]
        intro announcedReady
        rw [unreset (fresh announcedReady)] at resets
        cases resets
      simp [silent]
  obtain ⟨frame, sent', finished, framed, seqs, rows₃, size₃, palette₃⟩ :=
    finish_paints { second.fitRows view with rows := screenRows view } view changed total scrollback
      (((b.receiveAll ready).receiveAll repeated).receive (.styles table.pending))
  have browser : b.receiveAll (ready ++ modes ++ repeated ++
        (if table.pending = [] then [] else [.styles table.pending]) ++ frame) =
      ((b.receiveAll ready).receiveAll repeated).painted table.pending changed := by
    simp only [receiveAll_append, kept]
    rw [receive_fresh, framed]
    rfl
  have frames : frameSeqs (ready ++ modes ++ repeated ++
      (if table.pending = [] then [] else [.styles table.pending]) ++ frame) = frameSeqs frame := by
    have none : frameSeqs repeated = [] := by
      rw [← again]
      split <;> rfl
    have styles : frameSeqs (if table.pending = [] then [] else [.styles table.pending]) = [] := by
      split <;> rfl
    simp only [frameSeqs_append, readyFrames, modeFrames, none, styles, List.nil_append]
  refine ⟨ready ++ modes ++ repeated ++
    (if table.pending = [] then [] else [.styles table.pending]) ++ frame, sent',
    { table with pending := [] }, ?_, ?_, ?_⟩
  · simp only [Sent.diff, announced, moded, memory, encoded, repeats, takePending, finished]
    rfl
  · rw [browser]
    refine ⟨?_, ?_, ?_, ?_⟩
    · rw [size₃]
      exact fitted.1.trans (size₂.trans size)
    · rw [palette₃]
      exact fitted.2.1.trans (palette₂.trans palette)
    · rw [rows₃]
      rfl
    · rw [rows₃]
      exact painted
  · rw [frames]
    have before : second.seq = sent.seq := seq₂.trans seq
    rcases seqs with ⟨none, same⟩ | ⟨one, next⟩
    · exact .inl ⟨none, same.trans (fitted.2.2.trans before)⟩
    · simp only [fitted.2.2, before] at one next
      exact .inr ⟨one, next⟩

/-- The session and its client between two pushes. -/
structure Linked (s : Session) (b : Browser) (last : Option TerminalView) : Prop where
  known : Known s.styles b
  follows : Follows s.sent s.styles b last

/-- New styles leave what is shown as it was. -/
theorem Screens.grow {sent : Sent} {t t' : StyleTable} {b : Browser} {view : TerminalView}
    (screens : Screens sent t b view) {added : List (StyleKey × Nat)}
    (ids : t'.ids = t.ids ++ added) (known : Known t' (b.receive (.styles (announced added)))) :
    Screens sent t' (b.receive (.styles (announced added))) view := by
  have primed := screens.primed
  refine ⟨screens.size, screens.palette, screens.remembered, known, primed.cols, primed.rows,
    primed.tall, fun y inside => ?_⟩
  rcases primed.shown y inside with empty | ⟨row, line, remembered, found, shown⟩
  · exact .inl empty
  · exact .inr ⟨row, line, remembered, found, shown.grow ids⟩

/-- A read whose styles fit leaves the grid as it is. -/
theorem history_linked {s : Session} {b : Browser} {last : Option TerminalView}
    (linked : Linked s b last) {history : TerminalHistory}
    (fits : HistoryFits history s.palette s.styles) (passes : Nat) :
    ∃ messages t', s.push (passes + 1) (.history history) = some (messages, { s with styles := t' }) ∧
      Linked { s with styles := t' } (b.receiveAll messages) last ∧ frameSeqs messages = [] := by
  obtain ⟨rows, added, t', encoded, sound, ids, settled, -⟩ :=
    encodeHistory_fits linked.known.sound linked.known.settled fits passes false
  have known := linked.known.grow ids sound settled
  refine ⟨(if announced added = [] then [] else [.styles (announced added)]) ++
    [.history history.start rows history.total history.scrollback], t', ?_, ?_, ?_⟩
  · simp [Session.push, encoded]
  · have browser : b.receiveAll ((if announced added = [] then [] else
          [.styles (announced added)]) ++
            [.history history.start rows history.total history.scrollback]) =
        b.receive (.styles (announced added)) := by
      rw [receiveAll_append, receive_fresh]
      rfl
    rw [browser]
    refine ⟨known, ?_⟩
    cases last with
    | none => exact linked.follows
    | some view =>
      have screens : Screens s.sent s.styles b view := linked.follows
      exact screens.grow ids known
  · rw [frameSeqs_append]
    split <;> rfl

/-- What one push must meet for the client to stay in step: a history read adds only
styles for which the shared table has room, and the frame counter does not wrap. -/
def Session.Meets (s : Session) : Push → Prop
  | .view _ _ _ => s.sent.seq + 1 < 2 ^ 64
  | .history history => HistoryFits history s.palette s.styles

/-- Every push meets the condition in the state the pushes before it left. -/
def Session.Careful (passes : Nat) (s : Session) : List Push → Prop
  | [] => True
  | push :: rest => s.Meets push ∧
      ∀ messages s', s.push passes push = some (messages, s') → s'.Careful passes rest

/-- Each projection shows at most `styleCap` distinct non-default styles. -/
def ViewsFit (pushes : List Push) : Prop :=
  ∀ view total scrollback, .view view total scrollback ∈ pushes →
    (wanted view.palette view.cells).card ≤ styleCap

theorem push_linked {s : Session} {b : Browser} {last : Option TerminalView}
    (linked : Linked s b last) {push : Push} (meets : s.Meets push) (fits : ViewsFit [push])
    (passes : Nat) :
    ∃ messages s', s.push (passes + 2) push = some (messages, s') ∧
      Linked s' (b.receiveAll messages) ((lastView [push]).or last) ∧
      s.sent.seq ≤ s'.sent.seq ∧
      frameSeqs messages = List.range' (s.sent.seq + 1) (s'.sent.seq - s.sent.seq) := by
  cases push with
  | history history =>
    obtain ⟨messages, t', pushed, linked', frames⟩ := history_linked linked meets (passes + 1)
    refine ⟨messages, _, pushed, linked', Nat.le_refl _, ?_⟩
    rw [frames]
    simp
  | view view total scrollback =>
    obtain ⟨messages, sent', t', diffed, screens, seqs⟩ := diff_screens linked.known linked.follows
      (fits view total scrollback List.mem_cons_self) passes total scrollback
    refine ⟨messages, { s with sent := sent', styles := t', palette := view.palette }, ?_,
      ⟨screens.primed.known, screens⟩, ?_⟩
    · simp only [Session.push, diffed]
    · have bounded : (s.sent.seq + 1) % 2 ^ 64 = s.sent.seq + 1 := Nat.mod_eq_of_lt meets
      rcases seqs with ⟨none, same⟩ | ⟨one, next⟩
      · simp only [none, same]
        simp
      · rw [bounded] at one next
        simp only [one, next]
        simp

theorem lastView_cons (push : Push) (rest : List Push) :
    lastView (push :: rest) = (lastView rest).or (lastView [push]) := by
  cases push with
  | history history => cases found : lastView rest <;> simp [lastView, found]
  | view view total scrollback => cases found : lastView rest <;> simp [lastView, found]

theorem run_cons {passes : Nat} {s s₁ s₂ : Session} {push : Push} {rest : List Push}
    {first later : List ServerMessage} (pushed : s.push passes push = some (first, s₁))
    (ran : s₁.run passes rest = some (later, s₂)) :
    s.run passes (push :: rest) = some (first ++ later, s₂) := by
  simp only [Session.run, pushed, ran]

theorem run_linked {s : Session} {b : Browser} {last : Option TerminalView}
    (linked : Linked s b last) (passes : Nat) {pushes : List Push} (fits : ViewsFit pushes)
    (careful : s.Careful (passes + 2) pushes) :
    ∃ messages s', s.run (passes + 2) pushes = some (messages, s') ∧
      Linked s' (b.receiveAll messages) ((lastView pushes).or last) ∧
      s.sent.seq ≤ s'.sent.seq ∧
      frameSeqs messages = List.range' (s.sent.seq + 1) (s'.sent.seq - s.sent.seq) := by
  induction pushes generalizing s b last with
  | nil => exact ⟨[], s, rfl, linked, Nat.le_refl _, by simp [frameSeqs]⟩
  | cons push rest ih =>
    obtain ⟨meets, later⟩ := careful
    have here : ViewsFit [push] := fun view total scrollback member =>
      fits view total scrollback (List.mem_singleton.mp member ▸ List.mem_cons_self)
    have after : ViewsFit rest := fun view total scrollback member =>
      fits view total scrollback (List.mem_cons_of_mem _ member)
    obtain ⟨first, s₁, pushed, linked₁, grown₁, frames₁⟩ := push_linked linked meets here passes
    obtain ⟨second, s₂, ran, linked₂, grown₂, frames₂⟩ :=
      ih linked₁ after (later first s₁ pushed)
    refine ⟨first ++ second, s₂, run_cons pushed ran, ?_, grown₁.trans grown₂, ?_⟩
    · rw [receiveAll_append, lastView_cons, Option.or_assoc]
      exact linked₂
    · have middle : s₁.sent.seq + 1 = s.sent.seq + 1 + (s₁.sent.seq - s.sent.seq) := by omega
      have whole : s₂.sent.seq - s.sent.seq =
          s₁.sent.seq - s.sent.seq + (s₂.sent.seq - s₁.sent.seq) := by omega
      rw [frameSeqs_append, frames₁, frames₂, middle, whole, List.range'_append_1]

/-- A client that applies every message in order shows the last view, cell by cell, and
sees the frames numbered one after another. -/
theorem browser_mirrors_screen (size : TerminalSize) {passes : Nat} (enough : 2 ≤ passes)
    (pushes : List Push) (fits : ViewsFit pushes)
    (careful : Session.Careful passes { size } pushes) :
    ∃ messages s, Session.run passes { size } pushes = some (messages, s) ∧
      (∀ view, lastView pushes = some view → (Browser.receiveAll {} messages).Mirrors view) ∧
      frameSeqs messages = List.range' 1 (frameSeqs messages).length := by
  obtain ⟨more, rfl⟩ := Nat.exists_eq_add_of_le' enough
  have start : Linked { size } {} none :=
    ⟨⟨sound_empty [] false false, rfl, by simp, rfl⟩, rfl⟩
  obtain ⟨messages, s, ran, linked, -, frames⟩ := run_linked start more fits careful
  refine ⟨messages, s, ran, ?_, ?_⟩
  · intro view last
    have screens := linked.follows
    rw [last] at screens
    exact screens.mirrors
  · rw [frames, List.length_range']

/-- A screen of one bold cell. -/
def boldCell : TerminalView where
  size := .single
  cursor := ⟨0, 0, true, false⟩
  modes := ⟨false, false, false, .none, .legacy⟩
  palette := { indexed := Vector.replicate 256 ⟨0, 0, 0⟩ }
  cells := [⟨"x", 1, { bold := true }⟩]
  complete := rfl

/-- A retained row of so many cells, each of another color. -/
def colors (count : Nat) : TerminalHistory where
  start := 0
  cols := count
  cells := (List.range count).map fun i =>
    ⟨"y", 1, { foreground := .rgb (.ofNat (i % 256)) (.ofNat (i / 256)) 0 }⟩
  total := 1
  scrollback := 1

theorem boldCell_fits {pushes : List Push}
    (bold : ∀ view total scrollback, .view view total scrollback ∈ pushes → view = boldCell) :
    ViewsFit pushes := by
  intro view total scrollback member
  rw [bold view total scrollback member]
  exact (wanted_card_le _ _).trans (by decide)

/-- A read of retained rows before the first projection. -/
theorem browser_mirrors_screen_colors :
    ∃ messages s, Session.run 2 { size := boldCell.size }
        [.history (colors 3), .view boldCell 1 0] = some (messages, s) ∧
      (∀ view, some boldCell = some view → (Browser.receiveAll {} messages).Mirrors view) ∧
      frameSeqs messages = List.range' 1 (frameSeqs messages).length := by
  refine browser_mirrors_screen boldCell.size (Nat.le_refl 2) [.history (colors 3), .view boldCell 1 0]
    (boldCell_fits (by simp +contextual)) ⟨?_, fun messages s pushed => ⟨?_, fun _ _ _ => trivial⟩⟩
  · refine (Finset.card_union_le _ _).trans ?_
    refine (Nat.add_le_add_left (wanted_card_le _ _) _).trans ?_
    decide
  · have unsent : s.sent = {} := by
      simp only [Session.push] at pushed
      split at pushed
      · cases pushed
      · cases pushed
        rfl
    rw [Session.Meets, unsent]
    decide

/-- The key of one color. -/
def colorKey (i : Nat) : StyleKey := { fg := some ⟨.ofNat (i % 256), .ofNat (i / 256), 0⟩ }

theorem colorKey_injective {i j : Nat} (first : i < 65536) (second : j < 65536)
    (same : colorKey i = colorKey j) : i = j := by
  simp only [colorKey, StyleKey.mk.injEq, Option.some.injEq, Rgb.mk.injEq, and_true] at same
  have low := congrArg UInt8.toNat same.1
  have high := congrArg UInt8.toNat same.2
  simp only [UInt8.toNat_ofNat'] at low high
  omega

theorem wanted_colors (palette : TerminalPalette) {count : Nat} (positive : 0 < count) :
    wanted palette (TerminalHistory.shown (colors count)) =
      ((List.range count).map colorKey).toFinset := by
  ext key
  rw [mem_wanted, List.mem_toFinset, TerminalHistory.shown, if_pos (by exact positive)]
  simp only [colors, List.mem_map, exists_exists_and_eq_and, StyleKey.of, color]
  constructor
  · rintro ⟨-, i, inside, rfl⟩
    exact ⟨i, inside, rfl⟩
  · rintro ⟨i, inside, rfl⟩
    exact ⟨by simp [colorKey], i, inside, rfl⟩

theorem card_colors {count : Nat} (bound : count ≤ 65536) :
    ((List.range count).map colorKey).toFinset.card = count := by
  rw [List.toFinset_card_of_nodup, List.length_map, List.length_range]
  refine List.Nodup.map_on ?_ List.nodup_range
  intro i first j second same
  exact colorKey_injective ((List.mem_range.mp first).trans_le bound)
    ((List.mem_range.mp second).trans_le bound) same

/-- What is remembered once the bold cell was sent. -/
def boldSent : Sent where
  rows := [boldCell.cells]
  size := some (1, 1)
  palette := some (WirePalette.of boldCell.palette)
  modes := some boldCell.modes
  cursor := some boldCell.cursor
  totals := some (1, 0)
  seq := 1

/-- The session once the bold cell was sent, with the table of a later read. -/
def boldSession (styles : StyleTable) : Session where
  size := boldCell.size
  sent := boldSent
  styles
  palette := boldCell.palette

theorem boldCell_pushed :
    ∃ messages, Session.push 2 { size := boldCell.size } (.view boldCell 1 0) =
        some (messages, boldSession { ids := [({ bold := true }, 1)] }) ∧
      (Browser.receiveAll {} messages).lines = [[("x", 1, 1)]] ∧
      (Browser.receiveAll {} messages).cols = 1 ∧ (Browser.receiveAll {} messages).rows = 1 :=
  ⟨_, rfl, rfl, rfl, rfl⟩

/-- The same screen again is not resent, whatever became of the table. -/
theorem boldCell_unchanged (t : StyleTable) (settled : t.pending = []) :
    ∃ s, (boldSession t).push 2 (.view boldCell 1 0) = some ([], s) := by
  have quiet : boldSent.announce boldCell t = ([], boldSent, t) := by
    unfold Sent.announce
    exact if_neg (by rw [not_or, not_not, not_not]; exact ⟨rfl, rfl⟩)
  obtain ⟨ids, pending, restarted, capped⟩ := t
  cases settled
  refine ⟨boldSession { ids }, ?_⟩
  simp only [Session.push, boldSession, Sent.diff, quiet]
  rfl

/-- The reply to a read that restarted the table. -/
theorem restarted_reply {styles t : StyleTable} {history : TerminalHistory} {rows : List Row}
    {pending : List WireStyle}
    (restarted : encodeHistory history boldCell.palette 2 styles false =
      some (rows, pending, true, t)) :
    (boldSession styles).push 2 (.history history) =
      some ([.ready 1 1 (WirePalette.of boldCell.palette)] ++
        (if pending = [] then [] else [.styles pending]) ++
          [.history history.start rows history.total history.scrollback], boldSession t) := by
  simp only [Session.push, boldSession, restarted]
  rfl

theorem colors_overflow :
    ¬HistoryFits (colors 512) boldCell.palette { ids := [({ bold := true }, 1)] } := by
  rw [HistoryFits, wanted_colors _ (by decide)]
  have apart : Disjoint ([{ bold := true }] : List StyleKey).toFinset
      ((List.range 512).map colorKey).toFinset := by
    rw [Finset.disjoint_left]
    intro key bold colored
    rw [List.mem_toFinset, List.mem_singleton] at bold
    obtain ⟨i, -, same⟩ := List.mem_map.mp (List.mem_toFinset.mp colored)
    rw [bold] at same
    cases same
  change ¬(([{ bold := true }] : List StyleKey).toFinset ∪ _).card ≤ styleCap
  rw [Finset.card_union_of_disjoint apart, card_colors (by decide)]
  decide

/-- A style of the retained row, or none, is what the client has for any id after it
was told to forget its table. -/
theorem colors_received {added : List (StyleKey × Nat)} (distinct : (added.map Prod.snd).Nodup)
    (needed : ∀ entry ∈ added,
      entry.1 ∈ wanted boldCell.palette (TerminalHistory.shown (colors 512)))
    {b : Browser} (forgot : b.styles = .empty) :
    (b.receive (.styles (announced added))).style 1 ≠ some { bold := true } := by
  intro bold
  simp only [Browser.style, Nat.one_ne_zero, if_false, Option.map_eq_some_iff] at bold
  obtain ⟨style, found, key⟩ := bold
  have fresh : ((announced added).map WireStyle.id).Nodup := by
    rw [announced, List.map_map]
    exact distinct
  by_cases present : ∃ style ∈ announced added, style.id = 1
  · obtain ⟨other, member, one⟩ := present
    have received := SortedMap.get?_foldl_insert_of_mem WireStyle.id id fresh member b.styles
    rw [one] at received
    have same : other = style := Option.some.inj (received.symm.trans found)
    obtain ⟨entry, among, rfl⟩ := List.mem_map.mp member
    have colored := needed entry among
    rw [wanted_colors _ (by decide)] at colored
    obtain ⟨i, -, color⟩ := List.mem_map.mp (List.mem_toFinset.mp colored)
    rw [← same] at key
    have clash : colorKey i = { bold := true } := color.trans key
    cases clash
  · have missing : (b.receive (.styles (announced added))).styles.get? 1 = b.styles.get? 1 :=
      SortedMap.get?_foldl_insert_of_not_mem WireStyle.id id
        (fun style member one => present ⟨style, member, one⟩) b.styles
    rw [found, forgot, SortedMap.get?_empty] at missing
    cases missing

/-- A bold cell, a read of 512 colored cells, and the same screen again: the read restarts
the table and makes the client forget the id that the unsent cell still has. -/
theorem history_restart_loses_styles :
    ¬∀ (size : TerminalSize) (passes : Nat) (pushes : List Push), 2 ≤ passes → ViewsFit pushes →
      ∃ messages s, Session.run passes { size } pushes = some (messages, s) ∧
        (∀ view, lastView pushes = some view → (Browser.receiveAll {} messages).Mirrors view) ∧
        frameSeqs messages = List.range' 1 (frameSeqs messages).length := by
  intro claim
  obtain ⟨messages, s, ran, mirrors, -⟩ := claim boldCell.size 2
    [.view boldCell 1 0, .history (colors 512), .view boldCell 1 0] (Nat.le_refl 2)
    (boldCell_fits (by simp +contextual))
  obtain ⟨first, sent, lines, cols, rows⟩ := boldCell_pushed
  have sound : (StyleTable.mk [({ bold := true }, 1)] [] false false).Sound :=
    ⟨rfl, List.nodup_singleton _, by decide⟩
  have room : HistoryFits (colors 512) boldCell.palette {} := by
    rw [HistoryFits, wanted_colors _ (by decide)]
    change (∅ ∪ _ : Finset StyleKey).card ≤ styleCap
    rw [Finset.empty_union, card_colors (by decide)]
    decide
  obtain ⟨history, added, t, encoded, grown, ids, settled, needed⟩ :=
    encodeHistory_fits (sound_empty [] false false) rfl room 0 true
  have restarted : encodeHistory (colors 512) boldCell.palette 2 { ids := [({ bold := true }, 1)] }
      false = some (history, announced added, true, t) :=
    (encodeHistory_overflows sound colors_overflow 1 false).trans encoded
  obtain ⟨s', unchanged⟩ := boldCell_unchanged t settled
  have replied := restarted_reply restarted
  have ended : s'.run 2 [] = some ([], s') := rfl
  have computed := run_cons sent (run_cons replied (run_cons unchanged ended))
  obtain ⟨whole, -⟩ := Prod.mk.inj (Option.some.inj (ran.symm.trans computed))
  have mirror := mirrors boldCell rfl
  generalize before : Browser.receiveAll {} first = b at lines cols rows
  have after : Browser.receiveAll {} messages =
      (b.receive (.ready 1 1 (WirePalette.of boldCell.palette))).receive
        (.styles (announced added)) := by
    rw [whole]
    simp only [receiveAll_append, before, receive_fresh]
    rfl
  obtain ⟨line, found, -, cells⟩ := mirror.cells 0 (by decide)
  obtain ⟨cell, wire, here, shown, -, -, style⟩ := cells 0 (by decide)
  rw [after] at found style
  have kept : line = [("x", 1, 1)] := by
    simp only [Browser.receive, cols, rows, and_self, if_true, lines] at found
    exact (Option.some.inj found).symm
  subst kept
  cases here
  cases shown
  refine colors_received ?_ needed rfl style
  have numbers := grown.numbered
  rw [ids] at numbers
  change added.map Prod.snd = _ at numbers
  rw [numbers]
  exact List.nodup_range'

end PtyRuntime.Client
