import PtyRuntime.Client.Wire
import Mathlib.Data.Finset.Card

/-! What an encoding pass does to the style table: without a restart it only grows, and
it restarts exactly when the styles it needs do not fit beside those it holds. -/
namespace PtyRuntime.Client

namespace StyleTable

def keys (t : StyleTable) : List StyleKey := t.ids.map Prod.fst

/-- The id names the style; zero names the default one. -/
def Names (t : StyleTable) (key : StyleKey) (id : Nat) : Prop :=
  key = {} ∧ id = 0 ∨ (key, id) ∈ t.ids

/-- Ids count up from one in the order of allocation. -/
structure Sound (t : StyleTable) : Prop where
  numbered : t.ids.map Prod.snd = List.range' 1 t.ids.length
  distinct : t.keys.Nodup
  bounded : t.ids.length ≤ styleCap

theorem sound_empty (pending : List WireStyle) (restarted capped : Bool) :
    (StyleTable.mk [] pending restarted capped).Sound :=
  ⟨rfl, List.nodup_nil, Nat.zero_le _⟩

/-- The messages' form of some entries. -/
def announced (added : List (StyleKey × Nat)) : List WireStyle :=
  added.map fun entry => ⟨entry.2, entry.1⟩

/-- The table grew by entries that are still to be sent. -/
structure Grows (t t' : StyleTable) (added : List (StyleKey × Nat)) : Prop where
  ids : t'.ids = t.ids ++ added
  pending : t'.pending = t.pending ++ announced added
  restarted : t'.restarted = t.restarted
  capped : t'.capped = t.capped

theorem Grows.refl (t : StyleTable) : t.Grows t [] :=
  ⟨by simp, by simp [announced], rfl, rfl⟩

theorem Grows.trans {a b c : StyleTable} {first second : List (StyleKey × Nat)}
    (before : a.Grows b first) (after : b.Grows c second) : a.Grows c (first ++ second) where
  ids := by rw [after.ids, before.ids, List.append_assoc]
  pending := by rw [after.pending, before.pending, announced, announced, announced, List.map_append, List.append_assoc]
  restarted := after.restarted.trans before.restarted
  capped := after.capped.trans before.capped

theorem Names.grow {t t' : StyleTable} {added : List (StyleKey × Nat)} {key : StyleKey} {id : Nat}
    (names : t.Names key id) (ids : t'.ids = t.ids ++ added) : t'.Names key id := by
  rcases names with default | member
  · exact .inl default
  · exact .inr (by rw [ids]; exact List.mem_append_left _ member)

theorem Sound.length_keys (t : StyleTable) : t.keys.length = t.ids.length := by
  simp [keys]

theorem mem_keys_of_lookup {t : StyleTable} {key : StyleKey} {id : Nat}
    (found : t.ids.lookup key = some id) : (key, id) ∈ t.ids := by
  obtain ⟨before, after, split, -⟩ := List.lookup_eq_some_iff.mp found
  rw [split]
  simp

theorem not_mem_keys_of_lookup {t : StyleTable} {key : StyleKey}
    (missing : t.ids.lookup key = none) : key ∉ t.keys := by
  intro member
  obtain ⟨⟨other, id⟩, inside, rfl⟩ := List.mem_map.mp member
  have different := List.lookup_eq_none_iff.mp missing _ inside
  simp at different

/-- An allocation with room for it. -/
theorem allocate_grows {t : StyleTable} {key : StyleKey} (sound : t.Sound)
    (fresh : key ∉ t.keys) (room : t.ids.length < styleCap) :
    t.Grows (t.allocate key).2 [(key, t.ids.length + 1)] ∧ (t.allocate key).2.Sound := by
  refine ⟨⟨rfl, rfl, rfl, rfl⟩, ?_, ?_, ?_⟩
  · simp only [allocate, List.map_append, List.map_cons, List.map_nil, List.length_append,
      List.length_cons, List.length_nil, Nat.zero_add, sound.numbered]
    rw [List.range'_concat]
    simp [Nat.add_comm]
  · simp only [allocate, keys, List.map_append, List.map_cons, List.map_nil]
    rw [List.nodup_append]
    refine ⟨sound.distinct, List.nodup_singleton _, ?_⟩
    intro other member last single
    rw [List.mem_singleton.mp single]
    rintro rfl
    exact fresh member
  · simp only [allocate, List.length_append, List.length_cons, List.length_nil]
    omega

/-- `intern` names the style in a grown table, or the table is full of other styles. -/
theorem intern_cases {t : StyleTable} (sound : t.Sound) (style : TerminalStyle)
    (palette : TerminalPalette) :
    (∃ added, t.Grows (t.intern style palette).2 added ∧ (t.intern style palette).2.Sound ∧
        (t.intern style palette).2.Names (StyleKey.of style palette)
          (t.intern style palette).1 ∧
        ∀ entry ∈ added, entry.1 = StyleKey.of style palette ∧ entry.1 ≠ {}) ∨
      StyleKey.of style palette ≠ {} ∧ StyleKey.of style palette ∉ t.keys ∧
        styleCap ≤ t.ids.length ∧
        (t.capped = false → (t.intern style palette).2.restarted = true) := by
  generalize named : StyleKey.of style palette = key
  unfold intern
  simp only [named]
  by_cases default : key = {}
  · left
    rw [if_pos default]
    exact ⟨[], .refl t, sound, .inl ⟨default, rfl⟩, by simp⟩
  · rw [if_neg default]
    cases found : t.ids.lookup key with
    | some id =>
      left
      exact ⟨[], .refl t, sound, .inr (mem_keys_of_lookup found), by simp⟩
    | none =>
      have fresh := not_mem_keys_of_lookup found
      by_cases full : styleCap ≤ t.ids.length
      · right
        refine ⟨default, fresh, full, fun capped => ?_⟩
        simp only [full, capped, if_true, Bool.false_eq_true, if_false]
        rfl
      · left
        simp only [full, if_false]
        obtain ⟨grows, grown⟩ := allocate_grows sound fresh (Nat.lt_of_not_le full)
        refine ⟨_, grows, grown, .inr (by rw [grows.ids]; exact List.mem_concat_self), ?_⟩
        simpa using default

/-- Once a pass restarted the table it stays marked so. -/
theorem intern_restarted {t : StyleTable} (restarted : t.restarted = true) (style : TerminalStyle)
    (palette : TerminalPalette) : (t.intern style palette).2.restarted = true := by
  unfold intern
  simp only
  split
  · exact restarted
  · split
    · exact restarted
    · split
      · split
        · exact restarted
        · rfl
      · exact restarted

end StyleTable

open StyleTable

/-- The distinct non-default styles of some cells, as the wire shows them. -/
def wanted (palette : TerminalPalette) (cells : List TerminalCell) : Finset StyleKey :=
  (cells.map fun cell => StyleKey.of cell.style palette).toFinset.erase {}

theorem mem_wanted {palette : TerminalPalette} {cells : List TerminalCell} {key : StyleKey} :
    key ∈ wanted palette cells ↔
      key ≠ {} ∧ ∃ cell ∈ cells, StyleKey.of cell.style palette = key := by
  simp [wanted]

theorem wanted_card_le (palette : TerminalPalette) (cells : List TerminalCell) :
    (wanted palette cells).card ≤ cells.length := by
  refine (Finset.card_erase_le).trans ?_
  rw [← List.length_map fun cell : TerminalCell => StyleKey.of cell.style palette]
  exact List.toFinset_card_le _

/-- The wire cells show the text, the width and the style of the screen's. -/
def Shown (t : StyleTable) (palette : TerminalPalette) (row : List TerminalCell)
    (line : List WireCell) : Prop :=
  List.Forall₂ (fun cell wire => wire.1 = cell.text ∧ wire.2.1 = cell.width ∧
    t.Names (StyleKey.of cell.style palette) wire.2.2) row line

theorem Shown.grow {t t' : StyleTable} {palette : TerminalPalette} {row : List TerminalCell}
    {line : List WireCell} {added : List (StyleKey × Nat)} (shown : Shown t palette row line)
    (ids : t'.ids = t.ids ++ added) : Shown t' palette row line :=
  shown.imp fun _ _ cell => ⟨cell.1, cell.2.1, cell.2.2.grow ids⟩

theorem Shown.named {t : StyleTable} {palette : TerminalPalette} {row : List TerminalCell}
    {line : List WireCell} (shown : Shown t palette row line) {cell : TerminalCell}
    (inside : cell ∈ row) : ∃ id, t.Names (StyleKey.of cell.style palette) id := by
  induction shown with
  | nil => cases inside
  | cons head _ ih =>
    rcases List.mem_cons.mp inside with rfl | later
    · exact ⟨_, head.2.2⟩
    · exact ih later

theorem encodeCells_restarted {palette : TerminalPalette} {cells : List TerminalCell}
    {t : StyleTable} (restarted : t.restarted = true) :
    (encodeCells palette cells t).2.restarted = true := by
  induction cells generalizing t with
  | nil => exact restarted
  | cons cell rest ih => exact ih (intern_restarted restarted cell.style palette)

/-- A pass that did not restart only added styles it needed, and its cells are shown. -/
theorem encodeCells_grows {palette : TerminalPalette} {cells : List TerminalCell} {t : StyleTable}
    (sound : t.Sound) (uncapped : t.capped = false)
    (kept : (encodeCells palette cells t).2.restarted = false) :
    ∃ added, t.Grows (encodeCells palette cells t).2 added ∧
      (encodeCells palette cells t).2.Sound ∧
      Shown (encodeCells palette cells t).2 palette cells (encodeCells palette cells t).1 ∧
      ∀ entry ∈ added, entry.1 ∈ wanted palette cells := by
  induction cells generalizing t with
  | nil => exact ⟨[], .refl t, sound, .nil, by simp⟩
  | cons cell rest ih =>
    simp only [encodeCells] at kept ⊢
    rcases intern_cases sound cell.style palette with
      ⟨first, grows, interned, names, needed⟩ | ⟨-, -, -, restarts⟩
    · obtain ⟨second, later, encoded, shown, wants⟩ :=
        ih interned (grows.capped.trans uncapped) kept
      refine ⟨first ++ second, grows.trans later, encoded, .cons ⟨rfl, rfl, names.grow later.ids⟩ shown,
        ?_⟩
      intro entry member
      rw [mem_wanted]
      rcases List.mem_append.mp member with here | after
      · exact ⟨(needed entry here).2, cell, List.mem_cons_self, (needed entry here).1.symm⟩
      · obtain ⟨visible, other, inside, same⟩ := mem_wanted.mp (wants entry after)
        exact ⟨visible, other, List.mem_cons_of_mem _ inside, same⟩
    · rw [encodeCells_restarted (restarts uncapped)] at kept
      cases kept

/-- A pass whose styles fit beside those of the table does not restart it. -/
theorem encodeCells_fits {palette : TerminalPalette} {cells : List TerminalCell} {t : StyleTable}
    (sound : t.Sound) (kept : t.restarted = false) {room : Finset StyleKey}
    (held : ∀ key ∈ t.keys, key ∈ room) (needed : wanted palette cells ⊆ room)
    (fits : room.card ≤ styleCap) : (encodeCells palette cells t).2.restarted = false := by
  induction cells generalizing t with
  | nil => exact kept
  | cons cell rest ih =>
    have here : StyleKey.of cell.style palette ≠ {} → StyleKey.of cell.style palette ∈ room :=
      fun visible => needed (mem_wanted.mpr ⟨visible, cell, List.mem_cons_self, rfl⟩)
    have later : wanted palette rest ⊆ room := by
      intro key member
      obtain ⟨visible, other, inside, same⟩ := mem_wanted.mp member
      exact needed (mem_wanted.mpr ⟨visible, other, List.mem_cons_of_mem _ inside, same⟩)
    simp only [encodeCells]
    rcases intern_cases sound cell.style palette with
      ⟨first, grows, interned, -, added⟩ | ⟨visible, fresh, full, -⟩
    · refine ih interned (grows.restarted.trans kept) ?_ later
      intro key member
      rw [keys, grows.ids, List.map_append] at member
      rcases List.mem_append.mp member with old | new
      · exact held key old
      · obtain ⟨entry, inside, rfl⟩ := List.mem_map.mp new
        obtain ⟨same, visible⟩ := added entry inside
        exact same ▸ here (same ▸ visible)
    -- The new style and those of the table are all in the room, one more than it has.
    · exfalso
      have distinct : (StyleKey.of cell.style palette :: t.keys).Nodup :=
        List.nodup_cons.mpr ⟨fresh, sound.distinct⟩
      have within : (StyleKey.of cell.style palette :: t.keys).toFinset ⊆ room := by
        intro key member
        rcases List.mem_cons.mp (List.mem_toFinset.mp member) with rfl | old
        · exact here visible
        · exact held key old
      have count := Finset.card_le_card within
      rw [List.toFinset_card_of_nodup distinct, List.length_cons, Sound.length_keys] at count
      omega

/-- A pass without a restart has all it needed in the table. -/
theorem encodeCells_needs {palette : TerminalPalette} {cells : List TerminalCell} {t : StyleTable}
    (sound : t.Sound) (uncapped : t.capped = false)
    (kept : (encodeCells palette cells t).2.restarted = false) :
    (t.keys.toFinset ∪ wanted palette cells).card ≤ styleCap := by
  obtain ⟨added, grows, encoded, shown, -⟩ := encodeCells_grows sound uncapped kept
  have within : t.keys.toFinset ∪ wanted palette cells ⊆
      (encodeCells palette cells t).2.keys.toFinset := by
    intro key member
    rw [List.mem_toFinset]
    rcases Finset.mem_union.mp member with old | new
    · rw [keys, grows.ids, List.map_append]
      exact List.mem_append_left _ (List.mem_toFinset.mp old)
    · obtain ⟨visible, cell, inside, rfl⟩ := mem_wanted.mp new
      obtain ⟨id, default | member⟩ := shown.named inside
      · exact absurd default.1 visible
      · exact List.mem_map.mpr ⟨_, member, rfl⟩
  have count := Finset.card_le_card within
  rw [List.toFinset_card_of_nodup encoded.distinct, Sound.length_keys] at count
  exact count.trans encoded.bounded

/-- A pass does without a restart exactly when its styles fit beside those of the table. -/
theorem encodeCells_kept_iff {palette : TerminalPalette} {cells : List TerminalCell} {t : StyleTable}
    (sound : t.Sound) (uncapped : t.capped = false) (unmarked : t.restarted = false) :
    (encodeCells palette cells t).2.restarted = false ↔
      (t.keys.toFinset ∪ wanted palette cells).card ≤ styleCap := by
  constructor
  · exact encodeCells_needs sound uncapped
  · intro fits
    refine encodeCells_fits sound unmarked ?_ Finset.subset_union_right fits
    exact fun key held => Finset.mem_union_left _ (List.mem_toFinset.mpr held)

theorem encodeCells_append (palette : TerminalPalette) (first second : List TerminalCell)
    (t : StyleTable) : (encodeCells palette (first ++ second) t).2 =
      (encodeCells palette second (encodeCells palette first t).2).2 := by
  induction first generalizing t with
  | nil => rfl
  | cons cell rest ih => exact ih _

theorem encodeChunks_table (palette : TerminalPalette) (y : Nat) (rows : List (List TerminalCell))
    (t : StyleTable) :
    (encodeChunks palette y rows t).2 = (encodeCells palette rows.flatten t).2 := by
  induction rows generalizing y t with
  | nil => rfl
  | cons row rest ih =>
    rw [List.flatten_cons, encodeCells_append]
    exact ih _ _

theorem chunks_flatten {α : Type} {size : Nat} (positive : 0 < size) {fuel : Nat} {items : List α}
    (enough : items.length ≤ fuel) : (chunks size fuel items).flatten = items := by
  induction fuel generalizing items with
  | zero =>
    rw [List.length_eq_zero_iff.mp (Nat.le_zero.mp enough)]
    rfl
  | succ fuel ih =>
    cases items with
    | nil => rfl
    | cons item rest =>
      have shorter : ((item :: rest).drop size).length ≤ fuel := by
        rw [List.length_drop]
        rw [List.length_cons] at enough ⊢
        omega
      rw [chunks, List.flatten_cons, ih shorter, List.take_append_drop]
      simp

/-- The cells a history pass encodes. -/
def TerminalHistory.shown (history : TerminalHistory) : List TerminalCell :=
  if 0 < history.cols then history.cells else []

theorem encodeHistoryPass_table (history : TerminalHistory) (palette : TerminalPalette)
    (t : StyleTable) : (encodeHistoryPass history palette t).2 =
      (encodeCells palette (TerminalHistory.shown history) t).2 := by
  unfold encodeHistoryPass TerminalHistory.shown
  split
  · rename_i positive
    rw [encodeChunks_table, chunks_flatten positive (Nat.le_refl _)]
  · rfl

theorem StyleTable.Sound.beginEncode {t : StyleTable} (sound : t.Sound) : t.beginEncode.Sound :=
  ⟨sound.numbered, sound.distinct, sound.bounded⟩

/-- The styles of the read fit beside those of the table. -/
def HistoryFits (history : TerminalHistory) (palette : TerminalPalette) (t : StyleTable) : Prop :=
  (t.keys.toFinset ∪ wanted palette (TerminalHistory.shown history)).card ≤ styleCap

theorem encodeHistoryPass_kept_iff {history : TerminalHistory} {palette : TerminalPalette}
    {t : StyleTable} (sound : t.Sound) :
    (encodeHistoryPass history palette t.beginEncode).2.restarted = false ↔
      HistoryFits history palette t := by
  rw [encodeHistoryPass_table]
  exact encodeCells_kept_iff sound.beginEncode rfl rfl

/-- A read whose styles fit is encoded at once and grows the table. -/
theorem encodeHistory_fits {history : TerminalHistory} {palette : TerminalPalette} {t : StyleTable}
    (sound : t.Sound) (settled : t.pending = []) (fits : HistoryFits history palette t)
    (passes : Nat) (reset : Bool) :
    ∃ rows added t', encodeHistory history palette (passes + 1) t reset =
        some (rows, announced added, reset, t') ∧
      t'.Sound ∧ t'.ids = t.ids ++ added ∧ t'.pending = [] ∧
      ∀ entry ∈ added, entry.1 ∈ wanted palette (TerminalHistory.shown history) := by
  have kept := (encodeHistoryPass_kept_iff sound).mpr fits
  have table := encodeHistoryPass_table history palette t.beginEncode
  have unmarked := kept
  rw [table] at unmarked
  obtain ⟨added, grows, encoded, -, needed⟩ := encodeCells_grows sound.beginEncode rfl unmarked
  rw [← table] at grows encoded
  refine ⟨(encodeHistoryPass history palette t.beginEncode).1, added,
    { (encodeHistoryPass history palette t.beginEncode).2 with pending := [], restarted := false },
    ?_, ⟨encoded.numbered, encoded.distinct, encoded.bounded⟩, grows.ids, rfl, needed⟩
  simp only [encodeHistory, takeRestarted, kept, takePending]
  rw [grows.pending]
  simp [StyleTable.beginEncode, settled]

/-- A read whose styles do not fit is encoded on a cleared table, by later passes. -/
theorem encodeHistory_overflows {history : TerminalHistory} {palette : TerminalPalette}
    {t : StyleTable} (sound : t.Sound) (large : ¬HistoryFits history palette t) (passes : Nat)
    (reset : Bool) : encodeHistory history palette (passes + 1) t reset =
      encodeHistory history palette passes {} true := by
  have restarted : (encodeHistoryPass history palette t.beginEncode).2.restarted = true := by
    by_contra kept
    exact large ((encodeHistoryPass_kept_iff sound).mp (Bool.eq_false_iff.mpr kept))
  simp only [encodeHistory, takeRestarted, restarted]
  rfl

/-- A read with more styles than the table has room for is never encoded. -/
theorem encodeHistory_diverges {history : TerminalHistory} {palette : TerminalPalette}
    {t : StyleTable} (sound : t.Sound)
    (large : styleCap < (wanted palette (TerminalHistory.shown history)).card) (passes : Nat)
    (reset : Bool) : encodeHistory history palette passes t reset = none := by
  induction passes generalizing t reset with
  | zero => rfl
  | succ passes ih =>
    rw [encodeHistory_overflows sound]
    · exact ih (sound_empty [] false false) true
    · intro fits
      have count : (wanted palette (TerminalHistory.shown history)).card ≤
          (t.keys.toFinset ∪ wanted palette (TerminalHistory.shown history)).card :=
        Finset.card_le_card Finset.subset_union_right
      exact absurd (count.trans fits) (Nat.not_le.mpr large)

end PtyRuntime.Client
