import BundleCoverage.Proofs.ScriptLines
import BundleCoverage.Script.OffsetMapper
import Mathlib.Data.List.Basic

/-!
# Segments and original positions

A mapper leads to its sources in two ways.  Lines are counted through its segments, which
go from mappings to offsets; functions and blocks are located through original positions,
which go from an offset to the nearest mapping before it.  Where the mappings stand in the
text of the script (`OffsetMapper.Fits`), both see the same mappings at the same offsets
(`Fits.segments_eq`, `Fits.position?_eq`), so the original position of an offset is that of
the last segment up to it (`OffsetMapper.projections_agree`).
-/

namespace BundleCoverage

open SourceMap Text

/-! ## Mappings before a place -/

/-- In a list in which a property holds of all members up to some place, the members up to the
first that lacks it are all that have it. -/
theorem takeWhile_eq_filter {α : Type} {keep : α → Bool} {xs : List α}
    (h : xs.Pairwise fun a b => keep b → keep a) : xs.takeWhile keep = xs.filter keep := by
  induction xs with
  | nil => rfl
  | cons a xs ih =>
      obtain ⟨hfirst, hrest⟩ := List.pairwise_cons.1 h
      by_cases ha : keep a = true
      · rw [List.takeWhile_cons_of_pos ha, List.filter_cons_of_pos ha, ih hrest]
      · have hnone : xs.filter keep = [] :=
          List.filter_eq_nil_iff.2 fun b hb hkeep => ha (hfirst b hb hkeep)
        rw [List.takeWhile_cons_of_neg ha, List.filter_cons_of_neg ha, hnone]

theorem SourceMap.notAfter_iff {a b : Nat × Nat} :
    notAfter a b ↔ a.1 < b.1 ∨ a.1 = b.1 ∧ a.2 ≤ b.2 := by
  simp [notAfter]

/-- The mapping nearest to a place is the last of all that do not come after it. -/
theorem SourceMap.MappingTable.find_eq (t : MappingTable) (line column : Nat) :
    t.find line column
      = (t.mappings.filter fun m => notAfter m.position (line, column)).getLast? := by
  rw [find, takeWhile_eq_filter]
  refine t.sorted.imp ?_
  intro a b hab hb
  simp only [Mapping.le, notAfter_iff] at *
  omega

/-! ## Mappings in a script -/

namespace SourceMap.Mapping

/-- Whether a mapping is on a line that a script has. -/
def isOn (code : String) (mapping : Mapping) : Bool :=
  mapping.generatedLine < (scriptLines code).length

/-- The offset of a mapping in a script. -/
def offsetIn (code : String) (mapping : Mapping) : Nat :=
  unitsBefore (scriptLines code) mapping.generatedLine + mapping.generatedColumn.toNat

/-- A mapping on a line of a script has its column in this line, of which the line feed is
part, or any column on the last line, and its offset is a word. -/
def StandsIn (code : String) (mapping : Mapping) : Prop :=
  ∀ line ∈ (scriptLines code)[mapping.generatedLine]?,
    (mapping.generatedLine + 1 < (scriptLines code).length →
        mapping.generatedColumn.toNat ≤ unitLength line) ∧
      mapping.offsetIn code ≤ maxWord

instance (code : String) (mapping : Mapping) : Decidable (mapping.StandsIn code) :=
  inferInstanceAs (Decidable (∀ line ∈ (scriptLines code)[mapping.generatedLine]?, _ ∧ _))

end SourceMap.Mapping

namespace OffsetMapper

/-- The lines of a mapper are those of a script, of which each code unit has an offset, and
its mappings stand in this script. -/
structure Fits (m : OffsetMapper) (code : String) : Prop where
  /-- The lines are those of the script. -/
  lines : m.lines = .ofText code
  /-- Each code unit has an offset. -/
  length : unitLength code.toList ≤ maxWord
  /-- The mappings stand in the script. -/
  mappings : ∀ mapping ∈ m.table.mappings, mapping.StandsIn code

/-- The mappings on the lines of a script. -/
def mappingsOn (code : String) (table : MappingTable) : List Mapping :=
  table.mappings.filter (·.isOn code)

theorem mem_mappingsOn {code : String} {table : MappingTable} {mapping : Mapping} :
    mapping ∈ mappingsOn code table ↔ mapping ∈ table.mappings ∧ mapping.isOn code :=
  List.mem_filter

namespace Fits

variable {m : OffsetMapper} {code : String} {mapping : Mapping}

theorem inOrder (h : m.Fits code) : m.lines.InOrder := by
  rw [h.lines]
  exact LineIndex.inOrder_ofText code

theorem lineStart (h : m.Fits code) (n : Nat) :
    m.lines.lineStart n
      = (scriptLines code)[n]?.map fun _ => unitsBefore (scriptLines code) n := by
  rw [h.lines, LineIndex.lineStart_ofText h.length]

/-- The mappings on lines of the script have offsets, and no others. -/
theorem offset_eq (h : m.Fits code) (hmem : mapping ∈ m.table.mappings) :
    m.lines.offset mapping.generatedLine mapping.generatedColumn.toNat
      = if mapping.isOn code then
          some (mapping.offsetIn code)
        else none := by
  have hstands := h.mappings mapping hmem
  rw [LineIndex.offset, h.lineStart, Mapping.isOn]
  by_cases hline : mapping.generatedLine < (scriptLines code).length
  · obtain ⟨-, hword⟩ := hstands _ (List.getElem?_eq_getElem hline)
    rw [Mapping.offsetIn] at hword ⊢
    simp [hline, addWords, Nat.min_eq_left hword]
  · simp [hline]

/-- A mapping on a line of the script does not come after the position of an offset if its
own offset is not larger. -/
theorem notAfter_position_iff (h : m.Fits code) (hmem : mapping ∈ m.table.mappings)
    {line : List Char} (hline : (scriptLines code)[mapping.generatedLine]? = some line)
    (offset : Nat) :
    notAfter mapping.position (m.lines.position offset)
      ↔ mapping.offsetIn code ≤ offset := by
  obtain ⟨hinside, -⟩ := h.mappings mapping hmem line hline
  have hstart : m.lines.lineStart mapping.generatedLine
      = some (unitsBefore (scriptLines code) mapping.generatedLine) := by
    rw [h.lineStart, hline, Option.map_some]
  obtain ⟨own, hown, hle, hcolumn, -⟩ := h.inOrder.position_spec offset
  have hbefore := h.inOrder.le_position_iff hstart offset
  rw [notAfter_iff, Mapping.offsetIn, Mapping.position]
  constructor
  · rintro (hearlier | ⟨hsame, hcolumns⟩)
    · -- the next line of the script starts after the mapping, and not after the offset
      obtain ⟨next, hnext, -⟩ := h.inOrder.exists_lineStart hown hearlier
      have hreached := (h.inOrder.le_position_iff hnext offset).1 hearlier
      rw [h.lineStart] at hnext
      obtain ⟨later, hlater, rfl⟩ := Option.map_eq_some_iff.1 hnext
      have hcolumn := hinside (List.getElem?_eq_some_iff.1 hlater).1
      rw [Nat.succ_eq_add_one, unitsBefore_succ hline] at hreached
      omega
    · have hsame : mapping.generatedLine = (m.lines.position offset).1 := hsame
      rw [← hsame, hstart] at hown
      cases hown
      omega
  · intro hreached
    have hnotLater := hbefore.2 (Nat.le_trans (Nat.le_add_right ..) hreached)
    rcases Nat.lt_or_eq_of_le hnotLater with hearlier | hsame
    · exact .inl hearlier
    · rw [← hsame, hstart] at hown
      cases hown
      exact .inr ⟨hsame, by omega⟩

/-- A mapping does not come after the position of an offset if it is on a line of the script
and its own offset is not larger. -/
theorem notAfter_position (h : m.Fits code) (hmem : mapping ∈ m.table.mappings) (offset : Nat) :
    notAfter mapping.position (m.lines.position offset)
      = (mapping.isOn code
        && decide (mapping.offsetIn code ≤ offset)) := by
  rw [Bool.eq_iff_iff, Bool.and_eq_true, decide_eq_true_iff, Mapping.isOn, decide_eq_true_iff]
  by_cases hline : mapping.generatedLine < (scriptLines code).length
  · rw [h.notAfter_position_iff hmem (List.getElem?_eq_getElem hline), and_iff_right hline]
  · -- every offset lies on a line of the script
    obtain ⟨own, hown, -⟩ := h.inOrder.position_spec offset
    rw [h.lineStart] at hown
    obtain ⟨line, hown, -⟩ := Option.map_eq_some_iff.1 hown
    have hlt := (List.getElem?_eq_some_iff.1 hown).1
    rw [notAfter_iff, Mapping.position]
    constructor
    · intro hnotAfter
      omega
    · intro hon
      exact absurd hon.1 hline

/-! ## Both projections from the mappings on a script -/

theorem segments_eq (h : m.Fits code) :
    m.segments = (mappingsOn code m.table).map fun mapping =>
      ⟨mapping.offsetIn code, .ofMapping mapping⟩ := by
  rw [segments, mappingsOn, ← List.filterMap_eq_map, List.filterMap_filter]
  refine List.filterMap_congr fun mapping hmem => ?_
  rw [h.offset_eq hmem]
  split
  · rfl
  · rfl

theorem position?_eq (h : m.Fits code) (offset : Nat) :
    m.position? offset
      = ((mappingsOn code m.table).filter (·.offsetIn code ≤ offset)).getLast?.map .ofMapping := by
  rw [position?, mappingsOn, List.filter_filter]
  simp only [MappingTable.find_eq]
  congr 2
  refine List.filter_congr fun mapping hmem => ?_
  rw [h.notAfter_position hmem, Bool.and_comm]

/-- Mappings that stand in a script in order have ascending offsets. -/
theorem offsetIn_ascends (h : m.Fits code) :
    (mappingsOn code m.table).Pairwise (·.offsetIn code ≤ ·.offsetIn code) := by
  refine List.Pairwise.imp_of_mem ?_ (m.table.sorted.filter _)
  intro a b ha hb hab
  rw [mem_mappingsOn] at ha hb
  -- the later one does not come after its own offset, so neither does the earlier one
  have hown := h.notAfter_position hb.1 (b.offsetIn code)
  rw [hb.2, Bool.true_and, decide_eq_true (Nat.le_refl _)] at hown
  have hearlier : notAfter a.position (m.lines.position (b.offsetIn code)) := by
    rw [Mapping.le, notAfter_iff] at hab
    rw [notAfter_iff] at hown ⊢
    omega
  rw [h.notAfter_position ha.1, ha.2, Bool.true_and, decide_eq_true_iff] at hearlier
  exact hearlier

/-- Mappings on lines that the script does not have can be changed. -/
theorem withTable (h : m.Fits code) {table : MappingTable}
    (hsame : mappingsOn code table = mappingsOn code m.table) : { m with table }.Fits code where
  lines := h.lines
  length := h.length
  mappings mapping hmem := by
    by_cases hon : mapping.isOn code = true
    · have hmem' : mapping ∈ mappingsOn code m.table := by
        rw [← hsame, mem_mappingsOn]
        exact ⟨hmem, hon⟩
      exact h.mappings mapping (mem_mappingsOn.1 hmem').1
    · intro line hline
      have hlt := (List.getElem?_eq_some_iff.1 hline).1
      exact absurd (decide_eq_true hlt) hon

end Fits

/-- The original position of an offset is that of the last segment that does not stand after
it, segments come in the order of their offsets, and mappings on lines that the script does
not have are in neither. -/
theorem projections_agree {m : OffsetMapper} {code : String} (h : m.Fits code) :
    m.segments.Pairwise (·.offset ≤ ·.offset) ∧
      (∀ offset, m.position? offset
          = (m.segments.filter (·.offset ≤ offset)).getLast?.map (·.original)) ∧
      (∀ offset, m.position? offset = none ↔ ∀ s ∈ m.segments, offset < s.offset) ∧
      ∀ table, mappingsOn code table = mappingsOn code m.table →
        { m with table }.segments = m.segments ∧
          ∀ offset, { m with table }.position? offset = m.position? offset := by
  have hposition (offset : Nat) : m.position? offset
      = (m.segments.filter (·.offset ≤ offset)).getLast?.map (·.original) := by
    rw [h.position?_eq, h.segments_eq, List.filter_map, List.getLast?_map, Option.map_map]
    rfl
  refine ⟨?_, hposition, ?_, ?_⟩
  · rw [h.segments_eq, List.pairwise_map]
    exact h.offsetIn_ascends
  · intro offset
    rw [hposition, Option.map_eq_none_iff, List.getLast?_eq_none_iff, List.filter_eq_nil_iff]
    simp
  · intro table hsame
    have hfits := h.withTable hsame
    rw [hfits.segments_eq, h.segments_eq, hsame]
    refine ⟨rfl, fun offset => ?_⟩
    rw [hfits.position?_eq, h.position?_eq, hsame]

/-- A mapper with mappings at the line feeds of its script, past its end and on a line that it
does not have. -/
def scattered : OffsetMapper where
  map := { sources := ["src/a.ts"] }
  table :=
    ⟨[⟨0, 1, ⟨0, 4, 2, none⟩⟩, ⟨0, 4, ⟨0, 5, 0, none⟩⟩, ⟨1, 0, ⟨0, 6, 0, none⟩⟩,
      ⟨2, 7, ⟨0, 7, 1, none⟩⟩, ⟨2, 7, ⟨0, 3, 0, none⟩⟩, ⟨5, 0, ⟨0, 8, 8, none⟩⟩], by decide⟩
  lines := .ofText "a😀b\n\nc"

theorem fits_scattered : scattered.Fits "a😀b\n\nc" where
  lines := rfl
  length := by decide
  mappings := by decide

/-- The offset 13 is past the end, where two mappings stand, and the later one counts. -/
theorem position?_scattered :
    scattered.Fits "a😀b\n\nc" ∧
      scattered.segments.Pairwise (·.offset ≤ ·.offset) ∧
      scattered.position? 13
        = (scattered.segments.filter (·.offset ≤ 13)).getLast?.map (·.original) ∧
      scattered.position? 13 = some ⟨0, 4, 0⟩ := by
  obtain ⟨hascends, hposition, -⟩ := projections_agree fits_scattered
  exact ⟨fits_scattered, hascends, hposition 13, by decide⟩

end OffsetMapper

end BundleCoverage
