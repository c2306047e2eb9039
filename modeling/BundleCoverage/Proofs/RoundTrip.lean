import BundleCoverage.Proofs.Deltas
import BundleCoverage.Proofs.Numbers

/-!
# Mappings read and written

Lines that are written are read back, unless there is no line or an original line that cannot
be counted from one (`decode_encode_eq_ok_iff`).

A mappings text that is read and written again becomes canonical: no group that is not empty
has an empty segment, and all numbers have their shortest digits (`IsCanonical`).  So the text
stays as it was just if it is canonical, and it never gets longer (`encode_of_decode`).
-/

namespace BundleCoverage.SourceMap

open BundleCoverage

/-! ## Pieces of a text -/

section Pieces

variable {sep : Char}

theorem length_join_cons (piece : List Char) {pieces : List (List Char)} (h : pieces ≠ []) :
    (Text.join sep (piece :: pieces)).length
      = piece.length + 1 + (Text.join sep pieces).length := by
  rw [Text.join_cons sep piece h, List.length_append, List.length_cons]
  omega

theorem length_le_length_join_cons (piece : List Char) (pieces : List (List Char)) :
    piece.length + (Text.join sep pieces).length ≤ (Text.join sep (piece :: pieces)).length := by
  by_cases h : pieces = []
  · rw [h]
    exact Nat.le_refl _
  · rw [length_join_cons piece h]
    omega

/-- Pieces that are no longer make a text that is no longer. -/
theorem length_join_le {pieces pieces' : List (List Char)}
    (h : List.Forall₂ (fun piece piece' => List.length piece' ≤ List.length piece) pieces pieces') :
    (Text.join sep pieces').length ≤ (Text.join sep pieces).length := by
  induction h with
  | nil => exact Nat.le_refl _
  | @cons piece piece' rest rest' hpiece hrest ih =>
      by_cases hnil : rest = []
      · subst hnil
        cases hrest
        exact hpiece
      · have hnil' : rest' ≠ [] := by
          rintro rfl
          cases hrest
          exact hnil rfl
        rw [length_join_cons piece hnil, length_join_cons piece' hnil']
        omega

theorem length_join_filter_le (keep : List Char → Bool) (pieces : List (List Char)) :
    (Text.join sep (pieces.filter keep)).length ≤ (Text.join sep pieces).length := by
  induction pieces with
  | nil => exact Nat.le_refl _
  | cons piece rest ih =>
      have hrest : piece.length + (Text.join sep rest).length
          ≤ (Text.join sep (piece :: rest)).length := length_le_length_join_cons piece rest
      by_cases hkeep : keep piece
      · rw [List.filter_cons_of_pos hkeep]
        by_cases hnil : rest.filter keep = []
        · rw [hnil]
          exact Nat.le_trans (Nat.le_add_right ..) hrest
        · have hnil' : rest ≠ [] := by
            rintro rfl
            exact hnil rfl
          rw [length_join_cons piece hnil, length_join_cons piece hnil']
          omega
      · rw [List.filter_cons_of_neg hkeep]
        omega

theorem mem_join {c : Char} {pieces : List (List Char)} (h : c ∈ Text.join sep pieces) :
    c = sep ∨ ∃ piece ∈ pieces, c ∈ piece := by
  induction pieces with
  | nil => cases h
  | cons piece rest ih =>
      by_cases hnil : rest = []
      · subst hnil
        exact .inr ⟨piece, List.mem_singleton_self piece, h⟩
      · rw [Text.join_cons sep piece hnil, List.mem_append, List.mem_cons] at h
        rcases h with hpiece | hsep | hrest
        · exact .inr ⟨piece, List.mem_cons_self .., hpiece⟩
        · exact .inl hsep
        · rcases ih hrest with hsep | ⟨piece', hmem, hc⟩
          · exact .inl hsep
          · exact .inr ⟨piece', List.mem_cons_of_mem _ hmem, hc⟩

/-- Pieces without separator are those of a text just if they make the text. -/
theorem join_eq_iff {pieces : List (List Char)} {text : List Char} (hne : pieces ≠ [])
    (h : ∀ piece ∈ pieces, sep ∉ piece) :
    Text.join sep pieces = text ↔ pieces = Text.split sep text := by
  constructor
  · rintro rfl
    exact (Text.split_join hne h).symm
  · rintro rfl
    exact Text.join_split sep text

end Pieces

/-! ## Written segments -/

/-- What is written holds digits only. -/
theorem isSome_digitValue?_of_mem_encode {values : List Int} {c : Char}
    (h : c ∈ values.flatMap Vlq.encode) : (Base64.digitValue? c).isSome := by
  obtain ⟨v, -, hc⟩ := List.mem_flatMap.1 h
  exact (Vlq.isNumber_encode v).isSome_digitValue? hc

theorem flatMap_encode_ne_nil {values : List Int} (h : values ≠ []) :
    values.flatMap Vlq.encode ≠ [] := by
  cases values with
  | nil => exact absurd rfl h
  | cons v values =>
      rw [List.flatMap_cons]
      exact List.append_ne_nil_of_left_ne_nil (Vlq.isNumber_encode v).ne_nil _

theorem notMem_written {line : List (List Int)} {sep : Char}
    (hsep : Base64.digitValue? sep = none) :
    ∀ text ∈ line.map (·.flatMap Vlq.encode), sep ∉ text := by
  intro text htext hmem
  obtain ⟨values, -, rfl⟩ := List.mem_map.1 htext
  have := isSome_digitValue?_of_mem_encode hmem
  rw [hsep] at this
  cases this

theorem notMem_groupText (line : List (List Int)) : ';' ∉ groupText line := by
  intro hmem
  cases mem_join hmem with
  | inl hsep => cases hsep
  | inr hpiece =>
      obtain ⟨text, htext, hc⟩ := hpiece
      exact notMem_written (by decide) text htext hc

/-- The segments of a written line are those it was written with. -/
theorem segmentTexts_groupText {line : List (List Int)} (h : ∀ values ∈ line, values ≠ []) :
    segmentTexts (groupText line) = line.map (·.flatMap Vlq.encode) := by
  cases line with
  | nil => rfl
  | cons values rest =>
      rw [segmentTexts, groupText,
        Text.split_join (by simp) (notMem_written (by decide)), List.filter_eq_self]
      intro text htext
      obtain ⟨values', hvalues', rfl⟩ := List.mem_map.1 htext
      simpa using flatMap_encode_ne_nil (h values' hvalues')

/-! ## Lines read back -/

theorem decodeChars_eq_ok_iff {text : List Char} {lines : Lines} :
    decodeChars text = .ok lines ↔
      List.Forall₂ (fun group line => List.Forall₂ Holds (segmentTexts group) line)
        (Text.split ';' text) (Totals.lineDeltas {} lines) ∧
      ∀ segments ∈ lines, ∀ s ∈ segments, s.HasLine :=
  decodeGroups_eq_ok_iff

theorem encodeChars_eq (lines : Lines) :
    encodeChars lines = Text.join ';' ((Totals.lineDeltas {} lines).map groupText) := by
  rw [encodeChars, encodeGroups_eq]

/-- Lines are read back from the text they are written as. -/
theorem decodeChars_encodeChars {lines : Lines} (hne : lines ≠ [])
    (hlines : ∀ segments ∈ lines, ∀ s ∈ segments, s.HasLine) :
    decodeChars (encodeChars lines) = .ok lines := by
  have hdeltas : Totals.lineDeltas {} lines ≠ [] := Totals.lineDeltas_ne_nil {} hne
  refine decodeChars_eq_ok_iff.2 ⟨?_, hlines⟩
  rw [encodeChars_eq, Text.split_join (by simpa using hdeltas), List.forall₂_map_left_iff,
    List.forall₂_same]
  · intro line hline
    rw [segmentTexts_groupText (Totals.ne_nil_of_mem_lineDeltas hline),
      List.forall₂_map_left_iff, List.forall₂_same]
    intro values hvalues
    refine Vlq.decode_flatMap_encode fun v hv => ?_
    have := Totals.AreWords.initial.natAbs_le_of_mem_lineDeltas hline values hvalues v hv
    simp only [maxWord] at this
    omega
  · intro group hgroup
    obtain ⟨line, -, rfl⟩ := List.mem_map.1 hgroup
    exact notMem_groupText line

theorem decode_encode {lines : Lines} (hne : lines ≠ [])
    (hlines : ∀ segments ∈ lines, ∀ s ∈ segments, s.HasLine) :
    decode (encode lines) = .ok lines := by
  rw [decode, encode, String.toList_ofList]
  exact decodeChars_encodeChars hne hlines

theorem hasLine_of_decode {text : String} {lines : Lines} (h : decode text = .ok lines) :
    ∀ segments ∈ lines, ∀ s ∈ segments, s.HasLine :=
  (decodeChars_eq_ok_iff.1 h).2

theorem ne_nil_of_decode {text : String} {lines : Lines} (h : decode text = .ok lines) :
    lines ≠ [] := by
  rintro rfl
  obtain ⟨hgroups, -⟩ := decodeChars_eq_ok_iff.1 h
  exact Text.split_ne_nil ';' text.toList (List.forall₂_nil_right_iff.1 hgroups)

/-- Lines are read back as they are, unless there is no line or an original line that is the
last value of its type. -/
theorem decode_encode_eq_ok_iff (lines : Lines) :
    decode (encode lines) = .ok lines ↔
      lines ≠ [] ∧
        ∀ segments ∈ lines, ∀ s ∈ segments, ∀ p, s.source = some p →
          p.originalLine.toNat ≠ maxWord := by
  constructor
  · intro h
    -- even the empty text has a line
    exact ⟨ne_nil_of_decode h, hasLine_of_decode h⟩
  · rintro ⟨hne, hlines⟩
    exact decode_encode hne hlines

/-! ## Canonical texts -/

/-- Whether a group is written as it would be again: it has no empty segment unless it is empty,
and all its numbers have their shortest digits. -/
def IsCanonicalGroup (group : List Char) : Prop :=
  (group ≠ [] → [] ∉ Text.split ',' group) ∧
    ∀ segment ∈ Text.split ',' group, ∀ number ∈ Vlq.numbers segment, Vlq.IsShortest number

/-- Whether all groups of a mappings text are canonical. -/
def IsCanonical (text : List Char) : Prop := ∀ group ∈ Text.split ';' text, IsCanonicalGroup group

instance : DecidablePred IsCanonicalGroup := fun _ => inferInstanceAs (Decidable (_ ∧ _))

instance : DecidablePred IsCanonical := fun text =>
  inferInstanceAs (Decidable (∀ group ∈ Text.split ';' text, IsCanonicalGroup group))

theorem forall₂_and_right {α β : Type} {r : α → β → Prop} {p : β → Prop} {as : List α}
    {bs : List β} (h : List.Forall₂ r as bs) (hp : ∀ b ∈ bs, p b) :
    List.Forall₂ (fun a b => r a b ∧ p b) as bs := by
  induction h with
  | nil => exact .nil
  | cons hab hrest ih =>
      obtain ⟨hb, hbs⟩ := List.forall_mem_cons.1 hp
      exact .cons ⟨hab, hb⟩ (ih hbs)

/-- Members that are kept one by one are kept as a list. -/
theorem map_eq_iff_of_forall₂ {α β : Type} {f : β → α} {p : α → Prop} {as : List α} {bs : List β}
    (h : List.Forall₂ (fun a b => f b = a ↔ p a) as bs) : bs.map f = as ↔ ∀ a ∈ as, p a := by
  induction h with
  | nil => simp
  | cons hab hrest ih => rw [List.map_cons, List.cons.injEq, hab, ih, List.forall_mem_cons]

theorem written_eq_iff {texts : List (List Char)} {line : List (List Int)}
    (h : List.Forall₂ Holds texts line) :
    line.map (·.flatMap Vlq.encode) = texts ↔
      ∀ text ∈ texts, ∀ number ∈ Vlq.numbers text, Vlq.IsShortest number :=
  map_eq_iff_of_forall₂ (h.imp fun _ _ htext => Vlq.flatMap_encode_eq_iff htext)

theorem length_groupText_le {group : List Char} {line : List (List Int)}
    (h : List.Forall₂ Holds (segmentTexts group) line) :
    (groupText line).length ≤ group.length := by
  have hsegments : List.Forall₂ (fun piece piece' => List.length piece' ≤ List.length piece)
      (segmentTexts group) (line.map (·.flatMap Vlq.encode)) := by
    rw [List.forall₂_map_right_iff]
    exact h.imp fun text values htext => Vlq.length_flatMap_encode_le htext
  calc (groupText line).length
      ≤ (Text.join ',' (segmentTexts group)).length := length_join_le hsegments
    _ ≤ (Text.join ',' (Text.split ',' group)).length := length_join_filter_le _ _
    _ = group.length := by rw [Text.join_split]

theorem segmentTexts_eq {group : List Char} (h : [] ∉ Text.split ',' group) :
    segmentTexts group = Text.split ',' group := by
  rw [segmentTexts, List.filter_eq_self]
  intro text htext
  have hne : text ≠ [] := fun hnil => h (hnil ▸ htext)
  simpa using hne

/-- A group without segments is written again just if it is empty. -/
theorem isCanonicalGroup_of_segmentTexts_nil {group : List Char} (h : segmentTexts group = []) :
    IsCanonicalGroup group ↔ group = [] := by
  constructor
  · rintro ⟨hempty, -⟩
    by_contra hne
    refine Text.split_ne_nil ',' group ?_
    rw [← segmentTexts_eq (hempty hne), h]
  · rintro rfl
    decide

theorem groupText_eq_iff {group : List Char} {line : List (List Int)}
    (h : List.Forall₂ Holds (segmentTexts group) line) (hne : ∀ values ∈ line, values ≠ []) :
    groupText line = group ↔ IsCanonicalGroup group := by
  by_cases hline : line = []
  · subst hline
    rw [isCanonicalGroup_of_segmentTexts_nil (List.forall₂_nil_right_iff.1 h)]
    exact eq_comm
  · rw [groupText, join_eq_iff (by simpa using hline) (notMem_written (by decide))]
    constructor
    · intro heq
      have hempty : [] ∉ Text.split ',' group := by
        rw [← heq]
        intro hmem
        obtain ⟨values, hvalues, hnil⟩ := List.mem_map.1 hmem
        exact flatMap_encode_ne_nil (hne values hvalues) hnil
      rw [segmentTexts_eq hempty] at h
      exact ⟨fun _ => hempty, (written_eq_iff h).1 heq⟩
    · rintro ⟨hempty, hshort⟩
      have hgroup : group ≠ [] := by
        rintro rfl
        cases h
        exact hline rfl
      rw [segmentTexts_eq (hempty hgroup)] at h
      exact (written_eq_iff h).2 hshort

/-- A mappings text is written as it was read just if it is canonical, and never longer. -/
theorem encode_of_decode {text : String} {lines : Lines} (h : decode text = .ok lines) :
    (encode lines = text ↔ IsCanonical text.toList) ∧ (encode lines).length ≤ text.length := by
  obtain ⟨hgroups, -⟩ := decodeChars_eq_ok_iff.1 h
  have hread := forall₂_and_right hgroups fun line hline => Totals.ne_nil_of_mem_lineDeltas hline
  have hne : (Totals.lineDeltas {} lines).map groupText ≠ [] := by
    simpa using Totals.lineDeltas_ne_nil {} (ne_nil_of_decode h)
  have hsep : ∀ group ∈ (Totals.lineDeltas {} lines).map groupText, ';' ∉ group := by
    intro group hgroup
    obtain ⟨line, -, rfl⟩ := List.mem_map.1 hgroup
    exact notMem_groupText line
  constructor
  · rw [← String.toList_inj, encode, String.toList_ofList, encodeChars_eq, join_eq_iff hne hsep]
    exact map_eq_iff_of_forall₂ (hread.imp fun group line hline => groupText_eq_iff hline.1 hline.2)
  · rw [encode, String.length_ofList, encodeChars_eq, ← String.length_toList]
    calc (Text.join ';' ((Totals.lineDeltas {} lines).map groupText)).length
        ≤ (Text.join ';' (Text.split ';' text.toList)).length := by
          refine length_join_le (List.forall₂_map_right_iff.2 ?_)
          exact hread.imp fun group line hline => length_groupText_le hline.1
      _ = text.toList.length := by rw [Text.join_split]

/-- A negative zero and an empty segment are not written again. -/
theorem encode_of_decode_loose :
    decode "AAAA,,EBAE" = .ok
        [[⟨0, some ⟨0, 0, 0, none⟩⟩, ⟨2, some ⟨0, 0, 2, none⟩⟩]] ∧
      encode [[⟨0, some ⟨0, 0, 0, none⟩⟩, ⟨2, some ⟨0, 0, 2, none⟩⟩]] ≠ "AAAA,,EBAE" ∧
      (encode [[⟨0, some ⟨0, 0, 0, none⟩⟩, ⟨2, some ⟨0, 0, 2, none⟩⟩]]).length
        ≤ "AAAA,,EBAE".length := by
  have hread : decode "AAAA,,EBAE" = .ok
      [[⟨0, some ⟨0, 0, 0, none⟩⟩, ⟨2, some ⟨0, 0, 2, none⟩⟩]] := by decide +kernel
  refine ⟨hread, fun hsame => ?_, (encode_of_decode hread).2⟩
  have hcanonical := (encode_of_decode hread).1.1 hsame
  exact absurd hcanonical (by decide +kernel)

end BundleCoverage.SourceMap
