import BundleCoverage.Proofs.Flattening

/-!
# Canonical maps

A map is canonical if its version is 3 and it has a slot for the text of each source
(`SourceMap.Canonical`).  The maps that are read are the canonical ones: each map that is read is
canonical (`Canonical.of_ofText`), and a canonical map that was written is read back as it was
(`Canonical.ofText_compact`).

`Denotes` relates a value to the document that is read from it.  Where a plain document lists
`null` among its sources or names, the map has the empty text in that place.  In a section, this
text is a source like any other: it gets the root of the section in front, and its path is kept
once (`source_of_null_in_section`).
-/

namespace BundleCoverage

open Json

namespace SourceMap

/-! ## Values and documents -/

/-- A value is that of a document, with the sources and names that it lists. -/
inductive Denotes : Json → Document → Prop where
  | plain {value : Json} {map : SourceMap} :
      sections? value = none →
      Lists (field? documentFields "sources" value) map.sources →
      Lists (field? documentFields "names" value) map.names →
      Denotes value (.plain map)
  | sectioned {value : Json} {items : List Json} {version : UInt32} {file : Option String}
      {sections : List Section} :
      sections? value = some items →
      List.Forall₂ Denotes (items.filterMap embedded?) (sections.filterMap Section.document?) →
      Denotes value (.sectioned version file sections)

theorem denotes_of_read? {deeper : Bool} {read : Reader (List Section)} {value : Json}
    {document : Document}
    (hread : ∀ slot sections, read slot = some sections → ∃ items, slot = .arr items ∧
      List.Forall₂ Denotes (items.filterMap embedded?) (sections.filterMap Section.document?))
    (h : Document.read? deeper read value = some document) : Denotes value document := by
  rcases Document.read?_cases h with
    ⟨map, rfl, hnone, hsources, hnames, -⟩ | ⟨version, file, slot, sections, rfl, hfield, hslot⟩
  · exact .plain hnone hsources hnames
  · obtain ⟨items, rfl, hitems⟩ := hread slot sections hslot
    have hsome : sections? value = some items := by rw [sections?, hfield]
    exact .sectioned hsome hitems

theorem denotes_of_ofJson? {depth : Nat} {value : Json} {document : Document}
    (h : Document.ofJson? depth value = some document) : Denotes value document := by
  induction depth generalizing value document with
  | zero =>
      refine denotes_of_read? (fun _ _ hnone => ?_) h
      cases hnone
  | succ depth ih =>
      refine denotes_of_read? (fun slot sections hsections => ?_) h
      unfold toList? at hsections
      split at hsections
      · next items =>
        refine ⟨items, rfl, List.rel_filterMap (fun item s hs => ?_) (mapM_eq_some_iff.1 hsections)⟩
        match embedded? item, s.document?, Section.rel_of_ofJson? hs with
        | none, none, .none => exact .none
        | some _, some _, .some hdocument => exact .some (ih hdocument)
      · cases hsections

/-! ## Canonical maps -/

/-- A map with the version that is known and a slot for the text of each source. -/
structure Canonical (map : SourceMap) : Prop where
  version : map.version = 3
  aligned : map.Aligned

theorem PlainForm.canonical {document : Document} {map : SourceMap} (h : PlainForm document map) :
    map.Canonical := by
  refine ⟨?_, h.aligned⟩
  cases h with
  | plain hversion _ => exact hversion
  | sectioned _ hflat => exact hflat.version

theorem alignContent_eq_self {α β : Type} {sources : List α} {contents : List (Option β)}
    (h : contents.length = sources.length) : alignContent sources contents = contents := by
  induction sources generalizing contents with
  | nil => exact (List.length_eq_zero_iff.1 h).symm
  | cons source sources ih =>
      cases contents with
      | nil => cases h
      | cons content contents => rw [alignContent, ih (Nat.succ.inj h)]

theorem plain_toJson (map : SourceMap) : Plain map.toJson := by
  refine .obj fun m hm => ?_
  simp only [List.mem_append, List.mem_cons, List.not_mem_nil, or_false, Option.mem_toList,
    Option.map_eq_some_iff] at hm
  rcases hm with ((rfl | ⟨file, -, rfl⟩) | ⟨root, -, rfl⟩) | rfl | rfl | rfl | rfl
  · exact .nat _
  · exact .str _
  · exact .str _
  · exact .list .str _
  · exact .list (.ofOption .str) _
  · exact .list .str _
  · exact .str _

theorem record?_toJson (map : SourceMap) :
    record? documentFields map.toJson = some [some (.nat map.version.toNat), map.file.map .str,
      map.sourceRoot.map .str, some (.list .str map.sources),
      some (.list (.ofOption .str) map.sourcesContent), some (.list .str map.names),
      some (.str map.mappings), none] := by
  obtain ⟨version, file, root, sources, contents, names, mappings⟩ := map
  cases file <;> cases root <;> simp [toJson, record?, documentFields, fill]

/-- A map with a slot for each text is read back from its document. -/
theorem Aligned.read?_toJson {map : SourceMap} (h : map.Aligned) (read : Reader (List Section)) :
    Document.read? true read map.toJson = some (.plain map) := by
  have hoption (slot : Option String) :
      Json.orElse none (toOption? toText?) (slot.map .str) = some slot := by
    cases slot <;> rfl
  have htexts (texts : List String) : toTexts? (.list .str texts) = some texts := by
    refine toTexts?_eq_some_iff.2 ⟨texts.map some, ?_, ?_⟩
    · rw [list, list, List.map_map]
      rfl
    · rw [List.map_map]
      exact List.map_id texts
  have hcontents : toOption? (toList? (toOption? toText?))
      (.list (.ofOption .str) map.sourcesContent) = some (some map.sourcesContent) :=
    congrArg (Option.map some) (toTexts_eq_some_iff.2 rfl)
  unfold Document.read?
  rw [record?_toJson, Option.bind_eq_bind, Option.bind_some]
  dsimp only
  rw [Option.bind_eq_bind, bind_required (toWord?_nat _), hoption, hoption]
  dsimp only [Json.orElse, Option.bind_eq_bind, Option.bind_some]
  simp only [↓reduceIte, htexts, hcontents, Option.bind_some]
  show some (Document.plain { map with
    sourcesContent := alignContent map.sources map.sourcesContent }) = _
  rw [alignContent_eq_self h]

theorem Canonical.ofJson_toJson {map : SourceMap} (h : map.Canonical) :
    ofJson (some map.toJson) = .ok map := by
  have hread : Document.ofJson? maxDocumentDepth map.toJson = some (.plain map) :=
    h.aligned.read?_toJson _
  rw [ofJson, Option.bind_some, hread]
  dsimp only
  rw [Document.toMap, if_pos h.version]

theorem Canonical.ofText_compact {map : SourceMap} (h : map.Canonical) :
    ofText map.toJson.compact = .ok map := by
  rw [ofText, (plain_toJson map).parse?_compact, h.ofJson_toJson]

/-- The value and the document that a text is read as. -/
theorem exists_denotes_of_ofText {text : String} {map : SourceMap} (h : ofText text = .ok map) :
    ∃ value document,
      parse? text = some value ∧ Denotes value document ∧ PlainForm document map := by
  obtain ⟨document, hread, hform⟩ := plainForm_of_ofJson h
  obtain ⟨value, hvalue, hdocument⟩ := Option.bind_eq_some_iff.1 hread
  exact ⟨value, document, hvalue, denotes_of_ofJson? hdocument, hform⟩

theorem Canonical.of_ofText {text : String} {map : SourceMap} (h : ofText text = .ok map) :
    map.Canonical := by
  obtain ⟨_, _, -, -, hform⟩ := exists_denotes_of_ofText h
  exact hform.canonical

/-- The canonical maps are those that are read. -/
theorem canonical_iff_exists_text {map : SourceMap} :
    map.Canonical ↔ ∃ text, ofText text = .ok map := by
  constructor
  · intro h
    exact ⟨_, h.ofText_compact⟩
  · rintro ⟨text, h⟩
    exact .of_ofText h

/-- A map that is read is canonical, has an empty text for each `null` in the sources and names of
the documents that it comes from, and is read again as it is. -/
theorem canonical_of_ofText {text : String} {map : SourceMap} (h : ofText text = .ok map) :
    map.Canonical ∧
      (∃ value document, parse? text = some value ∧ Denotes value document ∧
        PlainForm document map) ∧
      ofText map.toJson.compact = .ok map := by
  have hcanonical := Canonical.of_ofText h
  exact ⟨hcanonical, exists_denotes_of_ofText h, hcanonical.ofText_compact⟩

/-- A map with `null` among its sources and names, and with more texts than sources. -/
def withNulls : Json :=
  .obj [("version", .nat 3), ("sources", .list (.ofOption .str) [none, some "b.ts"]),
    ("sourcesContent", .list .str ["A", "B", "C"]),
    ("names", .list (.ofOption .str) [some "f", none])]

/-- What is read from it. -/
def withoutNulls : SourceMap where
  sources := ["", "b.ts"]
  sourcesContent := [some "A", some "B"]
  names := ["f", ""]

theorem canonical_withoutNulls :
    ofText withNulls.compact = .ok withoutNulls ∧ withoutNulls.Canonical ∧
      (∃ value document, parse? withNulls.compact = some value ∧ Denotes value document ∧
        PlainForm document withoutNulls) ∧
      ofText withoutNulls.toJson.compact = .ok withoutNulls := by
  have hread : ofText withNulls.compact = .ok withoutNulls := by decide +kernel
  exact ⟨hread, canonical_of_ofText hread⟩

/-- A map in sections, with a root and `null` for a source in its only section. -/
def nullInSection : Json :=
  .obj [("version", .nat 3), ("sections", .arr [.obj [("map", .obj [("version", .nat 3),
    ("sourceRoot", .str "root"), ("sources", .list (.ofOption .str) [none])])]])]

/-- In a section, the empty text gets the root in front. -/
theorem source_of_null_in_section :
    ∃ map, ofText nullInSection.compact = .ok map ∧ map.sources = ["root/"] ∧ "" ∉ map.sources := by
  have hread : ofText nullInSection.compact
      = .ok { sources := ["root/"], sourcesContent := [none] } := by decide +kernel
  exact ⟨_, hread, rfl, by decide⟩

end SourceMap

end BundleCoverage
