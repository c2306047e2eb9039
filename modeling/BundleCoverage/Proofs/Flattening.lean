import BundleCoverage.Proofs.MapDocuments
import BundleCoverage.Proofs.Reindexing

/-!
# Maps in sections, flattened

A map in sections becomes one plain map (`Flattening`).  It has each source and each name once,
in the order of first appearance, and each source with the first text that comes with it.  Its
mappings are those of the first embedded section.

`PlainForm` says this for documents, in which sections may again hold maps in sections, and
`plainForm_of_ofJson` that reading a document brings it into this form.
-/

namespace BundleCoverage.SourceMap

open BundleCoverage

/-! ## Several maps as one -/

/-- The sources of a map, each with its path and its text. -/
def occurrences (map : SourceMap) : List SourceText :=
  map.sources.mapIdx fun i source => ⟨joinSourceRoot map.sourceRoot source, map.sourceContent? i⟩

theorem map_path_occurrences (map : SourceMap) : (occurrences map).map (·.path) = pathsOf map := by
  refine List.ext_getElem? fun i => ?_
  rw [occurrences, pathsOf, List.getElem?_map, List.getElem?_mapIdx, List.getElem?_map,
    Option.map_map]
  rfl

/-- A map that has a slot for the text of each source. -/
def Aligned (map : SourceMap) : Prop := map.sourcesContent.length = map.sources.length

theorem Aligned.sourceTexts_eq {map : SourceMap} (h : map.Aligned) :
    sourceTexts map = occurrences map := by
  unfold Aligned at h
  refine List.ext_getElem (by simp [sourceTexts, occurrences, h]) fun i hi hi' => ?_
  have hlt : i < map.sourcesContent.length := by
    rw [occurrences, List.length_mapIdx] at hi'
    omega
  have hcontent : map.sourceContent? i = map.sourcesContent[i] := by
    rw [sourceContent?, List.getElem?_eq_getElem hlt, Option.join_some]
  simp [sourceTexts, occurrences, hcontent]

/-- The indices of a source position are in range. -/
structure SourcePosition.InRange (map : SourceMap) (p : SourcePosition) : Prop where
  source : p.sourceIndex.toNat < map.sources.length
  name : ∀ n ∈ p.nameIndex, n.toNat < map.names.length

/-- One map has the sources and names of several maps, and the mappings of the first. -/
structure Flattening (file : Option String) (maps : List SourceMap) (map : SourceMap) : Prop where
  version : map.version = 3
  file : map.file = file
  sourceRoot : map.sourceRoot = none
  /-- Each path stands once, at the place of its first occurrence. -/
  sources : map.sources = (maps.flatMap pathsOf).eraseDups
  names : map.names = (maps.flatMap (·.names)).eraseDups
  /-- Each source has the first text that comes with its path. -/
  sourcesContent : map.sourcesContent = map.sources.map (firstText? (maps.flatMap occurrences))
  mappings : ∀ first ∈ maps.head?, ∃ before after,
    first.mappingTable = .ok before ∧ map.mappingTable = .ok after ∧
      List.Forall₂ (Mapping.Moved first map) before.mappings after.mappings
  noMappings : maps = [] → map.mappings = ""
  inRange : ∃ lines, decode map.mappings = .ok lines ∧
    ∀ segments ∈ lines, ∀ s ∈ segments, ∀ p ∈ s.source, p.InRange map

theorem Flattening.aligned {file : Option String} {maps : List SourceMap} {map : SourceMap}
    (h : Flattening file maps map) : map.Aligned := by
  rw [Aligned, h.sourcesContent, List.length_map]

theorem SourcePosition.Moved.inRange {map target : SourceMap} {p q : SourcePosition}
    (h : SourcePosition.Moved map target p q) : q.InRange target := by
  obtain ⟨path, -, hpath⟩ := h.path
  obtain ⟨source, hsource, -⟩ := Option.map_eq_some_iff.1 hpath
  refine ⟨(List.getElem?_eq_some_iff.1 hsource).1, fun n hn => ?_⟩
  cases hname : p.name? map with
  | none =>
      rw [h.noName hname] at hn
      cases hn
  | some name =>
      have htarget := h.name name hname
      rw [SourcePosition.name?, hn, Option.bind_some] at htarget
      exact (List.getElem?_eq_some_iff.1 htarget).1

theorem Segment.Moved.inRange {map target : SourceMap} {s t : Segment}
    (h : Segment.Moved map target s t) : ∀ q ∈ t.source, q.InRange target := by
  intro q hq
  obtain ⟨p, -, hmoved⟩ := h.exists_source hq
  exact hmoved.inRange

theorem inRange_of_moved {map target : SourceMap} {before after : Lines}
    (h : List.Forall₂ (List.Forall₂ (Segment.Moved map target)) before after) :
    ∀ segments ∈ after, ∀ t ∈ segments, ∀ q ∈ t.source, q.InRange target := by
  refine forall_mem_of_forall₂ h fun segments segments' hsegments => ?_
  exact forall_mem_of_forall₂ hsegments fun s t ht => ht.inRange

/-- The common sources, names and texts of several maps, with some mappings. -/
def joined (file : Option String) (maps : List SourceMap) (mappings : String) : SourceMap where
  file := file
  sources := (maps.flatMap pathsOf).eraseDups
  sourcesContent := (maps.flatMap pathsOf).eraseDups.map (firstText? (maps.flatMap occurrences))
  names := (maps.flatMap (·.names)).eraseDups
  mappings := mappings

theorem foldl_addSource_sourceTexts {maps : List SourceMap} (h : ∀ m ∈ maps, m.Aligned) :
    (maps.flatMap sourceTexts).foldl addSource []
      = (maps.flatMap pathsOf).eraseDups.map fun path =>
          ⟨path, firstText? (maps.flatMap occurrences) path⟩ := by
  have htexts : maps.flatMap sourceTexts = maps.flatMap occurrences :=
    List.flatMap_congr fun m hm => (h m hm).sourceTexts_eq
  have hpaths : (maps.flatMap occurrences).map (·.path) = maps.flatMap pathsOf := by
    rw [List.map_flatMap]
    exact List.flatMap_congr fun m _ => map_path_occurrences m
  rw [htexts, foldl_addSource_eq, hpaths]

theorem flatten_cons {file : Option String} {first : SourceMap} {rest : List SourceMap}
    (h : ∀ m ∈ first :: rest, m.Aligned) :
    flatten file (first :: rest)
      = (reindex first ((first :: rest).flatMap pathsOf).eraseDups
          ((first :: rest).flatMap (·.names)).eraseDups).map (joined file (first :: rest)) := by
  unfold flatten
  simp only [foldl_addSource_sourceTexts h, foldl_addName, List.map_map, Function.comp_def,
    List.map_id']
  rfl

theorem flattening_of_flatten {file : Option String} {maps : List SourceMap} {map : SourceMap}
    (haligned : ∀ m ∈ maps, m.Aligned) (h : flatten file maps = .ok map) :
    Flattening file maps map := by
  cases maps with
  | nil =>
      cases h
      refine ⟨rfl, rfl, rfl, rfl, rfl, rfl, fun first hfirst => ?_, fun _ => rfl, [[]], rfl, ?_⟩
      · cases hfirst
      · simp
  | cons first rest =>
      rw [flatten_cons haligned] at h
      obtain ⟨text, htext, rfl⟩ := map_eq_ok_iff.1 h
      have hextends : Extends first (joined file (first :: rest) text) (rest.flatMap pathsOf)
          (rest.flatMap (·.names)) := ⟨rfl, rfl, rfl⟩
      obtain ⟨before, after, hbefore, hafter, hmoved⟩ := decode_reindex hextends htext
      refine ⟨rfl, rfl, rfl, rfl, rfl, rfl, ?_, fun hnil => ?_, after, hafter,
        inRange_of_moved hmoved⟩
      · rintro _ ⟨rfl⟩
        exact ⟨.ofLines before, .ofLines after, map_eq_ok_iff.2 ⟨before, hbefore, rfl⟩,
          map_eq_ok_iff.2 ⟨after, hafter, rfl⟩, ofLines_moved hmoved⟩
      · cases hnil

/-! ## Documents -/

theorem sectionMaps_eq (sections : List Section) :
    sectionMaps sections = (sections.filterMap Section.document?).mapM Document.toMap := by
  induction sections with
  | nil => rfl
  | cons s rest ih =>
      cases s with
      | elsewhere =>
          rw [sectionMaps, sectionMap, List.filterMap_cons_none rfl, ← ih]
          cases sectionMaps rest <;> rfl
      | embedded offset document =>
          rw [sectionMaps, sectionMap, List.filterMap_cons, Section.document?, List.mapM_cons, ← ih]
          cases document.toMap with
          | error e => rfl
          | ok map => cases sectionMaps rest <;> rfl

/-- A document in which every plain map has a slot for the text of each source. -/
inductive Document.Aligned : Document → Prop where
  | plain {map : SourceMap} : map.Aligned → Aligned (.plain map)
  | sectioned {version : UInt32} {file : Option String} {sections : List Section} :
      (∀ document ∈ sections.filterMap Section.document?, Aligned document) →
      Aligned (.sectioned version file sections)

/-- The map that a document stands for: a plain map stands for itself, and a map in sections for
the flattening of what its embedded sections stand for. -/
inductive PlainForm : Document → SourceMap → Prop where
  | plain {map : SourceMap} : map.version = 3 → map.Aligned → PlainForm (.plain map) map
  | sectioned {file : Option String} {sections : List Section} {maps : List SourceMap}
      {map : SourceMap} :
      List.Forall₂ PlainForm (sections.filterMap Section.document?) maps →
      Flattening file maps map → PlainForm (.sectioned 3 file sections) map

theorem PlainForm.aligned {document : Document} {map : SourceMap} (h : PlainForm document map) :
    map.Aligned := by
  cases h with
  | plain _ haligned => exact haligned
  | sectioned _ hflat => exact hflat.aligned

theorem Document.Aligned.plainForm {document : Document} (h : document.Aligned) {map : SourceMap}
    (hmap : document.toMap = .ok map) : PlainForm document map := by
  induction h generalizing map with
  | plain haligned =>
      rw [Document.toMap] at hmap
      split at hmap
      · next hversion =>
        cases hmap
        exact .plain hversion haligned
      · cases hmap
  | @sectioned version file sections hdocuments ih =>
      rw [Document.toMap] at hmap
      split at hmap
      · next hversion =>
        subst hversion
        split at hmap
        · next maps hmaps =>
          have hforms : List.Forall₂ PlainForm (sections.filterMap Section.document?) maps := by
            rw [sectionMaps_eq, mapM_eq_ok_iff] at hmaps
            refine ((List.forall₂_and_left _ _).2 ⟨@ih, hmaps⟩).imp ?_
            rintro d m ⟨hd, hm⟩
            exact hd hm
          have haligned : ∀ m ∈ maps, m.Aligned :=
            forall_mem_of_forall₂ hforms fun d m hm => hm.aligned
          exact .sectioned hforms (flattening_of_flatten haligned hmap)
        · cases hmap
      · cases hmap

/-! ## Reading -/

theorem Document.aligned_of_read? {deeper : Bool} {sections? : Json.Reader (List Section)}
    {value : Json} {document : Document}
    (hsections : ∀ value sections, sections? value = some sections →
      ∀ d ∈ sections.filterMap Section.document?, d.Aligned)
    (h : Document.read? deeper sections? value = some document) : document.Aligned := by
  rcases read?_cases h with ⟨map, rfl, -, -, -, haligned⟩ | ⟨_, _, slot, sections, rfl, -, hread⟩
  · exact .plain haligned
  · exact .sectioned (hsections slot sections hread)

theorem Document.aligned_of_ofJson? {depth : Nat} {value : Json} {document : Document}
    (h : Document.ofJson? depth value = some document) : document.Aligned := by
  induction depth generalizing value document with
  | zero =>
      refine aligned_of_read? (fun _ _ hnone => ?_) h
      cases hnone
  | succ depth ih =>
      refine aligned_of_read? (fun value sections hsections d hd => ?_) h
      obtain ⟨s, hs, hdocument⟩ := List.mem_filterMap.1 hd
      obtain ⟨item, hitem⟩ := exists_of_mem_toList? hsections hs
      obtain ⟨inner, hinner⟩ := Section.exists_of_document? hitem hdocument
      exact ih hinner

/-- What is read from a document with sections keeps the meaning of the document. -/
theorem plainForm_of_ofJson {value : Option Json} {map : SourceMap}
    (hmap : ofJson value = .ok map) :
    ∃ document, value.bind (Document.ofJson? maxDocumentDepth) = some document ∧
      PlainForm document map := by
  unfold ofJson at hmap
  split at hmap
  · cases hmap
  · next document hdocument =>
    obtain ⟨value, -, hread⟩ := Option.bind_eq_some_iff.1 hdocument
    exact ⟨document, hdocument, (Document.aligned_of_ofJson? hread).plainForm hmap⟩

/-- A map in sections whose first section is one, too.  The innermost map lists a file twice, with
its text only the second time, and has a name index out of range. -/
def nestedSections : Json :=
  .obj [("version", .nat 3), ("sections", .arr [
    .obj [("map", .obj [("version", .nat 3), ("sections", .arr [
      .obj [("map", .obj [("version", .nat 3), ("sourceRoot", .str "lib/"),
        ("sources", .list .str ["a.ts", "b.ts", "a.ts"]),
        ("sourcesContent", .list (.ofOption .str) [none, some "B", some "A"]),
        ("names", .list .str ["f", "f"]), ("mappings", .str "AAAAC,CCAAE;CCAA")])]])])],
    .obj [("url", .str "c.js.map")],
    .obj [("map", .obj [("version", .nat 3), ("sources", .list .str ["c.ts", "lib/b.ts"]),
      ("names", .list .str ["g"]), ("mappings", .str "AAAA")])]])]

theorem plainForm_of_nestedSections :
    ∃ document,
      (some nestedSections).bind (Document.ofJson? maxDocumentDepth) = some document ∧
      PlainForm document
        { sources := ["lib/a.ts", "lib/b.ts", "c.ts"]
          sourcesContent := [some "A", some "B", none]
          names := ["f", "g"]
          mappings := "AAAAA,CCAA;CDAA" } :=
  plainForm_of_ofJson (by decide +kernel)

end BundleCoverage.SourceMap
