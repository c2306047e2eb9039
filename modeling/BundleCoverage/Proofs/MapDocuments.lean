import BundleCoverage.Proofs.Documents
import BundleCoverage.SourceMap.Document

/-!
# Documents of maps

What is read from a value, said once for a document (`Document.read?_cases`) and once for a section
(`Section.rel_of_ofJson?`).  A list of texts has the texts of the value in their places, and the
empty text for `null` (`Lists`).
-/

namespace BundleCoverage

open Json

/-! ## Fields -/

/-- The value of a field of a record, unless it is missing. -/
def Json.field? (fields : List Names) (name : String) (value : Json) : Option Json :=
  (record? fields value).bind fun slots => slots[fields.findIdx (name ∈ ·)]?.join

namespace SourceMap

/-- The document of a section that is embedded. -/
def Section.document? : Section → Option Document
  | .embedded _ document => some document
  | .elsewhere => none

/-- The names of the fields of a section. -/
def sectionFields : List Names := [["offset"], ["map"], ["url"]]

/-- The value of the document of a section that is embedded. -/
def embedded? (value : Json) : Option Json :=
  match field? sectionFields "map" value with
  | some .null => none
  | slot => slot

/-- The values of the sections of a document that has some. -/
def sections? (value : Json) : Option (List Json) :=
  match field? documentFields "sections" value with
  | some (.arr items) => some items
  | _ => none

/-- The texts that a field lists, with the empty text for `null`. -/
inductive Lists : Option Json → List String → Prop where
  | missing : Lists none []
  | present (items : List (Option String)) :
      Lists (some (.list (.ofOption .str) items)) (items.map (·.getD ""))

end SourceMap

/-! ## Lists of texts -/

namespace Json

theorem toText?_eq_some_iff {value : Json} {text : String} :
    toText? value = some text ↔ value = .str text := by
  cases value <;> simp [toText?]

theorem toOption?_eq_some_iff {α : Type} {read : Reader α} {f : α → Json}
    (hread : ∀ value a, read value = some a ↔ value = f a) (hnull : ∀ a, f a ≠ .null) {value : Json}
    {a : Option α} : toOption? read value = some a ↔ value = .ofOption f a := by
  unfold toOption?
  split
  · cases a with
    | none => exact iff_of_true rfl rfl
    | some a => exact iff_of_false (by simp) fun h => hnull a h.symm
  · next hvalue =>
    cases a with
    | none => exact iff_of_false (by simp) hvalue
    | some a => simp [hread, ofOption]

theorem toList?_eq_some_iff {α : Type} {read : Reader α} {f : α → Json}
    (hread : ∀ value a, read value = some a ↔ value = f a) {value : Json} {items : List α} :
    toList? read value = some items ↔ value = .list f items := by
  constructor
  · intro h
    unfold toList? at h
    split at h
    · next values =>
      rw [mapM_eq_some_iff] at h
      have hvalues : List.Forall₂ (fun value a => value = f a) values items :=
        h.imp fun value a => (hread value a).1
      rw [Json.list, Json.arr.injEq]
      exact List.forall₂_eq_eq_eq ▸ List.forall₂_map_right_iff.2 hvalues
    · cases h
  · rintro rfl
    exact toList?_list (fun a => (hread _ a).2 rfl) items

theorem toTexts_eq_some_iff {value : Json} {items : List (Option String)} :
    toList? (toOption? toText?) value = some items ↔ value = .list (.ofOption .str) items :=
  toList?_eq_some_iff fun _ _ => toOption?_eq_some_iff (fun _ _ => toText?_eq_some_iff) (by simp)

end Json

namespace SourceMap

theorem toTexts?_eq_some_iff {value : Json} {texts : List String} :
    toTexts? value = some texts ↔
      ∃ items, value = .list (.ofOption .str) items ∧ items.map (·.getD "") = texts := by
  rw [toTexts?, Option.map_eq_some_iff]
  simp only [toTexts_eq_some_iff]

theorem Lists.of_orElse {read : Reader (List String)} {slot : Option Json} {texts : List String}
    (hread : ∀ value texts, read value = some texts → toTexts? value = some texts)
    (h : Json.orElse [] read slot = some texts) : Lists slot texts := by
  cases slot with
  | none =>
      cases h
      exact .missing
  | some value =>
      obtain ⟨items, rfl, rfl⟩ := toTexts?_eq_some_iff.1 (hread value texts h)
      exact .present items

/-! ## Reading -/

theorem length_alignContent {α β : Type} (sources : List α) (contents : List (Option β)) :
    (alignContent sources contents).length = sources.length := by
  induction sources generalizing contents with
  | nil => rfl
  | cons source sources ih =>
      cases contents with
      | nil => exact congrArg (· + 1) (ih [])
      | cons content contents => exact congrArg (· + 1) (ih contents)

theorem exists_of_mem_toList? {α : Type} {read : Json.Reader α} {value : Json} {as : List α}
    (h : Json.toList? read value = some as) {a : α} (ha : a ∈ as) :
    ∃ item, read item = some a := by
  unfold Json.toList? at h
  split at h
  · have hread : ∀ b ∈ as, ∃ item, read item = some b :=
      forall_mem_of_forall₂ (mapM_eq_some_iff.1 h) fun item b hb => ⟨item, hb⟩
    exact hread a ha
  · cases h

theorem orElse_toOption?_cases {α : Type} {read : Reader α} {slot : Option Json} {a : Option α}
    (h : Json.orElse none (toOption? read) slot = some a) :
    a = none ∧ (slot = none ∨ slot = some .null) ∨
      ∃ value b, slot = some value ∧ value ≠ .null ∧ a = some b ∧ read value = some b := by
  cases slot with
  | none =>
      cases h
      exact .inl ⟨rfl, .inl rfl⟩
  | some value =>
      change toOption? read value = some a at h
      unfold toOption? at h
      split at h
      · cases h
        exact .inl ⟨rfl, .inr rfl⟩
      · next hvalue =>
        obtain ⟨b, hb, rfl⟩ := Option.map_eq_some_iff.1 h
        exact .inr ⟨value, b, rfl, hvalue, rfl, hb⟩

theorem Section.rel_of_ofJson? {document? : Reader Document} {value : Json} {s : Section}
    (h : Section.ofJson? document? value = some s) :
    Option.Rel (fun item document => document? item = some document) (embedded? value)
      s.document? := by
  unfold Section.ofJson? at h
  obtain ⟨slots, hslots, h⟩ := Option.bind_eq_some_iff.1 h
  have hfield : field? sectionFields "map" value = slots[1]?.join := by
    rw [field?, sectionFields, hslots]
    rfl
  split at h
  · obtain ⟨offset, -, h⟩ := Option.bind_eq_some_iff.1 h
    obtain ⟨map, hmap, h⟩ := Option.bind_eq_some_iff.1 h
    obtain ⟨url, -, h⟩ := Option.bind_eq_some_iff.1 h
    cases h
    unfold embedded?
    rw [hfield]
    rcases orElse_toOption?_cases hmap with
      ⟨rfl, rfl | rfl⟩ | ⟨item, document, rfl, hne, rfl, hread⟩
    · exact .none
    · exact .none
    · cases item with
      | null => exact absurd rfl hne
      | _ => exact .some hread
  · cases h

theorem Section.exists_of_document? {document? : Reader Document} {value : Json} {s : Section}
    (h : Section.ofJson? document? value = some s) {d : Document} (hd : s.document? = some d) :
    ∃ item, document? item = some d := by
  match embedded? value, s.document?, rel_of_ofJson? h, hd with
  | some item, some _, .some hread, rfl => exact ⟨item, hread⟩

/-- A document is plain, with the sources and names that it lists and a slot for the text of each
source, or it has sections. -/
theorem Document.read?_cases {deeper : Bool} {read : Reader (List Section)} {value : Json}
    {document : Document} (h : Document.read? deeper read value = some document) :
    (∃ map, document = .plain map ∧ sections? value = none ∧
        Lists (field? documentFields "sources" value) map.sources ∧
        Lists (field? documentFields "names" value) map.names ∧
        map.sourcesContent.length = map.sources.length) ∨
      ∃ version file slot sections, document = .sectioned version file sections ∧
        field? documentFields "sections" value = some slot ∧ read slot = some sections := by
  unfold Document.read? at h
  obtain ⟨slots, hslots, h⟩ := Option.bind_eq_some_iff.1 h
  have hfield (name : String) : field? documentFields name value
      = slots[documentFields.findIdx (name ∈ ·)]?.join := by
    rw [field?, hslots, Option.bind_some]
  have hlist : ∀ (item : Json) (texts : List String),
      (if deeper then toTexts? item else none) = some texts → toTexts? item = some texts := by
    intro item texts hitem
    cases deeper with
    | true => exact hitem
    | false => cases hitem
  split at h
  · obtain ⟨version, -, h⟩ := Option.bind_eq_some_iff.1 h
    obtain ⟨file, -, h⟩ := Option.bind_eq_some_iff.1 h
    obtain ⟨root, -, h⟩ := Option.bind_eq_some_iff.1 h
    obtain ⟨sources, hsources, h⟩ := Option.bind_eq_some_iff.1 h
    obtain ⟨contents, -, h⟩ := Option.bind_eq_some_iff.1 h
    obtain ⟨names, hnames, h⟩ := Option.bind_eq_some_iff.1 h
    obtain ⟨mappings, -, h⟩ := Option.bind_eq_some_iff.1 h
    obtain ⟨sections, hsections, h⟩ := Option.bind_eq_some_iff.1 h
    cases h
    rcases orElse_toOption?_cases hsections with ⟨rfl, hslot⟩ | ⟨slot, read, rfl, -, rfl, hslot⟩
    · left
      refine ⟨_, rfl, ?_, ?_, ?_, length_alignContent ..⟩
      · rw [sections?, hfield]
        rcases hslot with rfl | rfl <;> rfl
      · rw [hfield]
        exact .of_orElse hlist hsources
      · rw [hfield]
        exact .of_orElse hlist hnames
    · right
      exact ⟨version, file, slot, read, rfl, hfield _, hslot⟩
  · cases h

end SourceMap

end BundleCoverage
