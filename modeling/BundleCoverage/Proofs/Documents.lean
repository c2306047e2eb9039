import BundleCoverage.Proofs.Printing
import BundleCoverage.Proofs.Respellings
import BundleCoverage.Script.Entry

/-!
# Documents of entries

A document of entries can be spelled in several ways (`Entry.IsDocument`).  A count may be called an
execution count, members stand in any order and among others, and defaults may be left out.  The
document that is written for some entries is one of these spellings (`Entry.isDocument_document`),
and all of them are read as the same entries (`Entry.ofDocument?_of_isDocument`), also from bytes.

The lemmas on single readers serve for other documents, too.
-/

namespace BundleCoverage

/-! ## Readers of single values -/

namespace Json

theorem Plain.nat (n : Nat) : Plain (.nat n) := .int n

theorem Plain.list {α : Type} {f : α → Json} (hf : ∀ a, Plain (f a)) (items : List α) :
    Plain (.list f items) := by
  refine .arr fun item hitem => ?_
  obtain ⟨a, -, rfl⟩ := List.mem_map.1 hitem
  exact hf a

theorem Plain.ofOption {α : Type} {f : α → Json} (hf : ∀ a, Plain (f a)) (a : Option α) :
    Plain (.ofOption f a) := by
  cases a with
  | none => exact .null
  | some a => exact hf a

theorem toWord?_nat (n : UInt32) : toWord? (.nat n.toNat) = some n := by
  have hn : (0 : Int) ≤ n.toNat ∧ (n.toNat : Int) < (4294967296 : Nat) := by
    have := n.toNat_lt
    omega
  rw [toWord?, toNatBelow?.eq_def, Json.nat]
  dsimp only
  rw [if_pos hn, Option.map_some, Int.toNat_natCast, UInt32.ofNat_toNat]

theorem bind_required {α β : Type} {read : Reader α} {value : Json} {a : α}
    (h : read value = some a) (f : α → Option β) :
    (required read (some value)).bind f = f a := by
  rw [required, Option.bind_some, h, Option.bind_some]

theorem toList?_list {α : Type} {read : Reader α} {f : α → Json}
    (hread : ∀ a, read (f a) = some a) (items : List α) :
    toList? read (.list f items) = some items := by
  rw [list, toList?, mapM_eq_some_iff, List.forall₂_map_left_iff]
  exact List.forall₂_same.2 fun a _ => hread a

end Json

/-! ## Spellings of entries -/

open Json

namespace CoverageRange

/-- The fields of a range. -/
def fields : List Names := [["startOffset"], ["endOffset"], ["count", "executionCount"]]

/-- Whether a value is a spelling of a range. -/
def IsSpelledBy (r : CoverageRange) (value : Json) : Prop :=
  ∃ count ∈ ["count", "executionCount"],
    value.Spells fields [some ("startOffset", .nat r.startOffset.toNat),
      some ("endOffset", .nat r.endOffset.toNat), some (count, .nat r.count.toNat)]

end CoverageRange

namespace FunctionCoverage

/-- The fields of a function. -/
def fields : List Names := [["functionName"], ["ranges"], ["isBlockCoverage"]]

/-- Whether a value is a spelling of a function. -/
def IsSpelledBy (f : FunctionCoverage) (value : Json) : Prop :=
  ∃ name ranges block,
    Written "functionName" (· = .str f.functionName) (f.functionName = "") name ∧
    Written "ranges" (IsList CoverageRange.IsSpelledBy f.ranges) (f.ranges = []) ranges ∧
    Written "isBlockCoverage" (· = .bool f.isBlockCoverage) (f.isBlockCoverage = false) block ∧
    value.Spells fields [name, ranges, block]

end FunctionCoverage

namespace Entry

/-- The fields of an entry. -/
def fields : List Names := [["url"], ["source"], ["functions"]]

/-- Whether a value is a spelling of an entry. -/
def IsSpelledBy (e : Entry) (value : Json) : Prop :=
  ∃ functions,
    Written "functions" (IsList FunctionCoverage.IsSpelledBy e.functions) (e.functions = [])
      functions ∧
    value.Spells fields
      [some ("url", .str e.url), e.source.map fun text => ("source", .str text), functions]

/-- The fields of a document. -/
def documentFields : List Names := [["result"]]

/-- Whether a value is a spelling of a document of entries. -/
def IsDocument (entries : List Entry) (value : Json) : Prop :=
  ∃ result, Written "result" (IsList IsSpelledBy entries) (entries = []) result ∧
    value.Spells documentFields [result]

end Entry

/-! ## Reading entries -/

theorem CoverageRange.disjoint_fields : fields.Pairwise List.Disjoint := by
  simp [fields, List.Disjoint]

theorem CoverageRange.ofJson?_of_isSpelledBy {r : CoverageRange} {value : Json}
    (h : r.IsSpelledBy value) : CoverageRange.ofJson? value = some r := by
  obtain ⟨count, hcount, hspells⟩ := h
  have hrecord := record?_of_spells disjoint_fields
    (.cons (by simp) (.cons (by simp) (.cons (by simpa using hcount) .nil))) hspells
  rw [CoverageRange.ofJson?, ← fields, hrecord, Option.bind_eq_bind, Option.bind_some]
  simp only [List.map_cons, List.map_nil, Option.map_some]
  rw [Option.bind_eq_bind, bind_required (toWord?_nat _), bind_required (toWord?_nat _),
    bind_required (toWord?_nat _)]
  rfl

theorem CoverageRange.isSpelledBy_toJson (r : CoverageRange) : r.IsSpelledBy r.toJson :=
  ⟨"count", by simp, spells_obj ..⟩

theorem FunctionCoverage.disjoint_fields : fields.Pairwise List.Disjoint := by
  simp [fields, List.Disjoint]

theorem FunctionCoverage.ofJson?_of_isSpelledBy {f : FunctionCoverage} {value : Json}
    (h : f.IsSpelledBy value) : FunctionCoverage.ofJson? value = some f := by
  obtain ⟨name, ranges, block, hname, hranges, hblock, hspells⟩ := h
  have hrecord := record?_of_spells disjoint_fields
    (.cons hname.key (.cons hranges.key (.cons hblock.key .nil))) hspells
  rw [FunctionCoverage.ofJson?, ← fields, hrecord, Option.bind_eq_bind, Option.bind_some]
  simp only [List.map_cons, List.map_nil]
  rw [hname.orElse (by rintro _ rfl; rfl),
    hranges.orElse fun _ => toList?_of_isList fun _ _ => CoverageRange.ofJson?_of_isSpelledBy,
    hblock.orElse (by rintro _ rfl; rfl)]
  rfl

theorem FunctionCoverage.isSpelledBy_toJson (f : FunctionCoverage) : f.IsSpelledBy f.toJson :=
  ⟨_, _, _, .here rfl, .here (isList_list CoverageRange.isSpelledBy_toJson _), .here rfl,
    spells_obj ..⟩

namespace Entry

theorem disjoint_fields : fields.Pairwise List.Disjoint := by
  simp [fields, List.Disjoint]

theorem ofJson?_of_isSpelledBy {e : Entry} {value : Json} (h : e.IsSpelledBy value) :
    Entry.ofJson? value = some e := by
  obtain ⟨functions, hfunctions, hspells⟩ := h
  have hrecord := record?_of_spells disjoint_fields
    (.cons (by simp) (.cons (by simp) (.cons hfunctions.key .nil))) hspells
  have hsource : orElse none (toOption? toText?)
      ((e.source.map fun text => ("source", Json.str text)).map (·.2)) = some e.source := by
    cases e.source <;> rfl
  rw [Entry.ofJson?, ← fields, hrecord, Option.bind_eq_bind, Option.bind_some]
  simp only [List.map_cons, List.map_nil, Option.map_some]
  rw [hsource, functions?,
    hfunctions.orElse fun _ => toList?_of_isList fun _ _ => FunctionCoverage.ofJson?_of_isSpelledBy]
  rfl

theorem isSpelledBy_toJson (e : Entry) : e.IsSpelledBy e.toJson := by
  refine ⟨_, .here (isList_list FunctionCoverage.isSpelledBy_toJson _), ?_⟩
  rw [toJson]
  cases e.source <;> exact spells_obj ..

/-- Every spelling of a document is read as the same entries. -/
theorem ofDocument?_of_isDocument {entries : List Entry} {value : Json}
    (h : IsDocument entries value) : ofDocument? value = some entries := by
  obtain ⟨result, hresult, hspells⟩ := h
  have hdisjoint : documentFields.Pairwise List.Disjoint := List.pairwise_singleton ..
  have hrecord := record?_of_spells hdisjoint (.cons hresult.key .nil) hspells
  rw [ofDocument?, ← documentFields, hrecord, Option.bind_eq_bind, Option.bind_some]
  simp only [List.map_cons, List.map_nil]
  exact hresult.orElse fun _ => toList?_of_isList fun _ _ => ofJson?_of_isSpelledBy

/-- The document that is written for some entries is one of its spellings. -/
theorem isDocument_document (entries : List Entry) : IsDocument entries (document entries) :=
  ⟨_, .here (isList_list isSpelledBy_toJson _), spells_obj ..⟩

end Entry

/-! ## Documents as bytes -/

theorem CoverageRange.plain_toJson (r : CoverageRange) : Plain r.toJson := by
  refine .obj fun m hm => ?_
  simp only [List.mem_cons, List.not_mem_nil, or_false] at hm
  rcases hm with rfl | rfl | rfl
  · exact .nat _
  · exact .nat _
  · exact .nat _

theorem FunctionCoverage.plain_toJson (f : FunctionCoverage) : Plain f.toJson := by
  refine .obj fun m hm => ?_
  simp only [List.mem_cons, List.not_mem_nil, or_false] at hm
  rcases hm with rfl | rfl | rfl
  · exact .str _
  · exact .list CoverageRange.plain_toJson _
  · exact .bool _

theorem Entry.plain_toJson (e : Entry) : Plain e.toJson := by
  refine .obj fun m hm => ?_
  simp only [List.mem_append, List.mem_singleton, Option.mem_toList, Option.map_eq_some_iff] at hm
  rcases hm with (rfl | ⟨text, -, rfl⟩) | rfl
  · exact .str _
  · exact .str _
  · exact .list FunctionCoverage.plain_toJson _

theorem Entry.plain_document (entries : List Entry) : Plain (Entry.document entries) := by
  refine .obj fun m hm => ?_
  obtain rfl := List.mem_singleton.1 hm
  exact .list Entry.plain_toJson _

/-- The bytes of a document of entries. -/
def Entry.documentBytes (entries : List Entry) : List UInt8 :=
  Text.Utf8.encode (Entry.document entries).compact

theorem Entry.ofDocument?_documentBytes (entries : List Entry) :
    (parseBytes? (Entry.documentBytes entries)).bind Entry.ofDocument? = some entries := by
  rw [documentBytes, (Entry.plain_document entries).parseBytes?_encode, Option.bind_some,
    Entry.ofDocument?_of_isDocument (Entry.isDocument_document entries)]

end BundleCoverage
