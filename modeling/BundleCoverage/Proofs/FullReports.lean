import Mathlib.Data.Nat.Basic
import BundleCoverage.Json.Read
import BundleCoverage.Proofs.Outcomes
import BundleCoverage.Proofs.Maps
import BundleCoverage.Proofs.Padding
import BundleCoverage.Report.Documents
import BundleCoverage.Text.Digits

/-!
# Full reports are complete

A full report is read back here from its keys alone.  `numberedItems?` takes what stands under the
decimals from zero and refuses an object with any other key, and `pairs?` pairs the items of a
kind with the hits that stand under the same numbers.  The order of the members does not matter.

What is read back is the record of the source, in the order of its maps
(`SourceReport.ofJson?_toJson`).  The numbers of keys and of hits that are not zero are the tallies
of its summary (`FileRecord.tallies_toJson`), and those of all sources are sums
(`CoverageMap.tally_summary`).
-/

namespace BundleCoverage

open Std

namespace Json

/-! ## Members -/

/-- The keys of an object. -/
def keys : Json → List String
  | .obj members => members.map (·.1)
  | _ => []

section Members

variable {members : List (String × Json)} {key : String}

theorem keys_ofMembers : (ofMembers members).keys = (ExtTreeMap.ofList members).keys :=
  ExtTreeMap.map_fst_toList_eq_keys

theorem mem_keys_ofMembers : key ∈ (ofMembers members).keys ↔ key ∈ members.map (·.1) := by
  rw [keys_ofMembers, ExtTreeMap.mem_keys, ExtTreeMap.mem_ofList, List.contains_iff_mem]

theorem nodup_keys_ofMembers : (ofMembers members).keys.Nodup := by
  rw [keys_ofMembers]
  refine ExtTreeMap.distinct_keys.imp ?_
  intro a b hne heq
  exact hne (LawfulEqOrd.compare_eq_iff_eq.2 heq)

theorem perm_keys_ofMembers (h : (members.map (·.1)).Nodup) :
    (ofMembers members).keys.Perm (members.map (·.1)) :=
  (List.perm_ext_iff_of_nodup nodup_keys_ofMembers h).2 fun _ => mem_keys_ofMembers

/-- Members with distinct keys are found, whatever was there before them. -/
theorem get?_ofMembers_append {value : Json} (before : List (String × Json))
    (h : (members.map (·.1)).Nodup) (hmem : (key, value) ∈ members) :
    (ofMembers (before ++ members)).get? key = some value := by
  have hdistinct : members.Pairwise fun a b => ¬compare a.1 b.1 = .eq := by
    refine (List.pairwise_map.1 h).imp ?_
    intro a b hne heq
    exact hne (LawfulEqOrd.compare_eq_iff_eq.1 heq)
  have hlookup :=
    lookup_map_toList (fun _ value => value) (ExtTreeMap.ofList (before ++ members)) key
  rw [List.map_id', Option.map_id'] at hlookup
  rw [ofMembers, get?, hlookup, ExtTreeMap.ofList_eq_insertMany_empty, ExtTreeMap.insertMany_append]
  exact ExtTreeMap.getElem?_insertMany_list_of_mem compare_self hdistinct hmem

end Members

/-! ## Numbered items -/

/-- A natural number. -/
def toNat? : Reader Nat
  | .int n => n.toNat?
  | _ => none

/-- The decimals below a number. -/
def decimals (n : Nat) : List String := (List.range n).map toString

/-- The items under the decimals from zero, in the order of the numbers, of an object with no other
key and no key twice. -/
def numberedItems? {α : Type} (read : Reader α) (j : Json) : Option (List α) :=
  if j.keys.Perm (decimals j.keys.length) then
    (List.range j.keys.length).mapM fun i => (j.get? (toString i)).bind read
  else none

theorem repr_injective : Function.Injective Nat.repr := by
  intro i j h
  exact Text.toDigits_inj.1 (by rw [← Nat.toList_repr, h, Nat.toList_repr])

theorem length_decimals (n : Nat) : (decimals n).length = n := by simp [decimals]

theorem nodup_decimals (n : Nat) : (decimals n).Nodup :=
  List.pairwise_map.2 (List.nodup_range.imp fun hne heq => hne (repr_injective heq))

section Numbered

variable {α : Type} (f : α → Json) (items : List α)

theorem map_fst_mapIdx :
    (items.mapIdx fun i item => (toString i, f item)).map (·.1) = decimals items.length := by
  refine List.ext_getElem (by simp [decimals]) fun i hi hi' => ?_
  simp [decimals]

theorem perm_keys_numbered : (numbered f items).keys.Perm (decimals items.length) := by
  have hkeys := map_fst_mapIdx f items
  rw [← hkeys]
  exact perm_keys_ofMembers (hkeys ▸ nodup_decimals items.length)

theorem length_keys_numbered : (numbered f items).keys.length = items.length := by
  rw [(perm_keys_numbered f items).length_eq, length_decimals]

theorem get?_numbered {i : Nat} (hi : i < items.length) :
    (numbered f items).get? (toString i) = some (f items[i]) := by
  have hkeys := map_fst_mapIdx f items
  refine get?_ofMembers_append [] (hkeys ▸ nodup_decimals items.length) ?_
  exact List.mem_mapIdx.2 ⟨i, hi, rfl⟩

/-- Numbered items are read back in order. -/
theorem numberedItems?_eq {β : Type} {read : Reader β} {g : α → β}
    (hread : ∀ a, read (f a) = some (g a)) :
    (numbered f items).numberedItems? read = some (items.map g) := by
  rw [numberedItems?, length_keys_numbered, if_pos (perm_keys_numbered f items), mapM_eq_some_iff,
    List.forall₂_iff_get]
  refine ⟨by simp, fun i hi hi' => ?_⟩
  have hitem : i < items.length := by simpa using hi
  simp only [List.get_eq_getElem, List.getElem_range, List.getElem_map, get?_numbered f items hitem,
    Option.bind_some, hread]

end Numbered

end Json

/-! ## Kinds -/

/-- What is counted in a source. -/
inductive Kind
  | lines
  | statements
  | functions
  | branches

namespace Kind

/-- The key of the items of a kind.  The lines are the statements. -/
def itemsKey : Kind → String
  | .lines => "statementMap"
  | .statements => "statementMap"
  | .functions => "fnMap"
  | .branches => "branchMap"

/-- The key of the hits of a kind. -/
def hitsKey : Kind → String
  | .lines => "s"
  | .statements => "s"
  | .functions => "f"
  | .branches => "b"

/-- The hits of an item of a kind.  A branch has those of each of its locations. -/
def readHits : Kind → Json.Reader Nat
  | .branches, .arr [hits] => hits.toNat?
  | .branches, _ => none
  | _, hits => hits.toNat?

end Kind

/-- The tally of a kind. -/
def Summary.tally (s : Summary) : Kind → Tally
  | .lines => s.lines
  | .statements => s.statements
  | .functions => s.functions
  | .branches => s.branches

/-- Whether the document of a source numbers as many items of a kind, and as many of them with
hits, as a tally says. -/
def Json.Tallies (doc : Json) (kind : Kind) (t : Tally) : Prop :=
  ∃ items hits counts, doc.get? kind.itemsKey = some items ∧ doc.get? kind.hitsKey = some hits ∧
    items.keys.Perm (decimals t.total) ∧ hits.keys.Perm (decimals t.total) ∧
    hits.numberedItems? kind.readHits = some counts ∧ (counts.filter (· ≠ 0)).length = t.covered

/-- Whether a document numbers the items of a kind in order, and their hits alike. -/
structure Json.Numbers {α : Type} (doc : Json) (kind : Kind) (items : List α) (item : α → Json)
    (hits : α → Nat) : Prop where
  /-- The items. -/
  numbered : doc.get? kind.itemsKey = some (BundleCoverage.numbered item items)
  /-- The hits. -/
  counted : ∃ hitsJson, doc.get? kind.hitsKey = some (BundleCoverage.numbered hitsJson items) ∧
    ∀ a, kind.readHits (hitsJson a) = some (hits a)

/-- Items and hits that are numbered alike have the tally of the hits. -/
theorem Json.Numbers.tallies {α : Type} {doc : Json} {kind : Kind} {items : List α}
    {item : α → Json} {hits : α → Nat} (h : doc.Numbers kind items item hits) :
    doc.Tallies kind (FileRecord.tally (items.map hits)) := by
  obtain ⟨hitsJson, hhits, hread⟩ := h.counted
  refine ⟨_, _, _, h.numbered, hhits, ?_, ?_, numberedItems?_eq hitsJson items hread, ?_⟩
  · rw [FileRecord.tally, List.length_map]
    exact perm_keys_numbered item items
  · rw [FileRecord.tally, List.length_map]
    exact perm_keys_numbered hitsJson items
  · simp [FileRecord.tally, List.countP_eq_length_filter, Nat.pos_iff_ne_zero]

namespace FileRecord

variable (f : FileRecord)

/-- The statements are also the lines. -/
theorem numbers_statements {kind : Kind} (h : kind = .lines ∨ kind = .statements) :
    f.toJson.Numbers kind f.statements.values (·.location.toJson) (·.hits) := by
  rcases h with rfl | rfl
  · exact ⟨rfl, ⟨_, rfl, fun _ => rfl⟩⟩
  · exact ⟨rfl, ⟨_, rfl, fun _ => rfl⟩⟩

theorem numbers_functions :
    f.toJson.Numbers .functions f.functions.values (·.toJson) (·.hits) :=
  ⟨rfl, ⟨_, rfl, fun _ => rfl⟩⟩

theorem numbers_branches :
    f.toJson.Numbers .branches f.branches.values (·.toJson) (·.hits) :=
  ⟨rfl, ⟨_, rfl, fun _ => rfl⟩⟩

/-- The document of a source has the tallies of the summary. -/
theorem tallies_toJson (kind : Kind) : f.toJson.Tallies kind (f.summary.tally kind) := by
  cases kind with
  | lines => exact (f.numbers_statements (.inl rfl)).tallies
  | statements => exact (f.numbers_statements (.inr rfl)).tallies
  | functions => exact f.numbers_functions.tallies
  | branches => exact f.numbers_branches.tallies

theorem covered_le_total (kind : Kind) :
    (f.summary.tally kind).covered ≤ (f.summary.tally kind).total := by
  cases kind <;> exact List.countP_le_length

end FileRecord

/-! ## Reading a report -/

/-- The position of a document. -/
def Position.ofJson? (doc : Json) : Option Position := do
  let line ← (doc.get? "line").bind Json.toNat?
  let column ← (doc.get? "column").bind Json.toNat?
  return ⟨line, column⟩

/-- The location of a document. -/
def Location.ofJson? (doc : Json) : Option Location := do
  let start ← (doc.get? "start").bind Position.ofJson?
  let stop ← (doc.get? "end").bind Position.ofJson?
  return ⟨start, stop⟩

/-- What a full report says of a source. -/
structure SourceReport where
  /-- The path. -/
  path : String
  /-- The statements with their hits. -/
  statements : List (Location × Nat)
  /-- The functions, by name and location, with their hits. -/
  functions : List ((String × Location) × Nat)
  /-- The branches with their hits. -/
  branches : List (Location × Nat)

namespace SourceReport

/-- The name and the location of a function. -/
def function? (doc : Json) : Option (String × Location) := do
  let name ← (doc.get? "name").bind Json.toText?
  let location ← (doc.get? "loc").bind Location.ofJson?
  return (name, location)

/-- The location of a branch. -/
def branch? (doc : Json) : Option Location := (doc.get? "loc").bind Location.ofJson?

/-- The items of a kind with the hits under the same numbers. -/
def pairs? {α : Type} (kind : Kind) (read : Json.Reader α) (doc : Json) :
    Option (List (α × Nat)) := do
  let items ← (doc.get? kind.itemsKey).bind (Json.numberedItems? read)
  let hits ← (doc.get? kind.hitsKey).bind (Json.numberedItems? kind.readHits)
  if items.length = hits.length then some (items.zip hits) else none

/-- The report of a source in a document. -/
def ofJson? (doc : Json) : Option SourceReport := do
  let path ← (doc.get? "path").bind Json.toText?
  let statements ← pairs? .statements Location.ofJson? doc
  let functions ← pairs? .functions function? doc
  let branches ← pairs? .branches branch? doc
  return ⟨path, statements, functions, branches⟩

/-- What is known of a source with a record. -/
def ofRecord (f : FileRecord) : SourceReport where
  path := f.path
  statements := f.statements.values.map fun s => (s.location, s.hits)
  functions := f.functions.values.map fun g => ((g.name, g.location), g.hits)
  branches := f.branches.values.map fun b => (b.location, b.hits)

end SourceReport

theorem Position.ofJson?_toJson (p : Position) : Position.ofJson? p.toJson = some p := rfl

theorem Location.ofJson?_toJson (l : Location) : Location.ofJson? l.toJson = some l := rfl

namespace SourceReport

theorem function?_toJson (g : FunctionRecord) : function? g.toJson = some (g.name, g.location) :=
  rfl

theorem branch?_toJson (b : BranchRecord) : branch? b.toJson = some b.location := rfl

/-- Items and hits that are numbered alike are read back in pairs. -/
theorem pairs?_of_numbers {α β : Type} {kind : Kind} {read : Json.Reader β} {doc : Json}
    {item : α → Json} {read' : α → β} {hits : α → Nat} {items : List α}
    (h : doc.Numbers kind items item hits) (hread : ∀ a, read (item a) = some (read' a)) :
    pairs? kind read doc = some (items.map fun a => (read' a, hits a)) := by
  obtain ⟨hitsJson, hhits, hcount⟩ := h.counted
  simp only [pairs?, h.numbered, hhits, Option.bind_some, Json.numberedItems?_eq item items hread,
    Json.numberedItems?_eq hitsJson items hcount, Option.bind_eq_bind, List.length_map, if_true,
    List.zip_map']

/-- The document of a source is read back as the record it was made of. -/
theorem ofJson?_toJson (f : FileRecord) : ofJson? f.toJson = some (ofRecord f) := by
  have hstatements := pairs?_of_numbers (f.numbers_statements (.inr rfl))
    fun s => Location.ofJson?_toJson s.location
  have hfunctions := pairs?_of_numbers f.numbers_functions function?_toJson
  have hbranches := pairs?_of_numbers f.numbers_branches branch?_toJson
  rw [ofJson?, hstatements, hfunctions, hbranches]
  rfl

end SourceReport

/-! ## All sources -/

theorem Summary.tally_foldl (kind : Kind) (summaries : List Summary) (s : Summary) :
    (summaries.foldl add s).tally kind
      = (summaries.map (·.tally kind)).foldl Tally.add (s.tally kind) := by
  have hadd (a b : Summary) : (a.add b).tally kind = (a.tally kind).add (b.tally kind) := by
    cases kind <;> rfl
  induction summaries generalizing s with
  | nil => rfl
  | cons first summaries ih => rw [List.foldl_cons, ih, hadd, List.map_cons, List.foldl_cons]

theorem Tally.foldl_add (tallies : List Tally) (t : Tally) :
    tallies.foldl add t =
      ⟨(tallies.map (·.total)).foldl (· + ·) t.total,
        (tallies.map (·.covered)).foldl (· + ·) t.covered⟩ := by
  induction tallies generalizing t with
  | nil => rfl
  | cons first tallies ih => exact ih (t.add first)

theorem Tally.covered_le_foldl {tallies : List Tally} (h : ∀ t ∈ tallies, t.covered ≤ t.total)
    {t : Tally} (ht : t.covered ≤ t.total) :
    (tallies.foldl add t).covered ≤ (tallies.foldl add t).total := by
  refine List.foldlRecOn (motive := fun s => s.covered ≤ s.total) tallies add ht ?_
  intro s hs first hfirst
  exact Nat.add_le_add hs (h first hfirst)

namespace CoverageMap

variable (m : CoverageMap)

theorem mem_paths {path : String} : path ∈ m.paths ↔ (m.get? path).isSome := by
  rw [paths, get?, ExtTreeMap.mem_keys, ExtTreeMap.isSome_getElem?_iff_mem]

theorem nodup_paths : m.paths.Nodup := by
  refine ExtTreeMap.distinct_keys.imp ?_
  intro a b hne heq
  exact hne (LawfulEqOrd.compare_eq_iff_eq.2 heq)

section Members

variable {m}

/-- What is made of each record stands under the path of the record. -/
theorem PathsAgree.members (h : m.PathsAgree) (f : FileRecord → Json) :
    (m.files.values.map fun file => (file.path, f file))
      = m.toList.map fun (path, file) => (path, f file) := by
  rw [values_eq_map_toList, List.map_map]
  refine List.map_congr_left fun (path, file) hfile => ?_
  exact Prod.ext (h path file (ExtTreeMap.mem_toList_iff_getElem?_eq_some.1 hfile)) rfl

theorem PathsAgree.keys_members (h : m.PathsAgree) (f : FileRecord → Json) :
    (m.files.values.map fun file => (file.path, f file)).map (·.1) = m.paths := by
  rw [h.members, List.map_map]
  exact ExtTreeMap.map_fst_toList_eq_keys

theorem PathsAgree.mem_members (h : m.PathsAgree) (f : FileRecord → Json) {path : String}
    {file : FileRecord} (hfile : m.get? path = some file) :
    (path, f file) ∈ m.files.values.map fun file => (file.path, f file) := by
  rw [h.members]
  exact List.mem_map_of_mem (f := fun (path, file) => (path, f file))
    (ExtTreeMap.mem_toList_iff_getElem?_eq_some.2 hfile)

theorem PathsAgree.mem_keys_toJson (h : m.PathsAgree) {path : String} :
    path ∈ m.toJson.keys ↔ (m.get? path).isSome := by
  rw [toJson, Json.mem_keys_ofMembers, h.keys_members, mem_paths]

/-- The document of a source stands under its path. -/
theorem PathsAgree.get?_toJson (h : m.PathsAgree) {path : String} {f : FileRecord}
    (hf : m.get? path = some f) : m.toJson.get? path = some f.toJson := by
  refine Json.get?_ofMembers_append [] ?_ (h.mem_members _ hf)
  rw [h.keys_members]
  exact m.nodup_paths

end Members

/-- The tallies of all sources are the sums of those of each. -/
theorem tally_summary (kind : Kind) :
    m.summary.tally kind =
      ⟨(m.toList.map fun source => (source.2.summary.tally kind).total).foldl (· + ·) 0,
        (m.toList.map fun source => (source.2.summary.tally kind).covered).foldl (· + ·) 0⟩ := by
  rw [summary, Summary.tally_foldl, Tally.foldl_add, values_eq_map_toList]
  simp only [List.map_map]
  cases kind <;> rfl

theorem covered_le_total (kind : Kind) :
    (m.summary.tally kind).covered ≤ (m.summary.tally kind).total := by
  rw [summary, Summary.tally_foldl]
  refine Tally.covered_le_foldl ?_ (by cases kind <;> exact Nat.le_refl _)
  intro t ht
  obtain ⟨s, hs, rfl⟩ := List.mem_map.1 ht
  obtain ⟨f, -, rfl⟩ := List.mem_map.1 hs
  exact f.covered_le_total kind

/-- The full report of a map, however it is built, has one object for each source, which stands under
its path and is read back as the record of the source.  Its keys and hits make up the summary of the
source, and the summary of all sources is the sum of those. -/
theorem toJson_complete {m : CoverageMap} (h : m.PathsAgree) :
    (∀ path, path ∈ m.toJson.keys ↔ (m.get? path).isSome) ∧ m.toJson.keys.Nodup ∧
      (∀ path f, m.get? path = some f → ∃ doc, m.toJson.get? path = some doc ∧
        SourceReport.ofJson? doc = some (.ofRecord f) ∧
        ∀ kind, doc.Tallies kind (f.summary.tally kind) ∧
          (f.summary.tally kind).covered ≤ (f.summary.tally kind).total) ∧
      ∀ kind,
        (m.summary.tally kind).total
          = (m.toList.map fun source => (source.2.summary.tally kind).total).foldl (· + ·) 0 ∧
        (m.summary.tally kind).covered
          = (m.toList.map fun source => (source.2.summary.tally kind).covered).foldl (· + ·) 0 ∧
        (m.summary.tally kind).covered ≤ (m.summary.tally kind).total := by
  refine ⟨fun path => h.mem_keys_toJson, Json.nodup_keys_ofMembers, fun path f hf => ?_,
    fun kind => ?_⟩
  · refine ⟨f.toJson, h.get?_toJson hf, SourceReport.ofJson?_toJson f, fun kind => ?_⟩
    exact ⟨f.tallies_toJson kind, f.covered_le_total kind⟩
  · refine ⟨?_, ?_, m.covered_le_total kind⟩
    · rw [tally_summary]
    · rw [tally_summary]

/-- A page with a function that was called, and a block and a function without a name that were
not. -/
def samplePage : FileRecord :=
  ((((FileRecord.empty "src/app/page.tsx").addStatement 1 (.onLine 1 0 20) 3).addFunction
    (some "Page") (.onLine 1 0 20) 3).addFunction none (.onLine 2 2 14) 0).addBranch
    (.onLine 2 2 14) 0

/-- The page next to another source. -/
def sampleMap : CoverageMap :=
  ((((({} : CoverageMap).update "src/app/page.tsx" (·.addStatement 1 (.onLine 1 0 20) 3)).update
    "src/app/page.tsx" (·.addFunction (some "Page") (.onLine 1 0 20) 3)).update
    "src/app/page.tsx" (·.addFunction none (.onLine 2 2 14) 0)).update
    "src/app/page.tsx" (·.addBranch (.onLine 2 2 14) 0)).update
    "src/lib/util.ts" (·.addStatement 4 (.onLine 4 0 8) 1)

theorem built_sampleMap : sampleMap.Built :=
  .statement (.branch (.function (.function (.statement .empty ..) ..) ..) ..) ..

theorem pathsAgree_sampleMap : sampleMap.PathsAgree := built_sampleMap.pathsAgree

theorem toJson_sampleMap :
    sampleMap.PathsAgree ∧
      ∃ doc, sampleMap.toJson.get? "src/app/page.tsx" = some doc ∧
        SourceReport.ofJson? doc = some (.ofRecord samplePage) ∧ doc.Tallies .functions ⟨2, 1⟩ := by
  have hpage : sampleMap.get? "src/app/page.tsx" = some samplePage := by decide +kernel
  obtain ⟨-, -, hread, -⟩ := toJson_complete pathsAgree_sampleMap
  obtain ⟨doc, hdoc, hrecord, htallies⟩ := hread _ _ hpage
  exact ⟨pathsAgree_sampleMap, doc, hdoc, hrecord, (htallies .functions).1⟩

end CoverageMap

end BundleCoverage
