import BundleCoverage.Proofs.FullReports

/-!
# Summaries of all sources

The summary of some sources is to have the tallies of each under its path and those of all under a
key of its own, and nothing else (`Json.Summarizes`).  Paths and that key share one object.  Every
source has its tallies there in any case (`CoverageMap.PathsAgree.get?_summaryJson`), but a source
whose path is the key puts them in the place of those of all.
-/

namespace BundleCoverage

open Std

/-- Whether a document is a summary of some sources: one entry for each of them, under its path, and
one for all. -/
structure Json.Summarizes (doc : Json) (m : CoverageMap) : Prop where
  /-- No key stands twice. -/
  nodup : doc.keys.Nodup
  /-- There is one entry more than there are sources. -/
  length_keys : doc.keys.length = m.size + 1
  /-- The tallies of all sources. -/
  total : doc.get? totalKey = some m.summary.toJson
  /-- The tallies of each source. -/
  source : ∀ path f, m.get? path = some f → doc.get? path = some f.summary.toJson

namespace CoverageMap

variable (m : CoverageMap)

theorem length_paths : m.paths.length = m.size := ExtTreeMap.length_keys

section Members

variable {m}

theorem PathsAgree.mem_keys_summaryJson (h : m.PathsAgree) {key : String} :
    key ∈ m.summaryJson.keys ↔ key = totalKey ∨ key ∈ m.paths := by
  rw [summaryJson, Json.mem_keys_ofMembers, List.map_cons, List.mem_cons, h.keys_members]

/-- With a source that takes the key of all, there are the entries of the sources only. -/
theorem PathsAgree.length_keys_of_mem (h : m.PathsAgree) (htotal : totalKey ∈ m.paths) :
    m.summaryJson.keys.length = m.size := by
  rw [← length_paths]
  refine ((List.perm_ext_iff_of_nodup Json.nodup_keys_ofMembers m.nodup_paths).2 ?_).length_eq
  intro key
  refine h.mem_keys_summaryJson.trans ⟨?_, .inr⟩
  rintro (rfl | hkey)
  · exact htotal
  · exact hkey

/-- Without one, the keys of the entries are distinct. -/
theorem PathsAgree.nodup_members (h : m.PathsAgree) (htotal : totalKey ∉ m.paths) :
    (((totalKey, m.summary.toJson)
      :: m.files.values.map fun f => (f.path, f.summary.toJson)).map (·.1)).Nodup := by
  rw [List.map_cons, h.keys_members]
  exact List.nodup_cons.2 ⟨htotal, m.nodup_paths⟩

theorem PathsAgree.length_keys_of_notMem (h : m.PathsAgree) (htotal : totalKey ∉ m.paths) :
    m.summaryJson.keys.length = m.size + 1 := by
  rw [summaryJson, (Json.perm_keys_ofMembers (h.nodup_members htotal)).length_eq, List.map_cons,
    List.length_cons, h.keys_members, length_paths]

/-- The tallies of a source stand under its path, whatever it is. -/
theorem PathsAgree.get?_summaryJson (h : m.PathsAgree) {path : String} {f : FileRecord}
    (hf : m.get? path = some f) : m.summaryJson.get? path = some f.summary.toJson := by
  refine Json.get?_ofMembers_append [(totalKey, m.summary.toJson)] ?_ (h.mem_members _ hf)
  rw [h.keys_members]
  exact m.nodup_paths

theorem PathsAgree.get?_summaryJson_totalKey (h : m.PathsAgree) (htotal : totalKey ∉ m.paths) :
    m.summaryJson.get? totalKey = some m.summary.toJson :=
  Json.get?_ofMembers_append [] (h.nodup_members htotal) (List.mem_cons_self ..)

end Members

/-- The summary is complete if no source takes the key of all, and only then. -/
theorem summarizes_summaryJson_iff {m : CoverageMap} (h : m.PathsAgree) :
    m.summaryJson.Summarizes m ↔ m.get? totalKey = none := by
  have hnone : m.get? totalKey = none ↔ totalKey ∉ m.paths := by
    rw [m.mem_paths, Option.not_isSome_iff_eq_none]
  rw [hnone]
  constructor
  · intro hsummarizes hmem
    have hlength := hsummarizes.length_keys
    rw [h.length_keys_of_mem hmem] at hlength
    omega
  · intro htotal
    exact ⟨Json.nodup_keys_ofMembers, h.length_keys_of_notMem htotal,
      h.get?_summaryJson_totalKey htotal, fun path f hf => h.get?_summaryJson hf⟩

/-- A page and another source have a complete summary. -/
theorem summarizes_sampleMap :
    sampleMap.PathsAgree ∧ sampleMap.summaryJson.Summarizes sampleMap :=
  ⟨pathsAgree_sampleMap, (summarizes_summaryJson_iff pathsAgree_sampleMap).2 (by decide +kernel)⟩

/-! ## A source with the key of all -/

/-- A source called like the key of all, next to another one.  Each has a line. -/
def withTotalFile : CoverageMap :=
  let line (f : FileRecord) := f.addStatement 1 ⟨⟨1, 0⟩, ⟨1, 4⟩⟩ 1
  (({} : CoverageMap).update "src/a.ts" line).update totalKey line

/-- The number of lines in a summary. -/
def lineCount? (summary : Json) : Option Nat :=
  ((summary.get? "lines").bind (·.get? "total")).bind Json.toNat?

/-- The lines of the other source are not counted. -/
theorem not_summarizes_withTotalFile : ¬ withTotalFile.summaryJson.Summarizes withTotalFile := by
  intro h
  have hall : lineCount? withTotalFile.summary.toJson = some 2 := by decide +kernel
  have hfound : (withTotalFile.summaryJson.get? totalKey).bind lineCount? = some 1 := by
    decide +kernel
  rw [h.total, Option.bind_some, hall] at hfound
  cases hfound

end CoverageMap

end BundleCoverage
