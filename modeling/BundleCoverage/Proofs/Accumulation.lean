import BundleCoverage.Proofs.Calls
import BundleCoverage.Proofs.Growth

/-!
# Merging accumulates

A call of a merger takes nothing away.  Files, statements, functions and branches stay, hits
do not go down, statements keep their columns, functions their names and locations, and files
their texts (`CoverageMap.Extends`).  Each addition to a record extends it, so seeds and
findings extend a map, and so does every sequence of calls (`Merger.grows_performAll`).

An entry changes nothing but sources of its script in scope (`Merger.add_accumulates`).

Hits are words, and sums are cut off at the largest one.  So a sum is not less than its parts
if these are words (`CoverageMap.HitsFit`), and calls keep hits words.
-/

namespace BundleCoverage

open Std

theorem addHits_le (a b : Nat) : addHits a b ≤ maxHits := Nat.min_le_right ..

theorem le_addHits {a : Nat} (h : a ≤ maxHits) (b : Nat) : a ≤ addHits a b :=
  Nat.le_min.2 ⟨Nat.le_add_right a b, h⟩

/-! ## Statements and functions -/

/-- A statement keeps its line and its columns, and its hits do not go down. -/
structure StatementRecord.Extends (s s' : StatementRecord) : Prop where
  /-- The line it starts on. -/
  startLine : s'.location.start.line = s.location.start.line
  /-- The line it ends on. -/
  stopLine : s'.location.stop.line = s.location.stop.line
  /-- The columns from its start. -/
  start : s'.location.start.column ≤ s.location.start.column
  /-- The columns to its end. -/
  stop : s.location.stop.column ≤ s'.location.stop.column
  /-- The hits. -/
  hits : s.hits ≤ s'.hits

/-- A function keeps its name and its location, and its hits do not go down. -/
structure FunctionRecord.Extends (g g' : FunctionRecord) : Prop where
  /-- The name. -/
  name : g'.name = g.name
  /-- The location. -/
  location : g'.location = g.location
  /-- The hits. -/
  hits : g.hits ≤ g'.hits

/-- A branch keeps its location, and its hits do not go down. -/
structure BranchRecord.Extends (b b' : BranchRecord) : Prop where
  /-- The location. -/
  location : b'.location = b.location
  /-- The hits. -/
  hits : b.hits ≤ b'.hits

theorem StatementRecord.Extends.refl (s : StatementRecord) : s.Extends s :=
  ⟨rfl, rfl, Nat.le_refl _, Nat.le_refl _, Nat.le_refl _⟩

theorem StatementRecord.Extends.trans {a b c : StatementRecord} (hab : a.Extends b)
    (hbc : b.Extends c) : a.Extends c where
  startLine := hbc.startLine.trans hab.startLine
  stopLine := hbc.stopLine.trans hab.stopLine
  start := Nat.le_trans hbc.start hab.start
  stop := Nat.le_trans hab.stop hbc.stop
  hits := Nat.le_trans hab.hits hbc.hits

theorem StatementRecord.extends_add {s : StatementRecord} (h : s.hits ≤ maxHits)
    (other : StatementRecord) : s.Extends (s.add other) where
  startLine := rfl
  stopLine := rfl
  start := Nat.min_le_left ..
  stop := Nat.le_max_left ..
  hits := le_addHits h other.hits

theorem FunctionRecord.Extends.refl (g : FunctionRecord) : g.Extends g :=
  ⟨rfl, rfl, Nat.le_refl _⟩

theorem FunctionRecord.Extends.trans {a b c : FunctionRecord} (hab : a.Extends b)
    (hbc : b.Extends c) : a.Extends c where
  name := hbc.name.trans hab.name
  location := hbc.location.trans hab.location
  hits := Nat.le_trans hab.hits hbc.hits

theorem BranchRecord.Extends.refl (b : BranchRecord) : b.Extends b := ⟨rfl, Nat.le_refl _⟩

theorem BranchRecord.Extends.trans {a b c : BranchRecord} (hab : a.Extends b)
    (hbc : b.Extends c) : a.Extends c where
  location := hbc.location.trans hab.location
  hits := Nat.le_trans hab.hits hbc.hits

/-! ## Records -/

/-- A record keeps its path, statements, functions, branches and text, and no hits go down. -/
structure FileRecord.Extends (f f' : FileRecord) : Prop where
  /-- The path stays. -/
  path : f'.path = f.path
  /-- Statements stay. -/
  statements : KeepsValues StatementRecord.Extends f.statements f'.statements
  /-- Functions stay, with their names and locations. -/
  functions : KeepsValues FunctionRecord.Extends f.functions f'.functions
  /-- Branches stay, with their locations. -/
  branches : KeepsValues BranchRecord.Extends f.branches f'.branches
  /-- A text that is known stays. -/
  text : ∀ text, f.text = some text → f'.text = some text

/-- All hits of a record are words. -/
structure FileRecord.HitsFit (f : FileRecord) : Prop where
  /-- The hits of statements. -/
  statements : EachValue (·.hits ≤ maxHits) f.statements
  /-- The hits of functions. -/
  functions : EachValue (·.hits ≤ maxHits) f.functions
  /-- The hits of branches. -/
  branches : EachValue (·.hits ≤ maxHits) f.branches

namespace FileRecord

theorem Extends.refl (f : FileRecord) : f.Extends f where
  path := rfl
  statements := .refl StatementRecord.Extends.refl _
  functions := .refl FunctionRecord.Extends.refl _
  branches := .refl BranchRecord.Extends.refl _
  text _ h := h

theorem Extends.trans {a b c : FileRecord} (hab : a.Extends b) (hbc : b.Extends c) :
    a.Extends c where
  path := hbc.path.trans hab.path
  statements := hab.statements.trans .trans hbc.statements
  functions := hab.functions.trans .trans hbc.functions
  branches := hab.branches.trans .trans hbc.branches
  text text h := hbc.text text (hab.text text h)

/-- A record whose hits are words is extended by one whose hits are words. -/
def Grows (f f' : FileRecord) : Prop := f.HitsFit → f'.HitsFit ∧ f.Extends f'

theorem Grows.refl (f : FileRecord) : f.Grows f := fun h => ⟨h, .refl f⟩

theorem Grows.trans {a b c : FileRecord} (hab : a.Grows b) (hbc : b.Grows c) : a.Grows c := by
  intro h
  obtain ⟨hfit, hext⟩ := hab h
  obtain ⟨hfit', hext'⟩ := hbc hfit
  exact ⟨hfit', hext.trans hext'⟩

theorem grows_addStatement (f : FileRecord) (line : Nat) (location : Location) (hits : Nat) :
    f.Grows (f.addStatement line location hits) := by
  intro h
  refine ⟨{ h with statements := h.statements.alter (addHits_le ..) },
    { Extends.refl f with statements := .alter StatementRecord.Extends.refl ?_ }⟩
  intro s hs
  exact s.extends_add (h.statements line s hs) ⟨location, hits⟩

theorem grows_addFunction (f : FileRecord) (name : Option String) (location : Location)
    (hits : Nat) : f.Grows (f.addFunction name location hits) := by
  intro h
  refine ⟨{ h with functions := h.functions.alter (addHits_le ..) },
    { Extends.refl f with functions := .alter FunctionRecord.Extends.refl ?_ }⟩
  intro g hg
  exact ⟨rfl, rfl, le_addHits (h.functions location.start g hg) hits⟩

theorem grows_addBranch (f : FileRecord) (location : Location) (hits : Nat) :
    f.Grows (f.addBranch location hits) := by
  intro h
  refine ⟨{ h with branches := h.branches.alter (addHits_le ..) },
    { Extends.refl f with branches := .alter BranchRecord.Extends.refl ?_ }⟩
  intro b hb
  exact ⟨rfl, le_addHits (h.branches location b hb) hits⟩

/-- A text is taken only where none is known. -/
theorem grows_text (f : FileRecord) (text : Option String) :
    f.Grows { f with text := f.text <|> text } := by
  intro h
  refine ⟨⟨h.statements, h.functions, h.branches⟩, { Extends.refl f with text := ?_ }⟩
  intro known hknown
  simp [hknown]

theorem grows_addShare (f : FileRecord) (s : Share) : f.Grows (f.addShare s) := by
  refine addShare_induction ?_ ?_ ?_ ?_ (.refl f)
  · intro f' n l _ hf
    exact hf.trans (f'.grows_addStatement _ _ _)
  · intro f' name location count _ hf
    exact hf.trans (f'.grows_addFunction _ _ _)
  · intro f' location count _ hf
    exact hf.trans (f'.grows_addBranch _ _)
  · intro f' hf
    exact hf.trans (f'.grows_text s.text)

theorem grows_addSeed (f : FileRecord) (s : Seed) : f.Grows (f.addSeed s) := by
  refine addSeed_induction ?_ ?_ (.refl f)
  · intro f' l _ hf
    exact hf.trans (f'.grows_addStatement _ _ _)
  · intro f' hf
    exact hf.trans (f'.grows_text (some s.text))

theorem hitsFit_empty (path : String) : (empty path).HitsFit := ⟨.empty, .empty, .empty⟩

end FileRecord

/-! ## Maps -/

namespace CoverageMap

/-- A map keeps its files, and each of them what it holds. -/
def Extends (m m' : CoverageMap) : Prop := KeepsValues FileRecord.Extends m.files m'.files

/-- All hits of a map are words. -/
def HitsFit (m : CoverageMap) : Prop := EachValue FileRecord.HitsFit m.files

/-- A map whose hits are words is extended by one whose hits are words. -/
def Grows (m m' : CoverageMap) : Prop := m.HitsFit → m'.HitsFit ∧ m.Extends m'

theorem Grows.refl (m : CoverageMap) : m.Grows m :=
  fun h => ⟨h, KeepsValues.refl FileRecord.Extends.refl m.files⟩

theorem Grows.trans {a b c : CoverageMap} (hab : a.Grows b) (hbc : b.Grows c) : a.Grows c := by
  intro h
  obtain ⟨hfit, hext⟩ := hab h
  obtain ⟨hfit', hext'⟩ := hbc hfit
  exact ⟨hfit', KeepsValues.trans .trans hext hext'⟩

theorem hitsFit_empty : CoverageMap.HitsFit {} := EachValue.empty

/-- A map grows with any of its records. -/
theorem grows_update (m : CoverageMap) (path : String) {change : FileRecord → FileRecord}
    (hchange : ∀ f, FileRecord.Grows f (change f)) : m.Grows (m.update path change) := by
  intro h
  have hold : (m.files[path]?.getD (.empty path)).HitsFit := by
    cases hfile : m.files[path]? with
    | none => exact FileRecord.hitsFit_empty path
    | some f => exact h path f hfile
  refine ⟨EachValue.alter h (hchange _ hold).1, KeepsValues.alter FileRecord.Extends.refl ?_⟩
  intro f hf
  exact (hchange f (h path f hf)).2

theorem grows_addSeed (m : CoverageMap) (s : Seed) : m.Grows (m.addSeed s) :=
  m.grows_update s.path fun f => f.grows_addSeed s

theorem grows_addFindings (m : CoverageMap) (findings : List Finding) :
    m.Grows (m.addFindings findings) := by
  refine List.foldlRecOn (motive := m.Grows) _ _ (.refl m) ?_
  rintro m' hm ⟨path, share⟩ -
  exact hm.trans (m'.grows_update path fun f => f.grows_addShare share)

/-- Findings change nothing but the sources that they are about. -/
theorem get?_addFindings_of_forall_ne (m : CoverageMap) {findings : List Finding} {path : String}
    (h : ∀ f ∈ findings, f.path ≠ path) : (m.addFindings findings).get? path = m.get? path := by
  rw [addFindings, get?_addShares]
  cases hshare : (Share.ofFindings findings)[path]? with
  | none => rfl
  | some s =>
      obtain ⟨f, hf, hpath⟩ := Share.exists_of_ofFindings hshare
      exact absurd hpath (h f hf)

end CoverageMap

/-! ## Calls -/

namespace Merger

/-- Every sequence of calls extends the map. -/
theorem grows_performAll (m : Merger) (calls : List Call) :
    m.map.Grows (m.performAll calls).map :=
  performAll_induction (P := m.map.Grows)
    (fun map s _ _ h => h.trans (map.grows_addSeed s))
    (fun map findings _ h => h.trans (map.grows_addFindings findings)) calls (.refl m.map)

/-- An entry that says nothing leaves the map and the counter of contributions as they are.
Otherwise it changes nothing but the sources of its script in scope.  It extends the map. -/
theorem add_accumulates (m : Merger) (d : Disk) (e : Entry) (h : m.map.HitsFit) :
    ((m.add d e).1 = false →
        (m.add d e).2.map = m.map ∧ (m.add d e).2.stats.contributed = m.stats.contributed) ∧
      (∀ path, (¬∃ s, m.resolver.script? d e = some s ∧ s.IsSource path ∧ m.filter.includes path) →
        (m.add d e).2.map.get? path = m.map.get? path) ∧
      m.map.Extends (m.add d e).2.map ∧ (m.add d e).2.map.HitsFit := by
  obtain ⟨hfit, hext⟩ := m.map.grows_addFindings (m.found d e) h
  rw [add_found]
  refine ⟨?_, ?_, hext, hfit⟩
  · intro hfalse
    have hnone : m.found d e = [] := by simpa using hfalse
    rw [hnone]
    exact ⟨rfl, rfl⟩
  · intro path hother
    refine m.map.get?_addFindings_of_forall_ne fun f hf hpath => hother ?_
    obtain ⟨s, hscript, hfinding⟩ := exists_of_mem_found hf
    obtain ⟨hscope, hsource, -⟩ := s.wellFormed_findings hfinding
    rw [hpath] at hscope hsource
    exact ⟨s, hscript, hsource, hscope⟩

/-- A merger that was given one script with its text. -/
def afterTexted : Merger := (new ".next" .everything).performAll [.add .empty .texted]

/-- Another call of the same script counts again, and tells about no other source. -/
theorem texted_accumulates :
    afterTexted.map.HitsFit ∧
      afterTexted.map.Extends (afterTexted.add .empty .texted).2.map ∧
      (afterTexted.add .empty .texted).2.map.get? "src/b.js"
        = afterTexted.map.get? "src/b.js" := by
  have hfits : afterTexted.map.HitsFit :=
    (grows_performAll (new ".next" .everything) _ CoverageMap.hitsFit_empty).1
  obtain ⟨-, hother, hext, -⟩ := add_accumulates afterTexted .empty .texted hfits
  refine ⟨hfits, hext, hother "src/b.js" ?_⟩
  rintro ⟨s, hscript, hsource, -⟩
  have hown : afterTexted.resolver.script? .empty .texted
      = some { url := "src/a.js", code := "f();" } := by
    decide +kernel
  rw [hown] at hscript
  cases hscript
  have hpath : ResolvedScript.path { url := "src/a.js", code := "f();" } = "src/b.js" := hsource
  exact absurd hpath (by decide +kernel)

end Merger

end BundleCoverage
