import BundleCoverage.Merge.Merger
import BundleCoverage.Proofs.Shares

/-!
# A map with the findings of an entry

A coverage map is seen through what it says about one line, function or branch of one
source.  Adding the findings of an entry merges what they say about it into this view.

However a map is built, its records have the paths under which they stand
(`CoverageMap.Built.pathsAgree`).
-/

namespace BundleCoverage

open Std

namespace CoverageMap

/-! ## Views -/

/-- What a map says about a line of a source. -/
def statement? (m : CoverageMap) (path : String) (line : Nat) : Option StatementRecord :=
  (m.get? path).bind (·.statements[line]?)

/-- The hits of a line of a source. -/
def lineHits? (m : CoverageMap) (path : String) (line : Nat) : Option Nat :=
  (m.statement? path line).map (·.hits)

/-- What a map says about the function of a source that starts at a position. -/
def function? (m : CoverageMap) (path : String) (start : Position) : Option FunctionRecord :=
  (m.get? path).bind (·.functions[start]?)

/-- The hits of the function of a source that starts at a position. -/
def functionHits? (m : CoverageMap) (path : String) (start : Position) : Option Nat :=
  (m.function? path start).map (·.hits)

/-- The hits of a branch of a source. -/
def branchHits? (m : CoverageMap) (path : String) (location : Location) : Option Nat :=
  (m.get? path).bind (·.branchHits? location)

theorem contains_eq (m : CoverageMap) (path : String) : m.contains path = (m.get? path).isSome :=
  ExtTreeMap.isSome_getElem?_eq_contains.symm

theorem functionHits?_eq (m : CoverageMap) (path : String) (start : Position) :
    m.functionHits? path start = (m.get? path).bind (·.functionHits? start) := by
  simp only [functionHits?, function?, FileRecord.functionHits?, Option.map_bind]
  rfl

/-- A map of no files says nothing. -/
@[simp] theorem get?_empty (path : String) : ({} : CoverageMap).get? path = none :=
  ExtTreeMap.getElem?_empty

@[simp] theorem statement?_empty (path : String) (n : Nat) :
    ({} : CoverageMap).statement? path n = none := by
  simp [statement?]

@[simp] theorem lineHits?_empty (path : String) (n : Nat) :
    ({} : CoverageMap).lineHits? path n = none := by
  simp [lineHits?]

@[simp] theorem functionHits?_empty (path : String) (q : Position) :
    ({} : CoverageMap).functionHits? path q = none := by
  simp [functionHits?, function?]

@[simp] theorem branchHits?_empty (path : String) (l : Location) :
    ({} : CoverageMap).branchHits? path l = none := by
  simp [branchHits?]

/-! ## Paths -/

/-- Whether each record has the path under which it stands. -/
def PathsAgree (m : CoverageMap) : Prop := ∀ path f, m.get? path = some f → f.path = path

theorem pathsAgree_empty : PathsAgree {} := by
  intro path f h
  simp at h

/-- A change of a record that leaves its path alone. -/
theorem PathsAgree.update {m : CoverageMap} (h : m.PathsAgree) {path : String}
    {change : FileRecord → FileRecord} (hchange : ∀ f, f.path = path → (change f).path = path) :
    (m.update path change).PathsAgree := by
  refine forall_getElem?_alter (Q := fun p (f : FileRecord) => f.path = p) (m := m.files) h
    (hchange _ ?_)
  cases hold : m.files[path]? with
  | none => rfl
  | some old => exact h path old hold

/-- Whether a map is built by entering statements, functions and branches into the records of
sources. -/
inductive Built : CoverageMap → Prop where
  /-- A new map. -/
  | empty : Built {}
  /-- A source is given a record, if it has none. -/
  | file {m : CoverageMap} (h : Built m) (path : String) : Built (m.update path id)
  /-- Executions of a line are entered. -/
  | statement {m : CoverageMap} (h : Built m) (path : String) (line : Nat) (location : Location)
      (hits : Nat) : Built (m.update path (·.addStatement line location hits))
  /-- Calls of a function are entered. -/
  | function {m : CoverageMap} (h : Built m) (path : String) (name : Option String)
      (location : Location) (hits : Nat) : Built (m.update path (·.addFunction name location hits))
  /-- Executions of a block are entered. -/
  | branch {m : CoverageMap} (h : Built m) (path : String) (location : Location) (hits : Nat) :
      Built (m.update path (·.addBranch location hits))

/-- However a map is built, each record has the path under which it stands. -/
theorem Built.pathsAgree {m : CoverageMap} (h : m.Built) : m.PathsAgree := by
  induction h with
  | empty => exact pathsAgree_empty
  | file _ _ ih => exact ih.update fun _ hpath => hpath
  | statement _ _ _ _ _ ih => exact ih.update fun _ hpath => hpath
  | function _ _ _ _ _ ih => exact ih.update fun _ hpath => hpath
  | branch _ _ _ _ ih => exact ih.update fun _ hpath => hpath

/-! ## Shares -/

theorem get?_update (m : CoverageMap) (path p : String) (change : FileRecord → FileRecord) :
    (m.update path change).get? p
      = if path = p then some (change ((m.get? path).getD (.empty path))) else m.get? p := by
  simp only [update, get?, getElem?_alter_eq]

/-- The record of a source after some shares were added. -/
theorem get?_addShares (m : CoverageMap) (shares : ExtTreeMap String Share) (path : String) :
    (m.addShares shares).get? path
      = shares[path]?.elim (m.get? path)
          fun s => some (((m.get? path).getD (.empty path)).addShare s) := by
  refine foldl_toList _ (fun m : CoverageMap => m.get? path) path
    (fun old s => some ((old.getD (.empty path)).addShare s)) (fun m e he => ?_) (fun m s => ?_)
    shares m
  · rw [get?_update, if_neg he]
  · rw [get?_update, if_pos rfl]

/-! ## Findings -/

/-- A map with the findings of an entry. -/
def addFindings (m : CoverageMap) (findings : List Finding) : CoverageMap :=
  m.addShares (Share.ofFindings findings)

end CoverageMap

namespace Finding

/-- What some findings say about a line of a source, in the form of a record. -/
def statement? (path : String) (line : Nat) (findings : List Finding) : Option StatementRecord :=
  (Share.ofFindings findings)[path]?.bind (·.statement? line)

/-- The highest count that some findings report of a line of a source. -/
def lineCount? (path : String) (line : Nat) (findings : List Finding) : Option Nat :=
  ((about path findings).filterMap (·.countOn? line)).max?

/-- The counts of the calls of a function of a source. -/
def callsAt (path : String) (start : Position) (findings : List Finding) : List Nat :=
  (about path findings).filterMap (·.callAt? start)

/-- The counts of the runs of a block of a source. -/
def blocksAt (path : String) (location : Location) (findings : List Finding) : List Nat :=
  (about path findings).filterMap (·.blockAt? location)

theorem hits_statement? (path : String) (line : Nat) (findings : List Finding) :
    (statement? path line findings).map (·.hits)
      = totalHits? (lineCount? path line findings).toList := by
  rw [lineCount?, ← Share.lineCount_ofFindings, statement?]
  cases (Share.ofFindings findings)[path]? with
  | none => rfl
  | some s =>
      simp only [Option.bind_some, Share.statement?]
      cases s.lines[line]? with
      | none => rfl
      | some l => exact (totalHits?_singleton l.count).symm

end Finding

namespace CoverageMap

theorem contains_addFindings (m : CoverageMap) (findings : List Finding) (path : String) :
    (m.addFindings findings).contains path
      = (m.contains path || !(Finding.about path findings).isEmpty) := by
  rw [contains_eq, contains_eq, addFindings, get?_addShares, ← Share.isSome_ofFindings]
  cases (Share.ofFindings findings)[path]? with
  | none => simp
  | some s => simp

theorem statement?_addFindings (m : CoverageMap) (findings : List Finding) (path : String)
    (n : Nat) :
    (m.addFindings findings).statement? path n
      = Option.merge StatementRecord.add (m.statement? path n)
          (Finding.statement? path n findings) := by
  rw [statement?, addFindings, get?_addShares, Finding.statement?]
  cases (Share.ofFindings findings)[path]? with
  | none => simp [statement?]
  | some s =>
      simp only [Option.elim_some, Option.bind_some, FileRecord.statements_addShare, statement?]
      cases m.get? path with
      | none => simp
      | some f => rfl

theorem lineHits?_addFindings (m : CoverageMap) (findings : List Finding) (path : String)
    (n : Nat) :
    (m.addFindings findings).lineHits? path n
      = Option.merge addHits (m.lineHits? path n)
          (totalHits? (Finding.lineCount? path n findings).toList) := by
  rw [lineHits?, statement?_addFindings, StatementRecord.map_hits_merge,
    Finding.hits_statement?, lineHits?]

theorem functionHits?_addFindings (m : CoverageMap) (findings : List Finding) (path : String)
    (q : Position) :
    (m.addFindings findings).functionHits? path q
      = Option.merge addHits (m.functionHits? path q)
          (totalHits? (Finding.callsAt path q findings)) := by
  rw [functionHits?_eq, functionHits?_eq, addFindings, get?_addShares, Finding.callsAt,
    ← Share.callsAt_ofFindings]
  cases (Share.ofFindings findings)[path]? with
  | none => simp [totalHits?]
  | some s =>
      simp only [Option.elim_some, Option.bind_some, FileRecord.functionHits?_addShare]
      cases m.get? path with
      | none => simp [FileRecord.functionHits?]
      | some f => rfl

theorem branchHits?_addFindings (m : CoverageMap) (findings : List Finding) (path : String)
    (l : Location) :
    (m.addFindings findings).branchHits? path l
      = Option.merge addHits (m.branchHits? path l)
          (totalHits? (Finding.blocksAt path l findings)) := by
  rw [branchHits?, branchHits?, addFindings, get?_addShares, Finding.blocksAt,
    ← Share.blocksAt_ofFindings]
  cases (Share.ofFindings findings)[path]? with
  | none => simp [totalHits?]
  | some s =>
      simp only [Option.elim_some, Option.bind_some, FileRecord.branchHits?_addShare]
      cases m.get? path with
      | none => simp [FileRecord.branchHits?]
      | some f => rfl

end CoverageMap

end BundleCoverage
