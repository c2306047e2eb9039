import BundleCoverage.Merge.Seed
import BundleCoverage.Merge.Share
import BundleCoverage.Proofs.Totals

/-!
# What a record says after an addition

Statements are merged with `StatementRecord.add`, the hits of functions and branches with
`addHits`.  A share adds to each part of a record what it says about this part:
`Share.statement?`, and the totals of `Share.callsAt` and `Share.blocksAt`.  What is kept by
each addition to a record is kept by a share (`FileRecord.addShare_induction`), and what is kept
by lines that were not executed is kept by a seed (`FileRecord.addSeed_induction`).
-/

namespace BundleCoverage

open Std

/-! ## Statements -/

/-- What two sides know about a line together. -/
def StatementRecord.add (a b : StatementRecord) : StatementRecord :=
  ⟨a.location.widen b.location, addHits a.hits b.hits⟩

theorem Location.widen_self (a : Location) : a.widen a = a := by
  simp [Location.widen]

theorem Location.widen_assoc (a b c : Location) :
    (a.widen b).widen c = a.widen (b.widen c) := by
  simp [Location.widen, Nat.min_assoc, Nat.max_assoc]

instance : Std.Associative StatementRecord.add where
  assoc a b c := by
    simp only [StatementRecord.add, Location.widen_assoc, addHits_assoc]

theorem StatementRecord.map_hits_merge (a b : Option StatementRecord) :
    (Option.merge StatementRecord.add a b).map (·.hits)
      = Option.merge addHits (a.map (·.hits)) (b.map (·.hits)) :=
  map_merge (fun _ _ => rfl) a b

namespace FileRecord

theorem statements_addStatement (f : FileRecord) (line : Nat) (location : Location) (hits n : Nat) :
    (f.addStatement line location hits).statements[n]?
      = Option.merge StatementRecord.add f.statements[n]?
          (if line = n then some ⟨location, addHits 0 hits⟩ else none) := by
  simp only [addStatement, getElem?_alter_eq]
  by_cases h : line = n
  · subst h
    rw [if_pos rfl, if_pos rfl]
    cases f.statements[line]? with
    | none => simp [Location.widen_self]
    | some s => simp [StatementRecord.add]
  · rw [if_neg h, if_neg h, Option.merge_none_right]

/-! ## Functions and branches -/

/-- The hits of the function that starts at a position. -/
def functionHits? (f : FileRecord) (start : Position) : Option Nat :=
  f.functions[start]?.map (·.hits)

/-- The hits of the branch with a location. -/
def branchHits? (f : FileRecord) (location : Location) : Option Nat :=
  f.branches[location]?.map (·.hits)

theorem functions_addFunction (f : FileRecord) (name : Option String) (location : Location)
    (hits : Nat) (q : Position) :
    (f.addFunction name location hits).functions[q]?
      = if location.start = q then
          let g := f.functions[q]?.getD
            ⟨(name.filter (· ≠ "")).getD (anonymousName f.functions.size), location, 0⟩
          some { g with hits := addHits g.hits hits }
        else f.functions[q]? := by
  simp only [addFunction, getElem?_alter_eq]
  by_cases h : location.start = q
  · subst h
    rfl
  · rw [if_neg h, if_neg h]

theorem functionHits?_addFunction (f : FileRecord) (name : Option String) (location : Location)
    (hits : Nat) (q : Position) :
    (f.addFunction name location hits).functionHits? q
      = Option.merge addHits (f.functionHits? q)
          (totalHits? (if location.start = q then [hits] else [])) := by
  rw [functionHits?, functions_addFunction, functionHits?]
  refine map_hits_ite ?_ _
  cases f.functions[q]? with
  | none => rfl
  | some g => rfl

theorem branches_addBranch (f : FileRecord) (location : Location) (hits : Nat) (l : Location) :
    (f.addBranch location hits).branches[l]?
      = if location = l then
          let b := f.branches[l]?.getD ⟨location, 0⟩
          some { b with hits := addHits b.hits hits }
        else f.branches[l]? := by
  simp only [addBranch, getElem?_alter_eq]
  by_cases h : location = l
  · subst h
    rfl
  · rw [if_neg h, if_neg h]

theorem branchHits?_addBranch (f : FileRecord) (location : Location) (hits : Nat) (l : Location) :
    (f.addBranch location hits).branchHits? l
      = Option.merge addHits (f.branchHits? l)
          (totalHits? (if location = l then [hits] else [])) := by
  rw [branchHits?, branches_addBranch, branchHits?]
  refine map_hits_ite ?_ _
  cases f.branches[l]? with
  | none => rfl
  | some b => rfl

end FileRecord

/-! ## Shares -/

namespace Share

/-- What a share says about a line, in the form of a record. -/
def statement? (s : Share) (line : Nat) : Option StatementRecord :=
  s.lines[line]?.map fun l => ⟨l.location (s.text.map lineLengths) line, addHits 0 l.count⟩

/-- The counts of the calls of the function that starts at a position. -/
def callsAt (s : Share) (start : Position) : List Nat :=
  s.calls.flatMap fun (_, location, count) => if location.start = start then [count] else []

/-- The counts of the blocks with a location. -/
def blocksAt (s : Share) (location : Location) : List Nat :=
  s.blocks.flatMap fun (found, count) => if found = location then [count] else []

end Share

namespace FileRecord

/-- A record with the lines of a share. -/
def addLines (f : FileRecord) (s : Share) : FileRecord :=
  s.lines.toList.foldl
    (fun f (line, share) =>
      f.addStatement line (share.location (s.text.map Share.lineLengths) line) share.count) f

/-- A record with the functions of a share. -/
def addCalls (f : FileRecord) (s : Share) : FileRecord :=
  s.calls.foldl (fun f (name, location, count) => f.addFunction (some name) location count) f

/-- A record with the blocks of a share. -/
def addBlocks (f : FileRecord) (s : Share) : FileRecord :=
  s.blocks.foldl (fun f (location, count) => f.addBranch location count) f

theorem addShare_eq (f : FileRecord) (s : Share) :
    f.addShare s
      = { ((f.addLines s).addCalls s).addBlocks s with
          text := (((f.addLines s).addCalls s).addBlocks s).text <|> s.text } := rfl

/-- What the lines, functions, blocks and the text of a share keep, the share keeps. -/
theorem addShare_induction {P : FileRecord → Prop} {f : FileRecord} {s : Share}
    (line : ∀ f n l, s.lines[n]? = some l → P f →
      P (f.addStatement n (l.location (s.text.map Share.lineLengths) n) l.count))
    (call : ∀ f name location count, (name, location, count) ∈ s.calls → P f →
      P (f.addFunction (some name) location count))
    (block : ∀ f location count, (location, count) ∈ s.blocks → P f →
      P (f.addBranch location count))
    (text : ∀ f, P f → P { f with text := f.text <|> s.text }) (h : P f) : P (f.addShare s) := by
  have hlines : P (f.addLines s) := by
    refine List.foldlRecOn (motive := P) _ _ h ?_
    rintro f hf ⟨n, l⟩ hl
    exact line f n l (ExtTreeMap.mem_toList_iff_getElem?_eq_some.1 hl) hf
  have hcalls : P ((f.addLines s).addCalls s) := by
    refine List.foldlRecOn (motive := P) _ _ hlines ?_
    rintro f hf ⟨name, location, count⟩ hcall
    exact call f name location count hcall hf
  have hblocks : P (((f.addLines s).addCalls s).addBlocks s) := by
    refine List.foldlRecOn (motive := P) _ _ hcalls ?_
    rintro f hf ⟨location, count⟩ hblock
    exact block f location count hblock hf
  rw [addShare_eq]
  exact text _ hblocks

theorem statements_addLines (f : FileRecord) (s : Share) (n : Nat) :
    (f.addLines s).statements[n]?
      = Option.merge StatementRecord.add f.statements[n]? (s.statement? n) := by
  have hfold := foldl_toList
    (fun (f : FileRecord) ((line, share) : Nat × LineShare) =>
      f.addStatement line (share.location (s.text.map Share.lineLengths) line) share.count)
    (fun f => f.statements[n]?) n
    (fun old share => Option.merge StatementRecord.add old
      (some ⟨share.location (s.text.map Share.lineLengths) n, addHits 0 share.count⟩))
    (fun f e he => by rw [statements_addStatement, if_neg he, Option.merge_none_right])
    (fun f share => by rw [statements_addStatement, if_pos rfl]) s.lines f
  rw [addLines, hfold, Share.statement?]
  cases s.lines[n]? with
  | none => simp
  | some share => rfl

@[simp] theorem functions_addLines (f : FileRecord) (s : Share) :
    (f.addLines s).functions = f.functions := by
  rw [addLines]
  refine foldl_frame _ FileRecord.functions _ ?_ f
  intro f e _
  rfl

@[simp] theorem branches_addLines (f : FileRecord) (s : Share) :
    (f.addLines s).branches = f.branches := by
  rw [addLines]
  refine foldl_frame _ FileRecord.branches _ ?_ f
  intro f e _
  rfl

@[simp] theorem statements_addCalls (f : FileRecord) (s : Share) :
    (f.addCalls s).statements = f.statements := by
  rw [addCalls]
  refine foldl_frame _ FileRecord.statements _ ?_ f
  intro f e _
  rfl

theorem functionHits?_addCalls (f : FileRecord) (s : Share) (q : Position) :
    (f.addCalls s).functionHits? q
      = Option.merge addHits (f.functionHits? q) (totalHits? (s.callsAt q)) :=
  foldl_hits _ (fun f => f.functionHits? q) _
    (fun f (name, location, count) => functionHits?_addFunction f (some name) location count q)
    s.calls f

@[simp] theorem branches_addCalls (f : FileRecord) (s : Share) :
    (f.addCalls s).branches = f.branches := by
  rw [addCalls]
  refine foldl_frame _ FileRecord.branches _ ?_ f
  intro f e _
  rfl

@[simp] theorem statements_addBlocks (f : FileRecord) (s : Share) :
    (f.addBlocks s).statements = f.statements := by
  rw [addBlocks]
  refine foldl_frame _ FileRecord.statements _ ?_ f
  intro f e _
  rfl

@[simp] theorem functions_addBlocks (f : FileRecord) (s : Share) :
    (f.addBlocks s).functions = f.functions := by
  rw [addBlocks]
  refine foldl_frame _ FileRecord.functions _ ?_ f
  intro f e _
  rfl

theorem branchHits?_addBlocks (f : FileRecord) (s : Share) (l : Location) :
    (f.addBlocks s).branchHits? l
      = Option.merge addHits (f.branchHits? l) (totalHits? (s.blocksAt l)) :=
  foldl_hits _ (fun f => f.branchHits? l) _
    (fun f (location, count) => branchHits?_addBranch f location count l) s.blocks f

/-! ## Records with a share -/

theorem statements_addShare (f : FileRecord) (s : Share) (n : Nat) :
    (f.addShare s).statements[n]?
      = Option.merge StatementRecord.add f.statements[n]? (s.statement? n) := by
  rw [addShare_eq, ← statements_addLines]
  simp

theorem functionHits?_addShare (f : FileRecord) (s : Share) (q : Position) :
    (f.addShare s).functionHits? q
      = Option.merge addHits (f.functionHits? q) (totalHits? (s.callsAt q)) := by
  have hcalls := functionHits?_addCalls (f.addLines s) s q
  simpa [functionHits?, addShare_eq] using hcalls

theorem branchHits?_addShare (f : FileRecord) (s : Share) (l : Location) :
    (f.addShare s).branchHits? l
      = Option.merge addHits (f.branchHits? l) (totalHits? (s.blocksAt l)) := by
  have hblocks := branchHits?_addBlocks ((f.addLines s).addCalls s) s l
  simpa [branchHits?, addShare_eq] using hblocks

/-! ## Seeds -/

/-- What lines that were not executed and a text keep, a seed keeps. -/
theorem addSeed_induction {P : FileRecord → Prop} {f : FileRecord} {s : Seed}
    (line : ∀ f, ∀ l ∈ codeLines s.text, P f →
      P (f.addStatement l.line (.onLine l.line l.start l.stop) 0))
    (text : ∀ f, P f → P { f with text := f.text <|> some s.text }) (h : P f) :
    P (f.addSeed s) := by
  refine text _ (List.foldlRecOn (motive := P) _ _ h ?_)
  intro f hf l hl
  exact line f l hl hf

end FileRecord

end BundleCoverage
