import BundleCoverage.Proofs.Runs
import Mathlib.Data.List.Basic

/-!
# The order of entries

Entries that share a URL share a script, the one of whichever comes first.  Where they also
agree on the source, it does not matter which one this is: each entry says what it says alone
(`Merger.addAll_alone`).  Then the entries of a run can be swapped, since two
additions to a statement, a function or a branch can be (`swap_merge`).

What may depend on the order is the name and the end of a function, which are those of the
first call seen, and the text kept with a file.  `CoverageMap.SameCounts` leaves them out.
-/

namespace BundleCoverage

/-! ## Scripts without their run -/

/-- Entries agree on sources if a URL stands for one source. -/
def Entry.AgreeOnSources (entries : List Entry) : Prop :=
  ∀ e ∈ entries, ∀ e' ∈ entries, e.url = e'.url → e.source = e'.source

instance (entries : List Entry) : Decidable (Entry.AgreeOnSources entries) :=
  inferInstanceAs (Decidable (∀ e ∈ entries, ∀ e' ∈ entries, e.url = e'.url → e.source = e'.source))

namespace Entry

variable {d : Disk} {buildDirectory : String} {run run' : List Entry} {e : Entry}

theorem AgreeOnSources.perm (h : AgreeOnSources run) (hperm : run.Perm run') :
    AgreeOnSources run' := by
  intro e he e' he'
  exact h e (hperm.mem_iff.2 he) e' (hperm.mem_iff.2 he')

/-- Among entries that agree, the first one of a URL has the text of all. -/
theorem AgreeOnSources.code?_firstOf (h : AgreeOnSources run) (he : e ∈ run) :
    (e.firstOf run).code? d buildDirectory = e.code? d buildDirectory := by
  refine code?_congr (url_firstOf run e) ?_
  have hurl := url_firstOf run e
  rw [firstOf] at hurl ⊢
  cases hfind : run.find? (asksFor e.url) with
  | none => rfl
  | some first =>
      rw [hfind] at hurl
      exact h first (List.mem_of_find?_eq_some hfind) e he hurl

end Entry

/-! ## Swapping two additions -/

/-- Two additions can be swapped if their sum does not depend on their order. -/
theorem swap_merge {α : Type} (op : α → α → α) [Std.Associative op] {a b : Option α}
    (h : Option.merge op a b = Option.merge op b a) (v : Option α) :
    Option.merge op (Option.merge op v a) b = Option.merge op (Option.merge op v b) a := by
  have hassoc := (Option.associative_merge op).assoc
  rw [hassoc, h, ← hassoc]

/-- The first and the last position of a statement lie on its line. -/
def StatementRecord.LiesOn (line : Nat) (s : StatementRecord) : Prop :=
  s.location.start.line = line ∧ s.location.stop.line = line

theorem StatementRecord.add_comm {line : Nat} {a b : StatementRecord} (ha : a.LiesOn line)
    (hb : b.LiesOn line) : a.add b = b.add a := by
  obtain ⟨hstart, hstop⟩ := ha
  obtain ⟨hstart', hstop'⟩ := hb
  simp only [add, Location.widen, hstart, hstop, hstart', hstop', addHits_comm a.hits,
    Nat.min_comm a.location.start.column, Nat.max_comm a.location.stop.column]

theorem Finding.liesOn_of_statement? {path : String} {line : Nat} {findings : List Finding}
    {s : StatementRecord} (h : Finding.statement? path line findings = some s) :
    s.LiesOn line := by
  obtain ⟨share, -, hline⟩ := Option.bind_eq_some_iff.1 h
  obtain ⟨l, -, rfl⟩ := Option.map_eq_some_iff.1 hline
  exact ⟨rfl, rfl⟩

theorem Finding.statement?_comm (path : String) (line : Nat) (a b : List Finding) :
    Option.merge StatementRecord.add (statement? path line a) (statement? path line b)
      = Option.merge StatementRecord.add (statement? path line b) (statement? path line a) := by
  cases ha : statement? path line a with
  | none => rw [Option.merge_none_left, Option.merge_none_right]
  | some s =>
      cases hb : statement? path line b with
      | none => rfl
      | some s' =>
          have hcomm := StatementRecord.add_comm (liesOn_of_statement? ha) (liesOn_of_statement? hb)
          exact congrArg some hcomm

/-! ## Runs in another order -/

/-- Two maps with the same files, statements, branches, and functions with their hits. -/
structure CoverageMap.SameCounts (a b : CoverageMap) : Prop where
  /-- The same files. -/
  contains : ∀ path, a.contains path = b.contains path
  /-- The same lines with the same locations and hits. -/
  statement : ∀ path line, a.statement? path line = b.statement? path line
  /-- The same first positions of functions with the same hits. -/
  functionHits : ∀ path start, a.functionHits? path start = b.functionHits? path start
  /-- The same branches with the same hits. -/
  branchHits : ∀ path location, a.branchHits? path location = b.branchHits? path location

theorem CoverageMap.hits_perm {α : Type} (view : CoverageMap → Option Nat)
    (counts : List Finding → List Nat)
    (hview : ∀ map findings, view (map.addFindings findings)
      = Option.merge addHits (view map) (totalHits? (counts findings)))
    (findings : α → List Finding) {xs ys : List α} (h : xs.Perm ys) (m : CoverageMap) :
    view (xs.foldl (fun m x => m.addFindings (findings x)) m)
      = view (ys.foldl (fun m x => m.addFindings (findings x)) m) := by
  refine foldl_perm _ view
    (fun old x => Option.merge addHits old (totalHits? (counts (findings x)))) ?_ ?_ h m
  · intro m x
    exact hview m (findings x)
  · intro old x y
    exact swap_merge addHits (mergeHits_comm ..) old

theorem CoverageMap.sameCounts_of_perm {α : Type} (findings : α → List Finding) {xs ys : List α}
    (h : xs.Perm ys) (m : CoverageMap) :
    SameCounts (xs.foldl (fun m x => m.addFindings (findings x)) m)
      (ys.foldl (fun m x => m.addFindings (findings x)) m) where
  contains path := by
    refine foldl_perm _ (fun m : CoverageMap => m.contains path)
      (fun old x => old || !(Finding.about path (findings x)).isEmpty) ?_ ?_ h m
    · intro m x
      exact m.contains_addFindings (findings x) path
    · intro old x y
      exact Bool.or_right_comm ..
  statement path line := by
    refine foldl_perm _ (fun m : CoverageMap => m.statement? path line)
      (fun old x => Option.merge StatementRecord.add old
        (Finding.statement? path line (findings x))) ?_ ?_ h m
    · intro m x
      exact m.statement?_addFindings (findings x) path line
    · intro old x y
      exact swap_merge StatementRecord.add (Finding.statement?_comm ..) old
  functionHits path start := by
    refine hits_perm (·.functionHits? path start) (Finding.callsAt path start) ?_ findings h m
    intro m findings
    exact m.functionHits?_addFindings findings path start
  branchHits path location := by
    refine hits_perm (·.branchHits? path location) (Finding.blocksAt path location) ?_ findings h m
    intro m findings
    exact m.branchHits?_addFindings findings path location

theorem MergeStats.count_perm {α : Type} (findings : α → List Finding) {xs ys : List α}
    (h : xs.Perm ys) (stats : MergeStats) :
    xs.foldl (fun stats x => stats.count (findings x)) stats
      = ys.foldl (fun stats x => stats.count (findings x)) stats := by
  refine h.foldl_eq' ?_ stats
  intro x _ y _ stats
  simp only [count, Nat.add_right_comm]

/-- An entry with a call of a nameless function of one script. -/
def Entry.namelessCall (first last : UInt32) : Entry :=
  { url := "src/a.js", source := some "(() => 1)();\n(() => 2)();"
    functions := [{ ranges := [⟨first, last, 1⟩] }] }

namespace Merger

variable {m : Merger} {d : Disk} {entries entries' : List Entry}

/-- A run of entries that agree on sources: each of them says what it says alone. -/
theorem addAll_alone (h : m.resolver.Knows d []) (hsources : Entry.AgreeOnSources entries) :
    (m.addAll d entries).map
        = entries.foldl (fun map e => map.addFindings (m.findingsOf d [e] e)) m.map ∧
      (m.addAll d entries).stats
        = entries.foldl (fun stats e => stats.count (m.findingsOf d [e] e)) m.stats := by
  have halone (e : Entry) (he : e ∈ entries) :
      m.findingsOf d ([] ++ entries) e = m.findingsOf d [e] e :=
    Entry.findingsIn_alone (hsources.code?_firstOf he)
  rw [map_addAll h, stats_addAll h]
  constructor
  · refine List.foldl_ext _ _ m.map ?_
    intro map e he
    rw [halone e he]
  · refine List.foldl_ext _ _ m.stats ?_
    intro stats e he
    rw [halone e he]

/-- The order of the entries of a run does not matter to counts, after any seeding. -/
theorem sameCounts_of_perm_entries (d : Disk) (buildDirectory : String) (filter : SourceFilter)
    (roots : List (String × String)) (hperm : entries.Perm entries')
    (hsources : Entry.AgreeOnSources entries) :
    CoverageMap.SameCounts
        ((((new buildDirectory filter).seedAll d roots).addAll d entries).map)
        ((((new buildDirectory filter).seedAll d roots).addAll d entries').map) ∧
      (((new buildDirectory filter).seedAll d roots).addAll d entries).stats
        = (((new buildDirectory filter).seedAll d roots).addAll d entries').stats := by
  have hknows := knows_seedAll d buildDirectory filter roots
  obtain ⟨hmap, hstats⟩ := addAll_alone hknows hsources
  obtain ⟨hmap', hstats'⟩ := addAll_alone hknows (hsources.perm hperm)
  rw [hmap, hmap', hstats, hstats']
  exact ⟨CoverageMap.sameCounts_of_perm _ hperm _, MergeStats.count_perm _ hperm _⟩

/-- Two nameless functions, numbered by their order, are there with the same counts. -/
theorem sameCounts_of_nameless_calls :
    [Entry.namelessCall 1 8, .namelessCall 14 21].Perm [.namelessCall 14 21, .namelessCall 1 8] ∧
      Entry.AgreeOnSources [.namelessCall 1 8, .namelessCall 14 21] ∧
      CoverageMap.SameCounts
        (((new ".next" ⟨[[.components]], []⟩).seedAll .empty []).addAll .empty
          [.namelessCall 1 8, .namelessCall 14 21]).map
        (((new ".next" ⟨[[.components]], []⟩).seedAll .empty []).addAll .empty
          [.namelessCall 14 21, .namelessCall 1 8]).map := by
  have hperm : [Entry.namelessCall 1 8, .namelessCall 14 21].Perm
      [.namelessCall 14 21, .namelessCall 1 8] := .swap ..
  have hsources : Entry.AgreeOnSources [.namelessCall 1 8, .namelessCall 14 21] := by decide
  exact ⟨hperm, hsources,
    (sameCounts_of_perm_entries .empty ".next" ⟨[[.components]], []⟩ [] hperm hsources).1⟩

end Merger

end BundleCoverage
