import BundleCoverage.Proofs.Maps

/-!
# Runs

A run merges a list of entries, one after another.  The merger carries two things from
entry to entry, the map and the scripts resolved so far.  The scripts need no history: what
the resolver knows is always the first entry with ranges of each URL (`Resolver.Knows`), so
the script of an entry depends on the list alone (`Entry.scriptIn?`).

`Merger.add_found` says all that one entry changes, and `Merger.addAll_eq` all that a run
changes.  So the map of a run is the first map with the findings of its entries, added in
order (`map_addAll`), and its views are those of the first map with the totals added
(`lineHits?_addAll`, `functionHits?_addAll`, `branchHits?_addAll`).
-/

namespace BundleCoverage

open Std

/-! ## The script of an entry in a run -/

namespace Entry

/-- Whether an entry has its script looked up, and under this URL. -/
def asksFor (url : String) (e : Entry) : Bool := e.hasRanges && e.url == url

/-- The entry of a run whose script an entry has: the first one with ranges and the same URL. -/
def firstOf (run : List Entry) (e : Entry) : Entry := (run.find? (asksFor e.url)).getD e

/-- The script of an entry in a run.  An entry without ranges has none. -/
def scriptIn? (d : Disk) (buildDirectory : String) (run : List Entry) (e : Entry) :
    Option ResolvedScript :=
  if e.hasRanges then (e.firstOf run).resolve? d buildDirectory else none

/-- What an entry of a run says. -/
def findingsIn (d : Disk) (buildDirectory : String) (filter : SourceFilter) (run : List Entry)
    (e : Entry) : List Finding :=
  (e.scriptIn? d buildDirectory run).elim [] (·.findings filter e)

variable {d : Disk} {buildDirectory : String} {filter : SourceFilter} {run : List Entry}
  {e e' : Entry}

theorem code?_congr (hurl : e.url = e'.url) (hsource : e.source = e'.source) :
    e.code? d buildDirectory = e'.code? d buildDirectory := by
  simp only [code?, hurl, hsource]

theorem resolve?_congr (hurl : e.url = e'.url)
    (hcode : e.code? d buildDirectory = e'.code? d buildDirectory) :
    e.resolve? d buildDirectory = e'.resolve? d buildDirectory := by
  simp only [resolve?, hurl, hcode]

theorem asksFor_self (h : e.hasRanges) : asksFor e.url e := by
  simp [asksFor, h]

@[simp] theorem firstOf_singleton (e : Entry) : e.firstOf [e] = e := by
  rw [firstOf, List.find?_singleton]
  split
  · rfl
  · rfl

/-- An entry is its own first one if no earlier entry is. -/
@[simp] theorem firstOf_append_self (run : List Entry) (e : Entry) :
    e.firstOf (run ++ [e]) = e.firstOf run := by
  rw [firstOf, firstOf, List.find?_append]
  cases run.find? (asksFor e.url) with
  | none => exact firstOf_singleton e
  | some first => rfl

/-- Later entries do not change the first one. -/
theorem firstOf_append (hranges : e.hasRanges = true) (h : e ∈ run) (later : List Entry) :
    e.firstOf (run ++ later) = e.firstOf run := by
  rw [firstOf, firstOf, List.find?_append]
  cases hfind : run.find? (asksFor e.url) with
  | none => exact absurd (asksFor_self hranges) (List.find?_eq_none.1 hfind e h)
  | some first => rfl

@[simp] theorem url_firstOf (run : List Entry) (e : Entry) : (e.firstOf run).url = e.url := by
  rw [firstOf]
  cases hfind : run.find? (asksFor e.url) with
  | none => rfl
  | some first =>
      have hasks := List.find?_some hfind
      rw [asksFor, Bool.and_eq_true, beq_iff_eq] at hasks
      exact hasks.2

/-- Later entries do not change the script of an entry. -/
theorem scriptIn?_append (h : e ∈ run) (later : List Entry) :
    e.scriptIn? d buildDirectory (run ++ later) = e.scriptIn? d buildDirectory run := by
  rw [scriptIn?, scriptIn?]
  by_cases hranges : e.hasRanges = true
  · rw [firstOf_append hranges h]
  · rw [if_neg hranges, if_neg hranges]

theorem findingsIn_append (h : e ∈ run) (later : List Entry) :
    e.findingsIn d buildDirectory filter (run ++ later)
      = e.findingsIn d buildDirectory filter run := by
  rw [findingsIn, findingsIn, scriptIn?_append h]

/-- Where the first entry has the text of an entry, this one says what it says alone. -/
theorem findingsIn_alone
    (h : (e.firstOf run).code? d buildDirectory = e.code? d buildDirectory) :
    e.findingsIn d buildDirectory filter run = e.findingsIn d buildDirectory filter [e] := by
  rw [findingsIn, findingsIn, scriptIn?, scriptIn?, firstOf_singleton,
    resolve?_congr (url_firstOf run e) h]

end Entry

/-! ## What a resolver knows -/

/-- A resolver knows the scripts of some entries and no others. -/
def Resolver.Knows (r : Resolver) (d : Disk) (past : List Entry) : Prop :=
  ∀ url, r.scripts[url]?
    = (past.find? (Entry.asksFor url)).map (·.resolve? d r.buildDirectory)

namespace Resolver

variable {r : Resolver} {d : Disk} {past : List Entry} {e : Entry}

theorem knows_nil (d : Disk) (buildDirectory : String) :
    ({ buildDirectory } : Resolver).Knows d [] := by
  intro url
  exact ExtTreeMap.getElem?_empty

theorem Knows.script? (h : r.Knows d past) (hranges : e.hasRanges = true) :
    r.script? d e = e.scriptIn? d r.buildDirectory (past ++ [e]) := by
  rw [Resolver.script?, h e.url, Entry.scriptIn?, if_pos hranges, Entry.firstOf_append_self,
    Entry.firstOf]
  cases past.find? (Entry.asksFor e.url) with
  | none => rfl
  | some first => rfl

/-- A resolver that resolved an entry knows it as well. -/
theorem Knows.resolve (h : r.Knows d past) (hranges : e.hasRanges = true) :
    (r.resolve d e).2.Knows d (past ++ [e]) := by
  intro url
  simp only [Resolver.resolve, ExtTreeMap.getElem?_insert, LawfulEqOrd.compare_eq_iff_eq]
  by_cases hurl : e.url = url
  · subst hurl
    -- a script that was there already is put back
    rw [if_pos rfl, h.script? hranges, Entry.scriptIn?, if_pos hranges, Entry.firstOf]
    cases hfind : (past ++ [e]).find? (Entry.asksFor e.url) with
    | none =>
        have hlast : e ∈ past ++ [e] := List.mem_append_right past (List.mem_singleton.2 rfl)
        exact absurd (Entry.asksFor_self hranges) (List.find?_eq_none.1 hfind e hlast)
    | some first => rfl
  · rw [if_neg hurl, h url, List.find?_append]
    simp [Entry.asksFor, hurl]

/-- An entry without ranges is never looked up. -/
theorem Knows.skip (h : r.Knows d past) (hranges : e.hasRanges = false) :
    r.Knows d (past ++ [e]) := by
  intro url
  rw [h url, List.find?_append]
  simp [Entry.asksFor, hranges]

end Resolver

/-! ## One entry -/

/-- The counters after an entry with some findings. -/
def MergeStats.count (stats : MergeStats) (findings : List Finding) : MergeStats :=
  { stats with
    entries := stats.entries + 1
    contributed := stats.contributed + if findings.isEmpty then 0 else 1 }

namespace Merger

variable {m : Merger} {d : Disk} {past : List Entry}

/-- What an entry of a run says to a merger. -/
def findingsOf (m : Merger) (d : Disk) (run : List Entry) (e : Entry) : List Finding :=
  e.findingsIn d m.resolver.buildDirectory m.filter run

/-- What an entry says to a merger: the findings of its script, if it has ranges and a script
is found. -/
def found (m : Merger) (d : Disk) (e : Entry) : List Finding :=
  if e.hasRanges then (m.resolver.script? d e).elim [] (·.findings m.filter e) else []

/-- The resolver after an entry.  An entry without ranges is never looked up. -/
def resolverAfter (m : Merger) (d : Disk) (e : Entry) : Resolver :=
  if e.hasRanges then (m.resolver.resolve d e).2 else m.resolver

/-- All that one entry changes, whatever the resolver knows: the map has its findings, and it is
counted.  The merger tells whether there were any. -/
theorem add_found (m : Merger) (d : Disk) (e : Entry) :
    m.add d e =
      (!(m.found d e).isEmpty,
        { resolver := m.resolverAfter d e
          filter := m.filter
          map := m.map.addFindings (m.found d e)
          stats := m.stats.count (m.found d e) }) := by
  by_cases hranges : e.hasRanges = true
  · simp only [add, found, resolverAfter, if_pos hranges, Resolver.resolve]
    cases m.resolver.script? d e with
    | none => rfl
    | some s =>
        simp only [addFindings, Option.elim_some]
        cases s.findings m.filter e with
        | nil => rfl
        | cons f findings => rfl
  · simp only [add, found, resolverAfter, if_neg hranges]
    rfl

/-- What an entry says is said by a script of which it is the entry. -/
theorem exists_of_mem_found {e : Entry} {f : Finding} (h : f ∈ m.found d e) :
    ∃ s, m.resolver.script? d e = some s ∧ f ∈ s.findings m.filter e := by
  rw [found] at h
  split at h
  · cases hscript : m.resolver.script? d e with
    | none =>
        rw [hscript] at h
        cases h
    | some s =>
        rw [hscript] at h
        exact ⟨s, rfl, h⟩
  · cases h

/-- All that one entry of a run changes: the resolver knows it, the map has its findings, and
it is counted. -/
theorem add_eq (h : m.resolver.Knows d past) (e : Entry) :
    ∃ r : Resolver, r.Knows d (past ++ [e]) ∧ r.buildDirectory = m.resolver.buildDirectory ∧
      (m.add d e).2 =
        { resolver := r
          filter := m.filter
          map := m.map.addFindings (m.findingsOf d (past ++ [e]) e)
          stats := m.stats.count (m.findingsOf d (past ++ [e]) e) } := by
  have hfound : m.found d e = m.findingsOf d (past ++ [e]) e := by
    by_cases hranges : e.hasRanges = true
    · rw [found, if_pos hranges, h.script? hranges]
      rfl
    · rw [found, findingsOf, Entry.findingsIn, Entry.scriptIn?, if_neg hranges, if_neg hranges,
        Option.elim_none]
  refine ⟨m.resolverAfter d e, ?_, ?_, by rw [add_found, hfound]⟩
  · rw [resolverAfter]
    split
    · next hranges => exact h.resolve hranges
    · next hranges => exact h.skip (Bool.eq_false_iff.2 hranges)
  · rw [resolverAfter]
    split
    · rfl
    · rfl

/-! ## A whole run -/

/-- All that a run changes: the resolver knows its entries, the map has their findings, and
they are counted. -/
theorem addAll_eq (h : m.resolver.Knows d past) (entries : List Entry) :
    ∃ r : Resolver, r.Knows d (past ++ entries) ∧
      r.buildDirectory = m.resolver.buildDirectory ∧
      m.addAll d entries =
        { resolver := r
          filter := m.filter
          map := entries.foldl
            (fun map e => map.addFindings (m.findingsOf d (past ++ entries) e)) m.map
          stats := entries.foldl
            (fun stats e => stats.count (m.findingsOf d (past ++ entries) e)) m.stats } := by
  -- what the resolver knows is the invariant: each entry gets its script in the whole run
  induction entries generalizing m past with
  | nil => exact ⟨m.resolver, by rwa [List.append_nil], rfl, rfl⟩
  | cons e entries ih =>
      obtain ⟨r, hknows, hdirectory, hadd⟩ := add_eq h e
      obtain ⟨r', hknows', hdirectory', hall⟩ := ih (m := (m.add d e).2) (by rwa [hadd])
      rw [hadd] at hall hdirectory'
      have hrun : past ++ [e] ++ entries = past ++ e :: entries := (List.append_cons ..).symm
      have hfirst : m.findingsOf d (past ++ [e]) e = m.findingsOf d (past ++ e :: entries) e := by
        rw [← hrun]
        exact (Entry.findingsIn_append (by simp) entries).symm
      have hrest : ∀ map stats run e',
          findingsOf ⟨r, m.filter, map, stats⟩ d run e' = m.findingsOf d run e' := by
        intro map stats run e'
        rw [findingsOf, hdirectory, findingsOf]
      refine ⟨r', by rwa [hrun] at hknows', hdirectory'.trans hdirectory, ?_⟩
      rw [addAll, List.foldl_cons, hadd, ← addAll, hall]
      simp only [hrest, hrun, hfirst, List.foldl_cons]

/-! ## Seeding before a run -/

/-- Seeds below several source directories, each of a project root, in order. -/
def seedAll (m : Merger) (d : Disk) (roots : List (String × String)) : Merger :=
  roots.foldl (fun m root => (m.seed d root.1 root.2).2) m

/-- Seeding resolves no script. -/
@[simp] theorem resolver_seedAll (m : Merger) (d : Disk) (roots : List (String × String)) :
    (m.seedAll d roots).resolver = m.resolver := by
  rw [seedAll]
  refine foldl_frame _ resolver roots ?_ m
  intro m root _
  rfl

@[simp] theorem filter_seedAll (m : Merger) (d : Disk) (roots : List (String × String)) :
    (m.seedAll d roots).filter = m.filter := by
  rw [seedAll]
  refine foldl_frame _ filter roots ?_ m
  intro m root _
  rfl

/-- A merger that was only seeded knows no script. -/
theorem knows_seedAll (d : Disk) (buildDirectory : String) (filter : SourceFilter)
    (roots : List (String × String)) :
    ((new buildDirectory filter).seedAll d roots).resolver.Knows d [] := by
  rw [resolver_seedAll]
  exact Resolver.knows_nil d buildDirectory

/-! ## Views of the map of a run -/

section

variable (h : m.resolver.Knows d past) (entries : List Entry)
include h

theorem map_addAll :
    (m.addAll d entries).map = entries.foldl
      (fun map e => map.addFindings (m.findingsOf d (past ++ entries) e)) m.map := by
  obtain ⟨r, -, -, hall⟩ := addAll_eq h entries
  rw [hall]

/-- A run keeps the build directory and the filter, and its entries are known after it. -/
theorem knows_addAll :
    (m.addAll d entries).resolver.Knows d (past ++ entries) ∧
      (m.addAll d entries).resolver.buildDirectory = m.resolver.buildDirectory ∧
      (m.addAll d entries).filter = m.filter := by
  obtain ⟨r, hknows, hdirectory, hall⟩ := addAll_eq h entries
  rw [hall]
  exact ⟨hknows, hdirectory, rfl⟩

theorem stats_addAll :
    (m.addAll d entries).stats = entries.foldl
      (fun stats e => stats.count (m.findingsOf d (past ++ entries) e)) m.stats := by
  obtain ⟨r, -, -, hall⟩ := addAll_eq h entries
  rw [hall]

/-- Hits that grow by what the findings of an entry come to, after a run. -/
theorem hits_addAll (view : CoverageMap → Option Nat) (counts : List Finding → List Nat)
    (hview : ∀ map findings, view (map.addFindings findings)
      = Option.merge addHits (view map) (totalHits? (counts findings))) :
    view (m.addAll d entries).map
      = Option.merge addHits (view m.map)
          (totalHits? (entries.flatMap fun e =>
            counts (m.findingsOf d (past ++ entries) e))) := by
  rw [map_addAll h]
  refine foldl_hits (fun map e => map.addFindings (m.findingsOf d (past ++ entries) e)) view
    (fun e => counts (m.findingsOf d (past ++ entries) e)) ?_ entries m.map
  intro map e
  exact hview map (m.findingsOf d (past ++ entries) e)

theorem lineHits?_addAll (path : String) (n : Nat) :
    (m.addAll d entries).map.lineHits? path n
      = Option.merge addHits (m.map.lineHits? path n)
          (totalHits? (entries.flatMap fun e =>
            (Finding.lineCount? path n (m.findingsOf d (past ++ entries) e)).toList)) :=
  hits_addAll h entries (·.lineHits? path n) (fun findings =>
    (Finding.lineCount? path n findings).toList) fun map findings =>
      map.lineHits?_addFindings findings path n

theorem functionHits?_addAll (path : String) (q : Position) :
    (m.addAll d entries).map.functionHits? path q
      = Option.merge addHits (m.map.functionHits? path q)
          (totalHits? (entries.flatMap fun e =>
            Finding.callsAt path q (m.findingsOf d (past ++ entries) e))) :=
  hits_addAll h entries (·.functionHits? path q) (Finding.callsAt path q) fun map findings =>
    map.functionHits?_addFindings findings path q

theorem branchHits?_addAll (path : String) (l : Location) :
    (m.addAll d entries).map.branchHits? path l
      = Option.merge addHits (m.map.branchHits? path l)
          (totalHits? (entries.flatMap fun e =>
            Finding.blocksAt path l (m.findingsOf d (past ++ entries) e))) :=
  hits_addAll h entries (·.branchHits? path l) (Finding.blocksAt path l) fun map findings =>
    map.branchHits?_addFindings findings path l

end

end Merger

end BundleCoverage
