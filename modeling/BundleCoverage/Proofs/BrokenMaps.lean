import BundleCoverage.Script.Resolved
import Std.Data.ExtTreeMap.Lemmas

/-!
# Broken maps

A script has up to two candidates for its map, the file next to it and what its text refers to
(`MapCandidate.ofScript`).  A candidate is well formed if it can be read as a map and the mappings
of the map can be decoded.

A candidate that is missing or cannot be read as a map never keeps a later one from being found.
But the mappings are decoded only when the search is over.  So a map that can be read and whose
mappings cannot be decoded hides a well-formed map behind it, and nothing else does
(`resolve_eq_resolveWellFormed?_iff`).
-/

namespace BundleCoverage

open Text

/-! ## Candidates -/

/-- Where the map of a script may be. -/
inductive MapCandidate where
  /-- In a file. -/
  | file (path : ScriptPath)
  /-- In a data URL. -/
  | dataUrl (url : List Char)
deriving Repr, DecidableEq

namespace MapCandidate

/-- What the text of a script refers to. -/
def ofReference (d : Disk) (script : Option ScriptPath) (reference : List Char) :
    Option MapCandidate :=
  if startsWith reference "data:".toList then some (.dataUrl reference)
  else (script.bind (referencedFile? d · reference)).map .file

/-- The candidates for the map of a script, in the order in which they are tried. -/
def ofScript (d : Disk) (buildDirectory url code : String) : List MapCandidate :=
  let script := locateScript url buildDirectory
  (script.map fun path => file (path.addSuffix ".map")).toList
    ++ ((mapReference? code.toList).bind (ofReference d script)).toList

/-- What reading a candidate leads to. -/
def lookup (d : Disk) : MapCandidate → MapLookup
  | file path => .ofFile d path
  | dataUrl url => .ofDataUrl url

/-- The map of a candidate with its mappings, if it is well formed. -/
def readMap? (d : Disk) (c : MapCandidate) : Option ReadMap :=
  (c.lookup d).map?.bind ReadMap.ofMap?

/-- Whether a candidate can be read as a map whose mappings can be decoded. -/
def isWellFormed (d : Disk) (c : MapCandidate) : Bool := (c.readMap? d).isSome

/-- Whether a candidate can be read as a map but its mappings cannot be decoded. -/
def hasBrokenMappings (d : Disk) (c : MapCandidate) : Bool :=
  (c.lookup d).map?.isSome && !c.isWellFormed d

/-- The first map among some candidates. -/
def search (d : Disk) (candidates : List MapCandidate) : MapLookup :=
  candidates.foldl (fun found c => found.orElse (c.lookup d)) .absent

end MapCandidate

theorem MapLookup.absent_orElse (l : MapLookup) : absent.orElse l = l := by
  cases l <;> rfl

theorem MapLookup.orElse_absent (l : MapLookup) : l.orElse absent = l := by
  cases l <;> rfl

theorem MapLookup.map?_orElse (a b : MapLookup) : (a.orElse b).map? = (a.map? <|> b.map?) := by
  cases a <;> cases b <;> rfl

namespace MapCandidate

/-- What reading a candidate leads to, if there is one. -/
def lookup? (d : Disk) (c : Option MapCandidate) : MapLookup := (c.map (lookup d)).getD .absent

theorem search_toList (d : Disk) (first second : Option MapCandidate) :
    search d (first.toList ++ second.toList) = (lookup? d first).orElse (lookup? d second) := by
  cases first with
  | none =>
      cases second with
      | none => rfl
      | some c => rfl
  | some c =>
      cases second with
      | none =>
          show MapLookup.absent.orElse (c.lookup d) = (c.lookup d).orElse .absent
          rw [MapLookup.absent_orElse, MapLookup.orElse_absent]
      | some later =>
          show (MapLookup.absent.orElse (c.lookup d)).orElse (later.lookup d) = _
          rw [MapLookup.absent_orElse]
          rfl

theorem adjacent_eq (d : Disk) (script : Option ScriptPath) :
    MapLookup.adjacent d script
      = lookup? d (script.map fun path => file (path.addSuffix ".map")) := by
  cases script with
  | none => rfl
  | some path => rfl

theorem referenced_eq (d : Disk) (script : Option ScriptPath) (code : String) :
    MapLookup.referenced d script code
      = lookup? d ((mapReference? code.toList).bind (ofReference d script)) := by
  unfold MapLookup.referenced
  cases mapReference? code.toList with
  | none => rfl
  | some reference =>
      simp only [Option.bind_some, ofReference]
      split
      · rfl
      · cases script.bind (referencedFile? d · reference) with
        | none => rfl
        | some path => rfl

/-- The map of a script is searched among its candidates. -/
theorem search_ofScript (d : Disk) (buildDirectory url code : String) :
    search d (ofScript d buildDirectory url code) = .ofScript d buildDirectory url code := by
  rw [ofScript, search_toList, ← adjacent_eq, ← referenced_eq]
  rfl

theorem length_ofScript_le (d : Disk) (buildDirectory url code : String) :
    (ofScript d buildDirectory url code).length ≤ 2 := by
  have hone : ∀ c : Option MapCandidate, c.toList.length ≤ 1 := by
    intro c
    cases c with
    | none => simp
    | some c => simp
  rw [ofScript, List.length_append]
  exact Nat.add_le_add (hone _) (hone _)

theorem map?_search (d : Disk) (candidates : List MapCandidate) :
    (search d candidates).map? = candidates.findSome? fun c => (c.lookup d).map? := by
  have hfold : ∀ found : MapLookup,
      (candidates.foldl (fun found c => found.orElse (c.lookup d)) found).map?
        = (found.map? <|> candidates.findSome? fun c => (c.lookup d).map?) := by
    induction candidates with
    | nil => intro found; simp
    | cons c candidates ih =>
        intro found
        rw [List.foldl_cons, ih, MapLookup.map?_orElse, List.findSome?_cons]
        cases found.map? with
        | some map => rfl
        | none =>
            cases (c.lookup d).map? with
            | some map => rfl
            | none => rfl
  exact hfold .absent

/-- Among well-formed candidates the first map found is one whose mappings can be decoded. -/
theorem readMap?_search_filter (d : Disk) (candidates : List MapCandidate) :
    (search d (candidates.filter (isWellFormed d))).map?.bind ReadMap.ofMap?
      = candidates.findSome? (readMap? d) := by
  rw [map?_search]
  induction candidates with
  | nil => rfl
  | cons c candidates ih =>
      rw [List.findSome?_cons]
      cases hread : c.readMap? d with
      | none =>
          rw [List.filter_cons_of_neg (by simp [isWellFormed, hread])]
          exact ih
      | some readMap =>
          obtain ⟨map, hmap, hreadMap⟩ := Option.bind_eq_some_iff.1 hread
          rw [List.filter_cons_of_pos (by simp [isWellFormed, hread]), List.findSome?_cons, hmap]
          exact hreadMap

/-- Of two candidates the second counts as it should unless the first hides it. -/
theorem readMap?_search_eq_iff (d : Disk) {candidates : List MapCandidate}
    (htwo : candidates.length ≤ 2) :
    (search d candidates).map?.bind ReadMap.ofMap?
        = (search d (candidates.filter (isWellFormed d))).map?.bind ReadMap.ofMap? ↔
      candidates.Pairwise fun c later => c.hasBrokenMappings d → ¬later.isWellFormed d := by
  rw [readMap?_search_filter, map?_search]
  match candidates, htwo with
  | [], _ => simp
  | [c], _ => simp [readMap?]
  | [c, later], _ =>
      rw [List.pairwise_pair]
      cases hmap : (c.lookup d).map? with
      | none => simp [hmap, readMap?, hasBrokenMappings]
      | some map =>
          have hread : c.readMap? d = ReadMap.ofMap? map := by rw [readMap?, hmap, Option.bind_some]
          cases hmappings : ReadMap.ofMap? map with
          | some readMap => simp [hmap, hmappings, hread, hasBrokenMappings, isWellFormed]
          | none =>
              have hbroken : c.hasBrokenMappings d = true := by
                simp [hasBrokenMappings, isWellFormed, hmap, hread, hmappings]
              have hfound : ([c, later].findSome? fun c => (c.lookup d).map?) = some map := by
                simp [hmap]
              have hbehind : [c, later].findSome? (readMap? d) = later.readMap? d := by
                simp [hread, hmappings]
              rw [hfound, hbehind, Option.bind_some, hmappings, eq_comm (a := none)]
              simp [hbroken, isWellFormed]

end MapCandidate

/-- The script of an entry as if only the well-formed candidates for its map existed. -/
def Entry.resolveWellFormed? (d : Disk) (buildDirectory : String) (e : Entry) :
    Option ResolvedScript :=
  (e.code? d buildDirectory).map fun code =>
    let candidates := MapCandidate.ofScript d buildDirectory e.url code
    let found := MapCandidate.search d (candidates.filter (·.isWellFormed d))
    { url := e.url, code, readMap := found.map?.bind ReadMap.ofMap? }

theorem Resolver.script?_of_new (d : Disk) (buildDirectory : String) (e : Entry) :
    ({ buildDirectory } : Resolver).script? d e = e.resolve? d buildDirectory := by
  rw [script?, Std.ExtTreeMap.getElem?_empty, Option.getD_none]

/-- Broken candidates count as missing unless one whose mappings cannot be decoded stands in front
of one that is well formed. -/
theorem resolve_eq_resolveWellFormed?_iff (d : Disk) (buildDirectory : String) (e : Entry) :
    (({ buildDirectory } : Resolver).resolve d e).1 = e.resolveWellFormed? d buildDirectory ↔
      ∀ code, e.code? d buildDirectory = some code →
        (MapCandidate.ofScript d buildDirectory e.url code).Pairwise fun c later =>
          c.hasBrokenMappings d → ¬later.isWellFormed d := by
  show ({ buildDirectory } : Resolver).script? d e = _ ↔ _
  rw [Resolver.script?_of_new, Entry.resolve?, Entry.resolveWellFormed?]
  cases e.code? d buildDirectory with
  | none => simp
  | some code =>
      have hiff := MapCandidate.readMap?_search_eq_iff d
        (MapCandidate.length_ofScript_le d buildDirectory e.url code)
      rw [MapCandidate.search_ofScript] at hiff
      simpa using hiff

/-- A disk with a map next to the script `a.js` whose mappings cannot be decoded. -/
def Disk.withBrokenMap : Disk :=
  { nodes := .ofList [(["a.js.map"],
      Node.file (Utf8.encode "\x7b\"version\":3,\"mappings\":\"!\"\x7d"))] }

/-- An entry of the script `a.js` with a map in its text. -/
def Entry.withInlineMap : Entry :=
  { url := "a.js"
    source := some ("f();//# sourceMappingURL=data:application/json;base64,"
      ++ "eyJ2ZXJzaW9uIjozLCJzb3VyY2VzIjpbImIudHMiXSwibWFwcGluZ3MiOiJBQUFBIn0=")
    functions := [] }

/-- A map whose mappings cannot be decoded hides the map in the text of the script. -/
theorem inlineMap_hidden :
    ¬∀ (d : Disk) (buildDirectory : String) (e : Entry),
      (({ buildDirectory } : Resolver).resolve d e).1 = e.resolveWellFormed? d buildDirectory := by
  intro h
  have hmapless : ((({ buildDirectory := ".next" } : Resolver).resolve .withBrokenMap
      .withInlineMap).1.bind (·.readMap)).isSome = false := by
    decide +kernel
  have hmapped : ((Entry.withInlineMap.resolveWellFormed? .withBrokenMap ".next").bind
      (·.readMap)).isSome = true := by
    decide +kernel
  rw [h, hmapped] at hmapless
  cases hmapless

end BundleCoverage
