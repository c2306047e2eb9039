import BundleCoverage.Proofs.Records

/-!
# What a share holds

The share of a source is built from the findings about it, one observation after another.
Here it is read off the observations: a line has the highest of its counts
(`lineCount_ofFindings`), and the calls of a function and the runs of a block are those
observed (`callsAt_ofFindings`, `blocksAt_ofFindings`).
-/

namespace BundleCoverage

open Std

/-! ## Observations -/

namespace Observation

/-- What an observation says about a line. -/
def lineAt? (line : Nat) : Observation → Option LineShare
  | .line number start stop count => if number = line then some ⟨start, stop, count⟩ else none
  | _ => none

/-- How often a line was executed, if this is what an observation says. -/
def countOn? (line : Nat) (o : Observation) : Option Nat := (o.lineAt? line).map (·.count)

/-- The count of an observed call of the function that starts at a position. -/
def callAt? (start : Position) : Observation → Option Nat
  | .call _ location count => if location.start = start then some count else none
  | _ => none

/-- The count of an observed block with a location. -/
def blockAt? (location : Location) : Observation → Option Nat
  | .block found count => if found = location then some count else none
  | _ => none

end Observation

/-- What some findings say about a source. -/
def Finding.about (path : String) (findings : List Finding) : List Observation :=
  (findings.filter (·.path = path)).map (·.seen)

/-! ## One more observation -/

theorem LineShare.add_self (a : LineShare) : a.add a = a := by
  simp [LineShare.add]

theorem LineShare.map_count_merge (a b : Option LineShare) :
    (Option.merge LineShare.add a b).map (·.count)
      = Option.merge max (a.map (·.count)) (b.map (·.count)) :=
  map_merge (fun _ _ => rfl) a b

namespace Share

theorem lines_observe (s : Share) (o : Observation) (n : Nat) :
    (s.observe o).lines[n]? = Option.merge LineShare.add s.lines[n]? (o.lineAt? n) := by
  cases o with
  | presence => simp [observe, Observation.lineAt?]
  | call name location count => simp [observe, Observation.lineAt?]
  | block location count => simp [observe, Observation.lineAt?]
  | line number start stop count =>
      simp only [observe, Observation.lineAt?, getElem?_alter_eq]
      by_cases h : number = n
      · subst h
        rw [if_pos rfl, if_pos rfl]
        cases s.lines[number]? with
        | none => simp [LineShare.add_self]
        | some old => rfl
      · rw [if_neg h, if_neg h, Option.merge_none_right]

theorem callsAt_observe (s : Share) (o : Observation) (q : Position) :
    (s.observe o).callsAt q = s.callsAt q ++ (o.callAt? q).toList := by
  cases o with
  | presence => simp [observe, callsAt, Observation.callAt?]
  | line number start stop count => simp [observe, callsAt, Observation.callAt?]
  | block location count => simp [observe, callsAt, Observation.callAt?]
  | call name location count =>
      by_cases h : location.start = q
      · simp [observe, callsAt, Observation.callAt?, h]
      · simp [observe, callsAt, Observation.callAt?, h]

theorem blocksAt_observe (s : Share) (o : Observation) (l : Location) :
    (s.observe o).blocksAt l = s.blocksAt l ++ (o.blockAt? l).toList := by
  cases o with
  | presence => simp [observe, blocksAt, Observation.blockAt?]
  | line number start stop count => simp [observe, blocksAt, Observation.blockAt?]
  | call name location count => simp [observe, blocksAt, Observation.blockAt?]
  | block location count =>
      by_cases h : location = l
      · simp [observe, blocksAt, Observation.blockAt?, h]
      · simp [observe, blocksAt, Observation.blockAt?, h]

/-! ## All observations -/

/-- The share of a source after one more finding about it. -/
def observing (old : Option Share) (f : Finding) : Option Share :=
  some ((old.getD { text := f.text }).observe f.seen)

theorem getElem?_ofFindings (findings : List Finding) (path : String) :
    (ofFindings findings)[path]? = (findings.filter (·.path = path)).foldl observing none := by
  have hfold := getElem?_foldl_alter (fun f : Finding => f.path)
    (fun (old : Option Share) f => (old.getD { text := f.text }).observe f.seen) path findings ∅
  rw [ExtTreeMap.getElem?_empty] at hfold
  exact hfold

theorem isSome_foldl_observing (findings : List Finding) (o : Option Share) :
    (findings.foldl observing o).isSome = (o.isSome || !findings.isEmpty) := by
  induction findings generalizing o with
  | nil => simp
  | cons f findings ih => simp [ih, observing]

/-- There is a share of a source where there is a finding about it. -/
theorem isSome_ofFindings (findings : List Finding) (path : String) :
    (ofFindings findings)[path]?.isSome = !(Finding.about path findings).isEmpty := by
  rw [getElem?_ofFindings, isSome_foldl_observing, Finding.about, List.isEmpty_map]
  rfl

theorem exists_of_ofFindings {findings : List Finding} {path : String} {s : Share}
    (h : (ofFindings findings)[path]? = some s) : ∃ f ∈ findings, f.path = path := by
  have habout := isSome_ofFindings findings path
  rw [h, Option.isSome_some, eq_comm, Bool.not_eq_true', List.isEmpty_eq_false_iff_exists_mem]
    at habout
  obtain ⟨o, ho⟩ := habout
  obtain ⟨f, hf, -⟩ := List.mem_map.1 ho
  obtain ⟨hmem, hpath⟩ := List.mem_filter.1 hf
  exact ⟨f, hmem, by simpa using hpath⟩

theorem foldl_merge_max {α : Type} (count? : α → Option Nat) (xs : List α) (o : Option Nat) :
    (xs.map count?).foldl (Option.merge max) o = (o.toList ++ xs.filterMap count?).max? := by
  induction xs generalizing o with
  | nil => cases o <;> simp
  | cons a xs ih =>
      rw [List.map_cons, List.foldl_cons, ih]
      cases h : count? a with
      | none => simp [h]
      | some c =>
          cases o with
          | none => simp [h]
          | some b =>
              rw [List.filterMap_cons_some h]
              rfl

/-- A line has the highest count that was observed. -/
theorem lineCount_ofFindings (findings : List Finding) (path : String) (n : Nat) :
    ((ofFindings findings)[path]?.bind (·.lines[n]?)).map (·.count)
      = ((Finding.about path findings).filterMap (·.countOn? n)).max? := by
  have hfold := foldl_merge observing max
    (fun o : Option Share => (o.bind (·.lines[n]?)).map (·.count))
    (fun f : Finding => f.seen.countOn? n)
    (fun o f => ?_) (findings.filter (·.path = path)) none
  · rw [getElem?_ofFindings, hfold, foldl_merge_max, Finding.about, List.filterMap_map]
    rfl
  · simp only [observing, Option.bind_some, lines_observe, Observation.countOn?,
      LineShare.map_count_merge]
    cases o with
    | none => simp
    | some s => rfl

/-- A list of the share that each observation about a source adds to, in order. -/
theorem list_ofFindings {β : Type} (list : Share → List β) (part? : Observation → Option β)
    (hempty : ∀ text, list { text } = [])
    (hobserve : ∀ s o, list (s.observe o) = list s ++ (part? o).toList)
    (findings : List Finding) (path : String) :
    (ofFindings findings)[path]?.elim [] list
      = (Finding.about path findings).filterMap part? := by
  have hfold := foldl_append observing
    (fun o : Option Share => o.elim [] list) (fun f : Finding => part? f.seen)
    (fun o f => ?_) (findings.filter (·.path = path)) none
  · rw [getElem?_ofFindings, hfold, Finding.about, List.filterMap_map]
    rfl
  · simp only [observing, Option.elim_some, hobserve]
    cases o with
    | none => rw [Option.getD_none, hempty, Option.elim_none]
    | some s => rfl

theorem callsAt_ofFindings (findings : List Finding) (path : String) (q : Position) :
    (ofFindings findings)[path]?.elim [] (·.callsAt q)
      = (Finding.about path findings).filterMap (·.callAt? q) :=
  list_ofFindings _ _ (fun _ => rfl) (fun s o => s.callsAt_observe o q) findings path

theorem blocksAt_ofFindings (findings : List Finding) (path : String) (l : Location) :
    (ofFindings findings)[path]?.elim [] (·.blocksAt l)
      = (Finding.about path findings).filterMap (·.blockAt? l) :=
  list_ofFindings _ _ (fun _ => rfl) (fun s o => s.blocksAt_observe o l) findings path

end Share

end BundleCoverage
