import BundleCoverage.Proofs.Records
import BundleCoverage.Text.Digits

/-!
# The names of functions

Calls of functions are added to a record one after another (`FileRecord.addFunctions`).  The first
calls at a position insert a function there; all that follow add their hits to it and change
neither its name nor its location (`FileRecord.functions_of_present`).

A function that is inserted without a name is numbered by the functions that are there before it.
Insertions only make more of them, so no number is given twice, however named and nameless calls
are mixed (`FileRecord.numbersApart`).
-/

namespace BundleCoverage

open Std

theorem anonymousName_inj {m n : Nat} : anonymousName m = anonymousName n ↔ m = n := by
  refine ⟨fun h => ?_, congrArg anonymousName⟩
  have hdigits : m.repr = n.repr := (String.append_right_inj _).1 ((String.append_left_inj _).1 h)
  exact Text.toDigits_inj.1 (by rw [← Nat.toList_repr, hdigits, Nat.toList_repr])

/-- Calls of the function that starts where a location does. -/
structure FunctionCalls where
  /-- The name, if one is given. -/
  name : Option String
  /-- The location of the function. -/
  location : Location
  /-- The number of calls. -/
  hits : Nat
deriving Repr, DecidableEq

namespace FunctionCalls

/-- Whether no name is given, or the empty one. -/
def IsNameless (c : FunctionCalls) : Prop := c.name = none ∨ c.name = some ""

/-- The hits of the calls at a position, in order. -/
def hitsAt (start : Position) (calls : List FunctionCalls) : List Nat :=
  (calls.filter (·.location.start = start)).map (·.hits)

theorem IsNameless.filter_name {c : FunctionCalls} (h : c.IsNameless) :
    c.name.filter (· ≠ "") = none := by
  rcases h with h | h
  · rw [h]
    rfl
  · rw [h]
    rfl

end FunctionCalls

namespace FileRecord

open FunctionCalls

/-- A record with some calls of functions, added in order. -/
def addFunctions (f : FileRecord) (calls : List FunctionCalls) : FileRecord :=
  calls.foldl (fun f c => f.addFunction c.name c.location c.hits) f

@[simp] theorem addFunctions_cons (f : FileRecord) (c : FunctionCalls) (calls : List FunctionCalls) :
    f.addFunctions (c :: calls) = (f.addFunction c.name c.location c.hits).addFunctions calls := rfl

theorem addFunctions_append (f : FileRecord) (before after : List FunctionCalls) :
    f.addFunctions (before ++ after) = (f.addFunctions before).addFunctions after :=
  List.foldl_append

/-- Calls with an index come between those before it and those from it on. -/
theorem addFunctions_split (f : FileRecord) (calls : List FunctionCalls) (i : Nat) :
    f.addFunctions calls = (f.addFunctions (calls.take i)).addFunctions (calls.drop i) := by
  rw [← addFunctions_append, List.take_append_drop]

/-! ## Functions that are there -/

/-- Calls at the position of a function add their hits to it. -/
theorem functions_of_present {f : FileRecord} {start : Position} {g : FunctionRecord}
    (h : f.functions[start]? = some g) (calls : List FunctionCalls) :
    (f.addFunctions calls).functions[start]?
      = some { g with hits := (hitsAt start calls).foldl addHits g.hits } := by
  induction calls generalizing f g with
  | nil => exact h
  | cons c calls ih =>
      rw [addFunctions_cons]
      by_cases hstart : c.location.start = start
      · have hnext : (f.addFunction c.name c.location c.hits).functions[start]?
            = some { g with hits := addHits g.hits c.hits } := by
          rw [functions_addFunction, if_pos hstart, h]
          rfl
        rw [ih hnext, hitsAt, hitsAt, List.filter_cons_of_pos (by simpa using hstart)]
        rfl
      · have hnext : (f.addFunction c.name c.location c.hits).functions[start]? = some g := by
          rw [functions_addFunction, if_neg hstart, h]
        rw [ih hnext, hitsAt, hitsAt, List.filter_cons_of_neg (by simpa using hstart)]

/-- Calls never take a function away. -/
theorem size_le_addFunctions (f : FileRecord) (calls : List FunctionCalls) :
    f.functions.size ≤ (f.addFunctions calls).functions.size := by
  induction calls generalizing f with
  | nil => exact Nat.le_refl _
  | cons c calls ih =>
      refine Nat.le_trans ?_ (ih _)
      by_cases hmem : c.location.start ∈ f.functions
      · exact Nat.le_of_eq (ExtTreeMap.size_alter_eq_self_of_mem hmem rfl).symm
      · exact Nat.le_of_lt (Nat.lt_of_lt_of_eq (Nat.lt_succ_self _)
          (ExtTreeMap.size_alter_eq_add_one hmem rfl).symm)

/-! ## Functions that are inserted -/

/-- Whether the calls with an index insert a function that has no name. -/
structure InsertsNameless (f : FileRecord) (calls : List FunctionCalls) (i : Nat)
    (c : FunctionCalls) : Prop where
  /-- These are the calls with the index. -/
  call : calls[i]? = some c
  /-- They give no name. -/
  nameless : c.IsNameless
  /-- No function is there before them. -/
  absent : (f.addFunctions (calls.take i)).functions[c.location.start]? = none

variable {f : FileRecord} {calls : List FunctionCalls} {i j : Nat} {c c' : FunctionCalls}

theorem InsertsNameless.drop_eq (h : f.InsertsNameless calls i c) :
    calls.drop i = c :: calls.drop (i + 1) := by
  obtain ⟨hi, hc⟩ := List.getElem?_eq_some_iff.1 h.call
  rw [List.drop_eq_getElem_cons hi, hc]

/-- A function without a name is numbered by the functions before it. -/
theorem InsertsNameless.functions (h : f.InsertsNameless calls i c) :
    (f.addFunctions calls).functions[c.location.start]?
      = some ⟨anonymousName (f.addFunctions (calls.take i)).functions.size, c.location,
          (hitsAt c.location.start (calls.drop i)).foldl addHits 0⟩ := by
  have hinserted : ((f.addFunctions (calls.take i)).addFunction c.name c.location
      c.hits).functions[c.location.start]?
        = some ⟨anonymousName (f.addFunctions (calls.take i)).functions.size, c.location,
            addHits 0 c.hits⟩ := by
    rw [functions_addFunction, if_pos rfl, h.absent, h.nameless.filter_name]
    rfl
  rw [addFunctions_split f calls i, h.drop_eq, addFunctions_cons, functions_of_present hinserted,
    hitsAt, hitsAt, List.filter_cons_of_pos (by simp)]
  rfl

/-- Of two functions that are inserted without a name, the later one finds more functions. -/
theorem InsertsNameless.size_lt (h : f.InsertsNameless calls i c) (hij : i < j) :
    (f.addFunctions (calls.take i)).functions.size
      < (f.addFunctions (calls.take j)).functions.size := by
  have habsent : c.location.start ∉ (f.addFunctions (calls.take i)).functions := by
    rw [ExtTreeMap.mem_iff_isSome_getElem?, h.absent]
    exact Bool.false_ne_true
  have hnext : calls.take (i + 1) = calls.take i ++ [c] := by
    rw [List.take_add_one, h.call]
    rfl
  calc (f.addFunctions (calls.take i)).functions.size
      < ((f.addFunctions (calls.take i)).addFunction c.name c.location c.hits).functions.size :=
        Nat.lt_of_lt_of_eq (Nat.lt_succ_self _) (ExtTreeMap.size_alter_eq_add_one habsent rfl).symm
    _ = (f.addFunctions (calls.take (i + 1))).functions.size := by
        rw [hnext, addFunctions_append]
        rfl
    _ ≤ (f.addFunctions (calls.take j)).functions.size := by
        rw [addFunctions_split f (calls.take j) (i + 1), List.take_take, Nat.min_eq_left hij]
        exact size_le_addFunctions _ _

/-- How the functions of a record are named by some calls. -/
structure NumbersApart (f : FileRecord) (calls : List FunctionCalls) : Prop where
  /-- A function that is inserted without a name is numbered by the functions before it, has the
  location of the calls that inserted it, and the hits of these and of all later calls. -/
  numbered : ∀ i c, f.InsertsNameless calls i c →
    (f.addFunctions calls).functions[c.location.start]?
      = some ⟨anonymousName (f.addFunctions (calls.take i)).functions.size, c.location,
          (hitsAt c.location.start (calls.drop i)).foldl addHits 0⟩
  /-- No two functions that are inserted without a name have one name. -/
  apart : ∀ i c j c', f.InsertsNameless calls i c → f.InsertsNameless calls j c' → i ≠ j →
    ((f.addFunctions calls).functions[c.location.start]?).map (·.name)
      ≠ ((f.addFunctions calls).functions[c'.location.start]?).map (·.name)
  /-- What is there before the calls with an index keeps its name and its location, and gets the hits
  of the calls from there on. -/
  kept : ∀ i start (g : FunctionRecord),
    (f.addFunctions (calls.take i)).functions[start]? = some g →
    (f.addFunctions calls).functions[start]?
      = some { g with hits := (hitsAt start (calls.drop i)).foldl addHits g.hits }

theorem numbersApart (f : FileRecord) (calls : List FunctionCalls) : f.NumbersApart calls where
  numbered _ _ h := h.functions
  apart i c j c' h h' hij hname := by
    rw [h.functions, h'.functions, Option.map_some, Option.map_some, Option.some.injEq,
      anonymousName_inj] at hname
    rcases Nat.lt_or_gt_of_ne hij with hlt | hgt
    · exact Nat.ne_of_lt (h.size_lt hlt) hname
    · exact Nat.ne_of_gt (h'.size_lt hgt) hname
  kept i start g h := by
    rw [addFunctions_split f calls i, functions_of_present h]

/-- Functions without a name and with one, and a second look at the first of them. -/
def mixedCalls : List FunctionCalls :=
  [⟨none, .onLine 1 0 9, 2⟩, ⟨some "load", .onLine 2 0 9, 1⟩, ⟨some "", .onLine 3 0 9, 1⟩,
    ⟨some "late", .onLine 1 0 5, 3⟩]

theorem numbersApart_mixedCalls :
    ((empty "src/a.ts").addFunctions mixedCalls).functions[Position.mk 1 0]?
        = some ⟨"(anonymous_0)", .onLine 1 0 9, 5⟩ ∧
      ((empty "src/a.ts").addFunctions mixedCalls).functions[Position.mk 3 0]?
        = some ⟨"(anonymous_2)", .onLine 3 0 9, 1⟩ := by
  have hfirst : (empty "src/a.ts").InsertsNameless mixedCalls 0 ⟨none, .onLine 1 0 9, 2⟩ :=
    ⟨rfl, .inl rfl, by decide +kernel⟩
  have hsecond : (empty "src/a.ts").InsertsNameless mixedCalls 2 ⟨some "", .onLine 3 0 9, 1⟩ :=
    ⟨rfl, .inr rfl, by decide +kernel⟩
  have hnumbered := (numbersApart (empty "src/a.ts") mixedCalls).numbered
  exact ⟨(hnumbered 0 _ hfirst).trans (by decide +kernel),
    (hnumbered 2 _ hsecond).trans (by decide +kernel)⟩

end FileRecord

end BundleCoverage
