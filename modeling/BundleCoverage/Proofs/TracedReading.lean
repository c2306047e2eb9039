import BundleCoverage.Proofs.PrefixSums

/-!
# Reading with its operations

What is computed while a mappings text is read is a sequence of operations: digits are put together
to a sign bit and a magnitude, this becomes a number, and the numbers of a segment are looked up and
added to totals.  A traced reader lists its operations, and all that it goes on with are their
results (`Traced.compute`).  It ends where reading fails.

The reader `trace` makes the additions of a segment before any of its totals is checked, and adds the
first number however many there are.  It comes to what `decode` comes to, for every text
(`outcome_trace`), and so do the readers of numbers (`Vlq.outcome_traceFrom`), of segments
(`Totals.outcome_trace`) and of lines (`outcome_traceSegments`).
-/

namespace BundleCoverage.SourceMap

open BundleCoverage Base64

/-! ## Operations -/

/-- What is computed at one point of reading. -/
inductive Operation
  /-- The bits of a digit are put in front of those of a number. -/
  | digit (p : Vlq.Pending) (bits : Nat)
  /-- A number is made from its sign bit and magnitude. -/
  | number (word : Nat)
  /-- The number of a field is looked up among those of a segment and added to a total. -/
  | sum (field : Field) (total : Int) (values : List Int)

namespace Operation

/-- The integer that an operation comes to. -/
def result : Operation → Int
  | .digit p bits => Int.ofNat (p.value + bits <<< p.shift)
  | .number word => Vlq.ofWord word
  | .sum field total values => total + (values[field.number]?).getD 0

/-- The integers that are computed, one after another. -/
def results : Operation → List Int
  | .digit p bits => [Int.ofNat (bits <<< p.shift), (digit p bits).result]
  | .number word => [Int.ofNat (word / 2), (number word).result]
  | .sum field total values => [(sum field total values).result]

/-- The number that is made. -/
def number? : Operation → Option Int
  | .number word => some (number word).result
  | _ => none

/-- The total that is computed. -/
def sum? : Operation → Option Int
  | .sum field total values => some (sum field total values).result
  | _ => none

end Operation

/-! ## Traced computations -/

/-- A computation with a list of its operations. -/
structure Traced (ε α : Type) where
  /-- The operations, in order. -/
  operations : List Operation
  /-- What the computation comes to. -/
  outcome : Except ε α

namespace Traced

variable {ε ε' α β : Type}

/-- A single operation. -/
def compute (op : Operation) : Traced ε Int := ⟨[op], .ok op.result⟩

/-- No operation. -/
def lift (outcome : Except ε α) : Traced ε α := ⟨[], outcome⟩

/-- A computation with what follows if it does not fail. -/
def bind (x : Traced ε α) (f : α → Traced ε β) : Traced ε β :=
  match x.outcome with
  | .error e => ⟨x.operations, .error e⟩
  | .ok a => ⟨x.operations ++ (f a).operations, (f a).outcome⟩

instance : Monad (Traced ε) where
  pure a := lift (.ok a)
  bind := bind

/-- A computation whose faults are told in another way. -/
def mapError (f : ε → ε') (x : Traced ε α) : Traced ε' α := ⟨x.operations, x.outcome.mapError f⟩

@[simp] theorem outcome_bind (x : Traced ε α) (f : α → Traced ε β) :
    (x >>= f).outcome = x.outcome >>= fun a => (f a).outcome := by
  show (Traced.bind x f).outcome = _
  unfold Traced.bind
  cases x.outcome with
  | error e => rfl
  | ok a => rfl

theorem operations_bind_of_ok {x : Traced ε α} {a : α} (h : x.outcome = .ok a)
    (f : α → Traced ε β) : (x >>= f).operations = x.operations ++ (f a).operations := by
  show (Traced.bind x f).operations = _
  rw [Traced.bind, h]

theorem operations_bind_of_error {x : Traced ε α} {e : ε} (h : x.outcome = .error e)
    (f : α → Traced ε β) : (x >>= f).operations = x.operations := by
  show (Traced.bind x f).operations = _
  rw [Traced.bind, h]

theorem operations_bind_lift (x : Traced ε α) (f : α → Except ε β) :
    (x >>= fun a => lift (f a)).operations = x.operations := by
  cases h : x.outcome with
  | error e => exact operations_bind_of_error h _
  | ok a => exact (operations_bind_of_ok h _).trans (List.append_nil _)

theorem operations_bind_pure (x : Traced ε α) (f : α → β) :
    (x >>= fun a => pure (f a)).operations = x.operations :=
  operations_bind_lift x fun a => .ok (f a)

/-- What holds of the operations of a computation and of those that follow. -/
theorem forall_mem_operations_bind {P : Operation → Prop} {x : Traced ε α} {f : α → Traced ε β}
    (hx : ∀ op ∈ x.operations, P op)
    (hf : ∀ a, x.outcome = .ok a → ∀ op ∈ (f a).operations, P op) :
    ∀ op ∈ (x >>= f).operations, P op := by
  cases h : x.outcome with
  | error e => rwa [operations_bind_of_error h]
  | ok a =>
      rw [operations_bind_of_ok h]
      exact List.forall_mem_append.2 ⟨hx, hf a h⟩

theorem outcome_compute_bind (op : Operation) (f : Int → Traced ε α) :
    (compute op >>= f).outcome = (f op.result).outcome := rfl

theorem operations_compute_bind (op : Operation) (f : Int → Traced ε α) :
    (compute op >>= f).operations = op :: (f op.result).operations := rfl

@[simp] theorem outcome_lift (outcome : Except ε α) : (lift outcome).outcome = outcome := rfl

@[simp] theorem operations_lift (outcome : Except ε α) : (lift outcome).operations = [] := rfl

@[simp] theorem outcome_pure (a : α) : (pure a : Traced ε α).outcome = .ok a := rfl

@[simp] theorem operations_pure (a : α) : (pure a : Traced ε α).operations = [] := rfl

@[simp] theorem outcome_mapError (f : ε → ε') (x : Traced ε α) :
    (x.mapError f).outcome = x.outcome.mapError f := rfl

@[simp] theorem operations_mapError (f : ε → ε') (x : Traced ε α) :
    (x.mapError f).operations = x.operations := rfl

end Traced

open Traced

/-! ## Numbers -/

namespace Vlq

/-- Reads the numbers of a text that goes on after some digits of the first one. -/
def traceFrom (p : Pending) : List Char → Traced Fault (List Int)
  | [] => lift (if p.shift = 0 then .ok [] else .error .truncated)
  | c :: text =>
    match digitValue? c with
    | none => lift (.error (.invalidDigit (leadByte c)))
    | some d =>
      if 55 < p.shift then lift (.error .tooLong)
      else do
        let value ← compute (.digit p (d % 32))
        if d < 32 then do
          let number ← compute (.number value.toNat)
          let numbers ← traceFrom {} text
          return number :: numbers
        else traceFrom ⟨value.toNat, p.shift + 5⟩ text

/-- The operations of reading the numbers of a text that goes on after some digits of the first
one. -/
def operationsFrom (p : Pending) (text : List Char) : List Operation :=
  (traceFrom p text).operations

/-- The traced reader comes to what the reader of numbers comes to. -/
theorem outcome_traceFrom (p : Pending) (text : List Char) :
    (traceFrom p text).outcome = decodeFrom p text := by
  induction text generalizing p with
  | nil => rfl
  | cons c text ih =>
      rw [traceFrom, decodeFrom, Pending.push]
      cases digitValue? c with
      | none => rfl
      | some d =>
          dsimp only
          by_cases hshift : 55 < p.shift
          · rw [if_pos hshift, if_pos hshift]
            rfl
          · by_cases hlast : d < 32
            · simp only [if_neg hshift, if_pos hlast, outcome_bind, ih]
              rfl
            · simp only [if_neg hshift, if_neg hlast, outcome_compute_bind]
              exact ih _

end Vlq

/-! ## Segments -/

/-- Adds the numbers of a segment to the totals. -/
def Totals.traceAdd (t : Totals) (values : List Int) : Traced SegmentFault Totals := do
  let generatedColumn ← compute (.sum .generatedColumn t.generatedColumn values)
  let t := { t with generatedColumn }
  if values.length = 4 ∨ values.length = 5 then do
    let sourceIndex ← compute (.sum .sourceIndex t.sourceIndex values)
    let originalLine ← compute (.sum .originalLine t.originalLine values)
    let originalColumn ← compute (.sum .originalColumn t.originalColumn values)
    let t := { t with sourceIndex, originalLine, originalColumn }
    if values.length = 5 then do
      let nameIndex ← compute (.sum .nameIndex t.nameIndex values)
      return { t with nameIndex }
    else return t
  else return t

/-- Reads one segment: the totals after it and its absolute values. -/
def Totals.trace (t : Totals) (text : List Char) : Traced SegmentFault (Totals × Segment) := do
  let values ← (Vlq.traceFrom {} text).mapError .number
  let t ← t.traceAdd values
  lift ((t.segment values.length).map (t, ·))

namespace Totals

theorem segment_eq_error {count : Nat} (hone : count ≠ 1) (hfour : count ≠ 4) (hfive : count ≠ 5)
    (t : Totals) : t.segment count = .error (.fieldCount count) := by
  unfold segment
  split
  · exact absurd rfl hone
  · exact absurd rfl hfour
  · exact absurd rfl hfive
  · rfl

/-- The additions of a segment, with its range checks. -/
theorem outcome_traceAdd_bind (t : Totals) (values : List Int) :
    ((t.traceAdd values).outcome >>= fun t => (t.segment values.length).map (t, ·))
      = ((t.add values).segment values.length).map (t.add values, ·) := by
  match values with
  | [] => rfl
  | [_] => rfl
  | [_, _] => rfl
  | [_, _, _] => rfl
  | [_, _, _, _] => rfl
  | [_, _, _, _, _] => rfl
  | _ :: _ :: _ :: _ :: _ :: _ :: rest =>
      have herror (t : Totals) :
          t.segment (rest.length + 6) = .error (.fieldCount (rest.length + 6)) :=
        t.segment_eq_error (by omega) (by omega) (by omega)
      simp [traceAdd, herror]
      rfl

/-- The traced reader comes to what the reader of a segment comes to. -/
theorem outcome_trace (t : Totals) (text : List Char) : (t.trace text).outcome = t.read text := by
  rw [trace, read, Vlq.decode, ← Vlq.outcome_traceFrom, outcome_bind, outcome_mapError]
  cases (Vlq.traceFrom {} text).outcome with
  | error fault => rfl
  | ok values => exact (outcome_bind _ _).trans (t.outcome_traceAdd_bind values)

end Totals

/-! ## Lines and texts -/

/-- Reads the segments of one line, the first of them with number `index`. -/
def traceSegments (t : Totals) (index : Nat) :
    List (List Char) → Traced MappingsFault (Totals × List Segment)
  | [] => return (t, [])
  | text :: texts => do
    let (t, segment) ← (t.trace text).mapError (⟨index, ·⟩)
    let (t, segments) ← traceSegments t (index + 1) texts
    return (t, segment :: segments)

/-- Reads the groups of a mappings text. -/
def traceGroups (t : Totals) (index : Nat) : List (List Char) → Traced MappingsFault Lines
  | [] => return []
  | group :: groups => do
    let texts := segmentTexts group
    let (t, segments) ← traceSegments t index texts
    let lines ← traceGroups t.nextLine (index + texts.length) groups
    return segments :: lines

/-- Reads a mappings text. -/
def trace (text : String) : Traced MappingsFault Lines :=
  traceGroups {} 0 (Text.split ';' text.toList)

/-- The operations of reading a mappings text. -/
def operations (text : String) : List Operation := (trace text).operations

theorem outcome_traceSegments (t : Totals) (index : Nat) (texts : List (List Char)) :
    (traceSegments t index texts).outcome = decodeSegments t index texts := by
  induction texts generalizing t index with
  | nil => rfl
  | cons text texts ih =>
      rw [traceSegments, decodeSegments, outcome_bind, outcome_mapError, Totals.outcome_trace]
      cases t.read text with
      | error fault => rfl
      | ok result =>
          show (_ >>= _ : Traced _ _).outcome = _
          rw [outcome_bind, ih]
          rfl

theorem outcome_traceGroups (t : Totals) (index : Nat) (groups : List (List Char)) :
    (traceGroups t index groups).outcome = decodeGroups t index groups := by
  induction groups generalizing t index with
  | nil => rfl
  | cons group groups ih =>
      rw [traceGroups, decodeGroups, outcome_bind, outcome_traceSegments]
      cases decodeSegments t index (segmentTexts group) with
      | error fault => rfl
      | ok result =>
          show (_ >>= _ : Traced _ _).outcome = _
          rw [outcome_bind, ih]
          rfl

/-- The traced reader comes to what the reader comes to. -/
theorem outcome_trace (text : String) : (trace text).outcome = decode text :=
  outcome_traceGroups {} 0 _

-- A segment of two numbers is refused, but the first one has been added by then.
example : operations "AC" =
    [.digit {} 0, .number 0, .digit {} 2, .number 2, .sum .generatedColumn 0 [0, 1]] := by cbv

end BundleCoverage.SourceMap
