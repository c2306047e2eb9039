import BundleCoverage.Text.Quoted

/-!
# Glob patterns

In a pattern a question mark stands for one character, a star for any number of them, and
brackets for one of some characters.  None of these matches a slash.  Two stars are a
whole component of a path and stand for any number of components.  Upper and lower case
differ, and a point at the start of a name is like any other character.
-/

namespace BundleCoverage

/-- A member of a bracketed set. -/
inductive GlobRange where
  /-- One character. -/
  | one (c : Char)
  /-- The characters between two. -/
  | between (first last : Char)
deriving Repr, DecidableEq

/-- An element of a pattern. -/
inductive GlobToken where
  /-- The character itself. -/
  | char (c : Char)
  /-- Any character. -/
  | any
  /-- Any number of characters of a name. -/
  | star
  /-- Any number of components. -/
  | components
  /-- One of some characters. -/
  | within (ranges : List GlobRange)
  /-- None of some characters. -/
  | except (ranges : List GlobRange)
deriving Repr, DecidableEq

/-- A pattern. -/
abbrev Glob := List GlobToken

namespace Glob

/-! ## Reading -/

/-- Why a text is no pattern. -/
inductive FaultKind
  /-- More than two stars in a row. -/
  | stars
  /-- Two stars that are not a whole component. -/
  | partialComponent
  /-- Brackets that are not closed or empty. -/
  | range
deriving Repr, DecidableEq

/-- Why a text is no pattern, and near which character. -/
structure Fault where
  /-- The number of characters before. -/
  position : Nat
  /-- What is wrong. -/
  kind : FaultKind
deriving Repr, DecidableEq

/-- The wording of a kind of fault. -/
def FaultKind.message : FaultKind → String
  | .stars => "wildcards are either regular `*` or recursive `**`"
  | .partialComponent => "recursive wildcards must form a single path component"
  | .range => "invalid range pattern"

/-- The wording of a fault. -/
def Fault.message (f : Fault) : String :=
  s!"Pattern syntax error near position {f.position}: {f.kind.message}"

/-- The members of a bracketed set. -/
def rangesOf : List Char → List GlobRange
  | a :: '-' :: b :: rest => .between a b :: rangesOf rest
  | a :: rest => .one a :: rangesOf rest
  | [] => []

/-- The characters up to a closing bracket that is not the first of them, and what follows
it. -/
def bracketed? : List Char → Option (List Char × List Char)
  | [] => none
  | first :: rest =>
    match rest.dropWhile (· ≠ ']') with
    | [] => none
    | _ :: after => some (first :: rest.takeWhile (· ≠ ']'), after)

theorem length_dropWhile_le (p : Char → Bool) (text : List Char) :
    (text.dropWhile p).length ≤ text.length := by
  induction text with
  | nil => simp
  | cons c text ih =>
    by_cases h : p c
    · simp [h]; omega
    · simp [h]

theorem length_of_bracketed? {text set rest : List Char} (h : bracketed? text = some (set, rest)) :
    rest.length < text.length := by
  cases text with
  | nil => simp [bracketed?] at h
  | cons first tail =>
    simp only [bracketed?] at h
    split at h
    · cases h
    · next after hd =>
      cases h
      have := length_dropWhile_le (· ≠ ']') tail
      rw [hd] at this
      simp at this ⊢
      omega

/-- A token in front of others.  Two stars after two stars add nothing, except directly
after the first token. -/
def addToken (done : List GlobToken) (token : GlobToken) : List GlobToken :=
  if token = .components && done.head? = some .components && 1 < done.length then done
  else token :: done

/-- Reads the rest of a pattern.  `position` counts the characters before, `previous` is the
last of them and `done` holds the tokens read, the last one first. -/
def tokensFrom (position : Nat) (previous : Option Char) (done : List GlobToken)
    (text : List Char) : Except Fault (List GlobToken) :=
  match text with
  | [] => .ok done.reverse
  | '?' :: rest => tokensFrom (position + 1) (some '?') (.any :: done) rest
  | '*' :: '*' :: '*' :: _ => .error ⟨position + 2, .stars⟩
  | '*' :: '*' :: rest =>
    if previous.all (· = '/') then
      match rest with
      | [] => .ok (addToken done .components).reverse
      | '/' :: after => tokensFrom (position + 3) (some '/') (addToken done .components) after
      | _ => .error ⟨position + 2, .partialComponent⟩
    else .error ⟨position - 1, .partialComponent⟩
  | '*' :: rest => tokensFrom (position + 1) (some '*') (.star :: done) rest
  | '[' :: '!' :: rest =>
    match h : bracketed? rest with
    | some (set, after) =>
      tokensFrom (position + set.length + 3) (some ']') (.except (rangesOf set) :: done) after
    | none => .error ⟨position, .range⟩
  | '[' :: rest =>
    match h : bracketed? rest with
    | some (set, after) =>
      tokensFrom (position + set.length + 2) (some ']') (.within (rangesOf set) :: done) after
    | none => .error ⟨position, .range⟩
  | c :: rest => tokensFrom (position + 1) (some c) (.char c :: done) rest
termination_by text.length
decreasing_by
  case _ => simp
  case _ => simp; omega
  case _ => simp
  case _ =>
    have hlen := length_of_bracketed? h
    simp
    omega
  case _ =>
    have hlen := length_of_bracketed? h
    simp
    omega
  case _ => simp

/-- Reads a pattern. -/
def parse (pattern : String) : Except Fault Glob := tokensFrom 0 none [] pattern.toList

/-! ## Matching -/

/-- Whether a character is a member of a set. -/
def isMember (ranges : List GlobRange) (c : Char) : Bool :=
  ranges.any fun
    | .one d => c == d
    | .between first last => first ≤ c && c ≤ last

/-- Whether a token that stands for one character stands for this one. -/
def GlobToken.accepts (c : Char) : GlobToken → Bool
  | .char d => c == d
  | .any => c ≠ '/'
  | .within ranges => c ≠ '/' && isMember ranges c
  | .except ranges => c ≠ '/' && !isMember ranges c
  | .star | .components => false

/-- How an attempt to match ended. -/
inductive Outcome
  /-- The text matches. -/
  | matched
  /-- It does not match from here on. -/
  | failed
  /-- It ended too early, so that taking more of it away cannot help. -/
  | exhausted
deriving Repr, DecidableEq

/-- Tries to go on after each number of characters of a name. -/
def afterName (next : List Char → Outcome) : List Char → Outcome
  | [] => next []
  | c :: text =>
    if c = '/' then .failed
    else
      match next text with
      | .failed => afterName next text
      | outcome => outcome

/-- Tries to go on after each number of components. -/
def afterComponents (next : List Char → Outcome) : List Char → Outcome
  | [] => next []
  | c :: text =>
    if c ≠ '/' then afterComponents next text
    else
      match next text with
      | .failed => afterComponents next text
      | outcome => outcome

/-- Matches tokens with a text. -/
def run : Glob → List Char → Outcome
  | [], [] => .matched
  | [], _ :: _ => .failed
  | .star :: tokens, text =>
    match run tokens text with
    | .failed => afterName (run tokens) text
    | outcome => outcome
  | .components :: tokens, text =>
    match run tokens text with
    | .failed => afterComponents (run tokens) text
    | outcome => outcome
  | _ :: _, [] => .exhausted
  | token :: tokens, c :: text => if GlobToken.accepts c token then run tokens text else .failed

/-- Whether a pattern matches a whole path. -/
def isMatch (pattern : Glob) (path : String) : Bool := run pattern path.toList == .matched

end Glob

end BundleCoverage
