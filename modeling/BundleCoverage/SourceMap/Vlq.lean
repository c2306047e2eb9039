import BundleCoverage.Base64
import BundleCoverage.Text.Quoted

/-!
# Variable-length quantities

The numbers of a source map are written in base 64 with five bits a digit, the
lowest first.  The sixth bit of a digit says that another digit follows.  The
lowest bit of the number is its sign and the rest its magnitude.

`decode` reads the numbers that stand one after another in a text.  It is a fold
of `Pending.push`, which takes one character.  A number has at most twelve digits.
`encode` writes a number from its `word`, which has sixty-four bits like the
values it is meant for, so the top bit of a larger magnitude is lost.
-/

namespace BundleCoverage.SourceMap.Vlq

open BundleCoverage Base64

/-! ## Reading -/

/-- Why a text is no sequence of numbers. -/
inductive Fault
  /-- The text holds something else than a digit.  A character outside ASCII shows as
  the character whose code point is the first byte of its UTF-8 form. -/
  | invalidDigit (shown : Char)
  /-- A number has more digits than fit. -/
  | tooLong
  /-- The text ends inside a number. -/
  | truncated
deriving Repr, DecidableEq

/-- The wording of a fault. -/
def Fault.message : Fault → String
  | .invalidDigit c => s!"invalid base64 character {Text.quotedCharacter c}"
  | .tooLong => "value does not fit in 64 bits"
  | .truncated => "truncated value (continuation bit set on last digit)"

/-- The first byte of the UTF-8 form of a character, as a character. -/
def leadByte (c : Char) : Char :=
  let n := c.toNat
  if n < 0x80 then c
  else if n < 0x800 then Char.ofNat (0xC0 + n / 64)
  else if n < 0x10000 then Char.ofNat (0xE0 + n / 4096)
  else Char.ofNat (0xF0 + n / 262144)

/-- A number of which some digits have been read. -/
structure Pending where
  /-- The bits so far. -/
  value : Nat := 0
  /-- How many bits there are. -/
  shift : Nat := 0
deriving Repr, DecidableEq

/-- What one digit does to the number being read. -/
inductive Progress
  /-- The number goes on. -/
  | more (p : Pending)
  /-- The number is complete. -/
  | done (value : Int)
deriving Repr, DecidableEq

/-- The number with a given sign bit and magnitude. -/
def ofWord (w : Nat) : Int := if w % 2 = 1 then -Int.ofNat (w / 2) else Int.ofNat (w / 2)

/-- Reads one more character of a number. -/
def Pending.push (p : Pending) (c : Char) : Except Fault Progress :=
  match digitValue? c with
  | none => .error (.invalidDigit (leadByte c))
  | some d =>
    if 55 < p.shift then .error .tooLong
    else
      let value := p.value + (d % 32) <<< p.shift
      if d < 32 then .ok (.done (ofWord value)) else .ok (.more ⟨value, p.shift + 5⟩)

/-- The numbers of a text that goes on after some digits of the first one. -/
def decodeFrom (p : Pending) : List Char → Except Fault (List Int)
  | [] => if p.shift = 0 then .ok [] else .error .truncated
  | c :: text =>
    match p.push c with
    | .error fault => .error fault
    | .ok (.more p) => decodeFrom p text
    | .ok (.done value) => (decodeFrom {} text).map (value :: ·)

/-- The numbers of a text. -/
def decode (text : List Char) : Except Fault (List Int) := decodeFrom {} text

/-! ## Writing -/

/-- The sign bit and magnitude of a number, in sixty-four bits. -/
def word (value : Int) : Nat :=
  2 * value.natAbs % 18446744073709551616 + if value < 0 then 1 else 0

/-- The digits of a sign bit and magnitude. -/
def digits (w : Nat) : List Char :=
  if w < 32 then [digitChar w] else digitChar (32 + w % 32) :: digits (w / 32)

/-- The text of a number. -/
def encode (value : Int) : List Char := digits (word value)

example : encode 16 = ['g', 'B'] := by decide +kernel
example : decode ['g', 'B', 'h', 'B'] = .ok [16, -16] := by rfl

end BundleCoverage.SourceMap.Vlq
