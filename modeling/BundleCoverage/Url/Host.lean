import BundleCoverage.Text.Digits
import BundleCoverage.Text.Search
import BundleCoverage.Text.Split
import BundleCoverage.Url.Percent

/-!
# Hosts

Whether a text can be the host of a URL.  In brackets stands an address of eight groups.
Otherwise the host is a name, which must hold no reserved character, and a name that ends
in a number must be an address of up to four numbers.

The host of a URL outside the special schemes is any text without reserved characters.

A name outside ASCII is taken as it is: it is not mapped to its ASCII form, and what this mapping
would refuse is not refused.
-/

namespace BundleCoverage.Url

open Text

/-- The characters no host can hold. -/
def isForbiddenInHost (c : Char) : Bool := "\x00\t\n\r #/:<>?@[\\]^|".toList.contains c

/-- The characters no name of a host can hold. -/
def isForbiddenInName (c : Char) : Bool :=
  isForbiddenInHost c || c.toNat < 0x20 || c = '%' || c.toNat = 0x7F

/-! ## Addresses of four numbers -/

/-- A part of an address: decimal, octal after a zero or hexadecimal after `0x`. -/
def addressPart? : List Char → Option Nat
  | [] => none
  | '0' :: 'x' :: digits => digitsIn? 16 digits
  | '0' :: 'X' :: digits => digitsIn? 16 digits
  | ['0'] => some 0
  | '0' :: digits => digitsIn? 8 digits
  | digits => digitsIn? 10 digits

/-- The parts of a name between points, without an empty last one. -/
def nameParts (name : List Char) : List (List Char) :=
  let parts := split '.' name
  if parts.getLast? = some [] then parts.dropLast else parts

/-- Whether a name ends in a number. -/
def endsInNumber (name : List Char) : Bool :=
  match (nameParts name).getLast? with
  | none => false
  | some part => (!part.isEmpty && part.all Char.isDigit) || (addressPart? part).isSome

/-- Whether a name is an address of up to four numbers. -/
def isAddress (name : List Char) : Bool :=
  match (nameParts name).mapM addressPart? with
  | none => false
  | some numbers =>
    numbers.length ≤ 4 && numbers.dropLast.all (· ≤ 255)
      && numbers.getLast?.any (· < 1 <<< (8 * (5 - numbers.length)))

/-! ## Addresses of eight groups -/

/-- Whether a text is a group of an address: one to four hexadecimal digits. -/
def isGroup (text : List Char) : Bool :=
  !text.isEmpty && text.length ≤ 4 && text.all fun c => (digitOf? 16 c).isSome

/-- Whether a text is four decimal numbers below 256 without leading zeros. -/
def isDotted (text : List Char) : Bool :=
  let parts := split '.' text
  parts.length == 4 && parts.all fun part =>
    !part.isEmpty && part.length ≤ 3 && part.all Char.isDigit
      && (part.length == 1 || part.head? != some '0') && (digitsIn? 10 part).any (· < 256)

/-- How many groups a list of groups takes.  The last one may be four numbers, which take
two. -/
def groupCount? (last : Bool) (text : List Char) : Option Nat :=
  if text.isEmpty then some 0
  else
    let groups := split ':' text
    if groups.all isGroup then some groups.length
    else if last && groups.dropLast.all isGroup && groups.getLast?.any isDotted then
      some (groups.length + 1)
    else none

/-- Whether a text is an address of eight groups, of which some may be left out once. -/
def isGroupAddress (text : List Char) : Bool :=
  match cut? [':', ':'] text with
  | none => groupCount? true text == some 8
  | some (before, after) =>
    match groupCount? false before, groupCount? true after with
    | some a, some b => a + b ≤ 7
    | _, _ => false

/-! ## Hosts -/

/-- Whether a text is the host of a URL with a special scheme. -/
def isHost (text : List Char) : Bool :=
  if text.head? = some '[' then
    text.getLast? = some ']' && isGroupAddress (text.drop 1).dropLast
  else
    match Utf8.strict? (unescape text) with
    | none => false
    | some name =>
      let name := name.toList.map Char.toLower
      !name.isEmpty && name.all (!isForbiddenInName ·) && (!endsInNumber name || isAddress name)

/-- Whether a text is the host of a URL with another scheme. -/
def isOpaqueHost (text : List Char) : Bool :=
  if text.head? = some '[' then
    text.getLast? = some ']' && isGroupAddress (text.drop 1).dropLast
  else text.all (!isForbiddenInHost ·)

end BundleCoverage.Url
