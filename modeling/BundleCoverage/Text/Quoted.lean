import BundleCoverage.Text.Hidden

/-!
# Quoted text

Messages show texts and characters between quotes.  The quote itself and the
backslash are written after a backslash, tab, line feed, carriage return and
NUL by a letter or digit after one, and every other character without a visible
form by its code point in braces.  A quoted text leaves the single quote alone,
a quoted character the double quote.
-/

namespace BundleCoverage.Text

/-- The lower-case hexadecimal digits of a number. -/
def hexDigits (n : Nat) : List Char := Nat.toDigits 16 n

/-- What stands for one character between the quotes `quote`. -/
def quotedChar (quote c : Char) : List Char :=
  if c = '\t' then ['\\', 't']
  else if c = '\n' then ['\\', 'n']
  else if c = '\r' then ['\\', 'r']
  else if c = '\x00' then ['\\', '0']
  else if c = '\\' || c = quote then ['\\', c]
  else if isHidden c then '\\' :: 'u' :: '\x7b' :: hexDigits c.toNat ++ ['\x7d']
  else [c]

/-- A text between double quotes. -/
def quoted (text : String) : String :=
  String.ofList ('"' :: text.toList.flatMap (quotedChar '"') ++ ['"'])

/-- A character between single quotes. -/
def quotedCharacter (c : Char) : String :=
  String.ofList ('\'' :: quotedChar '\'' c ++ ['\''])

end BundleCoverage.Text
