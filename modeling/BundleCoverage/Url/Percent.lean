import BundleCoverage.Text.Digits
import BundleCoverage.Text.Utf8

/-!
# Percent escapes

In a URL a byte may be written as a percent sign and two hexadecimal digits.  Decoding
leaves a percent sign alone that no two digits follow.
-/

namespace BundleCoverage.Url

/-- The bytes of a character. -/
def bytesOf (c : Char) : List UInt8 := Text.Utf8.encode (String.singleton c)

/-- The escape of a byte. -/
def escapeByte (b : UInt8) : List Char :=
  ['%', (Nat.digitChar (b.toNat / 16)).toUpper, (Nat.digitChar (b.toNat % 16)).toUpper]

/-- A text in which the characters outside ASCII and those of a class are escaped. -/
def escape (needed : Char → Bool) (text : List Char) : List Char :=
  text.flatMap fun c =>
    if c.toNat < 0x80 && !needed c then [c] else (bytesOf c).flatMap escapeByte

/-- The characters that are escaped in a path. -/
def needsPathEscape (c : Char) : Bool :=
  c.toNat < 0x21 || c.toNat == 0x7F || "\"#<>?`\x7b\x7d^".toList.contains c

/-- The characters that are escaped in a file name that becomes part of a path. -/
def needsNameEscape (c : Char) : Bool := needsPathEscape c || c = '/' || c = '%' || c = '\\'

/-- The bytes of a text with its escapes decoded. -/
def unescape : List Char → List UInt8
  | '%' :: a :: b :: text =>
    match Text.digitOf? 16 a, Text.digitOf? 16 b with
    | some x, some y => UInt8.ofNat (16 * x + y) :: unescape text
    | _, _ => bytesOf '%' ++ unescape (a :: b :: text)
  | c :: text => bytesOf c ++ unescape text
  | [] => []

end BundleCoverage.Url
