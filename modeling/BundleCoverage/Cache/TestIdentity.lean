import BundleCoverage.Sha256
import BundleCoverage.Text.Utf8

/-!
# Test identities

Each run of a test has a key, which names its document in the cache: the worker, a
readable form of the test, and the start of a hash of it.  The readable form is cut, so
the hash keeps tests apart that start alike.
-/

namespace BundleCoverage

/-- A run of a test by a worker. -/
structure TestIdentity where
  /-- The number of the worker. -/
  worker : UInt32
  /-- What the test is called. -/
  test : String
deriving Repr, DecidableEq, Inhabited

namespace TestIdentity

/-- The longest readable form. -/
def maxReadable : Nat := 64

/-- A character of a readable form: all but ASCII letters, digits, dashes and underscores
become underscores. -/
def readableChar (c : Char) : Char :=
  if c.isAlphanum || c = '-' then c else '_'

/-- The readable form of a text, of which some characters are read and kept in reverse.  No
underscore follows another. -/
def readableFrom (kept : List Char) : List Char → List Char
  | [] => kept
  | c :: text =>
    if maxReadable ≤ kept.length then kept
    else if readableChar c = '_' && kept.head? = some '_' then readableFrom kept text
    else readableFrom (readableChar c :: kept) text

/-- The readable form of a text. -/
def readable (text : List Char) : List Char := (readableFrom [] text).reverse

/-- Two hexadecimal digits for each byte. -/
def hexText (bytes : List UInt8) : List Char :=
  bytes.flatMap fun b => [Nat.digitChar (b.toNat / 16), Nat.digitChar (b.toNat % 16)]

/-- The start of the hash of a test. -/
def fingerprint (test : String) : List UInt8 := (Sha256.hash (Text.Utf8.encode test)).take 4

/-- The key of a worker, a test and the start of its hash. -/
def keyOf (worker : UInt32) (test : String) (start : List UInt8) : String :=
  String.ofList (Nat.toDigits 10 worker.toNat ++ '-' :: readable test.toList
    ++ '-' :: hexText start)

/-- The key of an identity. -/
def key (i : TestIdentity) : String := keyOf i.worker i.test (fingerprint i.test)

end TestIdentity

end BundleCoverage
