/-!
# UTF-8

Bytes are read as characters with a mark for what is no character.  A run of bytes
that starts a character and breaks off is one mark, and so is a byte that cannot
start or continue one.  `strict?` accepts bytes without marks and `lossy` puts the
replacement character U+FFFD in the place of each mark.
-/

namespace BundleCoverage.Text.Utf8

/-- The bytes of a text. -/
def encode (text : String) : List UInt8 := text.toUTF8.toList

/-- Whether a byte lies in a range. -/
def within (lo hi : Nat) (b : UInt8) : Bool := lo ≤ b.toNat && b.toNat ≤ hi

/-- The six bits a continuation byte carries. -/
def low (b : UInt8) : Nat := b.toNat % 64

/-- Bytes as characters, with `none` for each run of bytes that is no character. -/
def decodeUnits : List UInt8 → List (Option Char)
  | [] => []
  | a :: rest =>
    let n := a.toNat
    if n < 0x80 then some (Char.ofNat n) :: decodeUnits rest
    else if n < 0xC2 || 0xF4 < n then none :: decodeUnits rest
    else
      match rest with
      | [] => [none]
      | b :: rest₁ =>
        if n < 0xE0 then
          if within 0x80 0xBF b then some (Char.ofNat (n % 32 * 64 + low b)) :: decodeUnits rest₁
          else none :: decodeUnits (b :: rest₁)
        else if n < 0xF0 then
          let lo := if n = 0xE0 then 0xA0 else 0x80
          let hi := if n = 0xED then 0x9F else 0xBF
          if within lo hi b then
            match rest₁ with
            | [] => [none]
            | c :: rest₂ =>
              if within 0x80 0xBF c then
                some (Char.ofNat ((n % 16 * 64 + low b) * 64 + low c)) :: decodeUnits rest₂
              else none :: decodeUnits (c :: rest₂)
          else none :: decodeUnits (b :: rest₁)
        else
          let lo := if n = 0xF0 then 0x90 else 0x80
          let hi := if n = 0xF4 then 0x8F else 0xBF
          if within lo hi b then
            match rest₁ with
            | [] => [none]
            | c :: rest₂ =>
              if within 0x80 0xBF c then
                match rest₂ with
                | [] => [none]
                | d :: rest₃ =>
                  if within 0x80 0xBF d then
                    some (Char.ofNat (((n % 8 * 64 + low b) * 64 + low c) * 64 + low d))
                      :: decodeUnits rest₃
                  else none :: decodeUnits (d :: rest₃)
              else none :: decodeUnits (c :: rest₂)
          else none :: decodeUnits (b :: rest₁)

/-- The text of bytes that are UTF-8 throughout. -/
def strict? (bytes : List UInt8) : Option String :=
  ((decodeUnits bytes).mapM id).map String.ofList

/-- The text of bytes, with U+FFFD for what is no character. -/
def lossy (bytes : List UInt8) : String :=
  String.ofList ((decodeUnits bytes).map (·.getD (Char.ofNat 0xFFFD)))

example : decodeUnits [0x61, 0xC3, 0xA9, 0xE2, 0x82, 0x62] = [some 'a', some 'é', none, some 'b'] := by
  decide

end BundleCoverage.Text.Utf8
