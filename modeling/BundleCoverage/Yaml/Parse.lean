import BundleCoverage.Yaml.Basic
import BundleCoverage.Yaml.Scalar

/-!
# Reading YAML

`Yaml.parse?` reads a text with one document: mappings and sequences in blocks or in
brackets, plain and quoted scalars, and comments.  Anchors, tags, directives and scalars
in blocks are not read.

A block is as deep as the column it starts in.  The values of a mapping stand deeper than
its keys, except that a sequence may start in their column.
-/

namespace BundleCoverage.Yaml

/-- A value and the place after it. -/
abbrev Read := Option (Yaml × Cursor)

mutual

/-- Reads a value inside brackets. -/
def flowValue? : (fuel : Nat) → Cursor → Read
  | 0, _ => none
  | fuel + 1, c =>
    match c.rest with
    | '[' :: _ => flowSeq? fuel [] (c.advance 1).flowToken
    | '\x7b' :: _ => flowMap? fuel [] (c.advance 1).flowToken
    | _ => (scalar? true 0 c).map fun (plain, s) => (.scalar plain s.text, s.after.flowToken)

/-- Reads the value after a key inside brackets, if there is a colon. -/
def flowPair? : (fuel : Nat) → (key : Yaml) → Cursor → Option (Option Yaml × Cursor)
  | 0, _, _ => none
  | fuel + 1, key, c =>
    match c.rest with
    | ':' :: rest =>
      let quoted := match key with
        | .scalar plain _ => !plain
        | _ => true
      if atGap rest || rest.head?.any isFlowIndicator || quoted then
        let c := (c.advance 1).flowToken
        if c.rest.head?.any fun d => d = ',' || d = ']' || d = '\x7d' then some (some .empty, c)
        else
          match flowValue? fuel c with
          | some (value, c) => some (some value, c)
          | none => none
      else none
    | _ => some (none, c)

/-- Reads the rest of a sequence in brackets.  `items` holds what was read, the last item
first. -/
def flowSeq? : (fuel : Nat) → (items : List Yaml) → Cursor → Read
  | 0, _, _ => none
  | fuel + 1, items, c =>
    match c.rest with
    | ']' :: _ => some (.seq items.reverse, c.advance 1)
    | _ =>
      match flowValue? fuel c with
      | none => none
      | some (item, after) =>
        match flowPair? fuel item after.flowToken with
        | none => none
        | some (value, after) =>
          let item := match value with
            | some value => .map [(item, value)]
            | none => item
          let after := after.flowToken
          match after.rest with
          | ',' :: _ => flowSeq? fuel (item :: items) (after.advance 1).flowToken
          | ']' :: _ => some (.seq (item :: items).reverse, after.advance 1)
          | _ => none

/-- Reads the rest of a mapping in brackets.  `pairs` holds what was read, the last pair
first. -/
def flowMap? : (fuel : Nat) → (pairs : List (Yaml × Yaml)) → Cursor → Read
  | 0, _, _ => none
  | fuel + 1, pairs, c =>
    match c.rest with
    | '\x7d' :: _ => some (.map pairs.reverse, c.advance 1)
    | _ =>
      match flowValue? fuel c with
      | none => none
      | some (key, after) =>
        match flowPair? fuel key after.flowToken with
        | none => none
        | some (value, after) =>
          let pair := (key, value.getD .empty)
          let after := after.flowToken
          match after.rest with
          | ',' :: _ => flowMap? fuel (pair :: pairs) (after.advance 1).flowToken
          | '\x7d' :: _ => some (.map (pair :: pairs).reverse, after.advance 1)
          | _ => none

end

/-- A value that starts on a line of a block. -/
structure Inline where
  /-- The value. -/
  value : Yaml
  /-- The place after it. -/
  after : Cursor
  /-- Whether a line ended in it or after it. -/
  multiline : Bool

/-- Reads a value that is no block.  The lines of a plain scalar have to reach
`minColumn`. -/
def inline? (minColumn : Nat) (c : Cursor) : Option Inline :=
  let flow : Bool := c.rest.head?.any fun d => d = '[' || d = '\x7b'
  if flow then
    (flowValue? (4 * c.rest.length + 4) c).map fun (value, after) =>
      let taken := c.rest.take (c.rest.length - after.rest.length)
      ⟨value, after, taken.contains '\n'⟩
  else
    (scalar? false minColumn c).map fun (plain, s) => ⟨.scalar plain s.text, s.after, s.multiline⟩

mutual

/-- Reads the value at a token, or an empty value if the token does not reach `minColumn`.
`blocks` says whether a block may start here. -/
def value? : (fuel : Nat) → (blocks : Bool) → (minColumn : Nat) → Cursor → Read
  | 0, _, _, _ => none
  | fuel + 1, blocks, minColumn, c =>
    if c.atDocumentEnd || c.column < minColumn then some (.empty, c)
    else if c.atItem then if blocks then blockSeq? fuel c.column [] c else none
    else
      match inline? minColumn c with
      | none => none
      | some i =>
        let after := i.after.skipGaps
        if after.atColon && !i.multiline then
          if blocks then blockMap? fuel c.column [] c else none
        else if after.atLineEnd || (i.multiline && after.column == i.after.column) then
          some (i.value, after.token true)
        else none

/-- Reads the rest of a block sequence in some column, from its next item. -/
def blockSeq? : (fuel : Nat) → (column : Nat) → (items : List Yaml) → Cursor → Read
  | 0, _, _, _ => none
  | fuel + 1, column, items, c =>
    if c.column == column && c.atItem then
      let next := (c.advance 1).token false
      match value? fuel true (column + 1) next with
      | none => none
      | some (item, after) => blockSeq? fuel column (item :: items) after
    else if c.column ≤ column || c.atDocumentEnd then some (.seq items.reverse, c)
    else none

/-- Reads the rest of a block mapping in some column, from its next key. -/
def blockMap? : (fuel : Nat) → (column : Nat) → (pairs : List (Yaml × Yaml)) → Cursor → Read
  | 0, _, _, _ => none
  | fuel + 1, column, pairs, c =>
    if c.atDocumentEnd || c.column < column then some (.map pairs.reverse, c)
    else if c.column == column && !c.atItem then
      match inline? (column + 1) c with
      | none => none
      | some key =>
        let colon := key.after.skipGaps
        if !colon.atColon || key.multiline then none
        else
          let start := colon.advance 1
          let next := start.token true
          let sameLine : Bool := !start.skipGaps.atLineEnd
          let value :=
            if sameLine then value? fuel false (column + 1) next
            else if next.column == column && next.atItem then blockSeq? fuel column [] next
            else value? fuel true (column + 1) next
          match value with
          | none => none
          | some (value, after) => blockMap? fuel column ((key.value, value) :: pairs) after
    else none

end

/-- Whether a character may stand in a text. -/
def isAllowed (c : Char) : Bool :=
  let n := c.toNat
  n == 0x9 || n == 0xA || n == 0xD || (0x20 ≤ n && n ≤ 0x7E) || n == 0x85
    || (0xA0 ≤ n && n ≤ 0xFFFD && n ≠ 0xFEFF) || 0x10000 ≤ n

/-- A text with a line feed for each line break. -/
def plainBreaks : List Char → List Char
  | [] => []
  | '\r' :: '\n' :: text => '\n' :: plainBreaks text
  | c :: text => (if c = '\r' || c.toNat = 0x85 then '\n' else c) :: plainBreaks text

/-- Whether nothing but the end of a document follows. -/
def atEnd (c : Cursor) : Bool :=
  match c.rest with
  | [] => true
  | '.' :: '.' :: '.' :: rest =>
    let after := Cursor.skipGaps ⟨rest, 3⟩
    after.atLineEnd && (after.token false).rest.isEmpty
  | _ => false

/-- Reads a text with one document. -/
def parse? (text : String) : Option Yaml :=
  let chars := match text.toList with
    | c :: rest => if c.toNat = 0xFEFF then rest else c :: rest
    | [] => []
  if !chars.all isAllowed then none
  else
    let chars := plainBreaks chars
    let fuel := 4 * chars.length + 4
    let start := Cursor.token ⟨chars, 0⟩ false
    let read := match start.rest with
      | '-' :: '-' :: '-' :: rest =>
        if start.column == 0 && atGap rest then
          let after := start.advance 3
          value? fuel after.skipGaps.atLineEnd 0 (after.token true)
        else value? fuel true 0 start
      | _ => value? fuel true 0 start
    match read with
    | some (value, after) => if atEnd after then some value else none
    | none => none

end BundleCoverage.Yaml
