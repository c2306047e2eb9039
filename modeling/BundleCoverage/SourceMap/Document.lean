import BundleCoverage.Error
import BundleCoverage.Json.Parse
import BundleCoverage.Json.Read
import BundleCoverage.SourceMap.Basic

/-!
# Source map documents

A document is a plain map or a list of sections, each with a document of its own or a
reference to one elsewhere.  `Document.toMap` brings it into plain form.

Flattening keeps each source and each name once, in the order of first appearance, and
gives a source the first text that comes with it.  Only the first embedded section gives
mappings, at their own positions.  Their source and name indices are moved to the common
lists, and a name index that points nowhere is dropped.
-/

namespace BundleCoverage.SourceMap

/-- Where a section starts in the generated file. -/
structure SectionOffset where
  /-- The line. -/
  line : UInt32 := 0
  /-- The column. -/
  column : UInt32 := 0
deriving Repr, DecidableEq, Inhabited

mutual

/-- A source map as it is written. -/
inductive Document where
  /-- A map with sources and mappings of its own, whose version is still to be checked. -/
  | plain (map : SourceMap)
  /-- A map in sections. -/
  | sectioned (version : UInt32) (file : Option String) (sections : List Section)

/-- A section of a map. -/
inductive Section where
  /-- A section with its document. -/
  | embedded (offset : SectionOffset) (document : Document)
  /-- A section whose document is elsewhere. -/
  | elsewhere

end

/-! ## Reading -/

/-- Texts, with the empty text for `null`. -/
def toTexts? : Json.Reader (List String) :=
  fun value => (Json.toList? (Json.toOption? Json.toText?) value).map (·.map (·.getD ""))

/-- The names of the fields of a document. -/
def documentFields : List Json.Names :=
  [["version"], ["file"], ["sourceRoot"], ["sources"], ["sourcesContent"], ["names"],
    ["mappings"], ["sections"]]

/-- A list of texts aligned with a list of sources. -/
def alignContent {α β : Type} : List α → List (Option β) → List (Option β)
  | [], _ => []
  | _ :: sources, [] => none :: alignContent sources []
  | _ :: sources, content :: contents => content :: alignContent sources contents

/-- Reads the start of a section. -/
def SectionOffset.ofJson? (value : Json) : Option SectionOffset := do
  match ← Json.record? [["line"], ["column"]] value with
  | [line, column] =>
    return ⟨← Json.orElse 0 Json.toWord? line, ← Json.orElse 0 Json.toWord? column⟩
  | _ => none

/-- Reads a section, given a reader of its document. -/
def Section.ofJson? (document? : Json.Reader Document) (value : Json) : Option Section := do
  match ← Json.record? [["offset"], ["map"], ["url"]] value with
  | [offset, map, url] =>
    let offset ← Json.orElse {} SectionOffset.ofJson? offset
    let map ← Json.orElse none (Json.toOption? document?) map
    let _ ← Json.orElse none (Json.toOption? Json.toText?) url
    return match map with
      | some document => .embedded offset document
      | none => .elsewhere
  | _ => none

/-- Reads a document, given whether there is a level of nesting left for its lists and a reader
of its sections. -/
def Document.read? (deeper : Bool) (sections? : Json.Reader (List Section)) (value : Json) :
    Option Document := do
  let list {α : Type} (read : Json.Reader α) : Json.Reader α :=
    fun v => if deeper then read v else none
  match ← Json.record? documentFields value with
  | [version, file, root, sources, contents, names, mappings, sections] =>
    let version ← Json.required Json.toWord? version
    let file ← Json.orElse none (Json.toOption? Json.toText?) file
    let sourceRoot ← Json.orElse none (Json.toOption? Json.toText?) root
    let sources ← Json.orElse [] (list toTexts?) sources
    let contents ← Json.orElse none
      (Json.toOption? (list (Json.toList? (Json.toOption? Json.toText?)))) contents
    let names ← Json.orElse [] (list toTexts?) names
    let mappings ← Json.orElse none (Json.toOption? Json.toText?) mappings
    let sections ← Json.orElse none (Json.toOption? sections?) sections
    return match sections with
      | some sections => .sectioned version file sections
      | none => .plain
        { version, file, sourceRoot, sources, names
          sourcesContent := alignContent sources (contents.getD [])
          mappings := mappings.getD "" }
  | _ => none

/-- Reads a document in which documents may be nested `depth` deep.  A document, its list
of sections and the section are three levels of nesting; the innermost document has no
level left for lists. -/
def Document.ofJson? : (depth : Nat) → Json.Reader Document
  | 0 => Document.read? false fun _ => none
  | depth + 1 => Document.read? true (Json.toList? (Section.ofJson? (Document.ofJson? depth)))

/-- How deep documents may be nested, so that no value lies more than 127 levels deep. -/
def maxDocumentDepth : Nat := 42

/-! ## Flattening -/

/-- A source and its text, if known. -/
structure SourceText where
  /-- The path of the source. -/
  path : String
  /-- Its text. -/
  content : Option String
deriving Repr, DecidableEq

/-- The sources of a map with their texts. -/
def sourceTexts (map : SourceMap) : List SourceText :=
  (map.sources.zip map.sourcesContent).map fun (source, content) =>
    ⟨joinSourceRoot map.sourceRoot source, content⟩

/-- A source added to a list that holds each path once.  A path that is there keeps its
place, and its text if it has one. -/
def addSource : List SourceText → SourceText → List SourceText
  | [], s => [s]
  | t :: rest, s =>
    if t.path = s.path then { t with content := t.content <|> s.content } :: rest
    else t :: addSource rest s

/-- A name added to a list that holds each name once. -/
def addName (names : List String) (name : String) : List String :=
  if name ∈ names then names else names ++ [name]

/-- A source position of `map` moved to common lists of paths and names. -/
def reindexPosition (map : SourceMap) (paths names : List String) (p : SourcePosition) :
    Except Error SourcePosition :=
  match map.sourcePath? p.sourceIndex.toNat with
  | none => .error (.invalidSourceMap
      s!"mapping references source {p.sourceIndex.toNat} of {map.sources.length}")
  | some path => .ok
    { p with
      sourceIndex := UInt32.ofNat (paths.idxOf path)
      nameIndex := p.nameIndex.bind fun n =>
        map.names[n.toNat]?.map fun name => UInt32.ofNat (names.idxOf name) }

/-- A segment of `map` moved to common lists of paths and names. -/
def reindexSegment (map : SourceMap) (paths names : List String) (s : Segment) :
    Except Error Segment :=
  match s.source with
  | none => .ok s
  | some p => (reindexPosition map paths names p).map fun p => { s with source := some p }

/-- The mappings of `map` moved to common lists of paths and names. -/
def reindex (map : SourceMap) (paths names : List String) : Except Error String := do
  let lines ← (decode map.mappings).mapError MappingsFault.toError
  let lines ← lines.mapM fun segments => segments.mapM (reindexSegment map paths names)
  return encode lines

/-- One map of several: the sources and names of all, and the mappings of the first. -/
def flatten (file : Option String) (maps : List SourceMap) : Except Error SourceMap := do
  let sources := (maps.flatMap sourceTexts).foldl addSource []
  let names := (maps.flatMap (·.names)).foldl addName []
  let paths := sources.map (·.path)
  let mappings ← match maps with
    | [] => pure ""
    | first :: _ => reindex first paths names
  return { file, sources := paths, sourcesContent := sources.map (·.content), names, mappings }

/-- The error of a version other than 3. -/
def unsupportedVersion (version : UInt32) : Error :=
  .invalidSourceMap s!"unsupported version {version.toNat}"

mutual

/-- The plain form of a document. -/
def Document.toMap : Document → Except Error SourceMap
  | .plain map => if map.version = 3 then .ok map else .error (unsupportedVersion map.version)
  | .sectioned version file sections =>
    if version = 3 then
      match sectionMaps sections with
      | .ok maps => flatten file maps
      | .error e => .error e
    else .error (unsupportedVersion version)

/-- The maps of the embedded sections, in order. -/
def sectionMaps : List Section → Except Error (List SourceMap)
  | [] => .ok []
  | s :: rest =>
    match sectionMap s with
    | .error e => .error e
    | .ok map => (sectionMaps rest).map (map.toList ++ ·)

/-- The map of a section, if it is embedded. -/
def sectionMap : Section → Except Error (Option SourceMap)
  | .elsewhere => .ok none
  | .embedded _ document => document.toMap.map some

end

/-- Reads a source map from a JSON value. -/
def ofJson (value : Option Json) : Except Error SourceMap :=
  match value.bind (Document.ofJson? maxDocumentDepth) with
  | none => .error .json
  | some document => document.toMap

/-- Reads a source map from a text. -/
def ofText (text : String) : Except Error SourceMap := ofJson (Json.parse? text)

/-- Reads a source map from bytes. -/
def ofBytes (bytes : List UInt8) : Except Error SourceMap := ofJson (Json.parseBytes? bytes)

end BundleCoverage.SourceMap
