import BundleCoverage.Json.Basic
import BundleCoverage.SourceMap.MappingTable
import BundleCoverage.Text.Blank
import BundleCoverage.Text.Search

/-!
# Source maps

A source map names the sources of a generated file, may hold their texts, and relates
positions in the file to positions in the sources.  This is the plain form of a map; maps
in sections are brought into it when they are read.
-/

namespace BundleCoverage

/-- A source map in plain form. -/
structure SourceMap where
  /-- The version of the format. -/
  version : UInt32 := 3
  /-- The name of the generated file. -/
  file : Option String := none
  /-- What stands in front of every source. -/
  sourceRoot : Option String := none
  /-- The sources. -/
  sources : List String := []
  /-- The text of each source, if the map holds it. -/
  sourcesContent : List (Option String) := []
  /-- The names in the sources. -/
  names : List String := []
  /-- The mappings text. -/
  mappings : String := ""
deriving Repr, DecidableEq, Inhabited

namespace SourceMap

/-- A source with the root in front, unless the source is absolute or a URL. -/
def joinSourceRoot (root : Option String) (source : String) : String :=
  match root with
  | none => source
  | some root =>
    let chars := source.toList
    if root.isEmpty || chars.head? == some '/' || Text.isInfix "://".toList chars then source
    else String.ofList (Text.trimEnd (· = '/') root.toList) ++ "/" ++ source

/-- The source at an index with the root in front. -/
def sourcePath? (map : SourceMap) (index : Nat) : Option String :=
  map.sources[index]?.map (joinSourceRoot map.sourceRoot)

/-- The text of the source at an index. -/
def sourceContent? (map : SourceMap) (index : Nat) : Option String :=
  map.sourcesContent[index]?.join

/-- Whether the map holds the text of some source. -/
def hasSourcesContent (map : SourceMap) : Bool := map.sourcesContent.any (·.isSome)

/-- The mappings as a table. -/
def mappingTable (map : SourceMap) : Except MappingsFault MappingTable :=
  MappingTable.parse map.mappings

/-- A map as a document.  The generated file and the root are left out when there are none. -/
def toJson (map : SourceMap) : Json :=
  .obj ([("version", .nat map.version.toNat)]
    ++ (map.file.map fun f => ("file", Json.str f)).toList
    ++ (map.sourceRoot.map fun r => ("sourceRoot", Json.str r)).toList
    ++ [("sources", .list .str map.sources),
      ("sourcesContent", .list (.ofOption .str) map.sourcesContent),
      ("names", .list .str map.names),
      ("mappings", .str map.mappings)])

end SourceMap

end BundleCoverage
