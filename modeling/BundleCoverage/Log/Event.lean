/-!
# Log events

What the library tells about its work, apart from its results.  An event has a level and a
target, the part of the library it comes from; log filters choose events by both.
-/

namespace BundleCoverage

/-- How much an event matters.  The levels are listed from what matters least. -/
inductive LogLevel where
  | trace
  | debug
  | info
  | warn
  | error
deriving Repr, DecidableEq, Inhabited

namespace LogLevel

/-- The place of a level among the levels. -/
def rank : LogLevel → Nat
  | trace => 0
  | debug => 1
  | info => 2
  | warn => 3
  | error => 4

/-- The name of a level. -/
def name : LogLevel → String
  | trace => "trace"
  | debug => "debug"
  | info => "info"
  | warn => "warn"
  | error => "error"

/-- All levels. -/
def all : List LogLevel := [trace, debug, info, warn, error]

end LogLevel

/-- Something that happened. -/
inductive Event where
  /-- A document of the cache could not be read. -/
  | documentSkipped
  /-- The cache was read. -/
  | entriesLoaded
  /-- There were no entries. -/
  | nothingCollected
  /-- A source file in scope is not text. -/
  | seedUnreadable
  /-- The source files in scope were entered. -/
  | filesSeeded
  /-- The file of a script could not be read. -/
  | scriptUnreadable
  /-- The URL of a script is none. -/
  | urlUnreadable
  /-- A section of a source map is not part of the document. -/
  | sectionSkipped
  /-- The first section of a source map does not begin at the beginning. -/
  | sectionOffset
  /-- A script has no source map. -/
  | noSourceMap
  /-- The source map of a script is broken. -/
  | brokenSourceMap
  /-- The mappings of the source map of a script are broken. -/
  | brokenMappings
  /-- An entry has no script. -/
  | entryDropped
  /-- An entry says nothing about a source in scope. -/
  | entryOutOfScope
  /-- All entries were merged. -/
  | merged
  /-- The merged coverage is empty. -/
  | mergedNothing
  /-- There is no reporter of a name. -/
  | reporterSkipped
  /-- A report was written. -/
  | reportWritten
  /-- All reports were made. -/
  | reportsGenerated
  /-- The cache was removed. -/
  | cacheRemoved
  /-- A connection to an address is tried. -/
  | connecting (url : String)
  /-- There is no inspector to be reached. -/
  | serverUnavailable
deriving Repr, DecidableEq

namespace Event

/-- How much an event matters. -/
def level : Event → LogLevel
  | documentSkipped | nothingCollected | mergedNothing | reporterSkipped | serverUnavailable =>
    .warn
  | entriesLoaded | merged | reportWritten | reportsGenerated => .info
  | seedUnreadable | filesSeeded | scriptUnreadable | urlUnreadable | sectionSkipped
  | sectionOffset | noSourceMap | brokenSourceMap | brokenMappings | entryDropped
  | entryOutOfScope | cacheRemoved | connecting _ => .debug

/-- The part of the library that an event comes from. -/
def target : Event → String
  | documentSkipped | cacheRemoved => "nextcov::cache"
  | entriesLoaded | nothingCollected | mergedNothing | reportsGenerated => "nextcov::pipeline"
  | seedUnreadable | filesSeeded | entryDropped | entryOutOfScope | merged => "nextcov::merge"
  | scriptUnreadable | urlUnreadable | noSourceMap | brokenSourceMap | brokenMappings =>
    "nextcov::sourcemap::resolver"
  | sectionSkipped | sectionOffset => "nextcov::sourcemap::parse"
  | reporterSkipped | reportWritten => "nextcov::report"
  | connecting _ => "connection"
  | serverUnavailable => "nextcov::collector::server"

/-- The text of an event. -/
def message : Event → String
  | documentSkipped => "skipping unreadable coverage document"
  | entriesLoaded => "coverage entries loaded"
  | nothingCollected => "no coverage entries collected, nothing to report"
  | seedUnreadable => "cannot seed unreadable file"
  | filesSeeded => "seeded in-scope files"
  | scriptUnreadable => "script text unavailable"
  | urlUnreadable => "unparseable script URL"
  | sectionSkipped => "skipping source map section without embedded map"
  | sectionOffset =>
    "first source map section has a non-zero offset; positions are kept unshifted"
  | noSourceMap => "no source map"
  | brokenSourceMap => "malformed source map treated as absent"
  | brokenMappings => "discarding source map with malformed mappings"
  | entryDropped => "dropping entry without script text"
  | entryOutOfScope => "no in-scope source for entry"
  | merged => "coverage merged"
  | mergedNothing => "no entry mapped to an in-scope source file"
  | reporterSkipped => "no built-in emitter for reporter, skipping"
  | reportWritten => "report written"
  | reportsGenerated => "coverage reports generated"
  | cacheRemoved => "removed coverage cache"
  | connecting url => s!"starting new connection: {url}"
  | serverUnavailable => "server coverage unavailable"

end Event

end BundleCoverage
