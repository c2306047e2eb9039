/-!
# Errors

What can go wrong, by its kind.  The text of an error says what failed and, where the
library found the cause itself, why.  A cause that the file system or the network gives is
not part of it.
-/

namespace BundleCoverage

/-- What went wrong. -/
inductive Error where
  /-- An option has a value that cannot be used. -/
  | config (message : String)
  /-- A mappings text is broken at some segment. -/
  | invalidMappings (segment : Nat) (message : String)
  /-- A source map is not what it should be. -/
  | invalidSourceMap (message : String)
  /-- The inspector did not do as told. -/
  | inspector (message : String)
  /-- The browser did not do as told. -/
  | browser (message : String)
  /-- The coverage cache cannot be read or written at some path. -/
  | cache (path : String) (detail : Option String)
  /-- A report cannot be written. -/
  | report (message : String)
  /-- An operation took too long. -/
  | timeout (milliseconds : Nat)
  /-- A file cannot be read or written. -/
  | file
  /-- A text is not the JSON it should be. -/
  | json
deriving Repr, DecidableEq

/-- The text of an error. -/
def Error.message : Error → String
  | .config message => s!"Configuration error: {message}"
  | .invalidMappings segment message => s!"Invalid VLQ mapping at segment {segment}: {message}"
  | .invalidSourceMap message => s!"Invalid source map: {message}"
  | .inspector message => s!"Inspector error: {message}"
  | .browser message => s!"Browser coverage error: {message}"
  | .cache path none => s!"Coverage cache error at {path}"
  | .cache path (some detail) => s!"Coverage cache error at {path}: {detail}"
  | .report message => s!"Report generation failed: {message}"
  | .timeout milliseconds => s!"Operation timed out after {milliseconds}ms"
  | .file => "I/O error"
  | .json => "JSON error"

/-- Whether an error means that an input is broken, and not that its surroundings are. -/
def Error.isMalformedInput : Error → Bool
  | .invalidMappings .. | .invalidSourceMap .. | .json => true
  | _ => false

end BundleCoverage
