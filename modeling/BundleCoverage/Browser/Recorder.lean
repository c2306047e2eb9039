import BundleCoverage.Cache.Basic
import BundleCoverage.Error
import BundleCoverage.Options.Basic

/-!
# Coverage of a browser page

A recorder takes the coverage of a page while a test runs on it.  Coverage is started
before the test and stopped after it; what is in scope becomes the document of the test.
Whatever goes wrong with the coverage, the test runs and its outcome stays as it is.
-/

namespace BundleCoverage

/-- What happens to a page. -/
inductive PageEvent where
  /-- Coverage is started. -/
  | start (resetOnNavigation : Bool)
  /-- The test runs. -/
  | test
  /-- Coverage is stopped. -/
  | stop
deriving Repr, DecidableEq, Inhabited

/-- A page of a browser. -/
structure Page where
  /-- What starting coverage leads to. -/
  startReply : (resetOnNavigation : Bool) → Except Error Unit
  /-- What stopping coverage leads to: the scripts that were seen. -/
  stopReply : Except Error (List BrowserScript)
  /-- What happened to the page, in order. -/
  events : List PageEvent := []

/-- A page to which something more happened. -/
def Page.add (p : Page) (e : PageEvent) : Page := { p with events := p.events ++ [e] }

/-- Takes the coverage of pages. -/
structure Recorder where
  /-- Where documents are written. -/
  cache : Cache
  /-- The scripts in scope. -/
  scope : ClientScope
  /-- Whether the coverage of a page that was left is dropped. -/
  resetOnNavigation : Bool := false

namespace Recorder

/-- A recorder with the scope of a filter. -/
def ofFilter (cache : Cache) (filter : ClientFilter) (resetOnNavigation : Bool) :
    Except Error Recorder := do
  return { cache, scope := ← filter.compile, resetOnNavigation }

/-- A recorder by some options. -/
def ofOptions (o : Options) (resetOnNavigation : Bool) : Except Error Recorder :=
  ofFilter ⟨o.cacheDirectory⟩ o.client resetOnNavigation

/-- The entries of the scripts in scope. -/
def inScope (r : Recorder) (scripts : List BrowserScript) : List Entry :=
  (scripts.filter (r.scope.accepts ·.url)).map (·.entry)

/-- Starts coverage on a page.  Says whether it is running. -/
def start (r : Recorder) (page : Page) : Page × Bool :=
  (page.add (.start r.resetOnNavigation), (page.startReply r.resetOnNavigation).toBool)

/-- Writes the scripts in scope as the document of a test.  Gives its path, if there were
any. -/
def write (r : Recorder) (test : TestIdentity) (scripts : List BrowserScript) (d : Disk) :
    Disk × Except Error (Option String) :=
  match r.inScope scripts with
  | [] => (d, .ok none)
  | entries =>
    let (d, result) := r.cache.writeClient d test entries
    (d, result.map some)

/-- Stops coverage on a page and writes what is in scope. -/
def finish (r : Recorder) (page : Page) (test : TestIdentity) (d : Disk) :
    Page × Disk × Except Error (Option String) :=
  let stopped := page.add .stop
  match page.stopReply with
  | .error _ => (stopped, d, .ok none)
  | .ok scripts => (stopped, r.write test scripts d)

/-- Runs a test with coverage around it.  Gives the outcome of the test. -/
def record {α : Type} (r : Recorder) (page : Page) (test : TestIdentity)
    (body : Disk → Disk × α) (d : Disk) : Page × Disk × α :=
  let (page, started) := r.start page
  let page := page.add .test
  let (d, outcome) := body d
  if started then
    let (page, d, _) := r.finish page test d
    (page, d, outcome)
  else (page, d, outcome)

end Recorder

end BundleCoverage
