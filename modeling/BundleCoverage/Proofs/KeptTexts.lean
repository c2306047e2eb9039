import BundleCoverage.Proofs.Calls
import BundleCoverage.Proofs.FirstSeen
import BundleCoverage.Proofs.Growth
import BundleCoverage.Proofs.Outcomes

/-!
# Which texts are kept

What a call touches is read off the disk, the script and its map (`Merger.touched`): seeding touches
each seed, a script without a map is its own source, and through a map an entry touches the sources
of the mappings that are counted, and of the ranges of its functions and their blocks.

The record of a source keeps the first text that a call brings for it (`Merger.text?_performAll`).
But a call brings no text unless it comes with the first touch of the source, even if a later touch
in the same call knows one (`Share.text_ofFindings`).
-/

namespace BundleCoverage

open SourceMap

/-! ## The first of some answers -/

section FirstAnswer

variable {α β : Type} {f g : α → Option β}

theorem findSome?_eq_none_of_le (hfg : ∀ a b, f a = some b → g a = some b) {xs : List α}
    (h : xs.findSome? g = none) : xs.findSome? f = none := by
  rw [List.findSome?_eq_none_iff] at h ⊢
  intro a ha
  rw [← Option.not_isSome_iff_eq_none, Option.isSome_iff_exists]
  rintro ⟨b, hb⟩
  have hanswer := hfg a b hb
  rw [h a ha] at hanswer
  cases hanswer

/-- If the answers of one function are among those of another, both give the same first answer all
along a list just when they agree wherever the second one answers first. -/
theorem findSome?_take_eq_iff (hfg : ∀ a b, f a = some b → g a = some b) (xs : List α) :
    (∀ n, (xs.take n).findSome? f = (xs.take n).findSome? g) ↔
      ∀ before a after, xs = before ++ a :: after → before.findSome? g = none → f a = g a := by
  constructor
  · intro h before a after hxs hnone
    have htake : xs.take (before.length + 1) = before ++ [a] := by
      rw [hxs, List.append_cons]
      exact List.take_left' (by simp)
    have hfirst := h (before.length + 1)
    rw [htake, List.findSome?_append, List.findSome?_append, hnone,
      findSome?_eq_none_of_le hfg hnone] at hfirst
    simpa using hfirst
  · intro h n
    -- the second function answers first at some member, and before it neither one answers
    cases hg : (xs.take n).findSome? g with
    | none => exact findSome?_eq_none_of_le hfg hg
    | some b =>
        obtain ⟨before, a, after, hsplit, hanswer, hnone⟩ := List.findSome?_eq_some_iff.1 hg
        have hbefore : before.findSome? g = none := List.findSome?_eq_none_iff.2 hnone
        have hxs : xs = before ++ a :: (after ++ xs.drop n) := by
          rw [← List.cons_append, ← List.append_assoc, ← hsplit, List.take_append_drop]
        have hagree := h before a _ hxs hbefore
        rw [hsplit, List.findSome?_append, findSome?_eq_none_of_le hfg hbefore,
          List.findSome?_cons, hagree, hanswer]
        rfl

theorem findSome?_flatten (xss : List (List α)) :
    xss.flatten.findSome? f = xss.findSome? (·.findSome? f) := by
  induction xss with
  | nil => rfl
  | cons xs xss ih =>
      rw [List.flatten_cons, List.findSome?_append, List.findSome?_cons, ih]
      cases xs.findSome? f <;> rfl

end FirstAnswer

/-! ## What an entry touches -/

namespace OffsetMapper

/-- A source in scope, with its text if the map holds it. -/
def sourceText? (m : OffsetMapper) (filter : SourceFilter) (index : Nat) : Option SourceText :=
  (m.pathInScope? filter index).map fun path => ⟨path, m.map.sourceContent? index⟩

/-- The indices of the sources that an entry touches, in order: those of the mappings that are
counted, and for each function those of its own range and of its blocks. -/
def touchedIndices (m : OffsetMapper) (e : Entry) : List Nat :=
  let counts := CountIndex.ofRanges e.ranges
  (m.segments.filter fun s => (counts.countAt s.offset).isSome).map (·.original.sourceIndex)
    ++ e.functions.flatMap fun f =>
      ((f.ownRange? m.lines.length).toList ++ f.blocks).filterMap fun r =>
        (m.span? r).map (·.start.sourceIndex)

end OffsetMapper

/-- The sources that an entry touches, each with the text that the touch brings, in order. -/
def ResolvedScript.touched (s : ResolvedScript) (filter : SourceFilter) (e : Entry) :
    List SourceText :=
  match s.mapper? with
  | some m => (m.touchedIndices e).filterMap (m.sourceText? filter)
  | none => if filter.includes s.path then [⟨s.path, some s.code⟩] else []

namespace Merger

/-- The sources that a call touches, each with the text that the touch brings, in order. -/
def touched (m : Merger) : Call → List SourceText
  | .seed d projectRoot sourceRoot =>
    (Seed.ofProject d m.filter projectRoot sourceRoot).map fun s => ⟨s.path, some s.text⟩
  | .add d e =>
    if e.hasRanges then (m.resolver.script? d e).elim [] (·.touched m.filter e) else []

/-- The sources that some calls touch, call by call. -/
def touchedAll : Merger → List Call → List (List SourceText)
  | _, [] => []
  | m, c :: calls => m.touched c :: (m.perform c).touchedAll calls

end Merger

/-! ## What findings are about -/

/-- The source of a finding. -/
def Finding.source (f : Finding) : SourceText := ⟨f.path, f.text⟩

/-- The source of a spot. -/
def Spot.source (s : Spot) : SourceText := ⟨s.path, s.text⟩

/-- A function tells about the sources of its own range and of its blocks. -/
theorem FunctionCoverage.map_source_findings (f : FunctionCoverage) (codeLength : Nat)
    (spot? : CoverageRange → Option Spot) :
    (f.findings codeLength spot?).map (·.source)
      = ((f.ownRange? codeLength).toList ++ f.blocks).filterMap fun r =>
          (spot? r).map (·.source) := by
  rw [← List.filterMap_eq_map, filterMap_findings, List.filterMap_append, filterMap_toList]
  congr 1
  · simp only [Option.map_eq_bind]
    rfl
  · simp only [Option.map_eq_bind]
    rfl

namespace OffsetMapper

variable (m : OffsetMapper) (filter : SourceFilter)

theorem source_lineFinding? (counts : CountIndex) (s : MappedSegment) :
    (m.lineFinding? filter counts s).map (·.source)
      = if (counts.countAt s.offset).isSome then m.sourceText? filter s.original.sourceIndex
        else none := by
  rw [lineFinding?, sourceText?]
  cases counts.countAt s.offset with
  | none => rfl
  | some count =>
      cases hpath : m.pathInScope? filter s.original.sourceIndex with
      | none => simp [hpath]
      | some path => simp [hpath, Finding.source]

theorem source_spot? (r : CoverageRange) :
    (m.spot? filter r).map (·.source)
      = ((m.span? r).map (·.start.sourceIndex)).bind (m.sourceText? filter) := by
  rw [spot?]
  cases m.span? r with
  | none => rfl
  | some span =>
      cases hpath : m.pathInScope? filter span.start.sourceIndex with
      | none => simp [sourceText?, hpath]
      | some path => simp [sourceText?, hpath, Spot.source]

/-- Through a map, an entry tells about the sources it touches, and in this order. -/
theorem map_source_findings (e : Entry) :
    (m.findings filter e).map (·.source)
      = (m.touchedIndices e).filterMap (m.sourceText? filter) := by
  rw [findings, touchedIndices, List.map_append, List.filterMap_append]
  congr 1
  · rw [List.map_filterMap, List.filterMap_map, List.filterMap_filter]
    exact List.filterMap_congr fun s _ => m.source_lineFinding? filter _ s
  · rw [List.map_flatMap, List.filterMap_flatMap]
    refine List.flatMap_congr fun f _ => ?_
    rw [f.map_source_findings, List.filterMap_filterMap]
    exact List.filterMap_congr fun r _ => m.source_spot? filter r

end OffsetMapper

namespace ResolvedScript

variable (s : ResolvedScript) (filter : SourceFilter) (e : Entry) (path : String)

/-- A script without a map tells about itself. -/
theorem source_of_mem_ownFindings {f : Finding} (h : f ∈ s.ownFindings e) :
    f.source = ⟨s.path, some s.code⟩ := by
  rw [ownFindings, List.mem_append, List.mem_cons, List.mem_filterMap, List.mem_flatMap] at h
  rcases h with (rfl | ⟨l, -, hline⟩) | ⟨g, -, hf⟩
  · rfl
  · simp only [ownLine?, Option.bind_eq_bind, Option.bind_eq_some_iff] at hline
    obtain ⟨offset, -, count, -, hfinding⟩ := hline
    cases hfinding
    rfl
  · obtain ⟨r, spot, hspot, rfl | rfl⟩ := FunctionCoverage.mem_findings hf
    · cases hspot
      rfl
    · cases hspot
      rfl

theorem textAt?_of_forall_eq {texts : List SourceText} {t : SourceText}
    (h : ∀ s ∈ texts, s = t) (hne : texts ≠ []) : textAt? path texts = textAt? path [t] := by
  obtain ⟨first, rest, rfl⟩ := List.exists_cons_of_ne_nil hne
  obtain rfl : first = t := h first (List.mem_cons_self ..)
  rw [textAt?_cons, textAt?_cons]
  by_cases hpath : first.path = path
  · rw [if_pos hpath, if_pos hpath]
  · rw [if_neg hpath, if_neg hpath, textAt?, textAt?, List.find?_nil]
    have hnone : rest.find? (·.path = path) = none := by
      rw [List.find?_eq_none]
      intro s hs
      rw [h s (List.mem_cons_of_mem _ hs)]
      simpa using hpath
    rw [hnone]

/-- The first finding about a source comes with the text that the first touch brings. -/
theorem textAt?_findings :
    textAt? path ((s.findings filter e).map (·.source)) = textAt? path (s.touched filter e) := by
  rw [findings, touched]
  cases s.mapper? with
  | some m => rw [m.map_source_findings]
  | none =>
      by_cases hscope : filter.includes s.path = true
      · simp only [if_pos hscope]
        refine textAt?_of_forall_eq path ?_ (by simp [ownFindings])
        intro t ht
        obtain ⟨f, hf, rfl⟩ := List.mem_map.1 ht
        exact s.source_of_mem_ownFindings e hf
      · simp only [if_neg hscope]
        rfl

end ResolvedScript

theorem Merger.textAt?_found (m : Merger) (d : Disk) (e : Entry) (path : String) :
    textAt? path ((m.found d e).map (·.source)) = textAt? path (m.touched (.add d e)) := by
  rw [found, touched]
  split
  · cases m.resolver.script? d e with
    | none => rfl
    | some s => exact s.textAt?_findings m.filter e path
  · rfl

/-! ## What a record keeps -/

namespace FileRecord

variable (f : FileRecord)

theorem text_addLines (s : Share) : (f.addLines s).text = f.text := by
  refine foldl_frame _ text _ ?_ f
  intros
  rfl

theorem text_addCalls (s : Share) : (f.addCalls s).text = f.text := by
  refine foldl_frame _ text _ ?_ f
  intros
  rfl

theorem text_addBlocks (s : Share) : (f.addBlocks s).text = f.text := by
  refine foldl_frame _ text _ ?_ f
  intros
  rfl

/-- A record keeps its text, or takes that of a share. -/
theorem text_addShare (s : Share) : (f.addShare s).text = f.text.or s.text := by
  rw [addShare_eq, text_addBlocks, text_addCalls, text_addLines]
  cases f.text <;> rfl

/-- A record keeps its text, or takes that of a seed. -/
theorem text_addSeed (s : Seed) : (f.addSeed s).text = f.text.or (some s.text) := by
  have hlines : ((codeLines s.text).foldl
      (fun f l => f.addStatement l.line (.onLine l.line l.start l.stop) 0) f).text = f.text := by
    refine foldl_frame _ text _ ?_ f
    intros
    rfl
  rw [addSeed, hlines]
  cases f.text <;> rfl

end FileRecord

namespace Share

theorem text_observe (s : Share) (o : Observation) : (s.observe o).text = s.text := by
  cases o <;> rfl

/-- More findings do not change the text of a share. -/
theorem text_foldl_observing (findings : List Finding) (s : Share) :
    (findings.foldl observing (some s)).bind (·.text) = s.text := by
  induction findings generalizing s with
  | nil => rfl
  | cons f findings ih => rw [List.foldl_cons, observing, ih, Option.getD_some, text_observe]

/-- The share of a source has the text that comes with the first finding about it. -/
theorem text_ofFindings (findings : List Finding) (path : String) :
    (ofFindings findings)[path]?.bind (·.text) = textAt? path (findings.map (·.source)) := by
  have hfind : (findings.map (·.source)).find? (·.path = path)
      = ((findings.filter (·.path = path)).head?).map (·.source) := by
    rw [List.find?_map, List.head?_filter]
    rfl
  rw [getElem?_ofFindings, textAt?, hfind]
  cases findings.filter (·.path = path) with
  | nil => rfl
  | cons f rest =>
      rw [List.foldl_cons, observing, text_foldl_observing, Option.getD_none, text_observe]
      rfl

end Share

namespace CoverageMap

/-- The text that a map keeps of a source. -/
def text? (m : CoverageMap) (path : String) : Option String := (m.get? path).bind (·.text)

theorem text?_addFindings (m : CoverageMap) (findings : List Finding) (path : String) :
    (m.addFindings findings).text? path
      = (m.text? path).or (textAt? path (findings.map (·.source))) := by
  rw [text?, text?, addFindings, get?_addShares, ← Share.text_ofFindings]
  cases (Share.ofFindings findings)[path]? with
  | none => simp
  | some s =>
      rw [Option.elim_some, Option.bind_some, FileRecord.text_addShare, Option.bind_some]
      cases m.get? path <;> rfl

theorem text?_addSeed (m : CoverageMap) (s : Seed) (path : String) :
    (m.addSeed s).text? path
      = (m.text? path).or (if s.path = path then some s.text else none) := by
  rw [text?, text?, addSeed, get?_update]
  by_cases hpath : s.path = path
  · subst hpath
    rw [if_pos rfl, if_pos rfl, Option.bind_some, FileRecord.text_addSeed]
    cases m.get? s.path <;> rfl
  · rw [if_neg hpath, if_neg hpath, Option.or_none]

theorem text?_foldl_addSeed (seeds : List Seed) (m : CoverageMap) (path : String) :
    (seeds.foldl addSeed m).text? path
      = (m.text? path).or (textAt? path (seeds.map fun s => ⟨s.path, some s.text⟩)) := by
  induction seeds generalizing m with
  | nil => exact Option.or_none.symm
  | cons s seeds ih =>
      rw [List.foldl_cons, ih, text?_addSeed, List.map_cons, textAt?_cons, Option.or_assoc]
      by_cases hpath : s.path = path
      · rw [if_pos hpath, if_pos hpath]
        rfl
      · rw [if_neg hpath, if_neg hpath, Option.none_or]

end CoverageMap

namespace Merger

/-- A call brings the text of its first touch of a source, if there is none yet. -/
theorem text?_perform (m : Merger) (c : Call) (path : String) :
    (m.perform c).map.text? path = (m.map.text? path).or (textAt? path (m.touched c)) := by
  cases c with
  | seed d projectRoot sourceRoot => exact CoverageMap.text?_foldl_addSeed _ m.map path
  | add d e =>
      rw [perform, add_found, ← textAt?_found]
      exact m.map.text?_addFindings _ path

/-- A run keeps the first text that a call brings. -/
theorem text?_performAll (m : Merger) (calls : List Call) (path : String) :
    (m.performAll calls).map.text? path
      = (m.map.text? path).or ((m.touchedAll calls).findSome? (textAt? path)) := by
  induction calls generalizing m with
  | nil => exact Option.or_none.symm
  | cons c calls ih =>
      rw [performAll, List.foldl_cons, touchedAll, List.findSome?_cons]
      refine (ih (m.perform c)).trans ?_
      rw [text?_perform, Option.or_assoc]
      cases textAt? path (m.touched c) <;> rfl

theorem touchedAll_append (m : Merger) (calls later : List Call) :
    m.touchedAll (calls ++ later) = m.touchedAll calls ++ (m.performAll calls).touchedAll later := by
  induction calls generalizing m with
  | nil => rfl
  | cons c calls ih =>
      rw [List.cons_append, touchedAll, touchedAll, ih, List.cons_append]
      rfl

/-- What was touched at some point was touched by the call made then. -/
theorem exists_of_touchedAll_eq {m : Merger} {calls : List Call} {before after : List (List SourceText)}
    {touches : List SourceText} (h : m.touchedAll calls = before ++ touches :: after) :
    ∃ past c later, calls = past ++ c :: later ∧ m.touchedAll past = before ∧
      (m.performAll past).touched c = touches := by
  induction before generalizing m calls with
  | nil =>
      cases calls with
      | nil => cases h
      | cons c later =>
          obtain ⟨hfirst, -⟩ := List.cons_eq_cons.1 h
          exact ⟨[], c, later, rfl, rfl, hfirst⟩
  | cons first before ih =>
      cases calls with
      | nil => cases h
      | cons c calls =>
          obtain ⟨hfirst, hrest⟩ := List.cons_eq_cons.1 h
          obtain ⟨past, c', later, rfl, hpast, htouches⟩ := ih hrest
          exact ⟨c :: past, c', later, rfl, by rw [touchedAll, hfirst, hpast], htouches⟩

theorem touchedAll_take (m : Merger) (calls : List Call) (n : Nat) :
    m.touchedAll (calls.take n) = (m.touchedAll calls).take n := by
  induction calls generalizing m n with
  | nil => simp [touchedAll]
  | cons c calls ih =>
      cases n with
      | zero => rfl
      | succ n => rw [List.take_succ_cons, touchedAll, touchedAll, List.take_succ_cons, ih]

/-! ## The first text that is known -/

/-- The text that comes with the first touch of a source is the first one. -/
theorem firstText?_of_textAt? {path text : String} {texts : List SourceText}
    (h : textAt? path texts = some text) : firstText? texts path = some text := by
  induction texts with
  | nil => cases h
  | cons t rest ih =>
      rw [textAt?_cons] at h
      rw [firstText?, List.findSome?_cons]
      by_cases hpath : t.path = path
      · rw [if_pos hpath] at h
        rw [if_pos hpath, h]
      · rw [if_neg hpath] at h
        rw [if_neg hpath]
        exact ih h

/-- Whether the text of a source is the first one that any touch brought, all along some calls. -/
def KeepsFirstText (m : Merger) (calls : List Call) (path : String) : Prop :=
  ∀ n, (m.performAll (calls.take n)).map.text? path
    = firstText? (m.touchedAll (calls.take n)).flatten path

/-- The first text is kept all along some calls just when, of each call before which none was known,
a touch that brings one is not preceded by a touch of the source without a text. -/
theorem keepsFirstText_iff (buildDirectory : String) (filter : SourceFilter) (calls : List Call)
    (path : String) :
    (new buildDirectory filter).KeepsFirstText calls path ↔
      ∀ past c later, calls = past ++ c :: later →
        firstText? ((new buildDirectory filter).touchedAll past).flatten path = none →
        textAt? path (((new buildDirectory filter).performAll past).touched c)
          = firstText? (((new buildDirectory filter).performAll past).touched c) path := by
  have hnew : (new buildDirectory filter).map.text? path = none := by
    simp [new, CoverageMap.text?, CoverageMap.get?]
  generalize new buildDirectory filter = m at *
  have hkeeps : m.KeepsFirstText calls path ↔ ∀ n,
      ((m.touchedAll calls).take n).findSome? (textAt? path)
        = ((m.touchedAll calls).take n).findSome? (firstText? · path) := by
    refine forall_congr' fun n => ?_
    rw [text?_performAll, hnew, Option.none_or, touchedAll_take, firstText?, findSome?_flatten]
    rfl
  -- call by call, the text of the first touch is one that some touch brings
  rw [hkeeps, findSome?_take_eq_iff fun _ _ => firstText?_of_textAt?]
  constructor
  · rintro h past c later rfl hnone
    rw [firstText?, findSome?_flatten] at hnone
    refine h _ _ (((m.performAll past).perform c).touchedAll later) ?_ hnone
    rw [touchedAll_append, touchedAll]
  · intro h before touches after hsplit hnone
    obtain ⟨past, c, later, hcalls, rfl, rfl⟩ := exists_of_touchedAll_eq hsplit
    refine h past c later hcalls ?_
    rw [firstText?, findSome?_flatten]
    exact hnone

end Merger

/-! ## A source that is listed twice -/

/-- Mappings that are in order stay as they are. -/
theorem SourceMap.MappingTable.ofLines_eq {lines : Lines}
    (h : (streamFrom 0 lines).Pairwise fun a b => a.le b) :
    ofLines lines = ⟨streamFrom 0 lines, h⟩ := by
  simp [ofLines, List.mergeSort_of_pairwise h]

/-- A map that lists a source twice, and has its text the second time only. -/
def SourceMap.twiceListed : SourceMap :=
  { sources := ["src/a.ts", "./src/a.ts"]
    sourcesContent := [none, some "f();"]
    mappings := "AAAA;ACAI" }

/-- The mappings of the map. -/
def SourceMap.twiceListedLines : Lines := [[⟨0, some ⟨0, 0, 0, none⟩⟩], [⟨0, some ⟨1, 0, 4, none⟩⟩]]

theorem SourceMap.pairwise_twiceListedLines :
    (streamFrom 0 twiceListedLines).Pairwise fun a b => a.le b := by decide

/-- A disk with the map next to the script `p.js`. -/
def Disk.withTwiceListed : Disk :=
  { nodes := .ofList [(["p.js.map"], Node.file (Text.Utf8.encode
      ("\x7b\"version\":3,\"sources\":[\"src/a.ts\",\"./src/a.ts\"],"
        ++ "\"sourcesContent\":[null,\"f();\"],\"mappings\":\"AAAA;ACAI\"\x7d")))] }

/-- An entry of the script. -/
def Entry.twoLines : Entry :=
  { url := "p.js", source := some "f();\nf();", functions := [{ ranges := [⟨0, 9, 1⟩] }] }

theorem Entry.resolve?_twoLines :
    Entry.twoLines.resolve? .withTwiceListed ".next" =
      some
        { url := "p.js"
          code := "f();\nf();"
          readMap := some ⟨twiceListed, ⟨_, pairwise_twiceListedLines⟩⟩ } := by
  have hcode : Entry.twoLines.code? .withTwiceListed ".next" = some "f();\nf();" := by decide
  have hmap : (MapLookup.ofScript .withTwiceListed ".next" Entry.twoLines.url "f();\nf();").map?
      = some twiceListed := by
    decide +kernel
  have hlines : (decode twiceListed.mappings).toOption = some twiceListedLines := by
    decide +kernel
  have htable : twiceListed.mappingTable = .ok ⟨_, pairwise_twiceListedLines⟩ := by
    rw [mappingTable, MappingTable.parse, toOption_eq_some_iff.1 hlines,
      ← MappingTable.ofLines_eq]
    rfl
  rw [Entry.resolve?, hcode, Option.map_some, hmap, Option.bind_some, ReadMap.ofMap?, htable]
  rfl

namespace Merger

theorem touchedAll_twoLines :
    (new ".next" .everything).touchedAll [.add .withTwiceListed .twoLines]
      = [[⟨"src/a.ts", none⟩, ⟨"src/a.ts", some "f();"⟩]] := by
  have hscript : (new ".next" .everything).resolver.script? .withTwiceListed .twoLines
      = Entry.twoLines.resolve? .withTwiceListed ".next" := by
    simp [new, Resolver.script?]
  rw [touchedAll, touchedAll, touched, if_pos (by decide), hscript, Entry.resolve?_twoLines,
    Option.elim_some]
  decide +kernel

/-- The text that the second touch brings is passed over. -/
theorem text_passed_over :
    ¬∀ (buildDirectory : String) (filter : SourceFilter) (calls : List Call) (path text : String),
      firstText? ((new buildDirectory filter).touchedAll calls).flatten path = some text →
        ((new buildDirectory filter).performAll calls).map.text? path = some text := by
  intro h
  have hkept := h ".next" .everything [.add .withTwiceListed .twoLines] "src/a.ts" "f();"
    (by rw [touchedAll_twoLines]; rfl)
  rw [text?_performAll, touchedAll_twoLines] at hkept
  simp [new, CoverageMap.text?, CoverageMap.get?, textAt?] at hkept

end Merger

end BundleCoverage
