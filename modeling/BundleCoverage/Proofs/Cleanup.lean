import BundleCoverage.Proofs.Retrying

/-!
# Reports after the cache is removed

Removing the cache removes all that lies at its place or below.  So the reports of a run survive
if and only if neither the output directory nor a place on the way to it lies there
(`Run.reportsSurvive_iff`).  Options are valid as soon as the output directory is not the project
root, so a cache that holds the output directory is accepted, and the reports that were just made
are removed with it (`Run.reports_removed_with_cache`).
-/

namespace BundleCoverage

open Std

/-! ## Removing a directory -/

namespace Disk

variable {d : Disk} {place : Place} (hplace : place ≠ [])

include hplace

theorem node?_removeAt (s : Place) :
    (d.removeAt place).node? s = if place <+: s then none else d.node? s := by
  unfold removeAt node?
  by_cases hs : s = []
  · subst hs
    rw [if_pos rfl, if_pos rfl, if_neg (by simpa using hplace)]
  · rw [if_neg hs, if_neg hs, ExtTreeMap.getElem?_filter']
    by_cases hbelow : place <+: s
    · rw [if_pos hbelow, List.isPrefixOf_iff_prefix.2 hbelow]
      cases d.nodes[s]? <;> rfl
    · have hnot : place.isPrefixOf s = false := by
        rw [← Bool.not_eq_true, List.isPrefixOf_iff_prefix]
        exact hbelow
      rw [if_neg hbelow, hnot]
      cases d.nodes[s]? <;> rfl

theorem node?_removeAt_eq_some_iff {s : Place} {node : Node} :
    (d.removeAt place).node? s = some node ↔ d.node? s = some node ∧ ¬place <+: s := by
  rw [node?_removeAt hplace]
  split
  · next hbelow => simp [hbelow]
  · next hbelow => simp [hbelow]

/-- What remains of a directory are the paths that keep clear of the place. -/
theorem opens_removeAt {path : String} :
    (d.removeAt place).Opens path ↔
      d.Opens path ∧ ∀ s ∈ d.target path :: d.stops path, ¬place <+: s := by
  have htarget : (d.removeAt place).target path = d.target path := rfl
  have hstops : (d.removeAt place).stops path = d.stops path := rfl
  unfold Opens
  rw [htarget, hstops, and_assoc]
  refine and_congr_right fun _ => ?_
  simp only [node?_removeAt_eq_some_iff hplace, forall_and]

end Disk

theorem Disk.removeDirectory_of_opens {d : Disk} {path : String} (hpath : path ≠ "")
    (h : d.Opens path) :
    (d.removeDirectory path).2 = .error .unusable ∨
      d.target path ≠ [] ∧ d.removeDirectory path = (d.removeAt (d.target path), .ok ()) := by
  have hlocate : d.locate path = .ok (d.target path) :=
    locate_eq_ok_iff.2 ⟨⟨hpath, h.1⟩, (List.forall_mem_cons.1 h.2).2, rfl⟩
  unfold removeDirectory
  rw [hlocate]
  dsimp only
  rw [h.target]
  dsimp only
  split
  · exact .inl rfl
  · next hlast => exact .inr ⟨fun hroot => hlast (by simp [hroot]), rfl⟩

/-- A directory that is there is removed, unless this fails. -/
theorem Cache.clean_of_opens {c : Cache} {d : Disk} (hc : c.directory ≠ "")
    (h : d.Opens c.directory) {removed : Bool} (hok : (c.clean d).2 = .ok removed) :
    d.target c.directory ≠ [] ∧ (c.clean d).1 = d.removeAt (d.target c.directory) := by
  unfold clean at hok ⊢
  rcases Disk.removeDirectory_of_opens hc h with hfault | ⟨hroot, heq⟩
  · match d.removeDirectory c.directory, hfault, hok with
    | (_, _), hfault, hok =>
        obtain rfl : _ = Except.error DiskFault.unusable := hfault
        cases hok
  · rw [heq]
    exact ⟨hroot, rfl⟩

/-! ## Reports -/

namespace Run

variable {r : Run} {h : Host} {report : Report}

/-- Whether all reports that a run wrote are where they were written. -/
def ReportsSurvive (r : Run) (report : Report) (d : Disk) : Prop :=
  ∀ path ∈ report.written, Reporter.IsReport report.map r.options.outputDirectory d path

/-- Whether neither the output directory nor a place on the way to it lies in the cache. -/
def CacheApart (r : Run) (d : Disk) : Prop :=
  ∀ s ∈ d.target r.options.outputDirectory :: d.stops r.options.outputDirectory,
    ¬d.target r.cache.directory <+: s

/-- A run with a report found a cache. -/
theorem opens_of_run (hreport : (r.run h).2 = .ok (some report)) :
    r.cache.directory ≠ "" ∧ h.disk.Opens r.cache.directory := by
  rcases r.run_cases h with ⟨e, -, -, herror⟩ | ⟨contents, h', hload, -, heq⟩
  · rw [herror] at hreport
    cases hreport
  · cases hlist : h.disk.list r.cache.directory with
    | error e =>
        cases e with
        | notFound =>
            rw [Cache.load_of_notFound hlist] at hload
            cases hload
            rw [heq] at hreport
            cases hreport
        | unusable =>
            rw [Cache.load_of_unusable hlist] at hload
            cases hload
    | ok names =>
        have hc : r.cache.directory ≠ "" := by
          intro hc
          rw [hc] at hlist
          cases hlist
        obtain ⟨p, hp, hnode, -⟩ := Disk.exists_of_list_eq_ok hlist
        exact ⟨hc, (Disk.opens_iff hc).2 ⟨p, hp, hnode⟩⟩

theorem reportsSurvive_run (hr : r.registry = .builtin)
    (hreport : (r.run h).2 = .ok (some report)) : r.ReportsSurvive report (r.run h).1.disk := by
  rcases r.run_cases h with ⟨e, -, -, herror⟩ | ⟨contents, h', -, -, heq⟩
  · rw [herror] at hreport
    cases hreport
  · rw [heq] at hreport ⊢
    exact isReport_report hr hreport

/-- Reports survive the removal of a place that holds no part of the way to them. -/
theorem reportsSurvive_removeAt_iff {d : Disk} {place : Place} (hroot : place ≠ [])
    (hplace : d.node? place = some .directory) (hsurvive : r.ReportsSurvive report d) :
    r.ReportsSurvive report (d.removeAt place) ↔ report.written = [] ∨
      ∀ s ∈ d.target r.options.outputDirectory :: d.stops r.options.outputDirectory,
        ¬place <+: s := by
  constructor
  · intro hremoved
    cases hwritten : report.written with
    | nil => exact .inl rfl
    | cons path written =>
        obtain ⟨file, hfile, rfl, hread⟩ := hremoved path (by simp [hwritten])
        have hopens := ((Disk.read_join (Reporter.isName_of_mem_files hfile)).1 hread).1
        exact .inr ((Disk.opens_removeAt hroot).1 hopens).2
  · rintro (hnone | hapart) path hpath
    · rw [hnone] at hpath
      cases hpath
    · obtain ⟨file, hfile, rfl, hread⟩ := hsurvive path hpath
      have hname := Reporter.isName_of_mem_files hfile
      obtain ⟨hopens, hnode⟩ := (Disk.read_join hname).1 hread
      have hopens' : (d.removeAt place).Opens r.options.outputDirectory :=
        (Disk.opens_removeAt hroot).2 ⟨hopens, hapart⟩
      -- the report is no directory, so the place would hold the output directory
      have hnot : ¬place <+: d.target r.options.outputDirectory ++ [file.1] := by
        intro hbelow
        rcases List.prefix_concat_iff.1 hbelow with heq | hbelow
        · rw [heq, hnode] at hplace
          cases hplace
        · exact hapart _ (List.mem_cons_self ..) hbelow
      have hnode' := (Disk.node?_removeAt_eq_some_iff hroot).2 ⟨hnode, hnot⟩
      exact ⟨file, hfile, rfl, (Disk.read_join hname).2 ⟨hopens', hnode'⟩⟩

/-- After the cache is removed, the reports survive if and only if they were not in it. -/
theorem reportsSurvive_clean_iff (hr : r.registry = .builtin)
    (hreport : (r.run h).2 = .ok (some report)) {removed : Bool}
    (hclean : (r.cache.clean (r.run h).1.disk).2 = .ok removed) :
    r.ReportsSurvive report (r.cache.clean (r.run h).1.disk).1 ↔
      report.written = [] ∨ r.CacheApart h.disk := by
  have hgrows := grows_run hr h
  obtain ⟨hc, hopens⟩ := opens_of_run hreport
  have hopens' := hgrows.opens hopens
  obtain ⟨hroot, hdisk⟩ := Cache.clean_of_opens hc hopens' hclean
  rw [hdisk, reportsSurvive_removeAt_iff hroot hopens'.target (reportsSurvive_run hr hreport),
    hgrows.target, hgrows.target, hgrows.stops]
  rfl

end Run

/-- A run that gives a report and then removes the cache. -/
theorem Run.runAndCleanUp_of_report {r : Run} {h : Host} {report : Report}
    (hreport : (r.runAndCleanUp h).2 = .ok (some report)) :
    (r.run h).2 = .ok (some report) ∧ ∃ removed, (r.cache.clean (r.run h).1.disk).2 = .ok removed ∧
      (r.runAndCleanUp h).1.disk = (r.cache.clean (r.run h).1.disk).1 := by
  unfold runAndCleanUp at hreport ⊢
  match r.run h, hreport with
  | (h', .ok result), hreport =>
      obtain ⟨removed, hclean, rfl⟩ := map_eq_ok_iff.1 hreport
      exact ⟨rfl, removed, hclean, rfl⟩

/-- The command that gives a report and then removes the cache. -/
theorem CommandLine.merge_of_report (p : Printer) {o : Options} {h : Host} {report : Report}
    (hreport : (Run.run { options := o } h).2 = .ok (some report))
    (hok : (merge p o false h).2 = .ok ()) :
    ∃ removed,
      (Cache.clean ⟨o.cacheDirectory⟩ (Run.run { options := o } h).1.disk).2 = .ok removed ∧
      (merge p o false h).1.disk
        = (Cache.clean ⟨o.cacheDirectory⟩ (Run.run { options := o } h).1.disk).1 := by
  unfold merge at hok ⊢
  cases hvalid : Run.ofOptions h.disk o with
  | error e =>
      rw [hvalid] at hok
      cases hok
  | ok r =>
      obtain rfl := Run.eq_of_ofOptions hvalid
      rw [hvalid] at hok
      dsimp only at hok ⊢
      match Run.run { options := o } h, hreport, hok with
      | (h', .ok (some report')), _, hok =>
          obtain ⟨_, hclean, -⟩ := map_eq_ok_iff.1 (mapError_eq_ok_iff.1 hok)
          have hdisk : (tell p report' h').disk = h'.disk := by simp [tell]
          rw [← hdisk]
          exact ⟨_, hclean, rfl⟩

/-- The reports that a run has made are still there after the cache was removed if and only if
neither the output directory nor a place on the way to it lies in the cache. -/
theorem Run.reportsSurvive_iff (o : Options) (h : Host) :
    (∀ report, (runAndCleanUp { options := o } h).2 = .ok (some report) →
      (ReportsSurvive { options := o } report (runAndCleanUp { options := o } h).1.disk ↔
        report.written = [] ∨ CacheApart { options := o } h.disk)) ∧
      ∀ (p : CommandLine.Printer) (report : Report),
        (run { options := o } h).2 = .ok (some report) →
        (CommandLine.merge p o false h).2 = .ok () →
          (ReportsSurvive { options := o } report (CommandLine.merge p o false h).1.disk ↔
            report.written = [] ∨ CacheApart { options := o } h.disk) := by
  refine ⟨fun report hreport => ?_, fun p report hreport hok => ?_⟩
  · obtain ⟨hrun, removed, hclean, hdisk⟩ := runAndCleanUp_of_report hreport
    rw [hdisk]
    exact reportsSurvive_clean_iff rfl hrun hclean
  · obtain ⟨removed, hclean, hdisk⟩ := CommandLine.merge_of_report p hreport hok
    rw [hdisk]
    exact reportsSurvive_clean_iff rfl hreport hclean

/-- What a run wrote, read off its result. -/
theorem Run.exists_report {result : Except Error (Option Report)} {written : List String}
    (h : result.map (Option.map Report.written) = .ok (some written)) :
    ∃ report, result = .ok (some report) ∧ report.written = written := by
  obtain ⟨made, rfl, hmade⟩ := map_eq_ok_iff.1 h
  cases made with
  | none => cases hmade
  | some report => exact ⟨report, rfl, Option.some.inj hmade⟩

/-- Reports survive with a cache next to the output directory. -/
theorem Run.reportsSurvive_of_cachedAt :
    ∃ report : Report, report.written = ["out/coverage-final.json"] ∧
      CacheApart { options := .cachedAt "cache" } .cached ∧
      (runAndCleanUp { options := .cachedAt "cache" } { disk := .cached }).2 = .ok (some report) ∧
      ReportsSurvive { options := .cachedAt "cache" } report
        (runAndCleanUp { options := .cachedAt "cache" } { disk := .cached }).1.disk ∧
      (CommandLine.merge {} (.cachedAt "cache") false { disk := .cached }).2 = .ok () ∧
      ReportsSurvive { options := .cachedAt "cache" } report
        (CommandLine.merge {} (.cachedAt "cache") false { disk := .cached }).1.disk := by
  have hok : ((runAndCleanUp { options := .cachedAt "cache" } { disk := .cached }).2.map
      (Option.map Report.written)) = .ok (some ["out/coverage-final.json"]) := by decide +kernel
  obtain ⟨report, hreport, hwritten⟩ := exists_report hok
  have hmerge : (CommandLine.merge {} (.cachedAt "cache") false { disk := .cached }).2 = .ok () :=
    toOption_eq_some_iff.1 (by decide +kernel)
  have hapart : CacheApart { options := .cachedAt "cache" } .cached := by
    rw [CacheApart]
    decide +kernel
  obtain ⟨hclean, hcommand⟩ := reportsSurvive_iff (.cachedAt "cache") { disk := .cached }
  refine ⟨report, hwritten, hapart, hreport, (hclean report hreport).2 (.inr hapart), hmerge, ?_⟩
  exact (hcommand {} report (runAndCleanUp_of_report hreport).1 hmerge).2 (.inr hapart)

/-- A disk with a document in the output directory. -/
def Disk.cachedInOutput : Disk :=
  (Disk.empty.set ["out"] .directory).set ["out", "server-1.json"]
    (.file (Entry.documentBytes [⟨"a.js", none, []⟩]))

/-- The output directory is a valid directory for the cache, and goes with it. -/
theorem Run.reports_removed_with_cache :
    ∃ r report, ofOptions .cachedInOutput (.cachedAt "out") = .ok r ∧
      (r.runAndCleanUp { disk := .cachedInOutput }).2 = .ok (some report) ∧
      report.written = ["out/coverage-final.json"] ∧
      (r.runAndCleanUp { disk := .cachedInOutput }).1.disk.read "out/coverage-final.json"
        = .error .notFound ∧
      ¬ReportsSurvive r report (r.runAndCleanUp { disk := .cachedInOutput }).1.disk := by
  have hvalid : (Options.cachedAt "out").validate .cachedInOutput = .ok () := by decide +kernel
  have hok : ((runAndCleanUp { options := .cachedAt "out" } { disk := .cachedInOutput }).2.map
      (Option.map Report.written)) = .ok (some ["out/coverage-final.json"]) := by decide +kernel
  obtain ⟨report, hreport, hwritten⟩ := exists_report hok
  have hread :
      (runAndCleanUp { options := .cachedAt "out" } { disk := .cachedInOutput }).1.disk.read
        "out/coverage-final.json" = .error .notFound := by decide +kernel
  refine ⟨{ options := .cachedAt "out" }, report, ?_, hreport, hwritten, hread, fun hsurvive => ?_⟩
  · rw [ofOptions, hvalid]
    rfl
  · obtain ⟨file, -, -, hfile⟩ := hsurvive "out/coverage-final.json" (by simp [hwritten])
    rw [hread] at hfile
    cases hfile

end BundleCoverage
