import BundleCoverage.Proofs.Changes
import BundleCoverage.Run

/-!
# Reports on a disk

A reporter of the library only adds to the disk: it makes the output directory and writes its own
file there (`Disk.Grows`, `Reporter.grows_writeDocument`).  What each reporter does to the disk,
all reporters of a run do (`ReporterRegistry.emitAll_induction`), so a run adds no more than the
two report files, whether it succeeds or fails (`Run.grows_report`, `Run.grows_run`).

After reporters that succeeded, each path that they gave is that of a report (`Reporter.IsReport`,
`ReporterRegistry.isReport_of_emitAll`).
-/

namespace BundleCoverage

/-- A disk that grew as a tree. -/
structure Disk.Grows (names : List String) (d d' : Disk) : Prop extends Disk.Adds names d d' where
  wellFormed : d.WellFormed → d'.WellFormed

theorem Disk.Grows.refl (names : List String) (d : Disk) : Disk.Grows names d d :=
  ⟨.refl names d, fun h => h⟩

theorem Disk.Grows.trans {names : List String} {d d' d'' : Disk} (h : Disk.Grows names d d')
    (h' : Disk.Grows names d' d'') : Disk.Grows names d d'' :=
  ⟨h.toAdds.trans h'.toAdds, fun hd => h'.wellFormed (h.wellFormed hd)⟩

namespace Reporter

theorem isName_fullFile : Path.IsName fullFile := by constructor <;> decide

theorem isName_summaryFile : Path.IsName summaryFile := by constructor <;> decide

/-! ## Writing a document -/

section WriteDocument

variable {directory fileName : String} {document : Json} {h : Host}

/-- A document is written, or only directories were made. -/
theorem writeDocument_cases (directory fileName : String) (document : Json) (h : Host) :
    (∃ e, (writeDocument directory fileName document h).2 = .error e ∧
      ((writeDocument directory fileName document h).1.disk = h.disk ∨
        h.disk.makeDirectories directory
          = .ok (writeDocument directory fileName document h).1.disk)) ∨
    ((writeDocument directory fileName document h).2 = .ok (some (Path.join directory fileName)) ∧
      ∃ made, h.disk.makeDirectories directory = .ok made ∧
        made.write (Path.join directory fileName) (Text.Utf8.encode document.compact)
          = .ok (writeDocument directory fileName document h).1.disk) := by
  unfold writeDocument
  cases hmake : h.disk.makeDirectories directory with
  | error e => exact .inl ⟨_, rfl, .inl rfl⟩
  | ok made =>
      dsimp only
      cases hwrite :
          made.write (Path.join directory fileName) (Text.Utf8.encode document.compact) with
      | error e => exact .inl ⟨_, rfl, .inr rfl⟩
      | ok written => exact .inr ⟨rfl, made, rfl, hwrite⟩

theorem grows_writeDocument (hname : Path.IsName fileName) (directory : String) (document : Json)
    (h : Host) :
    Disk.Grows [fileName] h.disk (writeDocument directory fileName document h).1.disk := by
  have hmade {made : Disk} (hmake : h.disk.makeDirectories directory = .ok made) :
      Disk.Grows [fileName] h.disk made :=
    ⟨(Disk.adds_makeDirectories hmake).mono (List.nil_subset _),
      fun hd => (hd.makeDirectories hmake).1⟩
  rcases writeDocument_cases directory fileName document h with
    ⟨-, -, hsame | hmake⟩ | ⟨-, made, hmake, hwrite⟩
  · rw [hsame]
    exact .refl _ _
  · exact hmade hmake
  · obtain ⟨hopens, hnode, hwritten⟩ := (Disk.write_join hname).1 hwrite
    rw [hwritten]
    exact (hmade hmake).trans ⟨Disk.adds_set_file hnode _,
      fun hd => hd.set hname hopens.target fun h => absurd h hnode⟩

end WriteDocument

/-! ## The reporters of the library -/

/-- The files that the reporters of the library write, with what they write there. -/
def files (map : CoverageMap) : List (String × Json) :=
  [(fullFile, map.toJson), (summaryFile, map.summaryJson)]

theorem isName_of_mem_files {map : CoverageMap} {file : String × Json} (h : file ∈ files map) :
    Path.IsName file.1 := by
  rcases List.mem_pair.1 h with rfl | rfl
  · exact isName_fullFile
  · exact isName_summaryFile

theorem eq_of_mem_files {map : CoverageMap} {file other : String × Json} (h : file ∈ files map)
    (hother : other ∈ files map) (hname : file.1 = other.1) : file = other := by
  have hne : fullFile ≠ summaryFile := by decide
  rcases List.mem_pair.1 h with rfl | rfl <;> rcases List.mem_pair.1 hother with rfl | rfl
  · rfl
  · exact absurd hname hne
  · exact absurd hname.symm hne
  · rfl

/-- A reporter of the library writes one of its files, or prints. -/
theorem cases_of_get?_builtin {name : String} {reporter : Reporter}
    (h : ReporterRegistry.builtin.get? name = some reporter) (map : CoverageMap)
    (directory : String) (host : Host) :
    (∃ file ∈ files map, reporter map directory host
      = writeDocument directory file.1 file.2 host) ∨
    reporter map directory host = (host.print map.summary.table, .ok none) := by
  unfold ReporterRegistry.get? ReporterRegistry.builtin ReporterRegistry.register at h
  simp only [Std.ExtTreeMap.getElem?_insert, ReporterRegistry.empty] at h
  split at h
  · obtain rfl := Option.some.inj h
    exact .inr rfl
  · split at h
    · obtain rfl := Option.some.inj h
      exact .inl ⟨_, List.mem_pair.2 (.inr rfl), rfl⟩
    · split at h
      · obtain rfl := Option.some.inj h
        exact .inl ⟨_, List.mem_pair.2 (.inl rfl), rfl⟩
      · simp at h

/-- The names of the files that the reporters of the library write. -/
def fileNames : List String := [fullFile, summaryFile]

theorem grows_of_get?_builtin {name : String} {reporter : Reporter}
    (h : ReporterRegistry.builtin.get? name = some reporter) (map : CoverageMap)
    (directory : String) (host : Host) :
    Disk.Grows fileNames host.disk (reporter map directory host).1.disk := by
  rcases cases_of_get?_builtin h map directory host with ⟨file, hfile, heq⟩ | heq
  · rw [heq]
    have hgrows := grows_writeDocument (isName_of_mem_files hfile) directory file.2 host
    refine ⟨hgrows.toAdds.mono ?_, hgrows.wellFormed⟩
    rcases List.mem_pair.1 hfile with rfl | rfl <;> simp [fileNames]
  · rw [heq]
    exact .refl _ _

/-! ## Reports that were written -/

/-- Whether a path is that of a report of a map, with all that it says. -/
def IsReport (map : CoverageMap) (directory : String) (d : Disk) (path : String) : Prop :=
  ∃ file ∈ files map, path = Path.join directory file.1 ∧
    d.read path = .ok (Text.Utf8.encode file.2.compact)

section IsReport

variable {map : CoverageMap} {directory : String}

theorem isReport_of_writeDocument {file : String × Json} (hfile : file ∈ files map) {h : Host}
    {path : String}
    (hpath : (writeDocument directory file.1 file.2 h).2 = .ok (some path)) :
    IsReport map directory (writeDocument directory file.1 file.2 h).1.disk path := by
  have hname := isName_of_mem_files hfile
  rcases writeDocument_cases directory file.1 file.2 h with ⟨e, herror, -⟩ | ⟨hok, made, -, hwrite⟩
  · rw [herror] at hpath
    cases hpath
  · rw [hok] at hpath
    cases hpath
    exact ⟨file, hfile, rfl, Disk.read_of_write hname hwrite⟩

/-- A report stays as it is when a reporter writes again. -/
theorem IsReport.writeDocument {file : String × Json} (hfile : file ∈ files map) {h : Host}
    {path : String} (hpath : IsReport map directory h.disk path) :
    IsReport map directory (writeDocument directory file.1 file.2 h).1.disk path := by
  have hname := isName_of_mem_files hfile
  obtain ⟨other, hother, rfl, hread⟩ := hpath
  refine ⟨other, hother, rfl, ?_⟩
  by_cases heq : other.1 = file.1
  · obtain rfl := eq_of_mem_files hother hfile heq
    rcases writeDocument_cases directory other.1 other.2 h with
      ⟨-, -, hsame | hmake⟩ | ⟨-, made, -, hwrite⟩
    · rwa [hsame]
    · exact (Disk.adds_makeDirectories hmake).read_join hname List.not_mem_nil hread
    · exact Disk.read_of_write hname hwrite
  · have hgrows := grows_writeDocument hname directory file.2 h
    refine hgrows.read_join (isName_of_mem_files hother) ?_ hread
    rwa [List.mem_singleton]

theorem isReport_of_reporter {name : String} {reporter : Reporter}
    (h : ReporterRegistry.builtin.get? name = some reporter) {host : Host} {path : String}
    (hpath : (reporter map directory host).2 = .ok (some path)) :
    IsReport map directory (reporter map directory host).1.disk path := by
  rcases cases_of_get?_builtin h map directory host with ⟨file, hfile, heq⟩ | heq
  · rw [heq] at hpath ⊢
    exact isReport_of_writeDocument hfile hpath
  · rw [heq] at hpath
    cases hpath

theorem IsReport.reporter {name : String} {reporter : Reporter}
    (h : ReporterRegistry.builtin.get? name = some reporter) {host : Host} {path : String}
    (hpath : IsReport map directory host.disk path) :
    IsReport map directory (reporter map directory host).1.disk path := by
  rcases cases_of_get?_builtin h map directory host with ⟨file, hfile, heq⟩ | heq
  · rw [heq]
    exact hpath.writeDocument hfile
  · rwa [heq]

end IsReport

end Reporter

namespace ReporterRegistry

/-- What holds from step to step of all reporters of a registry holds of a run of them. -/
theorem emitAll_induction {r : ReporterRegistry} {map : CoverageMap} {directory : String}
    {R : Disk → Disk → Prop} (refl : ∀ d, R d d) (trans : ∀ {a b c}, R a b → R b c → R a c)
    (hreporter : ∀ name reporter, r.get? name = some reporter →
      ∀ h : Host, R h.disk (reporter map directory h).1.disk) (names : List String) (h : Host) :
    R h.disk (r.emitAll map directory names h).1.disk := by
  induction names generalizing h with
  | nil => exact refl _
  | cons name names ih =>
      rw [emitAll]
      cases hget : r.get? name with
      | none => exact ih (h.log [.reporterSkipped])
      | some reporter =>
          have hstep := hreporter name reporter hget h
          dsimp only
          match reporter map directory h, hstep with
          | (_, .error _), hstep => exact hstep
          | (h', .ok none), hstep => exact trans hstep (ih h')
          | (h', .ok (some _)), hstep => exact trans hstep (ih (h'.log [.reportWritten]))

section Builtin

variable {map : CoverageMap} {directory : String}

theorem grows_emitAll (names : List String) (h : Host) :
    Disk.Grows Reporter.fileNames h.disk (builtin.emitAll map directory names h).1.disk :=
  emitAll_induction (Disk.Grows.refl _) Disk.Grows.trans
    (fun _ _ hget host => Reporter.grows_of_get?_builtin hget map directory host) names h

/-- Reports stay as they are while others are made. -/
theorem isReport_emitAll (names : List String) {h : Host} {path : String}
    (hpath : Reporter.IsReport map directory h.disk path) :
    Reporter.IsReport map directory (builtin.emitAll map directory names h).1.disk path :=
  emitAll_induction
    (R := fun d d' =>
      Reporter.IsReport map directory d path → Reporter.IsReport map directory d' path)
    (fun _ hpath => hpath) (fun h h' hpath => h' (h hpath))
    (fun _ _ hget _ hpath => hpath.reporter hget) names h hpath

/-- The paths that a run of reporters gives are those of reports. -/
theorem isReport_of_emitAll {names : List String} {h : Host} {written : List String}
    (hwritten : (builtin.emitAll map directory names h).2 = .ok written) :
    ∀ path ∈ written,
      Reporter.IsReport map directory (builtin.emitAll map directory names h).1.disk path := by
  induction names generalizing h written with
  | nil =>
      cases hwritten
      exact List.forall_mem_nil _
  | cons name names ih =>
      rw [emitAll] at hwritten ⊢
      cases hget : builtin.get? name with
      | none =>
          rw [hget] at hwritten
          exact ih hwritten
      | some reporter =>
          rw [hget] at hwritten
          dsimp only at hwritten ⊢
          have hreport : ∀ path, (reporter map directory h).2 = .ok (some path) →
              Reporter.IsReport map directory (reporter map directory h).1.disk path :=
            fun path => Reporter.isReport_of_reporter hget
          match reporter map directory h, hreport, hwritten with
          | (h', .ok none), _, hwritten => exact ih hwritten
          | (h', .ok (some path)), hreport, hwritten =>
              obtain ⟨rest, hrest, rfl⟩ := map_eq_ok_iff.1 hwritten
              refine List.forall_mem_cons.2 ⟨?_, ih hrest⟩
              exact isReport_emitAll names (h := h'.log [.reportWritten]) (hreport path rfl)

end Builtin

end ReporterRegistry

/-! ## Runs -/

namespace Run

variable (r : Run) (hr : r.registry = .builtin)

theorem merge_disk (h : Host) (entries : List Entry) : (r.merge h entries).1.disk = h.disk := by
  unfold merge
  cases r.options.sourceFilter with
  | error e => rfl
  | ok filter =>
      dsimp only
      split <;> rfl

/-- Making the reports of a merge is a run of the reporters. -/
theorem exists_emit_eq (h : Host) (merger : Merger) :
    ∃ h' : Host, h'.disk = h.disk ∧
      (r.emit h merger).1.disk = (r.registry.emitAll merger.map r.options.outputDirectory
        r.options.reporters h').1.disk ∧
      (r.emit h merger).2 = (r.registry.emitAll merger.map r.options.outputDirectory
        r.options.reporters h').2.map fun written =>
          ⟨merger.map, merger.map.summary, written, merger.stats⟩ := by
  refine ⟨if merger.map.isEmpty then h.log [.mergedNothing] else h, by split <;> rfl, ?_⟩
  unfold emit
  dsimp only
  split
  · next hresult =>
    rw [hresult]
    exact ⟨rfl, rfl⟩
  · next hresult =>
    rw [hresult]
    exact ⟨rfl, rfl⟩

/-- A run of some entries makes the reports of a merge, or leaves the disk as it is. -/
theorem report_cases (h : Host) (entries : List Entry) :
    ((r.report h entries).1.disk = h.disk ∧ ∀ report, (r.report h entries).2 ≠ .ok (some report)) ∨
      ∃ (h' : Host) (merger : Merger), h'.disk = h.disk ∧
        r.report h entries = ((r.emit h' merger).1, (r.emit h' merger).2.map some) := by
  unfold report
  split
  · exact .inl ⟨rfl, fun report h => by cases h⟩
  · have hdisk := r.merge_disk h entries
    split
    · next hmerge =>
      rw [hmerge] at hdisk
      exact .inl ⟨hdisk, fun report h => by cases h⟩
    · next h' merger hmerge =>
      rw [hmerge] at hdisk
      exact .inr ⟨h', merger, hdisk, rfl⟩

/-- A run loads the cache and makes the reports of its entries. -/
theorem run_cases (h : Host) :
    (∃ e, r.cache.load h.disk = .error e ∧ (r.run h).1.disk = h.disk ∧ (r.run h).2 = .error e) ∨
      ∃ (contents : CacheContents) (h' : Host), r.cache.load h.disk = .ok contents ∧
        h'.disk = h.disk ∧ r.run h = r.report h' contents.entries := by
  unfold run
  dsimp only [Host.log_disk]
  cases hload : r.cache.load h.disk with
  | error e => exact .inl ⟨e, rfl, rfl, rfl⟩
  | ok contents =>
      exact .inr ⟨contents, (h.log (r.cache.loadEvents h.disk)).log [.entriesLoaded], rfl, rfl, rfl⟩

section Builtin

variable {r} (hr : r.registry = .builtin)

include hr

/-- Reporting adds no more than the files of the reporters. -/
theorem grows_report (h : Host) (entries : List Entry) :
    Disk.Grows Reporter.fileNames h.disk (r.report h entries).1.disk := by
  rcases r.report_cases h entries with ⟨hdisk, -⟩ | ⟨h', merger, hdisk, heq⟩
  · rw [hdisk]
    exact .refl _ _
  · obtain ⟨h'', hdisk', hemit, -⟩ := r.exists_emit_eq h' merger
    rw [heq, ← hdisk, ← hdisk', hemit, hr]
    exact ReporterRegistry.grows_emitAll _ h''

theorem grows_run (h : Host) : Disk.Grows Reporter.fileNames h.disk (r.run h).1.disk := by
  rcases r.run_cases h with ⟨e, -, hdisk, -⟩ | ⟨contents, h', -, hdisk, heq⟩
  · rw [hdisk]
    exact .refl _ _
  · rw [heq, ← hdisk]
    exact grows_report hr h' contents.entries

/-- The paths in a report are those of the reports that were written. -/
theorem isReport_report {h : Host} {entries : List Entry} {report : Report}
    (hreport : (r.report h entries).2 = .ok (some report)) :
    ∀ path ∈ report.written, Reporter.IsReport report.map r.options.outputDirectory
      (r.report h entries).1.disk path := by
  rcases r.report_cases h entries with ⟨-, hnone⟩ | ⟨h', merger, -, heq⟩
  · exact absurd hreport (hnone report)
  · obtain ⟨h'', -, hemit, hresult⟩ := r.exists_emit_eq h' merger
    rw [heq] at hreport ⊢
    obtain ⟨_, hreport, hsome⟩ := map_eq_ok_iff.1 hreport
    cases hsome
    rw [hresult, hr] at hreport
    obtain ⟨written, hwritten, rfl⟩ := map_eq_ok_iff.1 hreport
    rw [hemit, hr]
    exact ReporterRegistry.isReport_of_emitAll hwritten

end Builtin

end Run

end BundleCoverage
