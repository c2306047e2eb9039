import BundleCoverage.CommandLine.Command
import BundleCoverage.Proofs.Reports
import BundleCoverage.Proofs.Writers

/-!
# Runs that can be made again

Runs and merges add directories and report files to the disk, which are no documents of the cache,
so the documents stay as they are (`Cache.Kept`).  A load afterwards gives the same entries if
something was at the path of the cache (`Disk.Grows.load_of_ne`).  Where nothing was, the
directories that are made may lead to an old cache; they do not if the path never leads up, nor to a
report (`Disk.Grows.load_of_descending`).
-/

namespace BundleCoverage

open Std

/-- A cache whose documents are as they were. -/
structure Cache.Kept (c : Cache) (d d' : Disk) : Prop where
  /-- The directory is still there. -/
  directory : d.Opens c.directory → d'.Opens c.directory
  /-- The same documents are in the directory. -/
  file : ∀ (origin : CacheOrigin) (name : String), Cache.isDocumentName origin name = true →
    c.file? d' name = c.file? d name
  /-- A document that can be found stays so. -/
  found : ∀ (origin : CacheOrigin) (name : String) (bytes : List UInt8),
    Cache.isDocumentName origin name = true → (c.files d)[name]? = some bytes →
      (c.files d')[name]? = some bytes

theorem Reporter.notMem_fileNames {origin : CacheOrigin} {name : String}
    (h : Cache.isDocumentName origin name = true) : name ∉ fileNames := by
  intro hmem
  rcases List.mem_pair.1 hmem with rfl | rfl
  · cases origin <;> revert h <;> decide
  · cases origin <;> revert h <;> decide

/-- With the same documents, a load gives the same entries. -/
theorem Cache.load_congr {c : Cache} {d d' : Disk} (h : d.list c.directory ≠ .error .unusable)
    (h' : d'.list c.directory ≠ .error .unusable)
    (hfiles : ∀ (origin : CacheOrigin) (name : String), Cache.isDocumentName origin name = true →
      (c.files d')[name]? = (c.files d)[name]?) : c.load d' = c.load d := by
  have hentries (origin : CacheOrigin) :
      origin.entries (c.files d') = origin.entries (c.files d) := by
    rw [CacheOrigin.entries, CacheOrigin.entries, CacheOrigin.documents_congr (hfiles origin)]
  rw [load_eq h, load_eq h', hentries, hentries]

section Grows

variable {c : Cache} {d d' : Disk} (hd : d.WellFormed) (h : d.Grows Reporter.fileNames d')

include h

theorem Disk.Grows.file?_document {origin : CacheOrigin} {name : String}
    (hname : Cache.isDocumentName origin name = true) : c.file? d' name = c.file? d name := by
  refine Option.ext fun bytes => ?_
  rw [Cache.file?, Cache.file?, Disk.file?_eq_some_iff, Disk.file?_eq_some_iff, h.target]
  refine h.file_iff (fun other hother hlast => ?_) bytes
  rw [List.getLast?_concat] at hlast
  exact Reporter.notMem_fileNames hname (Option.some.inj hlast ▸ hother)

/-- What is in the way of a path stays in its way. -/
theorem Disk.Grows.list_unusable {path : String} (hlist : d.list path = .error .unusable) :
    d'.list path = .error .unusable := by
  by_cases hpath : Disk.IsPath path
  · obtain ⟨before, s, after, heq, hfault, hbefore⟩ := (Disk.list_eq_error_iff hpath).1 hlist
    obtain ⟨bytes, hfile⟩ := Disk.fault?_eq_unusable_iff.1 hfault
    rw [Disk.list_eq_error_iff hpath, h.stops, h.target]
    refine ⟨before, s, after, heq, ?_, fun t ht => h.directory t (hbefore t ht)⟩
    exact Disk.fault?_eq_unusable_iff.2 (h.file s bytes hfile)
  · rw [Disk.list_eq_of_not_isPath hpath d', hlist]

include hd

theorem Disk.Grows.files_document (hopens : d.Opens c.directory) (hc : c.directory ≠ "")
    {origin : CacheOrigin} {name : String} (hname : Cache.isDocumentName origin name = true) :
    (c.files d')[name]? = (c.files d)[name]? := by
  have hfile := h.file?_document (c := c) hname
  refine Option.ext fun bytes => ?_
  rw [Cache.getElem?_files hc hd, Cache.getElem?_files hc (h.wellFormed hd),
    ← Disk.file?_eq_some_iff, ← Disk.file?_eq_some_iff, ← Cache.file?, ← Cache.file?, hfile]
  exact and_congr_left fun _ => iff_of_true (h.opens hopens) hopens

theorem Disk.Grows.kept : c.Kept d d' where
  directory := h.opens
  file _ _ hname := h.file?_document hname
  found origin name bytes hname hbytes := by
    by_cases hc : c.directory = ""
    · have hnone : c.files d = ∅ := Cache.files_of_list_eq_error (e := .notFound) (by rw [hc]; rfl)
      rw [hnone] at hbytes
      simp at hbytes
    · have hopens := ((Cache.getElem?_files hc hd).1 hbytes).1
      rwa [h.files_document hd hopens hc hname]

/-! ## Loading again -/

/-- A load of a directory that was there gives the same entries. -/
theorem Disk.Grows.load_of_ne (hlist : d.list c.directory ≠ .error .notFound) :
    c.load d' = c.load d := by
  have hc : c.directory ≠ "" := by
    intro hc
    rw [hc] at hlist
    exact hlist rfl
  cases hresult : d.list c.directory with
  | error e =>
      cases e with
      | notFound => exact absurd hresult hlist
      | unusable =>
          rw [Cache.load_of_unusable hresult, Cache.load_of_unusable (h.list_unusable hresult)]
  | ok names =>
      obtain ⟨p, hp, hnode, -⟩ := Disk.exists_of_list_eq_ok hresult
      have hopens : d.Opens c.directory := (Disk.opens_iff hc).2 ⟨p, hp, hnode⟩
      have hne : ∀ d'' : Disk, d''.Opens c.directory → d''.list c.directory ≠ .error .unusable := by
        intro d'' hopens heq
        rw [hopens.list hc] at heq
        cases heq
      exact Cache.load_congr (hne d hopens) (hne d' (h.opens hopens)) fun _ _ hname =>
        h.files_document hd hopens hc hname

/-- A load of a path that still leads nowhere gives the same entries. -/
theorem Disk.Grows.load_of_notFound (hlist : d'.list c.directory = .error .notFound) :
    c.load d' = c.load d := by
  by_cases hresult : d.list c.directory = .error .notFound
  · rw [Cache.load_of_notFound hlist, Cache.load_of_notFound hresult]
  · exact h.load_of_ne hd hresult

section Descending

variable {path : String}
  (hpieces : ∀ piece ∈ Path.pieces path, piece ≠ ".." ∧ piece ∉ Reporter.fileNames)

include hpieces

/-- No file gets in the way of a path that never leads up and not to a report. -/
theorem Disk.Grows.list_unusable_iff :
    d'.list path = .error .unusable ↔ d.list path = .error .unusable := by
  refine ⟨fun hlist => ?_, h.list_unusable⟩
  have hup : ".." ∉ Path.pieces path := fun hmem => (hpieces _ hmem).1 rfl
  by_cases hpath : Disk.IsPath path
  · obtain ⟨before, s, after, heq, hfault, hbefore⟩ := (Disk.list_eq_error_iff hpath).1 hlist
    rw [h.stops, h.target] at heq
    obtain ⟨bytes, hfile⟩ := Disk.fault?_eq_unusable_iff.1 hfault
    have hmem : s ∈ d.stops path ++ [d.target path] := by
      rw [heq]
      simp
    have hold : d.node? s = some (.file bytes) := by
      rcases h.written s bytes hfile with hold | ⟨name, hname, hlast⟩
      · exact hold
      · -- the last piece would name the report
        obtain ⟨rest, hrest, hs⟩ := Place.exists_append_of_mem hup hmem
        cases hrest' : rest.getLast? with
        | none =>
            rw [List.getLast?_eq_none_iff] at hrest'
            rw [hs, hrest', List.append_nil, h.directory _ (hd.start path)] at hfile
            cases hfile
        | some last =>
            rw [hs, List.getLast?_append, hrest', Option.some_or] at hlast
            have hlast := Option.some.inj hlast
            exact absurd (hlast ▸ hname) (hpieces last (hrest (List.mem_of_getLast? hrest'))).2
    have hpairwise := Place.pairwise_stops hup (d.start path)
    rw [← Disk.stops, ← Disk.target, heq] at hpairwise
    rw [Disk.list_eq_error_iff hpath]
    refine ⟨before, s, after, heq, Disk.fault?_eq_unusable_iff.2 ⟨bytes, hold⟩, fun t ht => ?_⟩
    have hbelow : t <+: s :=
      (List.pairwise_append.1 hpairwise).2.2 t ht s (List.mem_cons_self ..)
    refine hd.ancestor hold hbelow ?_
    rintro rfl
    rw [hbefore t ht] at hfile
    cases hfile
  · rw [← hlist, Disk.list_eq_of_not_isPath hpath d']

end Descending

/-- A path that never leads up, and not to a report, leads to no old cache. -/
theorem Disk.Grows.load_of_descending
    (hpieces : ∀ piece ∈ Path.pieces c.directory, piece ≠ ".." ∧ piece ∉ Reporter.fileNames) :
    c.load d' = c.load d := by
  by_cases hresult' : d'.list c.directory = .error .notFound
  · exact h.load_of_notFound hd hresult'
  by_cases hresult : d.list c.directory = .error .notFound
  · have hup : ".." ∉ Path.pieces c.directory := fun hmem => (hpieces _ hmem).1 rfl
    have hc : c.directory ≠ "" := by
      intro hc
      rw [hc] at hresult'
      exact hresult' rfl
    have hlist' : d'.list c.directory ≠ .error .unusable := by
      rw [ne_eq, h.list_unusable_iff hd hpieces, hresult]
      simp
    refine Cache.load_congr (by simp [hresult]) hlist' fun origin name hname => ?_
    rw [Cache.files_of_list_eq_error hresult, ExtTreeMap.getElem?_empty]
    refine Option.eq_none_iff_forall_ne_some.2 fun bytes hbytes => ?_
    -- the directory of a document was there before
    obtain ⟨hopens', hnode'⟩ := (Cache.getElem?_files hc (h.wellFormed hd)).1 hbytes
    have hfile := (h.file?_document (c := c) hname).symm.trans (Disk.file?_eq_some_iff.2 hnode')
    have hparent := hd.parent _ _ (Disk.file?_eq_some_iff.1 hfile)
    rw [List.dropLast_concat] at hparent
    rw [(hd.opens hopens'.1 hup hparent).list hc] at hresult
    cases hresult
  · exact h.load_of_ne hd hresult

end Grows

/-! ## Runs -/

namespace Run

/-- Whether a cache holds the documents that it held, and a load gives the entries that it gave. -/
def Spares (c : Cache) (d d' : Disk) : Prop := c.Kept d d' ∧ c.load d' = c.load d

theorem Spares.refl (c : Cache) (d : Disk) : Spares c d d :=
  ⟨⟨fun h => h, fun _ _ _ => rfl, fun _ _ _ _ h => h⟩, rfl⟩

theorem eq_of_ofOptions {d : Disk} {o : Options} {r : Run} (h : ofOptions d o = .ok r) :
    r = { options := o } := by
  obtain ⟨-, -, h⟩ := bind_eq_ok_iff.1 h
  exact (Except.ok.inj h).symm

/-- A run spares the cache, whatever it comes to. -/
theorem spares_run {r : Run} (hr : r.registry = .builtin) {h : Host} (hd : h.disk.WellFormed) :
    Spares r.cache h.disk (r.run h).1.disk := by
  have hgrows := grows_run hr h
  refine ⟨hgrows.kept hd, ?_⟩
  by_cases hlist : h.disk.list r.cache.directory = .error .notFound
  · have hload := Cache.load_of_notFound hlist
    rcases r.run_cases h with ⟨e, herror, -, -⟩ | ⟨contents, h', hcontents, hdisk, heq⟩
    · rw [hload] at herror
      cases herror
    · rw [hload] at hcontents
      cases hcontents
      rw [heq, ← hdisk]
      rfl
  · exact hgrows.load_of_ne hd hlist

end Run

namespace CommandLine

/-- The command goes no further than a run if it is told to keep the cache or there is no report. -/
theorem merge_disk (p : Printer) {o : Options} {keepCache : Bool} {h : Host}
    (hkeep : keepCache = true ∨ (∀ r, Run.ofOptions h.disk o ≠ .ok r) ∨
      ∀ report, (Run.run { options := o } h).2 ≠ .ok (some report)) :
    (merge p o keepCache h).1.disk = h.disk ∨
      (merge p o keepCache h).1.disk = (Run.run { options := o } h).1.disk := by
  unfold merge
  cases hvalid : Run.ofOptions h.disk o with
  | error e => exact .inl rfl
  | ok r =>
      obtain rfl := Run.eq_of_ofOptions hvalid
      dsimp only
      match hresult : Run.run { options := o } h with
      | (h', .error e) => exact .inr rfl
      | (h', .ok none) => exact .inr rfl
      | (h', .ok (some report)) =>
          have hkeep : keepCache = true := by
            rcases hkeep with hkeep | hinvalid | hnone
            · exact hkeep
            · exact absurd hvalid (hinvalid _)
            · exact absurd (congrArg Prod.snd hresult) (hnone report)
          dsimp only
          rw [if_pos hkeep]
          right
          simp [tell]

end CommandLine

/-- What merging and reporting promise of the cache of some options. -/
structure Run.Retryable (r : Run) (h : Host) : Prop where
  run : Spares r.cache h.disk (r.run h).1.disk
  merge : ∀ entries, r.cache.Kept h.disk (r.report h entries).1.disk
  /-- A load after a merge may differ only if the path of the cache led nowhere, and leads
  elsewhere now, up from a directory or to a report that was made. -/
  load_of_merge : ∀ entries,
    (h.disk.list r.cache.directory ≠ .error .notFound ∨
      (r.report h entries).1.disk.list r.cache.directory = .error .notFound ∨
      ∀ piece ∈ Path.pieces r.cache.directory, piece ≠ ".." ∧ piece ∉ Reporter.fileNames) →
    r.cache.load (r.report h entries).1.disk = r.cache.load h.disk
  /-- The cache is only removed after a run that succeeded. -/
  runAndCleanUp : ∀ e, (r.run h).2 = .error e →
    (r.runAndCleanUp h).2 = .error e ∧ Spares r.cache h.disk (r.runAndCleanUp h).1.disk

/-- Whatever runs, merges and the command come to, the cache can be merged again. -/
theorem Run.retryable (o : Options) {h : Host} (hd : h.disk.WellFormed) :
    Retryable { options := o } h ∧
      ∀ (p : CommandLine.Printer) (keepCache : Bool),
        (keepCache = true ∨ (∀ r, ofOptions h.disk o ≠ .ok r) ∨
          ∀ report, (run { options := o } h).2 ≠ .ok (some report)) →
        Spares ⟨o.cacheDirectory⟩ h.disk (CommandLine.merge p o keepCache h).1.disk := by
  have hrun := spares_run (r := { options := o }) rfl hd
  refine ⟨⟨hrun, fun entries => (grows_report rfl h entries).kept hd, fun entries hcases => ?_,
    fun e he => ?_⟩, fun p keepCache hkeep => ?_⟩
  · have hgrows := grows_report (r := { options := o }) rfl h entries
    rcases hcases with hthere | hmissing | hpieces
    · exact hgrows.load_of_ne hd hthere
    · exact hgrows.load_of_notFound hd hmissing
    · exact hgrows.load_of_descending hd hpieces
  · have hsame : (runAndCleanUp { options := o } h) = ((run { options := o } h).1, .error e) := by
      unfold runAndCleanUp
      match run { options := o } h, he with
      | (h', _), he =>
          obtain rfl : _ = Except.error e := he
          rfl
    rw [hsame]
    exact ⟨rfl, hrun⟩
  · rcases CommandLine.merge_disk p hkeep with hdisk | hdisk
    · rw [hdisk]
      exact .refl _ _
    · rw [hdisk]
      exact hrun

/-! ## A cache that a merge leads to -/

/-- A disk with a document in a cache. -/
def Disk.cached : Disk :=
  (Disk.empty.set ["cache"] .directory).set ["cache", "server-1.json"]
    (.file (Entry.documentBytes [⟨"a.js", none, []⟩]))

theorem Disk.wellFormed_cached : Disk.cached.WellFormed := by
  have hcache : (Disk.empty.set ["cache"] .directory).WellFormed :=
    wellFormed_empty.set (p := []) (by constructor <;> decide) rfl fun _ => rfl
  refine hcache.set (p := ["cache"]) (by constructor <;> decide) ?_ ?_
  · decide
  · decide

/-- Options with a cache next to the output directory, by its name or by a path through that
directory. -/
def Options.cachedAt (path : String) : Options :=
  { outputDirectory := "out", cacheDirectory? := some path, reporters := ["json"] }

/-- The cache can be merged again after a run and the command that keeps it. -/
theorem Run.retryable_cached :
    Disk.cached.WellFormed ∧ Retryable { options := .cachedAt "cache" } { disk := .cached } ∧
      Spares ⟨"cache"⟩ .cached
        (CommandLine.merge {} (.cachedAt "cache") true { disk := .cached }).1.disk := by
  have hretryable := retryable (.cachedAt "cache") (h := { disk := .cached }) Disk.wellFormed_cached
  exact ⟨Disk.wellFormed_cached, hretryable.1, hretryable.2 {} true (.inl rfl)⟩

/-- A path through the output directory leads to an old cache once a merge has made that
directory. -/
theorem Run.load_changed_by_merge :
    Disk.cached.WellFormed ∧
      ∃ r, ofOptions .cached (.cachedAt "out/../cache") = .ok r ∧
        r.cache.load .cached = .ok ⟨[], []⟩ ∧
        r.cache.load (r.report { disk := .cached } [⟨"b.js", none, []⟩]).1.disk
          = .ok ⟨[], [⟨"a.js", none, []⟩]⟩ := by
  have hvalid : (Options.cachedAt "out/../cache").validate .cached = .ok () := by decide +kernel
  refine ⟨Disk.wellFormed_cached, { options := .cachedAt "out/../cache" }, ?_, ?_, ?_⟩
  · rw [ofOptions, hvalid]
    rfl
  · decide +kernel
  · decide +kernel

end BundleCoverage
