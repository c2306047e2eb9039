import BundleCoverage.Browser.Recorder
import BundleCoverage.Proofs.StoredDocuments

/-!
# Recordings

A recorder takes the coverage of a page around a test.  Whatever the browser and the disk do, the
test runs once and its outcome is given (`Recorder.Surrounds`).

A disk only changes if there is something to store.  Then each step of the write changes the document
of the test or its draft, and makes directories where nothing was (`Disk.ChangesAt`); a write that
fails does not get to the document.
-/

namespace BundleCoverage

/-! ## Disks that change at some places -/

namespace Disk

/-- Whether a disk differs from an older one at some places only, and by directories where nothing
was. -/
structure ChangesAt (places : List Place) (d d' : Disk) : Prop where
  workingDirectory : d'.workingDirectory = d.workingDirectory
  elsewhere : ∀ s ∉ places,
    d'.node? s = d.node? s ∨ d.node? s = none ∧ d'.node? s = some .directory

variable {places more : List Place} {d d' d'' : Disk}

theorem ChangesAt.refl (places : List Place) (d : Disk) : ChangesAt places d d :=
  ⟨rfl, fun _ _ => .inl rfl⟩

theorem ChangesAt.trans (h : ChangesAt places d d') (h' : ChangesAt places d' d'') :
    ChangesAt places d d'' := by
  refine ⟨h'.workingDirectory.trans h.workingDirectory, fun s hs => ?_⟩
  rcases h.elsewhere s hs with hsame | ⟨hnone, hmade⟩
  · rw [← hsame]
    exact h'.elsewhere s hs
  · refine .inr ⟨hnone, ?_⟩
    rcases h'.elsewhere s hs with hsame | ⟨-, hmade'⟩
    · rw [hsame, hmade]
    · exact hmade'

theorem ChangesAt.mono (h : ChangesAt places d d') (hplaces : places ⊆ more) :
    ChangesAt more d d' :=
  ⟨h.workingDirectory, fun s hs => h.elsewhere s fun hmem => hs (hplaces hmem)⟩

theorem ChangesAt.target (h : ChangesAt places d d') (path : String) :
    d'.target path = d.target path := by
  rw [Disk.target, Disk.target, start, start, h.workingDirectory]

/-- A disk to which no file is added changes by directories. -/
theorem Adds.changesAt (h : Adds [] d d') : ChangesAt [] d d' := by
  have hfile : ∀ s bytes, d'.node? s = some (.file bytes) ↔ d.node? s = some (.file bytes) :=
    fun s bytes => h.file_iff (List.forall_mem_nil _) bytes
  refine ⟨h.workingDirectory, fun s _ => ?_⟩
  cases hold : d.node? s with
  | some node =>
      left
      cases node with
      | directory => exact h.directory s hold
      | file bytes => exact (hfile s bytes).2 hold
  | none =>
      cases hnew : d'.node? s with
      | none => exact .inl rfl
      | some node =>
          right
          cases node with
          | directory => exact ⟨rfl, rfl⟩
          | file bytes =>
              rw [hfile, hold] at hnew
              cases hnew

theorem changesAt_set {place : Place} (hplace : place ≠ []) (node : Node) :
    ChangesAt [place] d (d.set place node) := by
  refine ⟨rfl, fun s hs => .inl ?_⟩
  have hne : place ≠ s := fun heq => hs (List.mem_singleton.2 heq.symm)
  rw [node?_set hplace, if_neg hne]

theorem changesAt_moved {place goal : Place} (hplace : place ≠ []) (hgoal : goal ≠ [])
    (bytes : List UInt8) : ChangesAt [goal, place] d (d.moved place goal bytes) := by
  refine ⟨rfl, fun s hs => .inl ?_⟩
  rw [List.mem_cons, List.mem_singleton, not_or] at hs
  rw [node?_moved hplace hgoal, if_neg (Ne.symm hs.1), if_neg (Ne.symm hs.2)]

end Disk

/-! ## Writing a document -/

namespace Cache

/-- Unless all steps are made, the last one is not. -/
theorem perform_concat_eq_error {d d' : Disk} {steps : List Step} {last : Step} {e : Error}
    (h : perform d (steps ++ [last]) = (d', .error e)) : (perform d steps).1 = d' := by
  induction steps generalizing d with
  | nil =>
      rw [List.nil_append, perform] at h
      cases hlast : last d with
      | ok next =>
          rw [hlast] at h
          cases h
      | error e' =>
          rw [hlast] at h
          exact congrArg Prod.fst h
  | cons step steps ih =>
      rw [List.cons_append, perform] at h
      rw [perform]
      cases hstep : step d with
      | ok next =>
          rw [hstep] at h
          exact ih h
      | error e' =>
          rw [hstep] at h
          exact congrArg Prod.fst h

/-- What all steps keep, some steps keep as well. -/
theorem perform_induction {P : Disk → Prop} {steps : List Step}
    (hstep : ∀ step ∈ steps, ∀ d d', P d → step d = .ok d' → P d') {d : Disk} (hd : P d) :
    P (perform d steps).1 := by
  induction steps generalizing d with
  | nil => exact hd
  | cons step steps ih =>
      rw [List.forall_mem_cons] at hstep
      rw [perform]
      cases hnext : step d with
      | error e => exact hd
      | ok next => exact ih hstep.2 (hstep.1 d next hd hnext)

section Steps

variable {c : Cache} {d d' : Disk} {call : WriteCall} {path : String}

/-- The place of the document of a call. -/
def documentPlace (c : Cache) (d : Disk) (call : WriteCall) : Place :=
  d.target c.directory ++ [call.documentName]

/-- The place of the draft of a call. -/
def draftPlace (c : Cache) (d : Disk) (call : WriteCall) : Place :=
  d.target c.directory ++ [call.draftName]

theorem changesAt_prepare (h : c.prepare d = .ok d') : d.ChangesAt [] d' :=
  (Disk.adds_makeDirectories (prepare_eq_ok_iff.1 h)).changesAt

theorem changesAt_draft (hcall : call.IsPlain)
    (h : c.draft call.name call.entries d = .ok d') : d.ChangesAt [c.draftPlace d call] d' := by
  obtain ⟨-, -, rfl⟩ := (draft_eq_ok_iff hcall).1 h
  exact Disk.changesAt_set (by simp [draftPlace]) _

theorem changesAt_publish (hcall : call.IsPlain) (h : c.publish call.name d = .ok d') :
    d.ChangesAt [c.documentPlace d call, c.draftPlace d call] d' ∧
      d'.node? (c.draftPlace d call) = none := by
  obtain ⟨-, -, bytes, -, rfl⟩ := (publish_eq_ok_iff hcall).1 h
  have hdraft : c.draftPlace d call ≠ [] := by simp [draftPlace]
  have hdocument : c.documentPlace d call ≠ [] := by simp [documentPlace]
  have hne : c.documentPlace d call ≠ c.draftPlace d call := by
    simpa [documentPlace, draftPlace] using (call.draftName_ne_documentName call).symm
  refine ⟨Disk.changesAt_moved hdraft hdocument bytes, ?_⟩
  exact (Disk.node?_moved hdraft hdocument _).trans ((if_neg hne).trans (if_pos rfl))

/-- A call that fails changes its draft at most. -/
theorem changesAt_of_write_error {e : Error} (hcall : call.IsPlain)
    (h : call.write c d = (d', .error e)) : d.ChangesAt [c.draftPlace d call] d' := by
  obtain ⟨made, hsteps, hresult⟩ := perform_of_write h
  -- only the last step, which is not made, changes the document
  have hlast : (perform d [c.prepare, c.draft call.name call.entries]).1 = d' := by
    cases made with
    | ok made => cases hresult
    | error e => exact perform_concat_eq_error hsteps
  rw [← hlast]
  refine perform_induction (P := d.ChangesAt [c.draftPlace d call]) ?_ (.refl _ d)
  intro step hstep d₁ d₂ hd hnext
  refine hd.trans ?_
  rcases List.mem_pair.1 hstep with rfl | rfl
  · exact (changesAt_prepare hnext).mono (List.nil_subset _)
  · have hdraft := changesAt_draft hcall hnext
    rwa [draftPlace, hd.target] at hdraft

/-- A call that succeeds changes its document, and its draft is gone. -/
theorem changesAt_of_write (hcall : call.IsPlain) (h : call.write c d = (d', .ok path)) :
    d.ChangesAt [c.documentPlace d call, c.draftPlace d call] d' ∧
      d'.node? (c.draftPlace d call) = none := by
  obtain ⟨-, prepared, drafted, hprepare, hdraft, hpublish⟩ := steps_of_write h
  have hprepared : d.ChangesAt [c.documentPlace d call, c.draftPlace d call] prepared :=
    (changesAt_prepare hprepare).mono (List.nil_subset _)
  have hdrafted : d.ChangesAt [c.documentPlace d call, c.draftPlace d call] drafted := by
    have hstep := changesAt_draft hcall hdraft
    rw [draftPlace, hprepared.target] at hstep
    exact hprepared.trans (hstep.mono (by simp [draftPlace]))
  obtain ⟨hstep, hgone⟩ := changesAt_publish hcall hpublish
  rw [documentPlace, draftPlace, hdrafted.target] at hstep
  rw [draftPlace, hdrafted.target] at hgone
  exact ⟨hdrafted.trans hstep, hgone⟩

end Steps

/-- Whether some entries were stored for a test: they are read from its document, the draft of it is
gone, and nothing else changed but for new directories. -/
structure Stores (c : Cache) (test : TestIdentity) (entries : List Entry) (d d' : Disk) : Prop where
  /-- The document is read as the entries. -/
  read : readDocument d' (c.clientPath test) = .ok entries
  /-- The draft is gone. -/
  draft : d'.node? (c.draftPlace d (.client test entries)) = none
  /-- The document took the place of an older one, and no other file changed. -/
  changes : d.ChangesAt
    [c.documentPlace d (.client test entries), c.draftPlace d (.client test entries)] d'

theorem stores_of_writeClient {c : Cache} {d d' : Disk} {test : TestIdentity} {entries : List Entry}
    {path : String} (h : c.writeClient d test entries = (d', .ok path)) :
    path = c.clientPath test ∧ c.Stores test entries d d' := by
  have hwrite : (WriteCall.client test entries).write c d = (d', .ok path) := h
  have hplain : (WriteCall.client test entries).IsPlain := trivial
  obtain rfl : path = c.clientPath test := (steps_of_write hwrite).1
  obtain ⟨hchanges, hdraft⟩ := changesAt_of_write hplain hwrite
  have hread := readDocument_of_isDocument (read_of_write hplain hwrite)
    (Entry.plain_document entries).parseBytes?_encode (Entry.isDocument_document entries)
  exact ⟨rfl, hread, hdraft, hchanges⟩

end Cache

/-! ## Recording a test -/

/-- Whether an entry is that of a script of a browser.  A text is kept unless it is empty. -/
structure BrowserScript.IsCapturedBy (s : BrowserScript) (e : Entry) : Prop where
  url : e.url = s.url
  functions : e.functions = s.functions
  source : ∀ text, e.source = some text ↔ s.source = some text ∧ text ≠ ""

theorem BrowserScript.isCapturedBy_entry (s : BrowserScript) : s.IsCapturedBy s.entry :=
  ⟨rfl, rfl, fun text => by simp [entry, Option.filter_eq_some_iff]⟩

@[simp] theorem Page.stopReply_add (p : Page) (e : PageEvent) :
    (p.add e).stopReply = p.stopReply := rfl

namespace Recorder

/-- Whether a page leaves a recorder some scripts with one in scope: coverage starts and stops. -/
structure Captures (r : Recorder) (page : Page) (scripts : List BrowserScript) : Prop where
  starts : page.startReply r.resetOnNavigation = .ok ()
  stops : page.stopReply = .ok scripts
  inScope : ∃ s ∈ scripts, r.scope.accepts s.url = true

/-- Whether coverage is taken around a test that runs as without it. -/
structure Surrounds {α : Type} (r : Recorder) (page : Page) (test : TestIdentity)
    (body : Disk → Disk × α) (d : Disk) : Prop where
  /-- The outcome is that of the test. -/
  outcome : (r.record page test body d).2.2 = (body d).2
  /-- Coverage is started, the test runs, and coverage is stopped if it was started. -/
  events : (r.record page test body d).1.events
    = page.events ++ .start r.resetOnNavigation :: .test ::
      if (page.startReply r.resetOnNavigation).toBool then [.stop] else []
  /-- Without a script in scope, only the test changes the disk. -/
  unchanged : (∀ scripts, ¬ r.Captures page scripts) →
    (r.record page test body d).2.1 = (body d).1
  /-- The scripts in scope are stored in order, if they can be written. -/
  stored : ∀ scripts, r.Captures page scripts → ∃ entries,
    List.Forall₂ BrowserScript.IsCapturedBy
        (scripts.filter fun s => r.scope.accepts s.url) entries ∧
      (∀ path, (r.cache.writeClient (body d).1 test entries).2 = .ok path →
        path = r.cache.clientPath test ∧
          r.cache.Stores test entries (body d).1 (r.record page test body d).2.1) ∧
      ∀ e, (r.cache.writeClient (body d).1 test entries).2 = .error e →
        (body d).1.ChangesAt [r.cache.draftPlace (body d).1 (.client test entries)]
          (r.record page test body d).2.1

variable {α : Type} (r : Recorder) (page : Page) (test : TestIdentity)

theorem inScope_eq_nil_iff {scripts : List BrowserScript} :
    r.inScope scripts = [] ↔ ∀ s ∈ scripts, r.scope.accepts s.url = false := by
  simp [inScope]

/-- Entries are written unless there are none. -/
theorem fst_write (scripts : List BrowserScript) (d : Disk) :
    (r.write test scripts d).1 =
      if r.inScope scripts = [] then d else (r.cache.writeClient d test (r.inScope scripts)).1 := by
  unfold write
  split
  · next hnil => rw [if_pos hnil]
  · next hsome => rw [if_neg hsome]

/-- Without coverage, only the test runs. -/
theorem record_of_not_starts (body : Disk → Disk × α) (d : Disk)
    (h : (page.startReply r.resetOnNavigation).toBool = false) :
    r.record page test body d
      = ((page.add (.start r.resetOnNavigation)).add .test, (body d).1, (body d).2) := by
  simp [record, start, h]

/-- With coverage, the scripts that a page gives are written after the test. -/
theorem record_of_starts (body : Disk → Disk × α) (d : Disk)
    (h : (page.startReply r.resetOnNavigation).toBool = true) :
    r.record page test body d
      = (((page.add (.start r.resetOnNavigation)).add .test).add .stop,
        page.stopReply.toOption.elim (body d).1 fun scripts => (r.write test scripts (body d).1).1,
        (body d).2) := by
  cases hstop : page.stopReply with
  | error e => simp [record, start, finish, h, hstop, Except.toOption]
  | ok scripts => simp [record, start, finish, h, hstop, Except.toOption]

theorem toBool_startReply_iff {resetOnNavigation : Bool} :
    (page.startReply resetOnNavigation).toBool = true ↔
      page.startReply resetOnNavigation = .ok () := by
  cases page.startReply resetOnNavigation <;> simp [Except.toBool]

/-- With a script in scope, the entries of those in scope are written. -/
theorem disk_record_of_captures {scripts : List BrowserScript} (h : r.Captures page scripts)
    (body : Disk → Disk × α) (d : Disk) :
    (r.record page test body d).2.1
      = (r.cache.writeClient (body d).1 test (r.inScope scripts)).1 := by
  have hne : r.inScope scripts ≠ [] := by
    obtain ⟨s, hs, haccepts⟩ := h.inScope
    intro hnil
    rw [r.inScope_eq_nil_iff.1 hnil s hs] at haccepts
    cases haccepts
  rw [r.record_of_starts page test body d ((toBool_startReply_iff page).2 h.starts), h.stops]
  exact (r.fst_write test scripts _).trans (if_neg hne)

/-- Without one, nothing is written. -/
theorem disk_record_of_not_captures (h : ∀ scripts, ¬ r.Captures page scripts)
    (body : Disk → Disk × α) (d : Disk) : (r.record page test body d).2.1 = (body d).1 := by
  cases hstart : (page.startReply r.resetOnNavigation).toBool with
  | false => rw [r.record_of_not_starts page test body d hstart]
  | true =>
      rw [r.record_of_starts page test body d hstart]
      cases hstop : page.stopReply with
      | error e => rfl
      | ok scripts =>
          have hnil : r.inScope scripts = [] := by
            refine r.inScope_eq_nil_iff.2 fun s hs => ?_
            rw [← Bool.not_eq_true]
            intro haccepts
            exact h scripts ⟨(toBool_startReply_iff page).1 hstart, hstop, s, hs, haccepts⟩
          exact (r.fst_write test scripts _).trans (if_pos hnil)

theorem events_record (body : Disk → Disk × α) (d : Disk) :
    (r.record page test body d).1.events
      = page.events ++ .start r.resetOnNavigation :: .test ::
        if (page.startReply r.resetOnNavigation).toBool then [.stop] else [] := by
  cases hstart : (page.startReply r.resetOnNavigation).toBool with
  | false =>
      rw [r.record_of_not_starts page test body d hstart]
      simp [Page.add]
  | true =>
      rw [r.record_of_starts page test body d hstart]
      simp [Page.add]

theorem outcome_record (body : Disk → Disk × α) (d : Disk) :
    (r.record page test body d).2.2 = (body d).2 := by
  cases hstart : (page.startReply r.resetOnNavigation).toBool with
  | false => rw [r.record_of_not_starts page test body d hstart]
  | true => rw [r.record_of_starts page test body d hstart]

/-- Coverage is taken around a test that runs as without it, whatever a page and a disk do. -/
theorem surrounds (body : Disk → Disk × α) (d : Disk) : r.Surrounds page test body d := by
  refine ⟨r.outcome_record page test body d, r.events_record page test body d,
    fun h => r.disk_record_of_not_captures page test h body d, fun scripts h => ?_⟩
  rw [r.disk_record_of_captures page test h body d]
  refine ⟨r.inScope scripts, ?_, fun path hpath => ?_, fun e he => ?_⟩
  · rw [inScope, List.forall₂_map_right_iff, List.forall₂_same]
    exact fun s _ => s.isCapturedBy_entry
  · exact Cache.stores_of_writeClient (Prod.ext rfl hpath)
  · have hwrite : (WriteCall.client test (r.inScope scripts)).write r.cache (body d).1
        = ((r.cache.writeClient (body d).1 test (r.inScope scripts)).1, .error e) :=
      Prod.ext rfl he
    exact Cache.changesAt_of_write_error trivial hwrite

/-- Of two scripts, the one in scope is stored, and its empty text is left out. -/
example :
    let r : Recorder := { cache := ⟨"cache"⟩, scope := ⟨["/chunks/"], none⟩ }
    let page : Page := { startReply := fun _ => .ok (), stopReply := .ok [{ url := "/a.js" },
      { url := "/chunks/b.js", source := some "" }] }
    let test : TestIdentity := ⟨0, "t"⟩
    let d := (r.record page test (fun d => (d, ())) .empty).2.1
    Cache.readDocument d (r.cache.clientPath test) = .ok [{ url := "/chunks/b.js" }] := by
  decide +kernel

end Recorder

end BundleCoverage
