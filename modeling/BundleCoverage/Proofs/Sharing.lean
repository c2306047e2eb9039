import BundleCoverage.Proofs.Progress

/-!
# What loads of a shared cache see

A load that is interleaved with writers sees each document with all the bytes that it had when the
load began or with all that were written since (`Scene.Sees`): what was read so far is carried
from step to step (`Scene.ReadSoFar`, `Loading.Sound`).  It does not fail, and if it has its turns
it comes to its end (`Scene.exists_done`); alone it is the load of the cache (`Scene.loads_alone`).
-/

namespace BundleCoverage

open Std

variable {c : Cache} {d : Disk} {calls : List WriteCall}

namespace Scene

/-! ## What a document holds meanwhile -/

/-- A content that a file had in a scene, or that was written until a later one. -/
def Holds (c : Cache) (s s' : Scene) (name : String) (content : Option (List UInt8)) : Prop :=
  content = (c.files s.disk)[name]? ∨ ∃ bytes, s'.Written name bytes ∧ content = some bytes

/-- The entries that a load gives if it sees each document of an origin in one of its contents. -/
def Sees (c : Cache) (s s' : Scene) (origin : CacheOrigin) (entries : List Entry) : Prop :=
  ∃ view : ExtTreeMap String (List UInt8), entries = origin.entries view ∧
    ∀ name, Cache.isDocumentName origin name = true → Holds c s s' name view[name]?

section Holds

variable {s s' : Scene} {name : String} {origin : CacheOrigin}

/-- A file that is no draft holds one of its contents at any later time. -/
theorem Sound.holds_files (hs : s.Sound c d) (h : c.Shared d calls) (moves : List Move)
    (hname : ∀ call ∈ s.writers.map (·.call), call.draftName ≠ name) :
    Holds c s (s.after c moves) name (c.files (s.after c moves).disk)[name]? := by
  have hs' := hs.after moves
  have hname' : ∀ call ∈ (s.after c moves).writers.map (·.call), call.draftName ≠ name := by
    rwa [calls_after hs]
  by_cases hwritten : ∃ bytes, (s.after c moves).Written name bytes
  · obtain ⟨bytes, hbytes⟩ := hwritten
    exact .inr ⟨bytes, hbytes, hs'.files_of_written h hbytes⟩
  · have hnot' : ∀ bytes, ¬(s.after c moves).Written name bytes := not_exists.1 hwritten
    have hnot : ∀ bytes, ¬s.Written name bytes :=
      fun bytes hbytes => hnot' bytes (hs.written_after hbytes moves)
    left
    rw [hs'.files_of_not_written h (fun w hw => hname' _ (List.mem_map_of_mem hw)) hnot',
      hs.files_of_not_written h (fun w hw => hname _ (List.mem_map_of_mem hw)) hnot]

/-- A document holds one of its contents at any later time. -/
theorem Sound.holds_document (hs : s.Sound c d) (h : c.Shared d calls)
    (hname : Cache.isDocumentName origin name = true) (moves : List Move) :
    Holds c s (s.after c moves) name (c.files (s.after c moves).disk)[name]? :=
  hs.holds_files h moves fun call _ => call.draftName_ne_of_isDocumentName hname

theorem Holds.step {content : Option (List UInt8)} (h : Holds c s s' name content)
    (hs' : s'.Sound c d) (move : Move) : Holds c s (s'.step c move) name content := by
  rcases h with hold | ⟨bytes, hbytes, hcontent⟩
  · exact .inl hold
  · exact .inr ⟨bytes, hs'.written_step hbytes move, hcontent⟩

theorem Sees.step {entries : List Entry} (h : Sees c s s' origin entries) (hs' : s'.Sound c d)
    (move : Move) : Sees c s (s'.step c move) origin entries := by
  obtain ⟨view, hentries, hview⟩ := h
  exact ⟨view, hentries, fun name hname => (hview name hname).step hs' move⟩

/-- A document that is there stays there. -/
theorem Sound.files_step (hs : s.Sound c d) (h : c.Shared d calls)
    (hname : Cache.isDocumentName origin name = true) (move : Move) {bytes : List UInt8}
    (hbytes : (c.files s.disk)[name]? = some bytes) :
    ∃ bytes', (c.files (s.step c move).disk)[name]? = some bytes' := by
  rcases hs.holds_document h hname [move] with hold | ⟨bytes', -, hnew⟩
  · exact ⟨bytes, hold.trans hbytes⟩
  · exact ⟨bytes', hnew⟩

end Holds

/-! ## Reading documents -/

/-- What a load knows of the documents of an origin, of which it has read some and still has to read
others. -/
structure ReadSoFar (c : Cache) (s s' : Scene) (origin : CacheOrigin)
    (read : List (String × List UInt8)) (names : List String) : Prop where
  sorted : (read.map Prod.fst ++ names).Pairwise fun a b => compare a b = .lt
  held : ∀ f ∈ read, Cache.isDocumentName origin f.1 = true ∧ Holds c s s' f.1 (some f.2)
  listed : ∀ name ∈ names, Cache.isDocumentName origin name = true ∧
    ∃ bytes, (c.files s'.disk)[name]? = some bytes
  absent : ∀ name, Cache.isDocumentName origin name = true → name ∉ read.map Prod.fst ++ names →
    Holds c s s' name none

/-- Some paths that are still to be read, and the entries of the documents before. -/
def IsReading (c : Cache) (s s' : Scene) (origin : CacheOrigin) (paths : List String)
    (entries : List Entry) : Prop :=
  ∃ read names, ReadSoFar c s s' origin read names ∧ paths = names.map (Path.join c.directory) ∧
    entries = read.flatMap fun f => (origin.document? f.1 f.2).getD []

section Reading

variable {s s' : Scene} {origin : CacheOrigin} {paths : List String} {entries : List Entry}

theorem IsReading.step (h : IsReading c s s' origin paths entries) (hs' : s'.Sound c d)
    (hc : c.Shared d calls) (move : Move) :
    IsReading c s (s'.step c move) origin paths entries := by
  obtain ⟨read, names, hread, hpaths, hentries⟩ := h
  refine ⟨read, names, ⟨hread.sorted, fun f hf => ?_, fun name hname => ?_,
    fun name hname hnot => ?_⟩, hpaths, hentries⟩
  · exact ⟨(hread.held f hf).1, (hread.held f hf).2.step hs' move⟩
  · obtain ⟨hdocument, bytes, hbytes⟩ := hread.listed name hname
    exact ⟨hdocument, hs'.files_step hc hdocument move hbytes⟩
  · exact (hread.absent name hname hnot).step hs' move

/-- A listing finds the documents. -/
theorem isReading_list (hs : s.Sound c d) (hc : c.Shared d calls) (moves : List Move)
    (h : c.documentPaths (s.after c moves).disk origin = .ok paths) :
    IsReading c s (s.after c moves) origin paths [] := by
  have hs' := hs.after moves
  obtain ⟨names, hpaths, hsorted, hnames⟩ :=
    Cache.exists_names_of_documentPaths hc.named hs'.wellFormed h
  refine ⟨[], names, ⟨hsorted, List.forall_mem_nil _, fun name => (hnames name).1,
    fun name hname hnot => ?_⟩, hpaths, rfl⟩
  have hholds := hs.holds_document hc hname moves
  cases hfile : (c.files (s.after c moves).disk)[name]? with
  | none => rwa [hfile] at hholds
  | some bytes => exact absurd ((hnames name).2 ⟨hname, bytes, hfile⟩) hnot

/-- The next document is read as it is. -/
theorem IsReading.next {path : String} (hs : s.Sound c d) (hc : c.Shared d calls)
    (moves : List Move) (h : IsReading c s (s.after c moves) origin (path :: paths) entries) :
    IsReading c s (s.after c moves) origin paths
      (entries ++ ((Cache.readDocument (s.after c moves).disk path).toOption).getD []) := by
  have hs' := hs.after moves
  obtain ⟨read, names, hread, hpaths, rfl⟩ := h
  cases names with
  | nil => cases hpaths
  | cons name names =>
      obtain ⟨rfl, rfl⟩ := List.cons.inj hpaths
      obtain ⟨⟨hdocument, bytes, hbytes⟩, hlisted⟩ := List.forall_mem_cons.1 hread.listed
      have hholds := hs.holds_document hc hdocument moves
      rw [hbytes] at hholds
      have happend : (read ++ [(name, bytes)]).map Prod.fst ++ names
          = read.map Prod.fst ++ name :: names := by simp
      refine ⟨read ++ [(name, bytes)], names, ⟨?_, ?_, hlisted, ?_⟩, rfl, ?_⟩
      · rw [happend]
        exact hread.sorted
      · exact List.forall_mem_append.2
          ⟨hread.held, List.forall_mem_singleton.2 ⟨hdocument, hholds⟩⟩
      · rw [happend]
        exact hread.absent
      · have hok := Cache.read_of_files hc.named hs'.wellFormed hbytes
        have hentries : origin.document? name bytes
            = (Json.parseBytes? bytes).bind Entry.ofDocument? := if_pos hdocument
        rw [List.flatMap_append, List.flatMap_singleton, Cache.readDocument_toOption, hok, hentries]
        rfl

/-- When all is read, each document was seen in one of its contents. -/
theorem IsReading.sees (h : IsReading c s s' origin [] entries) : Sees c s s' origin entries := by
  obtain ⟨read, names, hread, hpaths, rfl⟩ := h
  obtain rfl : names = [] := List.map_eq_nil_iff.1 hpaths.symm
  have hsorted : read.Pairwise fun a b => compare a.1 b.1 = .lt := by
    have h := hread.sorted
    rwa [List.append_nil, List.pairwise_map] at h
  refine ⟨ExtTreeMap.ofList read, (CacheOrigin.entries_ofList origin hsorted).symm,
    fun name hname => ?_⟩
  cases hview : (ExtTreeMap.ofList read)[name]? with
  | none =>
      refine hread.absent name hname fun hmem => ?_
      rw [List.append_nil] at hmem
      obtain ⟨f, hf, rfl⟩ := List.mem_map.1 hmem
      have hthere : (ExtTreeMap.ofList read)[f.1]? = some f.2 := (getElem?_ofList_iff hsorted).2 hf
      rw [hview] at hthere
      cases hthere
  | some bytes => exact (hread.held _ ((getElem?_ofList_iff hsorted).1 hview)).2

end Reading

end Scene

/-! ## Loads -/

open Scene

/-- What holds of a load that began in a scene. -/
def Loading.Sound (c : Cache) (s s' : Scene) : Loading → Prop
  | .fresh => True
  | .reading .client _ paths entries => IsReading c s s' .client paths entries
  | .reading .server client paths entries =>
    Sees c s s' .client client ∧ IsReading c s s' .server paths entries
  | .failed _ => False
  | .done contents => Sees c s s' .client contents.client ∧ Sees c s s' .server contents.server

section Loading

variable {s s' : Scene} {l : Loading}

theorem Loading.Sound.step (h : l.Sound c s s') (hs' : s'.Sound c d) (hc : c.Shared d calls)
    (move : Move) : l.Sound c s (s'.step c move) := by
  match l, h with
  | .fresh, _ => trivial
  | .reading .client _ _ _, h => exact IsReading.step h hs' hc move
  | .reading .server _ _ _, h => exact ⟨h.1.step hs' move, h.2.step hs' hc move⟩
  | .done _, h => exact ⟨h.1.step hs' move, h.2.step hs' move⟩

theorem Loading.sound_list (hs : s.Sound c d) (hc : c.Shared d calls) (moves : List Move)
    {origin : CacheOrigin} {client : List Entry}
    (h : origin = .server → Sees c s (s.after c moves) .client client) :
    (Loading.list c (s.after c moves).disk origin client).Sound c s (s.after c moves) := by
  obtain ⟨paths, hpaths⟩ := Cache.exists_documentPaths ((hs.after moves).list_ne hc) origin
  have hreading := isReading_list hs hc moves hpaths
  unfold Loading.list
  rw [hpaths]
  cases origin with
  | client => exact hreading
  | server => exact ⟨h rfl, hreading⟩

theorem Loading.Sound.advance (hs : s.Sound c d) (hc : c.Shared d calls) (moves : List Move)
    (h : l.Sound c s (s.after c moves)) :
    (l.advance c (s.after c moves).disk).Sound c s (s.after c moves) := by
  match l, h with
  | .fresh, _ => exact sound_list hs hc moves fun h => by cases h
  | .reading .client _ (path :: paths) _, h => exact IsReading.next hs hc moves h
  | .reading .client _ [] _, h => exact sound_list hs hc moves fun _ => IsReading.sees h
  | .reading .server _ (path :: paths) _, h => exact ⟨h.1, IsReading.next hs hc moves h.2⟩
  | .reading .server _ [] _, h => exact ⟨h.1, IsReading.sees h.2⟩
  | .done _, h => exact h

/-- A load that begins in a scene sees each document in one of its contents. -/
theorem Scene.sound_loading (hs : s.Sound c d) (hc : c.Shared d calls) {k : Nat}
    (hfresh : s.loads[k]? = some .fresh) (moves : List Move) {l : Loading}
    (hl : (s.after c moves).loads[k]? = some l) : l.Sound c s (s.after c moves) := by
  induction moves using List.reverseRecOn generalizing l with
  | nil =>
      rw [show s.after c [] = s from rfl, hfresh] at hl
      cases hl
      trivial
  | append_singleton moves move ih =>
      rw [after_concat] at hl ⊢
      have hs' := hs.after moves
      cases move with
      | write j =>
          rw [loads_write] at hl
          exact (ih hl).step hs' hc _
      | load j =>
          rw [Scene.step, List.getElem?_modify] at hl
          obtain ⟨l', hl', rfl⟩ := Option.map_eq_some_iff.1 hl
          split
          · exact ((ih hl').advance hs hc moves).step hs' hc _
          · exact (ih hl').step hs' hc _

/-- A load that has its turns comes to its end. -/
theorem Scene.exists_done (hs : s.Sound c d) (hc : c.Shared d calls)
    (hcalls : s.writers.map (·.call) = calls) {k : Nat} (hfresh : s.loads[k]? = some .fresh)
    {moves : List Move} (hturns : c.mostSteps d calls ≤ moves.count (.load k)) :
    ∃ contents, (s.after c moves).loads[k]? = some (.done contents) := by
  obtain ⟨l, hl, hleft⟩ := hs.left_after hc hcalls hfresh moves
  rw [Nat.sub_eq_zero_of_le hturns, Nat.le_zero] at hleft
  have hsound := sound_loading hs hc hfresh moves hl
  match l, hl, hleft, hsound with
  | .done contents, hl, _, _ => exact ⟨contents, hl⟩

/-- A load that has its turns and is alone is the load of the cache. -/
theorem Scene.loads_alone (hs : s.Sound c d) (hc : c.Shared d calls)
    (hcalls : s.writers.map (·.call) = calls) {k n : Nat} (hfresh : s.loads[k]? = some .fresh)
    (hturns : c.mostSteps d calls ≤ n) :
    (s.after c (List.replicate n (.load k))).loads[k]? = some (.ofResult (c.load s.disk)) := by
  have hcount : c.mostSteps d calls ≤ (List.replicate n (Move.load k)).count (.load k) := by
    simpa using hturns
  obtain ⟨contents, hdone⟩ := exists_done hs hc hcalls hfresh hcount
  have hsteps : (Loading.advance c s.disk)^[n] .fresh = .done contents := by
    rw [after_replicate_load, List.getElem?_modify, hfresh] at hdone
    simpa using hdone
  have hload := Cache.load_eq (hs.list_ne hc)
  rw [hdone, Option.some.injEq]
  refine Loading.Leads.unique (c := c) (d := s.disk) ⟨n, hsteps⟩ (Loading.leads_ofResult c s.disk)
    rfl ?_
  rw [hload]
  rfl

end Loading

/-! ## Nothing is lost or torn -/

/-- A cache in which all documents of some calls are written, on top of what a disk held. -/
structure Cache.Complete (c : Cache) (d : Disk) (calls : List WriteCall) (d' : Disk) : Prop where
  /-- A load gives the entries of the documents of each origin in the order of their names. -/
  load : ∃ contents, c.load d' = .ok contents ∧
    contents.client = (CacheOrigin.client.documents (c.files d')).toList.flatMap (·.2) ∧
    contents.server = (CacheOrigin.server.documents (c.files d')).toList.flatMap (·.2) ∧
    contents.entries = contents.client ++ contents.server
  /-- The documents are the files that have such a name and can be read as one. -/
  valid : ∀ (origin : CacheOrigin) (name : String) (entries : List Entry),
    (origin.documents (c.files d'))[name]? = some entries ↔
      Cache.isDocumentName origin name = true ∧ ∃ bytes, (c.files d')[name]? = some bytes ∧
        (Json.parseBytes? bytes).bind Entry.ofDocument? = some entries
  written : ∀ call ∈ calls,
    (call.origin.documents (c.files d'))[call.documentName]? = some call.entries
  /-- The other documents are as before. -/
  others : ∀ (origin : CacheOrigin) (name : String), (∀ call ∈ calls, call.documentName ≠ name) →
    (origin.documents (c.files d'))[name]? = (origin.documents (c.files d))[name]?

/-- What holds when writers and loads lead from a disk to a scene and on to a later one. -/
structure Scene.Unharmed (c : Cache) (d : Disk) (calls : List WriteCall) (s s' : Scene) : Prop where
  /-- A draft is no document. -/
  draft : ∀ call ∈ calls, ∀ origin : CacheOrigin, Cache.isDocumentName origin call.draftName = false
  /-- What is written gives the entries of the call. -/
  whole : ∀ call ∈ calls, call.origin.document? call.documentName call.bytes = some call.entries
  /-- A file that is no draft holds what it held, or all that a writer wrote. -/
  files : ∀ name, (∀ call ∈ calls, call.draftName ≠ name) →
    Holds c s s' name (c.files s'.disk)[name]?
  /-- What was written stays written. -/
  written : ∀ name bytes, s.Written name bytes → (c.files s'.disk)[name]? = some bytes
  /-- A load that begins in the scene sees each document as it was or as it was written since. -/
  loads : ∀ (k : Nat) (contents : CacheContents), s.loads[k]? = some .fresh →
    s'.loads[k]? = some (.done contents) →
      Sees c s s' .client contents.client ∧ Sees c s s' .server contents.server
  loads_ne : ∀ (k : Nat) (e : Error), s.loads[k]? = some .fresh → s'.loads[k]? ≠ some (.failed e)
  complete : (∀ w ∈ s'.writers, w.made = 3) → c.Complete d calls s'.disk

theorem Cache.Shared.complete (h : c.Shared d calls) {s : Scene} (hs : s.Sound c d)
    (hcalls : s.writers.map (·.call) = calls) (hdone : ∀ w ∈ s.writers, w.made = 3) :
    c.Complete d calls s.disk where
  load := ⟨_, Cache.load_eq (hs.list_ne h), rfl, rfl, rfl⟩
  valid origin name entries := by
    rw [CacheOrigin.getElem?_documents, Option.bind_eq_some_iff]
    unfold CacheOrigin.document?
    constructor
    · rintro ⟨bytes, hbytes, hdocument⟩
      split at hdocument
      · next hname => exact ⟨hname, bytes, hbytes, hdocument⟩
      · cases hdocument
    · rintro ⟨hname, bytes, hbytes, hdocument⟩
      exact ⟨bytes, hbytes, by rwa [if_pos hname]⟩
  written call hcall := by
    rw [← hcalls] at hcall
    obtain ⟨w, hw, rfl⟩ := List.mem_map.1 hcall
    have hwritten : s.Written w.call.documentName w.call.bytes := ⟨w, hw, hdone w hw, rfl, rfl⟩
    rw [CacheOrigin.getElem?_documents, hs.files_of_written h hwritten]
    exact w.call.document?_bytes
  others origin name hname := by
    refine CacheOrigin.getElem?_documents_congr fun hdocument => ?_
    have hnot : ∀ bytes, ¬s.Written name bytes := by
      rintro bytes ⟨w, hw, -, hdocumentName, -⟩
      exact hname w.call (hcalls ▸ List.mem_map_of_mem hw) hdocumentName
    rw [hs.files_of_not_written h (fun w _ => w.call.draftName_ne_of_isDocumentName hdocument) hnot]
    exact ((sound_start h 0).files_eq h name).symm

theorem Scene.Sound.unharmed {s : Scene} (hs : s.Sound c d) (h : c.Shared d calls)
    (hcalls : s.writers.map (·.call) = calls) (moves : List Move) :
    Unharmed c d calls s (s.after c moves) where
  draft call _ origin := call.isDocumentName_draftName origin
  whole call _ := call.document?_bytes
  files name hname := hs.holds_files h moves (by rwa [hcalls])
  written name bytes hwritten :=
    (hs.after moves).files_of_written h (hs.written_after hwritten moves)
  loads k contents hfresh hdone := sound_loading hs h hfresh moves hdone
  loads_ne k e hfresh hfailed := sound_loading hs h hfresh moves hfailed
  complete hdone := h.complete (hs.after moves) ((calls_after hs moves).trans hcalls) hdone

/-- Writers that share a cache lose and tear nothing, whatever the order of the steps and whoever
stops.  If nothing is in their way, no step fails.  A load that has its turns comes to its end, and
to what a load of the cache gives if it is alone. -/
theorem Scene.unharmed_after (h : c.Shared d calls) (loads : Nat) (moves more : List Move) :
    Unharmed c d calls ((start d calls loads).after c moves)
        ((start d calls loads).after c (moves ++ more)) ∧
      (c.Accepts d calls → ∀ k w,
        ((start d calls loads).after c (moves ++ more)).writers[k]? = some w →
          w.fault? = none ∧ w.made = min ((moves ++ more).count (.write k)) 3) ∧
      (∀ k, ((start d calls loads).after c moves).loads[k]? = some .fresh →
        c.mostSteps d calls ≤ more.count (.load k) →
          ∃ contents, ((start d calls loads).after c (moves ++ more)).loads[k]?
            = some (.done contents)) ∧
      ∀ k n, ((start d calls loads).after c moves).loads[k]? = some .fresh →
        c.mostSteps d calls ≤ n →
          ((start d calls loads).after c (moves ++ List.replicate n (.load k))).loads[k]?
            = some (.ofResult (c.load ((start d calls loads).after c moves).disk)) := by
  have hstart := sound_start h loads
  have hs := hstart.after moves
  have hcalls : ((start d calls loads).after c moves).writers.map (·.call) = calls := by
    rw [calls_after hstart moves, start, List.map_map]
    exact List.map_id calls
  refine ⟨?_, fun hfree => (made_after h hfree loads (moves ++ more)).2, fun k hfresh hturns => ?_,
    fun k n hfresh hturns => ?_⟩
  · rw [after_append]
    exact hs.unharmed h hcalls more
  · rw [after_append]
    exact exists_done hs h hcalls hfresh hturns
  · rw [after_append]
    exact loads_alone hs h hcalls hfresh hturns

/-- A test and the server write their documents. -/
def twoCalls : List WriteCall :=
  [.client ⟨0, "cart.spec.ts"⟩ [⟨"/_next/a.js", none, []⟩],
    .server ⟨"20260101T000000000Z", "01234567"⟩ [⟨"file:///b.js", none, []⟩]]

theorem shared_twoCalls : Cache.Shared ⟨"cache"⟩ .empty twoCalls := by
  have hne : twoCalls[0].documentName ≠ twoCalls[1].documentName :=
    WriteCall.documentName_ne (by decide)
  refine ⟨Disk.wellFormed_empty, by decide, .inr ⟨by decide, by decide⟩, ?_, ?_⟩
  · refine List.forall_mem_cons.2 ⟨trivial, List.forall_mem_singleton.2 ?_⟩
    show ∀ c ∈ _, _
    simp
  · simpa [twoCalls] using hne

theorem accepts_twoCalls : Cache.Accepts ⟨"cache"⟩ .empty twoCalls := by
  have hfree : ∀ name,
      (Disk.empty.set ["cache"] .directory).node? ["cache", name] ≠ some .directory := by
    intro name
    rw [Disk.node?_set (by simp), if_neg (by simp)]
    simp [Disk.node?, Disk.empty]
  have htarget : (Disk.empty.set ["cache"] .directory).target "cache" = ["cache"] := by decide
  refine ⟨Disk.empty.set ["cache"] .directory, by decide, fun call _ => ?_⟩
  unfold Cache.IsFree
  rw [htarget]
  exact ⟨hfree call.documentName, hfree call.draftName⟩

/-- Both writers and a load are at work at the same time, and the load comes to its end. -/
theorem Scene.unharmed_after_twoCalls :
    Cache.Shared ⟨"cache"⟩ .empty twoCalls ∧ Cache.Accepts ⟨"cache"⟩ .empty twoCalls ∧
      Unharmed ⟨"cache"⟩ .empty twoCalls
        ((start .empty twoCalls 1).after ⟨"cache"⟩ [.write 0, .write 1, .write 0])
        ((start .empty twoCalls 1).after ⟨"cache"⟩ ([.write 0, .write 1, .write 0]
          ++ [.load 0, .write 1, .load 0, .write 0, .write 1, .load 0])) ∧
      ∃ contents, ((start .empty twoCalls 1).after ⟨"cache"⟩ ([.write 0, .write 1, .write 0]
          ++ [.load 0, .write 1, .load 0, .write 0, .write 1] ++ List.replicate 5 (.load 0))).loads[0]?
        = some (.done contents) := by
  refine ⟨shared_twoCalls, accepts_twoCalls, (unharmed_after shared_twoCalls 1 _ _).1, ?_⟩
  rw [List.append_assoc]
  exact (unharmed_after shared_twoCalls 1 _ _).2.2.1 0 rfl (by decide)

end BundleCoverage
