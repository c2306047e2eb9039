import BundleCoverage.Proofs.Writers
import Mathlib.Data.List.Nodup
import Mathlib.Logic.Function.Iterate

/-!
# Scenes of a shared cache

Writers and loads make their steps one by one, in any order, and each of them may stop anywhere
(`Scene.after`).  A load lists the documents of an origin in one step and reads each in a step of
its own; without interruption this is the load of the cache (`Loading.leads_ofResult`).

In every scene (`Scene.Sound`, `Sound.after`) a file holds what it held before, or all that was
written by a writer that is done, but for the drafts; and what is written stays written.
-/

namespace BundleCoverage

/-! ## Loads -/

/-- A load of which some steps were made. -/
inductive Loading where
  /-- Nothing was read. -/
  | fresh
  /-- Documents of an origin are still to be read, where those of the browser come first. -/
  | reading (origin : CacheOrigin) (client : List Entry) (paths : List String)
    (entries : List Entry)
  /-- A listing failed. -/
  | failed (e : Error)
  /-- All was read. -/
  | done (contents : CacheContents)

namespace Loading

/-- Lists the documents of an origin. -/
def list (c : Cache) (d : Disk) (origin : CacheOrigin) (client : List Entry) : Loading :=
  match c.documentPaths d origin with
  | .ok paths => reading origin client paths []
  | .error e => failed e

/-- Makes the next step of a load. -/
def advance (c : Cache) (d : Disk) : Loading → Loading
  | fresh => list c d .client []
  | reading origin client (path :: paths) entries =>
    reading origin client paths (entries ++ ((Cache.readDocument d path).toOption).getD [])
  | reading .client _ [] entries => list c d .server entries
  | reading .server client [] entries => done ⟨client, entries⟩
  | failed e => failed e
  | done contents => done contents

/-- What a load came to. -/
def ofResult : Except Error CacheContents → Loading
  | .ok contents => done contents
  | .error e => failed e

/-- Whether some steps lead from one state to another, on a disk that stays as it is. -/
def Leads (c : Cache) (d : Disk) (l l' : Loading) : Prop := ∃ n, (advance c d)^[n] l = l'

section Leads

variable {c : Cache} {d : Disk}

theorem Leads.trans {a b e : Loading} (hab : Leads c d a b) (hbe : Leads c d b e) :
    Leads c d a e := by
  obtain ⟨m, rfl⟩ := hab
  obtain ⟨n, rfl⟩ := hbe
  exact ⟨n + m, Function.iterate_add_apply ..⟩

theorem leads_advance (l : Loading) : Leads c d l (l.advance c d) := ⟨1, rfl⟩

theorem leads_reading (origin : CacheOrigin) (client : List Entry) (paths : List String)
    (entries : List Entry) :
    Leads c d (reading origin client paths entries) (reading origin client []
      (entries ++ paths.flatMap fun path => ((Cache.readDocument d path).toOption).getD [])) := by
  induction paths generalizing entries with
  | nil => exact ⟨0, by simp⟩
  | cons path paths ih =>
      rw [List.flatMap_cons, ← List.append_assoc]
      exact (leads_advance _).trans (ih _)

/-- What the load of an origin came to. -/
def loaded (origin : CacheOrigin) (client : List Entry) : Except Error (List Entry) → Loading
  | .ok entries => reading origin client [] entries
  | .error e => failed e

/-- Listing the documents of an origin and reading them is loading the origin. -/
theorem leads_list (c : Cache) (d : Disk) (origin : CacheOrigin) (client : List Entry) :
    Leads c d (list c d origin client) (loaded origin client (c.loadOrigin d origin)) := by
  unfold list Cache.loadOrigin
  cases c.documentPaths d origin with
  | error e => exact ⟨0, rfl⟩
  | ok paths => exact leads_reading origin client paths []

/-- Without interruption, the steps are the load. -/
theorem leads_ofResult (c : Cache) (d : Disk) : Leads c d fresh (ofResult (c.load d)) := by
  have hclient := (leads_advance fresh).trans (leads_list c d .client [])
  unfold Cache.load
  cases hresult : c.loadOrigin d .client with
  | error e =>
      rw [hresult] at hclient
      exact hclient
  | ok client =>
      rw [hresult] at hclient
      have hserver := hclient.trans ((leads_advance _).trans (leads_list c d .server client))
      cases hresult : c.loadOrigin d .server with
      | error e =>
          rw [hresult] at hserver
          exact hserver
      | ok server =>
          rw [hresult] at hserver
          exact hserver.trans (leads_advance _)

end Leads

end Loading

/-! ## Scenes -/

/-- A disk with writers and loads at work. -/
structure Scene where
  /-- The disk. -/
  disk : Disk
  /-- The writers. -/
  writers : List Writer
  /-- The loads. -/
  loads : List Loading

/-- The next step of someone. -/
inductive Move where
  /-- The next step of a writer. -/
  | write (k : Nat)
  /-- The next step of a load. -/
  | load (k : Nat)
deriving DecidableEq

namespace Scene

/-- The scene before any step. -/
def start (d : Disk) (calls : List WriteCall) (loads : Nat) : Scene :=
  ⟨d, calls.map fun call => { call }, List.replicate loads .fresh⟩

/-- Makes a step. -/
def step (c : Cache) (s : Scene) : Move → Scene
  | .write k =>
    match s.writers[k]? with
    | none => s
    | some w =>
      let (w, disk) := w.advance c s.disk
      { s with disk, writers := s.writers.set k w }
  | .load k => { s with loads := s.loads.modify k (Loading.advance c s.disk) }

/-- Makes some steps in order. -/
def after (c : Cache) (s : Scene) (moves : List Move) : Scene := moves.foldl (step c) s

/-- Whether a writer that is done wrote a document. -/
def Written (s : Scene) (name : String) (bytes : List UInt8) : Prop :=
  ∃ w ∈ s.writers, w.made = 3 ∧ w.call.documentName = name ∧ w.call.bytes = bytes

/-- What holds in a scene that came from a disk. -/
structure Sound (c : Cache) (d : Disk) (s : Scene) : Prop where
  wellFormed : s.disk.WellFormed
  workingDirectory : s.disk.workingDirectory = d.workingDirectory
  /-- The directory is there as soon as a step was made. -/
  opened : s.disk.Opens c.directory ∨ s.disk = d ∧ ∀ w ∈ s.writers, w.made = 0
  plain : ∀ w ∈ s.writers, w.call.IsPlain
  distinct : (s.writers.map (·.call.documentName)).Nodup
  drafted : ∀ w ∈ s.writers, w.made = 2 → c.file? s.disk w.call.draftName = some w.call.bytes
  written : ∀ w ∈ s.writers, w.made = 3 → c.file? s.disk w.call.documentName = some w.call.bytes
  kept : ∀ name, (∀ w ∈ s.writers, w.call.draftName ≠ name ∧
    (w.made = 3 → w.call.documentName ≠ name)) → c.file? s.disk name = c.file? d name

/-- A writer makes a step while the others wait. -/
theorem step_write (c : Cache) (s : Scene) (k : Nat) :
    s.step c (.write k) = s ∨ ∃ before w after, s.writers = before ++ w :: after ∧
      s.step c (.write k) = { s with
        disk := (w.advance c s.disk).2
        writers := before ++ (w.advance c s.disk).1 :: after } := by
  rw [step]
  cases hw : s.writers[k]? with
  | none => exact .inl rfl
  | some w =>
      obtain ⟨hk, rfl⟩ := List.getElem?_eq_some_iff.1 hw
      obtain ⟨before, after, hwriters, -, hset⟩ := List.exists_of_set hk
      exact .inr ⟨before, s.writers[k], after, hwriters, congrArg (Scene.mk _ · _) hset⟩

section Sound

variable {c : Cache} {d : Disk} {s : Scene}

section Set

variable {before after : List Writer} {w w' : Writer} {d' : Disk} (h : s.Sound c d)
  (hwriters : s.writers = before ++ w :: after)

include h hwriters

/-- Beside the writer whose turn it is, there are the others, which write other documents. -/
theorem Sound.cases_of_mem_set {v : Writer} (hv : v ∈ before ++ w' :: after) :
    v = w' ∨ v ∈ s.writers ∧ v.call.documentName ≠ w.call.documentName := by
  have hdistinct := h.distinct
  rw [hwriters, List.map_append, List.map_cons, List.nodup_middle, List.nodup_cons,
    ← List.map_append] at hdistinct
  simp only [List.mem_append, List.mem_cons] at hv
  rcases hv with hv | rfl | hv
  · refine .inr ⟨by simp [hwriters, hv], fun heq => hdistinct.1 ?_⟩
    exact heq ▸ List.mem_map_of_mem (List.mem_append_left _ hv)
  · exact .inl rfl
  · refine .inr ⟨by simp [hwriters, hv], fun heq => hdistinct.1 ?_⟩
    exact heq ▸ List.mem_map_of_mem (List.mem_append_right _ hv)

variable (hstep : w.Advances c s.disk w' d')

include hstep

theorem Sound.opened_set :
    d'.Opens c.directory ∨ d' = d ∧ ∀ v ∈ before ++ w' :: after, v.made = 0 := by
  rcases hstep.opens h.wellFormed with hopens | ⟨rfl, hmade⟩
  · exact .inl hopens
  · rcases h.opened with hopens | ⟨hdisk, hnone⟩
    · exact .inl hopens
    · refine .inr ⟨hdisk, fun v hv => ?_⟩
      rcases h.cases_of_mem_set hwriters hv with rfl | ⟨hv, -⟩
      · exact hmade.trans (hnone w (by simp [hwriters]))
      · exact hnone v hv

theorem Sound.drafted_set {v : Writer} (hv : v ∈ before ++ w' :: after) (hmade : v.made = 2) :
    c.file? d' v.call.draftName = some v.call.bytes := by
  rcases h.cases_of_mem_set hwriters hv with rfl | ⟨hv, hne⟩
  · rw [hstep.call]
    exact hstep.file?_draftName hmade (h.drafted w (by simp [hwriters]))
  · rw [← h.drafted v hv hmade]
    exact hstep.file?_of_ne (v.call.draftName_ne hne) fun _ =>
      v.call.draftName_ne_documentName w.call

theorem Sound.written_set {v : Writer} (hv : v ∈ before ++ w' :: after) (hmade : v.made = 3) :
    c.file? d' v.call.documentName = some v.call.bytes := by
  have hw : w ∈ s.writers := by simp [hwriters]
  rcases h.cases_of_mem_set hwriters hv with rfl | ⟨hv, hne⟩
  · rw [hstep.call]
    exact hstep.file?_documentName hmade (h.drafted w hw) (h.written w hw)
  · rw [← h.written v hv hmade]
    exact hstep.file?_of_ne (w.call.draftName_ne_documentName v.call).symm fun _ => hne

theorem Sound.kept_set {name : String} (hname : ∀ v ∈ before ++ w' :: after,
    v.call.draftName ≠ name ∧ (v.made = 3 → v.call.documentName ≠ name)) :
    c.file? d' name = c.file? d name := by
  have hw' := hname w' (by simp)
  rw [hstep.call] at hw'
  have hframe := hstep.file?_of_ne hw'.1.symm fun hmade => (hw'.2 hmade).symm
  refine hframe.trans (h.kept name fun v hv => ?_)
  rw [hwriters, List.mem_append, List.mem_cons] at hv
  rcases hv with hv | rfl | hv
  · exact hname v (List.mem_append_left _ hv)
  · exact ⟨hw'.1, fun hmade => hw'.2 (hstep.made_of_done hmade)⟩
  · exact hname v (List.mem_append_right _ (List.mem_cons_of_mem _ hv))

theorem Sound.set : Sound c d { s with disk := d', writers := before ++ w' :: after } where
  wellFormed := hstep.wellFormed (h.plain w (by simp [hwriters])) h.wellFormed
  workingDirectory := hstep.workingDirectory.trans h.workingDirectory
  opened := h.opened_set hwriters hstep
  plain v hv := by
    rcases h.cases_of_mem_set hwriters hv with rfl | ⟨hv, -⟩
    · rw [hstep.call]
      exact h.plain w (by simp [hwriters])
    · exact h.plain v hv
  distinct := by
    have hdistinct := h.distinct
    rw [hwriters, List.map_append, List.map_cons] at hdistinct
    rwa [List.map_append, List.map_cons, hstep.call]
  drafted _ hv hmade := h.drafted_set hwriters hstep hv hmade
  written _ hv hmade := h.written_set hwriters hstep hv hmade
  kept _ hname := h.kept_set hwriters hstep hname

end Set

theorem Sound.step (h : s.Sound c d) (move : Move) : (s.step c move).Sound c d := by
  cases move with
  | load k => exact { h with }
  | write k =>
      rcases step_write c s k with hstep | ⟨before, w, after, hwriters, hstep⟩
      · rwa [hstep]
      · rw [hstep]
        exact h.set hwriters (Writer.advances c s.disk (h.plain w (by simp [hwriters])))

theorem Sound.after (h : s.Sound c d) (moves : List Move) : (s.after c moves).Sound c d := by
  induction moves generalizing s with
  | nil => exact h
  | cons move moves ih => exact ih (h.step move)

end Sound

end Scene

/-! ## Files in a scene -/

/-- What is asked of a cache that writers share. -/
structure Cache.Shared (c : Cache) (d : Disk) (calls : List WriteCall) : Prop where
  wellFormed : d.WellFormed
  named : c.directory ≠ ""
  /-- The path leads to a directory, or to nothing. -/
  directory : d.Opens c.directory ∨
    d.list c.directory = .error .notFound ∧ d.node? (d.target c.directory) = none
  plain : ∀ call ∈ calls, call.IsPlain
  distinct : (calls.map WriteCall.documentName).Nodup

namespace Scene

variable {c : Cache} {d : Disk} {calls : List WriteCall}

theorem sound_start (h : c.Shared d calls) (loads : Nat) : (start d calls loads).Sound c d where
  wellFormed := h.wellFormed
  workingDirectory := rfl
  opened := by
    refine .inr ⟨rfl, fun w hw => ?_⟩
    obtain ⟨call, -, rfl⟩ := List.mem_map.1 hw
    rfl
  plain w hw := by
    obtain ⟨call, hcall, rfl⟩ := List.mem_map.1 hw
    exact h.plain call hcall
  distinct := by
    rw [start, List.map_map]
    exact h.distinct
  drafted w hw hmade := by
    obtain ⟨call, -, rfl⟩ := List.mem_map.1 hw
    cases hmade
  written w hw hmade := by
    obtain ⟨call, -, rfl⟩ := List.mem_map.1 hw
    cases hmade
  kept name _ := rfl

section Files

variable {s : Scene} (hs : s.Sound c d) (h : c.Shared d calls)

include hs h

theorem Sound.list_ne : s.disk.list c.directory ≠ .error .unusable := by
  have hlist : ∀ d' : Disk, d'.Opens c.directory → d'.list c.directory ≠ .error .unusable := by
    intro d' hopens heq
    rw [hopens.list h.named] at heq
    cases heq
  rcases hs.opened with hopens | ⟨hdisk, -⟩
  · exact hlist _ hopens
  · rw [hdisk]
    rcases h.directory with hopens | ⟨hmissing, -⟩
    · exact hlist _ hopens
    · rw [hmissing]
      simp

/-- The files in the directory are those at the place of the directory. -/
theorem Sound.files_eq (name : String) : (c.files s.disk)[name]? = c.file? s.disk name := by
  refine Option.ext fun bytes => ?_
  rw [Cache.getElem?_files h.named hs.wellFormed, Cache.file?, Disk.file?_eq_some_iff]
  refine ⟨And.right, fun hnode => ⟨?_, hnode⟩⟩
  rcases hs.opened with hopens | ⟨hdisk, -⟩
  · exact hopens
  · rw [hdisk] at hnode ⊢
    rcases h.directory with hopens | ⟨-, hnone⟩
    · exact hopens
    · have hparent := h.wellFormed.parent _ _ hnode
      rw [List.dropLast_concat, hnone] at hparent
      cases hparent

theorem Sound.files_of_written {name : String} {bytes : List UInt8}
    (hwritten : s.Written name bytes) : (c.files s.disk)[name]? = some bytes := by
  obtain ⟨w, hw, hmade, rfl, rfl⟩ := hwritten
  rw [hs.files_eq h]
  exact hs.written w hw hmade

/-- A file that is no draft and was not written is as it was. -/
theorem Sound.files_of_not_written {name : String}
    (hdraft : ∀ w ∈ s.writers, w.call.draftName ≠ name)
    (hwritten : ∀ bytes, ¬s.Written name bytes) : (c.files s.disk)[name]? = c.file? d name := by
  rw [hs.files_eq h]
  exact hs.kept name fun w hw => ⟨hdraft w hw, fun hmade heq => hwritten _ ⟨w, hw, hmade, heq, rfl⟩⟩

end Files

/-! ## Later scenes -/

section Later

variable {s : Scene}

theorem after_append (c : Cache) (s : Scene) (moves more : List Move) :
    s.after c (moves ++ more) = (s.after c moves).after c more := List.foldl_append

theorem after_concat (c : Cache) (s : Scene) (moves : List Move) (move : Move) :
    s.after c (moves ++ [move]) = (s.after c moves).step c move := after_append c s moves [move]

theorem Sound.written_step (hs : s.Sound c d) {name : String} {bytes : List UInt8}
    (h : s.Written name bytes) (move : Move) : (s.step c move).Written name bytes := by
  obtain ⟨v, hv, hmade, hname, hbytes⟩ := h
  cases move with
  | load k => exact ⟨v, hv, hmade, hname, hbytes⟩
  | write k =>
      rcases step_write c s k with hstep | ⟨before, w, after, hwriters, hstep⟩
      · rw [hstep]
        exact ⟨v, hv, hmade, hname, hbytes⟩
      · rw [hstep]
        rw [hwriters] at hv
        have hadvances := Writer.advances c s.disk (hs.plain w (by simp [hwriters]))
        rcases List.mem_append.1 hv with hv | hv
        · exact ⟨v, List.mem_append_left _ hv, hmade, hname, hbytes⟩
        · rcases List.mem_cons.1 hv with rfl | hv
          · refine ⟨_, List.mem_append_right _ (List.mem_cons_self ..), ?_⟩
            rw [hadvances.call]
            exact ⟨hadvances.made_of_done hmade, hname, hbytes⟩
          · exact ⟨v, List.mem_append_right _ (List.mem_cons_of_mem _ hv), hmade, hname, hbytes⟩

theorem Sound.written_after (hs : s.Sound c d) {name : String} {bytes : List UInt8}
    (h : s.Written name bytes) (moves : List Move) : (s.after c moves).Written name bytes := by
  induction moves generalizing s with
  | nil => exact h
  | cons move moves ih => exact ih (hs.step move) (hs.written_step h move)

theorem calls_step (hs : s.Sound c d) (move : Move) :
    (s.step c move).writers.map (·.call) = s.writers.map (·.call) := by
  cases move with
  | load k => rfl
  | write k =>
      rcases step_write c s k with hstep | ⟨before, w, after, hwriters, hstep⟩
      · rw [hstep]
      · have hadvances := Writer.advances c s.disk (hs.plain w (by simp [hwriters]))
        rw [hstep, hwriters, List.map_append, List.map_cons, List.map_append, List.map_cons,
          hadvances.call]

/-- The calls stay the same. -/
theorem calls_after (hs : s.Sound c d) (moves : List Move) :
    (s.after c moves).writers.map (·.call) = s.writers.map (·.call) := by
  induction moves generalizing s with
  | nil => rfl
  | cons move moves ih => exact (ih (hs.step move)).trans (calls_step hs move)

theorem loads_write (c : Cache) (s : Scene) (k : Nat) : (s.step c (.write k)).loads = s.loads := by
  rcases step_write c s k with hstep | ⟨before, w, after, -, hstep⟩
  · rw [hstep]
  · rw [hstep]

end Later

end Scene

end BundleCoverage
