import BundleCoverage.Proofs.Scenes
import Mathlib.Data.List.Perm.Subperm

/-!
# Writers and loads that have their turns

If the directory can be made and no directory stands where a document or its draft will be
(`Cache.Accepts`), this stays so whoever makes a step (`Writer.Advances.accepts`).  No step fails
then, and a writer is as far as it had turns (`Scene.made_after`).

Writers add documents while a load is under way, but no more than they write in all.  So a listing
is never longer than that (`Scene.Sound.length_documentPaths_le`), and each turn of a load takes it
nearer to its end (`Scene.Sound.left_after`).
-/

namespace BundleCoverage

variable {c : Cache} {d d' : Disk} {calls : List WriteCall}

/-- Whether no directory stands where a document or its draft will be. -/
def Cache.IsFree (c : Cache) (d : Disk) (call : WriteCall) : Prop :=
  d.node? (d.target c.directory ++ [call.documentName]) ≠ some .directory ∧
    d.node? (d.target c.directory ++ [call.draftName]) ≠ some .directory

/-- Whether the directory of a cache can be made and nothing is in the way of some calls. -/
def Cache.Accepts (c : Cache) (d : Disk) (calls : List WriteCall) : Prop :=
  ∃ d', d.makeDirectories c.directory = .ok d' ∧ ∀ call ∈ calls, c.IsFree d' call

theorem Cache.accepts_iff (h : d.Opens c.directory) :
    c.Accepts d calls ↔ ∀ call ∈ calls, c.IsFree d call := by
  unfold Accepts
  rw [h.makeDirectories]
  simp

/-- Where no directory is added, nothing gets in the way. -/
theorem Cache.IsFree.of_directories {call : WriteCall} (h : c.IsFree d call)
    (hworking : d'.workingDirectory = d.workingDirectory)
    (hold : ∀ s, d'.node? s = some .directory → d.node? s = some .directory) :
    c.IsFree d' call := by
  have htarget : d'.target c.directory = d.target c.directory := by
    rw [Disk.target, Disk.target, Disk.start, Disk.start, hworking]
  unfold IsFree
  rw [htarget]
  exact ⟨fun hs => h.1 (hold _ hs), fun hs => h.2 (hold _ hs)⟩

namespace Writer

variable {w w' : Writer}

theorem Advances.accepts (h : w.Advances c d w' d') (hd : d.WellFormed)
    (haccepts : c.Accepts d calls) : c.Accepts d' calls := by
  rcases h.opens hd with hopens' | ⟨rfl, -⟩
  · rw [Cache.accepts_iff hopens']
    cases h with
    | rest => exact (Cache.accepts_iff hopens').1 haccepts
    | prepare _ hmake =>
        obtain ⟨made, hmade, hfree⟩ := haccepts
        rw [hmake] at hmade
        cases hmade
        exact hfree
    | draft _ hopens hnode =>
        intro call hcall
        refine ((Cache.accepts_iff hopens).1 haccepts call hcall).of_directories rfl fun s hs => ?_
        rw [Disk.node?_set (by simp)] at hs
        split at hs
        · cases hs
        · exact hs
    | publish _ hopens =>
        intro call hcall
        refine ((Cache.accepts_iff hopens).1 haccepts call hcall).of_directories rfl fun s hs => ?_
        rw [Disk.node?_moved (by simp) (by simp)] at hs
        split at hs
        · cases hs
        · split at hs
          · cases hs
          · exact hs
  · exact haccepts

/-- With nothing in the way, a step is made unless all are. -/
theorem advance_eq (hplain : w.call.IsPlain) (hfault : w.fault? = none) (hmade : w.made ≤ 3)
    (haccepts : c.Accepts d calls) (hcall : w.call ∈ calls)
    (hopens : w.made ≠ 0 → d.Opens c.directory)
    (hdraft : w.made = 2 → c.file? d w.call.draftName = some w.call.bytes) :
    (w.advance c d).1 = { w with made := min (w.made + 1) 3 } := by
  obtain ⟨call, made, fault?⟩ := w
  obtain rfl : fault? = none := hfault
  have hfree : made ≠ 0 → c.IsFree d call :=
    fun h => (Cache.accepts_iff (hopens h)).1 haccepts call hcall
  match made, hmade with
  | 0, _ =>
      obtain ⟨d', hmake, -⟩ := haccepts
      have hstep : c.prepare d = .ok d' := Cache.prepare_eq_ok_iff.2 hmake
      simp [advance, Cache.writeSteps, hstep]
  | 1, _ =>
      have hstep := (Cache.draft_eq_ok_iff hplain).2 ⟨hopens (by simp), (hfree (by simp)).2, rfl⟩
      simp [advance, Cache.writeSteps, hstep]
  | 2, _ =>
      have hstep := (Cache.publish_eq_ok_iff hplain).2
        ⟨hopens (by simp), (hfree (by simp)).1, _, hdraft rfl, rfl⟩
      simp [advance, Cache.writeSteps, hstep]
  | 3, _ => rfl

end Writer

namespace Scene

theorem writers_write (c : Cache) (s : Scene) (j k : Nat) :
    (s.step c (.write j)).writers[k]? = s.writers[k]?.map fun w =>
      if j = k then (w.advance c s.disk).1 else w := by
  rw [step]
  cases hj : s.writers[j]? with
  | none =>
      by_cases hjk : j = k
      · subst hjk
        simp [hj]
      · simp [hjk]
  | some w =>
      dsimp only
      rw [List.getElem?_set]
      split
      · next hjk =>
        subst hjk
        rw [hj, if_pos (List.getElem?_eq_some_iff.1 hj).1]
        simp
      · next hjk => simp

theorem Sound.accepts_step {s : Scene} (hs : s.Sound c d) (h : c.Accepts s.disk calls)
    (move : Move) : c.Accepts (s.step c move).disk calls := by
  cases move with
  | load k => exact h
  | write k =>
      rcases step_write c s k with hstep | ⟨before, w, after, hwriters, hstep⟩
      · rwa [hstep]
      · rw [hstep]
        have hadvances := Writer.advances c s.disk (hs.plain w (by simp [hwriters]))
        exact hadvances.accepts hs.wellFormed h

/-- With nothing in the way, a writer whose turn it is makes its step. -/
theorem Sound.made_step {s : Scene} (hs : s.Sound c d)
    (h : c.Accepts s.disk (s.writers.map (·.call))) {turns : Nat → Nat}
    (hmade : ∀ k w, s.writers[k]? = some w →
      w.fault? = none ∧ w.made = min (turns k) 3) (j : Nat) {k : Nat} {w : Writer}
    (hw : (s.step c (.write j)).writers[k]? = some w) :
    w.fault? = none ∧ w.made = min (turns k + if j = k then 1 else 0) 3 := by
  rw [writers_write] at hw
  obtain ⟨v, hv, rfl⟩ := Option.map_eq_some_iff.1 hw
  obtain ⟨hfault, hcount⟩ := hmade k v hv
  have hmem := List.mem_of_getElem? hv
  have hopens (hstarted : v.made ≠ 0) : s.disk.Opens c.directory :=
    hs.opened.resolve_right fun h => hstarted (h.2 v hmem)
  split
  · rw [Writer.advance_eq (hs.plain v hmem) hfault (by omega) h (List.mem_map_of_mem hmem) hopens
      (hs.drafted v hmem)]
    refine ⟨hfault, ?_⟩
    show min (v.made + 1) 3 = _
    omega
  · exact ⟨hfault, hcount⟩

/-- With nothing in the way, a writer is as far as it had turns. -/
theorem made_after (h : c.Shared d calls) (hfree : c.Accepts d calls) (loads : Nat)
    (moves : List Move) :
    c.Accepts ((start d calls loads).after c moves).disk calls ∧
      ∀ k w, ((start d calls loads).after c moves).writers[k]? = some w →
        w.fault? = none ∧ w.made = min (moves.count (.write k)) 3 := by
  have hstart := sound_start h loads
  induction moves using List.reverseRecOn with
  | nil =>
      refine ⟨hfree, fun k w hw => ?_⟩
      obtain ⟨call, -, rfl⟩ := List.mem_map.1 (List.mem_of_getElem? hw)
      exact ⟨rfl, rfl⟩
  | append_singleton moves move ih =>
      obtain ⟨haccepts, hmade⟩ := ih
      have hs := hstart.after moves
      have hcalls : ((start d calls loads).after c moves).writers.map (·.call) = calls := by
        rw [calls_after hstart moves, start, List.map_map]
        exact List.map_id calls
      rw [after_concat]
      refine ⟨hs.accepts_step haccepts move, fun k w hw => ?_⟩
      rw [List.count_append, List.count_singleton]
      cases move with
      | load j => exact hmade k w hw
      | write j =>
          have hturn := hs.made_step (hcalls.symm ▸ haccepts) hmade j hw
          simpa using hturn

end Scene

/-! ## Loads -/

namespace Loading

/-- How many steps of a load are left if no listing finds more than some number of documents. -/
def left (documents : Nat) : Loading → Nat
  | fresh => 2 * documents + 3
  | reading .client _ paths _ => paths.length + documents + 2
  | reading .server _ paths _ => paths.length + 1
  | failed _ => 0
  | done _ => 0

theorem left_advance_le {documents : Nat} (hlist : ∀ origin paths,
    c.documentPaths d origin = .ok paths → paths.length ≤ documents) (l : Loading) :
    (l.advance c d).left documents ≤ l.left documents - 1 := by
  match l with
  | fresh =>
      show (list c d .client []).left documents ≤ _
      unfold list
      cases hpaths : c.documentPaths d .client with
      | error e => exact Nat.zero_le _
      | ok paths =>
          have := hlist .client paths hpaths
          simp only [left]
          omega
  | reading .client client [] entries =>
      show (list c d .server entries).left documents ≤ _
      unfold list
      cases hpaths : c.documentPaths d .server with
      | error e => exact Nat.zero_le _
      | ok paths =>
          have := hlist .server paths hpaths
          simp only [left, List.length_nil]
          omega
  | reading .client client (path :: paths) entries =>
      simp only [advance, left, List.length_cons]
      omega
  | reading .server client [] entries => exact Nat.le_refl 0
  | reading .server client (path :: paths) entries =>
      simp only [advance, left, List.length_cons]
      omega
  | failed e => exact Nat.le_refl 0
  | done contents => exact Nat.le_refl 0

/-- The end of a load is fixed by its disk. -/
theorem Leads.unique {l a b : Loading} (ha : Leads c d l a) (hb : Leads c d l b)
    (haend : a.advance c d = a) (hbend : b.advance c d = b) : a = b := by
  obtain ⟨m, rfl⟩ := ha
  obtain ⟨n, rfl⟩ := hb
  have hm := Function.iterate_fixed haend n
  have hn := Function.iterate_fixed hbend m
  rw [← Function.iterate_add_apply] at hm hn
  rw [← hm, ← hn, Nat.add_comm]

end Loading

/-- As many documents as there may be while some calls write. -/
def Cache.mostDocuments (c : Cache) (d : Disk) (calls : List WriteCall) : Nat :=
  (c.files d).size + calls.length

/-- As many steps as a load may make while some calls write. -/
def Cache.mostSteps (c : Cache) (d : Disk) (calls : List WriteCall) : Nat :=
  2 * c.mostDocuments d calls + 3

namespace Scene

variable {s : Scene}

/-- A document was there before, or is that of a call. -/
theorem Sound.length_documentPaths_le (hs : s.Sound c d) (h : c.Shared d calls)
    (hcalls : s.writers.map (·.call) = calls) {origin : CacheOrigin} {paths : List String}
    (hpaths : c.documentPaths s.disk origin = .ok paths) :
    paths.length ≤ c.mostDocuments d calls := by
  obtain ⟨names, rfl, hsorted, hnames⟩ :=
    Cache.exists_names_of_documentPaths h.named hs.wellFormed hpaths
  have hnodup : names.Nodup := by
    refine hsorted.imp ?_
    rintro a b hlt rfl
    rw [Std.ReflOrd.compare_self] at hlt
    cases hlt
  have hfound : names ⊆ (c.files d).keys ++ calls.map WriteCall.documentName := by
    intro name hname
    obtain ⟨hdocument, bytes, hbytes⟩ := (hnames name).1 hname
    rw [List.mem_append]
    by_cases hwritten : ∃ bytes, s.Written name bytes
    · obtain ⟨-, w, hw, -, rfl, -⟩ := hwritten
      rw [← hcalls]
      exact .inr (List.mem_map_of_mem (List.mem_map_of_mem hw))
    · have hold := hs.files_of_not_written h
        (fun w _ => w.call.draftName_ne_of_isDocumentName hdocument) (not_exists.1 hwritten)
      have hfile : (c.files d)[name]? = c.file? d name := (sound_start h 0).files_eq h name
      refine .inl (Std.ExtTreeMap.mem_keys.2 ?_)
      rw [Std.ExtTreeMap.mem_iff_isSome_getElem?, hfile, ← hold, hbytes]
      rfl
  calc (names.map (Path.join c.directory)).length
      = names.length := List.length_map _
    _ ≤ ((c.files d).keys ++ calls.map WriteCall.documentName).length :=
        (List.subperm_of_subset hnodup hfound).length_le
    _ = c.mostDocuments d calls := by
        rw [List.length_append, List.length_map, Std.ExtTreeMap.length_keys, Cache.mostDocuments]

/-- Each turn of a load takes it nearer to its end. -/
theorem Sound.left_after (hs : s.Sound c d) (h : c.Shared d calls)
    (hcalls : s.writers.map (·.call) = calls) {k : Nat} (hfresh : s.loads[k]? = some .fresh)
    (moves : List Move) :
    ∃ l, (s.after c moves).loads[k]? = some l ∧
      l.left (c.mostDocuments d calls) ≤ c.mostSteps d calls - moves.count (.load k) := by
  induction moves using List.reverseRecOn with
  | nil => exact ⟨.fresh, hfresh, Nat.le_refl _⟩
  | append_singleton moves move ih =>
      obtain ⟨l, hl, hleft⟩ := ih
      rw [after_concat, List.count_append, List.count_singleton]
      cases move with
      | write j =>
          rw [loads_write]
          exact ⟨l, hl, by simpa using hleft⟩
      | load j =>
          have hs' := hs.after moves
          have hcalls' := (calls_after hs moves).trans hcalls
          have hadvance := l.left_advance_le fun origin paths hpaths =>
            hs'.length_documentPaths_le h hcalls' hpaths
          rw [Scene.step, List.getElem?_modify, hl]
          by_cases hjk : j = k
          · subst hjk
            refine ⟨l.advance c (s.after c moves).disk, by simp, ?_⟩
            simp only [beq_self_eq_true, if_true]
            omega
          · refine ⟨l, by simp [hjk], ?_⟩
            simpa [hjk] using hleft

/-- A load that is alone makes its steps on a disk that stays as it is. -/
theorem after_replicate_load (c : Cache) (s : Scene) (k n : Nat) :
    s.after c (List.replicate n (.load k))
      = { s with loads := s.loads.modify k (Loading.advance c s.disk)^[n] } := by
  induction n generalizing s with
  | zero => simp [after]
  | succ n ih =>
      rw [List.replicate_succ]
      show (s.step c (.load k)).after c _ = _
      rw [ih]
      simp [step, List.modify_modify_eq, Function.comp_def]

end Scene

end BundleCoverage
