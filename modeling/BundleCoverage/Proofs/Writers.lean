import BundleCoverage.Proofs.WriteCalls

/-!
# Writers that share a cache

A writer makes the steps of its call one by one and may stop anywhere (`Writer.advance`).  Made
without interruption, the steps are the call (`Writer.write_eq`).

What one step does is said once (`Writer.Advances`), and what it keeps follows from this, also where
other writers made steps in between.
-/

namespace BundleCoverage

open Std

/-! ## Files in the directory -/

/-- The bytes of the file at a place. -/
def Disk.file? (d : Disk) (p : Place) : Option (List UInt8) :=
  match d.node? p with
  | some (.file bytes) => some bytes
  | _ => none

theorem Disk.file?_eq_some_iff {d : Disk} {p : Place} {bytes : List UInt8} :
    d.file? p = some bytes ↔ d.node? p = some (.file bytes) := by
  unfold file?
  split <;> simp_all

namespace Cache

variable {c : Cache} {d : Disk}

/-- The bytes of a file in the directory of a cache. -/
def file? (c : Cache) (d : Disk) (name : String) : Option (List UInt8) :=
  d.file? (d.target c.directory ++ [name])

theorem file?_set (written name : String) (bytes : List UInt8) :
    c.file? (d.set (d.target c.directory ++ [written]) (.file bytes)) name
      = if written = name then some bytes else c.file? d name := by
  show Disk.file? _ (d.target c.directory ++ [name]) = _
  rw [Disk.file?, Disk.node?_set (by simp)]
  by_cases h : written = name
  · simp [h]
  · simp [h, file?, Disk.file?]

theorem file?_moved (draft document name : String) (bytes : List UInt8) :
    c.file? (d.moved (d.target c.directory ++ [draft]) (d.target c.directory ++ [document]) bytes)
        name
      = if document = name then some bytes else if draft = name then none else c.file? d name := by
  show Disk.file? _ (d.target c.directory ++ [name]) = _
  rw [Disk.file?, Disk.node?_moved (by simp) (by simp)]
  by_cases h : document = name
  · simp [h]
  · by_cases h' : draft = name
    · simp [h, h']
    · simp [h, h', file?, Disk.file?]

/-- Moving a file in the directory keeps the way to it. -/
theorem opens_moved {draft document : String} {bytes : List UInt8} (h : d.Opens c.directory)
    (hfree : d.node? (d.target c.directory ++ [document]) ≠ some .directory)
    (hbytes : c.file? d draft = some bytes) :
    (d.moved (d.target c.directory ++ [draft]) (d.target c.directory ++ [document]) bytes).Opens
      c.directory := by
  refine h.of_directories rfl (Disk.directory_moved (by simp) (by simp) ?_ hfree)
  rw [Disk.file?_eq_some_iff.1 hbytes]
  simp

/-! ## Steps of a call -/

theorem prepare_eq_ok_iff {d' : Disk} :
    c.prepare d = .ok d' ↔ d.makeDirectories c.directory = .ok d' := mapError_eq_ok_iff

theorem draft_eq_ok_iff {call : WriteCall} (hcall : call.IsPlain) {d' : Disk} :
    c.draft call.name call.entries d = .ok d' ↔
      d.Opens c.directory ∧ d.node? (d.target c.directory ++ [call.draftName]) ≠ some .directory ∧
        d' = d.set (d.target c.directory ++ [call.draftName]) (.file call.bytes) := by
  rw [draft, mapError_eq_ok_iff, call.draftPath_eq, Disk.write_join (call.isName_draftName hcall)]
  rfl

theorem publish_eq_ok_iff {call : WriteCall} (hcall : call.IsPlain) {d' : Disk} :
    c.publish call.name d = .ok d' ↔
      d.Opens c.directory ∧
        d.node? (d.target c.directory ++ [call.documentName]) ≠ some .directory ∧
        ∃ bytes, c.file? d call.draftName = some bytes ∧
          d' = d.moved (d.target c.directory ++ [call.draftName])
            (d.target c.directory ++ [call.documentName]) bytes := by
  simp only [file?, Disk.file?_eq_some_iff]
  rw [publish, mapError_eq_ok_iff, call.draftPath_eq, path, ← WriteCall.documentName,
    Disk.rename_join (call.isName_draftName hcall) (call.isName_documentName hcall)]

end Cache

/-! ## Writers -/

/-- A call of which some steps were made. -/
structure Writer where
  /-- The call. -/
  call : WriteCall
  /-- How many steps were made. -/
  made : Nat := 0
  /-- Why a step failed. -/
  fault? : Option Error := none

namespace Writer

/-- Makes the next step of a call that has not failed. -/
def advance (c : Cache) (d : Disk) (w : Writer) : Writer × Disk :=
  match w.fault?, (c.writeSteps w.call.name w.call.entries)[w.made]? with
  | none, some step =>
    match step d with
    | .ok d => ({ w with made := w.made + 1 }, d)
    | .error e => ({ w with fault? := some e }, d)
  | _, _ => (w, d)

/-- What the call gives in the end. -/
def result (c : Cache) (w : Writer) : Except Error String :=
  match w.fault? with
  | none => .ok (c.path w.call.name)
  | some e => .error e

/-- Without interruption, the steps are the call. -/
theorem write_eq (c : Cache) (d : Disk) (call : WriteCall) :
    call.write c d =
      let first := advance c d { call }
      let second := advance c first.2 first.1
      let third := advance c second.2 second.1
      (third.2, third.1.result c) := by
  rw [call.write_eq]
  unfold Cache.write Cache.perform Cache.writeSteps advance
  dsimp only [Cache.writeSteps, List.getElem?_cons_zero]
  cases c.prepare d with
  | error e => rfl
  | ok d =>
      dsimp only [Cache.perform, List.getElem?_cons_succ, List.getElem?_cons_zero]
      cases c.draft call.name call.entries d with
      | error e => rfl
      | ok d =>
          dsimp only [Cache.perform, List.getElem?_cons_succ, List.getElem?_cons_zero]
          cases c.publish call.name d <;> rfl

/-- What a step can do. -/
inductive Advances (c : Cache) (d : Disk) (w : Writer) : Writer → Disk → Prop
  /-- The call is over, or the step fails. -/
  | rest {w' : Writer} : w'.call = w.call → w'.made = w.made → Advances c d w w' d
  /-- The directory is made. -/
  | prepare {d' : Disk} : w.made = 0 → d.makeDirectories c.directory = .ok d' →
      Advances c d w { w with made := 1 } d'
  /-- The draft is written. -/
  | draft : w.made = 1 → d.Opens c.directory →
      d.node? (d.target c.directory ++ [w.call.draftName]) ≠ some .directory →
      Advances c d w { w with made := 2 }
        (d.set (d.target c.directory ++ [w.call.draftName]) (.file w.call.bytes))
  /-- The draft is moved into place. -/
  | publish {bytes : List UInt8} : w.made = 2 → d.Opens c.directory →
      d.node? (d.target c.directory ++ [w.call.documentName]) ≠ some .directory →
      c.file? d w.call.draftName = some bytes →
      Advances c d w { w with made := 3 }
        (d.moved (d.target c.directory ++ [w.call.draftName])
          (d.target c.directory ++ [w.call.documentName]) bytes)

theorem advances (c : Cache) (d : Disk) {w : Writer} (hcall : w.call.IsPlain) :
    Advances c d w (w.advance c d).1 (w.advance c d).2 := by
  unfold advance
  split
  · next step hfault hstep =>
    cases hd : step d with
    | error e => exact .rest rfl rfl
    | ok d' =>
        obtain ⟨call, made, fault?⟩ := w
        match made, hstep with
        | 0, hstep =>
            obtain rfl := Option.some.inj hstep
            exact .prepare rfl (Cache.prepare_eq_ok_iff.1 hd)
        | 1, hstep =>
            obtain rfl := Option.some.inj hstep
            obtain ⟨hopens, hnode, rfl⟩ := (Cache.draft_eq_ok_iff hcall).1 hd
            exact .draft rfl hopens hnode
        | 2, hstep =>
            obtain rfl := Option.some.inj hstep
            obtain ⟨hopens, hnode, bytes, hbytes, rfl⟩ := (Cache.publish_eq_ok_iff hcall).1 hd
            exact .publish rfl hopens hnode hbytes
  · exact .rest rfl rfl

/-! ## What a step does -/

section Advances

variable {c : Cache} {d d' : Disk} {w w' : Writer}

theorem Advances.call (h : w.Advances c d w' d') : w'.call = w.call := by
  cases h with
  | rest hcall _ => exact hcall
  | prepare | draft | publish => rfl

/-- A call that is done stays done. -/
theorem Advances.made_of_done (h : w.Advances c d w' d') (hw : w.made = 3) : w'.made = 3 := by
  cases h with
  | rest _ hmade => exact hmade.trans hw
  | prepare hbefore | draft hbefore =>
      rw [hw] at hbefore
      cases hbefore
  | publish => rfl

theorem Advances.workingDirectory (h : w.Advances c d w' d') :
    d'.workingDirectory = d.workingDirectory := by
  cases h with
  | rest | draft | publish => rfl
  | prepare _ hmake => exact (Disk.adds_makeDirectories hmake).workingDirectory

theorem Advances.wellFormed (h : w.Advances c d w' d') (hcall : w.call.IsPlain)
    (hd : d.WellFormed) : d'.WellFormed := by
  cases h with
  | rest => exact hd
  | prepare _ hmake => exact (hd.makeDirectories hmake).1
  | draft _ hopens hnode =>
      exact hd.set (w.call.isName_draftName hcall) hopens.target fun h => absurd h hnode
  | publish _ hopens hnode hbytes =>
      exact hd.moved (w.call.isName_documentName hcall) hopens.target
        (Disk.file?_eq_some_iff.1 hbytes) hnode

/-- A step that is made leaves a directory behind. -/
theorem Advances.opens (h : w.Advances c d w' d') (hd : d.WellFormed) :
    d'.Opens c.directory ∨ d' = d ∧ w'.made = w.made := by
  cases h with
  | rest _ hmade => exact .inr ⟨rfl, hmade⟩
  | prepare _ hmake => exact .inl (hd.makeDirectories hmake).2
  | draft _ hopens hnode => exact .inl ((Disk.adds_set_file hnode _).opens hopens)
  | publish _ hopens hnode hbytes => exact .inl (Cache.opens_moved hopens hnode hbytes)

/-- A step keeps the files that are neither the draft nor the document. -/
theorem Advances.file?_of_ne (h : w.Advances c d w' d') {name : String}
    (hdraft : name ≠ w.call.draftName) (hdocument : w'.made = 3 → name ≠ w.call.documentName) :
    c.file? d' name = c.file? d name := by
  cases h with
  | rest => rfl
  | prepare _ hmake =>
      have hadds := Disk.adds_makeDirectories hmake
      refine Option.ext fun bytes => ?_
      rw [Cache.file?, Cache.file?, Disk.file?_eq_some_iff, Disk.file?_eq_some_iff, hadds.target]
      exact hadds.file_iff (fun _ h => by cases h) bytes
  | draft => rw [Cache.file?_set, if_neg hdraft.symm]
  | publish => rw [Cache.file?_moved, if_neg (hdocument rfl).symm, if_neg hdraft.symm]

/-- A draft that is there after a step is whole. -/
theorem Advances.file?_draftName (h : w.Advances c d w' d') (hmade : w'.made = 2)
    (hd : w.made = 2 → c.file? d w.call.draftName = some w.call.bytes) :
    c.file? d' w.call.draftName = some w.call.bytes := by
  cases h with
  | rest _ hsame => exact hd (hsame ▸ hmade)
  | prepare => cases hmade
  | draft => exact (Cache.file?_set ..).trans (if_pos rfl)
  | publish => cases hmade

/-- A document that is there after a step is whole. -/
theorem Advances.file?_documentName (h : w.Advances c d w' d') (hmade : w'.made = 3)
    (hd : w.made = 2 → c.file? d w.call.draftName = some w.call.bytes)
    (hdone : w.made = 3 → c.file? d w.call.documentName = some w.call.bytes) :
    c.file? d' w.call.documentName = some w.call.bytes := by
  cases h with
  | rest _ hsame => exact hdone (hsame ▸ hmade)
  | prepare => cases hmade
  | draft => cases hmade
  | publish hbefore _ _ hbytes =>
      rw [hd hbefore] at hbytes
      cases hbytes
      exact (Cache.file?_moved ..).trans (if_pos rfl)

end Advances

end Writer

end BundleCoverage
