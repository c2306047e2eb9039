import BundleCoverage.Proofs.Places

/-!
# What operations change on a disk

Making directories and writing files only add to a disk: what was a directory stays one, and only
files with the names that are written change (`Disk.Adds`).  Each operation succeeds under a
condition on the places of its path and then gives a disk that is known place by place
(`write_join`, `rename_join`), and making a directory makes its path lead there
(`WellFormed.makeDirectories`).
-/

namespace BundleCoverage.Disk

open Text Place

/-! ## Reading -/

theorem get_eq_ok_iff {d : Disk} {path : String} {node : Node} :
    d.get path = .ok node ↔ ∃ p, d.locate path = .ok p ∧ d.node? p = some node := by
  unfold get
  rw [bind_eq_ok_iff]
  refine exists_congr fun p => and_congr_right fun _ => ?_
  cases d.node? p with
  | none => exact iff_of_false (fun h => by cases h) (fun h => by cases h)
  | some node' => exact ⟨fun h => congrArg some (Except.ok.inj h), fun h => Option.some.inj h ▸ rfl⟩

theorem read_eq_ok_iff {d : Disk} {path : String} {bytes : List UInt8} :
    d.read path = .ok bytes ↔ ∃ p, d.locate path = .ok p ∧ d.node? p = some (.file bytes) := by
  unfold read
  rw [bind_eq_ok_iff, ← get_eq_ok_iff]
  constructor
  · rintro ⟨node, hget, h⟩
    cases node with
    | directory => cases h
    | file bytes' =>
        cases h
        exact hget
  · intro h
    exact ⟨_, h, rfl⟩

theorem isFile_eq_true_iff {d : Disk} {path : String} :
    d.isFile path = true ↔ ∃ bytes, d.read path = .ok bytes := by
  simp only [read_eq_ok_iff, ← get_eq_ok_iff]
  unfold isFile
  cases d.get path with
  | error e => simp
  | ok node => cases node <;> simp

/-! ## Disks that hold more -/

/-- A disk that holds what another one holds, but for files with some names that were written. -/
structure Adds (names : List String) (d d' : Disk) : Prop where
  workingDirectory : d'.workingDirectory = d.workingDirectory
  directory : ∀ s, d.node? s = some .directory → d'.node? s = some .directory
  /-- A file stays a file. -/
  file : ∀ s bytes, d.node? s = some (.file bytes) → ∃ bytes', d'.node? s = some (.file bytes')
  /-- A file is an old one, or one that was written. -/
  written : ∀ s bytes, d'.node? s = some (.file bytes) →
    d.node? s = some (.file bytes) ∨ ∃ name ∈ names, s.getLast? = some name

section Adds

variable {names : List String} {d d' d'' : Disk}

theorem Adds.refl (names : List String) (d : Disk) : Adds names d d :=
  ⟨rfl, fun _ h => h, fun _ bytes h => ⟨bytes, h⟩, fun _ _ h => .inl h⟩

theorem Adds.trans (h : Adds names d d') (h' : Adds names d' d'') : Adds names d d'' where
  workingDirectory := h'.workingDirectory.trans h.workingDirectory
  directory s hs := h'.directory s (h.directory s hs)
  file s bytes hs := by
    obtain ⟨bytes', hs'⟩ := h.file s bytes hs
    exact h'.file s bytes' hs'
  written s bytes hs := by
    rcases h'.written s bytes hs with hs' | hname
    · exact h.written s bytes hs'
    · exact .inr hname

theorem Adds.mono {more : List String} (h : Adds names d d') (hnames : names ⊆ more) :
    Adds more d d' := by
  refine ⟨h.workingDirectory, h.directory, h.file, fun s bytes hs => ?_⟩
  rcases h.written s bytes hs with hs' | ⟨name, hname, hlast⟩
  · exact .inl hs'
  · exact .inr ⟨name, hnames hname, hlast⟩

/-- A file of another name stays as it is. -/
theorem Adds.file_iff (h : Adds names d d') {s : Place}
    (hs : ∀ name ∈ names, s.getLast? ≠ some name) (bytes : List UInt8) :
    d'.node? s = some (.file bytes) ↔ d.node? s = some (.file bytes) := by
  constructor
  · intro hnode
    rcases h.written s bytes hnode with hold | ⟨name, hname, hlast⟩
    · exact hold
    · exact absurd hlast (hs name hname)
  · intro hnode
    obtain ⟨bytes', hnode'⟩ := h.file s bytes hnode
    rcases h.written s bytes' hnode' with hold | ⟨name, hname, hlast⟩
    · rw [hnode] at hold
      cases hold
      exact hnode'
    · exact absurd hlast (hs name hname)

theorem Adds.target (h : Adds names d d') (path : String) : d'.target path = d.target path := by
  rw [Disk.target, Disk.target, start, start, h.workingDirectory]

theorem Adds.stops (h : Adds names d d') (path : String) : d'.stops path = d.stops path := by
  rw [Disk.stops, Disk.stops, start, start, h.workingDirectory]

theorem Adds.opens (h : Adds names d d') {path : String} (hp : d.Opens path) : d'.Opens path :=
  hp.of_directories h.workingDirectory h.directory

theorem adds_set_directory {place : Place} (hplace : place ≠ []) (hnone : d.node? place = none) :
    Adds [] d (d.set place .directory) := by
  have hset := node?_set (d := d) hplace .directory
  refine ⟨rfl, fun s hs => ?_, fun s bytes hs => ⟨bytes, ?_⟩, fun s bytes hs => .inl ?_⟩
  · rw [hset]
    split
    · rfl
    · exact hs
  · rw [hset, if_neg]
    · exact hs
    · rintro rfl
      rw [hnone] at hs
      cases hs
  · rw [hset] at hs
    split at hs
    · cases hs
    · exact hs

theorem adds_set_file {p : Place} {name : String}
    (hdirectory : d.node? (p ++ [name]) ≠ some .directory)
    (bytes : List UInt8) : Adds [name] d (d.set (p ++ [name]) (.file bytes)) := by
  have hne : p ++ [name] ≠ [] := by simp
  have hset := node?_set (d := d) hne (.file bytes)
  refine ⟨rfl, fun s hs => ?_, fun s bytes' hs => ?_, fun s bytes' hs => ?_⟩
  · rw [hset, if_neg]
    · exact hs
    · rintro rfl
      exact hdirectory hs
  · rw [hset]
    split
    · exact ⟨bytes, rfl⟩
    · exact ⟨bytes', hs⟩
  · rw [hset] at hs
    split at hs
    · next h =>
      subst h
      exact .inr ⟨name, List.mem_singleton_self name, List.getLast?_concat⟩
    · exact .inl hs

end Adds

/-! ## Making directories -/

/-- A piece of a path leads to a directory that is there, or one is made. -/
theorem makeAlong_cons {d d' : Disk} {p : Place} {piece : String} {pieces : List String}
    (h : d.makeAlong p (piece :: pieces) = .ok d') :
    (d.makeAlong (step p piece) pieces = .ok d' ∧
      (step p piece = p ∨ step p piece = p.dropLast ∨ d.node? (step p piece) = some .directory)) ∨
    (piece ≠ "" ∧ piece ≠ "." ∧ piece ≠ ".." ∧ d.node? (p ++ [piece]) = none ∧
      (d.set (p ++ [piece]) .directory).makeAlong (p ++ [piece]) pieces = .ok d') := by
  rw [makeAlong] at h
  unfold step
  split at h
  · next hstay =>
    rw [if_pos hstay]
    exact .inl ⟨h, .inl rfl⟩
  · next hstay =>
    rw [if_neg hstay]
    split at h
    · next hup =>
      rw [if_pos hup]
      exact .inl ⟨h, .inr (.inl rfl)⟩
    · next hup =>
      rw [if_neg hup]
      dsimp only at h
      split at h
      · next hthere => exact .inl ⟨h, .inr (.inr hthere)⟩
      · cases h
      · next hnone =>
        simp only [Bool.or_eq_true, decide_eq_true_eq, not_or] at hstay
        exact .inr ⟨hstay.1, hstay.2, hup, hnone, h⟩

theorem adds_makeAlong {d d' : Disk} {p : Place} {pieces : List String}
    (h : d.makeAlong p pieces = .ok d') : Adds [] d d' := by
  induction pieces generalizing d p with
  | nil => exact Except.ok.inj h ▸ .refl [] _
  | cons piece pieces ih =>
      rcases makeAlong_cons h with ⟨h, -⟩ | ⟨-, -, -, hnone, h⟩
      · exact ih h
      · exact (adds_set_directory (by simp) hnone).trans (ih h)

/-- On a tree, all places on the way are directories when they are made. -/
theorem WellFormed.makeAlong {d d' : Disk} {p : Place} {pieces : List String} (hd : d.WellFormed)
    (hp : d.node? p = some .directory)
    (hpieces : ∀ piece ∈ pieces, '/' ∉ piece.toList ∧ '\x00' ∉ piece.toList)
    (h : d.makeAlong p pieces = .ok d') :
    d'.WellFormed ∧ (∀ s ∈ Place.stops p pieces, d'.node? s = some .directory) ∧
      d'.node? (walk p pieces) = some .directory := by
  induction pieces generalizing d p with
  | nil =>
      obtain rfl := Except.ok.inj h
      exact ⟨hd, List.forall_mem_nil _, hp⟩
  | cons piece pieces ih =>
      obtain ⟨hpiece, hpieces⟩ := List.forall_mem_cons.1 hpieces
      have hkeep := (adds_makeAlong h).directory p hp
      rw [walk_cons, Place.stops]
      rcases makeAlong_cons h with ⟨h, hstep⟩ | ⟨hempty, hcurrent, hparent, hnone, h⟩
      · have hnext : d.node? (step p piece) = some .directory := by
          rcases hstep with hstep | hstep | hstep
          · rwa [hstep]
          · rw [hstep]
            exact hd.parent p _ hp
          · exact hstep
        obtain ⟨hd', hstops, htarget⟩ := ih hd hnext hpieces h
        exact ⟨hd', List.forall_mem_cons.2 ⟨hkeep, hstops⟩, htarget⟩
      · have hname : Path.IsName piece := ⟨hempty, hcurrent, hparent, hpiece.1, hpiece.2⟩
        have hmade : (d.set (p ++ [piece]) .directory).node? (p ++ [piece]) = some .directory := by
          rw [node?_set (by simp), if_pos rfl]
        obtain ⟨hd', hstops, htarget⟩ := ih (hd.set hname hp fun _ => rfl) hmade hpieces h
        rw [hname.step]
        exact ⟨hd', List.forall_mem_cons.2 ⟨hkeep, hstops⟩, htarget⟩

theorem makeDirectories_eq_ok_iff {d d' : Disk} {path : String} :
    d.makeDirectories path = .ok d' ↔
      path = "" ∧ d' = d ∨
        IsPath path ∧ d.makeAlong (d.start path) (Path.pieces path) = .ok d' := by
  unfold makeDirectories
  split
  · next hempty =>
    obtain rfl := String.isEmpty_iff.1 hempty
    simp [IsPath, eq_comm]
  · next hempty =>
    have hne : path ≠ "" := fun h => hempty (String.isEmpty_iff.2 h)
    simp only [bind_eq_ok_iff, Prod.exists, startOf_eq_ok_iff, hne, false_and, false_or]
    constructor
    · rintro ⟨p, pieces, ⟨hpath, rfl, rfl⟩, h⟩
      exact ⟨hpath, h⟩
    · rintro ⟨hpath, h⟩
      exact ⟨_, _, ⟨hpath, rfl, rfl⟩, h⟩

theorem adds_makeDirectories {d d' : Disk} {path : String} (h : d.makeDirectories path = .ok d') :
    Adds [] d d' := by
  rcases makeDirectories_eq_ok_iff.1 h with ⟨-, rfl⟩ | ⟨-, h⟩
  · exact .refl [] _
  · exact adds_makeAlong h

theorem WellFormed.start {d : Disk} (hd : d.WellFormed) (path : String) :
    d.node? (d.start path) = some .directory := by
  unfold Disk.start
  split
  · exact d.node?_nil
  · exact hd.workingDirectory

theorem mem_pieces {path piece : String} (hpath : '\x00' ∉ path.toList)
    (h : piece ∈ Path.pieces path) : '/' ∉ piece.toList ∧ '\x00' ∉ piece.toList := by
  obtain ⟨chars, hchars, rfl⟩ := List.mem_map.1 h
  rw [String.toList_ofList]
  exact ⟨(mem_split hchars).1, fun hzero => hpath ((mem_split hchars).2 hzero)⟩

/-- A directory that was made is one that its path leads to. -/
theorem WellFormed.makeDirectories {d d' : Disk} {path : String} (hd : d.WellFormed)
    (h : d.makeDirectories path = .ok d') : d'.WellFormed ∧ d'.Opens path := by
  have hadds := adds_makeDirectories h
  unfold Opens
  rw [hadds.target, hadds.stops]
  rcases makeDirectories_eq_ok_iff.1 h with ⟨rfl, rfl⟩ | ⟨hvalid, hmake⟩
  · refine ⟨hd, by simp, List.forall_mem_cons.2 ⟨hd.start "", ?_⟩⟩
    exact List.forall_mem_singleton.2 (hd.start "")
  · obtain ⟨hd', hstops, htarget⟩ :=
      hd.makeAlong (hd.start path) (fun piece hpiece => mem_pieces hvalid.2 hpiece) hmake
    exact ⟨hd', hvalid.2, List.forall_mem_cons.2 ⟨htarget, hstops⟩⟩

theorem makeAlong_of_directories {d : Disk} {p : Place} {pieces : List String}
    (h : ∀ s ∈ walk p pieces :: Place.stops p pieces, d.node? s = some .directory) :
    d.makeAlong p pieces = .ok d := by
  induction pieces generalizing p with
  | nil => rfl
  | cons piece pieces ih =>
      rw [walk_cons, Place.stops] at h
      obtain ⟨htarget, -, hstops⟩ := by simpa only [List.forall_mem_cons] using h
      have hnext : d.makeAlong (step p piece) pieces = .ok d :=
        ih (List.forall_mem_cons.2 ⟨htarget, hstops⟩)
      have hthere : d.node? (step p piece) = some .directory := by
        cases pieces with
        | nil => exact htarget
        | cons next pieces => exact hstops _ (List.mem_cons_self ..)
      rw [Disk.makeAlong]
      unfold step at hnext hthere
      split
      · next hstay => rwa [if_pos hstay] at hnext
      · next hstay =>
        rw [if_neg hstay] at hnext hthere
        split
        · next hup => rwa [if_pos hup] at hnext
        · next hup =>
          rw [if_neg hup] at hnext hthere
          dsimp only
          rw [hthere]
          exact hnext

/-- Nothing has to be made of a directory that is there. -/
theorem Opens.makeDirectories {d : Disk} {path : String} (h : d.Opens path) :
    d.makeDirectories path = .ok d := by
  rw [makeDirectories_eq_ok_iff]
  by_cases hpath : path = ""
  · exact .inl ⟨hpath, rfl⟩
  · exact .inr ⟨⟨hpath, h.1⟩, makeAlong_of_directories h.2⟩

/-! ## Files in a directory -/

section Files

variable {d d' : Disk} {directory name : String} {bytes : List UInt8}

theorem getLast?_join (hname : Path.IsName name) :
    (Path.join directory name).toList.getLast? ≠ some '/' := by
  have hlast : name.toList.getLast? ≠ some '/' := fun h => hname.slash (List.mem_of_getLast? h)
  by_cases hdirectory : directory = ""
  · subst hdirectory
    have hjoin : Path.join "" name = name := by simp [Path.join]
    rwa [hjoin]
  · obtain ⟨text, -, hjoin⟩ := Path.exists_toList_join hdirectory hname.isAbsolute
    have hne : name.toList ≠ [] := fun h => hname.notEmpty (String.toList_eq_nil_iff.1 h)
    rw [hjoin, List.getLast?_append_of_ne_nil _ (by simp), List.getLast?_cons_of_ne_nil hne]
    exact hlast

theorem read_join (hname : Path.IsName name) :
    d.read (Path.join directory name) = .ok bytes ↔
      d.Opens directory ∧ d.node? (d.target directory ++ [name]) = some (.file bytes) := by
  simp only [read_eq_ok_iff, locate_join hname]
  constructor
  · rintro ⟨_, ⟨hopens, rfl⟩, hnode⟩
    exact ⟨hopens, hnode⟩
  · rintro ⟨hopens, hnode⟩
    exact ⟨_, ⟨hopens, rfl⟩, hnode⟩

theorem isDirectoryAt_eq_true_iff {p : Place} :
    d.isDirectoryAt p = true ↔ d.node? p = some .directory := beq_iff_eq

theorem write_join (hname : Path.IsName name) :
    d.write (Path.join directory name) bytes = .ok d' ↔
      d.Opens directory ∧ d.node? (d.target directory ++ [name]) ≠ some .directory ∧
        d' = d.set (d.target directory ++ [name]) (.file bytes) := by
  unfold write
  simp only [bind_eq_ok_iff, locate_join hname, getLast?_join hname, decide_false, Bool.or_false,
    isDirectoryAt_eq_true_iff]
  constructor
  · rintro ⟨_, ⟨hopens, rfl⟩, h⟩
    split at h
    · cases h
    · next hnode => exact ⟨hopens, hnode, (Except.ok.inj h).symm⟩
  · rintro ⟨hopens, hnode, rfl⟩
    refine ⟨_, ⟨hopens, rfl⟩, ?_⟩
    rw [if_neg hnode]
    rfl

/-- What was written is read again. -/
theorem read_of_write (hname : Path.IsName name)
    (h : d.write (Path.join directory name) bytes = .ok d') :
    d'.read (Path.join directory name) = .ok bytes := by
  obtain ⟨hopens, hnode, rfl⟩ := (write_join hname).1 h
  refine (read_join hname).2 ⟨(adds_set_file hnode bytes).opens hopens, ?_⟩
  exact (node?_set (by simp) ..).trans (if_pos rfl)

/-- A file of another name is read as before. -/
theorem Adds.read_join {names : List String} (h : Adds names d d') (hname : Path.IsName name)
    (hnot : name ∉ names) (hread : d.read (Path.join directory name) = .ok bytes) :
    d'.read (Path.join directory name) = .ok bytes := by
  obtain ⟨hopens, hnode⟩ := (Disk.read_join hname).1 hread
  refine (Disk.read_join hname).2 ⟨h.opens hopens, ?_⟩
  rw [h.target, h.file_iff]
  · exact hnode
  · intro other hother hlast
    rw [List.getLast?_concat] at hlast
    exact hnot (Option.some.inj hlast ▸ hother)

/-- A disk on which a file was moved. -/
def moved (d : Disk) (place goal : Place) (bytes : List UInt8) : Disk :=
  { d with nodes := (d.nodes.erase place).insert goal (.file bytes) }

theorem rename_join {goal : String} (hname : Path.IsName name) (hgoal : Path.IsName goal) :
    d.rename (Path.join directory name) (Path.join directory goal) = .ok d' ↔
      d.Opens directory ∧ d.node? (d.target directory ++ [goal]) ≠ some .directory ∧
        ∃ bytes, d.node? (d.target directory ++ [name]) = some (.file bytes) ∧
          d' = d.moved (d.target directory ++ [name]) (d.target directory ++ [goal]) bytes := by
  unfold rename
  simp only [bind_eq_ok_iff, locate_join hname, locate_join hgoal]
  constructor
  · rintro ⟨_, ⟨hopens, rfl⟩, _, ⟨-, rfl⟩, h⟩
    split at h
    · next bytes hnode =>
      split at h
      · cases h
      · next hdirectory =>
        rw [isDirectoryAt_eq_true_iff] at hdirectory
        exact ⟨hopens, hdirectory, bytes, hnode, (Except.ok.inj h).symm⟩
    · cases h
    · cases h
  · rintro ⟨hopens, hdirectory, bytes, hnode, rfl⟩
    refine ⟨_, ⟨hopens, rfl⟩, _, ⟨hopens, rfl⟩, ?_⟩
    rw [ne_eq, ← isDirectoryAt_eq_true_iff] at hdirectory
    rw [hnode]
    dsimp only
    rw [if_neg hdirectory]
    rfl

theorem node?_moved {place goal : Place} (hplace : place ≠ []) (hgoal : goal ≠ []) (s : Place) :
    (d.moved place goal bytes).node? s =
      if goal = s then some (.file bytes) else if place = s then none else d.node? s := by
  unfold node? moved
  by_cases hs : s = []
  · subst hs
    simp [hplace, hgoal]
  · rw [if_neg hs, if_neg hs, Std.ExtTreeMap.getElem?_insert, Std.ExtTreeMap.getElem?_erase]
    simp only [Std.LawfulEqOrd.compare_eq_iff_eq]

/-- Moving a file keeps the directories. -/
theorem directory_moved {place goal : Place} (hplace : place ≠ []) (hgoal : goal ≠ [])
    (hfile : d.node? place ≠ some .directory) (hfree : d.node? goal ≠ some .directory) (s : Place)
    (hs : d.node? s = some .directory) : (d.moved place goal bytes).node? s = some .directory := by
  rw [node?_moved hplace hgoal, if_neg, if_neg]
  · exact hs
  · rintro rfl
    exact hfile hs
  · rintro rfl
    exact hfree hs

theorem WellFormed.moved (hd : d.WellFormed) {p : Place} {goal : String} (hgoal : Path.IsName goal)
    (hp : d.node? p = some .directory) (hfile : d.node? (p ++ [name]) = some (.file bytes))
    (hfree : d.node? (p ++ [goal]) ≠ some .directory) :
    (d.moved (p ++ [name]) (p ++ [goal]) bytes).WellFormed := by
  have hnotDirectory : d.node? (p ++ [name]) ≠ some .directory := by
    rw [hfile]
    simp
  have hkeep : ∀ s, d.node? s = some .directory →
      (d.moved (p ++ [name]) (p ++ [goal]) bytes).node? s = some .directory :=
    directory_moved (by simp) (by simp) hnotDirectory hfree
  refine ⟨fun s node hs => ?_, fun s node hs => hkeep _ ?_, hkeep _ hd.workingDirectory⟩
  · rw [node?_moved (by simp) (by simp)] at hs
    split at hs
    · next h =>
      subst h
      exact List.forall_mem_append.2 ⟨hd.isName p _ hp, List.forall_mem_singleton.2 hgoal⟩
    · split at hs
      · cases hs
      · exact hd.isName s _ hs
  · rw [node?_moved (by simp) (by simp)] at hs
    split at hs
    · next h =>
      subst h
      rwa [List.dropLast_concat]
    · split at hs
      · cases hs
      · exact hd.parent s _ hs

end Files

end BundleCoverage.Disk
