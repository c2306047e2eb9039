import BundleCoverage.Disk.Basic
import BundleCoverage.Proofs.Inside
import BundleCoverage.Proofs.Outcomes
import Mathlib.Data.List.Induction

/-!
# Places that paths lead to

Where a path leads does not depend on what is on the disk (`Disk.target`), only whether it can be
followed does: each place that it leaves on the way has to be a directory (`Disk.stops`,
`Disk.locate_eq_ok_iff`).  So a path leads to the same place on two disks on which it can be
followed.

On a disk that is a tree (`Disk.WellFormed`) nothing lies below what is not a directory.
-/

namespace BundleCoverage

open Text

/-! ## Walking along pieces -/

namespace Place

/-- The place that a piece of a path leads to. -/
def step (p : Place) (piece : String) : Place :=
  if piece = "" || piece = "." then p else if piece = ".." then p.dropLast else p ++ [piece]

/-- The place that the pieces of a path lead to. -/
def walk (p : Place) (pieces : List String) : Place := pieces.foldl step p

/-- The places that are left by a piece of a path. -/
def stops (p : Place) : List String → List Place
  | [] => []
  | piece :: pieces => p :: stops (step p piece) pieces

theorem walk_cons (p : Place) (piece : String) (pieces : List String) :
    walk p (piece :: pieces) = walk (step p piece) pieces := rfl

theorem walk_concat (p : Place) (pieces : List String) (piece : String) :
    walk p (pieces ++ [piece]) = step (walk p pieces) piece := by
  rw [walk, List.foldl_append]
  rfl

theorem stops_concat (p : Place) (pieces : List String) (piece : String) :
    stops p (pieces ++ [piece]) = stops p pieces ++ [walk p pieces] := by
  induction pieces generalizing p with
  | nil => rfl
  | cons next pieces ih =>
      show p :: stops (step p next) (pieces ++ [piece]) = _
      rw [ih]
      rfl

/-- A piece that does not lead up leads down or nowhere. -/
theorem exists_step_eq {piece : String} (h : piece ≠ "..") (p : Place) :
    ∃ rest ⊆ [piece], step p piece = p ++ rest := by
  rw [step, if_neg h]
  split
  · exact ⟨[], List.nil_subset _, (List.append_nil p).symm⟩
  · exact ⟨[piece], List.Subset.refl _, rfl⟩

/-- A path that does not lead up leads through places below its start. -/
theorem exists_append_of_mem {pieces : List String} (h : ".." ∉ pieces) {p s : Place}
    (hs : s ∈ stops p pieces ++ [walk p pieces]) : ∃ rest ⊆ pieces, s = p ++ rest := by
  induction pieces generalizing p with
  | nil => exact ⟨[], List.nil_subset _, by simpa [stops, walk] using hs⟩
  | cons piece pieces ih =>
      rw [List.mem_cons, not_or] at h
      rw [stops, walk_cons, List.cons_append] at hs
      rcases List.mem_cons.1 hs with rfl | hs
      · exact ⟨[], List.nil_subset _, (List.append_nil s).symm⟩
      · obtain ⟨first, hfirst, hstep⟩ := exists_step_eq (Ne.symm h.1) p
        obtain ⟨rest, hrest, rfl⟩ := ih h.2 hs
        refine ⟨first ++ rest, ?_, by rw [hstep, List.append_assoc]⟩
        rw [List.append_subset]
        refine ⟨List.Subset.trans hfirst ?_, List.subset_cons_of_subset piece hrest⟩
        exact List.cons_subset_cons piece (List.nil_subset _)

/-- Each place on a path that does not lead up lies above the later ones. -/
theorem pairwise_stops {pieces : List String} (h : ".." ∉ pieces) (p : Place) :
    (stops p pieces ++ [walk p pieces]).Pairwise (· <+: ·) := by
  induction pieces generalizing p with
  | nil => exact List.pairwise_singleton _ _
  | cons piece pieces ih =>
      have hall : ∀ s ∈ stops p (piece :: pieces) ++ [walk p (piece :: pieces)], p <+: s := by
        intro s hs
        obtain ⟨rest, -, rfl⟩ := exists_append_of_mem h hs
        exact List.prefix_append p rest
      rw [stops, walk_cons, List.cons_append] at hall ⊢
      rw [List.mem_cons, not_or] at h
      exact List.pairwise_cons.2 ⟨(List.forall_mem_cons.1 hall).2, ih h.2 _⟩

end Place

open Place

namespace Path

/-- The pieces of a path. -/
def pieces (path : String) : List String := (split '/' path.toList).map String.ofList

/-- A text that can be the name of a file. -/
structure IsName (name : String) : Prop where
  notEmpty : name ≠ ""
  notCurrent : name ≠ "."
  notParent : name ≠ ".."
  slash : '/' ∉ name.toList
  zero : '\x00' ∉ name.toList

theorem IsName.step {name : String} (h : IsName name) (p : Place) : step p name = p ++ [name] := by
  simp [Place.step, h.notEmpty, h.notCurrent, h.notParent]

theorem IsName.isAbsolute {name : String} (h : IsName name) : isAbsolute name = false := by
  have hslash := h.slash
  unfold Path.isAbsolute
  cases hname : name.toList with
  | nil => rfl
  | cons c rest =>
      rw [hname] at hslash
      have hc : c ≠ '/' := fun hc => hslash (hc ▸ List.mem_cons_self ..)
      simp [hc]

theorem IsName.pieces {name : String} (h : IsName name) : pieces name = [name] := by
  rw [Path.pieces, split_of_notMem h.slash, List.map_singleton, String.ofList_toList]

end Path

namespace Disk

/-- The place that a path starts from. -/
def start (d : Disk) (path : String) : Place :=
  if Path.isAbsolute path then [] else d.workingDirectory

/-- The place that a path leads to. -/
def target (d : Disk) (path : String) : Place := walk (d.start path) (Path.pieces path)

/-- The places that a path leaves on the way. -/
def stops (d : Disk) (path : String) : List Place := Place.stops (d.start path) (Path.pieces path)

/-- Whether a path is a text that a disk accepts. -/
def IsPath (path : String) : Prop := path ≠ "" ∧ '\x00' ∉ path.toList

theorem startOf_eq_ok_iff {d : Disk} {path : String} {p : Place} {pieces : List String} :
    d.startOf path = .ok (p, pieces) ↔
      IsPath path ∧ p = d.start path ∧ pieces = Path.pieces path := by
  unfold startOf IsPath
  split
  · next h => simp [String.isEmpty_iff.1 h]
  · next hempty =>
    split
    · next h => simp [List.contains_iff_mem.1 h]
    · next hzero =>
      have hne : path ≠ "" := fun h => hempty (String.isEmpty_iff.2 h)
      have hmem : '\x00' ∉ path.toList := fun h => hzero (List.contains_iff_mem.2 h)
      simp only [Except.ok.injEq, Prod.mk.injEq, ne_eq, hne, not_false_eq_true, hmem, true_and]
      exact and_congr eq_comm eq_comm

/-! ## Following paths -/

/-- Why a place cannot be left, if it cannot. -/
def fault? (d : Disk) (s : Place) : Option DiskFault :=
  match d.node? s with
  | none => some .notFound
  | some (.file _) => some .unusable
  | some .directory => none

theorem fault?_eq_none_iff {d : Disk} {s : Place} :
    d.fault? s = none ↔ d.node? s = some .directory := by
  unfold fault?
  split <;> simp_all

theorem fault?_eq_unusable_iff {d : Disk} {s : Place} :
    d.fault? s = some .unusable ↔ ∃ bytes, d.node? s = some (.file bytes) := by
  unfold fault?
  split <;> simp_all

/-- A path is followed up to the first place that cannot be left. -/
theorem follow_eq (d : Disk) (p : Place) (pieces : List String) :
    d.follow p pieces
      = ((Place.stops p pieces).findSome? d.fault?).elim (.ok (walk p pieces)) .error := by
  induction pieces generalizing p with
  | nil => rfl
  | cons piece pieces ih =>
      rw [follow, Place.stops, List.findSome?_cons, walk_cons, fault?]
      cases d.node? p with
      | none => rfl
      | some node =>
          cases node with
          | file bytes => rfl
          | directory =>
              rw [← ih]
              unfold step
              dsimp only
              split
              · rfl
              · split <;> rfl

theorem locate_eq_ok_iff {d : Disk} {path : String} {q : Place} :
    d.locate path = .ok q ↔
      IsPath path ∧ (∀ s ∈ d.stops path, d.node? s = some .directory) ∧ q = d.target path := by
  have hfollow : d.follow (d.start path) (Path.pieces path) = .ok q ↔
      (∀ s ∈ d.stops path, d.node? s = some .directory) ∧ q = d.target path := by
    rw [follow_eq, ← stops, ← target]
    simp only [← fault?_eq_none_iff]
    cases hfault : (d.stops path).findSome? d.fault? with
    | none =>
        rw [List.findSome?_eq_none_iff] at hfault
        exact ⟨fun h => ⟨hfault, (Except.ok.inj h).symm⟩, fun h => h.2 ▸ rfl⟩
    | some e =>
        obtain ⟨s, hs, he⟩ := List.exists_of_findSome?_eq_some hfault
        refine iff_of_false (fun h => by cases h) ?_
        rintro ⟨hstops, -⟩
        rw [hstops s hs] at he
        cases he
  unfold locate
  rw [bind_eq_ok_iff, ← hfollow]
  constructor
  · rintro ⟨⟨p, pieces⟩, hstart, h⟩
    obtain ⟨hpath, rfl, rfl⟩ := startOf_eq_ok_iff.1 hstart
    exact ⟨hpath, h⟩
  · rintro ⟨hpath, h⟩
    exact ⟨_, startOf_eq_ok_iff.2 ⟨hpath, rfl, rfl⟩, h⟩

/-! ## Directories -/

/-- Whether a path leads to a directory, where the empty path stands for the working directory. -/
def Opens (d : Disk) (path : String) : Prop :=
  '\x00' ∉ path.toList ∧ ∀ s ∈ d.target path :: d.stops path, d.node? s = some .directory

theorem Opens.target {d : Disk} {path : String} (h : d.Opens path) :
    d.node? (d.target path) = some .directory := (List.forall_mem_cons.1 h.2).1

/-- A directory stays open when all directories stay. -/
theorem Opens.of_directories {d d' : Disk} {path : String} (h : d.Opens path)
    (hworking : d'.workingDirectory = d.workingDirectory)
    (hkeep : ∀ s, d.node? s = some .directory → d'.node? s = some .directory) : d'.Opens path := by
  unfold Opens Disk.target Disk.stops start
  rw [hworking]
  exact ⟨h.1, fun s hs => hkeep s (h.2 s hs)⟩

theorem opens_iff {d : Disk} {path : String} (hpath : path ≠ "") :
    d.Opens path ↔ ∃ p, d.locate path = .ok p ∧ d.node? p = some .directory := by
  simp only [locate_eq_ok_iff, Opens, IsPath, List.forall_mem_cons]
  constructor
  · rintro ⟨hzero, htarget, hstops⟩
    exact ⟨_, ⟨⟨hpath, hzero⟩, hstops, rfl⟩, htarget⟩
  · rintro ⟨_, ⟨⟨-, hzero⟩, hstops, rfl⟩, htarget⟩
    exact ⟨hzero, htarget, hstops⟩

/-! ## Joined paths -/

section Join

variable {directory name : String} (hname : Path.IsName name) (d : Disk)

include hname

theorem exists_pieces_join (directory : String) :
    ∃ pieces, (Path.pieces directory = pieces ∨ Path.pieces directory = pieces ++ [""]) ∧
      Path.pieces (Path.join directory name) = pieces ++ [name] := by
  by_cases hdirectory : directory = ""
  · subst hdirectory
    have hjoin : Path.join "" name = name := by simp [Path.join]
    exact ⟨[], .inr rfl, by rw [hjoin, hname.pieces]; rfl⟩
  · obtain ⟨text, htext, hjoin⟩ := Path.exists_toList_join hdirectory hname.isAbsolute
    refine ⟨(split '/' text).map String.ofList, ?_, ?_⟩
    · rcases htext with h | h
      · exact .inl (by rw [Path.pieces, h])
      · refine .inr ?_
        rw [Path.pieces, h, split_append_sep, List.map_append]
        rfl
    · rw [Path.pieces, hjoin, split_append_sep, split_of_notMem hname.slash, List.map_append,
        List.map_singleton, String.ofList_toList]

theorem start_join : d.start (Path.join directory name) = d.start directory := by
  rw [start, start, Path.isAbsolute_join, hname.isAbsolute, Bool.or_false]

theorem target_join : d.target (Path.join directory name) = d.target directory ++ [name] := by
  obtain ⟨pieces, hpieces, hjoin⟩ := exists_pieces_join hname directory
  have htarget : d.target directory = walk (d.start directory) pieces := by
    rcases hpieces with h | h
    · rw [target, h]
    · rw [target, h, walk_concat]
      rfl
  rw [target, start_join hname, hjoin, walk_concat, hname.step, htarget]

theorem mem_stops_join {s : Place} :
    s ∈ d.stops (Path.join directory name) ↔ s ∈ d.target directory :: d.stops directory := by
  obtain ⟨pieces, hpieces, hjoin⟩ := exists_pieces_join hname directory
  rw [stops, start_join hname, hjoin, stops_concat, List.mem_append, List.mem_singleton,
    List.mem_cons, target, stops]
  rcases hpieces with h | h
  · rw [h, or_comm]
  · have hlast : step (walk (d.start directory) pieces) "" = walk (d.start directory) pieces := rfl
    rw [h, walk_concat, stops_concat, hlast, List.mem_append, List.mem_singleton]
    tauto

theorem isPath_join : IsPath (Path.join directory name) ↔ '\x00' ∉ directory.toList := by
  by_cases hdirectory : directory = ""
  · subst hdirectory
    have hjoin : Path.join "" name = name := by simp [Path.join]
    rw [hjoin]
    simp [IsPath, hname.notEmpty, hname.zero]
  · obtain ⟨text, htext, hjoin⟩ := Path.exists_toList_join hdirectory hname.isAbsolute
    have hne : Path.join directory name ≠ "" := by
      intro h
      rw [h] at hjoin
      simp at hjoin
    rw [IsPath, hjoin]
    rcases htext with h | h <;> simp [h, hname.zero, hne]

/-- A file in a directory is reached through the directory. -/
theorem locate_join {q : Place} :
    d.locate (Path.join directory name) = .ok q ↔
      d.Opens directory ∧ q = d.target directory ++ [name] := by
  simp only [locate_eq_ok_iff, isPath_join hname, mem_stops_join hname, target_join hname d, Opens,
    and_assoc]

end Join

/-! ## Trees -/

/-- A disk on which everything lies in a directory. -/
structure WellFormed (d : Disk) : Prop where
  /-- A place is made of names. -/
  isName : ∀ s node, d.node? s = some node → ∀ name ∈ s, Path.IsName name
  parent : ∀ s node, d.node? s = some node → d.node? s.dropLast = some .directory
  workingDirectory : d.node? d.workingDirectory = some .directory

theorem node?_nil (d : Disk) : d.node? [] = some .directory := rfl

theorem wellFormed_empty : WellFormed empty := by
  have hnode : ∀ s, empty.node? s = if s = [] then some .directory else none := by
    intro s
    unfold node? empty
    simp
  refine ⟨fun s node hs => ?_, fun s node hs => ?_, rfl⟩
  · rw [hnode] at hs
    split at hs
    · next h =>
      subst h
      exact List.forall_mem_nil _
    · cases hs
  · rw [hnode] at hs
    split at hs
    · next h =>
      subst h
      rfl
    · cases hs

theorem WellFormed.ancestor {d : Disk} (h : d.WellFormed) {s t : Place} {node : Node}
    (hs : d.node? s = some node) (ht : t <+: s) (hne : t ≠ s) : d.node? t = some .directory := by
  obtain ⟨rest, rfl⟩ := ht
  induction rest using List.reverseRecOn generalizing node with
  | nil => exact absurd (List.append_nil t).symm hne
  | append_singleton rest name ih =>
      have hparent := h.parent _ _ hs
      rw [← List.append_assoc, List.dropLast_concat] at hparent
      cases rest with
      | nil => rwa [List.append_nil] at hparent
      | cons next rest => exact ih hparent (by simp)

/-- A path that does not lead up can be followed to a directory that is there. -/
theorem WellFormed.opens {d : Disk} (h : d.WellFormed) {path : String}
    (hzero : '\x00' ∉ path.toList) (hup : ".." ∉ Path.pieces path)
    (htarget : d.node? (d.target path) = some .directory) : d.Opens path := by
  refine ⟨hzero, List.forall_mem_cons.2 ⟨htarget, fun s hs => ?_⟩⟩
  have hpairwise := Place.pairwise_stops hup (d.start path)
  have hbelow : s <+: d.target path :=
    (List.pairwise_append.1 hpairwise).2.2 s hs _ (List.mem_singleton_self _)
  by_cases heq : s = d.target path
  · rwa [heq]
  · exact h.ancestor htarget hbelow heq

theorem node?_set {d : Disk} {place : Place} (hplace : place ≠ []) (node : Node) (s : Place) :
    (d.set place node).node? s = if place = s then some node else d.node? s := by
  unfold node? set
  by_cases hs : s = []
  · subst hs
    rw [if_pos rfl, if_neg hplace, if_pos rfl]
  · rw [if_neg hs, if_neg hs, Std.ExtTreeMap.getElem?_insert]
    simp only [Std.LawfulEqOrd.compare_eq_iff_eq]

theorem WellFormed.set {d : Disk} (h : d.WellFormed) {p : Place} {name : String}
    (hname : Path.IsName name) (hp : d.node? p = some .directory) {node : Node}
    (hnode : d.node? (p ++ [name]) = some .directory → node = .directory) :
    (d.set (p ++ [name]) node).WellFormed := by
  have hne : p ++ [name] ≠ [] := by simp
  have hset := node?_set (d := d) hne node
  -- a directory stays one
  have hkeep : ∀ s, d.node? s = some .directory →
      (d.set (p ++ [name]) node).node? s = some .directory := by
    intro s hs
    rw [hset]
    split
    · next heq =>
      subst heq
      rw [hnode hs]
    · exact hs
  refine ⟨?_, ?_, hkeep _ h.workingDirectory⟩
  · intro s node' hs
    rw [hset] at hs
    split at hs
    · next heq =>
      subst heq
      intro n hn
      rcases List.mem_append.1 hn with hn | hn
      · exact h.isName p _ hp n hn
      · obtain rfl := List.mem_singleton.1 hn
        exact hname
    · exact h.isName s _ hs
  · intro s node' hs
    rw [hset] at hs
    refine hkeep _ ?_
    split at hs
    · next heq =>
      subst heq
      rwa [List.dropLast_concat]
    · exact h.parent s _ hs

end Disk

end BundleCoverage
