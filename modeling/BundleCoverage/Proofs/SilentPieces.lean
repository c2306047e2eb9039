import BundleCoverage.Proofs.Changes
import Mathlib.Data.List.TakeWhile

/-!
# Pieces of a path that stand for no step

Empty pieces of a path and points stand for no step, so two paths with the same other pieces lead
the same way if both start at the root, or neither does (`Path.SameWay`).  Dropping slashes that
are doubled does not change where a path leads (`Path.sameWay_spelled`).

What remains of a path below another one is found by the steps of the other
(`Path.dropSteps_countP_append`), so it does not depend on silent pieces in front of it
(`Path.dropSteps_append_of_silent`).
-/

namespace BundleCoverage

open Text

theorem Text.mem_iff_exists_mem_split {sep c : Char} (hc : c ≠ sep) {text : List Char} :
    c ∈ text ↔ ∃ piece ∈ split sep text, c ∈ piece := by
  refine ⟨fun hmem => ?_, fun ⟨piece, hpiece, hmem⟩ => (mem_split hpiece).2 hmem⟩
  induction text with
  | nil => cases hmem
  | cons d text ih =>
      rw [split]
      by_cases hd : d = sep
      · have hrest : c ∈ text := (List.mem_cons.1 hmem).resolve_left (hd ▸ hc)
        obtain ⟨piece, hpiece, hin⟩ := ih hrest
        exact ⟨piece, by simp [hd, hpiece], hin⟩
      · obtain ⟨first, pieces, hsplit⟩ := List.exists_cons_of_ne_nil (split_ne_nil sep text)
        rw [hsplit] at ih
        rw [if_neg hd, hsplit, consFirst]
        rcases List.mem_cons.1 hmem with rfl | hrest
        · exact ⟨c :: first, by simp, by simp⟩
        · obtain ⟨piece, hpiece, hin⟩ := ih hrest
          rcases List.mem_cons.1 hpiece with rfl | hpiece
          · exact ⟨d :: piece, by simp, by simp [hin]⟩
          · exact ⟨piece, by simp [hpiece], hin⟩

/-! ## Places -/

namespace Place

open BundleCoverage.Path

theorem step_of_isSilent {piece : List Char} (h : isSilent piece) (p : Place) :
    step p (String.ofList piece) = p := by
  rw [isSilent, Bool.or_eq_true, decide_eq_true_eq, decide_eq_true_eq] at h
  rcases h with rfl | rfl
  · rfl
  · rfl

/-- The pieces that stand for a step lead to the same place. -/
theorem walk_filter (pieces : List (List Char)) (p : Place) :
    walk p ((pieces.filter (!isSilent ·)).map String.ofList)
      = walk p (pieces.map String.ofList) := by
  induction pieces generalizing p with
  | nil => rfl
  | cons piece pieces ih =>
      rw [List.map_cons, walk_cons]
      cases hsilent : isSilent piece with
      | true => rw [List.filter_cons_of_neg (by simp [hsilent]), ih, step_of_isSilent hsilent]
      | false =>
          rw [List.filter_cons_of_pos (by simp [hsilent]), List.map_cons, walk_cons, ih]

/-- The pieces that stand for a step lead through the same places. -/
theorem mem_stops_filter {s : Place} (pieces : List (List Char)) (p : Place) :
    s ∈ stops p ((pieces.filter (!isSilent ·)).map String.ofList)
        ++ [walk p (pieces.map String.ofList)] ↔
      s ∈ stops p (pieces.map String.ofList) ++ [walk p (pieces.map String.ofList)] := by
  induction pieces generalizing p with
  | nil => rfl
  | cons piece pieces ih =>
      rw [List.map_cons, walk_cons, stops]
      cases hsilent : isSilent piece with
      | true =>
          rw [List.filter_cons_of_neg (by simp [hsilent]), step_of_isSilent hsilent, ih,
            List.cons_append, List.mem_cons]
          -- the place that is not left is one of the others
          refine (or_iff_right_of_imp ?_).symm
          rintro rfl
          cases pieces with
          | nil => simp [walk, stops]
          | cons next pieces => simp [stops]
      | false =>
          rw [List.filter_cons_of_pos (by simp [hsilent]), List.map_cons, stops, List.cons_append,
            List.cons_append, List.mem_cons, List.mem_cons, ih]

end Place

/-! ## Paths that lead the same way -/

namespace Path

/-- The pieces of a path that stand for a step. -/
def moves (path : String) : List (List Char) := (split '/' path.toList).filter (!isSilent ·)

/-- Whether two paths start alike and take the same steps. -/
structure SameWay (a b : String) : Prop where
  /-- Both start at the root, or neither does. -/
  isAbsolute : isAbsolute a = isAbsolute b
  /-- They take the same steps. -/
  moves : moves a = moves b

theorem zero_mem_iff {path : String} :
    '\x00' ∈ path.toList ↔ ∃ piece ∈ moves path, '\x00' ∈ piece := by
  rw [mem_iff_exists_mem_split (by decide : '\x00' ≠ '/'), moves]
  simp only [List.mem_filter]
  constructor
  · rintro ⟨piece, hpiece, hmem⟩
    refine ⟨piece, ⟨hpiece, ?_⟩, hmem⟩
    rw [Bool.not_eq_true', isSilent, Bool.or_eq_false_iff, decide_eq_false_iff_not,
      decide_eq_false_iff_not]
    constructor
    · rintro rfl
      cases hmem
    · rintro rfl
      simp at hmem
  · rintro ⟨piece, ⟨hpiece, -⟩, hmem⟩
    exact ⟨piece, hpiece, hmem⟩

variable {a b : String} {d : Disk}

theorem SameWay.symm (h : SameWay a b) : SameWay b a := ⟨h.isAbsolute.symm, h.moves.symm⟩

theorem SameWay.trans {c : String} (hab : SameWay a b) (hbc : SameWay b c) : SameWay a c :=
  ⟨hab.isAbsolute.trans hbc.isAbsolute, hab.moves.trans hbc.moves⟩

theorem SameWay.start (h : SameWay a b) : d.start a = d.start b := by
  rw [Disk.start, Disk.start, h.isAbsolute]

theorem target_eq (path : String) :
    d.target path = Place.walk (d.start path) ((moves path).map String.ofList) := by
  rw [moves, Place.walk_filter]
  rfl

theorem SameWay.target (h : SameWay a b) : d.target a = d.target b := by
  rw [target_eq, target_eq, h.start, h.moves]

theorem opens_iff_moves (path : String) :
    d.Opens path ↔ (∀ piece ∈ moves path, '\x00' ∉ piece) ∧
      ∀ s ∈ Place.stops (d.start path) ((moves path).map String.ofList) ++ [d.target path],
        d.node? s = some .directory := by
  have hstops : ∀ s, s ∈ Place.stops (d.start path) ((moves path).map String.ofList)
      ++ [d.target path] ↔ s ∈ d.target path :: d.stops path := by
    intro s
    rw [List.mem_cons, or_comm, ← List.mem_singleton, ← List.mem_append]
    exact Place.mem_stops_filter _ _
  rw [Disk.Opens, zero_mem_iff]
  simp only [hstops, not_exists, not_and]

theorem SameWay.opens (h : SameWay a b) : d.Opens a ↔ d.Opens b := by
  rw [opens_iff_moves, opens_iff_moves, h.start, h.moves, h.target]

/-! ## Slashes that are not doubled -/

/-- The pieces of a text in which slashes are not doubled behind the first step. -/
def singly (pieces : List (List Char)) : List (List Char) :=
  pieces.takeWhile isSilent ++ (pieces.dropWhile isSilent).filter (· ≠ [])

theorem filter_takeWhile_isSilent (pieces : List (List Char)) :
    (pieces.takeWhile isSilent).filter (!isSilent ·) = [] := by
  rw [List.filter_eq_nil_iff]
  intro piece hpiece
  simp [List.all_eq_true.1 List.all_takeWhile piece hpiece]

theorem filter_isSilent_filter (pieces : List (List Char)) :
    (pieces.filter (· ≠ [])).filter (!isSilent ·) = pieces.filter (!isSilent ·) := by
  rw [List.filter_filter]
  refine List.filter_congr fun piece _ => ?_
  cases piece with
  | nil => rfl
  | cons c piece => simp

theorem filter_isSilent_dropWhile (pieces : List (List Char)) :
    (pieces.dropWhile isSilent).filter (!isSilent ·) = pieces.filter (!isSilent ·) := by
  have hsplit := congrArg (List.filter (!isSilent ·))
    (List.takeWhile_append_dropWhile (p := isSilent) (l := pieces))
  rwa [List.filter_append, filter_takeWhile_isSilent, List.nil_append] at hsplit

theorem ne_nil_of_isSilent_eq_false {piece : List Char} (h : isSilent piece = false) :
    piece ≠ [] := by
  rintro rfl
  cases h

theorem isSilent_of_dropWhile_eq_cons {pieces rest : List (List Char)} {piece : List Char}
    (h : pieces.dropWhile isSilent = piece :: rest) : isSilent piece = false := by
  have hhead := List.head?_dropWhile_not isSilent pieces
  rw [h] at hhead
  simpa using hhead

/-- Behind silent pieces a path goes on with a step. -/
theorem isSilent_of_mem_head? {pieces next : List (List Char)}
    (hnext : ∀ piece ∈ next, isSilent piece = false) {piece : List Char}
    (h : piece ∈ ((pieces.dropWhile isSilent).filter (· ≠ []) ++ next).head?) :
    isSilent piece = false := by
  cases hdrop : pieces.dropWhile isSilent with
  | nil =>
      rw [hdrop] at h
      exact hnext piece (List.mem_of_head? h)
  | cons first rest =>
      have hfirst : isSilent first = false := isSilent_of_dropWhile_eq_cons hdrop
      have hne : first ≠ [] := ne_nil_of_isSilent_eq_false hfirst
      rw [hdrop, List.filter_cons_of_pos (by simp [hne])] at h
      cases h
      exact hfirst

theorem filter_isSilent_singly (pieces : List (List Char)) :
    (singly pieces).filter (!isSilent ·) = pieces.filter (!isSilent ·) := by
  rw [singly, List.filter_append, filter_takeWhile_isSilent, List.nil_append,
    filter_isSilent_filter, filter_isSilent_dropWhile]

theorem head?_singly (pieces : List (List Char)) : (singly pieces).head? = pieces.head? := by
  cases pieces with
  | nil => rfl
  | cons piece pieces =>
      rw [singly]
      cases hsilent : isSilent piece with
      | true => simp [hsilent]
      | false =>
          have hne : piece ≠ [] := ne_nil_of_isSilent_eq_false hsilent
          simp [hsilent, hne]

theorem isAbsolute_iff_head? {path : String} (h : path ≠ "") :
    isAbsolute path = true ↔ (split '/' path.toList).head? = some [] := by
  unfold isAbsolute
  cases hpath : path.toList with
  | nil => exact absurd (String.toList_eq_nil_iff.1 hpath) h
  | cons c text =>
      rw [split]
      by_cases hc : c = '/'
      · simp [hc]
      · obtain ⟨first, pieces, hsplit⟩ := List.exists_cons_of_ne_nil (split_ne_nil '/' text)
        simp [hc, hsplit, consFirst]

section Spelled

variable {path next : String}

theorem singly_of_all {pieces : List (List Char)} (h : pieces.all isSilent = true) :
    singly pieces = pieces := by
  rw [List.all_eq_true] at h
  rw [singly, List.takeWhile_eq_self_iff.2 h, List.dropWhile_eq_nil_iff.2 h, List.filter_nil,
    List.append_nil]

theorem getLast?_singly {pieces : List (List Char)} (h : ¬ pieces.all isSilent = true) :
    (singly pieces).getLast? ≠ some [] := by
  obtain ⟨piece, rest, hrest⟩ : ∃ piece rest, pieces.dropWhile isSilent = piece :: rest := by
    refine List.exists_cons_of_ne_nil fun hnil => h ?_
    rwa [List.all_eq_true, ← List.dropWhile_eq_nil_iff]
  have hne : piece ≠ [] := ne_nil_of_isSilent_eq_false (isSilent_of_dropWhile_eq_cons hrest)
  have hkept : (pieces.dropWhile isSilent).filter (· ≠ []) ≠ [] := by
    simp [hrest, hne]
  intro hlast
  rw [singly, List.getLast?_append_of_ne_nil _ hkept] at hlast
  have hmem := List.mem_of_getLast? hlast
  simp at hmem

theorem split_spelled (h : ¬ (split '/' path.toList).all isSilent = true) :
    split '/' (spelled path).toList = singly (split '/' path.toList) := by
  have hne : singly (split '/' path.toList) ≠ [] := by
    intro hnil
    have hhead := head?_singly (split '/' path.toList)
    rw [hnil] at hhead
    exact split_ne_nil '/' path.toList (List.head?_eq_none_iff.1 hhead.symm)
  have hslash : ∀ piece ∈ singly (split '/' path.toList), '/' ∉ piece := by
    intro piece hpiece
    rcases List.mem_append.1 hpiece with hpiece | hpiece
    · exact (mem_split ((List.takeWhile_sublist _).subset hpiece)).1
    · have hpiece := (List.mem_filter.1 hpiece).1
      exact (mem_split ((List.dropWhile_sublist _).subset hpiece)).1
  simp only [spelled, if_neg h, String.toList_ofList]
  exact split_join hne hslash

/-- Dropping doubled slashes does not change where a path leads. -/
theorem sameWay_spelled (hpath : path ≠ "") : SameWay (spelled path) path := by
  by_cases hall : (split '/' path.toList).all isSilent = true
  · have hspelled : spelled path = path ++ "/" := by simp only [spelled, if_pos hall]
    have hpieces : split '/' (path ++ "/").toList = split '/' path.toList ++ [[]] := by
      rw [String.toList_append]
      exact split_append_sep '/' path.toList []
    constructor
    · rw [hspelled, Bool.eq_iff_iff, isAbsolute_iff_head? (by simp), isAbsolute_iff_head? hpath,
        hpieces, List.head?_append_of_ne_nil _ (split_ne_nil '/' _)]
    · rw [moves, moves, hspelled, hpieces, List.filter_append]
      exact List.append_nil _
  · have hne : spelled path ≠ "" := by
      intro h
      have := split_spelled hall
      rw [h] at this
      exact getLast?_singly hall (by rw [← this]; rfl)
    constructor
    · rw [Bool.eq_iff_iff, isAbsolute_iff_head? hne, isAbsolute_iff_head? hpath, split_spelled hall,
        head?_singly]
    · rw [moves, moves, split_spelled hall, filter_isSilent_singly]

theorem toList_join_slash (hnext : isAbsolute next = false) :
    (join (path ++ "/") next).toList = path.toList ++ '/' :: next.toList := by
  have hempty : (path ++ "/").isEmpty = false := String.isEmpty_eq_false_iff.2 (by simp)
  rw [join, if_neg (by simp [hnext, hempty]), if_pos (by simp)]
  simp

theorem toList_join_of_getLast? (hpath : path ≠ "") (hlast : path.toList.getLast? ≠ some '/')
    (hnext : isAbsolute next = false) :
    (join path next).toList = path.toList ++ '/' :: next.toList := by
  have hempty : path.isEmpty = false := String.isEmpty_eq_false_iff.2 hpath
  rw [join, if_neg (by simp [hnext, hempty]), if_neg hlast]
  simp

theorem split_join_spelled (hnext : isAbsolute next = false) :
    split '/' (join (spelled path) next).toList
      = singly (split '/' path.toList) ++ split '/' next.toList := by
  by_cases hall : (split '/' path.toList).all isSilent = true
  · have hspelled : spelled path = path ++ "/" := by simp only [spelled, if_pos hall]
    rw [hspelled, toList_join_slash hnext, split_append_sep, singly_of_all hall]
  · have hend : (split '/' (spelled path).toList).getLast? ≠ some [] := by
      rw [split_spelled hall]
      exact getLast?_singly hall
    have hne : spelled path ≠ "" := by
      intro h
      rw [h] at hend
      exact hend rfl
    have hlast : (spelled path).toList.getLast? ≠ some '/' := by
      intro h
      obtain ⟨text, htext⟩ := List.getLast?_eq_some_iff.1 h
      rw [htext, split_append_sep] at hend
      exact hend (by simp [split])
    rw [toList_join_of_getLast? hne hlast hnext, split_append_sep, split_spelled hall]

end Spelled

/-! ## Paths below another -/

theorem dropSteps_cons_of_silent {piece : List Char} (h : isSilent piece = true) (n : Nat)
    (pieces : List (List Char)) : dropSteps n (piece :: pieces) = dropSteps n pieces := by
  rw [dropSteps.eq_def]
  simp only [if_pos h]

theorem dropSteps_zero_cons {piece : List Char} (h : isSilent piece = false)
    (pieces : List (List Char)) : dropSteps 0 (piece :: pieces) = piece :: pieces := by
  simp [dropSteps, h]

theorem dropSteps_succ_cons {piece : List Char} (h : isSilent piece = false) (n : Nat)
    (pieces : List (List Char)) : dropSteps (n + 1) (piece :: pieces) = dropSteps n pieces := by
  simp [dropSteps, h]

/-- Silent pieces in front do not count as steps. -/
theorem dropSteps_append_of_silent {lead : List (List Char)} (h : ∀ piece ∈ lead, isSilent piece)
    (n : Nat) (pieces : List (List Char)) :
    dropSteps n (lead ++ pieces) = dropSteps n pieces := by
  induction lead with
  | nil => rfl
  | cons piece lead ih =>
      obtain ⟨hpiece, hlead⟩ := List.forall_mem_cons.1 h
      rw [List.cons_append, dropSteps_cons_of_silent hpiece, ih hlead]

theorem dropSteps_zero (pieces : List (List Char)) :
    dropSteps 0 pieces = pieces.dropWhile isSilent := by
  induction pieces with
  | nil => rfl
  | cons piece pieces ih =>
      cases hsilent : isSilent piece with
      | true => rw [dropSteps_cons_of_silent hsilent, List.dropWhile_cons_of_pos hsilent, ih]
      | false =>
          rw [dropSteps_zero_cons hsilent, List.dropWhile_cons_of_neg (by simp [hsilent])]

/-- Behind the steps of a path it is read on from the next step. -/
theorem dropSteps_countP_append (before after : List (List Char)) :
    dropSteps (before.countP (!isSilent ·)) (before ++ after) = after.dropWhile isSilent := by
  induction before with
  | nil => exact dropSteps_zero after
  | cons piece before ih =>
      rw [List.cons_append]
      cases hsilent : isSilent piece with
      | true =>
          rw [List.countP_cons_of_neg (by simp [hsilent]), dropSteps_cons_of_silent hsilent, ih]
      | false =>
          rw [List.countP_cons_of_pos (by simp [hsilent]), dropSteps_succ_cons hsilent, ih]

/-- Dropping empty pieces drops no step. -/
theorem dropSteps_filter (n : Nat) (pieces : List (List Char)) :
    dropSteps n (pieces.filter (· ≠ [])) = (dropSteps n pieces).filter (· ≠ []) := by
  induction pieces generalizing n with
  | nil => rfl
  | cons piece pieces ih =>
      by_cases hempty : piece = []
      · subst hempty
        exact ih n
      · have hkeep (rest : List (List Char)) :
            (piece :: rest).filter (· ≠ []) = piece :: rest.filter (· ≠ []) :=
          List.filter_cons_of_pos (by simp [hempty])
        rw [hkeep]
        cases hsilent : isSilent piece with
        | true =>
            rw [dropSteps_cons_of_silent hsilent, dropSteps_cons_of_silent hsilent, ih]
        | false =>
            cases n with
            | zero =>
                rw [dropSteps_zero_cons hsilent, dropSteps_zero_cons hsilent, hkeep]
            | succ n => rw [dropSteps_succ_cons hsilent, dropSteps_succ_cons hsilent, ih]

theorem filter_ne_nil {pieces : List (List Char)} (h : ∀ piece ∈ pieces, isSilent piece = false) :
    pieces.filter (· ≠ []) = pieces := by
  exact List.filter_eq_self.2 fun piece hpiece =>
    decide_eq_true (ne_nil_of_isSilent_eq_false (h piece hpiece))

/-- Of a path in which slashes are not doubled, what is behind the steps of the first part starts
with the next step. -/
theorem dropSteps_of_spelled {lead next : List (List Char)} (hlead : ∀ piece ∈ lead, isSilent piece)
    (hnext : ∀ piece ∈ next, isSilent piece = false) (before after : List (List Char)) :
    dropSteps (before.countP (!isSilent ·))
        (lead ++ ((before ++ after).dropWhile isSilent).filter (· ≠ []) ++ next)
      = (after.dropWhile isSilent).filter (· ≠ []) ++ next := by
  have hfilter : ((before ++ after).dropWhile isSilent).filter (· ≠ []) ++ next
      = ((before ++ after).dropWhile isSilent ++ next).filter (· ≠ []) := by
    rw [List.filter_append, filter_ne_nil hnext]
  have hdrop (n : Nat) (pieces : List (List Char)) :
      dropSteps n (pieces.dropWhile isSilent ++ next) = dropSteps n (pieces ++ next) := by
    have hsilent : ∀ piece ∈ pieces.takeWhile isSilent, isSilent piece :=
      fun piece hpiece => List.all_eq_true.1 List.all_takeWhile piece hpiece
    rw [← dropSteps_append_of_silent hsilent, ← List.append_assoc, List.takeWhile_append_dropWhile]
  have hend : (after ++ next).dropWhile isSilent = after.dropWhile isSilent ++ next := by
    rw [List.dropWhile_append]
    split
    · next hempty =>
      rw [List.isEmpty_iff.1 hempty, List.nil_append]
      cases next with
      | nil => rfl
      | cons piece next => exact List.dropWhile_cons_of_neg (by simp [hnext])
    · rfl
  rw [List.append_assoc, dropSteps_append_of_silent hlead, hfilter, dropSteps_filter, hdrop,
    List.append_assoc, dropSteps_countP_append, hend, List.filter_append, filter_ne_nil hnext]

end Path

end BundleCoverage
