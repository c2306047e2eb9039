import BundleCoverage.Cache.Basic
import BundleCoverage.Proofs.Changes

/-!
# What is in a cache directory

A cache directory is a map from file names to bytes (`Cache.files`).  The entries of an origin in
such a map are those of its documents, each once and in the order of the names
(`CacheOrigin.entries`); what is no document of the origin has no part in it.  Loading a cache
gives the entries in its directory (`Cache.load_eq`).
-/

namespace BundleCoverage

open Std

/-! ## Maps in order -/

section Sorted

variable {β : Type} {l : List (String × β)} (h : l.Pairwise fun a b => compare a.1 b.1 = .lt)

include h

theorem getElem?_ofList_iff {k : String} {v : β} :
    (ExtTreeMap.ofList l)[k]? = some v ↔ (k, v) ∈ l := by
  have hdistinct : l.Pairwise fun a b => ¬compare a.1 b.1 = .eq := by
    refine h.imp fun hlt heq => ?_
    rw [hlt] at heq
    cases heq
  have hmem : ∀ v', (k, v') ∈ l → (ExtTreeMap.ofList l)[k]? = some v' := fun v' hv' =>
    ExtTreeMap.getElem?_ofList_of_mem ReflOrd.compare_self hdistinct hv'
  constructor
  · intro hv
    by_cases hk : k ∈ l.map Prod.fst
    · obtain ⟨⟨_, v'⟩, hv', rfl⟩ := List.mem_map.1 hk
      rw [hmem v' hv'] at hv
      exact Option.some.inj hv ▸ hv'
    · rw [ExtTreeMap.getElem?_ofList_of_contains_eq_false] at hv
      · cases hv
      · rw [← Bool.not_eq_true, List.contains_iff_mem]
        exact hk
  · exact hmem v

theorem toList_ofList : (ExtTreeMap.ofList l).toList = l := by
  have hne : ∀ {a b : String × β}, compare a.1 b.1 = .lt → a ≠ b := by
    rintro a _ hlt rfl
    rw [ReflOrd.compare_self] at hlt
    cases hlt
  have hordered := (ExtTreeMap.ofList l).ordered_keys_toList
  refine List.Perm.eq_of_pairwise ?_ hordered h ?_
  · intro a b _ _ hab hba
    exact absurd hba (OrientedCmp.not_lt_of_lt hab)
  · rw [List.perm_ext_iff_of_nodup (hordered.imp hne) (h.imp hne)]
    rintro ⟨k, v⟩
    rw [ExtTreeMap.mem_toList_iff_getElem?_eq_some, getElem?_ofList_iff h]

end Sorted

/-! ## Listings -/

namespace Disk

variable {d : Disk} {p : Place}

theorem compare_append (p : Place) (a b : String) :
    compare (p ++ [a]) (p ++ [b]) = compare a b := by
  induction p with
  | nil =>
      rw [List.nil_append, List.nil_append, List.compare_cons_cons]
      cases compare a b <;> rfl
  | cons name p ih =>
      rw [List.cons_append, List.cons_append, List.compare_cons_cons, ReflOrd.compare_self]
      exact ih

/-- The name of a place in a directory. -/
def childName? (p s : Place) : Option String :=
  if p.isPrefixOf s && s.length == p.length + 1 then s.getLast? else none

theorem childName?_eq_some_iff {s : Place} {name : String} :
    childName? p s = some name ↔ s = p ++ [name] := by
  unfold childName?
  split
  · next h =>
    rw [Bool.and_eq_true, List.isPrefixOf_iff_prefix, beq_iff_eq] at h
    obtain ⟨⟨rest, rfl⟩, hlength⟩ := h
    rw [List.length_append, Nat.add_left_cancel_iff, List.length_eq_one_iff] at hlength
    obtain ⟨last, rfl⟩ := hlength
    simp
  · next h =>
    refine iff_of_false (fun h => by cases h) ?_
    rintro rfl
    simp at h

theorem children_eq (d : Disk) (p : Place) : d.children p = d.nodes.keys.filterMap (childName? p) :=
  rfl

theorem children_sorted (d : Disk) (p : Place) :
    (d.children p).Pairwise fun a b => compare a b = .lt := by
  rw [children_eq, List.pairwise_filterMap]
  refine d.nodes.ordered_keys.imp ?_
  intro s t hst a ha b hb
  rw [childName?_eq_some_iff] at ha hb
  rwa [ha, hb, compare_append] at hst

theorem mem_children {name : String} :
    name ∈ d.children p ↔ ∃ node, d.node? (p ++ [name]) = some node := by
  rw [children_eq, List.mem_filterMap]
  simp only [childName?_eq_some_iff, exists_eq_right, ExtTreeMap.mem_keys,
    ExtTreeMap.mem_iff_isSome_getElem?, Option.isSome_iff_exists]
  unfold node?
  rw [if_neg (by simp)]

theorem exists_of_list_eq_ok {path : String} {names : List String} (h : d.list path = .ok names) :
    ∃ p, d.locate path = .ok p ∧ d.node? p = some .directory ∧ names = d.children p := by
  obtain ⟨p, hp, h⟩ := bind_eq_ok_iff.1 h
  split at h
  · next hnode => exact ⟨p, hp, hnode, (Except.ok.inj h).symm⟩
  · cases h
  · cases h

/-- A text that is no path leads nowhere on any disk. -/
theorem list_eq_of_not_isPath {path : String} (h : ¬IsPath path) (d' : Disk) :
    d'.list path = d.list path := by
  unfold list locate startOf
  split
  · rfl
  · next hempty =>
    split
    · rfl
    · next hzero =>
      refine absurd ⟨fun h => hempty (String.isEmpty_iff.2 h), fun h => hzero ?_⟩ h
      exact List.contains_iff_mem.2 h

theorem list_eq_error_iff_of_locate {path : String} {p : Place} (hp : d.locate path = .ok p)
    {e : DiskFault} : d.list path = .error e ↔ d.fault? p = some e := by
  unfold list fault?
  rw [hp]
  cases hnode : d.node? p with
  | none => simp [bind, Except.bind, throw, throwThe, MonadExceptOf.throw, hnode]
  | some node =>
      cases node with
      | directory => simp [bind, Except.bind, pure, Except.pure, hnode]
      | file bytes => simp [bind, Except.bind, throw, throwThe, MonadExceptOf.throw, hnode]

/-- Why a directory cannot be listed: the first place on the way that is no directory. -/
theorem list_eq_error_iff {path : String} (hpath : IsPath path) {e : DiskFault} :
    d.list path = .error e ↔ ∃ before s after,
      d.stops path ++ [d.target path] = before ++ s :: after ∧
        d.fault? s = some e ∧ ∀ t ∈ before, d.node? t = some .directory := by
  have hstart : d.startOf path = .ok (d.start path, Path.pieces path) :=
    startOf_eq_ok_iff.2 ⟨hpath, rfl, rfl⟩
  have hfollow : d.locate path = d.follow (d.start path) (Path.pieces path) := by
    rw [locate, hstart]
    rfl
  rw [follow_eq, ← stops, ← target] at hfollow
  have hfault : d.list path = .error e ↔
      (d.stops path ++ [d.target path]).findSome? d.fault? = some e := by
    rw [List.findSome?_append, List.findSome?_singleton]
    cases hstops : (d.stops path).findSome? d.fault? with
    | some e' =>
        rw [hstops] at hfollow
        rw [list, hfollow]
        show Except.error e' = Except.error e ↔ some e' = some e
        rw [Except.error.injEq, Option.some.injEq]
    | none =>
        rw [hstops] at hfollow
        exact list_eq_error_iff_of_locate hfollow
  rw [hfault, List.findSome?_eq_some_iff]
  simp only [fault?_eq_none_iff]

theorem Opens.list {path : String} (h : d.Opens path) (hpath : path ≠ "") :
    d.list path = .ok (d.children (d.target path)) := by
  have hlocate : d.locate path = .ok (d.target path) :=
    locate_eq_ok_iff.2 ⟨⟨hpath, h.1⟩, (List.forall_mem_cons.1 h.2).2, rfl⟩
  refine bind_eq_ok_iff.2 ⟨_, hlocate, ?_⟩
  rw [h.target]
  rfl

end Disk

/-! ## Files and documents -/

theorem Text.startsWith_iff {text start : List Char} :
    startsWith text start = true ↔ start <+: text := by
  rw [startsWith, Option.isSome_iff_exists]
  exact exists_congr fun rest => stripPrefix?_eq_some_iff.trans eq_comm

theorem Text.endsWith_iff {text ending : List Char} :
    endsWith text ending = true ↔ ending <:+ text := by
  rw [endsWith, Option.isSome_iff_exists]
  exact exists_congr fun rest => stripSuffix?_eq_some_iff.trans eq_comm

namespace Cache

theorem isDocumentName_iff {origin : CacheOrigin} {name : String} :
    isDocumentName origin name = true ↔
      origin.mark.toList <+: name.toList ∧ ".json".toList <:+ name.toList := by
  rw [isDocumentName, Bool.and_eq_true, Text.startsWith_iff, Text.endsWith_iff]
  rfl

/-- The files in the directory of a cache with their bytes, by name. -/
def files (c : Cache) (d : Disk) : ExtTreeMap String (List UInt8) :=
  ExtTreeMap.ofList (((d.list c.directory).toOption.getD []).filterMap fun name =>
    (d.read (Path.join c.directory name)).toOption.map (name, ·))

theorem sorted_filterMap {names : List String} (h : names.Pairwise fun a b => compare a b = .lt)
    (bytes? : String → Option (List UInt8)) :
    (names.filterMap fun name => (bytes? name).map (name, ·)).Pairwise
      fun a b => compare a.1 b.1 = .lt := by
  rw [List.pairwise_filterMap]
  refine h.imp ?_
  intro a b hab x hx y hy
  obtain ⟨_, -, rfl⟩ := Option.map_eq_some_iff.1 hx
  obtain ⟨_, -, rfl⟩ := Option.map_eq_some_iff.1 hy
  exact hab

/-- What is listed and can be read is a file in the directory. -/
theorem listed_and_read {d : Disk} {directory : String} (hd : d.WellFormed)
    (hopens : d.Opens directory) {name : String} {bytes : List UInt8} :
    name ∈ d.children (d.target directory) ∧ d.read (Path.join directory name) = .ok bytes ↔
      d.node? (d.target directory ++ [name]) = some (.file bytes) := by
  have hname : ∀ node, d.node? (d.target directory ++ [name]) = some node → Path.IsName name :=
    fun node hnode => hd.isName _ _ hnode name (by simp)
  constructor
  · rintro ⟨hlisted, hread⟩
    obtain ⟨node, hnode⟩ := Disk.mem_children.1 hlisted
    exact ((Disk.read_join (hname node hnode)).1 hread).2
  · intro hnode
    exact ⟨Disk.mem_children.2 ⟨_, hnode⟩, (Disk.read_join (hname _ hnode)).2 ⟨hopens, hnode⟩⟩

theorem getElem?_files {c : Cache} {d : Disk} (hc : c.directory ≠ "") (hd : d.WellFormed)
    {name : String} {bytes : List UInt8} :
    (c.files d)[name]? = some bytes ↔
      d.Opens c.directory ∧
        d.node? (d.target c.directory ++ [name]) = some (.file bytes) := by
  unfold files
  cases hlist : d.list c.directory with
  | error e =>
      refine iff_of_false (fun h => ?_) (fun h => ?_)
      · rw [Except.toOption, Option.getD_none, List.filterMap_nil, ExtTreeMap.ofList_nil] at h
        simp at h
      · rw [h.1.list hc] at hlist
        cases hlist
  | ok names =>
      obtain ⟨p, hp, hnode, rfl⟩ := Disk.exists_of_list_eq_ok hlist
      have hopens : d.Opens c.directory := (Disk.opens_iff hc).2 ⟨p, hp, hnode⟩
      obtain rfl : p = d.target c.directory := (Disk.locate_eq_ok_iff.1 hp).2.2
      rw [Except.toOption, Option.getD_some,
        getElem?_ofList_iff (sorted_filterMap (d.children_sorted _) _), List.mem_filterMap,
        ← listed_and_read hd hopens]
      simp only [Option.map_eq_some_iff, Prod.mk.injEq, toOption_eq_some_iff]
      constructor
      · rintro ⟨_, hlisted, _, hread, rfl, rfl⟩
        exact ⟨hopens, hlisted, hread⟩
      · rintro ⟨-, hlisted, hread⟩
        exact ⟨name, hlisted, bytes, hread, rfl, rfl⟩

theorem read_of_files {c : Cache} {d : Disk} (hc : c.directory ≠ "") (hd : d.WellFormed)
    {name : String} {bytes : List UInt8} (h : (c.files d)[name]? = some bytes) :
    d.read (Path.join c.directory name) = .ok bytes := by
  obtain ⟨hopens, hnode⟩ := (getElem?_files hc hd).1 h
  exact ((listed_and_read hd hopens).2 hnode).2

end Cache

namespace CacheOrigin

/-- The entries of a file, if it is a document of an origin. -/
def document? (origin : CacheOrigin) (name : String) (bytes : List UInt8) : Option (List Entry) :=
  if Cache.isDocumentName origin name then (Json.parseBytes? bytes).bind Entry.ofDocument? else none

/-- The documents of an origin among some files. -/
def documents (origin : CacheOrigin) (files : ExtTreeMap String (List UInt8)) :
    ExtTreeMap String (List Entry) :=
  files.filterMap origin.document?

/-- The entries of the documents of an origin, in the order of their names. -/
def entries (origin : CacheOrigin) (files : ExtTreeMap String (List UInt8)) : List Entry :=
  (origin.documents files).toList.flatMap (·.2)

theorem getElem?_documents (origin : CacheOrigin) (files : ExtTreeMap String (List UInt8))
    (name : String) :
    (origin.documents files)[name]? = files[name]?.bind (origin.document? name) :=
  ExtTreeMap.getElem?_filterMap'

/-- Only files with the names of documents decide about the documents. -/
theorem getElem?_documents_congr {origin : CacheOrigin}
    {files files' : ExtTreeMap String (List UInt8)} {name : String}
    (h : Cache.isDocumentName origin name = true → files'[name]? = files[name]?) :
    (origin.documents files')[name]? = (origin.documents files)[name]? := by
  rw [getElem?_documents, getElem?_documents]
  by_cases hname : Cache.isDocumentName origin name = true
  · rw [h hname]
  · have hnone : ∀ bytes, origin.document? name bytes = none := fun bytes => if_neg hname
    rw [funext hnone, Option.bind_fun_none, Option.bind_fun_none]

theorem documents_congr {origin : CacheOrigin} {files files' : ExtTreeMap String (List UInt8)}
    (h : ∀ name, Cache.isDocumentName origin name = true → files'[name]? = files[name]?) :
    origin.documents files' = origin.documents files :=
  ExtTreeMap.ext_getElem? fun name => getElem?_documents_congr (h name)

theorem entries_ofList (origin : CacheOrigin) {files : List (String × List UInt8)}
    (h : files.Pairwise fun a b => compare a.1 b.1 = .lt) :
    origin.entries (ExtTreeMap.ofList files)
      = files.flatMap fun f => (origin.document? f.1 f.2).getD [] := by
  rw [entries, documents, ExtTreeMap.toList_filterMap, toList_ofList h]
  clear h
  induction files with
  | nil => rfl
  | cons f files ih =>
      rw [List.filterMap_cons, List.flatMap_cons, ← ih]
      cases origin.document? f.1 f.2 with
      | none => rfl
      | some entries => rfl

end CacheOrigin

namespace Cache

open CacheOrigin

theorem readDocument_toOption (d : Disk) (path : String) :
    (readDocument d path).toOption = (d.read path).toOption.bind fun bytes =>
      (Json.parseBytes? bytes).bind Entry.ofDocument? := by
  unfold readDocument
  cases d.read path with
  | error e => rfl
  | ok bytes =>
      dsimp only [Except.toOption, Option.bind_some]
      cases (Json.parseBytes? bytes).bind Entry.ofDocument? <;> rfl

/-- Reading the documents among some names that are files. -/
theorem flatMap_readDocument (directory : String) (d : Disk) (origin : CacheOrigin)
    (names : List String) :
    ((((names.filter (isDocumentName origin)).map (Path.join directory)).filter d.isFile).flatMap
        fun path => ((readDocument d path).toOption).getD [])
      = (names.filterMap fun name =>
          (d.read (Path.join directory name)).toOption.map (name, ·)).flatMap
            fun f => (origin.document? f.1 f.2).getD [] := by
  induction names with
  | nil => rfl
  | cons name names ih =>
      rw [List.filter_cons, List.filterMap_cons]
      cases hread : d.read (Path.join directory name) with
      | error e =>
          have hfile : d.isFile (Path.join directory name) = false := by
            rw [← Bool.not_eq_true, Disk.isFile_eq_true_iff]
            rintro ⟨bytes, h⟩
            rw [hread] at h
            cases h
          split
          · rw [List.map_cons, List.filter_cons, hfile]
            exact ih
          · exact ih
      | ok bytes =>
          have hfile : d.isFile (Path.join directory name) = true :=
            Disk.isFile_eq_true_iff.2 ⟨bytes, hread⟩
          rw [Except.toOption, Option.map_some, List.flatMap_cons, ← ih, document?]
          split
          · rw [List.map_cons, List.filter_cons, hfile, if_pos rfl, List.flatMap_cons,
              readDocument_toOption, hread]
            rfl
          · rfl

theorem loadOrigin_eq {c : Cache} {d : Disk} (h : d.list c.directory ≠ .error .unusable)
    (origin : CacheOrigin) : c.loadOrigin d origin = .ok (origin.entries (c.files d)) := by
  unfold loadOrigin documentPaths files
  cases hlist : d.list c.directory with
  | error e =>
      cases e with
      | notFound => rfl
      | unusable => exact absurd hlist h
  | ok names =>
      obtain ⟨p, -, -, rfl⟩ := Disk.exists_of_list_eq_ok hlist
      have hentries := entries_ofList origin (sorted_filterMap (d.children_sorted p)
        fun name => (d.read (Path.join c.directory name)).toOption)
      exact congrArg Except.ok ((flatMap_readDocument c.directory d origin _).trans hentries.symm)

theorem exists_documentPaths {c : Cache} {d : Disk} (h : d.list c.directory ≠ .error .unusable)
    (origin : CacheOrigin) : ∃ paths, c.documentPaths d origin = .ok paths := by
  unfold documentPaths
  cases hlist : d.list c.directory with
  | ok names => exact ⟨_, rfl⟩
  | error e =>
      cases e with
      | notFound => exact ⟨_, rfl⟩
      | unusable => exact absurd hlist h

/-- The paths of the documents of an origin are those of the files with such names, in order. -/
theorem exists_names_of_documentPaths {c : Cache} (hc : c.directory ≠ "") {d : Disk}
    (hd : d.WellFormed) {origin : CacheOrigin} {paths : List String}
    (h : c.documentPaths d origin = .ok paths) :
    ∃ names : List String, paths = names.map (Path.join c.directory) ∧
      names.Pairwise (fun a b => compare a b = .lt) ∧
      ∀ name, name ∈ names ↔ isDocumentName origin name = true ∧
        ∃ bytes, (c.files d)[name]? = some bytes := by
  unfold documentPaths at h
  cases hlist : d.list c.directory with
  | error e =>
      rw [hlist] at h
      cases e with
      | unusable => cases h
      | notFound =>
          cases h
          refine ⟨[], rfl, .nil, fun name => iff_of_false List.not_mem_nil ?_⟩
          rintro ⟨-, bytes, hbytes⟩
          have hopens := ((getElem?_files hc hd).1 hbytes).1
          rw [hopens.list hc] at hlist
          cases hlist
  | ok names =>
      rw [hlist] at h
      obtain rfl := Except.ok.inj h
      obtain ⟨p, hp, hnode, rfl⟩ := Disk.exists_of_list_eq_ok hlist
      obtain rfl : p = d.target c.directory := (Disk.locate_eq_ok_iff.1 hp).2.2
      refine ⟨((d.children (d.target c.directory)).filter (isDocumentName origin)).filter
        fun name => d.isFile (Path.join c.directory name), ?_, ?_, fun name => ?_⟩
      · rw [List.filter_map]
        rfl
      · exact ((d.children_sorted _).filter _).filter _
      · have hopens : d.Opens c.directory := (Disk.opens_iff hc).2 ⟨_, hp, hnode⟩
        simp only [List.mem_filter, getElem?_files hc hd, ← listed_and_read hd hopens,
          Disk.isFile_eq_true_iff]
        constructor
        · rintro ⟨⟨hlisted, hdocument⟩, bytes, hread⟩
          exact ⟨hdocument, bytes, hopens, hlisted, hread⟩
        · rintro ⟨hdocument, bytes, -, hlisted, hread⟩
          exact ⟨⟨hlisted, hdocument⟩, bytes, hread⟩

theorem files_of_list_eq_error {c : Cache} {d : Disk} {e : DiskFault}
    (h : d.list c.directory = .error e) : c.files d = ∅ := by
  unfold files
  rw [h]
  rfl

theorem load_of_unusable {c : Cache} {d : Disk} (h : d.list c.directory = .error .unusable) :
    c.load d = .error (.cache c.directory none) := by
  unfold load loadOrigin documentPaths
  rw [h]
  rfl

/-- Loading gives the entries of the documents in the directory. -/
theorem load_eq {c : Cache} {d : Disk} (h : d.list c.directory ≠ .error .unusable) :
    c.load d
      = .ok ⟨CacheOrigin.client.entries (c.files d), CacheOrigin.server.entries (c.files d)⟩ := by
  unfold load
  rw [loadOrigin_eq h, loadOrigin_eq h]
  rfl

theorem load_of_notFound {c : Cache} {d : Disk} (h : d.list c.directory = .error .notFound) :
    c.load d = .ok ⟨[], []⟩ := by
  rw [load_eq (by simp [h]), files_of_list_eq_error h]
  rfl

end Cache

end BundleCoverage
