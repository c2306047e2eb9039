import BundleCoverage.Options.Read
import BundleCoverage.Proofs.Documents

/-!
# Options with some of their fields

The printed options are an object with a member for each field, and the cache directory is left out
if it is not set (`Options.members`).  If only some of the members are kept, the fields of the others
have their defaults (`Options.keeping`).

A text of such an object is read as these options, in every spelling of the object
(`Options.ofJson?_of_spells`).  So the printed options are read back as they were.
-/

namespace BundleCoverage

open Json

namespace Json

/-- An object with only the members whose keys are kept. -/
def restrict (keep : String → Bool) : Json → Json
  | .obj members => .obj (members.filter (keep ·.1))
  | value => value

/-- A member whose key may not be kept. -/
def keepMember (keep : String → Bool) (member : Option Member) : Option Member :=
  member.filter (keep ·.1)

@[simp] theorem keepMember_none (keep : String → Bool) : keepMember keep none = none := rfl

theorem keepMember_some (keep : String → Bool) (m : Member) :
    keepMember keep (some m) = if keep m.1 then some m else none := Option.filter_some

theorem filter_reduceOption (keep : String → Bool) (members : List (Option Member)) :
    members.reduceOption.filter (keep ·.1) = (members.map (keepMember keep)).reduceOption := by
  induction members with
  | nil => rfl
  | cons member members ih =>
      cases member with
      | none => exact ih
      | some m =>
          rw [List.reduceOption_cons_of_some, List.filter_cons, ih, List.map_cons, keepMember_some]
          by_cases hkeep : keep m.1
          · rw [if_pos hkeep, if_pos hkeep, List.reduceOption_cons_of_some]
          · rw [if_neg hkeep, if_neg hkeep, List.reduceOption_cons_of_none]

theorem forall₂_keepMember {fields : List Names} {members : List (Option Member)}
    (h : List.Forall₂ (fun names member => ∀ m ∈ member, Prod.fst m ∈ names) fields members)
    (keep : String → Bool) :
    List.Forall₂ (fun names member => ∀ m ∈ member, Prod.fst m ∈ names) fields
      (members.map (keepMember keep)) :=
  List.forall₂_map_right_iff.2 (h.imp fun _ _ hkey m hm => hkey m (Option.filter_eq_some_iff.1 hm).1)

/-- A field has the value of its member if this is kept, and else its default. -/
theorem orElse_keepMember {α : Type} {read : Reader α} {value : Json} {a : α}
    (h : read value = some a) (default : α) (keep : String → Bool) (key : String) :
    orElse default read ((keepMember keep (some (key, value))).map (·.2))
      = some (if keep key then a else default) := by
  rw [keepMember_some]
  by_cases hkeep : keep key
  · rw [if_pos hkeep, if_pos hkeep]
    exact h
  · rw [if_neg hkeep, if_neg hkeep]
    rfl

theorem toList?_texts (texts : List String) :
    toList? toText? (.list Json.str texts) = some texts :=
  toList?_list (f := Json.str) (fun _ => rfl) texts

end Json

/-! ## Filters -/

theorem ClientFilter.ofJson?_toJson (f : ClientFilter) : ClientFilter.ofJson? f.toJson = some f := by
  have hrecord : record? [["includePatterns"], ["excludePattern"]] f.toJson
      = some [some (.list .str f.includePatterns), some (.str f.excludePattern)] := by
    simp [toJson, record?, fill]
  rw [ofJson?, hrecord, Option.bind_eq_bind, Option.bind_some]
  simp only [Json.orElse, toList?_texts]
  rfl

theorem ServerFilter.ofJson?_toJson (f : ServerFilter) : ServerFilter.ofJson? f.toJson = some f := by
  have hrecord : record? [["subdirectories"], ["excludePatterns"]] f.toJson
      = some [some (.list .str f.subdirectories), some (.list .str f.excludePatterns)] := by
    simp [toJson, record?, fill]
  rw [ofJson?, hrecord, Option.bind_eq_bind, Option.bind_some]
  simp only [Json.orElse, toList?_texts]
  rfl

theorem ClientFilter.plain_toJson (f : ClientFilter) : Plain f.toJson := by
  refine .obj fun m hm => ?_
  simp only [List.mem_cons, List.not_mem_nil, or_false] at hm
  rcases hm with rfl | rfl
  · exact .list .str _
  · exact .str _

theorem ServerFilter.plain_toJson (f : ServerFilter) : Plain f.toJson := by
  refine .obj fun m hm => ?_
  simp only [List.mem_cons, List.not_mem_nil, or_false] at hm
  rcases hm with rfl | rfl
  · exact .list .str _
  · exact .list .str _

/-! ## Options -/

namespace Options

/-- The members of the document of some options, one for each field.  The cache directory has none
if it is not set. -/
def members (o : Options) : List (Option Member) :=
  [some ("cdpPort", .nat o.inspectorPort.toNat), some ("buildDir", .str o.buildDirectory),
    some ("outputDir", .str o.outputDirectory),
    o.cacheDirectory?.map fun directory => ("cacheDir", .str directory),
    some ("sourceRoot", .str o.sourceRoot), some ("projectRoot", .str o.projectRoot),
    some ("include", .list .str o.includePatterns), some ("exclude", .list .str o.excludePatterns),
    some ("reporters", .list .str o.reporters), some ("all", .bool o.seedAll),
    some ("client", o.client.toJson), some ("server", o.server.toJson)]

/-- Options that have the fields of others whose keys are kept, and defaults in the other fields. -/
def keeping (o : Options) (keep : String → Bool) : Options :=
  let default : Options := {}
  { inspectorPort := if keep "cdpPort" then o.inspectorPort else default.inspectorPort
    buildDirectory := if keep "buildDir" then o.buildDirectory else default.buildDirectory
    outputDirectory := if keep "outputDir" then o.outputDirectory else default.outputDirectory
    cacheDirectory? := if keep "cacheDir" then o.cacheDirectory? else default.cacheDirectory?
    sourceRoot := if keep "sourceRoot" then o.sourceRoot else default.sourceRoot
    projectRoot := if keep "projectRoot" then o.projectRoot else default.projectRoot
    includePatterns := if keep "include" then o.includePatterns else default.includePatterns
    excludePatterns := if keep "exclude" then o.excludePatterns else default.excludePatterns
    reporters := if keep "reporters" then o.reporters else default.reporters
    seedAll := if keep "all" then o.seedAll else default.seedAll
    client := if keep "client" then o.client else default.client
    server := if keep "server" then o.server else default.server }

theorem toJson_eq (o : Options) : o.toJson = .obj o.members.reduceOption := by
  rw [toJson, members]
  cases o.cacheDirectory? <;> rfl

theorem plain_of_mem_members {o : Options} {m : Member} (h : some m ∈ o.members) : Plain m.2 := by
  simp only [members, List.mem_cons, List.not_mem_nil, or_false, Option.some.injEq,
    Option.map_eq_some_iff, eq_comm (a := some m)] at h
  rcases h with rfl | rfl | rfl | ⟨directory, -, rfl⟩ | rfl | rfl | rfl | rfl | rfl | rfl | rfl | rfl
  · exact .nat _
  · exact .str _
  · exact .str _
  · exact .str _
  · exact .str _
  · exact .str _
  · exact .list .str _
  · exact .list .str _
  · exact .list .str _
  · exact .bool _
  · exact ClientFilter.plain_toJson _
  · exact ServerFilter.plain_toJson _

theorem plain_restrict (o : Options) (keep : String → Bool) : Plain (o.toJson.restrict keep) := by
  rw [toJson_eq]
  exact .obj fun m hm =>
    plain_of_mem_members (List.reduceOption_mem_iff.1 (List.mem_of_mem_filter hm))

theorem disjoint_fields : fields.Pairwise List.Disjoint := by
  simp [fields, List.Disjoint]

theorem forall₂_members (o : Options) :
    List.Forall₂ (fun names member => ∀ m ∈ member, Prod.fst m ∈ names) fields o.members := by
  have hcache : ∀ m ∈ o.cacheDirectory?.map fun d => ("cacheDir", Json.str d),
      Prod.fst m ∈ ["cacheDir"] := by
    cases o.cacheDirectory? <;> simp
  exact .cons (by simp) (.cons (by simp) (.cons (by simp) (.cons hcache (.cons (by simp)
    (.cons (by simp) (.cons (by simp) (.cons (by simp) (.cons (by simp) (.cons (by simp)
      (.cons (by simp) (.cons (by simp) .nil)))))))))))

/-- The reader of a port. -/
def toPort? (value : Json) : Option UInt16 := (toNatBelow? 65536 value).map UInt16.ofNat

theorem toPort?_nat (port : UInt16) : toPort? (.nat port.toNat) = some port := by
  have hport : (0 : Int) ≤ port.toNat ∧ (port.toNat : Int) < (65536 : Nat) := by
    have := port.toNat_lt
    omega
  rw [toPort?, toNatBelow?.eq_def, Json.nat]
  dsimp only
  rw [if_pos hport, Option.map_some, Int.toNat_natCast, UInt16.ofNat_toNat]

theorem toText?_str (text : String) : toText? (.str text) = some text := rfl

theorem toBool?_bool (b : Bool) : toBool? (.bool b) = some b := rfl

theorem toOption?_str (text : String) : toOption? toText? (.str text) = some (some text) := rfl

/-- Every spelling of the kept members is read as the options that keep them. -/
theorem ofJson?_of_spells {o : Options} {keep : String → Bool} {value : Json}
    (h : value.Spells fields (o.members.map (keepMember keep))) :
    Options.ofJson? value = some (o.keeping keep) := by
  have hrecord := record?_of_spells disjoint_fields (forall₂_keepMember o.forall₂_members keep) h
  have hport : orElse 9230 (fun v => (toNatBelow? 65536 v).map UInt16.ofNat)
      ((keepMember keep (some ("cdpPort", .nat o.inspectorPort.toNat))).map (·.2))
        = some (if keep "cdpPort" then o.inspectorPort else 9230) :=
    orElse_keepMember (toPort?_nat _) ..
  have hcache : orElse none (toOption? toText?) ((keepMember keep
      (o.cacheDirectory?.map fun directory => ("cacheDir", Json.str directory))).map (·.2))
        = some (if keep "cacheDir" then o.cacheDirectory? else none) := by
    cases o.cacheDirectory? with
    | none => simp [Json.orElse]
    | some directory => exact orElse_keepMember (toOption?_str _) ..
  rw [Options.ofJson?, hrecord, Option.bind_eq_bind, Option.bind_some]
  simp only [members, List.map_cons, List.map_nil]
  simp only [hport, hcache, orElse_keepMember (toText?_str _), orElse_keepMember (toBool?_bool _),
    orElse_keepMember (toList?_texts _), orElse_keepMember (ClientFilter.ofJson?_toJson _),
    orElse_keepMember (ServerFilter.ofJson?_toJson _)]
  rfl

theorem ofJson?_restrict (o : Options) (keep : String → Bool) :
    Options.ofJson? (o.toJson.restrict keep) = some (o.keeping keep) := by
  rw [toJson_eq, Json.restrict, filter_reduceOption]
  exact ofJson?_of_spells (spells_obj ..)

/-- Printed options of which some members are kept are read as the options that keep them, and
printed options as themselves. -/
theorem ofJsonText_pretty_restrict (o : Options) (keep : String → Bool) :
    ofJsonText (o.toJson.restrict keep).pretty = .ok (o.keeping keep) ∧
      ofJsonText o.render = .ok o := by
  have hread (keep : String → Bool) :
      ofJsonText (o.toJson.restrict keep).pretty = .ok (o.keeping keep) := by
    rw [ofJsonText, (o.plain_restrict keep).parse?_pretty, Option.bind_some, ofJson?_restrict]
  have hall : o.toJson.restrict (fun _ => true) = o.toJson := by
    rw [toJson_eq, Json.restrict, List.filter_true]
  refine ⟨hread keep, ?_⟩
  rw [render, ← hall, hread]
  rfl

end Options

end BundleCoverage
