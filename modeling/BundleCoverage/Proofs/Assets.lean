import BundleCoverage.Proofs.Escapes
import BundleCoverage.Proofs.Inside
import BundleCoverage.Url.Locate

/-!
# Assets in the build directory

The path of an asset is read in two steps.  While the URL is read, segments that lead up are
resolved, escaped points included, so that none is left (`staysDown_of_mem_append`).  Then each
segment is decoded, and what was an escaped slash is a slash again.  A name with such a slash may
start at the root or lead up in the middle, so that the file of the asset lies outside the build
directory (`outside_of_escaped_slash`).  Nothing else leads out (`inside_iff_descends`), and out of
a relative directory every such name does (`inside_iff_of_relative`).
-/

namespace BundleCoverage

open Text

namespace Url

/-! ## Dot segments -/

/-- A segment that is decoded to a point first has a point first, plain or escaped. -/
theorem exists_of_unescape {segment : List Char} {bytes : List UInt8}
    (h : unescape segment = 46 :: bytes) :
    ∃ rest, plainDots segment = '.' :: plainDots rest ∧ unescape rest = bytes := by
  cases segment with
  | nil => cases h
  | cons c text =>
      rcases unescape_cons_cases c text with ⟨a, b, rest, x, y, rfl, rfl, ha, hb, heq⟩ | heq
      · rw [heq] at h
        injection h with hpoint hbytes
        obtain ⟨rfl, rfl | rfl⟩ := digits_of_point ha hb hpoint
        · exact ⟨rest, rfl, hbytes⟩
        · exact ⟨rest, rfl, hbytes⟩
      · rw [heq] at h
        cases hbytes : bytesOf c with
        | nil => exact absurd hbytes (bytesOf_ne_nil c)
        | cons b bytes =>
            rw [hbytes] at h
            cases h
            obtain ⟨hc, rfl⟩ := eq_of_bytesOf hbytes (by decide)
            have hpoint : c = '.' := Char.toNat_inj.1 hc
            subst hpoint
            exact ⟨text, rfl, rfl⟩

theorem plainDots_of_unescape_nil {segment : List Char} (h : unescape segment = []) :
    plainDots segment = [] := by
  cases segment with
  | nil => rfl
  | cons c text => exact absurd h (unescape_ne_nil c text)

theorem isDoubleDot_of_unescape {segment : List Char} (h : unescape segment = [46, 46]) :
    isDoubleDot segment = true := by
  obtain ⟨rest, hplain, hrest⟩ := exists_of_unescape h
  obtain ⟨rest', hplain', hrest'⟩ := exists_of_unescape hrest
  rw [isDoubleDot, hplain, hplain', plainDots_of_unescape_nil hrest']
  rfl

/-- Whether a segment is decoded to something other than the directory above. -/
def StaysDown (segment : List Char) : Prop := unescape segment ≠ [46, 46]

theorem staysDown_nil : StaysDown [] := fun h => nomatch h

theorem staysDown_escape {segment : List Char} (h : ¬isDoubleDot segment) :
    StaysDown (escape needsPathEscape segment) := by
  rw [StaysDown, unescape_escape keepsEscapes_needsPathEscape]
  exact fun hup => h (isDoubleDot_of_unescape hup)

theorem mem_of_mem_parent {path : List (List Char)} {segment : List Char}
    (h : segment ∈ parent path) : segment ∈ path := by
  unfold parent at h
  split at h
  · exact h
  · exact List.dropLast_subset path h

theorem forall_staysDown_concat {path : List (List Char)} {segment : List Char}
    (hpath : ∀ s ∈ path, StaysDown s) (hsegment : StaysDown segment) :
    ∀ s ∈ path ++ [segment], StaysDown s := by
  intro s hs
  rcases List.mem_append.1 hs with hs | hs
  · exact hpath s hs
  · exact List.mem_singleton.1 hs ▸ hsegment

/-- Two points lead up while a path is read, whether they are escaped or not, so no segment is left
that leads up. -/
theorem staysDown_of_mem_append {path pieces : List (List Char)} (h : ∀ s ∈ path, StaysDown s) :
    ∀ s ∈ append false path pieces, StaysDown s := by
  have hparent : ∀ path : List (List Char), (∀ s ∈ path, StaysDown s) →
      ∀ s ∈ parent path, StaysDown s := fun path h s hs => h s (mem_of_mem_parent hs)
  fun_induction append false path pieces with
  | case1 path => exact h
  | case2 path segment hdouble => exact forall_staysDown_concat (hparent path h) staysDown_nil
  | case3 path segment hdouble hdot => exact forall_staysDown_concat h staysDown_nil
  | case4 path segment hdouble hdot =>
      exact forall_staysDown_concat h (staysDown_escape hdouble)
  | case5 path segment rest hrest hdouble ih => exact ih (hparent path h)
  | case6 path segment rest hrest hdouble hdot ih => exact ih h
  | case7 path segment rest hrest hdouble hdot ih =>
      exact ih (forall_staysDown_concat h (staysDown_escape hdouble))

theorem staysDown_of_mem_rootedPath {input segment : List Char}
    (h : segment ∈ rootedPath false input) : StaysDown segment := by
  refine staysDown_of_mem_append ?_ segment h
  intro s hs
  cases hs

/-! ## URLs of assets -/

/-- Whether the path of a URL was read from its root in a scheme that is not that of files. -/
def IsRooted (url : Url) : Prop := ∃ input, url.segments = some (rootedPath false input)

theorem rooted_of_ofAuthority {scheme : String} {input : List Char} {url : Url}
    (h : ofAuthority scheme input = .ok url) : IsRooted url := by
  unfold ofAuthority at h
  obtain ⟨host, -, h⟩ := bind_eq_ok_iff.1 h
  cases h
  exact ⟨_, rfl⟩

theorem scheme_of_ofFileAuthority {input : List Char} {url : Url}
    (h : ofFileAuthority input = .ok url) : url.scheme = "file" := by
  unfold ofFileAuthority at h
  dsimp only at h
  split at h
  · cases h
    rfl
  · obtain ⟨host, -, h⟩ := bind_eq_ok_iff.1 h
    cases h
    rfl

theorem scheme_of_ofFile {base : Option Url} {input : List Char} {url : Url}
    (h : ofFile base input = .ok url) : url.scheme = "file" := by
  unfold ofFile at h
  dsimp only at h
  split at h
  · cases h
    rfl
  · split at h
    · split at h
      · exact scheme_of_ofFileAuthority h
      · cases h
        rfl
    · split at h
      · cases h
        rfl
      · split at h
        · cases h
          rfl
        · cases h
          rfl

theorem rooted_of_ofScheme {scheme : String} {input : List Char} {url : Url}
    (h : ofScheme none scheme input = .ok url) (hspecial : isSpecial url.scheme = true) :
    IsRooted url := by
  unfold ofScheme at h
  split at h
  · rw [scheme_of_ofFile h] at hspecial
    cases hspecial
  · split at h
    · exact rooted_of_ofAuthority h
    · next hother =>
      split at h
      · exact rooted_of_ofAuthority h
      · cases h
        exact absurd hspecial hother
      · cases h
        exact absurd hspecial hother

theorem rooted_of_parse {text : String} {url : Url} (h : parse text = .ok url)
    (hspecial : isSpecial url.scheme = true) : IsRooted url := by
  unfold parse resolve at h
  dsimp only at h
  split at h
  · exact rooted_of_ofScheme h hspecial
  · cases h
  · next hbase => cases hbase

theorem exists_clean (text : List Char) : ∃ rest, clean ('/' :: text) = '/' :: rest := by
  rw [clean, trimStart, List.dropWhile_cons_of_neg (by decide), trimEnd_cons (by decide),
    List.filter_cons_of_pos (by decide)]
  exact ⟨_, rfl⟩

theorem splitScheme?_slash (text : List Char) : splitScheme? ('/' :: text) = none := by
  unfold splitScheme? splitOnce
  split
  · next scheme rest heq =>
    split at heq
    · cases heq
    · cases heq
      rfl
  · rfl

theorem rooted_of_join {text : String} {url : Url} (hslash : text.toList.head? = some '/')
    (h : join assetBase text = .ok url) : IsRooted url := by
  obtain ⟨rest, htext⟩ := List.head?_eq_some_iff.1 hslash
  obtain ⟨rest', hclean⟩ := exists_clean rest
  unfold join resolve at h
  dsimp only at h
  rw [htext, hclean, splitScheme?_slash] at h
  change relativeTo assetBase ('/' :: rest') = .ok url at h
  unfold relativeTo at h
  dsimp only at h
  rw [if_pos (by decide)] at h
  split at h
  · exact rooted_of_ofAuthority h
  · cases h
    exact ⟨_, rfl⟩

/-! ## Names below the build directory -/

/-- The decoded segments of the path of an asset, without the first. -/
def decodedNames? (url : Url) : Option (List String) :=
  match url.segments with
  | some (first :: rest) =>
    if first = assetDirectory then rest.mapM fun s => Utf8.strict? (unescape s) else none
  | _ => none

theorem foldlM_join (segments : List (List Char)) (directory : String) :
    segments.foldlM (fun path s => (Utf8.strict? (unescape s)).map (Path.join path)) directory
      = (segments.mapM fun s => Utf8.strict? (unescape s)).map (·.foldl Path.join directory) := by
  induction segments generalizing directory with
  | nil => rfl
  | cons s segments ih =>
      rw [List.foldlM_cons, List.mapM_cons]
      cases Utf8.strict? (unescape s) with
      | none => rfl
      | some name =>
          show segments.foldlM _ (Path.join directory name) = _
          rw [ih]
          cases segments.mapM fun s => Utf8.strict? (unescape s) <;> rfl

theorem assetPath?_eq (url : Url) (directory : String) :
    url.assetPath? directory = url.decodedNames?.map (·.foldl Path.join directory) := by
  unfold assetPath? decodedNames?
  cases url.segments with
  | none => rfl
  | some segments =>
      cases segments with
      | nil => rfl
      | cons first rest =>
          by_cases hfirst : first = assetDirectory
          · simp only [if_pos hfirst]
            exact foldlM_join rest directory
          · simp only [if_neg hfirst]
            rfl

/-- Only an escaped slash can make a name that does not descend. -/
theorem descends_of_decodedNames? {url : Url} (hrooted : url.IsRooted) {names : List String}
    (h : url.decodedNames? = some names) :
    ∀ name ∈ names, '/' ∉ name.toList → Path.Descends name := by
  obtain ⟨input, hsegments⟩ := hrooted
  unfold decodedNames? at h
  rw [hsegments] at h
  split at h
  · next first rest heq =>
    have hdown : ∀ s ∈ rest, StaysDown s := by
      intro s hs
      have hmem : s ∈ rootedPath false input := by
        rw [Option.some.inj heq]
        exact List.mem_cons_of_mem first hs
      exact staysDown_of_mem_rootedPath hmem
    split at h
    · refine forall_of_forall₂ (mapM_eq_some_iff.1 h) (fun s name hs hdown hslash => ?_) hdown
      refine Path.descends_of_notMem hslash fun hup => hdown ?_
      rw [Utf8.bytes_of_strict? hs (by simp [hup]), hup]
      rfl
    · cases h
  · cases h

end Url

/-! ## Assets inside the build directory -/

/-- Whether a script is an asset of the bundle: a bare path below `/_next/` or a web URL. -/
def IsAsset (url : String) : Prop :=
  startsWith url.toList "/_next/".toList = true ∨
    ∃ u, Url.parse url = .ok u ∧ (u.scheme = "http" ∨ u.scheme = "https")

/-- The URL of an asset. -/
def assetUrl (url : String) : Except Url.Fault Url :=
  if startsWith url.toList "/_next/".toList then Url.join assetBase url else Url.parse url

/-- The names that an asset is joined from below the build directory. -/
def assetNames? (url : String) : Option (List String) :=
  match assetUrl url with
  | .ok u => u.decodedNames?
  | .error _ => none

theorem locateScript_eq {url : String} (h : IsAsset url) (buildDirectory : String) :
    locateScript url buildDirectory
      = (assetNames? url).map fun names => ⟨names.foldl Path.join buildDirectory, true⟩ := by
  unfold locateScript assetNames? assetUrl
  by_cases hbare : startsWith url.toList "/_next/".toList
  · simp only [if_pos hbare]
    cases Url.join assetBase url with
    | error fault => rfl
    | ok u =>
        show (u.assetPath? buildDirectory).map _ = _
        rw [Url.assetPath?_eq, Option.map_map]
        rfl
  · obtain ⟨u, hu, hscheme⟩ := h.resolve_left hbare
    simp only [if_neg hbare, hu]
    rw [if_pos (by simpa using hscheme), Url.assetPath?_eq, Option.map_map]
    rfl

theorem rooted_of_assetUrl {url : String} (h : IsAsset url) {u : Url} (hu : assetUrl url = .ok u) :
    u.IsRooted := by
  unfold assetUrl at hu
  by_cases hbare : startsWith url.toList "/_next/".toList
  · rw [if_pos hbare] at hu
    obtain ⟨rest, hrest⟩ := Option.isSome_iff_exists.1 hbare
    rw [stripPrefix?_eq_some_iff] at hrest
    exact Url.rooted_of_join (by rw [hrest]; rfl) hu
  · rw [if_neg hbare] at hu
    obtain ⟨v, hv, hscheme⟩ := h.resolve_left hbare
    obtain rfl : v = u := Except.ok.inj (hv.symm.trans hu)
    refine Url.rooted_of_parse hu ?_
    rcases hscheme with hscheme | hscheme
    · rw [hscheme]
      rfl
    · rw [hscheme]
      rfl

/-- Of the names in the URL of an asset only those with an escaped slash can fail to descend. -/
theorem forall_descends_iff {url : String} (h : IsAsset url) {names : List String}
    (hnames : assetNames? url = some names) :
    (∀ name ∈ names, Path.Descends name) ↔
      ∀ name ∈ names, '/' ∈ name.toList → Path.Descends name := by
  constructor
  · intro hdescends name hname _
    exact hdescends name hname
  · intro hdescends name hname
    unfold assetNames? at hnames
    split at hnames
    · next u hu =>
      by_cases hslash : '/' ∈ name.toList
      · exact hdescends name hname hslash
      · exact Url.descends_of_decodedNames? (rooted_of_assetUrl h hu) hnames name hname hslash
    · cases hnames

theorem inside_iff_of_relative {url buildDirectory : String} (h : IsAsset url)
    (hrelative : Path.isAbsolute buildDirectory = false) {names : List String}
    (hnames : assetNames? url = some names) :
    Path.Inside buildDirectory (names.foldl Path.join buildDirectory) ↔
      ∀ name ∈ names, '/' ∈ name.toList → Path.Descends name :=
  (Path.inside_foldl_join_iff hrelative).trans (forall_descends_iff h hnames)

/-- The file of an asset lies inside the build directory, whichever that is, if and only if every
name in its URL that holds an escaped slash descends. -/
theorem inside_iff_descends {url : String} (h : IsAsset url) :
    (∀ buildDirectory path, locateScript url buildDirectory = some path →
      Path.Inside buildDirectory path.text) ↔
    ∀ names, assetNames? url = some names →
      ∀ name ∈ names, '/' ∈ name.toList → Path.Descends name := by
  constructor
  · intro hinside names hnames
    -- one relative directory decides for all
    have hpath := hinside "." _ (by rw [locateScript_eq h, hnames]; rfl)
    exact (inside_iff_of_relative h (by decide) hnames).1 hpath
  · intro hdescends buildDirectory path hpath
    rw [locateScript_eq h] at hpath
    obtain ⟨names, hnames, rfl⟩ := Option.map_eq_some_iff.1 hpath
    have hnamesDescend := (forall_descends_iff h hnames).2 (hdescends names hnames)
    exact Path.inside_foldl_join hnamesDescend buildDirectory

theorem inside_of_escaped_points :
    IsAsset "/_next/static/%2E%2e/chunks%2Fa%20b.js" ∧
    locateScript "/_next/static/%2E%2e/chunks%2Fa%20b.js" ".next"
      = some ⟨".next/chunks/a b.js", true⟩ ∧
    Path.Inside ".next" ".next/chunks/a b.js" := by
  have hasset : IsAsset "/_next/static/%2E%2e/chunks%2Fa%20b.js" := .inl (by decide)
  have hpath : locateScript "/_next/static/%2E%2e/chunks%2Fa%20b.js" ".next"
      = some ⟨".next/chunks/a b.js", true⟩ := by decide +kernel
  refine ⟨hasset, hpath, (inside_iff_descends hasset).2 ?_ ".next" _ hpath⟩
  intro names hnames
  have hnames' : names = ["chunks/a b.js"] := by
    have : assetNames? "/_next/static/%2E%2e/chunks%2Fa%20b.js" = some ["chunks/a b.js"] := by
      decide +kernel
    exact Option.some.inj (hnames.symm.trans this)
  subst hnames'
  decide +kernel

/-- An escaped slash in front of a name leads out of the build directory. -/
theorem outside_of_escaped_slash :
    IsAsset "/_next/%2Fetc%2Fpasswd" ∧
    locateScript "/_next/%2Fetc%2Fpasswd" ".next" = some ⟨"/etc/passwd", true⟩ ∧
    ¬Path.Inside ".next" "/etc/passwd" := by
  refine ⟨.inl (by decide), by decide +kernel, ?_⟩
  rintro ⟨rest, hcomponents, hroot, -⟩
  have hmem : .root ∈ Path.components "/etc/passwd" :=
    Path.root_mem_components_iff.2 (by decide)
  rw [hcomponents] at hmem
  rcases List.mem_append.1 hmem with h | h
  · revert h
    decide +kernel
  · exact hroot h

end BundleCoverage
