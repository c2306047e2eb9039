import BundleCoverage.Proofs.Bytes
import BundleCoverage.Proofs.Inside
import BundleCoverage.Proofs.WriteCalls

/-!
# Keys of tests

A key is the number of a worker, the readable form of a test and the start of its hash, with dashes
between them.  The readable form may have dashes of its own, but the number has none and the start
of a hash always has the same length, so the parts can be read off a key
(`TestIdentity.keyOf_eq_iff`).  Hence workers never share a document, whatever their tests are
called and whatever the hash is.

A key has plain characters only, so that a document and its draft lie right in the directory of the
cache (`Cache.isChild_path`, `Cache.isChild_draftPath`).
-/

namespace BundleCoverage

open Text

/-- Texts with a separator that the first part lacks have the same parts. -/
theorem append_cons_inj_of_notMem {α : Type} {sep : α} {before before' after after' : List α}
    (h : sep ∉ before) (h' : sep ∉ before') :
    before ++ sep :: after = before' ++ sep :: after' ↔ before = before' ∧ after = after' := by
  constructor
  · intro heq
    rcases List.append_eq_append_iff.1 heq with ⟨rest, rfl, hrest⟩ | ⟨rest, rfl, hrest⟩
    · cases rest with
      | nil => simpa using hrest
      | cons c rest =>
          cases hrest
          simp at h'
    · cases rest with
      | nil => simpa [eq_comm] using hrest
      | cons c rest =>
          cases hrest
          simp at h
  · rintro ⟨rfl, rfl⟩
    rfl

/-- A plain character takes one byte. -/
theorem IsKeyChar.utf8Size {c : Char} (h : IsKeyChar c) : c.utf8Size = 1 := by
  have hbound : c.toNat ≤ 127 := by
    rcases h with h | rfl | rfl
    · have hranges := toNat_of_isAlphanum h
      omega
    · decide
    · decide
  exact Char.utf8Size_eq_one_iff.2 hbound

theorem length_encode_ofList {text : List Char} (h : ∀ c ∈ text, IsKeyChar c) :
    (Utf8.encode (String.ofList text)).length = text.length := by
  rw [Utf8.encode_eq, String.toList_ofList, List.length_flatMap]
  simp only [String.length_utf8EncodeChar]
  rw [List.map_congr_left fun c hc => (h c hc).utf8Size, List.map_const', List.sum_replicate_nat,
    Nat.mul_one]

namespace TestIdentity

/-! ## Readable forms -/

theorem length_readableFrom_le {kept : List Char} (h : kept.length ≤ maxReadable)
    (text : List Char) : (readableFrom kept text).length ≤ maxReadable := by
  induction text generalizing kept with
  | nil => exact h
  | cons c text ih =>
      rw [readableFrom]
      split
      · exact h
      · next hshort =>
        split
        · exact ih h
        · exact ih (by rw [List.length_cons]; omega)

/-- An underscore is not kept behind another one. -/
theorem not_infix_readableFrom {kept : List Char} (h : ¬['_', '_'] <:+: kept) (text : List Char) :
    ¬['_', '_'] <:+: readableFrom kept text := by
  induction text generalizing kept with
  | nil => exact h
  | cons c text ih =>
      rw [readableFrom]
      split
      · exact h
      · split
        · exact ih h
        · next hnew =>
          refine ih fun hinfix => ?_
          rcases List.infix_cons_iff.1 hinfix with hstart | hinfix
          · obtain ⟨hc, hkept⟩ := List.cons_prefix_cons.1 hstart
            obtain ⟨rest, rfl⟩ := hkept
            simp [← hc] at hnew
          · exact h hinfix

theorem length_readable_le (text : List Char) : (readable text).length ≤ maxReadable := by
  rw [readable, List.length_reverse]
  exact length_readableFrom_le (Nat.zero_le _) text

theorem not_infix_readable (text : List Char) : ¬['_', '_'] <:+: readable text := by
  have hfrom : ¬['_', '_'] <:+: readableFrom [] text := not_infix_readableFrom (by simp) text
  rwa [readable, ← List.reverse_infix, List.reverse_reverse]

theorem isKeyChar_of_mem_readable {text : List Char} : ∀ c ∈ readable text, IsKeyChar c :=
  fun c hc => isKeyChar_of_mem_readableFrom (List.forall_mem_nil _) c (List.mem_reverse.1 hc)

/-! ## Starts of hashes -/

theorem length_hexText (bytes : List UInt8) : (hexText bytes).length = 2 * bytes.length := by
  induction bytes with
  | nil => rfl
  | cons b bytes ih =>
      have hcons : hexText (b :: bytes)
          = Nat.digitChar (b.toNat / 16) :: Nat.digitChar (b.toNat % 16) :: hexText bytes := rfl
      rw [hcons, List.length_cons, List.length_cons, ih, List.length_cons]
      omega

theorem eq_of_hexDigit_eq {a b : Nat} (ha : a < 16) (hb : b < 16)
    (h : Nat.digitChar a = Nat.digitChar b) : a = b := by
  have hall : ∀ a < 16, ∀ b < 16, Nat.digitChar a = Nat.digitChar b → a = b := by decide
  exact hall a ha b hb h

theorem hexText_injective : Function.Injective hexText := by
  intro bytes bytes' h
  induction bytes generalizing bytes' with
  | nil =>
      cases bytes' with
      | nil => rfl
      | cons b' bytes' => simp [hexText] at h
  | cons b bytes ih =>
      cases bytes' with
      | nil => simp [hexText] at h
      | cons b' bytes' =>
          have hb := b.toNat_lt
          have hb' := b'.toNat_lt
          obtain ⟨hhigh, h⟩ := List.cons_eq_cons.1 h
          obtain ⟨hlow, h⟩ := List.cons_eq_cons.1 h
          have hhigh := eq_of_hexDigit_eq (by omega) (by omega) hhigh
          have hlow := eq_of_hexDigit_eq (by omega) (by omega) hlow
          have hbyte : b = b' := UInt8.toNat_inj.1 (by omega)
          rw [hbyte, ih h]

theorem length_fingerprint (test : String) : (fingerprint test).length = 4 := by
  simp [fingerprint, Sha256.hash, Sha256.bytesOf]

/-! ## Keys -/

theorem dash_notMem_toDigits (n : Nat) : '-' ∉ Nat.toDigits 10 n := by
  intro h
  have hdigit := Nat.isDigit_of_mem_toDigits (by decide) (by decide) h
  exact absurd hdigit (by decide)

/-- The parts of a key can be told apart. -/
theorem keyOf_eq_iff {worker worker' : UInt32} {test test' : String} {start start' : List UInt8}
    (hlength : start.length = start'.length) :
    keyOf worker test start = keyOf worker' test' start' ↔
      worker = worker' ∧ readable test.toList = readable test'.toList ∧ start = start' := by
  constructor
  · intro h
    -- the start of the hash is cut off from behind, the number of the worker from the front
    have hhash : ('-' :: hexText start).length = ('-' :: hexText start').length := by
      rw [List.length_cons, List.length_cons, length_hexText, length_hexText, hlength]
    obtain ⟨hfront, hback⟩ := List.append_inj' (String.ofList_injective h) hhash
    obtain ⟨hworker, htest⟩ :=
      (append_cons_inj_of_notMem (dash_notMem_toDigits _) (dash_notMem_toDigits _)).1 hfront
    exact ⟨UInt32.toNat_inj.1 (toDigits_inj.1 hworker), htest,
      hexText_injective (List.cons_eq_cons.1 hback).2⟩
  · rintro ⟨rfl, htest, rfl⟩
    rw [keyOf, htest, keyOf]

/-- The key of an identity when the starts of the hashes are given. -/
def keyBy (start : String → List UInt8) (i : TestIdentity) : String :=
  keyOf i.worker i.test (start i.test)

theorem key_eq (i : TestIdentity) : i.key = i.keyBy fingerprint := rfl

theorem keyBy_eq_iff {start : String → List UInt8} {n : Nat}
    (hstart : ∀ test, (start test).length = n) {i j : TestIdentity} :
    i.keyBy start = j.keyBy start ↔
      i.worker = j.worker ∧ readable i.test.toList = readable j.test.toList ∧
        start i.test = start j.test :=
  keyOf_eq_iff ((hstart i.test).trans (hstart j.test).symm)

theorem isKeyChar_of_mem_keyBy (start : String → List UInt8) (i : TestIdentity) :
    ∀ c ∈ (i.keyBy start).toList, IsKeyChar c :=
  isKeyChar_of_mem_keyOf i.worker i.test (start i.test)

end TestIdentity

/-! ## Files right in a directory -/

namespace Path

/-- Whether a path is that of a file of a given name right in a directory. -/
def IsChild (directory name path : String) : Prop :=
  IsName name ∧ components path = components directory ++ [.name name]

theorem IsName.steps {name : String} (h : IsName name) : steps name.toList = [.name name] := by
  have hempty : name.toList ≠ [] := fun heq => h.notEmpty (String.toList_eq_nil_iff.1 heq)
  have hcurrent : name.toList ≠ ['.'] := fun heq => h.notCurrent (String.toList_inj.1 heq)
  have hparent : name.toList ≠ ['.', '.'] := fun heq => h.notParent (String.toList_inj.1 heq)
  simp [Path.steps, split_of_notMem h.slash, hempty, hcurrent, Component.ofPiece, hparent]

theorem IsName.components {name : String} (h : IsName name) : components name = [.name name] := by
  have hcurrent : name.toList ≠ ['.'] := fun heq => h.notCurrent (String.toList_inj.1 heq)
  rw [components_eq, h.steps, start, h.isAbsolute, split_of_notMem h.slash]
  simp [hcurrent]

theorem IsName.isChild_join {name : String} (h : IsName name) (directory : String) :
    IsChild directory name (join directory name) := by
  refine ⟨h, ?_⟩
  by_cases hdirectory : directory = ""
  · subst hdirectory
    have hjoin : join "" name = name := by simp [join]
    rw [hjoin, h.components]
    rfl
  · rw [components_join hdirectory h.isAbsolute, h.steps]

/-- A file has one name. -/
theorem IsChild.name_inj {directory name name' path : String} (h : IsChild directory name path)
    (h' : IsChild directory name' path) : name = name' := by
  have heq := h.2.symm.trans h'.2
  simpa using heq

end Path

/-! ## Documents of tests -/

namespace Cache

/-- The name of the document of a test with a key. -/
def clientName (key : String) : String := CacheOrigin.client.mark ++ key ++ documentEnding

/-- The name of that document while it is written. -/
def clientDraftName (key : String) : String := clientName key ++ ".tmp"

theorem clientName_inj {key key' : String} : clientName key = clientName key' ↔ key = key' := by
  rw [clientName, clientName, String.append_left_inj, String.append_right_inj]

theorem clientDraftName_inj {key key' : String} :
    clientDraftName key = clientDraftName key' ↔ key = key' := by
  rw [clientDraftName, clientDraftName, String.append_left_inj, clientName_inj]

/-- A draft has another ending than a document. -/
theorem clientDraftName_ne (key key' : String) : clientDraftName key ≠ clientName key' := by
  intro h
  have hlast := congrArg (·.toList.getLast?) h
  simp [clientDraftName, clientName, documentEnding] at hlast

section Plain

variable {key : String}

theorem isName_client (h : ∀ c ∈ key.toList, IsKeyChar c) {ending : String}
    (hending : ∀ c ∈ ending.toList, c ≠ '/' ∧ c ≠ '\x00') :
    Path.IsName (CacheOrigin.client.mark ++ key ++ ending) := by
  have hname : (CacheOrigin.client.mark ++ key ++ ending).toList
      = CacheOrigin.client.mark.toList ++ (key.toList ++ ending.toList) := by simp
  exact WriteCall.isName_of_toList_eq hname
    (List.forall_mem_append.2 ⟨fun c hc => (h c hc).ne, hending⟩)

theorem isChild_path (c : Cache) (h : ∀ c ∈ key.toList, IsKeyChar c) :
    Path.IsChild c.directory (clientName key) (c.path (CacheOrigin.client.mark ++ key)) :=
  (isName_client h (by simp [documentEnding])).isChild_join c.directory

theorem isChild_draftPath (c : Cache) (h : ∀ c ∈ key.toList, IsKeyChar c) :
    Path.IsChild c.directory (clientDraftName key)
      (c.draftPath (CacheOrigin.client.mark ++ key)) := by
  rw [draftPath_eq_join]
  have hending : ∀ c ∈ (documentEnding ++ ".tmp").toList, c ≠ '/' ∧ c ≠ '\x00' := by
    simp [documentEnding]
  have hname := isName_client h hending
  rw [← String.append_assoc] at hname
  exact hname.isChild_join c.directory

/-- Documents with one path have one key. -/
theorem eq_of_path_eq (c : Cache) {key' : String} (h : ∀ c ∈ key.toList, IsKeyChar c)
    (h' : ∀ c ∈ key'.toList, IsKeyChar c)
    (hpath : c.path (CacheOrigin.client.mark ++ key) = c.path (CacheOrigin.client.mark ++ key')) :
    key = key' := by
  have hchild := c.isChild_path h
  rw [hpath] at hchild
  exact clientName_inj.1 (hchild.name_inj (c.isChild_path h'))

end Plain

/-- A cache keeps the documents of tests apart when the starts of hashes are given.  What is said of
the first of two tests holds of any test. -/
structure KeepsApart (c : Cache) (start : String → List UInt8) (i j : TestIdentity) : Prop where
  /-- Keys have the same parts. -/
  key_iff : i.keyBy start = j.keyBy start ↔
    i.worker = j.worker ∧
      TestIdentity.readable i.test.toList = TestIdentity.readable j.test.toList ∧
      start i.test = start j.test
  /-- Keys have plain characters. -/
  isKeyChar : ∀ ch ∈ (i.keyBy start).toList, IsKeyChar ch
  /-- The readable form takes few bytes. -/
  length_readable :
    (Utf8.encode (String.ofList (TestIdentity.readable i.test.toList))).length ≤ 64
  /-- The readable form has no doubled underscore. -/
  not_infix_readable : ¬['_', '_'] <:+: TestIdentity.readable i.test.toList
  /-- A document lies in the directory. -/
  isChild_path : Path.IsChild c.directory (clientName (i.keyBy start))
    (c.path (CacheOrigin.client.mark ++ i.keyBy start))
  /-- So does its draft. -/
  isChild_draftPath : Path.IsChild c.directory (clientDraftName (i.keyBy start))
    (c.draftPath (CacheOrigin.client.mark ++ i.keyBy start))
  /-- Documents are told apart by their keys. -/
  name_iff : clientName (i.keyBy start) = clientName (j.keyBy start) ↔
    i.keyBy start = j.keyBy start
  /-- So are drafts. -/
  draftName_iff : clientDraftName (i.keyBy start) = clientDraftName (j.keyBy start) ↔
    i.keyBy start = j.keyBy start
  /-- A draft is no document. -/
  draftName_ne : clientDraftName (i.keyBy start) ≠ clientName (j.keyBy start)
  /-- Workers share no document. -/
  path_ne : i.worker ≠ j.worker →
    c.path (CacheOrigin.client.mark ++ i.keyBy start)
      ≠ c.path (CacheOrigin.client.mark ++ j.keyBy start)

/-- Whatever is hashed how, the documents of tests are kept apart. -/
theorem keepsApart_of_length {start : String → List UInt8}
    (hstart : ∀ test, (start test).length = 4) (c : Cache) (i j : TestIdentity) :
    c.KeepsApart start i j := by
  have hplain := TestIdentity.isKeyChar_of_mem_keyBy start
  have hkey := TestIdentity.keyBy_eq_iff hstart (i := i) (j := j)
  have hreadable :
      (Utf8.encode (String.ofList (TestIdentity.readable i.test.toList))).length ≤ 64 := by
    rw [length_encode_ofList TestIdentity.isKeyChar_of_mem_readable]
    exact TestIdentity.length_readable_le _
  have hpath : i.worker ≠ j.worker → c.path (CacheOrigin.client.mark ++ i.keyBy start)
      ≠ c.path (CacheOrigin.client.mark ++ j.keyBy start) := by
    intro hworker heq
    exact hworker (hkey.1 (c.eq_of_path_eq (hplain i) (hplain j) heq)).1
  exact ⟨hkey, hplain i, hreadable, TestIdentity.not_infix_readable _, c.isChild_path (hplain i),
    c.isChild_draftPath (hplain i), clientName_inj, clientDraftName_inj, clientDraftName_ne _ _,
    hpath⟩

/-- With the hash of the keys, two workers write the documents of a test to different files. -/
theorem keepsApart_fingerprint :
    (∀ test, (TestIdentity.fingerprint test).length = 4) ∧
      (⟨"cache"⟩ : Cache).KeepsApart TestIdentity.fingerprint ⟨1, "a-b"⟩ ⟨2, "a-b"⟩ :=
  ⟨TestIdentity.length_fingerprint, keepsApart_of_length TestIdentity.length_fingerprint _ _ _⟩

end Cache

end BundleCoverage
