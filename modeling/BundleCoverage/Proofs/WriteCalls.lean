import BundleCoverage.Proofs.Documents
import BundleCoverage.Proofs.Listings

/-!
# Documents that are written

A call writes the document of a test or of a run of the server (`WriteCall`).  The key of a test has
only plain characters, so the document and its draft are files in the directory of the cache
(`WriteCall.isName_documentName`, `WriteCall.isName_draftName`).  A draft is never taken for a
document (`WriteCall.isDocumentName_draftName`), and a document gives the entries that were written
(`WriteCall.document?_bytes`).
-/

namespace BundleCoverage

open Text

/-! ## Plain characters -/

/-- Whether a character is an ASCII letter, a digit, a dash or an underscore. -/
def IsKeyChar (c : Char) : Prop := c.isAlphanum ∨ c = '-' ∨ c = '_'

instance (c : Char) : Decidable (IsKeyChar c) := inferInstanceAs (Decidable (_ ∨ _ ∨ _))

theorem IsKeyChar.ne {c : Char} (h : IsKeyChar c) : c ≠ '/' ∧ c ≠ '\x00' := by
  constructor
  · rintro rfl
    exact absurd h (by decide)
  · rintro rfl
    exact absurd h (by decide)

namespace TestIdentity

theorem isKeyChar_readableChar (c : Char) : IsKeyChar (readableChar c) := by
  unfold readableChar
  split
  · next h =>
    rw [Bool.or_eq_true, decide_eq_true_eq] at h
    rcases h with h | h
    · exact .inl h
    · exact .inr (.inl h)
  · exact .inr (.inr rfl)

theorem isKeyChar_of_mem_readableFrom {text kept : List Char} (hkept : ∀ c ∈ kept, IsKeyChar c) :
    ∀ c ∈ readableFrom kept text, IsKeyChar c := by
  induction text generalizing kept with
  | nil => exact hkept
  | cons next text ih =>
      rw [readableFrom]
      split
      · exact hkept
      · split
        · exact ih hkept
        · exact ih (List.forall_mem_cons.2 ⟨isKeyChar_readableChar next, hkept⟩)

theorem isKeyChar_digitChar {n : Nat} (hn : n < 16) : IsKeyChar (Nat.digitChar n) := by
  left
  revert n
  decide

theorem isKeyChar_of_mem_hexText (bytes : List UInt8) : ∀ c ∈ hexText bytes, IsKeyChar c := by
  intro c hc
  obtain ⟨b, -, hc⟩ := List.mem_flatMap.1 hc
  have hb : b.toNat < 256 := b.toNat_lt
  rcases List.mem_pair.1 hc with rfl | rfl
  · exact isKeyChar_digitChar (by omega)
  · exact isKeyChar_digitChar (by omega)

theorem isKeyChar_of_mem_keyOf (worker : UInt32) (test : String) (start : List UInt8) :
    ∀ c ∈ (keyOf worker test start).toList, IsKeyChar c := by
  intro c hc
  rw [keyOf, String.toList_ofList] at hc
  simp only [List.mem_append, List.mem_cons] at hc
  rcases hc with (hc | rfl | hc) | rfl | hc
  · have hdigit : c.isDigit := Nat.isDigit_of_mem_toDigits (by decide) (by decide) hc
    exact .inl (by simp [Char.isAlphanum, hdigit])
  · exact .inr (.inl rfl)
  · exact isKeyChar_of_mem_readableFrom (List.forall_mem_nil _) c (List.mem_reverse.1 hc)
  · exact .inr (.inl rfl)
  · exact isKeyChar_of_mem_hexText _ c hc

end TestIdentity

/-- A draft lies next to its document. -/
theorem Cache.draftPath_eq_join (c : Cache) (name : String) :
    c.draftPath name = Path.join c.directory (name ++ documentEnding ++ ".tmp") := by
  have hending : ∀ text : String, Path.isAbsolute (name ++ documentEnding ++ text)
      = Path.isAbsolute (name ++ documentEnding) := by
    intro text
    simp [Path.isAbsolute, documentEnding]
  rw [draftPath, path, Path.join, Path.join, hending]
  split
  · rfl
  · split
    · rw [String.append_assoc]
    · rw [String.append_assoc]

/-! ## Calls -/

/-- Whether a stamp can be part of a file name. -/
def RunStamp.IsPlain (s : RunStamp) : Prop :=
  ∀ c ∈ s.time.toList ++ s.id.toList, c ≠ '/' ∧ c ≠ '\x00'

/-- A call that writes a document. -/
inductive WriteCall where
  /-- The document of a test. -/
  | client (i : TestIdentity) (entries : List Entry)
  /-- The document of a run of the server. -/
  | server (s : RunStamp) (entries : List Entry)

namespace WriteCall

/-- The name of the document without its ending. -/
def name : WriteCall → String
  | client i _ => CacheOrigin.client.mark ++ i.key
  | server s _ => Cache.serverName s

/-- The entries that are written. -/
def entries : WriteCall → List Entry
  | client _ entries | server _ entries => entries

/-- Whose document is written. -/
def origin : WriteCall → CacheOrigin
  | client .. => .client
  | server .. => .server

/-- Makes the call, all at once. -/
def write (c : Cache) (d : Disk) : WriteCall → Disk × Except Error String
  | client i entries => c.writeClient d i entries
  | server s entries => c.writeServer d s entries

/-- The name of the document. -/
def documentName (call : WriteCall) : String := call.name ++ Cache.documentEnding

/-- The name of the document while it is written. -/
def draftName (call : WriteCall) : String := call.documentName ++ ".tmp"

/-- The bytes of the document. -/
def bytes (call : WriteCall) : List UInt8 := Entry.documentBytes call.entries

/-- A call whose document has a name that a file can have. -/
def IsPlain : WriteCall → Prop
  | client .. => True
  | server s _ => s.IsPlain

theorem write_eq (c : Cache) (d : Disk) (call : WriteCall) :
    call.write c d = c.write d call.name call.entries := by
  cases call <;> rfl

theorem exists_name_eq (call : WriteCall) :
    ∃ rest, call.name.toList = call.origin.mark.toList ++ rest ∧
      (call.IsPlain → ∀ c ∈ rest, c ≠ '/' ∧ c ≠ '\x00') := by
  cases call with
  | client i entries =>
      refine ⟨i.key.toList, by simp [name, origin], fun _ c hc => ?_⟩
      exact (TestIdentity.isKeyChar_of_mem_keyOf _ _ _ c hc).ne
  | server s entries =>
      refine ⟨s.time.toList ++ '-' :: s.id.toList, ?_, fun h c hc => ?_⟩
      · simp [name, origin, Cache.serverName, toString]
      · rcases List.mem_append.1 hc with hc | hc
        · exact h c (List.mem_append_left _ hc)
        · rcases List.mem_cons.1 hc with rfl | hc
          · decide
          · exact h c (List.mem_append_right _ hc)

theorem exists_documentName_eq (call : WriteCall) :
    ∃ rest, call.documentName.toList = call.origin.mark.toList ++ rest ++ ".json".toList ∧
      (call.IsPlain → ∀ c ∈ rest, c ≠ '/' ∧ c ≠ '\x00') := by
  obtain ⟨rest, hrest, hplain⟩ := call.exists_name_eq
  exact ⟨rest, by rw [documentName, String.toList_append, hrest]; rfl, hplain⟩

/-- A name with a mark in front and a plain text behind. -/
theorem isName_of_toList_eq {name : String} {origin : CacheOrigin} {rest : List Char}
    (hname : name.toList = origin.mark.toList ++ rest) (hrest : ∀ c ∈ rest, c ≠ '/' ∧ c ≠ '\x00') :
    Path.IsName name := by
  have hmark : 2 < origin.mark.toList.length ∧ ∀ c ∈ origin.mark.toList, c ≠ '/' ∧ c ≠ '\x00' := by
    cases origin <;> simp [CacheOrigin.mark]
  have hlength : 2 < name.toList.length := by
    rw [hname, List.length_append]
    omega
  have hchars : ∀ c ∈ name.toList, c ≠ '/' ∧ c ≠ '\x00' := by
    rw [hname]
    exact List.forall_mem_append.2 ⟨hmark.2, hrest⟩
  refine ⟨?_, ?_, ?_, fun h => (hchars _ h).1 rfl, fun h => (hchars _ h).2 rfl⟩
  all_goals
    rintro rfl
    simp at hlength

theorem isName_documentName {call : WriteCall} (h : call.IsPlain) :
    Path.IsName call.documentName := by
  obtain ⟨rest, hname, hrest⟩ := call.exists_documentName_eq
  rw [List.append_assoc] at hname
  refine isName_of_toList_eq hname ?_
  exact List.forall_mem_append.2 ⟨hrest h, by simp⟩

theorem isName_draftName {call : WriteCall} (h : call.IsPlain) : Path.IsName call.draftName := by
  obtain ⟨rest, hname, hrest⟩ := call.exists_documentName_eq
  have hdraft : call.draftName.toList
      = call.origin.mark.toList ++ (rest ++ (".json".toList ++ ".tmp".toList)) := by
    rw [draftName, String.toList_append, hname]
    simp only [List.append_assoc]
  refine isName_of_toList_eq hdraft ?_
  exact List.forall_mem_append.2 ⟨hrest h, by simp⟩

theorem head?_documentName (call : WriteCall) :
    call.documentName.toList.head? = call.origin.mark.toList.head? := by
  obtain ⟨rest, hname, -⟩ := call.exists_documentName_eq
  rw [hname]
  cases call.origin <;> rfl

/-- Documents of tests and documents of the server have different names. -/
theorem documentName_ne {a b : WriteCall} (h : a.origin ≠ b.origin) :
    a.documentName ≠ b.documentName := by
  intro hname
  have hhead := a.head?_documentName
  rw [hname, b.head?_documentName] at hhead
  revert h hhead
  cases a.origin <;> cases b.origin <;> decide

theorem isDocumentName_documentName (call : WriteCall) :
    Cache.isDocumentName call.origin call.documentName = true := by
  obtain ⟨rest, hname, -⟩ := call.exists_documentName_eq
  rw [Cache.isDocumentName_iff, hname]
  exact ⟨⟨rest ++ ".json".toList, by simp⟩, List.suffix_append _ _⟩

theorem isDocumentName_draftName (call : WriteCall) (origin : CacheOrigin) :
    Cache.isDocumentName origin call.draftName = false := by
  rw [← Bool.not_eq_true, Cache.isDocumentName_iff]
  rintro ⟨-, text, htext⟩
  have hlast := congrArg List.getLast? htext
  simp [draftName] at hlast

theorem draftName_ne_of_isDocumentName (call : WriteCall) {origin : CacheOrigin} {name : String}
    (h : Cache.isDocumentName origin name = true) : call.draftName ≠ name := by
  rintro rfl
  rw [call.isDocumentName_draftName] at h
  cases h

theorem draftName_ne_documentName (a b : WriteCall) : a.draftName ≠ b.documentName :=
  a.draftName_ne_of_isDocumentName b.isDocumentName_documentName

theorem draftName_ne {a b : WriteCall} (h : a.documentName ≠ b.documentName) :
    a.draftName ≠ b.draftName := by
  intro hdraft
  exact h ((String.append_left_inj _).1 hdraft)

/-- The path of the draft is that of a file in the directory of the cache. -/
theorem draftPath_eq (c : Cache) (call : WriteCall) :
    c.draftPath call.name = Path.join c.directory call.draftName := c.draftPath_eq_join call.name

theorem document?_bytes (call : WriteCall) :
    call.origin.document? call.documentName call.bytes = some call.entries := by
  unfold CacheOrigin.document?
  rw [if_pos call.isDocumentName_documentName]
  exact Entry.ofDocument?_documentBytes call.entries

end WriteCall

end BundleCoverage
