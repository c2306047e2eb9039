import BundleCoverage.Proofs.Writers

/-!
# Stored documents

What a call has written is read at the path that it gives (`Cache.read_of_write`).  So some entries
are read back from the document that is stored for them, and from each of its spellings
(`Cache.documents_read_back`).
-/

namespace BundleCoverage

open Json

namespace Cache

theorem perform_cons_eq_ok_iff {d d' : Disk} {step : Step} {steps : List Step} :
    perform d (step :: steps) = (d', .ok ()) ↔
      ∃ next, step d = .ok next ∧ perform next steps = (d', .ok ()) := by
  rw [perform]
  cases step d <;> simp

/-- What a call gives is what its steps come to. -/
theorem perform_of_write {c : Cache} {d d' : Disk} {call : WriteCall} {result : Except Error String}
    (h : call.write c d = (d', result)) :
    ∃ made, perform d (c.writeSteps call.name call.entries) = (d', made) ∧
      result = made.map fun _ => c.path call.name := by
  rw [call.write_eq, write] at h
  rcases hsteps : perform d (c.writeSteps call.name call.entries) with ⟨next, made⟩
  rw [hsteps] at h
  obtain ⟨rfl, rfl⟩ := Prod.mk.inj h
  exact ⟨made, rfl, rfl⟩

/-- A call that succeeds makes all of its steps. -/
theorem steps_of_write {c : Cache} {d d' : Disk} {call : WriteCall} {path : String}
    (h : call.write c d = (d', .ok path)) :
    path = c.path call.name ∧ ∃ prepared drafted, c.prepare d = .ok prepared ∧
      c.draft call.name call.entries prepared = .ok drafted ∧
      c.publish call.name drafted = .ok d' := by
  obtain ⟨made, hsteps, hresult⟩ := perform_of_write h
  obtain ⟨⟨⟩, rfl, rfl⟩ := map_eq_ok_iff.1 hresult.symm
  obtain ⟨prepared, hprepare, hsteps⟩ := perform_cons_eq_ok_iff.1 hsteps
  obtain ⟨drafted, hdraft, hsteps⟩ := perform_cons_eq_ok_iff.1 hsteps
  obtain ⟨published, hpublish, hsteps⟩ := perform_cons_eq_ok_iff.1 hsteps
  obtain rfl : published = d' := congrArg Prod.fst hsteps
  exact ⟨rfl, prepared, drafted, hprepare, hdraft, hpublish⟩

/-- What a call has written is read at the path that it gives. -/
theorem read_of_write {c : Cache} {d d' : Disk} {call : WriteCall} {path : String}
    (hcall : call.IsPlain) (h : call.write c d = (d', .ok path)) :
    d'.read path = .ok call.bytes := by
  obtain ⟨rfl, prepared, drafted, -, hdraft, hpublish⟩ := steps_of_write h
  obtain ⟨-, -, rfl⟩ := (draft_eq_ok_iff hcall).1 hdraft
  obtain ⟨hopens, hfree, bytes, hbytes, rfl⟩ := (publish_eq_ok_iff hcall).1 hpublish
  have hwhole : bytes = call.bytes := by
    have hfile := file?_set (d := prepared) (c := c) call.draftName call.draftName call.bytes
    rw [if_pos rfl, hbytes] at hfile
    exact Option.some.inj hfile
  subst hwhole
  refine (Disk.read_join (call.isName_documentName hcall)).2 ⟨?_, ?_⟩
  · exact opens_moved hopens hfree hbytes
  · exact (Disk.node?_moved (by simp) (by simp) _).trans (if_pos rfl)

theorem readDocument_of_isDocument {d : Disk} {path : String} {bytes : List UInt8} {value : Json}
    {entries : List Entry} (hread : d.read path = .ok bytes)
    (hparse : parseBytes? bytes = some value) (h : Entry.IsDocument entries value) :
    readDocument d path = .ok entries := by
  rw [readDocument, hread]
  dsimp only
  rw [hparse, Option.bind_some, Entry.ofDocument?_of_isDocument h]

/-- The document that is written for some entries is read as these entries, and so is each of its
spellings. -/
theorem documents_read_back (entries : List Entry) :
    (∀ (call : WriteCall) c d d' path, call.IsPlain → call.entries = entries →
      call.write c d = (d', .ok path) →
        readDocument d' path = .ok entries ∧
          ∃ bytes value, d'.read path = .ok bytes ∧ parseBytes? bytes = some value ∧
            Entry.IsDocument entries value) ∧
      ∀ d path bytes value, d.read path = .ok bytes → parseBytes? bytes = some value →
        Entry.IsDocument entries value → readDocument d path = .ok entries := by
  refine ⟨?_, fun d path bytes value => readDocument_of_isDocument⟩
  rintro call c d d' path hcall rfl hwrite
  have hread := read_of_write hcall hwrite
  have hparse := (Entry.plain_document call.entries).parseBytes?_encode
  have hdocument := Entry.isDocument_document call.entries
  exact ⟨readDocument_of_isDocument hread hparse hdocument, _, _, hread, hparse, hdocument⟩

/-- A script with a function that has no name. -/
def oneScript : List Entry := [⟨"a.js", none, [⟨"", [⟨0, 5, 1⟩], false⟩]⟩]

/-- A range in another order, with an execution count. -/
def respelledRange : Json :=
  .obj [("executionCount", .nat 1), ("endOffset", .nat 5), ("startOffset", .nat 0)]

/-- A document of the script in another order, without defaults and with a version. -/
def respelledDocument : Json :=
  .obj [("version", .nat 1), ("result", .arr [.obj [("functions",
    .arr [.obj [("ranges", .arr [respelledRange])]]), ("url", .str "a.js")]])]

theorem isDocument_respelledDocument : Entry.IsDocument oneScript respelledDocument := by
  have hrange : CoverageRange.IsSpelledBy ⟨0, 5, 1⟩ respelledRange :=
    ⟨"executionCount", by simp, _, [], rfl, List.reverse_perm [_, _, _], by simp⟩
  have hfunction : FunctionCoverage.IsSpelledBy ⟨"", [⟨0, 5, 1⟩], false⟩
      (.obj [("ranges", .arr [respelledRange])]) :=
    ⟨none, _, none, .leftOut rfl, .here ⟨_, rfl, .cons hrange .nil⟩, .leftOut rfl, _, [], rfl,
      .refl _, by simp⟩
  have hentry : Entry.IsSpelledBy ⟨"a.js", none, [⟨"", [⟨0, 5, 1⟩], false⟩]⟩ (.obj [("functions",
      .arr [.obj [("ranges", .arr [respelledRange])]]), ("url", .str "a.js")]) :=
    ⟨_, .here ⟨_, rfl, .cons hfunction .nil⟩, _, [], rfl, .swap _ _ _, by simp⟩
  exact ⟨_, .here ⟨_, rfl, .cons hentry .nil⟩, _, [("version", .nat 1)], rfl, .swap _ _ _,
    by simp [Entry.documentFields]⟩

theorem plain_respelledDocument : Plain respelledDocument := by
  have hrange : Plain respelledRange := by
    refine .obj fun m hm => ?_
    simp only [List.mem_cons, List.not_mem_nil, or_false] at hm
    rcases hm with rfl | rfl | rfl <;> exact .int _
  have hfunction : Plain (.obj [("ranges", .arr [respelledRange])]) :=
    .obj (List.forall_mem_singleton.2 (.arr (List.forall_mem_singleton.2 hrange)))
  have hentry : Plain (.obj [("functions", .arr [.obj [("ranges", .arr [respelledRange])]]),
      ("url", .str "a.js")]) :=
    .obj (List.forall_mem_cons.2
      ⟨.arr (List.forall_mem_singleton.2 hfunction), List.forall_mem_singleton.2 (.str _)⟩)
  exact .obj (List.forall_mem_cons.2
    ⟨.int _, List.forall_mem_singleton.2 (.arr (List.forall_mem_singleton.2 hentry))⟩)

/-- A call that writes the document of the script. -/
def oneScriptCall : WriteCall := .server ⟨"20260101T000000000Z", "01234567"⟩ oneScript

/-- The script is read from the document that is written for it, and from the other spelling. -/
theorem documents_read_back_oneScript :
    (∃ d path, oneScriptCall.write ⟨"cache"⟩ .empty = (d, .ok path) ∧
      readDocument d path = .ok oneScript) ∧
      ∃ d bytes, d.read "a.json" = .ok bytes ∧ parseBytes? bytes = some respelledDocument ∧
        readDocument d "a.json" = .ok oneScript := by
  constructor
  · have hplain : oneScriptCall.IsPlain := by
      show ∀ c ∈ _, _
      simp
    have hwrite : (oneScriptCall.write ⟨"cache"⟩ .empty).2
        = .ok "cache/server-20260101T000000000Z-01234567.json" := by decide +kernel
    rcases hcall : oneScriptCall.write ⟨"cache"⟩ .empty with ⟨d, result⟩
    rw [hcall] at hwrite
    obtain rfl : result = _ := hwrite
    exact ⟨d, _, rfl, ((documents_read_back oneScript).1 _ _ _ _ _ hplain rfl hcall).1⟩
  · have hread (bytes : List UInt8) :
        (Disk.empty.set ["a.json"] (.file bytes)).read "a.json" = .ok bytes := by rfl
    have hparse := plain_respelledDocument.parseBytes?_encode
    exact ⟨_, _, hread _, hparse,
      (documents_read_back oneScript).2 _ _ _ _ (hread _) hparse isDocument_respelledDocument⟩

end Cache

end BundleCoverage
