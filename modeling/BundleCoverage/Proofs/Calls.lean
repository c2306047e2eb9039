import BundleCoverage.Proofs.Runs
import BundleCoverage.Proofs.Sources

/-!
# The calls of a merger

A merger is told to seed and to add entries, in any order and as often as one likes, and the
disk may change between two calls (`Merger.Call`).  A call enters seeds or findings into the
map, and these are about sources in scope under canonical paths.  So what seeds and findings
keep of a map, all calls keep (`Merger.performAll_induction`).
-/

namespace BundleCoverage

/-- The seeds of a project are in scope, and their paths are canonical. -/
theorem Seed.of_mem_ofProject {d : Disk} {filter : SourceFilter} {projectRoot sourceRoot : String}
    {seed : Seed} (h : seed ∈ ofProject d filter projectRoot sourceRoot) :
    filter.includes seed.path ∧ SourcePath.normalize seed.path = seed.path := by
  obtain ⟨⟨file, path⟩, hcandidate, hread⟩ := List.mem_filterMap.1 h
  obtain ⟨text, -, rfl⟩ := Option.map_eq_some_iff.1 hread
  obtain ⟨found, -, hpath⟩ := List.mem_filterMap.1 hcandidate
  obtain ⟨p, hscope, hparts⟩ := Option.map_eq_some_iff.1 hpath
  cases hparts
  simp only [pathInScope?, Option.bind_eq_bind, Option.bind_eq_some_iff] at hscope
  obtain ⟨relative, -, hscope⟩ := hscope
  obtain ⟨hincluded, hcanonical⟩ := Option.ite_none_right_eq_some.1 hscope
  cases hcanonical
  exact ⟨hincluded, SourcePath.normalize_normalize _⟩

namespace Merger

/-- A call of a merger, with the disk as it is then. -/
inductive Call where
  /-- Seeding the sources of a project. -/
  | seed (d : Disk) (projectRoot sourceRoot : String)
  /-- Adding an entry. -/
  | add (d : Disk) (e : Entry)

/-- A merger after a call. -/
def perform (m : Merger) : Call → Merger
  | .seed d projectRoot sourceRoot => (m.seed d projectRoot sourceRoot).2
  | .add d e => (m.add d e).2

/-- A merger after some calls, in order. -/
def performAll (m : Merger) (calls : List Call) : Merger := calls.foldl perform m

@[simp] theorem filter_perform (m : Merger) (c : Call) : (m.perform c).filter = m.filter := by
  cases c with
  | seed d projectRoot sourceRoot => rfl
  | add d e => rw [perform, add_found]

/-- What seeds and findings keep of a map, all calls keep. -/
theorem performAll_induction {P : CoverageMap → Prop} {m : Merger}
    (seed : ∀ map (s : Seed), m.filter.includes s.path → SourcePath.normalize s.path = s.path →
      P map → P (map.addSeed s))
    (findings : ∀ map findings, (∀ f ∈ findings, ∃ s, Finding.WellFormed s m.filter f) →
      P map → P (map.addFindings findings))
    (calls : List Call) (h : P m.map) : P (m.performAll calls).map := by
  induction calls generalizing m with
  | nil => exact h
  | cons c calls ih =>
      refine ih (m := m.perform c) (by simpa using seed) (by simpa using findings) ?_
      cases c with
      | seed d projectRoot sourceRoot =>
          refine List.foldlRecOn (motive := P) _ _ h ?_
          intro map hmap s hs
          obtain ⟨hscope, hcanonical⟩ := Seed.of_mem_ofProject hs
          exact seed map s hscope hcanonical hmap
      | add d e =>
          rw [perform, add_found]
          refine findings m.map _ ?_ h
          intro f hf
          obtain ⟨s, -, hf⟩ := exists_of_mem_found hf
          exact ⟨s, s.wellFormed_findings hf⟩

end Merger

end BundleCoverage
