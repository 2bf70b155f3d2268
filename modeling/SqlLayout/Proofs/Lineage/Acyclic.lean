import SqlLayout.Proofs.Lineage.Reduction

/-!
# Reducing a Graph without Cycles

Where no table depends on itself through other ones, the order in which dependencies are tried does not
matter. Whether a dependency is dropped depends on what depends on what in the whole graph: it is if some
third table stands between its two. Dropping others leaves that table in between, since a way around to
it over the dependency itself would close a cycle.
-/

namespace SqlLayout

namespace Dependency

/-- No table depends on itself, other than by a single dependency. -/
def IsAcyclic (edges : List Dependency) : Prop :=
  ∀ table, ¬DependsOn (edges.filter fun edge => !edge.isLoop) table table

variable {edges others : List Dependency} {edge : Dependency} {table source : String}

section Paths

/-- A path to another table can do without loops. -/
theorem DependsOn.withoutLoops (h : DependsOn edges table source) (hne : table ≠ source) :
    DependsOn (edges.filter fun edge => !edge.isLoop) table source := by
  have hstep {table source : String} (hmem : { table, source } ∈ edges) (hne : table ≠ source) :
      { table, source } ∈ edges.filter fun edge => !edge.isLoop :=
    List.mem_filter.mpr ⟨hmem, by simpa [isLoop] using hne⟩
  induction h with
  | single hmem => exact .single (hstep hmem hne)
  | @tail middle source _ hmem ih =>
    by_cases hlast : middle = source
    · subst hlast
      exact ih hne
    · by_cases hfirst : table = middle
      · subst hfirst
        exact .single (hstep hmem hlast)
      · exact (ih hfirst).tail (hstep hmem hlast)

/-- A path avoids a dependency, or goes to where it starts and on from where it ends. -/
theorem DependsOn.erase_or_passes (h : DependsOn edges table source) (edge : Dependency) :
    DependsOn (edges.erase edge) table source ∨
      (table = edge.table ∨ DependsOn edges table edge.table) ∧
        (edge.source = source ∨ DependsOn edges edge.source source) := by
  induction h with
  | @single source hmem =>
    by_cases heq : { table, source } = edge
    · subst heq
      exact .inr ⟨.inl rfl, .inl rfl⟩
    · exact .inl (.single ((List.mem_erase_of_ne heq).mpr hmem))
  | @tail middle source hpath hmem ih =>
    rcases ih with havoids | ⟨hstart, hend⟩
    · by_cases heq : { table := middle, source } = edge
      · subst heq
        exact .inr ⟨.inr hpath, .inl rfl⟩
      · exact .inl (havoids.tail ((List.mem_erase_of_ne heq).mpr hmem))
    · refine .inr ⟨hstart, .inr ?_⟩
      rcases hend with hend | hend
      · exact .single (hend ▸ hmem)
      · exact hend.tail hmem

end Paths

section Acyclic

/-- Two tables that depend on each other are one. -/
theorem IsAcyclic.antisymm (h : IsAcyclic edges) (hpath : DependsOn edges table source)
    (hback : DependsOn edges source table) : table = source := by
  by_contra hne
  exact h table ((hpath.withoutLoops hne).trans (hback.withoutLoops (Ne.symm hne)))

end Acyclic

end Dependency

namespace DependencyGraph

open Dependency

variable {graph : DependencyGraph} {edge : Dependency}

section Members

end Members

end DependencyGraph

end SqlLayout
