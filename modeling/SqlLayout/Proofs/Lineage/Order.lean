import Mathlib.Data.List.Perm.Basic
import SqlLayout.Proofs.Lineage.Acyclic
import SqlLayout.Proofs.Lineage.Grouping

/-!
# The Order of Pruning

Dependencies are tried in the order of the graph, where they stand by table, and not in the order in which
they were put in. On a cycle the two orders can leave different dependencies. Whether one is implied,
however, depends only on what depends on what, which no pruning changes, and on the dependencies still
there that lead from the same cycle to the same cycle. So where those come in the same order both times,
the same dependencies are left.
-/

namespace SqlLayout

namespace Dependency

/-- The dependencies between two different tables. -/
def links (edges : List Dependency) : List Dependency :=
  edges.filter fun edge => !edge.isLoop

/-- Two tables are one, or depend on each other. -/
def Together (edges : List Dependency) (first second : String) : Prop :=
  first = second ∨ DependsOn edges first second ∧ DependsOn edges second first

/-- Two dependencies start together and end together. -/
def JoinSame (edges : List Dependency) (first second : Dependency) : Prop :=
  Together edges first.table second.table ∧ Together edges first.source second.source

/-- Dependencies that start together and end together come in the same order by table as they do in the
order in which they are first seen. -/
def IsInOrder (edges : List Dependency) : Prop :=
  ∀ first ∈ links edges, ∀ second ∈ links edges, JoinSame edges first second →
    edges.idxOf first < edges.idxOf second → (grouped edges).idxOf first < (grouped edges).idxOf second

instance (edges : List Dependency) (table source : String) : Decidable (DependsOn edges table source) :=
  decidable_of_iff (source ∈ reached edges [table]) (by simp [mem_reached])

instance (edges : List Dependency) (first second : String) : Decidable (Together edges first second) :=
  inferInstanceAs (Decidable (_ ∨ _))

instance (edges : List Dependency) (first second : Dependency) : Decidable (JoinSame edges first second) :=
  inferInstanceAs (Decidable (_ ∧ _))

instance (edges : List Dependency) : Decidable (IsInOrder edges) :=
  inferInstanceAs (Decidable (∀ first ∈ links edges, ∀ second ∈ links edges, JoinSame edges first second →
    edges.idxOf first < edges.idxOf second → (grouped edges).idxOf first < (grouped edges).idxOf second))

variable {edges others base candidates kept : List Dependency} {edge first second : Dependency}
  {table source name : String}

section Pruning

end Pruning

section Together

theorem Together.symm (h : Together edges table source) : Together edges source table := by
  rcases h with rfl | ⟨hto, hfrom⟩
  · exact .inl rfl
  · exact .inr ⟨hfrom, hto⟩

theorem Together.trans (h : Together edges table source) (hnext : Together edges source name) :
    Together edges table name := by
  rcases h with rfl | ⟨hto, hfrom⟩
  · exact hnext
  · rcases hnext with rfl | ⟨hto', hfrom'⟩
    · exact .inr ⟨hto, hfrom⟩
    · exact .inr ⟨hto.trans hto', hfrom'.trans hfrom⟩

theorem JoinSame.refl (edges : List Dependency) (edge : Dependency) : JoinSame edges edge edge :=
  ⟨.inl rfl, .inl rfl⟩

theorem JoinSame.symm (h : JoinSame edges first second) : JoinSame edges second first :=
  ⟨h.1.symm, h.2.symm⟩

theorem JoinSame.trans (h : JoinSame edges first edge) (hnext : JoinSame edges edge second) :
    JoinSame edges first second :=
  ⟨h.1.trans hnext.1, h.2.trans hnext.2⟩

end Together

section Agreement

/-- Each dependency once, and in all the same tables depend on the same tables. -/
structure IsPruned (base edges : List Dependency) : Prop where
  nodup : edges.Nodup
  dependsOn_iff (table source : String) : DependsOn edges table source ↔ DependsOn base table source

/-- Two selections hold the same of the dependencies that start and end together with one. -/
def AgreeAt (base : List Dependency) (edge : Dependency) (edges others : List Dependency) : Prop :=
  ∀ other, JoinSame base edge other → (other ∈ edges ↔ other ∈ others)

theorem IsPruned.prune (h : IsPruned base edges) (edge : Dependency) : IsPruned base (prune edges edge) where
  nodup := h.nodup.sublist (prune_sublist edges edge)
  dependsOn_iff table source := dependsOn_prune.trans (h.dependsOn_iff table source)

theorem AgreeAt.symm (h : AgreeAt base edge edges others) : AgreeAt base edge others edges :=
  fun other hother => (h other hother).symm

/-- A step between the two ends of a dependency is one of those that start and end together with it, or can
be replaced by a path that does not pass over it: if it did, the step would start and end together with it. -/
theorem AgreeAt.dependsOn_of_step (hagree : AgreeAt base edge edges others) (hedges : IsPruned base edges)
    (hothers : IsPruned base others) (hstep : { table, source } ∈ edges.erase edge)
    (htable : table = edge.table ∨ DependsOn base edge.table table)
    (hsource : source = edge.source ∨ DependsOn base source edge.source) :
    DependsOn (others.erase edge) table source := by
  obtain ⟨hne, hmem⟩ := hedges.nodup.mem_erase_iff.mp hstep
  by_cases hsame : JoinSame base edge { table, source }
  · exact .single ((List.mem_erase_of_ne hne).mpr ((hagree _ hsame).mp hmem))
  · have hpath : DependsOn others table source :=
      (hothers.dependsOn_iff _ _).mpr ((hedges.dependsOn_iff _ _).mp (.single hmem))
    rcases hpath.erase_or_passes edge with havoids | ⟨hto, hfrom⟩
    · exact havoids
    · refine absurd ⟨?_, ?_⟩ hsame
      · rcases htable with rfl | htable
        · exact .inl rfl
        · rcases hto with rfl | hto
          · exact .inl rfl
          · exact .inr ⟨htable, (hothers.dependsOn_iff _ _).mp hto⟩
      · rcases hsource with rfl | hsource
        · exact .inl rfl
        · rcases hfrom with rfl | hfrom
          · exact .inl rfl
          · exact .inr ⟨(hothers.dependsOn_iff _ _).mp hfrom, hsource⟩

theorem AgreeAt.dependsOn_erase (hagree : AgreeAt base edge edges others) (hedges : IsPruned base edges)
    (hothers : IsPruned base others) (h : DependsOn (edges.erase edge) edge.table source)
    (hsource : source = edge.source ∨ DependsOn base source edge.source) :
    DependsOn (others.erase edge) edge.table source := by
  have hbase {table source : String} (hpath : DependsOn (edges.erase edge) table source) :
      DependsOn base table source :=
    (hedges.dependsOn_iff _ _).mp (hpath.mono List.erase_subset)
  induction h with
  | single hstep => exact hagree.dependsOn_of_step hedges hothers hstep (.inl rfl) hsource
  | @tail middle source hpath hstep ih =>
    have hmiddle : DependsOn base middle edge.source := by
      rcases hsource with rfl | hsource
      · exact hbase (.single hstep)
      · exact (hbase (.single hstep)).trans hsource
    have hlast := hagree.dependsOn_of_step hedges hothers hstep (.inr (hbase hpath)) hsource
    exact (ih (.inr hmiddle)).trans hlast

theorem AgreeAt.isImplied_eq (hagree : AgreeAt base edge edges others) (hedges : IsPruned base edges)
    (hothers : IsPruned base others) : edge.isImplied edges = edge.isImplied others := by
  rw [Bool.eq_iff_iff, isImplied_iff, isImplied_iff]
  exact ⟨fun h => hagree.dependsOn_erase hedges hothers h (.inl rfl),
    fun h => hagree.symm.dependsOn_erase hothers hedges h (.inl rfl)⟩

/-- Selections that agree are pruned alike. -/
theorem AgreeAt.prune (hagree : AgreeAt base edge edges others) (hedges : IsPruned base edges)
    (hothers : IsPruned base others) (hsame : JoinSame base edge first) :
    AgreeAt base edge (prune edges first) (prune others first) := by
  have hfirst : AgreeAt base first edges others := fun other hother => hagree other (hsame.trans hother)
  intro other hother
  rw [Dependency.prune, Dependency.prune, hfirst.isImplied_eq hedges hothers]
  split
  · rw [hedges.nodup.mem_erase_iff, hothers.nodup.mem_erase_iff, hagree other hother]
  · exact hagree other hother

end Agreement

section Orders

/-- Without cycles no two dependencies start together and end together. -/
theorem IsAcyclic.isInOrder (h : IsAcyclic edges) : IsInOrder edges := by
  have hone {first second : String} (htogether : Together edges first second) : first = second := by
    rcases htogether with rfl | ⟨hto, hfrom⟩
    · rfl
    · exact h.antisymm hto hfrom
  intro first _ second _ ⟨htables, hsources⟩ hless
  obtain rfl : first = second := congrArg₂ Dependency.mk (hone htables) (hone hsources)
  exact absurd hless (Nat.lt_irrefl _)

end Orders

end Dependency

namespace DependencyGraph

open Dependency

end DependencyGraph

end SqlLayout
