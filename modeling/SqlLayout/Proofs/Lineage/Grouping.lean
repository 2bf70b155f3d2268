import Mathlib.Data.List.Basic
import Mathlib.Data.List.Induction
import Mathlib.Data.List.Nodup
import SqlLayout.Lineage.Graph

/-!
# The Order of a Graph

A graph that dependencies are put into one after the other lists each of them once, grouped by the table
that depends: the tables as they were first seen, and the sources of each table as well. A dependency that
is new goes to the end of its group, or starts a group behind all others.
-/

namespace SqlLayout

section Repetitions

variable {α : Type} [BEq α] [LawfulBEq α]

theorem nodup_eraseDups (items : List α) : items.eraseDups.Nodup := by
  cases items with
  | nil => exact List.nodup_nil
  | cons item items =>
    have hlength := List.length_filter_le (fun other => !other == item) items
    rw [List.eraseDups_cons, List.nodup_cons]
    exact ⟨by simp [List.mem_eraseDups], nodup_eraseDups _⟩
termination_by items.length
decreasing_by simp only [List.length_cons]; omega

/-- Only the first of several equal items is kept. -/
theorem eraseDups_concat (items : List α) (item : α) :
    (items ++ [item]).eraseDups =
      if items.contains item then items.eraseDups else items.eraseDups ++ [item] := by
  rw [List.eraseDups_append, List.removeAll]
  by_cases hmem : item ∈ items
  · simp [hmem]
  · simp [hmem, List.eraseDups_cons]

end Repetitions

namespace Dependency

/-- The dependencies of one table, each once, in the order in which they are first seen. -/
def ofTable (edges : List Dependency) (table : String) : List Dependency :=
  (edges.filter fun edge => edge.table == table).eraseDups

/-- Dependencies by table, each once; tables and dependencies in the order in which they are first seen. -/
def grouped (edges : List Dependency) : List Dependency :=
  (edges.map table).eraseDups.flatMap (ofTable edges)

variable {edges before after : List Dependency} {edge last : Dependency} {name : String}

section Groups

theorem mem_ofTable : edge ∈ ofTable edges name ↔ edge ∈ edges ∧ edge.table = name := by
  simp [ofTable, List.mem_eraseDups]

theorem mem_grouped : edge ∈ grouped edges ↔ edge ∈ edges := by
  simp only [grouped, List.mem_flatMap, List.mem_eraseDups, List.mem_map, mem_ofTable]
  constructor
  · rintro ⟨_, -, hmem, -⟩
    exact hmem
  · intro hmem
    exact ⟨edge.table, ⟨edge, hmem, rfl⟩, hmem, rfl⟩

theorem ofTable_concat_of_ne (h : edge.table ≠ name) : ofTable (edges ++ [edge]) name = ofTable edges name := by
  simp [ofTable, List.filter_append, h]

theorem ofTable_concat_of_mem (h : edge ∈ edges) (name : String) :
    ofTable (edges ++ [edge]) name = ofTable edges name := by
  by_cases hname : edge.table = name
  · have hfilter : (edges.filter fun other => other.table == name).contains edge = true := by
      simpa using ⟨h, hname⟩
    rw [ofTable, List.filter_append, List.filter_cons_of_pos (by simpa using hname), List.filter_nil,
      eraseDups_concat, if_pos hfilter]
    rfl
  · exact ofTable_concat_of_ne hname

/-- A dependency that is new goes to the end of its group. -/
theorem ofTable_concat (h : edge ∉ edges) :
    ofTable (edges ++ [edge]) edge.table = ofTable edges edge.table ++ [edge] := by
  have hfilter : (edges ++ [edge]).filter (fun other => other.table == edge.table) =
      edges.filter (fun other => other.table == edge.table) ++ [edge] := by
    simp [List.filter_append]
  rw [ofTable, hfilter, eraseDups_concat, if_neg (by simp [h])]
  rfl

theorem ofTable_eq_nil (h : name ∉ edges.map table) : ofTable edges name = [] := by
  rw [List.eq_nil_iff_forall_not_mem]
  intro edge hmem
  obtain ⟨hedge, rfl⟩ := mem_ofTable.mp hmem
  exact h (List.mem_map_of_mem hedge)

end Groups

section Placing

/-- A dependency of a new table goes to the end. -/
theorem place_eq_concat (h : ∀ other ∈ edges, other.table ≠ edge.table) : place edge edges = edges ++ [edge] := by
  induction edges with
  | nil => rfl
  | cons other edges ih =>
    obtain ⟨hother, hrest⟩ := List.forall_mem_cons.mp h
    rw [place, if_neg (by simp [hother]), ih hrest]
    rfl

/-- A dependency of a table that was seen goes behind the last one of that table. -/
theorem place_eq_behind (before : List Dependency) (hlast : last.table = edge.table)
    (hafter : ∀ other ∈ after, other.table ≠ edge.table) :
    place edge (before ++ last :: after) = before ++ last :: edge :: after := by
  induction before with
  | nil =>
    have hnone : after.any (·.table = edge.table) = false := by simpa using hafter
    rw [List.nil_append, place, if_pos (by simp [hlast, hnone])]
    rfl
  | cons other before ih =>
    have hsome : (before ++ last :: after).any (·.table = edge.table) = true := by simp [hlast]
    rw [List.cons_append, place, if_neg (by simp [hsome]), ih]
    rfl

end Placing

section Growing

theorem tables_concat (h : edge.table ∈ edges.map table) :
    ((edges ++ [edge]).map table).eraseDups = (edges.map table).eraseDups := by
  rw [List.map_append, List.map_singleton, eraseDups_concat, if_pos (by simpa using h)]

/-- The groups of other tables stay. -/
theorem flatMap_ofTable_concat {names : List String} (h : edge.table ∉ names) :
    names.flatMap (ofTable (edges ++ [edge])) = names.flatMap (ofTable edges) :=
  List.flatMap_congr fun _ hname => ofTable_concat_of_ne fun heq => h (heq ▸ hname)

/-- A dependency that was seen changes nothing. -/
theorem grouped_concat_of_mem (h : edge ∈ edges) : grouped (edges ++ [edge]) = grouped edges := by
  rw [grouped, grouped, tables_concat (List.mem_map_of_mem h)]
  exact List.flatMap_congr fun name _ => ofTable_concat_of_mem h name

/-- A dependency of a new table starts a group. -/
theorem grouped_concat_of_newTable (h : edge.table ∉ edges.map table) :
    grouped (edges ++ [edge]) = place edge (grouped edges) := by
  have hnew : edge ∉ edges := fun hmem => h (List.mem_map_of_mem hmem)
  have htables : ((edges ++ [edge]).map table).eraseDups = (edges.map table).eraseDups ++ [edge.table] := by
    rw [List.map_append, List.map_singleton, eraseDups_concat, if_neg (by simpa using h)]
  have hothers : edge.table ∉ (edges.map table).eraseDups := fun hmem => h (List.mem_eraseDups.mp hmem)
  have hfresh : ∀ other ∈ grouped edges, other.table ≠ edge.table := fun other hother heq =>
    h (heq ▸ List.mem_map_of_mem (mem_grouped.mp hother))
  rw [grouped, htables, List.flatMap_append, flatMap_ofTable_concat hothers, List.flatMap_singleton,
    ofTable_concat hnew, ofTable_eq_nil h, place_eq_concat hfresh]
  rfl

/-- A new dependency of a table that was seen goes to the end of the group, which stands between the groups
of other tables. -/
theorem grouped_concat_of_newSource (h : edge ∉ edges) (htable : edge.table ∈ edges.map table) :
    grouped (edges ++ [edge]) = place edge (grouped edges) := by
  obtain ⟨tables, others, hsplit⟩ := List.append_of_mem (List.mem_eraseDups.mpr htable)
  have hnodup := nodup_eraseDups (edges.map table)
  rw [hsplit, List.nodup_middle, List.nodup_cons, List.mem_append, not_or] at hnodup
  obtain ⟨⟨hbefore, hafter⟩, -⟩ := hnodup
  have hgroup : ofTable edges edge.table ≠ [] := by
    obtain ⟨other, hother, heq⟩ := List.mem_map.mp htable
    exact List.ne_nil_of_mem (mem_ofTable.mpr ⟨hother, heq⟩)
  obtain ⟨init, last, hlast⟩ : ∃ init last, ofTable edges edge.table = init ++ [last] :=
    ⟨_, _, (List.dropLast_append_getLast hgroup).symm⟩
  have hlastTable : last.table = edge.table := by
    have hmem : last ∈ ofTable edges edge.table := by simp [hlast]
    exact (mem_ofTable.mp hmem).2
  have hrest : ∀ other ∈ others.flatMap (ofTable edges), other.table ≠ edge.table := by
    intro other hother heq
    obtain ⟨name, hname, hmem⟩ := List.mem_flatMap.mp hother
    exact hafter (heq ▸ (mem_ofTable.mp hmem).2 ▸ hname)
  have hplace := place_eq_behind (tables.flatMap (ofTable edges) ++ init) hlastTable hrest
  rw [grouped, grouped, tables_concat htable, hsplit]
  simp only [List.flatMap_append, List.flatMap_cons, flatMap_ofTable_concat hbefore,
    flatMap_ofTable_concat hafter, ofTable_concat h, hlast]
  simpa using hplace.symm

end Growing

end Dependency

namespace DependencyGraph

open Dependency

theorem insertAll_concat (graph : DependencyGraph) (edges : List Dependency) (edge : Dependency) :
    graph.insertAll (edges ++ [edge]) = (graph.insertAll edges).insert edge := by
  simp [insertAll]

/-- A graph lists what was put into it by table. -/
theorem edges_ofList (edges : List Dependency) : (ofList edges).edges = grouped edges := by
  induction edges using List.reverseRecOn with
  | nil => rfl
  | append_singleton edges edge ih =>
    rw [ofList, insertAll_concat, ← ofList, insert]
    split
    · rename_i hmem
      rw [ih, mem_grouped] at hmem
      rw [ih, grouped_concat_of_mem hmem]
    · rename_i hnew
      rw [ih, mem_grouped] at hnew
      by_cases htable : edge.table ∈ edges.map table
      · rw [grouped_concat_of_newSource hnew htable, ← ih]
      · rw [grouped_concat_of_newTable htable, ← ih]

end DependencyGraph

end SqlLayout
