import SqlLayout.Lineage.Reference

/-!
# Dependency Graphs

The dependencies between tables, each once and grouped by the table that depends: the groups stand in the
order in which their tables were first seen, and so do the sources within a group. A reduced graph lacks
the dependencies that follow from others, so what depends on what, through any number of steps, is the
same as before.
-/

namespace SqlLayout

namespace Dependency

/-- A table made from itself. -/
def isLoop (edge : Dependency) : Bool :=
  edge.table == edge.source

/-- The dependencies of some tables. -/
def ofTables (tables : List String) (edges : List Dependency) : List Dependency :=
  edges.filter fun edge => tables.contains edge.table

/-- The dependencies of all other tables. -/
def ofOthers (tables : List String) (edges : List Dependency) : List Dependency :=
  edges.filter fun edge => !tables.contains edge.table

def sources (edges : List Dependency) : List String :=
  edges.map source

theorem length_ofOthers_lt {tables : List String} {edges : List Dependency}
    (h : ofTables tables edges ≠ []) : (ofOthers tables edges).length < edges.length := by
  obtain ⟨edge, hedge⟩ := List.exists_mem_of_ne_nil _ h
  obtain ⟨hmem, htable⟩ := List.mem_filter.mp hedge
  exact List.length_filter_lt_length_iff_exists.mpr ⟨edge, hmem, by simpa using htable⟩

/-- The sources of some tables, the sources of those, and so on. No dependency is followed twice: what
lies beyond it has been reached by then. -/
def reached (edges : List Dependency) (tables : List String) : List String :=
  if ofTables tables edges = [] then []
  else
    let next := sources (ofTables tables edges)
    next ++ reached (ofOthers tables edges) next
termination_by edges.length
decreasing_by
  rename_i h
  exact length_ofOthers_lt h

/-- Whether a dependency follows from others than itself. -/
def isImplied (edges : List Dependency) (edge : Dependency) : Bool :=
  (reached (edges.erase edge) [edge.table]).contains edge.source

/-- Drops a dependency if it follows from the others; a loop stays. -/
def prune (edges : List Dependency) (edge : Dependency) : List Dependency :=
  if !edge.isLoop && edge.isImplied edges then edges.erase edge else edges

/-- Puts a dependency after the last one of its group, or at the end as a group of its own. -/
def place (edge : Dependency) : List Dependency → List Dependency
  | [] => [edge]
  | other :: edges =>
    if other.table = edge.table && !edges.any (·.table = edge.table) then other :: edge :: edges
    else other :: place edge edges

theorem place_perm (edge : Dependency) (edges : List Dependency) :
    (place edge edges).Perm (edge :: edges) := by
  induction edges with
  | nil => exact .refl _
  | cons other edges ih =>
    unfold place
    split
    · exact .swap _ _ _
    · exact (ih.cons _).trans (.swap _ _ _)

theorem prune_sublist (edges : List Dependency) (edge : Dependency) :
    (prune edges edge).Sublist edges := by
  unfold prune
  split
  · exact List.erase_sublist
  · exact .refl _

theorem foldl_prune_sublist (candidates edges : List Dependency) :
    (candidates.foldl prune edges).Sublist edges := by
  induction candidates generalizing edges with
  | nil => exact .refl _
  | cons edge candidates ih => exact (ih _).trans (prune_sublist edges edge)

end Dependency

structure DependencyGraph where
  edges : List Dependency := []
  nodup : edges.Nodup := by simp
deriving DecidableEq

namespace DependencyGraph

open Dependency

instance : Inhabited DependencyGraph := ⟨{}⟩

/-- Adds a dependency, unless it is there already. -/
def insert (graph : DependencyGraph) (edge : Dependency) : DependencyGraph :=
  if h : edge ∈ graph.edges then graph
  else
    { edges := place edge graph.edges
      nodup := (place_perm edge graph.edges).nodup_iff.mpr (List.nodup_cons.mpr ⟨h, graph.nodup⟩) }

def insertAll (graph : DependencyGraph) (edges : List Dependency) : DependencyGraph :=
  edges.foldl insert graph

def ofList (edges : List Dependency) : DependencyGraph :=
  insertAll {} edges

/-- Drops the dependencies that follow from others, tried one after the other in the order of the
graph. -/
def reduce (graph : DependencyGraph) : DependencyGraph where
  edges := graph.edges.foldl prune graph.edges
  nodup := graph.nodup.sublist (foldl_prune_sublist graph.edges graph.edges)

/-- A name as an identifier of the graph language. -/
def dotName (name : String) : String :=
  let escaped := name.toList.flatMap fun c => if c = '\x22' || c = '\\' then ['\\', c] else [c]
  String.ofList ('\x22' :: escaped ++ ['\x22'])

/-- The graph in the language of graph drawing tools. -/
def dot (graph : DependencyGraph) : String :=
  let lines := graph.edges.map fun edge =>
    dotName edge.table ++ " -> " ++ dotName edge.source ++ ";\n"
  "digraph connections \x7b\n" ++ String.join lines ++ "\x7d\n"

end DependencyGraph

end SqlLayout
