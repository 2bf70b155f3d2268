import SqlLayout.Proofs.Lineage.Grouping
import SqlLayout.Proofs.Text.Escape

/-!
# Drawn Graphs

A graph is known from its text in the language of graph drawing tools. A name stands between quotes, and a
quote inside it has a backslash before it, so the name ends at the first quote that has none, whatever
else stands in it. A line therefore ends where its second name does, and the text where no line starts.
-/

namespace SqlLayout

open Dependency

/-- A character of a name as it is written between quotes. -/
def dotChar (c : Char) : List Char :=
  if c = '\x22' || c = '\\' then ['\\', c] else [c]

/-- A dependency as a line of its own. -/
def Dependency.dotLine (edge : Dependency) : List Char :=
  '\x22' :: edge.table.toList.flatMap dotChar
    ++ '\x22' :: (" -> \x22".toList ++ edge.source.toList.flatMap dotChar ++ '\x22' :: ";\n".toList)

variable {rest rest' : List Char}

theorem toList_dotName (name : String) :
    (DependencyGraph.dotName name).toList = '\x22' :: name.toList.flatMap dotChar ++ ['\x22'] := by
  rw [DependencyGraph.dotName, String.toList_ofList]
  rfl

theorem toList_line (edge : Dependency) :
    (DependencyGraph.dotName edge.table ++ " -> " ++ DependencyGraph.dotName edge.source ++ ";\n").toList =
      edge.dotLine := by
  simp [toList_dotName, dotLine]

/-- The text of a graph: its lines between the first line and the brace that closes it. -/
theorem toList_dot (graph : DependencyGraph) :
    graph.dot.toList =
      "digraph connections \x7b\n".toList ++ (graph.edges.flatMap dotLine ++ '\x7d' :: ['\n']) := by
  have hend : "\x7d\n".toList = '\x7d' :: ['\n'] := rfl
  unfold DependencyGraph.dot
  rw [String.toList_append, String.toList_append, String.toList_join, List.flatMap_map, List.append_assoc, hend]
  simp only [toList_line]

/-- A character that is not escaped is neither a quote nor a backslash. -/
theorem isReadable_dotChar : Text.IsReadableUpTo '\x22' dotChar where
  inj {c d rest rest'} h := by
    unfold dotChar at h
    split at h <;> split at h <;> grind
  ne_mark c rest rest' := by
    unfold dotChar
    split <;> simp_all

/-- A name ends at the first quote that is not escaped. -/
theorem dotNames_inj {name other : String}
    (h : name.toList.flatMap dotChar ++ '\x22' :: rest = other.toList.flatMap dotChar ++ '\x22' :: rest') :
    name = other ∧ rest = rest' := by
  obtain ⟨hname, hrest⟩ := isReadable_dotChar.flatMap_inj h
  exact ⟨String.toList_injective hname, hrest⟩

theorem isReadable_dotLine : Text.IsReadableUpTo '\x7d' dotLine where
  inj {edge other rest rest'} h := by
    simp only [dotLine, List.cons_append, List.append_assoc, List.cons.injEq, true_and] at h
    obtain ⟨htable, hafter⟩ := dotNames_inj h
    obtain ⟨hsource, hrest⟩ := dotNames_inj (List.append_cancel_left hafter)
    exact ⟨by cases edge; cases other; simp_all, List.append_cancel_left hrest⟩
  ne_mark edge rest rest' := by simp [dotLine]

namespace DependencyGraph

/-- A graph lists each dependency it was given once, by table and in the order in which they were first
seen, and it can be told from its drawing which dependencies it lists. -/
theorem edges_ofList_and_dot_eq_iff (edges : List Dependency) (first second : DependencyGraph) :
    ((ofList edges).edges.Nodup ∧ (∀ edge, edge ∈ (ofList edges).edges ↔ edge ∈ edges) ∧
        (ofList edges).edges = grouped edges) ∧
      (first.dot = second.dot ↔ first.edges = second.edges) := by
  refine ⟨⟨(ofList edges).nodup, fun edge => ?_, edges_ofList edges⟩, fun h => ?_, fun h => ?_⟩
  · rw [edges_ofList, mem_grouped]
  · have htext := congrArg String.toList h
    rw [toList_dot, toList_dot] at htext
    exact (isReadable_dotLine.flatMap_inj (List.append_cancel_left htext)).1
  · unfold dot
    rw [h]

end DependencyGraph

end SqlLayout
