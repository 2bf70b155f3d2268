import SqlLayout.Proofs.Syntax.Level
import SqlLayout.Proofs.Syntax.Place

/-!
# A Walk Is a Tour

A walk of a tree that goes into everything comes once to every place of the tree, and to no place before the
places on the way to it. One node is a matter of its slots: the walk enters each node inside it by a step of
its own. The rest is the same for all trees, the tours of the nodes inside put one after the other.
-/

namespace SqlLayout

namespace Node

/-- The nodes of a tree one for one with their places, every place once and each before the places below
it. -/
structure IsTour (root : Node) (places : List Place) (nodes : List Node) : Prop where
  nodup : places.Nodup
  mem_iff (place : Place) : place ∈ places ↔ (root.at? place).isSome
  visits : List.Forall₂ (fun place node => root.at? place = some node) places nodes
  outward : places.Pairwise fun earlier later => ¬later <+: earlier

/-- The part of a tour that starts with some of the steps from the root. -/
structure IsTourBelow (root : Node) (steps : List Step) (places : List Place) (nodes : List Node) : Prop where
  nodup : places.Nodup
  mem_iff (place : Place) :
    place ∈ places ↔ (∃ step ∈ steps, place.head? = some step) ∧ (root.at? place).isSome
  visits : List.Forall₂ (fun place node => root.at? place = some node) places nodes
  outward : places.Pairwise fun earlier later => ¬later <+: earlier

variable {root child : Node} {step : Step} {steps : List Step} {places inner : List Place}
  {nodes innerNodes : List Node}

theorem at?_cons (hstep : root.step? step = some child) (place : Place) :
    root.at? (step :: place) = child.at? place := by
  rw [at?, hstep, Option.bind_some]

theorem isTourBelow_nil (root : Node) : root.IsTourBelow [] [] [] :=
  ⟨.nil, by simp, .nil, .nil⟩

theorem IsTourBelow.cons (h : root.IsTourBelow steps places nodes) (hstep : root.step? step = some child)
    (hnew : step ∉ steps) (hinner : child.IsTour inner innerNodes) :
    root.IsTourBelow (step :: steps) (inner.map (step :: ·) ++ places) (innerNodes ++ nodes) := by
  -- Nothing that is toured already starts with the new step.
  have hhead {place : Place} (hplace : place ∈ places) : place.head? ≠ some step := by
    obtain ⟨⟨other, hother, heq⟩, -⟩ := (h.mem_iff place).mp hplace
    intro hsome
    rw [heq] at hsome
    cases hsome
    exact hnew hother
  refine ⟨?_, fun place => ?_, ?_, ?_⟩
  · refine List.nodup_append.mpr ⟨?_, h.nodup, ?_⟩
    · exact hinner.nodup.map fun _ _ heq => (List.cons.inj heq).2
    · rintro place hplace _ hother rfl
      obtain ⟨rest, -, rfl⟩ := List.mem_map.mp hplace
      exact hhead hother rfl
  · rw [List.mem_append, List.mem_map, h.mem_iff]
    constructor
    · rintro (⟨rest, hrest, rfl⟩ | ⟨⟨other, hother, heq⟩, hsome⟩)
      · exact ⟨⟨step, List.mem_cons_self, rfl⟩, at?_cons hstep rest ▸ (hinner.mem_iff rest).mp hrest⟩
      · exact ⟨⟨other, List.mem_cons_of_mem _ hother, heq⟩, hsome⟩
    · rintro ⟨⟨other, hother, heq⟩, hsome⟩
      rcases List.mem_cons.mp hother with rfl | hother
      · obtain ⟨rest, rfl⟩ := List.head?_eq_some_iff.mp heq
        rw [at?_cons hstep] at hsome
        exact .inl ⟨rest, (hinner.mem_iff rest).mpr hsome, rfl⟩
      · exact .inr ⟨⟨other, hother, heq⟩, hsome⟩
  · refine List.rel_append ?_ h.visits
    rw [List.forall₂_map_left_iff]
    exact hinner.visits.imp fun rest _ hrest => (at?_cons hstep rest).trans hrest
  · refine List.pairwise_append.mpr ⟨?_, h.outward, ?_⟩
    · rw [List.pairwise_map]
      exact hinner.outward.imp fun hnot hprefix => hnot (List.cons_prefix_cons.mp hprefix).2
    · rintro _ hplace later hlater hprefix
      obtain ⟨rest, -, rfl⟩ := List.mem_map.mp hplace
      obtain ⟨⟨other, -, heq⟩, -⟩ := (h.mem_iff later).mp hlater
      obtain ⟨tail, rfl⟩ := List.head?_eq_some_iff.mp heq
      obtain ⟨rfl, -⟩ := List.cons_prefix_cons.mp hprefix
      exact hhead hlater rfl

theorem exists_isTourBelow {children : List Node}
    (hleads : List.Forall₂ (fun step child => root.step? step = some child) steps children)
    (hnodup : steps.Nodup) (hchildren : ∀ child ∈ children, ∃ places, child.IsTour places child.all) :
    ∃ places, root.IsTourBelow steps places (children.flatMap all) := by
  induction hleads with
  | nil => exact ⟨[], isTourBelow_nil root⟩
  | @cons step child steps children hstep _ ih =>
    obtain ⟨hnew, hnodup⟩ := List.nodup_cons.mp hnodup
    obtain ⟨places, hplaces⟩ :=
      ih hnodup fun other hother => hchildren other (List.mem_cons_of_mem _ hother)
    obtain ⟨inner, hinner⟩ := hchildren child List.mem_cons_self
    exact ⟨_, hplaces.cons hstep hnew hinner⟩

/-- The root comes before the nodes below it. -/
theorem IsTourBelow.isTour (h : root.IsTourBelow steps places nodes)
    (hsteps : ∀ step, step ∈ steps ↔ (root.step? step).isSome) :
    root.IsTour ([] :: places) (root :: nodes) := by
  have hne {place : Place} (hplace : place ∈ places) : place ≠ [] := by
    rintro rfl
    obtain ⟨⟨step, -, heq⟩, -⟩ := (h.mem_iff []).mp hplace
    cases heq
  have hfirst : ∀ later ∈ places, ¬later <+: [] :=
    fun later hlater hprefix => hne hlater (List.prefix_nil.mp hprefix)
  refine ⟨?_, fun place => ?_, .cons rfl h.visits, List.pairwise_cons.mpr ⟨hfirst, h.outward⟩⟩
  · exact List.nodup_cons.mpr ⟨fun hmem => hne hmem rfl, h.nodup⟩
  · rw [List.mem_cons, h.mem_iff]
    cases place with
    | nil => simp [at?]
    | cons step rest =>
      simp only [reduceCtorEq, List.head?_cons, Option.some.injEq, exists_eq_right', hsteps, false_or,
        and_iff_right_iff_imp]
      intro hsome
      obtain ⟨node, hnode⟩ := Option.isSome_iff_exists.mp hsome
      obtain ⟨child, hchild, -⟩ := Option.bind_eq_some_iff.mp hnode
      exact Option.isSome_of_eq_some hchild

theorem exists_isTour (node : Node) : ∃ places, node.IsTour places node.all := by
  obtain ⟨steps, hsteps⟩ := node.exists_isEnteredBy
  have hchildren : ∀ child ∈ node.children, ∃ places, child.IsTour places child.all :=
    fun child hchild => exists_isTour child
  obtain ⟨places, hplaces⟩ := exists_isTourBelow hsteps.leads hsteps.nodup hchildren
  rw [all_eq]
  exact ⟨_, hplaces.isTour hsteps.mem_iff⟩
termination_by sizeOf node
decreasing_by exact sizeOf_lt_of_mem_children hchild

end Node

/-- A walk of a script comes to every node of it once, and to what stands inside a node after the node. -/
theorem Script.exists_isTour_nodes (script : Script) :
    ∃ places, (Node.script script).IsTour places script.nodes :=
  (Node.script script).exists_isTour

end SqlLayout
