import Worksheet.Proofs.UpdateOrder

/-! New edges into one node of a graph without circles. They close a circle exactly when the node
already leads to one of its new precedents, and then every circle runs through the node, so
looking for circles from that node alone is enough. -/

namespace Worksheet.Graph
open Relation

variable {α : Type} [Ord α] {g : Graph α}

def Acyclic (g : Graph α) : Prop := ∀ node, ¬ TransGen g.Edge node node

/-- Where a node leads does not depend on the edges into it, since a path can leave out every way
back to its start. -/
theorem reaches_congr {β : Type} {edge other : β → β → Prop} {first last : β}
    (agree : ∀ a b, b ≠ first → edge a b → other a b) (reaches : ReflTransGen edge first last) :
    ReflTransGen other first last := by
  induction reaches with
  | refl => exact .refl
  | @tail a b _ step ih =>
    by_cases back : b = first
    · rw [back]
    · exact ih.tail (agree a b back step)

variable {edges : Finset (α × α)} {node : α} {nodes : List α}

theorem Represents.edge_eq {h : Graph α} (left : g.Represents edges) (right : h.Represents edges) :
    g.Edge = h.Edge := by
  funext a b
  exact propext ((left.dependents a b).trans (right.dependents a b).symm)

variable [Std.TransOrd α] [Std.LawfulEqOrd α] [DecidableEq α]

theorem edge_setPrecedents (represents : g.Represents edges) {a b : α} :
    (g.setPrecedents node nodes).Edge a b ↔ if b = node then a ∈ nodes else g.Edge a b := by
  rw [Edge, (represents.setPrecedents node nodes).dependents, Edge, represents.dependents]
  simp only [Finset.mem_union, Finset.mem_filter, Finset.mem_image, List.mem_toFinset, Prod.mk.injEq]
  grind

/-- A path of the new graph is one of the old graph, or it comes to the node through one of its new
precedents, which it reaches by old edges. -/
theorem path_of_setPrecedents (represents : g.Represents edges) {a b : α}
    (path : TransGen (g.setPrecedents node nodes).Edge a b) :
    TransGen g.Edge a b ∨
      (∃ precedent ∈ nodes, ReflTransGen g.Edge a precedent) ∧ ReflTransGen (g.setPrecedents node nodes).Edge node b := by
  induction path with
  | @single b edge =>
    have known := (edge_setPrecedents represents).mp edge
    split at known
    next same => exact Or.inr ⟨⟨a, known, .refl⟩, same ▸ .refl⟩
    next => exact Or.inl (.single known)
  | @tail b c _ edge ih =>
    have known := (edge_setPrecedents represents).mp edge
    split at known
    next same =>
      refine Or.inr ⟨?_, same ▸ .refl⟩
      rcases ih with old | ⟨through, _⟩
      · exact ⟨b, known, old.to_reflTransGen⟩
      · exact through
    next =>
      rcases ih with old | ⟨through, path⟩
      · exact Or.inl (old.tail known)
      · exact Or.inr ⟨through, path.tail edge⟩

theorem reaches_of_circle (represents : g.Represents edges) (acyclic : g.Acyclic) {other : α}
    (circle : TransGen (g.setPrecedents node nodes).Edge other other) :
    ∃ precedent ∈ nodes, ReflTransGen g.Edge node precedent := by
  rcases path_of_setPrecedents represents circle with old | ⟨⟨precedent, member, onward⟩, path⟩
  · exact absurd old (acyclic other)
  rcases reflTransGen_iff_eq_or_transGen.mp path with rfl | path
  · exact ⟨precedent, member, onward⟩
  rcases path_of_setPrecedents represents path with old | ⟨through, _⟩
  · exact ⟨precedent, member, old.to_reflTransGen.trans onward⟩
  · exact through

theorem circle_of_reaches (represents : g.Represents edges) {precedent : α}
    (member : precedent ∈ nodes) (reaches : ReflTransGen g.Edge node precedent) :
    TransGen (g.setPrecedents node nodes).Edge node node := by
  have still : ReflTransGen (g.setPrecedents node nodes).Edge node precedent := by
    apply reaches_congr _ reaches
    intro a b different edge
    exact (edge_setPrecedents represents).mpr (by rwa [if_neg different])
  exact TransGen.tail' still ((edge_setPrecedents represents).mpr (by rwa [if_pos rfl]))

theorem acyclic_setPrecedents_iff (represents : g.Represents edges) (acyclic : g.Acyclic) :
    (g.setPrecedents node nodes).Acyclic ↔ ∀ precedent ∈ nodes, ¬ ReflTransGen g.Edge node precedent := by
  constructor
  · intro straight precedent member reaches
    exact straight node (circle_of_reaches represents member reaches)
  · intro apart other circle
    obtain ⟨precedent, member, reaches⟩ := reaches_of_circle represents acyclic circle
    exact apart precedent member reaches

/-- The walk from the node gives up exactly if the new graph has a circle anywhere. -/
theorem updateOrder?_setPrecedents_eq_none_iff (represents : g.Represents edges) (acyclic : g.Acyclic)
    (node : α) (nodes : List α) :
    (g.setPrecedents node nodes).updateOrder? node = none ↔
      ∃ precedent ∈ nodes, ReflTransGen g.Edge node precedent := by
  rw [updateOrder?_eq_none_iff (represents.setPrecedents node nodes)]
  constructor
  · rintro ⟨other, _, circle⟩
    exact reaches_of_circle represents acyclic circle
  · rintro ⟨precedent, member, reaches⟩
    exact ⟨node, .refl, circle_of_reaches represents member reaches⟩

end Worksheet.Graph
