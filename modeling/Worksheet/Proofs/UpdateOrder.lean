import Worksheet.Proofs.WalkInvariant

/-! The walk always comes to its end within its steps. Where no circle can be reached it lists the
node with everything that reads it, each before its own readers, and it gives up only on a circle. -/

namespace Worksheet
open Relation

variable {α : Type} [Ord α] {g : Graph α} {edges : Finset (α × α)}

namespace Graph

theorem Ordered.next {nodes : List α} (ordered : g.Ordered nodes) {node next : α} (member : node ∈ nodes)
    (edge : g.Edge node next) : next ∈ nodes := by
  induction nodes with
  | nil => cases member
  | cons first rest ih =>
    rcases List.mem_cons.mp member with rfl | inside
    · exact List.mem_cons_of_mem _ (ordered.1 next edge)
    · exact List.mem_cons_of_mem _ (ih ordered.2 inside)

theorem Ordered.closed {nodes : List α} (ordered : g.Ordered nodes) {node last : α} (member : node ∈ nodes)
    (reaches : ReflTransGen g.Edge node last) : last ∈ nodes := by
  induction reaches with
  | refl => exact member
  | tail _ edge inside => exact ordered.next inside edge

/-- No listed node lies on a circle, since it would have to stand behind itself. -/
theorem Ordered.acyclic {nodes : List α} (ordered : g.Ordered nodes) (nodup : nodes.Nodup) {node : α}
    (member : node ∈ nodes) : ¬ TransGen g.Edge node node := by
  induction nodes with
  | nil => cases member
  | cons first rest ih =>
    rw [List.nodup_cons] at nodup
    intro circle
    rcases List.mem_cons.mp member with rfl | inside
    · obtain ⟨next, edge, back⟩ := TransGen.head'_iff.mp circle
      exact nodup.1 (ordered.2.closed (ordered.1 next edge) back)
    · exact ih ordered.2 nodup.2 inside circle

structure UpdateOrder (g : Graph α) (node : α) (order : List α) : Prop where
  head : order.head? = some node
  nodup : order.Nodup
  members : ∀ other, other ∈ order ↔ ReflTransGen g.Edge node other
  ordered : g.Ordered order

end Graph

namespace Walk

variable [Std.TransOrd α] [Std.LawfulEqOrd α] [DecidableEq α]

def unmet (edges : Finset (α × α)) (marks : Std.TreeMap α Mark) : Finset (α × α) :=
  edges.filter fun edge => edge.1 ∉ marks

/-- What is still to be done at most: an edge of a node that has not been met can cost a step to
look at and another to finish the node behind it. -/
def work (edges : Finset (α × α)) (w : Walk α) : Nat :=
  2 * (unmet edges w.marks).card + (w.stack.map fun frame => 2 * frame.2.length + 1).sum

/-- Marking a new node moves its edges from those of the nodes not met to the stack. -/
private theorem card_unmet {marks : Std.TreeMap α Mark} (represents : g.Represents edges) (node : α)
    (fresh : node ∉ marks) (mark : Mark) :
    (unmet edges (marks.insert node mark)).card + (g.dependents node).toList.length = (unmet edges marks).card := by
  have split := Finset.card_filter_add_card_filter_not (s := unmet edges marks) (fun edge => edge.1 = node)
  rw [← split, Std.TreeSet.length_toList, ← represents.card_from, Nat.add_comm]
  congr 2
  all_goals
    ext edge
    simp only [unmet, Finset.mem_filter, Std.TreeMap.mem_insert, Std.compare_eq_iff_eq]
    grind

private theorem unmet_of_mem {marks : Std.TreeMap α Mark} {node : α} (present : node ∈ marks) (mark : Mark) :
    unmet edges (marks.insert node mark) = unmet edges marks := by
  ext edge
  simp only [unmet, Finset.mem_filter, Std.TreeMap.mem_insert, Std.compare_eq_iff_eq]
  grind

theorem work_start (represents : g.Represents edges) (node : α) :
    (Walk.start g node).work edges ≤ g.walkSteps := by
  have all : unmet edges ∅ = edges := by simp [unmet]
  have count := card_unmet represents node Std.TreeMap.not_mem_emptyc .entered
  rw [all, ← represents.size] at count
  simp only [work, Walk.start, List.map_cons, List.map_nil, List.sum_cons, List.sum_nil, Graph.walkSteps]
  omega

theorem work_step {first : α} {w : Walk α} (represents : g.Represents edges) (valid : Valid g first w)
    (under : w.isOver = false) : (w.step g).looped = true ∨ (w.step g).work edges < w.work edges := by
  rw [isOver, Bool.or_eq_false_iff] at under
  unfold Walk.step
  split
  next empty => simp [empty] at under
  next node below present =>
    have met : node ∈ w.marks := by
      rw [Std.TreeMap.mem_iff_isSome_getElem?, (valid.entered node).mpr (by simp [path, present])]
      rfl
    refine Or.inr ?_
    simp only [work, present, unmet_of_mem met, List.map_cons, List.sum_cons]
    omega
  next node next rest below present =>
    split
    next => exact Or.inl rfl
    next =>
      refine Or.inr ?_
      simp only [work, present, List.map_cons, List.sum_cons, List.length_cons]
      omega
    next fresh =>
      have absent : next ∉ w.marks := by
        rw [Std.TreeMap.mem_iff_isSome_getElem?, fresh]
        simp
      have count := card_unmet represents next absent .entered
      refine Or.inr ?_
      simp only [work, present, List.map_cons, List.sum_cons, List.length_cons]
      omega

theorem over_run {first : α} {w : Walk α} {steps : Nat} (represents : g.Represents edges) (valid : Valid g first w)
    (enough : w.work edges ≤ steps) : (w.run g steps).isOver = true := by
  induction steps generalizing w with
  | zero =>
    cases stack : w.stack with
    | nil => simp [Walk.run, isOver, stack]
    | cons frame below =>
      simp only [work, stack, List.map_cons, List.sum_cons] at enough
      omega
  | succ steps ih =>
    unfold Walk.run
    split
    next ended => exact ended
    next under =>
      rcases work_step represents valid (Bool.eq_false_iff.mpr under) with looped | less
      · have ended : (w.step g).isOver = true := by simp [isOver, looped]
        cases steps <;> simp [Walk.run, ended]
      · exact ih valid.step (by omega)

end Walk

namespace Graph

variable [Std.TransOrd α] [Std.LawfulEqOrd α] [DecidableEq α]

theorem updateOrder?_cases (represents : g.Represents edges) (node : α) :
    (∃ order, g.updateOrder? node = some order ∧ g.UpdateOrder node order) ∨
      g.updateOrder? node = none ∧ ∃ other, ReflTransGen g.Edge node other ∧ TransGen g.Edge other other := by
  have valid := (Walk.Valid.start g node).run g.walkSteps
  have ended := Walk.over_run represents (Walk.Valid.start g node) (Walk.work_start represents node)
  simp only [updateOrder?]
  generalize (Walk.start g node).run g g.walkSteps = w at valid ended
  split
  next looped => exact Or.inr ⟨rfl, valid.circle looped⟩
  next straight =>
    have empty : w.path = [] := by simpa [Walk.isOver, straight, Walk.path] using ended
    have head : w.finished.head? = some node := by simpa [empty] using valid.bottom
    refine Or.inl ⟨w.finished, rfl, head, valid.finishedNodup, fun other => ⟨?_, ?_⟩, valid.ordered⟩
    · exact fun member => valid.reached other (Or.inr member)
    · exact valid.ordered.closed (List.mem_of_mem_head? head)

theorem updateOrder?_eq_none_iff (represents : g.Represents edges) (node : α) :
    g.updateOrder? node = none ↔ ∃ other, ReflTransGen g.Edge node other ∧ TransGen g.Edge other other := by
  rcases updateOrder?_cases represents node with ⟨order, found, valid⟩ | ⟨found, circle⟩
  · simp only [found, reduceCtorEq, false_iff]
    rintro ⟨other, reaches, circle⟩
    exact valid.ordered.acyclic valid.nodup ((valid.members other).mpr reaches) circle
  · simp only [found, true_iff]
    exact circle

end Graph
end Worksheet
