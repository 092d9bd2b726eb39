import Worksheet.Graph.Change
import Worksheet.Proofs.GraphEdges

/-! Changing a graph is changing the set of its edges. A set knows no indexes and no counter, so after
any changes the graph can be asked about through the set that the same changes give. -/

namespace Worksheet.Graph

variable {α : Type} [Ord α] [DecidableEq α]

def Change.applied (edges : Finset (α × α)) : Change α → Finset (α × α)
  | .insert a b => Insert.insert (a, b) edges
  | .erase a b => edges.erase (a, b)
  | .setDependents node dependents => (edges.filter fun edge => edge.1 ≠ node) ∪ dependents.toFinset.image (node, ·)
  | .setPrecedents node precedents => (edges.filter fun edge => edge.2 ≠ node) ∪ precedents.toFinset.image (·, node)
  | .clear => ∅

def edgesAfter (changes : List (Change α)) : Finset (α × α) := changes.foldl Change.applied ∅

variable [Std.TransOrd α] [Std.LawfulEqOrd α] {g : Graph α} {edges : Finset (α × α)}

theorem Represents.change (represents : g.Represents edges) (change : Change α) :
    (g.change change).Represents (change.applied edges) := by
  cases change with
  | insert a b => exact represents.insert a b
  | erase a b => exact represents.erase a b
  | setDependents node dependents => exact represents.setDependents node dependents
  | setPrecedents node precedents => exact represents.setPrecedents node precedents
  | clear => exact .empty

theorem Represents.changes (represents : g.Represents edges) (changes : List (Change α)) :
    (changes.foldl Graph.change g).Represents (changes.foldl Change.applied edges) := by
  induction changes generalizing g edges with
  | nil => exact represents
  | cons change changes ih => exact ih (represents.change change)

theorem represents_ofChanges (changes : List (Change α)) : (ofChanges changes).Represents (edgesAfter changes) :=
  Represents.empty.changes changes

structure Answers (g : Graph α) (edges : Finset (α × α)) : Prop where
  contains : ∀ a b, g.contains a b = true ↔ (a, b) ∈ edges
  dependents : ∀ a b, b ∈ g.dependents a ↔ (a, b) ∈ edges
  precedents : ∀ a b, a ∈ g.precedents b ↔ (a, b) ∈ edges
  hasDependents : ∀ a, g.hasDependents a = true ↔ ∃ b, b ∈ g.dependents a
  hasPrecedents : ∀ b, g.hasPrecedents b = true ↔ ∃ a, a ∈ g.precedents b
  size : g.size = edges.card
  isEmpty : g.isEmpty = true ↔ edges = ∅

/-- Taking edges away counts down by as many as there were, so the counter never has to stop at zero. -/
structure CountsDown (g : Graph α) : Prop where
  erase : ∀ a b, (g.erase a b).size + (if g.contains a b then 1 else 0) = g.size
  clearDependents : ∀ node, (g.clearDependents node).size + (g.dependents node).size = g.size
  clearPrecedents : ∀ node, (g.clearPrecedents node).size + (g.precedents node).size = g.size

omit [Std.LawfulEqOrd α] [DecidableEq α] in
theorem Represents.answers (represents : g.Represents edges) : g.Answers edges where
  contains a b := contains_eq_true.trans (represents.dependents a b)
  dependents := represents.dependents
  precedents := represents.precedents
  hasDependents a := represents.dependentsPruned.contains a
  hasPrecedents b := represents.precedentsPruned.contains b
  size := represents.size
  isEmpty := by rw [Graph.isEmpty, beq_iff_eq, represents.size, Finset.card_eq_zero]

/-- What is left has been counted, and what is taken away are the edges of one node. -/
theorem Represents.countsDown (represents : g.Represents edges) : g.CountsDown := by
  constructor
  case erase =>
    intro a b
    rw [(represents.erase a b).size, represents.size]
    split
    next present =>
      rw [contains_eq_true, represents.dependents] at present
      exact Finset.card_erase_add_one present
    next absent =>
      rw [contains_eq_true, represents.dependents] at absent
      rw [Finset.erase_eq_of_notMem absent, Nat.add_zero]
  case clearDependents =>
    intro node
    rw [(represents.clearDependents node).size, ← represents.card_from, represents.size, Nat.add_comm]
    exact Finset.card_filter_add_card_filter_not _
  case clearPrecedents =>
    intro node
    rw [(represents.clearPrecedents node).size, ← represents.card_into, represents.size, Nat.add_comm]
    exact Finset.card_filter_add_card_filter_not _

/-- After any changes the graph answers for the set that the same changes give, and the next change can
count down all that it takes away. Every beginning of a run is a run, so this holds at each step. -/
theorem answers_of_changes (changes : List (Change α)) :
    (ofChanges changes).Answers (edgesAfter changes) ∧ (ofChanges changes).CountsDown :=
  have represents := represents_ofChanges changes
  ⟨represents.answers, represents.countsDown⟩

-- Names come twice, a node reads itself, and an edge that is not there is taken away.
private def shared : List (Change String) := [.insert "a" "b", .insert "b" "b", .setDependents "a" ["c", "b", "c"],
  .setPrecedents "b" ["b", "d", "d"], .erase "a" "b", .setDependents "e" ["a"], .setDependents "e" []]

theorem answers_of_shared : edgesAfter shared = {("a", "c"), ("b", "b"), ("d", "b")} ∧
    (ofChanges shared).Answers {("a", "c"), ("b", "b"), ("d", "b")} ∧ (ofChanges shared).CountsDown := by
  have edges : edgesAfter shared = {("a", "c"), ("b", "b"), ("d", "b")} := by decide
  have answers := answers_of_changes shared
  rw [edges] at answers
  exact ⟨edges, answers⟩

end Worksheet.Graph
