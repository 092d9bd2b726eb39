import Worksheet.Sheet
import Worksheet.Proofs.GraphChanges
import Worksheet.Proofs.UpdateOrder

/-! What the walk answers on any graph that changes can build, whether a sheet has it or not. An order
has every node in front of its readers, and there is none exactly if a circle can be reached. -/

namespace Worksheet
open Relation

theorem Sheet.answer_store (sheet : Sheet) (address : Address) (contents : Contents) :
    (sheet.store address contents).1 =
      ((sheet.rewire address contents.reads).graph.updateOrder? address).elim (.error (.circular address)) .ok := by
  have inputs (f : Formula) : (Contents.formula f).reads = f.inputs.toList := rfl
  cases contents with
  | formula f =>
    simp only [store, Contents.formula?, inputs]
    split
    next found => simp only [found, settle, Option.elim_some]
    next missing => simp only [missing, Option.elim_none]
  | empty | number | text =>
    simp only [store, Contents.formula?, Contents.reads]
    split
    next found => simp only [found, settle, Option.elim_some]
    next missing => simp only [missing, Option.elim_none]

section
variable {α : Type} [Ord α] {g h : Graph α}

theorem Walk.step_congr (same : ∀ node, (g.dependents node).toList = (h.dependents node).toList) (w : Walk α) :
    w.step g = w.step h := by
  unfold Walk.step
  simp only [same]

theorem Walk.run_congr (same : ∀ node, (g.dependents node).toList = (h.dependents node).toList) (steps : Nat) (w : Walk α) :
    w.run g steps = w.run h steps := by
  induction steps generalizing w with
  | zero => rfl
  | succ steps ih => simp only [Walk.run, Walk.step_congr same, ih]

theorem Graph.Same.updateOrder?_eq (same : g.Same h) (node : α) : g.updateOrder? node = h.updateOrder? node := by
  have start : Walk.start g node = Walk.start h node := by rw [Walk.start, Walk.start, same.dependents]
  unfold Graph.updateOrder?
  rw [start, Graph.walkSteps, Graph.walkSteps, same.size, Walk.run_congr same.dependents]

end

namespace Graph

variable {α : Type} [Ord α] {g : Graph α}

theorem Ordered.idxOf_lt [DecidableEq α] {nodes : List α} (ordered : g.Ordered nodes) (nodup : nodes.Nodup)
    {node next : α} (member : node ∈ nodes) (edge : g.Edge node next) : nodes.idxOf node < nodes.idxOf next := by
  induction nodes with
  | nil => cases member
  | cons first rest ih =>
    rw [List.nodup_cons] at nodup
    have apart {other : α} (listed : other ∈ rest) : first ≠ other := fun same => nodup.1 (same ▸ listed)
    rcases List.mem_cons.mp member with rfl | inside
    · rw [List.idxOf_cons_self, List.idxOf_cons_ne _ (apart (ordered.1 next edge))]
      exact Nat.succ_pos _
    · rw [List.idxOf_cons_ne _ (apart inside), List.idxOf_cons_ne _ (apart (ordered.2.next inside edge))]
      exact Nat.succ_lt_succ (ih ordered.2 nodup.2 inside)

/-- Nodes in a ring, each read by the next one and the last by the first. -/
def Ring (g : Graph α) (first : α) (rest : List α) : Prop := (first :: (rest ++ [first])).IsChain g.Edge

theorem transGen_iff_exists_isChain {β : Type} {edge : β → β → Prop} {first last : β} :
    TransGen edge first last ↔ ∃ between, (first :: (between ++ [last])).IsChain edge := by
  constructor
  · intro path
    induction path using TransGen.head_induction_on with
    | single step => exact ⟨[], List.isChain_pair.mpr step⟩
    | @head first next step _ ih =>
      obtain ⟨between, chain⟩ := ih
      exact ⟨next :: between, List.isChain_cons_cons.mpr ⟨step, chain⟩⟩
  · rintro ⟨between, chain⟩
    induction between generalizing first with
    | nil => exact .single (List.isChain_pair.mp chain)
    | cons next between ih =>
      obtain ⟨step, chain⟩ := List.isChain_cons_cons.mp chain
      exact .head step (ih chain)

/-- A ring can be entered at any of its nodes. -/
theorem Ring.circle {first node : α} {rest : List α} (ring : g.Ring first rest) (member : node ∈ first :: rest) :
    TransGen g.Edge node node := by
  obtain ⟨front, back, whole⟩ := List.append_of_mem member
  rw [Ring, ← List.cons_append, whole, List.append_assoc, List.cons_append, List.isChain_split] at ring
  -- The rest of the ring leads from the node to its first node, and what stands before the node leads back.
  have onward : TransGen g.Edge node first := transGen_iff_exists_isChain.mpr ⟨back, ring.2⟩
  cases front with
  | nil =>
    obtain ⟨rfl, _⟩ := List.cons.inj whole
    exact onward
  | cons start front =>
    obtain ⟨rfl, _⟩ := List.cons.inj whole
    exact onward.trans (transGen_iff_exists_isChain.mpr ⟨front, ring.1⟩)

theorem circle_of_through {start node : α} (through : ∀ first rest, g.Ring first rest → start ∈ first :: rest)
    (circle : TransGen g.Edge node node) : TransGen g.Edge start start := by
  obtain ⟨rest, ring⟩ := transGen_iff_exists_isChain.mp circle
  exact Ring.circle ring (through node rest ring)

variable [Std.TransOrd α] [Std.LawfulEqOrd α] [DecidableEq α]

/-- An order lists what can be reached from its start, once each, and every reader behind what it reads. -/
theorem order_of_updateOrder? {changes : List (Change α)} {start : α} {order : List α}
    (found : (ofChanges changes).updateOrder? start = some order) :
    order.head? = some start ∧ order.Nodup ∧
    (∀ node, node ∈ order ↔ ReflTransGen (ofChanges changes).Edge start node) ∧
    ∀ node reader, (ofChanges changes).Edge node reader → node ∈ order →
      reader ∈ order ∧ order.idxOf node < order.idxOf reader := by
  rcases updateOrder?_cases (represents_ofChanges changes) start with ⟨answer, same, valid⟩ | ⟨same, _⟩
  · rw [same] at found
    obtain rfl := Option.some.inj found
    refine ⟨valid.head, valid.nodup, valid.members, fun node reader edge member => ?_⟩
    exact ⟨valid.ordered.next member edge, valid.ordered.idxOf_lt valid.nodup member edge⟩
  · rw [same] at found
    cases found

private def cell (letter : Char) (upper : letter.isUpper = true := by rfl) : Address :=
  ⟨.ofList [letter, '1'], [letter], ['1'], String.toList_ofList, List.cons_ne_nil _ _, List.cons_ne_nil _ _,
    List.forall_mem_singleton.mpr upper, List.forall_mem_singleton.mpr rfl⟩

-- Two ways lead to the same cell, an edge has been taken away again, and a circle stands apart.
private def crossing : List (Change Address) := [.setDependents (cell 'A') [cell 'B', cell 'C', cell 'E'],
  .insert (cell 'E') (cell 'E'), .setPrecedents (cell 'D') [cell 'C', cell 'B', cell 'C'], .erase (cell 'A') (cell 'E')]

theorem order_of_crossing :
    (ofChanges crossing).updateOrder? (cell 'A') = some [cell 'A', cell 'C', cell 'B', cell 'D'] ∧
    ∀ node, node ∈ [cell 'A', cell 'C', cell 'B', cell 'D'] ↔ ReflTransGen (ofChanges crossing).Edge (cell 'A') node := by
  have found : (ofChanges crossing).updateOrder? (cell 'A') = some [cell 'A', cell 'C', cell 'B', cell 'D'] := by
    decide +kernel
  exact ⟨found, (order_of_updateOrder? found).2.2.1⟩

/-- The walk ends on every graph. It gives up exactly where it can reach a circle, and if all circles run
through its start, exactly where the start is on one. -/
theorem no_order_iff_circle (changes : List (Change Address)) (start : Address) :
    (∀ steps, (ofChanges changes).walkSteps ≤ steps →
      ((Walk.start (ofChanges changes) start).run (ofChanges changes) steps).isOver = true) ∧
    ((ofChanges changes).updateOrder? start = none ↔
      ∃ node, ReflTransGen (ofChanges changes).Edge start node ∧ TransGen (ofChanges changes).Edge node node) ∧
    (∀ (sheet : Sheet) (contents : Contents), (sheet.store start contents).1 =
      ((sheet.rewire start contents.reads).graph.updateOrder? start).elim (.error (.circular start)) .ok) ∧
    ((∀ first rest, (ofChanges changes).Ring first rest → start ∈ first :: rest) →
      ((ofChanges changes).updateOrder? start = none ↔ TransGen (ofChanges changes).Edge start start)) := by
  have represents := represents_ofChanges changes
  refine ⟨?_, updateOrder?_eq_none_iff represents start, fun sheet => sheet.answer_store start, fun through => ?_⟩
  · intro steps enough
    exact Walk.over_run represents (Walk.Valid.start _ start) ((Walk.work_start represents start).trans enough)
  · rw [updateOrder?_eq_none_iff represents]
    constructor
    · rintro ⟨node, _, circle⟩
      exact circle_of_through through circle
    · exact fun circle => ⟨start, .refl, circle⟩

private def returning : List (Change Address) :=
  [.insert (cell 'A') (cell 'B'), .insert (cell 'B') (cell 'A'), .insert (cell 'B') (cell 'C')]

theorem no_order_of_returning : (∀ first rest, (ofChanges returning).Ring first rest → cell 'A' ∈ first :: rest) ∧
    (ofChanges returning).updateOrder? (cell 'A') = none := by
  have edge {node next : Address} : (ofChanges returning).Edge node next ↔
      node = cell 'B' ∧ next = cell 'C' ∨ node = cell 'B' ∧ next = cell 'A' ∨ node = cell 'A' ∧ next = cell 'B' := by
    rw [Edge, (represents_ofChanges returning).dependents]
    simp [edgesAfter, returning, Change.applied]
  have distinct : cell 'A' ≠ cell 'B' ∧ cell 'B' ≠ cell 'C' ∧ cell 'C' ≠ cell 'A' := by decide +kernel
  have unread (next : Address) : ¬ (ofChanges returning).Edge (cell 'C') next := by
    simp [edge, distinct.2.1.symm, distinct.2.2]
  have through (first : Address) (rest : List Address) (ring : (ofChanges returning).Ring first rest) :
      cell 'A' ∈ first :: rest := by
    cases rest with
    | nil =>
      rcases edge.mp (List.isChain_pair.mp ring) with ⟨rfl, same⟩ | ⟨rfl, same⟩ | ⟨rfl, _⟩
      · exact absurd same distinct.2.1
      · exact absurd same.symm distinct.1
      · exact List.mem_cons_self
    | cons second rest =>
      obtain ⟨step, later⟩ := List.isChain_cons_cons.mp ring
      rcases edge.mp step with ⟨_, rfl⟩ | ⟨_, rfl⟩ | ⟨rfl, _⟩
      -- Nothing reads the third cell, so no ring goes on from there.
      · obtain ⟨next, onward, _⟩ := TransGen.head'_iff.mp (transGen_iff_exists_isChain.mpr ⟨rest, later⟩)
        exact absurd onward (unread next)
      · exact List.mem_cons_of_mem _ List.mem_cons_self
      · exact List.mem_cons_self
  refine ⟨through, ((no_order_iff_circle returning (cell 'A')).2.2.2 through).mpr ?_⟩
  have forth : (ofChanges returning).Edge (cell 'A') (cell 'B') := edge.mpr (Or.inr (Or.inr ⟨rfl, rfl⟩))
  have back : (ofChanges returning).Edge (cell 'B') (cell 'A') := edge.mpr (Or.inr (Or.inl ⟨rfl, rfl⟩))
  exact .head forth (.single back)

end Graph
end Worksheet
