import Mathlib.Data.Set.Card
import Worksheet.Proofs.GraphChanges
import Worksheet.Proofs.UpdateOrder

/-! What the steps of a walk have done so far. Every node on the stack and every finished one has been
entered, their edges have been looked at or are still ahead, and nothing comes twice in either account.
So a walk takes no more steps than there are nodes and edges to be reached. -/

namespace Worksheet
open Relation

variable {α : Type} [Ord α]

namespace Graph

def reachable (g : Graph α) (first : α) : Set α := {node | ReflTransGen g.Edge first node}

def reachableEdges (g : Graph α) (first : α) : Set (α × α) :=
  {edge | edge.1 ∈ g.reachable first ∧ g.Edge edge.1 edge.2}

/-- The edges of a node in the order in which a walk takes them. -/
def edgesFrom (g : Graph α) (node : α) : List (α × α) := (g.dependents node).toList.map (Prod.mk node)

end Graph

namespace Walk

/-- What one step of a walk does. All but the last look at an edge. -/
inductive Move (α : Type) where
  /-- The node behind the edge is new and goes on the stack. -/
  | enter (node next : α)
  /-- The node behind the edge is finished. -/
  | skip (node next : α)
  /-- The node behind the edge is on the stack, which ends the walk. -/
  | meet (node next : α)
  /-- The node comes off the stack. -/
  | finish (node : α)
deriving DecidableEq

namespace Move

@[simp]
def edge? : Move α → Option (α × α)
  | .enter node next | .skip node next | .meet node next => some (node, next)
  | .finish _ => none

@[simp]
def entered? : Move α → Option α
  | .enter _ next => some next
  | .skip .. | .meet .. | .finish _ => none

@[simp]
def finished? : Move α → Option α
  | .finish node => some node
  | .enter .. | .skip .. | .meet .. => none

omit [Ord α] in
theorem length_eq (moves : List (Move α)) :
    moves.length = (moves.filterMap edge?).length + (moves.filterMap finished?).length := by
  induction moves with
  | nil => rfl
  | cons move moves ih =>
    cases move <;> simp only [List.length_cons, List.filterMap_cons, edge?, finished?, ih] <;> omega

end Move

def move? (w : Walk α) : Option (Move α) :=
  match w.stack with
  | [] => none
  | (node, []) :: _ => some (.finish node)
  | (node, next :: _) :: _ =>
    match w.marks[next]? with
    | some .entered => some (.meet node next)
    | some .finished => some (.skip node next)
    | none => some (.enter node next)

def moves (g : Graph α) : Nat → Walk α → List (Move α)
  | 0, _ => []
  | steps + 1, w => if w.isOver then [] else w.move?.toList ++ moves g steps (w.step g)

/-- The edges of nodes on the stack that have not been looked at. An edge that ends the walk has been. -/
def ahead (w : Walk α) : List (α × α) :=
  let edges := w.stack.flatMap fun frame => frame.2.map (Prod.mk frame.1)
  if w.looped then edges.tail else edges

/-- The moves that have led from the first node to where the walk stands. Edges of nodes that are met
have been looked at or are ahead, each of them once. -/
structure Recorded (g : Graph α) (first : α) (past : List (Move α)) (w : Walk α) : Prop where
  entered : (w.path ++ w.finished).Perm (first :: past.filterMap Move.entered?)
  finished : w.finished = (past.filterMap Move.finished?).reverse
  looked : ((w.path ++ w.finished).flatMap g.edgesFrom).Perm (past.filterMap Move.edge? ++ w.ahead)

variable {g : Graph α} {first node next : α} {rest : List α} {below : List (α × List α)} {past : List (Move α)}
  {w : Walk α}

theorem Recorded.start (g : Graph α) (first : α) : Recorded g first [] (Walk.start g first) := by
  constructor
  case entered => exact .refl _
  case finished => rfl
  case looked => simp [Walk.start, path, ahead, Graph.edgesFrom]

private theorem Recorded.finish (recorded : Recorded g first past w) (present : w.stack = (node, []) :: below)
    (going : w.looped = false) :
    Recorded g first (past ++ [.finish node])
      { w with marks := w.marks.insert node .finished, stack := below, finished := node :: w.finished } := by
  obtain ⟨entered, finished, looked⟩ := recorded
  -- The node goes from the path to the finished ones, and it has no edge ahead.
  have moved : (below.map Prod.fst ++ node :: w.finished).Perm (w.path ++ w.finished) := by
    rw [path, present]
    exact List.perm_middle
  have same : w.ahead = below.flatMap fun frame => frame.2.map (Prod.mk frame.1) := by
    simp [ahead, present, going]
  constructor
  case entered => simpa [path, List.filterMap_cons] using moved.trans entered
  case finished => simp [← finished]
  case looked =>
    rw [same] at looked
    simpa [path, ahead, going, List.filterMap_cons] using (moved.flatMap_right g.edgesFrom).trans looked

private theorem ahead_cons (present : w.stack = (node, next :: rest) :: below) (going : w.looped = false) :
    w.ahead = (node, next) :: (rest.map (Prod.mk node) ++ below.flatMap fun frame => frame.2.map (Prod.mk frame.1)) := by
  simp [ahead, present, going]

private theorem Recorded.skip (recorded : Recorded g first past w) (present : w.stack = (node, next :: rest) :: below)
    (going : w.looped = false) :
    Recorded g first (past ++ [.skip node next]) { w with stack := (node, rest) :: below } := by
  obtain ⟨entered, finished, looked⟩ := recorded
  rw [ahead_cons present going] at looked
  constructor
  case entered => simpa [path, present, List.filterMap_cons] using entered
  case finished => simpa [List.filterMap_cons] using finished
  case looked => simpa [path, present, ahead, going, List.filterMap_cons] using looked

private theorem Recorded.meet (recorded : Recorded g first past w) (present : w.stack = (node, next :: rest) :: below)
    (going : w.looped = false) : Recorded g first (past ++ [.meet node next]) { w with looped := true } := by
  obtain ⟨entered, finished, looked⟩ := recorded
  rw [ahead_cons present going] at looked
  constructor
  case entered => simpa [path, List.filterMap_cons] using entered
  case finished => simpa [List.filterMap_cons] using finished
  case looked => simpa [path, present, ahead, List.filterMap_cons] using looked

private theorem Recorded.enter (recorded : Recorded g first past w) (present : w.stack = (node, next :: rest) :: below)
    (going : w.looped = false) :
    Recorded g first (past ++ [.enter node next]) { w with
      marks := w.marks.insert next .entered
      stack := (next, (g.dependents next).toList) :: (node, rest) :: below } := by
  obtain ⟨entered, finished, looked⟩ := recorded
  rw [ahead_cons present going] at looked
  constructor
  case entered =>
    have longer := (entered.cons next).trans (List.perm_append_singleton next _).symm
    simpa [path, present, List.filterMap_cons] using longer
  case finished => simpa [List.filterMap_cons] using finished
  case looked =>
    rw [List.append_cons] at looked
    have longer := (looked.append_left (g.edgesFrom next)).trans (List.perm_append_comm_assoc _ _ _)
    simpa [path, present, ahead, going, Graph.edgesFrom, List.filterMap_cons] using longer

theorem Recorded.step (recorded : Recorded g first past w) (under : w.isOver = false) :
    Recorded g first (past ++ w.move?.toList) (w.step g) := by
  rw [isOver, Bool.or_eq_false_iff] at under
  unfold Walk.step move?
  cases present : w.stack with
  | nil => simp [present] at under
  | cons frame below =>
    obtain ⟨node, _ | ⟨next, rest⟩⟩ := frame
    · exact recorded.finish present under.1
    · dsimp only
      cases w.marks[next]? with
      | none => exact recorded.enter present under.1
      | some mark =>
        cases mark with
        | entered => exact present ▸ recorded.meet present under.1
        | finished => exact recorded.skip present under.1

theorem Recorded.run (recorded : Recorded g first past w) (steps : Nat) :
    Recorded g first (past ++ w.moves g steps) (w.run g steps) := by
  induction steps generalizing past w with
  | zero => simpa only [moves, Walk.run, List.append_nil] using recorded
  | succ steps ih =>
    unfold moves Walk.run
    split
    next => simpa only [List.append_nil] using recorded
    next under =>
      rw [← List.append_assoc]
      exact ih (recorded.step (Bool.eq_false_iff.mpr under))

theorem recorded_run (g : Graph α) (first : α) (steps : Nat) :
    Recorded g first ((Walk.start g first).moves g steps) ((Walk.start g first).run g steps) :=
  (Recorded.start g first).run steps

theorem length_move? (under : w.isOver = false) : w.move?.toList.length = 1 := by
  rw [isOver, Bool.or_eq_false_iff] at under
  unfold move?
  split
  next empty => simp [empty] at under
  next => rfl
  next => split <;> rfl

theorem isOver_or_length_moves (g : Graph α) (steps : Nat) (w : Walk α) :
    (w.run g steps).isOver = true ∨ (w.moves g steps).length = steps := by
  induction steps generalizing w with
  | zero => exact Or.inr rfl
  | succ steps ih =>
    unfold moves Walk.run
    split
    next ended => exact Or.inl ended
    next under =>
      rw [List.length_append, length_move? (Bool.eq_false_iff.mpr under), Nat.add_comm, Nat.add_right_cancel_iff]
      exact ih (w.step g)

/-- A node is on the stack or finished but never both. -/
theorem Valid.nodup_met (valid : Valid g first w) : (w.path ++ w.finished).Nodup := by
  apply valid.pathNodup.append valid.finishedNodup
  intro node inside done
  have mark := (valid.entered node).mpr inside
  rw [(valid.finished node).mpr done] at mark
  cases mark

theorem Valid.mem_reachable (valid : Valid g first w) (member : node ∈ w.path ++ w.finished) :
    node ∈ g.reachable first :=
  valid.reached node (List.mem_append.mp member)

theorem Recorded.nodup_entered (recorded : Recorded g first past w) (valid : Valid g first w) :
    (first :: past.filterMap Move.entered?).Nodup :=
  recorded.entered.nodup_iff.mp valid.nodup_met

theorem Recorded.mem_reachable (recorded : Recorded g first past w) (valid : Valid g first w)
    (member : node ∈ first :: past.filterMap Move.entered?) : node ∈ g.reachable first :=
  valid.mem_reachable (recorded.entered.mem_iff.mpr member)

variable [Std.TransOrd α] [Std.LawfulEqOrd α]

theorem Recorded.mem_reachableEdges (recorded : Recorded g first past w) (valid : Valid g first w) {edge : α × α}
    (member : edge ∈ past.filterMap Move.edge?) : edge ∈ g.reachableEdges first := by
  obtain ⟨node, met, own⟩ := List.mem_flatMap.mp (recorded.looked.mem_iff.mpr (List.mem_append_left _ member))
  obtain ⟨next, listed, rfl⟩ := List.mem_map.mp own
  exact ⟨valid.mem_reachable met, edge_iff_mem_toList.mpr listed⟩

theorem nodup_edgesFrom {nodes : List α} (nodup : nodes.Nodup) : (nodes.flatMap g.edgesFrom).Nodup := by
  rw [List.nodup_flatMap]
  constructor
  · intro node _
    exact (Graph.nodup_toList _).map (Prod.mk_right_injective node)
  · apply nodup.imp
    intro node other different edge own shared
    obtain ⟨next, _, rfl⟩ := List.mem_map.mp own
    obtain ⟨_, _, same⟩ := List.mem_map.mp shared
    exact different (Prod.mk.inj same).1.symm

theorem Recorded.nodup_looked (recorded : Recorded g first past w) (valid : Valid g first w) :
    (past.filterMap Move.edge?).Nodup :=
  (recorded.looked.nodup_iff.mp (nodup_edgesFrom valid.nodup_met)).of_append_left

end Walk

namespace Graph

variable {g : Graph α} {edges : Finset (α × α)}

theorem Represents.reachableEdges_subset (represents : g.Represents edges) (first : α) :
    g.reachableEdges first ⊆ edges :=
  fun edge inside => (represents.dependents edge.1 edge.2).mp inside.2

theorem reachable_subset (g : Graph α) (first : α) :
    g.reachable first ⊆ Insert.insert first (Prod.snd '' g.reachableEdges first) := by
  intro node reaches
  cases reaches with
  | refl => exact Set.mem_insert first _
  | @tail before _ reaches edge => exact Or.inr ⟨(before, node), ⟨reaches, edge⟩, rfl⟩

theorem Represents.finite_reachableEdges (represents : g.Represents edges) (first : α) :
    (g.reachableEdges first).Finite :=
  edges.finite_toSet.subset (represents.reachableEdges_subset first)

theorem Represents.finite_reachable (represents : g.Represents edges) (first : α) : (g.reachable first).Finite :=
  (((represents.finite_reachableEdges first).image Prod.snd).insert first).subset (g.reachable_subset first)

theorem Represents.ncard_le_walkSteps (represents : g.Represents edges) (first : α) :
    (g.reachable first).ncard + (g.reachableEdges first).ncard ≤ g.walkSteps := by
  have finite := represents.finite_reachableEdges first
  have all : (g.reachableEdges first).ncard ≤ g.size := by
    rw [represents.size, ← Set.ncard_coe_finset]
    exact Set.ncard_le_ncard (represents.reachableEdges_subset first) edges.finite_toSet
  have nodes : (g.reachable first).ncard ≤ (g.reachableEdges first).ncard + 1 :=
    calc (g.reachable first).ncard
      _ ≤ (Insert.insert first (Prod.snd '' g.reachableEdges first)).ncard :=
        Set.ncard_le_ncard (g.reachable_subset first) ((finite.image Prod.snd).insert first)
      _ ≤ (Prod.snd '' g.reachableEdges first).ncard + 1 := Set.ncard_insert_le _ _
      _ ≤ (g.reachableEdges first).ncard + 1 := Nat.add_le_add_right (Set.ncard_image_le finite) 1
  rw [walkSteps]
  omega

end Graph

theorem length_le_ncard {β : Type} {set : Set β} (finite : set.Finite) {items : List β} (nodup : items.Nodup)
    (inside : ∀ item ∈ items, item ∈ set) : items.length ≤ set.ncard := by
  classical
  rw [← List.toFinset_card_of_nodup nodup, ← Set.ncard_coe_finset]
  exact Set.ncard_le_ncard (fun item member => inside item (List.mem_toFinset.mp member)) finite

namespace Walk

variable {g : Graph α} {edges : Finset (α × α)} {first : α} {past : List (Move α)} {w : Walk α}
  [Std.TransOrd α] [Std.LawfulEqOrd α]

/-- At most as many moves look at an edge as there are edges, and at most as many finish a node as there
are nodes that are not on the path any more. -/
theorem Recorded.length_add_le (represents : g.Represents edges) (recorded : Recorded g first past w)
    (valid : Valid g first w) :
    past.length + w.path.length ≤ (g.reachable first).ncard + (g.reachableEdges first).ncard := by
  have nodes := length_le_ncard (represents.finite_reachable first) valid.nodup_met fun _ => valid.mem_reachable
  have looks := length_le_ncard (represents.finite_reachableEdges first) (recorded.nodup_looked valid)
    fun _ => recorded.mem_reachableEdges valid
  have left : (past.filterMap Move.finished?).length = w.finished.length := by
    rw [recorded.finished, List.length_reverse]
  rw [List.length_append] at nodes
  rw [Move.length_eq, left]
  omega

variable [DecidableEq α]

theorem over_run_of_ncard_le (represents : g.Represents edges) {steps : Nat}
    (enough : (g.reachable first).ncard + (g.reachableEdges first).ncard ≤ steps) :
    ((Walk.start g first).run g steps).isOver = true := by
  have bound := (recorded_run g first steps).length_add_le represents ((Valid.start g first).run steps)
  rcases isOver_or_length_moves g steps (Walk.start g first) with ended | all
  · exact ended
  · have empty : ((Walk.start g first).run g steps).path = [] := List.eq_nil_of_length_eq_zero (by omega)
    rw [path, List.map_eq_nil_iff] at empty
    rw [isOver, empty, List.isEmpty_nil, Bool.or_true]

/-- No node is entered twice and no edge is looked at twice. -/
structure Frugal (g : Graph α) (first : α) (past : List (Move α)) : Prop where
  entered : ∀ node ∈ first :: past.filterMap Move.entered?, node ∈ g.reachable first
  enteredOnce : (first :: past.filterMap Move.entered?).Nodup
  looked : ∀ edge ∈ past.filterMap Move.edge?, edge ∈ g.reachableEdges first
  lookedOnce : (past.filterMap Move.edge?).Nodup

/-- A walk that has been given so many steps, with one move for each that it has taken. -/
structure Orderly (g : Graph α) (first : α) (steps : Nat) : Prop where
  valid : Valid g first ((Walk.start g first).run g steps)
  recorded : Recorded g first ((Walk.start g first).moves g steps) ((Walk.start g first).run g steps)
  frugal : Frugal g first ((Walk.start g first).moves g steps)
  counted : ((Walk.start g first).run g steps).isOver = true ∨ ((Walk.start g first).moves g steps).length = steps

theorem orderly (g : Graph α) (first : α) (steps : Nat) : Orderly g first steps := by
  have valid := (Valid.start g first).run steps
  have recorded := recorded_run g first steps
  refine ⟨valid, recorded, ?_, isOver_or_length_moves g steps _⟩
  exact ⟨fun _ => recorded.mem_reachable valid, recorded.nodup_entered valid,
    fun _ => recorded.mem_reachableEdges valid, recorded.nodup_looked valid⟩

end Walk

namespace Graph

variable [Std.TransOrd α] [Std.LawfulEqOrd α] [DecidableEq α]

/-- At every step of a walk, with circles or without, its stack is a path from the first node, its marks tell
apart what is on the stack and what is finished, and what a node on the stack has looked at is finished
or stands above it. A walk enters no node and looks at no edge twice, so it ends on every graph. -/
theorem every_walk_orderly (changes : List (Change α)) (first : α) :
    (∀ steps, Walk.Orderly (ofChanges changes) first steps) ∧
    (∀ steps,
      ((ofChanges changes).reachable first).ncard + ((ofChanges changes).reachableEdges first).ncard ≤ steps →
      ((Walk.start (ofChanges changes) first).run (ofChanges changes) steps).isOver = true) ∧
    ((ofChanges changes).reachable first).ncard + ((ofChanges changes).reachableEdges first).ncard ≤
      (ofChanges changes).walkSteps := by
  have represents := represents_ofChanges changes
  exact ⟨Walk.orderly _ first, fun _ => Walk.over_run_of_ncard_le represents, represents.ncard_le_walkSteps first⟩

-- There is a second edge to 2, which is finished by then, and one back to 3, which is not.
private def winding : List (Change Nat) :=
  [.setDependents 1 [2, 3], .insert 2 4, .setDependents 3 [5, 2], .insert 5 3]

theorem winding_walk_orderly : Walk.Orderly (ofChanges winding) 1 7 ∧
    (Walk.start (ofChanges winding) 1).moves (ofChanges winding) 7 =
      [.enter 1 2, .enter 2 4, .finish 4, .finish 2, .enter 1 3, .skip 3 2, .enter 3 5] ∧
    ((Walk.start (ofChanges winding) 1).run (ofChanges winding) 7).path = [5, 3, 1] ∧
    ((Walk.start (ofChanges winding) 1).run (ofChanges winding) 7).finished = [2, 4] ∧
    ((Walk.start (ofChanges winding) 1).run (ofChanges winding) 14).isOver = true ∧
    (Walk.start (ofChanges winding) 1).moves (ofChanges winding) 14 =
      [.enter 1 2, .enter 2 4, .finish 4, .finish 2, .enter 1 3, .skip 3 2, .enter 3 5, .meet 5 3] := by
  obtain ⟨orderly, ended, bound⟩ := every_walk_orderly winding 1
  have steps : (ofChanges winding).walkSteps = 14 := by decide +kernel
  refine ⟨orderly 7, ?_, ?_, ?_, ended 14 (steps ▸ bound), ?_⟩
  all_goals decide +kernel

end Graph
end Worksheet
