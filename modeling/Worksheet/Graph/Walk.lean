import Worksheet.Graph

/-! The order in which cells are recomputed after one of them changes. A depth-first walk along
dependents, each node's in ascending order, finishes a node after all that read it, so the
finished nodes read backwards are in order. The walk keeps its own stack, and it meets a node
of that stack again only where the graph has a cycle. -/

namespace Worksheet

variable {α : Type} [Ord α]

/-- How far the walk is with a node that it has met. -/
inductive Mark where
  | entered
  | finished
deriving DecidableEq

/-- A walk that is under way. The stack is the path to the present node, each node with the
dependents that are still to be looked at; finished nodes are listed from the latest on. -/
structure Walk (α : Type) [Ord α] where
  marks : Std.TreeMap α Mark
  stack : List (α × List α)
  finished : List α
  looped : Bool

namespace Walk

def start (g : Graph α) (node : α) : Walk α :=
  ⟨.insert ∅ node .entered, [(node, (g.dependents node).toList)], [], false⟩

/-- A walk is over when its stack is empty, or when it has met a node of its own stack. -/
def isOver (w : Walk α) : Bool := w.looped || w.stack.isEmpty

/-- Looks at the next dependent of the present node, or finishes the node if there is none. -/
def step (g : Graph α) (w : Walk α) : Walk α :=
  match w.stack with
  | [] => w
  | (node, []) :: path => {
      marks := w.marks.insert node .finished
      stack := path
      finished := node :: w.finished
      looped := w.looped }
  | (node, next :: rest) :: path =>
    match w.marks[next]? with
    | some .entered => { w with looped := true }
    | some .finished => { w with stack := (node, rest) :: path }
    | none => { w with
        marks := w.marks.insert next .entered
        stack := (next, (g.dependents next).toList) :: (node, rest) :: path }

/-- Repeats the step until the walk is over, at most so many times. -/
def run (g : Graph α) : Nat → Walk α → Walk α
  | 0, w => w
  | steps + 1, w => if w.isOver then w else run g steps (w.step g)

end Walk

namespace Graph

/-- Every edge is looked at at most once, and beside the first node every node is entered by an
edge of its own and finished once. -/
def walkSteps (g : Graph α) : Nat := 2 * g.size + 2

/-- A node and everything that reads it, directly or through others, each after the nodes that it
reads itself; nothing if a cycle can be reached from the node. -/
def updateOrder? (g : Graph α) (node : α) : Option (List α) :=
  let w := (Walk.start g node).run g g.walkSteps
  if w.looped then none else some w.finished

end Graph
end Worksheet
