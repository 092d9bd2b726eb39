import Worksheet.Graph

/-! Changing a graph, one change after another. Whatever graph there is has come from the empty one
in this way. -/

namespace Worksheet.Graph

variable {α : Type} [Ord α]

inductive Change (α : Type) where
  | insert (precedent dependent : α)
  | erase (precedent dependent : α)
  | setDependents (node : α) (dependents : List α)
  | setPrecedents (node : α) (precedents : List α)
  /-- Takes all edges away. -/
  | clear

def change (g : Graph α) : Change α → Graph α
  | .insert precedent dependent => g.insert precedent dependent
  | .erase precedent dependent => g.erase precedent dependent
  | .setDependents node dependents => g.setDependents node dependents
  | .setPrecedents node precedents => g.setPrecedents node precedents
  | .clear => .empty

/-- The graph that some changes make of the empty one. -/
def ofChanges (changes : List (Change α)) : Graph α := changes.foldl change .empty

end Worksheet.Graph
