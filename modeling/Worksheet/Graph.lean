import Std.Data.TreeMap
import Std.Data.TreeSet

/-! Which nodes read which. Both directions are indexed: for every node the nodes that read it,
its dependents, and the nodes that it reads, its precedents. The two indexes hold the same
edges, no entry is empty, and the number of edges is counted along. -/

namespace Worksheet

variable {α : Type} [Ord α]

abbrev Index (α : Type) [Ord α] := Std.TreeMap α (Std.TreeSet α)

namespace Index

/-- The nodes under a key; none for a key without an entry. -/
def members (index : Index α) (key : α) : Std.TreeSet α := index.getD key ∅

def link (index : Index α) (key member : α) : Index α := index.insert key ((index.members key).insert member)

/-- Takes a node from the entry of a key, and the entry away with its last node. -/
def unlink (index : Index α) (key member : α) : Index α :=
  let rest := (index.members key).erase member
  if rest.isEmpty then index.erase key else index.insert key rest

def unlinkAll (index : Index α) (keys : List α) (member : α) : Index α :=
  keys.foldl (fun index key => index.unlink key member) index

variable [Std.TransOrd α] [Std.LawfulEqOrd α]

theorem mem_members_link {index : Index α} {key member k a : α} :
    a ∈ (index.link key member).members k ↔ (k = key ∧ a = member) ∨ a ∈ index.members k := by
  unfold link members
  rw [Std.TreeMap.getD_insert]
  split
  next same =>
    obtain rfl := Std.LawfulEqCmp.eq_of_compare same
    rw [Std.TreeSet.mem_insert, Std.LawfulEqCmp.compare_eq_iff_eq]
    simp [eq_comm]
  next other =>
    have different : k ≠ key := fun same => other (same ▸ Std.ReflCmp.compare_self)
    simp [different]

/-- Unlinking takes one node from one key; that an emptied entry goes away does not show here. -/
theorem mem_members_unlink {index : Index α} {key member k a : α} :
    a ∈ (index.unlink key member).members k ↔ a ∈ index.members k ∧ ¬(k = key ∧ a = member) := by
  have rest : a ∈ (index.members key).erase member ↔ a ∈ index.members key ∧ a ≠ member := by
    rw [Std.TreeSet.mem_erase, ne_eq, Std.LawfulEqCmp.compare_eq_iff_eq, and_comm, eq_comm]
  by_cases same : k = key
  · subst same
    have left : a ∈ (index.unlink k member).members k ↔ a ∈ (index.members k).erase member := by
      unfold unlink
      simp only
      split
      next emptied =>
        have gone : a ∉ (index.members k).erase member := fun present => by
          rw [Std.TreeSet.isEmpty_eq_false_iff_exists_mem.mpr ⟨a, present⟩] at emptied
          contradiction
        simp only [gone, iff_false]
        unfold members
        rw [Std.TreeMap.getD_erase]
        simp [Std.ReflCmp.compare_self]
      next =>
        rw [members, Std.TreeMap.getD_insert]
        simp [Std.ReflCmp.compare_self]
    simp [left, rest]
  · have different : ¬ compare key k = .eq := fun equal => same (Std.LawfulEqCmp.eq_of_compare equal).symm
    have kept : (index.unlink key member).members k = index.members k := by
      unfold unlink
      simp only
      split
      · rw [members, Std.TreeMap.getD_erase]
        simp [different, members]
      · rw [members, Std.TreeMap.getD_insert]
        simp [different, members]
    simp [kept, same]

/-- Unlinking under several keys is unlinking under each of them, whatever their order. -/
theorem mem_members_unlinkAll {index : Index α} {keys : List α} {member k a : α} :
    a ∈ (index.unlinkAll keys member).members k ↔ a ∈ index.members k ∧ ¬(k ∈ keys ∧ a = member) := by
  unfold unlinkAll
  induction keys generalizing index with
  | nil => simp
  | cons key keys ih =>
    rw [List.foldl_cons, ih, mem_members_unlink, List.mem_cons]
    grind

end Index

/-- Edges from a precedent to a dependent, which reads it. -/
structure Graph (α : Type) [Ord α] where
  dependentIndex : Index α
  precedentIndex : Index α
  size : Nat

namespace Graph

def empty : Graph α := ⟨∅, ∅, 0⟩

def isEmpty (g : Graph α) : Bool := g.size == 0

def dependents (g : Graph α) (node : α) : Std.TreeSet α := g.dependentIndex.members node

def precedents (g : Graph α) (node : α) : Std.TreeSet α := g.precedentIndex.members node

def hasDependents (g : Graph α) (node : α) : Bool := g.dependentIndex.contains node

def hasPrecedents (g : Graph α) (node : α) : Bool := g.precedentIndex.contains node

def contains (g : Graph α) (precedent dependent : α) : Bool := (g.dependents precedent).contains dependent

/-- Adds an edge; one that is there already changes nothing. -/
def insert (g : Graph α) (precedent dependent : α) : Graph α :=
  if g.contains precedent dependent then g
  else {
    dependentIndex := g.dependentIndex.link precedent dependent
    precedentIndex := g.precedentIndex.link dependent precedent
    size := g.size + 1 }

/-- Removes an edge; one that is not there changes nothing. -/
def erase (g : Graph α) (precedent dependent : α) : Graph α :=
  if g.contains precedent dependent then {
    dependentIndex := g.dependentIndex.unlink precedent dependent
    precedentIndex := g.precedentIndex.unlink dependent precedent
    size := g.size - 1 }
  else g

def clearDependents (g : Graph α) (node : α) : Graph α where
  dependentIndex := g.dependentIndex.erase node
  precedentIndex := g.precedentIndex.unlinkAll (g.dependents node).toList node
  size := g.size - (g.dependents node).size

def clearPrecedents (g : Graph α) (node : α) : Graph α where
  dependentIndex := g.dependentIndex.unlinkAll (g.precedents node).toList node
  precedentIndex := g.precedentIndex.erase node
  size := g.size - (g.precedents node).size

def setDependents (g : Graph α) (node : α) (dependents : List α) : Graph α :=
  dependents.foldl (fun g dependent => g.insert node dependent) (g.clearDependents node)

/-- Makes the given nodes the precedents of a node, and no others. -/
def setPrecedents (g : Graph α) (node : α) (precedents : List α) : Graph α :=
  precedents.foldl (fun g precedent => g.insert precedent node) (g.clearPrecedents node)

end Graph
end Worksheet
