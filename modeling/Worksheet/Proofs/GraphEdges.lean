import Mathlib.Algebra.GroupWithZero.Nat
import Mathlib.Data.Finset.Card
import Mathlib.Data.Finset.Image
import Worksheet.Graph

/-! A graph stands for a finite set of edges. Everything that can be asked of a graph is a
question about that set, however the two indexes came to hold it. -/

namespace Worksheet

variable {α : Type} [Ord α]

namespace Index

/-- An entry goes away with its last member, so a key has an entry only while it has members. -/
def Pruned (index : Index α) : Prop := ∀ key ∈ index, ∃ member, member ∈ index.members key

theorem Pruned.empty : Pruned (∅ : Index α) := by
  intro key inside
  exact absurd inside Std.TreeMap.not_mem_emptyc

variable [Std.TransOrd α]

theorem mem_of_mem_members {index : Index α} {key member : α} (inside : member ∈ index.members key) :
    key ∈ index := by
  apply Classical.byContradiction
  intro absent
  rw [members, Std.TreeMap.getD_eq_fallback absent] at inside
  exact Std.TreeSet.not_mem_emptyc inside

theorem Pruned.contains {index : Index α} (pruned : index.Pruned) (key : α) :
    index.contains key = true ↔ ∃ member, member ∈ index.members key := by
  rw [Std.TreeMap.contains_iff_mem]
  exact ⟨pruned key, fun ⟨_, inside⟩ => mem_of_mem_members inside⟩

variable [Std.LawfulEqOrd α]

theorem mem_members_erase {index : Index α} {key k a : α} :
    a ∈ Index.members (index.erase key) k ↔ a ∈ index.members k ∧ k ≠ key := by
  rw [members, Std.TreeMap.getD_erase]
  by_cases same : k = key
  · subst same
    simp [Std.ReflCmp.compare_self]
  · have different : ¬ compare key k = .eq := fun equal => same (Std.LawfulEqCmp.eq_of_compare equal).symm
    simp [different, same, members]

theorem Pruned.link {index : Index α} (pruned : index.Pruned) (key member : α) :
    (index.link key member).Pruned := by
  intro k inside
  rw [Index.link, Std.TreeMap.mem_insert, Std.compare_eq_iff_eq] at inside
  rcases inside with rfl | inside
  · exact ⟨member, mem_members_link.mpr (Or.inl ⟨rfl, rfl⟩)⟩
  · obtain ⟨a, old⟩ := pruned k inside
    exact ⟨a, mem_members_link.mpr (Or.inr old)⟩

theorem Pruned.erase {index : Index α} (pruned : index.Pruned) (key : α) :
    Pruned (index.erase key) := by
  intro k inside
  rw [Std.TreeMap.mem_erase] at inside
  have other : k ≠ key := fun same => inside.1 (same ▸ Std.ReflCmp.compare_self)
  obtain ⟨a, old⟩ := pruned k inside.2
  exact ⟨a, mem_members_erase.mpr ⟨old, other⟩⟩

theorem Pruned.unlink {index : Index α} (pruned : index.Pruned) (key member : α) :
    (index.unlink key member).Pruned := by
  intro k inside
  by_cases same : k = key
  · subst same
    simp only [Index.unlink] at inside
    split at inside
    next =>
      rw [Std.TreeMap.mem_erase] at inside
      exact absurd Std.ReflCmp.compare_self inside.1
    next left =>
      rw [Bool.not_eq_true, Std.TreeSet.isEmpty_eq_false_iff_exists_mem] at left
      obtain ⟨a, rest⟩ := left
      rw [Std.TreeSet.mem_erase] at rest
      have other : a ≠ member := fun same => rest.1 (same ▸ Std.ReflCmp.compare_self)
      exact ⟨a, mem_members_unlink.mpr ⟨rest.2, fun both => other both.2⟩⟩
  · have old : k ∈ index := by
      simp only [Index.unlink] at inside
      split at inside
      · exact (Std.TreeMap.mem_erase.mp inside).2
      · rw [Std.TreeMap.mem_insert, Std.compare_eq_iff_eq] at inside
        exact inside.resolve_left fun equal => same equal.symm
    obtain ⟨a, present⟩ := pruned k old
    exact ⟨a, mem_members_unlink.mpr ⟨present, fun both => same both.1⟩⟩

theorem Pruned.unlinkAll {index : Index α} (pruned : index.Pruned) (keys : List α) (member : α) :
    (index.unlinkAll keys member).Pruned := by
  unfold Index.unlinkAll
  induction keys generalizing index with
  | nil => exact pruned
  | cons key keys ih => exact ih (pruned.unlink key member)

end Index

namespace Graph

/-- Both indexes hold exactly the edges of the set, and the counter their number. -/
structure Represents (g : Graph α) (edges : Finset (α × α)) : Prop where
  dependents : ∀ a b, b ∈ g.dependents a ↔ (a, b) ∈ edges
  precedents : ∀ a b, a ∈ g.precedents b ↔ (a, b) ∈ edges
  dependentsPruned : g.dependentIndex.Pruned
  precedentsPruned : g.precedentIndex.Pruned
  size : g.size = edges.card

variable {g : Graph α} {edges : Finset (α × α)}

theorem contains_eq_true {a b : α} : g.contains a b = true ↔ b ∈ g.dependents a :=
  Std.TreeSet.contains_iff_mem

section
variable [Std.TransOrd α]

theorem Represents.hasDependents (represents : g.Represents edges) (a : α) :
    g.hasDependents a = true ↔ ∃ b, (a, b) ∈ edges := by
  rw [Graph.hasDependents, represents.dependentsPruned.contains]
  exact exists_congr (represents.dependents a)

theorem Represents.hasPrecedents (represents : g.Represents edges) (b : α) :
    g.hasPrecedents b = true ↔ ∃ a, (a, b) ∈ edges := by
  rw [Graph.hasPrecedents, represents.precedentsPruned.contains]
  exact exists_congr (fun a => represents.precedents a b)

theorem Represents.empty : (Graph.empty : Graph α).Represents ∅ := by
  refine ⟨?_, ?_, Index.Pruned.empty, Index.Pruned.empty, rfl⟩
  all_goals
    intro a b
    simp [Graph.dependents, Graph.precedents, Graph.empty, Index.members]

end

variable [Std.TransOrd α] [Std.LawfulEqOrd α] [DecidableEq α]

theorem Represents.insert (represents : g.Represents edges) (a b : α) :
    (g.insert a b).Represents (Insert.insert (a, b) edges) := by
  unfold Graph.insert
  split
  next present =>
    rw [contains_eq_true, represents.dependents] at present
    rwa [Finset.insert_eq_of_mem present]
  next absent =>
    rw [contains_eq_true, represents.dependents] at absent
    refine ⟨?_, ?_, represents.dependentsPruned.link a b, represents.precedentsPruned.link b a, ?_⟩
    · intro c d
      rw [Finset.mem_insert, Prod.mk.injEq, ← represents.dependents]
      exact Index.mem_members_link
    · intro c d
      rw [Finset.mem_insert, Prod.mk.injEq, ← represents.precedents, and_comm]
      exact Index.mem_members_link
    · rw [Finset.card_insert_of_notMem absent, represents.size]

theorem Represents.erase (represents : g.Represents edges) (a b : α) : (g.erase a b).Represents (edges.erase (a, b)) := by
  unfold Graph.erase
  split
  next present =>
    rw [contains_eq_true, represents.dependents] at present
    refine ⟨?_, ?_, represents.dependentsPruned.unlink a b, represents.precedentsPruned.unlink b a, ?_⟩
    · intro c d
      rw [Finset.mem_erase, and_comm, ne_eq, Prod.mk.injEq, ← represents.dependents]
      exact Index.mem_members_unlink
    · intro c d
      rw [Finset.mem_erase, and_comm, ne_eq, Prod.mk.injEq, and_comm (a := c = a), ← represents.precedents]
      exact Index.mem_members_unlink
    · rw [Finset.card_erase_of_mem present, represents.size]
  next absent =>
    rw [contains_eq_true, represents.dependents] at absent
    rwa [Finset.erase_eq_of_notMem absent]

omit [DecidableEq α] in
theorem nodup_toList (set : Std.TreeSet α) : set.toList.Nodup := by
  apply set.distinct_toList.imp
  intro a b different same
  exact different (same ▸ Std.ReflCmp.compare_self)

private theorem card_eq_size {set : Std.TreeSet α} {pairs : Finset (α × α)} (pair : α → α × α)
    (injective : pair.Injective) (same : ∀ edge, edge ∈ pairs ↔ ∃ a ∈ set, pair a = edge) :
    pairs.card = set.size := by
  have image : pairs = set.toList.toFinset.image pair := by
    ext edge
    simp [same]
  rw [image, Finset.card_image_of_injective _ injective, List.toFinset_card_of_nodup (nodup_toList set),
    Std.TreeSet.length_toList]

theorem Represents.card_from (represents : g.Represents edges) (node : α) :
    (edges.filter fun edge => edge.1 = node).card = (g.dependents node).size := by
  apply card_eq_size (node, ·) fun _ _ equal => (Prod.mk.inj equal).2
  rintro ⟨a, b⟩
  simp only [Finset.mem_filter, represents.dependents, Prod.mk.injEq]
  grind

/-- The edges into a node are as many as its precedents, so clearing them never takes more from
the counter than it holds. -/
theorem Represents.card_into (represents : g.Represents edges) (node : α) :
    (edges.filter fun edge => edge.2 = node).card = (g.precedents node).size := by
  apply card_eq_size (·, node) fun _ _ equal => (Prod.mk.inj equal).1
  rintro ⟨a, b⟩
  simp only [Finset.mem_filter, represents.precedents, Prod.mk.injEq]
  grind

theorem Represents.clearPrecedents (represents : g.Represents edges) (node : α) :
    (g.clearPrecedents node).Represents (edges.filter fun edge => edge.2 ≠ node) := by
  refine ⟨?_, ?_, represents.dependentsPruned.unlinkAll _ _, represents.precedentsPruned.erase node, ?_⟩
  · intro a b
    rw [Finset.mem_filter, ← represents.dependents]
    refine Index.mem_members_unlinkAll.trans (and_congr_right fun inside => not_congr ?_)
    rw [Std.TreeSet.mem_toList]
    refine and_iff_right_of_imp fun same => ?_
    subst same
    exact (represents.precedents a b).mpr ((represents.dependents a b).mp inside)
  · intro a b
    rw [Finset.mem_filter, ← represents.precedents]
    exact Index.mem_members_erase
  · have parts : (edges.filter fun edge => edge.2 = node).card + (edges.filter fun edge => edge.2 ≠ node).card =
        edges.card := Finset.card_filter_add_card_filter_not _
    rw [represents.card_into node] at parts
    change g.size - (g.precedents node).size = _
    rw [represents.size]
    omega

theorem Represents.insertAll {β : Type} [DecidableEq β] (represents : g.Represents edges) (edge : β → α × α) (items : List β) :
    (items.foldl (fun g item => g.insert (edge item).1 (edge item).2) g).Represents (edges ∪ items.toFinset.image edge) := by
  induction items generalizing g edges with
  | nil => simpa using represents
  | cons first rest ih =>
    have later := ih (represents.insert (edge first).1 (edge first).2)
    rw [Finset.insert_union, ← Finset.union_insert] at later
    simpa using later

theorem Represents.setPrecedents (represents : g.Represents edges) (node : α) (nodes : List α) :
    (g.setPrecedents node nodes).Represents
      ((edges.filter fun edge => edge.2 ≠ node) ∪ nodes.toFinset.image (·, node)) :=
  (represents.clearPrecedents node).insertAll (·, node) nodes

def mirror (g : Graph α) : Graph α := ⟨g.precedentIndex, g.dependentIndex, g.size⟩

omit [Std.TransOrd α] [Std.LawfulEqOrd α] in
theorem Represents.mirror (represents : g.Represents edges) : g.mirror.Represents (edges.image Prod.swap) := by
  have swapped (a b : α) : (a, b) ∈ edges.image Prod.swap ↔ (b, a) ∈ edges := by
    rw [← Prod.swap_prod_mk, Prod.swap_injective.mem_finset_image]
  refine ⟨?_, ?_, represents.precedentsPruned, represents.dependentsPruned, ?_⟩
  · intro a b
    rw [swapped]
    exact represents.precedents b a
  · intro a b
    rw [swapped]
    exact represents.dependents b a
  · rw [Finset.card_image_of_injective _ Prod.swap_injective]
    exact represents.size

/-- Clearing the dependents of a node is clearing its precedents in the mirror. -/
theorem Represents.clearDependents (represents : g.Represents edges) (node : α) :
    (g.clearDependents node).Represents (edges.filter fun edge => edge.1 ≠ node) := by
  have same : edges.filter (fun edge => edge.1 ≠ node) =
      ((edges.image Prod.swap).filter fun edge => edge.2 ≠ node).image Prod.swap := by
    ext ⟨a, b⟩
    simp
  rw [same]
  exact (represents.mirror.clearPrecedents node).mirror

theorem Represents.setDependents (represents : g.Represents edges) (node : α) (nodes : List α) :
    (g.setDependents node nodes).Represents
      ((edges.filter fun edge => edge.1 ≠ node) ∪ nodes.toFinset.image (node, ·)) :=
  (represents.clearDependents node).insertAll (node, ·) nodes

/-- Putting the former precedents back gives a graph for the former edges, also where they overlap
with the ones in between and where the node was among them. -/
theorem Represents.restore (represents : g.Represents edges) (node : α) (nodes : List α) :
    ((g.setPrecedents node nodes).setPrecedents node (g.precedents node).toList).Represents edges := by
  have restored := (represents.setPrecedents node nodes).setPrecedents node (g.precedents node).toList
  convert restored using 1
  ext ⟨a, b⟩
  simp only [Finset.mem_union, Finset.mem_filter, Finset.mem_image, List.mem_toFinset, Std.TreeSet.mem_toList,
    Prod.mk.injEq, ← represents.precedents]
  grind

structure Same (g h : Graph α) : Prop where
  dependents : ∀ node, (g.dependents node).toList = (h.dependents node).toList
  precedents : ∀ node, (g.precedents node).toList = (h.precedents node).toList
  contains : ∀ a b, g.contains a b = h.contains a b
  hasDependents : ∀ node, g.hasDependents node = h.hasDependents node
  hasPrecedents : ∀ node, g.hasPrecedents node = h.hasPrecedents node
  size : g.size = h.size

omit [DecidableEq α] in
/-- Nothing but the edges of a graph can be seen. -/
theorem Represents.same {h : Graph α} (left : g.Represents edges) (right : h.Represents edges) : g.Same h := by
  constructor
  case dependents =>
    intro node
    apply Std.TreeSet.Equiv.toList_eq
    apply Std.TreeSet.Equiv.of_forall_mem_iff
    intro a
    rw [left.dependents, right.dependents]
  case precedents =>
    intro node
    apply Std.TreeSet.Equiv.toList_eq
    apply Std.TreeSet.Equiv.of_forall_mem_iff
    intro a
    rw [left.precedents, right.precedents]
  case contains =>
    intro a b
    rw [Bool.eq_iff_iff, contains_eq_true, contains_eq_true, left.dependents, right.dependents]
  case hasDependents =>
    intro node
    rw [Bool.eq_iff_iff, left.hasDependents, right.hasDependents]
  case hasPrecedents =>
    intro node
    rw [Bool.eq_iff_iff, left.hasPrecedents, right.hasPrecedents]
  case size => rw [left.size, right.size]

end Graph
end Worksheet
