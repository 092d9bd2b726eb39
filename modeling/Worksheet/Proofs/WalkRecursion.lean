import Mathlib.Data.Finset.Sort
import Mathlib.Data.String.Basic
import Worksheet.Proofs.AddressSpelling
import Worksheet.Proofs.WalkAnswers

/-! The walk with a stack of its own finishes cells in the order of a recursive search. The search knows
only a set of edges and takes the readers of a cell by their names, so nothing else about a graph
can show in the answer. -/

namespace Worksheet
open Relation

namespace Address

instance : IsTrans Address fun a b => a.text ≤ b.text := ⟨fun _ _ _ => le_trans⟩

instance : Std.Antisymm (α := Address) fun a b => a.text ≤ b.text :=
  ⟨fun _ _ before behind => eq_of_text (le_antisymm before behind)⟩

instance : Std.Total (α := Address) fun a b => a.text ≤ b.text := ⟨fun _ _ => le_total _ _⟩

theorem eq_of_sorted {cells others : List Address} (sorted : cells.Pairwise fun a b => a.text ≤ b.text)
    (sorted' : others.Pairwise fun a b => a.text ≤ b.text) (nodup : cells.Nodup) (nodup' : others.Nodup)
    (same : ∀ cell, cell ∈ cells ↔ cell ∈ others) : cells = others :=
  ((List.perm_ext_iff_of_nodup nodup nodup').mpr same).eq_of_pairwise' sorted sorted'

theorem sorted_toList (cells : Std.TreeSet Address) : cells.toList.Pairwise fun a b => a.text ≤ b.text := by
  apply cells.ordered_toList.imp
  intro a b before
  exact le_of_lt (compare_lt_iff_lt.mp before)

end Address

/-- How far a recursive search is. Finished cells are listed from the earliest on. -/
structure Search where
  visited : Finset Address
  finished : List Address

namespace Search

def start : Search := ⟨∅, []⟩

def enter (s : Search) (cell : Address) : Search := { s with visited := insert cell s.visited }

def finish (s : Search) (cell : Address) : Search := { s with finished := s.finished ++ [cell] }

variable (edges : Finset (Address × Address))

def readers (cell : Address) : List Address :=
  ((edges.filter fun edge => edge.1 = cell).image Prod.snd).sort fun a b => a.text ≤ b.text

def ahead (s : Search) : Finset (Address × Address) := edges.filter fun edge => edge.1 ∉ s.visited

variable {edges}

theorem mem_readers {cell reader : Address} : reader ∈ readers edges cell ↔ (cell, reader) ∈ edges := by
  simp [readers]

theorem card_ahead_enter {s : Search} {cell : Address} (fresh : cell ∉ s.visited) :
    (ahead edges (s.enter cell)).card + (readers edges cell).length ≤ (ahead edges s).card := by
  have own : (readers edges cell).length ≤ ((ahead edges s).filter fun edge => edge.1 = cell).card := by
    rw [readers, Finset.length_sort]
    apply Finset.card_image_le.trans (Finset.card_le_card _)
    intro edge member
    rw [Finset.mem_filter] at member
    rw [ahead, Finset.mem_filter, Finset.mem_filter]
    exact ⟨⟨member.1, member.2 ▸ fresh⟩, member.2⟩
  have others : ahead edges (s.enter cell) = (ahead edges s).filter fun edge => ¬ edge.1 = cell := by
    ext edge
    simp only [ahead, enter, Finset.mem_filter, Finset.mem_insert]
    tauto
  rw [others, ← Finset.card_filter_add_card_filter_not (s := ahead edges s) (fun edge => edge.1 = cell), Nat.add_comm]
  exact Nat.add_le_add_right own _

theorem card_ahead_mono {s t : Search} (grows : s.visited ⊆ t.visited) : (ahead edges t).card ≤ (ahead edges s).card := by
  apply Finset.card_le_card
  intro edge member
  rw [ahead, Finset.mem_filter] at member ⊢
  exact ⟨member.1, fun old => member.2 (grows old)⟩

variable (edges)

/-- Visits cells one after another. Each that has not been visited is finished after all its readers. -/
def visitAll (cells : List Address) (s : Search) : { t : Search // s.visited ⊆ t.visited } :=
  match cells with
  | [] => ⟨s, Finset.Subset.refl _⟩
  | cell :: rest =>
    if _fresh : cell ∉ s.visited then
      let inside := visitAll (readers edges cell) (s.enter cell)
      let after := visitAll rest (inside.val.finish cell)
      ⟨after.val, ((Finset.subset_insert cell s.visited).trans inside.property).trans after.property⟩
    else visitAll rest s
termination_by (ahead edges s).card + cells.length
decreasing_by
  · have less := @card_ahead_enter edges _ _ _fresh
    rw [List.length_cons]
    omega
  · have less := @card_ahead_mono edges _ _ ((Finset.subset_insert cell s.visited).trans inside.property)
    exact Nat.add_lt_add_of_le_of_lt less (Nat.lt_succ_self _)
  · exact Nat.lt_succ_self _

def visit (s : Search) (cell : Address) : Search := (visitAll edges [cell] s).val

def postOrder (first : Address) : List Address := (visit edges start first).finished

variable {edges}

theorem visitAll_eq_foldl (cells : List Address) (s : Search) :
    (visitAll edges cells s).val = cells.foldl (visit edges) s := by
  induction cells generalizing s with
  | nil => rw [visitAll, List.foldl_nil]
  | cons cell rest ih =>
    rw [List.foldl_cons, visit, visitAll, visitAll]
    split
    · simp only [ih, visitAll]
    · simp only [ih, visitAll]

theorem visit_eq (s : Search) (cell : Address) : visit edges s cell =
    if cell ∈ s.visited then s else ((readers edges cell).foldl (visit edges) (s.enter cell)).finish cell := by
  rw [visit, visitAll]
  split
  next fresh => simp only [visitAll, visitAll_eq_foldl]
  next met => rw [if_pos (not_not.mp met), visitAll]

/-- What the stack of a walk still owes a search, told by recursion. -/
def unwound (edges : Finset (Address × Address)) : List (Address × List Address) → Search → Search
  | [], s => s
  | (cell, rest) :: below, s => unwound edges below ((rest.foldl (visit edges) s).finish cell)

/-- A walk and a search that have met the same cells and have finished the same ones. -/
structure Mirrors (w : Walk Address) (s : Search) : Prop where
  visited : ∀ cell : Address, cell ∈ s.visited ↔ cell ∈ w.marks
  finished : s.finished = w.finished.reverse

variable {g : Graph Address} {w : Walk Address} {s : Search}

theorem dependents_eq_readers (represents : g.Represents edges) (cell : Address) :
    (g.dependents cell).toList = readers edges cell := by
  apply Address.eq_of_sorted (Address.sorted_toList _) (Finset.pairwise_sort _ _) (Graph.nodup_toList _) (Finset.sort_nodup _ _)
  intro reader
  rw [Std.TreeSet.mem_toList, represents.dependents]
  exact mem_readers.symm

theorem Mirrors.start (g : Graph Address) (first : Address) : Mirrors (Walk.start g first) (Search.start.enter first) := by
  refine ⟨fun cell => ?_, rfl⟩
  rw [Search.enter, Walk.start, Finset.mem_insert, Std.TreeMap.mem_insert, Std.compare_eq_iff_eq, eq_comm]
  simp [Search.start]

private theorem Mirrors.enter (mirrors : Mirrors w s) (cell : Address) (stack : List (Address × List Address)) :
    Mirrors { w with marks := w.marks.insert cell .entered, stack := stack } (s.enter cell) := by
  refine ⟨fun other => ?_, mirrors.finished⟩
  rw [Search.enter, Finset.mem_insert, Std.TreeMap.mem_insert, Std.compare_eq_iff_eq, mirrors.visited, eq_comm]

private theorem Mirrors.finish (mirrors : Mirrors w s) {cell : Address} (met : cell ∈ w.marks)
    (below : List (Address × List Address)) :
    Mirrors { w with marks := w.marks.insert cell .finished, stack := below, finished := cell :: w.finished }
      (s.finish cell) := by
  constructor
  · intro other
    rw [Search.finish, mirrors.visited, Std.TreeMap.mem_insert, Std.compare_eq_iff_eq]
    exact ⟨Or.inr, fun either => either.elim (fun same => same ▸ met) id⟩
  · rw [Search.finish, mirrors.finished, List.reverse_cons]

/-- A step of the walk leaves what is owed as it is, unless it meets a cell of its own stack. -/
theorem Mirrors.step (represents : g.Represents edges) {first : Address} (valid : Walk.Valid g first w)
    (mirrors : Mirrors w s) : (w.step g).looped = true ∨
      ∃ t, Mirrors (w.step g) t ∧ unwound edges (w.step g).stack t = unwound edges w.stack s := by
  unfold Walk.step
  split
  next => exact Or.inr ⟨s, mirrors, rfl⟩
  next cell below present =>
    have met : cell ∈ w.marks := by
      rw [Std.TreeMap.mem_iff_isSome_getElem?, (valid.entered cell).mpr (by simp [Walk.path, present])]
      rfl
    refine Or.inr ⟨s.finish cell, mirrors.finish met below, ?_⟩
    rw [present, unwound, List.foldl_nil]
  next cell next rest below present =>
    rw [present, unwound, List.foldl_cons, visit_eq]
    split
    next => exact Or.inl rfl
    next finished =>
      have met : next ∈ s.visited := by
        rw [mirrors.visited, Std.TreeMap.mem_iff_isSome_getElem?, finished]
        rfl
      refine Or.inr ⟨s, ⟨mirrors.visited, mirrors.finished⟩, ?_⟩
      rw [if_pos met, unwound]
    next unmarked =>
      have fresh : next ∉ s.visited := by
        rw [mirrors.visited, Std.TreeMap.mem_iff_isSome_getElem?, unmarked]
        simp
      refine Or.inr ⟨s.enter next, mirrors.enter next _, ?_⟩
      rw [if_neg fresh, unwound, unwound, dependents_eq_readers represents]

theorem Mirrors.run (represents : g.Represents edges) {first : Address} (valid : Walk.Valid g first w)
    (mirrors : Mirrors w s) (steps : Nat) : (w.run g steps).looped = true ∨
      ∃ t, Mirrors (w.run g steps) t ∧ unwound edges (w.run g steps).stack t = unwound edges w.stack s := by
  induction steps generalizing w s with
  | zero => exact Or.inr ⟨s, mirrors, rfl⟩
  | succ steps ih =>
    unfold Walk.run
    split
    next => exact Or.inr ⟨s, mirrors, rfl⟩
    next =>
      rcases mirrors.step represents valid with looped | ⟨t, next, same⟩
      · have ended : (w.step g).isOver = true := by rw [Walk.isOver, looped, Bool.true_or]
        left
        cases steps with
        | zero => exact looped
        | succ steps => rwa [Walk.run, if_pos ended]
      · rw [← same]
        exact ih valid.step next

end Search

namespace Graph

/-- When the walk is over its stack is empty, so nothing is owed any more. -/
theorem eq_postOrder_of_updateOrder? {g : Graph Address} {edges : Finset (Address × Address)}
    (represents : g.Represents edges) {first : Address} {order : List Address}
    (found : g.updateOrder? first = some order) : order = (Search.postOrder edges first).reverse := by
  have valid := Walk.Valid.start g first
  have ended := Walk.over_run represents valid (Walk.work_start represents first)
  have mirrored := (Search.Mirrors.start g first).run represents valid g.walkSteps
  simp only [updateOrder?] at found
  generalize (Walk.start g first).run g g.walkSteps = w at ended mirrored found
  split at found
  next => cases found
  next straight =>
    obtain rfl := Option.some.inj found
    have empty : w.stack = [] := by simpa [Walk.isOver, straight] using ended
    obtain ⟨t, mirrors, same⟩ := mirrored.resolve_left straight
    have whole : t = Search.visit edges .start first := by
      have fresh : first ∉ Search.start.visited := Finset.notMem_empty first
      rw [empty, Search.unwound] at same
      rw [same, Search.visit_eq, if_neg fresh, Walk.start, Search.unwound, Search.unwound,
        Search.dependents_eq_readers represents]
    rw [Search.postOrder, ← whole, mirrors.finished, List.reverse_reverse]

/-- Graphs with the same edges have the same order, and however the readers of a cell are listed, sorted
they are what the walk looks at. Where no circle can be reached, the order is the one in which the
recursive search finishes, read backwards. -/
theorem order_eq_postOrder (changes : List (Change Address)) (first : Address) :
    (∀ others : List (Change Address), edgesAfter others = edgesAfter changes →
      (ofChanges others).updateOrder? first = (ofChanges changes).updateOrder? first) ∧
    (∀ (cell : Address) (listed : List Address), listed.Nodup →
      (∀ reader, reader ∈ listed ↔ (cell, reader) ∈ edgesAfter changes) →
      ((ofChanges changes).dependents cell).toList = listed.mergeSort fun a b => a.text ≤ b.text) ∧
    ((∀ cell, ReflTransGen (ofChanges changes).Edge first cell → ¬ TransGen (ofChanges changes).Edge cell cell) →
      (ofChanges changes).updateOrder? first = some (Search.postOrder (edgesAfter changes) first).reverse) := by
  have represents := represents_ofChanges changes
  refine ⟨fun others same => ?_, fun cell listed nodup same => ?_, fun straight => ?_⟩
  · have represents' := represents_ofChanges others
    rw [same] at represents'
    exact (represents'.same represents).updateOrder?_eq first
  · apply Address.eq_of_sorted (Address.sorted_toList _) (List.pairwise_mergeSort' _ _) (nodup_toList _)
      ((List.mergeSort_perm _ _).nodup_iff.mpr nodup)
    intro reader
    rw [List.mem_mergeSort, same, Std.TreeSet.mem_toList, represents.dependents]
  · rcases updateOrder?_cases represents first with ⟨order, found, _⟩ | ⟨_, cell, reaches, circle⟩
    · rw [found, eq_postOrder_of_updateOrder? represents found]
    · exact absurd circle (straight cell reaches)

private def named (name : String) (valid : (Address.parse? name).isSome = true := by decide +kernel) : Address :=
  (Address.parse? name).get valid

-- The name A10 comes before the name A2, and a circle stands apart.
private def branching : List (Change Address) := [.setDependents (named "A1") [named "A2", named "A10"],
  .setPrecedents (named "B1") [named "A10", named "A2"], .insert (named "C1") (named "C1")]

private def rebuilt : List (Change Address) := [.insert (named "C1") (named "C1"), .insert (named "B1") (named "A1"),
  .setDependents (named "A10") [named "B1"], .setDependents (named "A2") [named "B1"],
  .insert (named "A1") (named "A10"), .insert (named "A1") (named "A2"), .erase (named "B1") (named "A1")]

theorem order_of_branching :
    (ofChanges rebuilt).updateOrder? (named "A1") = some [named "A1", named "A2", named "A10", named "B1"] ∧
    ([named "A2", named "A10"].mergeSort fun a b => a.text ≤ b.text) = [named "A10", named "A2"] ∧
    Search.postOrder (edgesAfter branching) (named "A1") = [named "B1", named "A10", named "A2", named "A1"] := by
  have edges : edgesAfter rebuilt = edgesAfter branching := by decide +kernel
  have found : (ofChanges branching).updateOrder? (named "A1") =
      some [named "A1", named "A2", named "A10", named "B1"] := by decide +kernel
  obtain ⟨rebuild, sorted, recursive⟩ := order_eq_postOrder branching (named "A1")
  refine ⟨?_, ?_, ?_⟩
  · rw [rebuild rebuilt edges, found]
  · have apart : named "A1" ≠ named "A10" ∧ named "A1" ≠ named "A2" ∧ named "A1" ≠ named "C1" := by decide +kernel
    have other : ∀ reader ∈ [named "A2", named "A10"], reader ≠ named "B1" := by decide +kernel
    have read (reader : Address) : reader ∈ [named "A2", named "A10"] ↔ (named "A1", reader) ∈ edgesAfter branching := by
      simpa [edgesAfter, branching, Change.applied, apart] using other reader
    exact (sorted _ _ (by decide +kernel) read).symm.trans (by decide +kernel)
  · have straight : ∀ cell, ReflTransGen (ofChanges branching).Edge (named "A1") cell →
        ¬ TransGen (ofChanges branching).Edge cell cell := by
      intro cell reaches circle
      have missing := (updateOrder?_eq_none_iff (represents_ofChanges branching) _).mpr ⟨cell, reaches, circle⟩
      rw [found] at missing
      cases missing
    have same := Option.some.inj ((recursive straight).symm.trans found)
    rw [← List.reverse_reverse (Search.postOrder _ _), same]
    rfl

end Graph
end Worksheet
