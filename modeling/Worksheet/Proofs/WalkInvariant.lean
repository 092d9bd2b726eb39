import Mathlib.Data.List.Chain
import Mathlib.Logic.Relation
import Worksheet.Graph.Walk
import Worksheet.Proofs.GraphEdges

/-! The walk keeps a path from its first node on the stack, and it finishes a node only after all
its dependents. A count of the edges that are still to be looked at falls with every step, so
the walk ends on any graph. -/

namespace Worksheet
open Relation

variable {α : Type} [Ord α]

namespace Graph

def Edge (g : Graph α) (node next : α) : Prop := next ∈ g.dependents node

/-- Every dependent of a listed node is listed behind it. -/
def Ordered (g : Graph α) : List α → Prop
  | [] => True
  | node :: rest => (∀ next, g.Edge node next → next ∈ rest) ∧ g.Ordered rest

end Graph

namespace Walk

def path (w : Walk α) : List α := w.stack.map Prod.fst

/-- The dependents of the stack's nodes that have been looked at are finished, except that of each
node but the present one the last of them is the node above. -/
def Seen (g : Graph α) (finished : List α) : Option α → List (α × List α) → Prop
  | _, [] => True
  | above, (node, rest) :: below =>
    (∃ seen, (g.dependents node).toList = seen ++ rest ∧ ∀ next ∈ seen, next ∈ finished ∨ above = some next) ∧
      Seen g finished (some node) below

structure Valid (g : Graph α) (first : α) (w : Walk α) : Prop where
  entered : ∀ node : α, w.marks[node]? = some .entered ↔ node ∈ w.path
  finished : ∀ node : α, w.marks[node]? = some .finished ↔ node ∈ w.finished
  pathNodup : w.path.Nodup
  finishedNodup : w.finished.Nodup
  linked : w.path.IsChain fun above below => g.Edge below above
  bottom : w.path.getLast? = some first ∨ w.path = [] ∧ w.finished.head? = some first
  reached : ∀ node, node ∈ w.path ∨ node ∈ w.finished → ReflTransGen g.Edge first node
  seen : Seen g w.finished none w.stack
  ordered : g.Ordered w.finished
  /-- The walk stops early only on a circle that the first node reaches. -/
  circle : w.looped = true → ∃ node, ReflTransGen g.Edge first node ∧ TransGen g.Edge node node

variable {g : Graph α} {first : α}

theorem Seen.mono {finished more : List α} {above : Option α} {stack : List (α × List α)}
    (seen : Seen g finished above stack) (grows : ∀ node ∈ finished, node ∈ more) : Seen g more above stack := by
  induction stack generalizing above with
  | nil => trivial
  | cons frame below ih =>
    obtain ⟨⟨looked, same, done⟩, under⟩ := seen
    exact ⟨⟨looked, same, fun next member => (done next member).imp_left (grows next)⟩, ih under⟩

/-- Once the node above is finished, nothing is left out for the node that becomes the present one. -/
theorem Seen.finish {finished : List α} {node : α} {stack : List (α × List α)}
    (seen : Seen g finished (some node) stack) : Seen g (node :: finished) none stack := by
  cases stack with
  | nil => trivial
  | cons frame below =>
    obtain ⟨⟨looked, same, done⟩, under⟩ := seen
    refine ⟨⟨looked, same, fun next member => Or.inl ?_⟩, under.mono fun _ => List.mem_cons_of_mem _⟩
    rcases done next member with done | same
    · exact List.mem_cons_of_mem _ done
    · rw [Option.some.inj same]
      exact List.mem_cons_self

theorem reaches_top {top node : α} {path : List α} (linked : (top :: path).IsChain fun above below => g.Edge below above)
    (member : node ∈ top :: path) : ReflTransGen g.Edge node top := by
  induction path generalizing top with
  | nil => rw [List.mem_singleton.mp member]
  | cons second path ih =>
    rw [List.isChain_cons_cons] at linked
    rcases List.mem_cons.mp member with rfl | member
    · exact .refl
    · exact (ih linked.2 member).tail linked.1

private theorem Valid.skip {w : Walk α} {node next : α} {rest : List α} {below : List (α × List α)}
    (valid : Valid g first w) (present : w.stack = (node, next :: rest) :: below)
    (met : w.marks[next]? = some .finished) : Valid g first { w with stack := (node, rest) :: below } := by
  have path : Walk.path { w with stack := (node, rest) :: below } = w.path := by simp [Walk.path, present]
  have seen := valid.seen
  rw [present] at seen
  obtain ⟨⟨looked, same, done⟩, under⟩ := seen
  refine { valid with
    entered := fun other => by rw [path]; exact valid.entered other
    pathNodup := by rw [path]; exact valid.pathNodup
    linked := by rw [path]; exact valid.linked
    bottom := by rw [path]; exact valid.bottom
    reached := fun other member => valid.reached other (by rwa [path] at member)
    seen := ⟨⟨looked ++ [next], by simp [same], fun other member => ?_⟩, under⟩ }
  rcases List.mem_append.mp member with member | member
  · exact done other member
  · rw [List.mem_singleton.mp member]
    exact Or.inl ((valid.finished next).mp met)

variable [Std.TransOrd α] [Std.LawfulEqOrd α]

theorem edge_iff_mem_toList {node next : α} : g.Edge node next ↔ next ∈ (g.dependents node).toList :=
  Std.TreeSet.mem_toList.symm

/-- A dependent that is on the path closes a circle. -/
private theorem Valid.meet {w : Walk α} {node next : α} {rest : List α} {below : List (α × List α)}
    (valid : Valid g first w) (present : w.stack = (node, next :: rest) :: below)
    (met : w.marks[next]? = some .entered) : Valid g first { w with looped := true } := by
  refine { valid with circle := fun _ => ?_ }
  have inside := (valid.entered next).mp met
  have path : w.path = node :: below.map Prod.fst := by simp [Walk.path, present]
  have seen := valid.seen
  rw [present] at seen
  obtain ⟨⟨looked, same, done⟩, under⟩ := seen
  have edge : g.Edge node next := edge_iff_mem_toList.mpr (by simp [same])
  have back := reaches_top (path ▸ valid.linked) (path ▸ inside)
  exact ⟨next, valid.reached next (Or.inl inside), TransGen.tail' back edge⟩

variable [DecidableEq α]

theorem Valid.start (g : Graph α) (first : α) : Valid g first (Walk.start g first) := by
  have marks (node : α) (mark : Mark) : (Walk.start g first).marks[node]? = some mark ↔ node = first ∧ mark = .entered := by
    simp only [Walk.start, Std.TreeMap.getElem?_insert, Std.compare_eq_iff_eq]
    split
    next same => simp [same, eq_comm]
    next other => simp [Ne.symm other]
  constructor
  case entered =>
    intro node
    rw [marks]
    simp [Walk.path, Walk.start]
  case finished =>
    intro node
    rw [marks]
    simp [Walk.start]
  case bottom => exact Or.inl rfl
  case reached =>
    intro node member
    simp only [Walk.path, Walk.start, List.map_cons, List.map_nil, List.mem_singleton, List.not_mem_nil, or_false] at member
    rw [member]
  case seen => exact ⟨⟨[], rfl, by simp⟩, trivial⟩
  all_goals simp [Walk.path, Walk.start, Graph.Ordered]

/-- A node whose dependents are all looked at has only finished dependents, so it may go in front. -/
private theorem Valid.finish {w : Walk α} {node : α} {below : List (α × List α)} (valid : Valid g first w)
    (present : w.stack = (node, []) :: below) :
    Valid g first { w with marks := w.marks.insert node .finished, stack := below, finished := node :: w.finished } := by
  have path : w.path = node :: below.map Prod.fst := by simp [Walk.path, present]
  have distinct := valid.pathNodup
  rw [path, List.nodup_cons] at distinct
  have open_ : node ∉ w.finished := by
    rw [← valid.finished, (valid.entered node).mpr (by simp [path])]
    simp
  have seen := valid.seen
  rw [present] at seen
  obtain ⟨⟨looked, same, done⟩, under⟩ := seen
  rw [List.append_nil] at same
  constructor
  case entered =>
    intro other
    simp only [Std.TreeMap.getElem?_insert, Std.compare_eq_iff_eq]
    split
    next equal => simpa [Walk.path, ← equal] using distinct.1
    next different =>
      rw [valid.entered, path, List.mem_cons]
      exact or_iff_right (Ne.symm different)
  case finished =>
    intro other
    simp only [Std.TreeMap.getElem?_insert, Std.compare_eq_iff_eq]
    split
    next equal => simp [equal]
    next different => simp [valid.finished, Ne.symm different]
  case pathNodup => exact distinct.2
  case finishedNodup => exact List.nodup_cons.mpr ⟨open_, valid.finishedNodup⟩
  case linked => exact (path ▸ valid.linked).tail
  case bottom =>
    have bottom := valid.bottom
    rw [path] at bottom
    cases below with
    | nil => simpa [Walk.path] using bottom
    | cons frame below => simpa [Walk.path] using bottom
  case reached =>
    intro other member
    apply valid.reached
    rw [path]
    simp only [Walk.path, List.mem_cons] at member ⊢
    tauto
  case seen => exact under.finish
  case ordered =>
    refine ⟨fun next edge => ?_, valid.ordered⟩
    rw [edge_iff_mem_toList, same] at edge
    simpa using done next edge
  case circle => exact valid.circle

private theorem Valid.enter {w : Walk α} {node next : α} {rest : List α} {below : List (α × List α)}
    (valid : Valid g first w) (present : w.stack = (node, next :: rest) :: below) (met : w.marks[next]? = none) :
    Valid g first { w with
      marks := w.marks.insert next .entered
      stack := (next, (g.dependents next).toList) :: (node, rest) :: below } := by
  have path : w.path = node :: below.map Prod.fst := by simp [Walk.path, present]
  have fresh : next ∉ w.path ∧ next ∉ w.finished := by
    rw [← valid.entered, ← valid.finished, met]
    simp
  have seen := valid.seen
  rw [present] at seen
  obtain ⟨⟨looked, same, done⟩, under⟩ := seen
  have edge : g.Edge node next := edge_iff_mem_toList.mpr (by simp [same])
  constructor
  case entered =>
    intro other
    simp only [Std.TreeMap.getElem?_insert, Std.compare_eq_iff_eq]
    split
    next equal => simp [Walk.path, equal]
    next different =>
      rw [valid.entered, path]
      exact (or_iff_right (Ne.symm different)).symm.trans List.mem_cons.symm
  case finished =>
    intro other
    simp only [Std.TreeMap.getElem?_insert, Std.compare_eq_iff_eq]
    split
    next equal => simpa [← equal] using fresh.2
    next different => exact valid.finished other
  case pathNodup =>
    have nodup := List.nodup_cons.mpr ⟨fresh.1, valid.pathNodup⟩
    rwa [path] at nodup
  case finishedNodup => exact valid.finishedNodup
  case linked => exact List.isChain_cons_cons.mpr ⟨edge, path ▸ valid.linked⟩
  case bottom =>
    have bottom := valid.bottom
    rw [path] at bottom
    simpa [Walk.path] using bottom
  case reached =>
    intro other member
    have known := valid.reached node (Or.inl (by simp [path]))
    simp only [Walk.path, List.map_cons, List.mem_cons] at member
    rcases member with (rfl | member) | member
    · exact known.tail edge
    · exact valid.reached other (Or.inl (by simpa [path] using member))
    · exact valid.reached other (Or.inr member)
  case seen =>
    refine ⟨⟨[], rfl, by simp⟩, ⟨looked ++ [next], by simp [same], fun other member => ?_⟩, under⟩
    rcases List.mem_append.mp member with member | member
    · exact Or.inl (by simpa using done other member)
    · exact Or.inr (congrArg some (List.mem_singleton.mp member).symm)
  case ordered => exact valid.ordered
  case circle => exact valid.circle

theorem Valid.step {w : Walk α} (valid : Valid g first w) : Valid g first (w.step g) := by
  unfold Walk.step
  split
  next => exact valid
  next node below present => exact valid.finish present
  next node next rest below present =>
    split
    next met => exact valid.meet present met
    next met => exact valid.skip present met
    next met => exact valid.enter present met

theorem Valid.run {w : Walk α} (valid : Valid g first w) (steps : Nat) : Valid g first (w.run g steps) := by
  induction steps generalizing w with
  | zero => exact valid
  | succ steps ih =>
    unfold Walk.run
    split
    · exact valid
    · exact ih valid.step

end Walk
end Worksheet
