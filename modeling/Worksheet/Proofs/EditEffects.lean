import Worksheet.Proofs.EditRefusal

/-! What an accepted edit touches. The cells that it answers with are the edited one and all that read
it, each after the cells it reads itself; no other cell changes, and those that read the edited
one change in nothing but what they show. -/

namespace Worksheet

theorem Graph.Ordered.before {α : Type} [Ord α] {g : Graph α} {front back : List α} {node input : α}
    (ordered : g.Ordered (front ++ node :: back)) (nodup : (front ++ node :: back).Nodup)
    (member : input ∈ front ++ node :: back) (edge : g.Edge input node) : input ∈ front := by
  induction front with
  | nil =>
    rw [List.nil_append, List.nodup_cons] at nodup
    rcases List.mem_cons.mp member with rfl | behind
    · exact absurd (ordered.1 _ edge) nodup.1
    · exact absurd (ordered.2.next behind edge) nodup.1
  | cons first front ih =>
    rcases List.mem_cons.mp member with rfl | inside
    · exact List.mem_cons_self
    · exact List.mem_cons_of_mem _ (ih ordered.2 (List.nodup_cons.mp nodup).2 inside)

namespace Sheet
open Relation

variable {sheet : Sheet}

/-- What an edit of a cell did to a sheet, in terms of the contents that are stored. -/
structure Effect (before after : Sheet) (address : Address) (contents : Contents) (order : List Address) : Prop where
  head : order.head? = some address
  nodup : order.Nodup
  members : ∀ other, other ∈ order ↔ other = address ∨ TransGen (Reads after.cells) address other
  /-- The readers are the same as before the edit. -/
  readers : ∀ other, TransGen (Reads after.cells) address other ↔ TransGen (Reads before.cells) address other
  sorted : ∀ front reader back, order = front ++ reader :: back →
    ∀ input ∈ order, Reads after.cells input reader → input ∈ front
  edited : after.contentsAt address = contents ∧ (contents = .empty ↔ after.cells[address]? = none)
  kept : ∀ other, other ≠ address → after.contentsAt other = before.contentsAt other ∧
    (after.graph.precedents other).toList = (before.graph.precedents other).toList
  outside : ∀ other, other ∉ order → after.cells[other]? = before.cells[other]?

private theorem readers_congr {before after : Std.TreeMap Address Cell} {address other : Address}
    (straight : ¬ TransGen (Reads before) address address)
    (agree : ∀ input reader, reader ≠ address → Reads before input reader → Reads after input reader)
    (path : TransGen (Reads before) address other) : TransGen (Reads after) address other := by
  have reaches := Graph.reaches_congr agree path.to_reflTransGen
  rcases reflTransGen_iff_eq_or_transGen.mp reaches with rfl | path'
  · contradiction
  · exact path'

theorem Valid.precedents_toList {before after : Sheet} (valid : Valid before) (valid' : Valid after) {address : Address}
    (agree : ∀ input, Reads after.cells input address ↔ Reads before.cells input address) :
    (after.graph.precedents address).toList = (before.graph.precedents address).toList := by
  apply Std.TreeSet.Equiv.toList_eq
  apply Std.TreeSet.Equiv.of_forall_mem_iff
  intro input
  rw [valid.graph.precedents, valid'.graph.precedents, mem_edges, mem_edges, agree]

theorem Valid.effect (valid : Valid sheet) {address : Address} {contents : Contents} {order : List Address}
    (ordered : (sheet.rewire address contents.reads).graph.UpdateOrder address order)
    (apart : ∀ input ∈ contents.reads, ¬ ReflTransGen (Reads sheet.cells) address input) :
    Effect sheet ((sheet.rewire address contents.reads).settle address contents order).2 address contents order := by
  have valid' := valid.settle ordered apart
  have edges : (sheet.rewire address contents.reads).graph.Edge =
      Reads ((sheet.rewire address contents.reads).settle address contents order).2.cells := valid'.edge_eq
  have stored (other : Address) : stored? ((sheet.rewire address contents.reads).settle address contents order).2.cells other =
      if other = address then (if contents = .empty then none else some contents) else stored? sheet.cells other :=
    stored?_settle _ address other contents order
  generalize after_eq : ((sheet.rewire address contents.reads).settle address contents order).2 = after at valid' edges stored ⊢
  have agree (input reader : Address) (different : reader ≠ address) :
      Reads after.cells input reader ↔ Reads sheet.cells input reader := by
    rw [Reads, Reads, stored, if_neg different]
  constructor
  case head => exact ordered.head
  case nodup => exact ordered.nodup
  case members =>
    intro other
    rw [ordered.members, edges, reflTransGen_iff_eq_or_transGen]
  case readers =>
    intro other
    constructor
    · exact readers_congr (valid'.straight address) fun input reader different => (agree input reader different).mp
    · exact readers_congr (valid.straight address) fun input reader different => (agree input reader different).mpr
  case sorted =>
    rintro front reader back rfl input member reads
    exact ordered.ordered.before ordered.nodup member (edges ▸ reads)
  case edited =>
    have stored := stored address
    rw [if_pos rfl] at stored
    constructor
    · rw [contentsAt, ← stored?, stored]
      split
      next empty => exact empty.symm
      next => rfl
    · rw [← Option.map_eq_none_iff (f := Cell.contents), ← stored?, stored]
      simp
  case kept =>
    intro other different
    constructor
    · rw [contentsAt, ← stored?, stored, if_neg different, contentsAt, ← stored?]
    · exact valid.precedents_toList valid' fun input => agree input other different
  case outside =>
    intro other outside
    have different : other ≠ address := by
      rintro rfl
      exact outside (List.mem_of_mem_head? ordered.head)
    rw [← after_eq]
    exact (foldl_recompute_other outside).trans (place_other different)

theorem store_effect (valid : Valid sheet) {address : Address} {contents : Contents} {order : List Address} {after : Sheet}
    (accepted : sheet.store address contents = (.ok order, after)) : Effect sheet after address contents order := by
  rcases store_cases valid address contents with ⟨found, same, ordered, apart⟩ | ⟨f, _, _, same⟩
  · rw [same] at accepted
    have effect := valid.effect ordered apart
    cases accepted
    exact effect
  · rw [same] at accepted
    cases accepted

/-- Entered or put, accepted contents have the same effect. -/
theorem effect_of_edit (reached : Reachable sheet) :
    (∀ name entry order after, sheet.enter name entry = (.ok order, after) → ∃ address contents,
      Address.Names name address ∧ Contents.parse entry = .ok contents ∧ Effect sheet after address contents order) ∧
    ∀ address given order after, sheet.put address given = (.ok order, after) → ∃ contents,
      given.normalized? = some contents ∧ Effect sheet after address contents order := by
  constructor
  · intro name entry order after accepted
    rcases sheet.enter_cases name entry with ⟨_, _, same⟩ | ⟨_, _, _, _, same⟩ | ⟨address, contents, named, read, same⟩
    · rw [same] at accepted
      cases accepted
    · rw [same] at accepted
      cases accepted
    · rw [same] at accepted
      exact ⟨address, contents, Address.parse_eq_ok_iff.mp named, read, store_effect reached.valid accepted⟩
  · intro address given order after accepted
    rcases sheet.put_cases address given with ⟨_, same⟩ | ⟨contents, normal, same⟩
    · rw [same] at accepted
      cases accepted
    · rw [same] at accepted
      exact ⟨contents, normal, store_effect reached.valid accepted⟩

private def branched : Session := (Session.start {}).run [.enter "A1" "=E1", .enter "B1" "=A1*2", .enter "C1" "=B1+A1",
  .enter "D1" "7"]

private theorem branched_reachable : Reachable branched.sheet := Session.run_reachable (.new {}) _

theorem effect_of_branched_edit : ∃ (after : Sheet) (address : Address) (contents : Contents) (order : List Address),
    Reachable branched.sheet ∧ branched.sheet.enter "a1" "=D1" = (.ok order, after) ∧
      Effect branched.sheet after address contents order ∧ order.map Address.text = ["A1", "B1", "C1"] := by
  have shown : (branched.sheet.enter "a1" "=D1").1.toOption.map (·.map Address.text) = some ["A1", "B1", "C1"] := by
    decide +kernel
  cases accepted : branched.sheet.enter "a1" "=D1" with
  | mk answer after =>
    rw [accepted] at shown
    cases answer with
    | error e => cases shown
    | ok order =>
      obtain ⟨address, contents, _, _, effect⟩ := (effect_of_edit branched_reachable).1 _ _ _ _ accepted
      exact ⟨after, address, contents, order, branched_reachable, rfl, effect, Option.some.inj shown⟩

end Sheet
end Worksheet
