import Worksheet.Proofs.SheetValues

/-! The graph of a sheet is that of its stored formulas and has no circle, and every cell shows what
its contents amount to. Storing contents keeps all of this: where it succeeds the new edges and the
new values belong to the new contents, and where it is refused nothing that can be seen changes. -/

namespace Worksheet.Sheet
open Relation

variable {cells : Std.TreeMap Address Cell} {sheet : Sheet}

def edges (cells : Std.TreeMap Address Cell) : Finset (Address × Address) :=
  (cells.toList.flatMap fun (address, cell) => cell.contents.reads.map (·, address)).toFinset

theorem mem_edges {input reader : Address} : (input, reader) ∈ edges cells ↔ Reads cells input reader := by
  rw [edges, List.mem_toFinset, List.mem_flatMap, reads_iff]
  constructor
  · rintro ⟨⟨address, cell⟩, member, pair⟩
    obtain ⟨a, inside, same⟩ := List.mem_map.mp pair
    obtain ⟨rfl, rfl⟩ := Prod.mk.inj same
    rw [Std.TreeMap.mem_toList_iff_getElem?_eq_some] at member
    exact ⟨cell.contents, by rw [stored?, member]; rfl, inside⟩
  · rintro ⟨contents, found, inside⟩
    obtain ⟨cell, member, rfl⟩ := Option.map_eq_some_iff.mp found
    rw [← Std.TreeMap.mem_toList_iff_getElem?_eq_some] at member
    exact ⟨(reader, cell), member, List.mem_map.mpr ⟨input, inside, rfl⟩⟩

/-- No edge is counted for two cells, and none twice for one cell. -/
theorem card_edges : (edges cells).card = (cells.toList.map fun (_, cell) => cell.contents.reads.length).sum := by
  have nodup : (cells.toList.flatMap fun (address, cell) => cell.contents.reads.map (·, address)).Nodup := by
    rw [List.nodup_flatMap]
    constructor
    · rintro ⟨address, cell⟩ _
      exact cell.contents.nodup_reads.map fun _ _ same => (Prod.mk.inj same).1
    · apply cells.distinct_keys_toList.imp
      rintro ⟨first, _⟩ ⟨second, _⟩ different pair one two
      obtain ⟨_, _, rfl⟩ := List.mem_map.mp one
      obtain ⟨_, _, same⟩ := List.mem_map.mp two
      rw [(Prod.mk.inj same).2] at different
      exact different Std.ReflCmp.compare_self
  rw [edges, List.toFinset_card_of_nodup nodup, List.length_flatMap]
  simp only [List.length_map]

/-- What holds of a sheet before and after every edit. -/
structure Valid (sheet : Sheet) : Prop where
  filled : ∀ address, stored? sheet.cells address ≠ some .empty
  current : ∀ address, Current sheet.cells address
  graph : sheet.graph.Represents (edges sheet.cells)
  acyclic : sheet.graph.Acyclic

theorem Valid.new (options : Options) : Valid (.new options) := by
  have unread (input reader : Address) : ¬ Reads ∅ input reader := by
    rintro ⟨f, found, _⟩
    simp [stored?] at found
  have none_ : edges ∅ = ∅ := by
    rw [Finset.eq_empty_iff_forall_notMem]
    exact fun edge member => unread edge.1 edge.2 (mem_edges.mp member)
  refine ⟨by simp [stored?, Sheet.new], ?_, none_ ▸ Graph.Represents.empty, ?_⟩
  · intro address cell found
    simp [Sheet.new] at found
  · intro node circle
    obtain ⟨next, edge, _⟩ := TransGen.head'_iff.mp circle
    exact absurd ((Graph.Represents.empty.dependents node next).mp edge) (Finset.notMem_empty _)

theorem Valid.edge_eq (valid : Valid sheet) : sheet.graph.Edge = Reads sheet.cells := by
  funext input reader
  exact propext ((valid.graph.dependents input reader).trans mem_edges)

theorem Valid.straight (valid : Valid sheet) (address : Address) : ¬ TransGen (Reads sheet.cells) address address :=
  valid.edge_eq ▸ valid.acyclic address

structure Same (s t : Sheet) : Prop where
  cells : ∀ address : Address, s.cells[address]? = t.cells[address]?
  graph : s.graph.Same t.graph
  options : s.options = t.options
  changed : s.changed = t.changed

theorem Valid.same (valid : Valid sheet) : Same sheet sheet := ⟨fun _ => rfl, valid.graph.same valid.graph, rfl, rfl⟩

/-- All that storing contents can do. It is refused exactly if the cell would read itself, which only
a formula can do, and then the former edges are put back. -/
theorem store_cases (valid : Valid sheet) (address : Address) (contents : Contents) :
    (∃ order, sheet.store address contents = (sheet.rewire address contents.reads).settle address contents order ∧
      (sheet.rewire address contents.reads).graph.UpdateOrder address order ∧
      ∀ input ∈ contents.reads, ¬ ReflTransGen (Reads sheet.cells) address input) ∨
    ∃ f, contents = .formula f ∧ (∃ input ∈ f.inputs, ReflTransGen (Reads sheet.cells) address input) ∧
      sheet.store address contents = (.error (.circular address),
        (sheet.rewire address f.inputs.toList).rewire address (sheet.graph.precedents address).toList) := by
  have refused := Graph.updateOrder?_setPrecedents_eq_none_iff valid.graph valid.acyclic address contents.reads
  rw [valid.edge_eq] at refused
  rcases Graph.updateOrder?_cases (valid.graph.setPrecedents address contents.reads) address with
    ⟨order, found, ordered⟩ | ⟨found, _⟩
  · refine Or.inl ⟨order, ?_, ordered, ?_⟩
    · cases contents with
      | formula f =>
        change (sheet.rewire address f.inputs.toList).graph.updateOrder? address = some order at found
        simp only [store, Contents.formula?, found]
        rfl
      | empty | number | text =>
        change (sheet.rewire address []).graph.updateOrder? address = some order at found
        simp only [store, Contents.formula?, found]
        rfl
    · intro input member reaches
      rw [refused.mpr ⟨input, member, reaches⟩] at found
      cases found
  · obtain ⟨input, member, reaches⟩ := refused.mp found
    obtain ⟨f, rfl, mentioned⟩ := Contents.mem_reads.mp member
    change (sheet.rewire address f.inputs.toList).graph.updateOrder? address = none at found
    exact Or.inr ⟨f, rfl, ⟨input, mentioned, reaches⟩, by simp only [store, Contents.formula?, found]⟩

theorem edges_place (address : Address) (contents : Contents) :
    edges (place cells address contents) =
      ((edges cells).filter fun edge => edge.2 ≠ address) ∪ contents.reads.toFinset.image (·, address) := by
  ext ⟨input, reader⟩
  rw [mem_edges, reads_place]
  simp only [Finset.mem_union, Finset.mem_filter, mem_edges, Finset.mem_image, List.mem_toFinset, Prod.mk.injEq]
  grind

theorem edges_foldl_recompute (order : List Address) : edges (order.foldl recompute cells) = edges cells := by
  ext ⟨input, reader⟩
  simp only [mem_edges, Reads, stored?_foldl_recompute]

theorem stored?_place (address other : Address) (contents : Contents) :
    stored? (place cells address contents) other =
      if other = address then (if contents = .empty then none else some contents) else stored? cells other := by
  split
  next same =>
    subst same
    rw [stored?, place_same]
    split <;> rfl
  next different => rw [stored?, place_other different, stored?]

theorem stored?_settle (sheet : Sheet) (address other : Address) (contents : Contents) (order : List Address) :
    stored? (sheet.settle address contents order).2.cells other =
      if other = address then (if contents = .empty then none else some contents) else stored? sheet.cells other :=
  (stored?_foldl_recompute order other).trans (stored?_place address other contents)

theorem Valid.settle (valid : Valid sheet) {address : Address} {contents : Contents} {order : List Address}
    (ordered : (sheet.rewire address contents.reads).graph.UpdateOrder address order)
    (apart : ∀ input ∈ contents.reads, ¬ ReflTransGen (Reads sheet.cells) address input) :
    Valid ((sheet.rewire address contents.reads).settle address contents order).2 := by
  have graph := valid.graph.setPrecedents address contents.reads
  rw [← edges_place] at graph
  constructor
  case filled =>
    intro other
    simp only [Sheet.settle, stored?_foldl_recompute, stored?_place]
    split
    · split <;> simp_all
    · exact valid.filled other
  case current =>
    exact current_settle valid.current ordered fun input reader reads =>
      (graph.dependents input reader).mpr (mem_edges.mpr reads)
  case graph =>
    simp only [Sheet.settle, edges_foldl_recompute]
    exact graph
  case acyclic =>
    apply (Graph.acyclic_setPrecedents_iff valid.graph valid.acyclic).mpr
    rwa [valid.edge_eq]

/-- A refused edit cannot be seen afterwards. -/
theorem Valid.restore (valid : Valid sheet) (address : Address) (inputs : List Address) :
    Same ((sheet.rewire address inputs).rewire address (sheet.graph.precedents address).toList) sheet :=
  ⟨fun _ => rfl, (valid.graph.restore address inputs).same valid.graph, rfl, rfl⟩

theorem Valid.store (valid : Valid sheet) (address : Address) (contents : Contents) :
    Valid (sheet.store address contents).2 := by
  rcases store_cases valid address contents with ⟨order, same, ordered, apart⟩ | ⟨f, rfl, _, same⟩
  · rw [same]
    exact valid.settle ordered apart
  · have graph := valid.graph.restore address f.inputs.toList
    rw [same]
    refine ⟨valid.filled, valid.current, graph, ?_⟩
    intro node circle
    have edges := graph.edge_eq valid.graph
    exact valid.acyclic node (edges ▸ circle)

end Worksheet.Sheet
