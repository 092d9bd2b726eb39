import Worksheet.Proofs.SheetReachable

/-! What a sheet shows and what its graph holds are determined by the contents that are stored, at
every point of a run. No value is ever out of date, and no edge is ever left over or missing. -/

namespace Worksheet.Sheet

variable {sheet : Sheet}

theorem contentsAt_eq_formula_iff {address : Address} {f : Formula} :
    sheet.contentsAt address = .formula f ↔ stored? sheet.cells address = some (.formula f) := by
  rw [contentsAt, ← stored?]
  cases stored? sheet.cells address with
  | none => simp
  | some contents => simp

theorem reads_iff_contentsAt {input reader : Address} :
    Reads sheet.cells input reader ↔ ∃ f, sheet.contentsAt reader = .formula f ∧ input ∈ f.inputs := by
  simp only [contentsAt_eq_formula_iff, Reads]

theorem dependents_of_parse {name : String} {address : Address} (named : Address.parse name = .ok address) :
    sheet.dependents name = .ok (sheet.graph.dependents address).toList := by
  simp only [dependents, named]
  rfl

private def edited : Session := (Session.start {}).run [.enter "A1" "2", .enter "B1" "=A1*3", .enter "D1" "=B1+C1",
  .enter "C1" "=B1", .enter "A1" "=D1", .enter "B1" "x", .enter "C1" "=A1*4", .enter "B1" "=A1+A1"]

private theorem edited_reachable : Reachable edited.sheet := Session.run_reachable (.new {}) _

/-- The number that a cell shows, spelled out: text, an error and a cell that is not there have none. -/
def shownNumber (sheet : Sheet) (address : Address) : Option Float :=
  match sheet.cells[address]? with
  | some ⟨_, .number value⟩ => some value
  | some ⟨_, .text _⟩ | some ⟨_, .error _⟩ | some ⟨_, .empty⟩ | none => none

theorem numberAt?_eq_shownNumber (sheet : Sheet) : numberAt? sheet.cells = sheet.shownNumber := by
  funext address
  unfold numberAt? shownNumber
  rcases sheet.cells[address]? with - | ⟨_, - | - | - | -⟩ <;> rfl

/-- Every cell shows what its contents amount to with the numbers that the cells show at the end of
the run. -/
theorem value_of_contents (reached : Reachable sheet) {address : Address} {cell : Cell}
    (stored : sheet.cells[address]? = some cell) :
    cell.contents ≠ .empty ∧ cell.value = cell.contents.valued sheet.shownNumber := by
  have valid := reached.valid
  refine ⟨?_, numberAt?_eq_shownNumber sheet ▸ valid.current address cell stored⟩
  intro emptied
  apply valid.filled address
  rw [stored?, stored, Option.map_some, emptied]

private def total : Address := (Address.parse? "D1").get (by decide)

theorem value_of_last_contents : ∃ cell, Reachable edited.sheet ∧ edited.sheet.cells[total]? = some cell ∧
    cell.contents.editText = "=B1+C1" ∧ cell.value = .number 12 ∧ cell.contents ≠ .empty ∧
    cell.value = cell.contents.valued edited.sheet.shownNumber := by
  have shown : edited.sheet.cells[total]?.map (fun cell => (cell.contents.editText, cell.value)) =
      some ("=B1+C1", .number 12) := by decide +kernel
  obtain ⟨cell, stored, same⟩ := Option.map_eq_some_iff.mp shown
  obtain ⟨text, value⟩ := Prod.mk.inj same
  exact ⟨cell, edited_reachable, stored, text, value, value_of_contents edited_reachable stored⟩

/-- The graph is that of the stored formulas, in both directions and in number, and it has no circle
anywhere. -/
theorem graph_of_contents (reached : Reachable sheet) :
    (∀ address, (sheet.graph.precedents address).toList = (sheet.contentsAt address).reads) ∧
    (∀ name address, Address.parse name = .ok address → ∃ readers, sheet.dependents name = .ok readers ∧
      ∀ reader, reader ∈ readers ↔ ∃ f, sheet.contentsAt reader = .formula f ∧ address ∈ f.inputs) ∧
    sheet.graph.size = (sheet.cells.toList.map fun (_, cell) => cell.contents.reads.length).sum ∧
    sheet.graph.Acyclic := by
  have valid := reached.valid
  refine ⟨?_, ?_, ?_, valid.acyclic⟩
  · intro address
    have same (input : Address) : input ∈ sheet.graph.precedents address ↔ input ∈ (sheet.contentsAt address).reads := by
      rw [valid.graph.precedents, mem_edges, reads_iff_contentsAt, Contents.mem_reads]
    cases held : sheet.contentsAt address with
    | formula f =>
      apply Std.TreeSet.Equiv.toList_eq
      apply Std.TreeSet.Equiv.of_forall_mem_iff
      intro input
      rw [same, held, Contents.reads, Contents.formula?, Std.TreeSet.mem_toList]
    | empty | number | text =>
      apply List.eq_nil_iff_forall_not_mem.mpr
      intro input member
      rw [Std.TreeSet.mem_toList, same, held] at member
      cases member
  · intro name address named
    refine ⟨_, dependents_of_parse named, ?_⟩
    intro reader
    rw [Std.TreeSet.mem_toList, valid.graph.dependents, mem_edges, reads_iff_contentsAt]
  · rw [valid.graph.size, card_edges]

theorem graph_of_last_contents : Reachable edited.sheet ∧ (edited.sheet.graph.precedents total).toList.map Address.text = ["B1", "C1"] ∧
    edited.sheet.graph.size = 4 ∧ edited.sheet.graph.Acyclic := by
  obtain ⟨precedents, _, size, acyclic⟩ := graph_of_contents edited_reachable
  refine ⟨edited_reachable, ?_, size.trans (by decide +kernel), acyclic⟩
  rw [precedents]
  decide +kernel

end Worksheet.Sheet
