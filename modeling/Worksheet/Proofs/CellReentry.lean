import Worksheet.Proofs.SheetHistory

/-! Entering what a cell holds already. The edit takes the edges of the cell away and puts them back, and it
recomputes the cell and all that read it; but contents determine the values and the edges of a sheet,
so all of that ends where it began. -/

namespace Worksheet.Sheet
open Relation

variable {sheet : Sheet}

theorem contents_of_parse {name : String} {address : Address} (named : Address.parse name = .ok address) :
    sheet.contents name = .ok (sheet.contentsAt address) := by
  simp only [contents, named]
  rfl

theorem Enterable.parse_contentsAt (enterable : Enterable sheet) (address : Address) :
    Contents.parse (sheet.contentsAt address).editText = .ok (sheet.contentsAt address) := by
  rw [contentsAt, ← stored?]
  cases held : stored? sheet.cells address with
  | none => rfl
  | some contents => exact enterable address contents held

/-- A stored formula cannot close a circle, since it would have been there before. -/
theorem Valid.not_reaches_input (valid : Valid sheet) {address input : Address} {f : Formula}
    (held : sheet.contentsAt address = .formula f) (mentioned : input ∈ f.inputs) :
    ¬ ReflTransGen (Reads sheet.cells) address input := by
  intro reaches
  have reads : Reads sheet.cells input address := ⟨f, contentsAt_eq_formula_iff.mp held, mentioned⟩
  exact valid.straight address (TransGen.tail' reaches reads)

theorem Valid.store_contentsAt (valid : Valid sheet) (address : Address) :
    ∃ order after, sheet.store address (sheet.contentsAt address) = (.ok order, after) ∧
      Same after { sheet with changed := true } := by
  rcases store_cases valid address (sheet.contentsAt address) with
    ⟨order, same, ordered, apart⟩ | ⟨f, held, ⟨input, mentioned, reaches⟩, _⟩
  · have valid' := valid.settle ordered apart
    have agree (other : Address) :
        stored? ((sheet.rewire address (sheet.contentsAt address).reads).settle address (sheet.contentsAt address) order).2.cells
          other = stored? sheet.cells other := by
      rw [stored?_settle]
      split
      next equal =>
        rw [equal]
        exact (valid.stored?_eq address).symm
      next => rfl
    exact ⟨order, _, same, valid.cells_eq valid' agree, valid.graph_same valid' agree, rfl, rfl⟩
  · exact absurd reaches (valid.not_reaches_input held mentioned)

/-- Any cell takes the edit text of its own contents, and afterwards the sheet differs from what it was in
nothing but that it counts as changed. -/
theorem same_after_reentry (reached : Reachable sheet) {name : String} {address : Address}
    (named : Address.Names name address) :
    ∃ shown order after, sheet.contents name = .ok shown ∧ sheet.enter name shown.editText = (.ok order, after) ∧
      Same after { sheet with changed := true } := by
  have named := Address.parse_eq_ok_iff.mpr named
  obtain ⟨order, after, accepted, same⟩ := reached.valid.store_contentsAt address
  refine ⟨_, order, after, contents_of_parse named, ?_, same⟩
  simp only [enter, named, reached.enterable.parse_contentsAt address]
  exact accepted

private def shared : Session := (Session.start {}).run [.enter "A1" "=B1+B1*2", .enter "D1" "=A1-B1", .enter "B1" "= c1 + 1.50",
  .enter "C1" "-0", .reload]

/-- The formula is entered as it is shown, without the spaces that it was first entered with. -/
theorem same_after_reentry_between : ∃ (after : Sheet) (order : List Address), Reachable shared.sheet ∧
    shared.sheet.changed = false ∧ shared.sheet.enter "b1" "=C1+1.5" = (.ok order, after) ∧
    Same after { shared.sheet with changed := true } := by
  have reached : Reachable shared.sheet := Session.run_reachable (.new {}) _
  have found : (Address.parse? "b1").isSome = true := by decide +kernel
  obtain ⟨address, parsed⟩ := Option.isSome_iff_exists.mp found
  obtain ⟨shown, order, after, held, accepted, same⟩ := same_after_reentry reached (Address.parse?_eq_some_iff.mp parsed)
  obtain ⟨unchanged, text⟩ : shared.sheet.changed = false ∧
      (shared.sheet.contents "b1").toOption.map Contents.editText = some "=C1+1.5" := by decide +kernel
  rw [held] at text
  rw [Option.some.inj text] at accepted
  exact ⟨after, order, reached, unchanged, accepted, same⟩

end Worksheet.Sheet
