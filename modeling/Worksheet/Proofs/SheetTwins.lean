import Worksheet.Proofs.DocumentReplay
import Worksheet.Proofs.WalkAnswers

/-! Two sheets that store the same contents answer every edit in the same way and go on storing the same
contents, however different the histories are that they have. A document that is loaded twice gives
two such sheets. -/

namespace Worksheet.Sheet

/-- Two sheets with the same contents. -/
structure Twins (sheet other : Sheet) : Prop where
  left : sheet.Valid
  right : other.Valid
  contents : ∀ address, stored? other.cells address = stored? sheet.cells address

variable {sheet other : Sheet}

theorem Valid.twins (valid : Valid sheet) (valid' : Valid other)
    (same : ∀ address : Address, other.cells[address]? = sheet.cells[address]?) : Twins sheet other := by
  refine ⟨valid, valid', ?_⟩
  intro address
  rw [stored?, stored?, same]

namespace Twins

theorem trans {last : Sheet} (first : Twins sheet other) (second : Twins other last) : Twins sheet last :=
  ⟨first.left, second.right, fun address => (second.contents address).trans (first.contents address)⟩

theorem cells (twins : Twins sheet other) (address : Address) : other.cells[address]? = sheet.cells[address]? :=
  twins.left.cells_eq twins.right twins.contents address

theorem graph (twins : Twins sheet other) : other.graph.Same sheet.graph :=
  twins.left.graph_same twins.right twins.contents

theorem valueAt (twins : Twins sheet other) (address : Address) : other.valueAt address = sheet.valueAt address := by
  rw [Sheet.valueAt, Sheet.valueAt, twins.cells]

theorem size (twins : Twins sheet other) : other.cells.size = sheet.cells.size :=
  (Std.TreeMap.Equiv.of_forall_constGet?_eq twins.cells).size_eq

theorem document (twins : Twins sheet other) : Document.ofSheet other = Document.ofSheet sheet :=
  ofSheet_congr twins.cells

theorem rewired (twins : Twins sheet other) (address : Address) (inputs : List Address) :
    (other.rewire address inputs).graph.Same (sheet.rewire address inputs).graph := by
  have left := twins.left.graph.setPrecedents address inputs
  have right := twins.right.graph.setPrecedents address inputs
  rw [edges_congr twins.contents] at right
  exact right.same left

/-- The same cells are recomputed in the same order, or the same circle is found. -/
theorem store (twins : Twins sheet other) (address : Address) (contents : Contents) :
    (other.store address contents).1 = (sheet.store address contents).1 ∧
      Twins (sheet.store address contents).2 (other.store address contents).2 := by
  have answer : (other.store address contents).1 = (sheet.store address contents).1 := by
    rw [answer_store, answer_store, (twins.rewired address contents.reads).updateOrder?_eq]
  refine ⟨answer, twins.left.store address contents, twins.right.store address contents, ?_⟩
  intro cell
  rcases store_cases twins.left address contents with ⟨order, same, _⟩ | ⟨f, _, _, same⟩
  · rcases store_cases twins.right address contents with ⟨order', same', _⟩ | ⟨f, _, _, same'⟩
    · rw [same, same', stored?_settle, stored?_settle]
      exact if_congr Iff.rfl rfl (twins.contents cell)
    · rw [same, same'] at answer
      cases answer
  · rcases store_cases twins.right address contents with ⟨order', same', _⟩ | ⟨f', _, _, same'⟩
    · rw [same, same'] at answer
      cases answer
    · rw [same, same']
      exact twins.contents cell

theorem enter (twins : Twins sheet other) (name entry : String) :
    (other.enter name entry).1 = (sheet.enter name entry).1 ∧ Twins (sheet.enter name entry).2 (other.enter name entry).2 := by
  unfold Sheet.enter
  split
  next => exact ⟨rfl, twins⟩
  next =>
    split
    next => exact ⟨rfl, twins⟩
    next => exact twins.store _ _

end Twins

/-- A text that has been loaded once can be loaded with any options, and the sheets are twins. -/
theorem ofJson_twins {text : String} {options : Options} (built : ofJson text options = .ok sheet) (others : Options) :
    ∃ twin, ofJson text others = .ok twin ∧ Twins sheet twin ∧ twin.options = others ∧ twin.changed = false := by
  unfold ofJson at built ⊢
  cases parsed : Document.parse text with
  | error e => simp [parsed, Except.mapError, bind, Except.bind] at built
  | ok document =>
    simp only [parsed, Except.mapError, bind, Except.bind] at built ⊢
    rcases document.toSheet_cases options with ⟨first, built', sound, stores, valid, _⟩ | ⟨_, _, _, _, _, _, _, _, refused⟩
    · obtain rfl := Except.ok.inj (built'.symm.trans built)
      rcases document.toSheet_cases others with ⟨twin, loaded, _, stores', valid', kept, saved⟩ |
        ⟨front, key, entry, back, e, split, _, spoils, _⟩
      · refine ⟨twin, loaded, ⟨valid, valid', fun address => ?_⟩, kept, saved⟩
        exact Option.ext fun contents => (stores' address contents).trans (stores address contents).symm
      · rw [split, List.append_cons] at sound
        exact absurd sound.left spoils.not_sound
    · rw [refused] at built
      cases built

theorem ofJson_fresh {text : String} {options : Options} (built : ofJson text options = .ok sheet) :
    sheet.options = options ∧ sheet.changed = false := by
  obtain ⟨twin, again, _, kept, saved⟩ := ofJson_twins built options
  obtain rfl := Except.ok.inj (again.symm.trans built)
  exact ⟨kept, saved⟩

theorem Twins.restored (twins : Twins sheet other) (saved : other.changed = false) : Restored sheet other :=
  ⟨twins.cells, twins.graph, saved, fun layout => by rw [twins.document]⟩

/-- A text that is loaded as a twin of the sheet, whatever the options are. -/
def Recovers (text : String) (sheet : Sheet) : Prop :=
  ∀ options, ∃ loaded, ofJson text options = .ok loaded ∧ Twins sheet loaded

theorem recovers_of_ofJson {text : String} {options : Options} (built : ofJson text options = .ok sheet) :
    Recovers text sheet := by
  intro others
  obtain ⟨twin, again, twins, _⟩ := ofJson_twins built others
  exact ⟨twin, again, twins⟩

theorem Valid.recovers (valid : Valid sheet) (enterable : Enterable sheet) (layout : Json.Layout) :
    Recovers ((Document.ofSheet sheet).write layout) sheet := by
  intro options
  obtain ⟨loaded, built, restored, _⟩ := valid.restored enterable layout options
  exact ⟨loaded, built, valid.twins (Enterable.kept.ofJson built).1 restored.cells⟩

theorem Recovers.twins {text : String} (recovers : Recovers text other) (twins : Twins sheet other) : Recovers text sheet := by
  intro options
  obtain ⟨loaded, built, again⟩ := recovers options
  exact ⟨loaded, built, twins.trans again⟩

end Worksheet.Sheet
