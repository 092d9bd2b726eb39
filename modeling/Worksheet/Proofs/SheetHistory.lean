import Worksheet.Proofs.ContentsText

/-! A sheet does not remember how it came about. Its values and its edges are determined by the
contents that it stores, and entering these contents again, in whichever order, leads to the
same values and edges over sheets that each hold a part of them. -/

namespace Worksheet
open Relation

namespace Contents

/-- Contents that cannot be told apart: numbers by their bits, formulas by their canonical texts. -/
inductive Alike : Contents → Contents → Prop where
  | empty : Alike .empty .empty
  | number {x y : Float} (bits : x.toBits = y.toBits) : Alike (.number x) (.number y)
  | text (written : String) : Alike (.text written) (.text written)
  | formula {f g : Formula} (canonical : f.canonical = g.canonical) : Alike (.formula f) (.formula g)

theorem Alike.refl (contents : Contents) : Alike contents contents := by
  cases contents with
  | empty => exact .empty
  | number => exact .number rfl
  | text written => exact .text written
  | formula => exact .formula rfl

theorem Alike.eq {contents other : Contents} (alike : Alike contents other) : contents = other := by
  cases alike with
  | empty | text => rfl
  | number bits => exact congrArg Contents.number (Float.toBits_inj.mp bits)
  | formula canonical => exact congrArg Contents.formula (Formula.eq_of_same (by simpa [Formula.same] using canonical))

end Contents

namespace Sheet

variable {sheet other : Sheet}

/-- No chain of reads goes on for ever: each cell on it but the last is stored, and none comes twice. -/
theorem Valid.wellFounded (valid : Valid sheet) : WellFounded (Reads sheet.cells) := by
  have : IsStrictOrder Address (TransGen (Reads sheet.cells)) :=
    { irrefl := valid.straight, trans := fun _ _ _ => TransGen.trans }
  have finite := Set.wellFoundedOn_iff.mp
    (sheet.cells.keys.toFinset.wellFoundedOn (r := TransGen (Reads sheet.cells)))
  have stored {input reader : Address} (reads : Reads sheet.cells input reader) : reader ∈ sheet.cells.keys.toFinset := by
    obtain ⟨f, found, _⟩ := reads
    obtain ⟨cell, present, _⟩ := Option.map_eq_some_iff.mp found
    rw [List.mem_toFinset, Std.TreeMap.mem_keys, Std.TreeMap.mem_iff_isSome_getElem?, present]
    rfl
  constructor
  intro address
  induction address using finite.induction with
  | _ reader ih =>
    constructor
    intro input reads
    by_cases inside : input ∈ sheet.cells.keys.toFinset
    · exact ih input ⟨.single reads, inside, stored reads⟩
    · constructor
      intro _ onward
      exact absurd (stored onward) inside

theorem Valid.stored?_eq (valid : Valid sheet) (address : Address) :
    stored? sheet.cells address = if sheet.contentsAt address = .empty then none else some (sheet.contentsAt address) := by
  have filled := valid.filled address
  rw [contentsAt, ← stored?]
  cases held : stored? sheet.cells address with
  | none => rfl
  | some contents =>
    rw [held, ne_eq, Option.some.injEq] at filled
    simp [filled]

/-- By induction along the reads: a cell shows what its contents amount to with the numbers that the
cells it reads show, and those are the same in both sheets. -/
theorem Valid.cells_eq (valid : Valid sheet) (valid' : Valid other)
    (agree : ∀ address, stored? other.cells address = stored? sheet.cells address) (address : Address) :
    other.cells[address]? = sheet.cells[address]? := by
  induction address using valid.wellFounded.induction with
  | _ reader ih =>
    have same := agree reader
    cases found : sheet.cells[reader]? with
    | none =>
      rw [stored?, stored?, found, Option.map_none, Option.map_eq_none_iff] at same
      exact same
    | some cell =>
      rw [stored?, stored?, found, Option.map_some] at same
      obtain ⟨twin, found', contents⟩ := Option.map_eq_some_iff.mp same
      have value : twin.value = cell.value := by
        rw [valid.current reader cell found, valid'.current reader twin found', contents]
        apply Contents.valued_congr
        intro input member
        have reads := reads_iff.mpr ⟨cell.contents, by rw [stored?, found]; rfl, member⟩
        rw [numberAt?, numberAt?, ih input reads]
      rw [found']
      cases twin
      cases cell
      cases contents
      cases value
      rfl

theorem edges_congr (agree : ∀ address, stored? other.cells address = stored? sheet.cells address) :
    edges other.cells = edges sheet.cells := by
  ext ⟨input, reader⟩
  simp only [mem_edges, Reads, agree]

theorem Valid.graph_same (valid : Valid sheet) (valid' : Valid other)
    (agree : ∀ address, stored? other.cells address = stored? sheet.cells address) : other.graph.Same sheet.graph :=
  (edges_congr agree ▸ valid'.graph).same valid.graph

/-- Every stored cell can be entered again from its edit text. -/
def Enterable (sheet : Sheet) : Prop :=
  ∀ address contents, stored? sheet.cells address = some contents → Contents.parse contents.editText = .ok contents

theorem Enterable.kept : Kept fun sheet => Valid sheet ∧ Enterable sheet where
  new options := by
    refine ⟨.new options, ?_⟩
    intro address contents found
    simp [stored?, Sheet.new] at found
  store sheet address contents holds admitted := by
    refine ⟨holds.1.store address contents, ?_⟩
    rcases store_cases holds.1 address contents with ⟨order, same, _⟩ | ⟨f, _, _, same⟩
    · rw [same]
      intro other held found
      rw [stored?_settle] at found
      split at found
      next =>
        split at found
        next => cases found
        next =>
          cases found
          exact Contents.parse_editText admitted
      next => exact holds.2 other held found
    · rw [same]
      exact holds.2
  saved sheet holds := ⟨Valid.kept.saved sheet holds.1, holds.2⟩

end Sheet

theorem Reachable.enterable {sheet : Sheet} (reached : Reachable sheet) : sheet.Enterable :=
  (Sheet.Enterable.kept.reachable reached).2

namespace Sheet

variable {sheet other : Sheet}

def entries (sheet : Sheet) : List (String × String) :=
  sheet.cells.toList.map fun (address, cell) => (address.text, cell.contents.editText)

inductive Entered : Sheet → List (String × String) → Sheet → Prop where
  | nil (sheet : Sheet) : Entered sheet [] sheet
  | cons {sheet between last : Sheet} {name entry : String} {order : List Address} {records : List (String × String)}
      (accepted : sheet.enter name entry = (.ok order, between)) (later : Entered between records last) :
      Entered sheet ((name, entry) :: records) last

/-- The first sheet stores nothing but what the second stores as well. -/
def Part (part whole : Sheet) : Prop :=
  ∀ address contents, stored? part.cells address = some contents → stored? whole.cells address = some contents

def Holds (whole : Sheet) (record : String × String) : Prop :=
  ∃ address contents, record = (address.text, contents.editText) ∧ stored? whole.cells address = some contents

theorem mem_entries {record : String × String} : record ∈ sheet.entries ↔ Holds sheet record := by
  rw [entries, List.mem_map]
  constructor
  · rintro ⟨⟨address, cell⟩, member, rfl⟩
    rw [Std.TreeMap.mem_toList_iff_getElem?_eq_some] at member
    exact ⟨address, cell.contents, rfl, by rw [stored?, member]; rfl⟩
  · rintro ⟨address, contents, rfl, found⟩
    obtain ⟨cell, member, rfl⟩ := Option.map_eq_some_iff.mp found
    exact ⟨(address, cell), Std.TreeMap.mem_toList_iff_getElem?_eq_some.mpr member, rfl⟩

/-- Edit texts stand for one contents each, so sheets with the same entries store the same contents. -/
theorem Enterable.contentsAt_eq (enterable : Enterable sheet) (enterable' : Enterable other)
    (same : other.entries = sheet.entries) (address : Address) : other.contentsAt address = sheet.contentsAt address := by
  have found {s t : Sheet} (enterable : Enterable s) (enterable' : Enterable t) (same : t.entries = s.entries)
      {contents : Contents} (held : stored? s.cells address = some contents) : stored? t.cells address = some contents := by
    obtain ⟨other, twin, texts, held'⟩ := mem_entries.mp (same ▸ mem_entries.mpr ⟨address, contents, rfl, held⟩)
    obtain rfl := Address.eq_of_text (Prod.mk.inj texts).1
    have read := enterable' _ _ held'
    rw [← (Prod.mk.inj texts).2, enterable _ _ held] at read
    rwa [Except.ok.inj read]
  have stored : stored? other.cells address = stored? sheet.cells address :=
    Option.ext fun _ => ⟨found enterable' enterable same.symm, found enterable enterable' same⟩
  rw [contentsAt, contentsAt, ← stored?, ← stored?, stored]

/-- What a sheet without circles stores cannot close a circle in a part of it. -/
theorem Part.store {part whole : Sheet} (below : Part part whole) (valid : Valid part) (valid' : Valid whole)
    {address : Address} {contents : Contents} (held : stored? whole.cells address = some contents) :
    ∃ order between, part.store address contents = (.ok order, between) ∧ Valid between ∧ Part part between ∧
      Part between whole ∧ stored? between.cells address = some contents := by
  rcases store_cases valid address contents with ⟨order, same, ordered, apart⟩ | ⟨f, rfl, ⟨input, mentioned, reaches⟩, _⟩
  · have valid := valid.settle ordered apart
    have stored (other : Address) := stored?_settle (part.rewire address contents.reads) address other contents order
    have filled : contents ≠ .empty := by
      rintro rfl
      exact valid'.filled address held
    simp only [if_neg filled] at stored
    obtain ⟨between, settled⟩ : ∃ between,
        (part.rewire address contents.reads).settle address contents order = (.ok order, between) := ⟨_, rfl⟩
    rw [settled] at same valid stored
    refine ⟨order, between, same, valid, ?_, ?_, by rw [stored, if_pos rfl]⟩
    · intro other contents' found
      rw [stored]
      split
      next equal =>
        subst equal
        exact held.symm.trans (below other contents' found)
      next => exact found
    · intro other contents' found
      rw [stored] at found
      split at found
      next equal => rwa [equal, ← Option.some.inj found]
      next => exact below other contents' found
  · have lift (a b : Address) : Reads part.cells a b → Reads whole.cells a b := by
      rintro ⟨g, found, inside⟩
      exact ⟨g, below b _ found, inside⟩
    have circle := TransGen.tail' (ReflTransGen.mono lift _ _ reaches) (show Reads whole.cells input address from ⟨f, held, mentioned⟩)
    exact absurd circle (valid'.straight address)

theorem Part.enter {part whole : Sheet} (below : Part part whole) (valid : Valid part) (valid' : Valid whole)
    (enterable : Enterable whole) {address : Address} {contents : Contents}
    (held : stored? whole.cells address = some contents) :
    ∃ order between, part.enter address.text contents.editText = (.ok order, between) ∧ Valid between ∧
      Part part between ∧ Part between whole ∧ stored? between.cells address = some contents := by
  obtain ⟨order, between, accepted, rest⟩ := below.store valid valid' held
  refine ⟨order, between, ?_, rest⟩
  simp only [Sheet.enter, address.parse_text, enterable address contents held]
  exact accepted

theorem Part.entered {part whole : Sheet} (below : Part part whole) (valid : Valid part) (valid' : Valid whole)
    (enterable : Enterable whole) {records : List (String × String)} (all : ∀ record ∈ records, Holds whole record) :
    ∃ last, Entered part records last ∧ Valid last ∧ Part part last ∧ Part last whole ∧
      ∀ address contents, (address.text, contents.editText) ∈ records → stored? whole.cells address = some contents →
        stored? last.cells address = some contents := by
  induction records generalizing part with
  | nil => exact ⟨part, .nil part, valid, fun _ _ found => found, below, nofun⟩
  | cons record records ih =>
    obtain ⟨address, contents, rfl, held⟩ := all record List.mem_cons_self
    obtain ⟨order, between, accepted, valid, grown, below, stored⟩ := below.enter valid valid' enterable held
    obtain ⟨last, entered, valid, grown', below, listed⟩ :=
      ih below valid fun record member => all record (List.mem_cons_of_mem _ member)
    refine ⟨last, .cons accepted entered, valid, fun a c found => grown' a c (grown a c found), below, ?_⟩
    intro other found member held'
    rcases List.mem_cons.mp member with same | member
    · have equal := Address.eq_of_text (Prod.mk.inj same).1
      rw [equal, held] at held'
      rw [equal, grown' address contents stored, held']
    · exact listed other found member held'

theorem Valid.entered (valid : Valid sheet) (enterable : Enterable sheet) (options : Options)
    {records : List (String × String)} (order : records.Perm sheet.entries) :
    ∃ last, Entered (.new options) records last ∧ Valid last ∧
      ∀ address, stored? last.cells address = stored? sheet.cells address := by
  have nothing : Part (.new options) sheet := by
    intro address contents found
    simp [stored?, Sheet.new] at found
  obtain ⟨last, entered, valid', _, below, listed⟩ :=
    nothing.entered (.new options) valid enterable fun record member => mem_entries.mp (order.mem_iff.mp member)
  refine ⟨last, entered, valid', ?_⟩
  intro address
  apply Option.ext
  intro contents
  constructor
  · exact below address contents
  · intro held
    exact listed address contents (order.mem_iff.mpr (mem_entries.mpr ⟨address, contents, rfl, held⟩)) held

/-- Nothing but the contents of a sheet decides what its cells show and which edges its graph has, and
they can be entered in any order into a new sheet. -/
theorem independent_of_history (reached : Reachable sheet) :
    (∀ other, Reachable other → (∀ address, (other.contentsAt address).Alike (sheet.contentsAt address)) →
      (∀ address, other.valueAt address = sheet.valueAt address) ∧ other.graph.Same sheet.graph) ∧
    ∀ options records, records.Perm sheet.entries → ∃ last, Entered (.new options) records last ∧
      (∀ address : Address, last.cells[address]? = sheet.cells[address]?) ∧ last.graph.Same sheet.graph := by
  have valid := reached.valid
  constructor
  · intro other reached' alike
    have valid' := reached'.valid
    have agree (address : Address) : stored? other.cells address = stored? sheet.cells address := by
      rw [valid.stored?_eq, valid'.stored?_eq, (alike address).eq]
    refine ⟨?_, valid.graph_same valid' agree⟩
    intro address
    rw [valueAt, valueAt, valid.cells_eq valid' agree]
  · intro options records order
    obtain ⟨last, entered, valid', agree⟩ := valid.entered reached.enterable options order
    exact ⟨last, entered, valid.cells_eq valid' agree, valid.graph_same valid' agree⟩

private def straight : Session := (Session.start {}).run [.enter "A1" "2", .enter "B1" "=A1*3", .enter "C1" "-0"]

private def roundabout : Session := (Session.start {}).run [.enter "c1" "= b1", .enter "B1" "=(C1)", .enter "B1" "= a1 * 3.0",
  .enter "D1" "x", .enter "A1" "=C1", .enter "C1" " -0.0", .enter "D1" "", .enter "A1" "2e0"]

/-- The second run has two entries refused for a circle, and one cell emptied again. -/
theorem independent_of_detours : ∃ last, Reachable straight.sheet ∧ Reachable roundabout.sheet ∧
    roundabout.sheet.graph.Same straight.sheet.graph ∧ Entered (.new {}) [("C1", "-0"), ("B1", "=A1*3"), ("A1", "2")] last ∧
    last.graph.Same straight.sheet.graph := by
  have reached : Reachable straight.sheet := Session.run_reachable (.new {}) _
  have reached' : Reachable roundabout.sheet := Session.run_reachable (.new {}) _
  have entries : straight.sheet.entries = [("A1", "2"), ("B1", "=A1*3"), ("C1", "-0")] := by decide +kernel
  have entries' : roundabout.sheet.entries = [("A1", "2"), ("B1", "=A1*3"), ("C1", "-0")] := by decide +kernel
  have alike (address : Address) : (roundabout.sheet.contentsAt address).Alike (straight.sheet.contentsAt address) := by
    rw [reached.enterable.contentsAt_eq reached'.enterable (entries'.trans entries.symm)]
    exact .refl _
  obtain ⟨last, entered, _, graph⟩ := (independent_of_history reached).2 {} [("C1", "-0"), ("B1", "=A1*3"), ("A1", "2")]
    (by rw [entries]; decide)
  exact ⟨last, reached, reached', ((independent_of_history reached).1 _ reached' alike).2, entered, graph⟩

end Sheet
end Worksheet
