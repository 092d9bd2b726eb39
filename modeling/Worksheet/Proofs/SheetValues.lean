import Worksheet.Sheet
import Worksheet.Proofs.EvaluationInputs
import Worksheet.Proofs.GraphCircles

/-! Recomputing cells one by one ends with every cell showing what its contents now amount to,
although each is evaluated against cells of which some are still to be recomputed. It is enough
that the list has every cell that may be out of date, each before the cells that read it. -/

namespace Worksheet

/-- What a cell with these contents shows, given the numbers that other cells show. -/
def Contents.valued (lookup : Address → Option Float) : Contents → Value
  | empty => .empty
  | number value => .number value
  | text written => .text written
  | formula f =>
    match f.evaluate lookup with
    | .ok value => .number value
    | .error e => .error e

theorem Contents.valued_formula (f : Formula) (lookup : Address → Option Float) :
    (formula f).valued lookup = .ofResult (f.evaluate lookup) := by
  rw [valued]
  cases f.evaluate lookup <;> rfl

theorem Contents.mem_reads {contents : Contents} {input : Address} :
    input ∈ contents.reads ↔ ∃ f, contents = .formula f ∧ input ∈ f.inputs := by
  cases contents with
  | formula f => simp [reads, formula?]
  | empty | number | text => simp [reads, formula?]

theorem Contents.nodup_reads (contents : Contents) : contents.reads.Nodup := by
  cases contents with
  | formula f => exact Graph.nodup_toList f.inputs
  | empty | number | text => exact List.nodup_nil

theorem Contents.valued_congr {contents : Contents} {lookup other : Address → Option Float}
    (agree : ∀ input ∈ contents.reads, lookup input = other input) : contents.valued lookup = contents.valued other := by
  cases contents with
  | formula f =>
    rw [valued_formula, valued_formula, Formula.evaluate_congr fun input member => agree input (mem_reads.mpr ⟨f, rfl, member⟩)]
  | empty | number | text => rfl

namespace Sheet

variable {cells : Std.TreeMap Address Cell}

def stored? (cells : Std.TreeMap Address Cell) (address : Address) : Option Contents :=
  cells[address]?.map Cell.contents

/-- The second cell holds a formula that mentions the first, which may be stored or not. -/
def Reads (cells : Std.TreeMap Address Cell) (input reader : Address) : Prop :=
  ∃ f, stored? cells reader = some (.formula f) ∧ input ∈ f.inputs

def Current (cells : Std.TreeMap Address Cell) (address : Address) : Prop :=
  ∀ cell, cells[address]? = some cell → cell.value = cell.contents.valued (numberAt? cells)

theorem reads_iff {input reader : Address} :
    Reads cells input reader ↔ ∃ contents, stored? cells reader = some contents ∧ input ∈ contents.reads := by
  constructor
  · rintro ⟨f, found, member⟩
    exact ⟨.formula f, found, Contents.mem_reads.mpr ⟨f, rfl, member⟩⟩
  · rintro ⟨contents, found, member⟩
    obtain ⟨f, rfl, mentioned⟩ := Contents.mem_reads.mp member
    exact ⟨f, found, mentioned⟩

/-- A cell stays current as long as neither it nor any cell that it reads is touched. -/
theorem Current.frame {before : Std.TreeMap Address Cell} {address : Address} (current : Current before address)
    (same : cells[address]? = before[address]?)
    (inputs : ∀ input, Reads before input address → cells[input]? = before[input]?) : Current cells address := by
  intro cell found
  rw [same] at found
  rw [current cell found]
  apply Contents.valued_congr
  intro input member
  have reads := reads_iff.mpr ⟨cell.contents, by rw [stored?, found]; rfl, member⟩
  simp only [numberAt?, inputs input reads]

theorem recompute_cases (cells : Std.TreeMap Address Cell) (address : Address) :
    (∃ cell f, cells[address]? = some cell ∧ cell.contents = .formula f ∧
      recompute cells address = cells.insert address { cell with value := .ofResult (f.evaluate (numberAt? cells)) }) ∨
    (∀ f, stored? cells address ≠ some (.formula f)) ∧ recompute cells address = cells := by
  cases found : cells[address]? with
  | none => exact Or.inr ⟨by simp [stored?, found], by simp [recompute, found]⟩
  | some cell =>
    cases held : cell.contents with
    | formula f => exact Or.inl ⟨cell, f, rfl, held, by simp [recompute, found, held, Contents.formula?]⟩
    | empty | number | text =>
      exact Or.inr ⟨by simp [stored?, found, held], by simp [recompute, found, held, Contents.formula?]⟩

theorem recompute_other {address other : Address} (different : other ≠ address) :
    (recompute cells address)[other]? = cells[other]? := by
  rcases recompute_cases cells address with ⟨cell, f, _, _, same⟩ | ⟨_, same⟩
  · simp [same, Std.TreeMap.getElem?_insert, Ne.symm different]
  · rw [same]

theorem stored?_recompute (cells : Std.TreeMap Address Cell) (address other : Address) :
    stored? (recompute cells address) other = stored? cells other := by
  by_cases same : other = address
  · subst same
    rcases recompute_cases cells other with ⟨cell, f, found, _, recomputed⟩ | ⟨_, recomputed⟩
    · simp [stored?, recomputed, found]
    · rw [recomputed]
  · simp only [stored?, recompute_other same]

theorem stored?_foldl_recompute (order : List Address) (address : Address) :
    stored? (order.foldl recompute cells) address = stored? cells address := by
  induction order generalizing cells with
  | nil => rfl
  | cons first rest ih => rw [List.foldl_cons, ih, stored?_recompute]

theorem foldl_recompute_other {order : List Address} {address : Address} (outside : address ∉ order) :
    (order.foldl recompute cells)[address]? = cells[address]? := by
  induction order generalizing cells with
  | nil => rfl
  | cons first rest ih =>
    rw [List.mem_cons, not_or] at outside
    rw [List.foldl_cons, ih outside.2, recompute_other outside.1]

theorem current_recompute {address : Address} (apart : ¬ Reads cells address address)
    (current : (∀ f, stored? cells address ≠ some (.formula f)) → Current cells address) :
    Current (recompute cells address) address := by
  rcases recompute_cases cells address with ⟨cell, f, found, held, same⟩ | ⟨plain, same⟩
  · intro recomputed new
    rw [same, Std.TreeMap.getElem?_insert_self] at new
    rw [← Option.some.inj new, held, Contents.valued_formula]
    apply congrArg Value.ofResult
    apply Formula.evaluate_congr
    intro input member
    have other : input ≠ address := by
      rintro rfl
      exact apart ⟨f, by rw [stored?, found, Option.map_some, held], member⟩
    simp only [numberAt?, recompute_other other]
  · rw [same]
    exact current plain

/-- The loop of the recomputation. Before each step only formulas that are still on the list may be
out of date; a step brings the first one up to date, and all that read it are further on. -/
theorem current_foldl_recompute {g : Graph Address} {order : List Address} (ordered : g.Ordered order)
    (nodup : order.Nodup) (edges : ∀ input reader, Reads cells input reader → g.Edge input reader)
    (rest : ∀ address, (address ∈ order → ∀ f, stored? cells address ≠ some (.formula f)) → Current cells address)
    (address : Address) : Current (order.foldl recompute cells) address := by
  induction order generalizing cells with
  | nil => exact rest address fun member => absurd member List.not_mem_nil
  | cons first later ih =>
    rw [List.nodup_cons] at nodup
    rw [List.foldl_cons]
    apply ih ordered.2 nodup.2
    · intro input reader reads
      simp only [Reads, stored?_recompute] at reads
      exact edges input reader reads
    intro other settled
    simp only [stored?_recompute] at settled
    by_cases same : other = first
    · subst same
      have apart : ¬ Reads cells other other := fun reads => nodup.1 (ordered.1 other (edges other other reads))
      exact current_recompute apart fun plain => rest other fun _ => plain
    · have unread : ¬ Reads cells first other := by
        rintro ⟨f, held, member⟩
        exact settled (ordered.1 other (edges first other ⟨f, held, member⟩)) f held
      have current : Current cells other := by
        apply rest other
        intro member
        exact settled ((List.mem_cons.mp member).resolve_left same)
      apply current.frame (recompute_other same)
      intro input reads
      apply recompute_other
      rintro rfl
      exact unread reads

theorem place_other {address other : Address} {contents : Contents} (different : other ≠ address) :
    (place cells address contents)[other]? = cells[other]? := by
  unfold place
  split
  · simp [Std.TreeMap.getElem?_erase, Ne.symm different]
  · simp [Std.TreeMap.getElem?_insert, Ne.symm different]

theorem place_same (cells : Std.TreeMap Address Cell) (address : Address) (contents : Contents) :
    (place cells address contents)[address]? = if contents = .empty then none else some (.enter contents) := by
  cases contents <;> simp [place, Contents.isEmpty]

theorem reads_place {address input reader : Address} {contents : Contents} :
    Reads (place cells address contents) input reader ↔
      if reader = address then input ∈ contents.reads else Reads cells input reader := by
  split
  next same =>
    subst same
    rw [reads_iff, stored?, place_same]
    cases contents <;> simp [Cell.enter, Contents.reads, Contents.formula?]
  next different => simp only [Reads, stored?, place_other different]

/-- The cell that is edited, followed by all that read it, is enough to bring a sheet up to date. -/
theorem current_settle {g : Graph Address} {address : Address} {contents : Contents} {order : List Address}
    (before : ∀ other, Current cells other) (valid : g.UpdateOrder address order)
    (edges : ∀ input reader, Reads (place cells address contents) input reader → g.Edge input reader)
    (other : Address) : Current (order.foldl recompute (place cells address contents)) other := by
  have first : address ∈ order := List.mem_of_mem_head? valid.head
  apply current_foldl_recompute valid.ordered valid.nodup edges
  intro other settled
  by_cases same : other = address
  · subst same
    intro cell found
    have plain := settled first
    simp only [stored?, found, Option.map_some, ne_eq, Option.some.injEq] at plain
    rw [place_same] at found
    split at found
    · cases found
    · rw [← Option.some.inj found] at plain ⊢
      cases contents with
      | formula f => exact absurd rfl (plain f)
      | empty | number | text => rfl
  · apply (before other).frame (place_other same)
    rintro input ⟨f, held, member⟩
    have held : stored? (place cells address contents) other = some (.formula f) := by
      rwa [stored?, place_other same]
    apply place_other
    rintro rfl
    exact settled (valid.ordered.next first (edges _ other ⟨f, held, member⟩)) f held

end Sheet
end Worksheet
