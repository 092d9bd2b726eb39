import Mathlib.Logic.Function.Basic
import Worksheet.Formula.Evaluation

/-! An evaluation asks for the cells that its formula mentions, from left to right, until it fails, and it
cannot tell two lookups apart that agree on what it asked for. -/

namespace Worksheet

namespace Machine

variable {lookup other : Address → Option Float} {token : Token}

theorem apply_ne_undefined (op : Operator) (operands : List Float) (address : Address) :
    apply op operands ≠ .error (.undefined address) := by
  intro failed
  unfold apply at failed
  split at failed
  next right left operands =>
    cases op with
    | add | subtract | multiply => cases failed
    | divide =>
      simp only [Operator.compute] at failed
      split at failed <;> cases failed
  next => cases failed

theorem unwind_ne_undefined (wanted : Operator → Bool) (pending : List Pending) (operands : List Float)
    (address : Address) : unwind wanted pending operands ≠ .error (.undefined address) := by
  induction pending generalizing operands with
  | nil => nofun
  | cons top pending ih =>
    cases top with
    | opening => nofun
    | operation op =>
      simp only [unwind]
      split
      next =>
        cases applied : apply op operands with
        | ok operands => exact ih operands
        | error e =>
          rintro ⟨⟩
          exact apply_ne_undefined op operands address applied
      next => nofun

theorem finish_ne_undefined (m : Machine) (address : Address) : m.finish ≠ .error (.undefined address) := by
  unfold finish
  cases unwound : unwind (fun _ => true) m.pending m.operands with
  | error e =>
    rintro ⟨⟩
    exact unwind_ne_undefined _ _ _ address unwound
  | ok m =>
    obtain ⟨operands, pending⟩ := m
    cases operands <;> nofun

private theorem ne_undefined_of_unwind {wanted : Operator → Bool} {m : Machine} {e : EvaluationError}
    {next : Machine → Machine} (failed : (unwind wanted m.pending m.operands >>= (.ok <| next ·)) = .error e)
    (address : Address) : e ≠ .undefined address := by
  rintro rfl
  cases unwound : unwind wanted m.pending m.operands with
  | error e =>
    rw [unwound] at failed
    cases failed
    exact unwind_ne_undefined _ _ _ address unwound
  | ok m =>
    rw [unwound] at failed
    cases failed

theorem step_error {m : Machine} {e : EvaluationError} (failed : m.step lookup token = .error e) :
    (∃ address, token = .cell address ∧ lookup address = none ∧ e = .undefined address) ∨
      token.cell? = none ∧ ∀ address, e ≠ .undefined address := by
  cases token with
  | number | opening | stray => cases failed
  | cell address =>
    simp only [step] at failed
    split at failed
    next => cases failed
    next missing =>
      cases failed
      exact Or.inl ⟨address, rfl, missing, rfl⟩
  | operator op => exact Or.inr ⟨rfl, ne_undefined_of_unwind failed⟩
  | closing => exact Or.inr ⟨rfl, ne_undefined_of_unwind failed⟩

theorem defined_of_step {m next : Machine} (taken : m.step lookup token = .ok next) :
    ∀ address ∈ token.cell?, lookup address ≠ none := by
  intro address mentioned missing
  cases token with
  | number | opening | stray | operator | closing => cases mentioned
  | cell found =>
    cases mentioned
    simp only [step, missing] at taken
    cases taken

theorem step_congr (agree : ∀ address, token = .cell address → lookup address = other address) (m : Machine) :
    m.step lookup token = m.step other token := by
  cases token with
  | cell address => simp only [step, agree address rfl]
  | opening | closing | operator | number | stray => rfl

/-- What is noted of a token is the cell whose value the step depends on. -/
theorem mem_cell?_iff_step_ne {m : Machine} {address : Address} :
    address ∈ token.cell? ↔ ∃ lookup other : Address → Option Float,
      (∀ cell, cell ≠ address → lookup cell = other cell) ∧ m.step lookup token ≠ m.step other token := by
  constructor
  · intro mentioned
    cases token with
    | number | opening | stray | operator | closing => cases mentioned
    | cell found =>
      cases mentioned
      refine ⟨fun _ => none, Function.update (fun _ => none) address (some 0), ?_, by simp [step]⟩
      intro cell different
      rw [Function.update_of_ne different]
  · rintro ⟨lookup, other, agree, differ⟩
    by_contra absent
    apply differ
    apply step_congr
    rintro cell rfl
    exact agree cell fun same => absent (congrArg some same)

end Machine

namespace Evaluation

variable {lookup other : Address → Option Float} {mentions : List Address}

/-- How far an evaluation has come in the list of cells that are mentioned: to the end, to the first that
is not defined, or to one before which something else has failed. -/
structure Asks (lookup : Address → Option Float) (mentions : List Address) (e : Evaluation) : Prop where
  front : e.asked <+: mentions
  whole : ∀ value, e.result = .ok value → e.asked = mentions
  undefined : ∀ address, e.result = .error (.undefined address) → ∃ before after,
    e.asked = before ++ [address] ∧ mentions = before ++ address :: after ∧ lookup address = none ∧
      ∀ earlier ∈ before, lookup earlier ≠ none
  defined : (∀ address, e.result ≠ .error (.undefined address)) → ∀ address ∈ e.asked, lookup address ≠ none

theorem Asks.after {token : Token} {e : Evaluation} (asks : Asks lookup mentions e)
    (known : ∀ address ∈ token.cell?, lookup address ≠ none) :
    Asks lookup (token.cell?.toList ++ mentions) (after token e) := by
  constructor
  case front => exact (List.prefix_append_right_inj _).mpr asks.front
  case whole => exact fun value result => congrArg _ (asks.whole value result)
  case undefined =>
    intro address result
    obtain ⟨before, rest, asked, whole, missing, earlier⟩ := asks.undefined address result
    refine ⟨token.cell?.toList ++ before, rest, ?_, ?_, missing, ?_⟩
    · simp only [Evaluation.after, asked, List.append_assoc]
    · rw [whole, List.append_assoc]
    · intro address member
      rcases List.mem_append.mp member with member | member
      · exact known address (Option.mem_toList.mp member)
      · exact earlier address member
  case defined =>
    intro result address member
    rcases List.mem_append.mp member with member | member
    · exact known address (Option.mem_toList.mp member)
    · exact asks.defined result address member

theorem asks_run (m : Machine) (tokens : List Token) : Asks lookup (tokens.filterMap Token.cell?) (run lookup m tokens) := by
  induction tokens generalizing m with
  | nil =>
    refine ⟨List.prefix_refl [], fun _ _ => rfl, ?_, fun _ => nofun⟩
    exact fun address failed => absurd failed (m.finish_ne_undefined address)
  | cons token tokens ih =>
    have split : (token :: tokens).filterMap Token.cell? = token.cell?.toList ++ tokens.filterMap Token.cell? := by
      cases mentioned : token.cell? <;> simp [mentioned]
    rw [split, run]
    cases taken : m.step lookup token with
    | ok next => exact (ih next).after (Machine.defined_of_step taken)
    | error e =>
      rcases Machine.step_error taken with ⟨address, rfl, missing, rfl⟩ | ⟨none, other⟩
      · refine ⟨by simp [after, Token.cell?], nofun, ?_, ?_⟩
        · rintro _ ⟨⟩
          exact ⟨[], tokens.filterMap Token.cell?, rfl, rfl, missing, nofun⟩
        · exact fun result => absurd rfl (result address)
      · refine ⟨by simp [after, none], nofun, ?_, by simp [after, none]⟩
        exact fun address failed => absurd (Except.error.inj failed) (other address)

theorem Asks.result_of_missing {e : Evaluation} (asks : Asks lookup mentions e) {address : Address}
    (asked : address ∈ e.asked) (missing : lookup address = none) : e.result = .error (.undefined address) := by
  by_cases failed : ∃ found, e.result = .error (.undefined found)
  · obtain ⟨found, failed⟩ := failed
    obtain ⟨before, _, whole, _, _, earlier⟩ := asks.undefined found failed
    rw [whole, List.mem_append, List.mem_singleton] at asked
    rcases asked with asked | rfl
    · exact absurd missing (earlier address asked)
    · exact failed
  · exact absurd missing (asks.defined (not_exists.mp failed) address asked)

/-- Nothing but the answers to what was asked for has an influence on an evaluation. -/
theorem run_congr_asked {tokens : List Token} {m : Machine}
    (agree : ∀ address ∈ (run lookup m tokens).asked, lookup address = other address) :
    run lookup m tokens = run other m tokens := by
  induction tokens generalizing m with
  | nil => rfl
  | cons token tokens ih =>
    have head : m.step lookup token = m.step other token := by
      apply Machine.step_congr
      rintro address rfl
      apply agree
      rw [run]
      split <;> exact List.mem_cons_self
    cases taken : m.step lookup token with
    | error e => simp only [run, ← head, taken]
    | ok next =>
      simp only [run, ← head, taken] at agree ⊢
      rw [ih fun address member => agree address (List.mem_append_right _ member)]

end Evaluation

namespace Formula

theorem mem_inputs {f : Formula} {address : Address} : address ∈ f.inputs ↔ address ∈ f.tokens.filterMap Token.cell? := by
  rw [inputs, Std.TreeSet.mem_ofList, List.contains_iff_mem]

theorem asks_evaluation (f : Formula) (lookup : Address → Option Float) :
    Evaluation.Asks lookup (f.tokens.filterMap Token.cell?) (f.evaluation lookup) :=
  Evaluation.asks_run .start f.tokens

theorem evaluate_congr {f : Formula} {lookup other : Address → Option Float}
    (agree : ∀ address ∈ f.inputs, lookup address = other address) : f.evaluate lookup = f.evaluate other := by
  apply congrArg Evaluation.result
  apply Evaluation.run_congr_asked
  exact fun address member => agree address (mem_inputs.mpr ((f.asks_evaluation lookup).front.subset member))

private theorem evaluation_eq_of_not_asked {f : Formula} {lookup other : Address → Option Float} {address : Address}
    (absent : address ∉ (f.evaluation lookup).asked) (agree : ∀ cell, cell ≠ address → lookup cell = other cell) :
    f.evaluation lookup = f.evaluation other := by
  apply Evaluation.run_congr_asked
  intro cell member
  apply agree
  rintro rfl
  exact absent member

private theorem evaluate_ne_of_missing {f : Formula} {lookup other : Address → Option Float} {address : Address}
    (asked : address ∈ (f.evaluation lookup).asked) (missing : lookup address = none) (found : other address ≠ none) :
    f.evaluate other ≠ f.evaluate lookup := by
  intro same
  have failed := (f.asks_evaluation lookup).result_of_missing asked missing
  obtain ⟨_, _, _, _, absent, _⟩ := (f.asks_evaluation other).undefined address (same.trans failed)
  exact found absent

/-- What is noted as asked for is what the value depends on: a cell has been asked for if and only if another
answer for it alone can make a difference. -/
theorem mem_asked_iff {f : Formula} {lookup : Address → Option Float} {address : Address} :
    address ∈ (f.evaluation lookup).asked ↔
      ∃ other, (∀ cell, cell ≠ address → lookup cell = other cell) ∧ f.evaluate other ≠ f.evaluate lookup := by
  constructor
  · intro asked
    have agree (value? : Option Float) (cell : Address) (different : cell ≠ address) :
        lookup cell = Function.update lookup address value? cell := by
      rw [Function.update_of_ne different]
    cases known : lookup address with
    | none => exact ⟨_, agree (some 0), evaluate_ne_of_missing asked known (by simp)⟩
    | some value =>
      have still : address ∈ (f.evaluation (Function.update lookup address none)).asked := by
        by_contra absent
        have same := evaluation_eq_of_not_asked absent fun cell different => (agree none cell different).symm
        exact absent (same ▸ asked)
      exact ⟨_, agree none, (evaluate_ne_of_missing still (by simp) (by simp [known])).symm⟩
  · rintro ⟨other, agree, differ⟩
    by_contra absent
    exact differ (congrArg Evaluation.result (evaluation_eq_of_not_asked absent agree).symm)

/-- The cells asked for are the first of those mentioned: all of them if there is a value, and up to the
first that is not defined if that is the error. They are the cells that have an influence on the value. -/
theorem evaluation_asks (f : Formula) (lookup : Address → Option Float) :
    Evaluation.Asks lookup (f.tokens.filterMap Token.cell?) (f.evaluation lookup) ∧
      (∀ other, (∀ address ∈ (f.evaluation lookup).asked, lookup address = other address) →
        f.evaluation lookup = f.evaluation other) ∧
      (∀ address, address ∈ (f.evaluation lookup).asked ↔
        ∃ other, (∀ cell, cell ≠ address → lookup cell = other cell) ∧ f.evaluate other ≠ f.evaluate lookup) ∧
      ∀ other, (∀ address ∈ f.inputs, lookup address = other address) → f.evaluate lookup = f.evaluate other :=
  ⟨f.asks_evaluation lookup, fun _ => Evaluation.run_congr_asked, fun _ => mem_asked_iff, fun _ => evaluate_congr⟩

/-- The division is done before the sum goes on to its right side. -/
example : ((parse "a1*2/b1+c1".toList).toOption.map fun f => (f.evaluation fun _ => some 0).asked.map Address.text) =
    some ["A1", "B1"] := by
  decide +kernel

end Formula
end Worksheet
