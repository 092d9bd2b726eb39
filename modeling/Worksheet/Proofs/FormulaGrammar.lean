import Worksheet.Proofs.SyntaxTree

/-! The language of formulas. Looking at neighbours and counting parentheses finds no fault exactly in
the token lists that a context-free grammar derives. -/

namespace Worksheet

namespace SyntaxTree

variable {place : Place} {level : Nat} {tokens : List Token}

/-! Tokens that follow one another as they must have no faults. -/

theorem Follows.plain (follows : Follows place level tokens) : ∀ token ∈ tokens, Formula.strayText? token = none := by
  induction follows with
  | nil => nofun
  | number _ _ ih | cell _ _ ih | opening _ ih | closing _ ih | operator _ _ ih => exact List.forall_mem_cons.mpr ⟨rfl, ih⟩

theorem Follows.begins (follows : Follows .operand level tokens) :
    ∃ first, tokens.head? = some first ∧ first.begins = true := by
  cases follows with
  | number | cell | opening => exact ⟨_, rfl, rfl⟩

theorem Follows.ends (follows : Follows place level tokens) : ∀ last ∈ tokens.getLast?, last.ends = true := by
  induction follows with
  | nil => nofun
  | number _ rest ih | cell _ rest ih | closing rest ih =>
    cases rest with
    | nil =>
      intro last same
      cases same
      rfl
    | closing | operator => simpa only [List.getLast?_cons_cons] using ih
  | opening rest ih | operator _ rest ih =>
    cases rest with
    | number | cell | opening => simpa only [List.getLast?_cons_cons] using ih

theorem Follows.neighbours (follows : Follows place level tokens) : Formula.neighboursFault? tokens = none := by
  induction follows with
  | nil => rfl
  | number _ rest ih | cell _ rest ih | closing rest ih =>
    cases rest with
    | nil => rfl
    | closing | operator => exact ih
  | opening rest ih | operator _ rest ih =>
    cases rest with
    | number | cell | opening => exact ih

theorem Follows.parentheses (follows : Follows place level tokens) (position closings : Nat) :
    Formula.parenthesesFault? position (closings + level) closings tokens = none := by
  induction follows generalizing position closings with
  | nil => simp [Formula.parenthesesFault?]
  | number _ _ ih | cell _ _ ih | operator _ _ ih | opening _ ih => exact ih (position + 1) closings
  | @closing level _ _ ih =>
    rw [Formula.parenthesesFault?, if_neg (by omega)]
    have shifted : closings + (level + 1) = closings + 1 + level := by omega
    rw [shifted]
    exact ih (position + 1) (closings + 1)

theorem Follows.faultless (follows : Follows .operand 0 tokens) : Formula.Faultless tokens := by
  obtain ⟨first, start, begins⟩ := follows.begins
  obtain ⟨rest, rfl⟩ := List.head?_eq_some_iff.mp start
  have finish := List.getLast?_cons (a := first) (l := rest)
  exact ⟨follows.plain, ⟨first, start, begins⟩, ⟨_, finish, follows.ends _ finish⟩, follows.neighbours,
    by simpa using follows.parentheses 0 0⟩

end SyntaxTree

namespace Formula

/-- The grammar E ::= number | cell | ( E ) | E op E, which leaves open how operations are nested. -/
inductive Derives : List Token → Prop where
  | number (value : Float) : Derives [.number value]
  | cell (address : Address) : Derives [.cell address]
  | parentheses {tokens} (inside : Derives tokens) : Derives (.opening :: (tokens ++ [.closing]))
  | operation {left right} (op : Operator) (first : Derives left) (last : Derives right) :
      Derives (left ++ .operator op :: right)

theorem derives_of_parses {grade : SyntaxTree.Grade} {tokens : List Token} {tree : SyntaxTree}
    (parses : SyntaxTree.Parses grade tokens tree) : Derives tokens := by
  induction parses with
  | number value => exact .number value
  | cell address => exact .cell address
  | parentheses _ inside => exact .parentheses inside
  | factor _ single | product _ single => exact single
  | multiply _ _ _ first last | add _ _ _ first last => exact .operation _ first last

theorem Derives.follows {tokens : List Token} (derives : Derives tokens) {level : Nat} {rest : List Token}
    (follows : SyntaxTree.Follows .operator level rest) : SyntaxTree.Follows .operand level (tokens ++ rest) := by
  induction derives generalizing level rest with
  | number value => exact .number value follows
  | cell address => exact .cell address follows
  | parentheses _ inside => simpa using SyntaxTree.Follows.opening (inside (.closing follows))
  | operation op _ _ first last => simpa using first (.operator op (last follows))

theorem faultless_iff_derives {tokens : List Token} : Faultless tokens ↔ Derives tokens := by
  constructor
  · intro faultless
    obtain ⟨tree, parses⟩ := faultless.exists_tree
    exact derives_of_parses parses
  · intro derives
    have follows := derives.follows .nil
    rw [List.append_nil] at follows
    exact follows.faultless

/-- No text is read as a formula without a derivation of its tokens, and none with one is refused. The
checks do the same for token lists that no text has. -/
theorem accepted_iff_derives :
    (∀ tokens, fault? tokens = none ↔ Derives tokens) ∧
    ∀ text tokens, Token.scan text = .ok tokens → ((∃ f, parse text = .ok f ∧ f.tokens = tokens) ↔ Derives tokens) := by
  have checked (tokens : List Token) : fault? tokens = none ↔ Derives tokens :=
    fault?_eq_none_iff.trans faultless_iff_derives
  refine ⟨checked, fun text tokens scanned => ?_⟩
  rw [← checked]
  constructor
  · rintro ⟨f, _, rfl⟩
    exact f.accepted
  · exact fun accepted => ⟨⟨tokens, ⟨text, scanned⟩, accepted⟩, parse_eq_ok_iff.mpr scanned, rfl⟩

/-- Two operands side by side are no formula, although their parentheses match. -/
theorem derives_of_nested :
    (∃ tokens, Token.scan "((a1 + 2) * b2) / (3)".toList = .ok tokens ∧ Derives tokens) ∧
    ∃ tokens, Token.scan "(1)(2)".toList = .ok tokens ∧ ¬ Derives tokens := by
  constructor
  · have taken : (parse "((a1 + 2) * b2) / (3)".toList).isOk = true := by decide +kernel
    cases read : parse "((a1 + 2) * b2) / (3)".toList with
    | error e =>
      rw [read] at taken
      cases taken
    | ok f =>
      have scanned := parse_eq_ok_iff.mp read
      exact ⟨f.tokens, scanned, (accepted_iff_derives.2 _ _ scanned).mp ⟨f, read, rfl⟩⟩
  · have refused : (parse "(1)(2)".toList).isOk = false := by decide +kernel
    have scans : (Token.scan "(1)(2)".toList).isOk = true := by decide +kernel
    cases scanned : Token.scan "(1)(2)".toList with
    | error e =>
      rw [scanned] at scans
      cases scans
    | ok tokens =>
      refine ⟨tokens, rfl, fun derives => ?_⟩
      obtain ⟨f, read, _⟩ := (accepted_iff_derives.2 _ _ scanned).mpr derives
      rw [read] at refused
      cases refused

end Formula
end Worksheet
