import Worksheet.Proofs.FormulaGrammar
import Worksheet.Proofs.FormulaText
import Worksheet.Proofs.TreeEvaluation

/-! Inlining. In the place of a cell a formula may write the formula that the cell holds, in
parentheses. A tree does not show the parentheses, so they keep what is inside apart from the operators
around it, and the value comes out as if it had been looked up. -/

namespace Worksheet

/-- The tokens that replace a token when a cell is inlined; all but that cell stay as they are. -/
def Token.inlined (replaced : Address) (inner : List Token) : Token → List Token
  | cell address => if address = replaced then opening :: (inner ++ [closing]) else [cell address]
  | token => [token]

namespace SyntaxTree

def inlined (replaced : Address) (inner : SyntaxTree) : SyntaxTree → SyntaxTree
  | number value => number value
  | cell address => if address = replaced then inner else cell address
  | operation op left right => operation op (inlined replaced inner left) (inlined replaced inner right)

variable {inside : List Token} {inner : SyntaxTree}

/-- A sum in parentheses is a factor, and so is the cell that it replaces. -/
theorem Parses.inlined {grade : Grade} {tokens : List Token} {tree : SyntaxTree} (parses : Parses grade tokens tree)
    (around : Parses .sum inside inner) (replaced : Address) :
    Parses grade (tokens.flatMap (Token.inlined replaced inside)) (SyntaxTree.inlined replaced inner tree) := by
  induction parses with
  | number value => exact .number value
  | cell address =>
    by_cases same : address = replaced
    · simpa [Token.inlined, SyntaxTree.inlined, same] using Parses.parentheses around
    · simpa [Token.inlined, SyntaxTree.inlined, same] using Parses.cell address
  | parentheses _ ih => simpa [Token.inlined] using ih.parentheses
  | factor _ ih => exact ih.factor
  | multiply operator _ _ first last => simpa [Token.inlined, SyntaxTree.inlined] using Parses.multiply operator first last
  | product _ ih => exact ih.product
  | add operator _ _ first last => simpa [Token.inlined, SyntaxTree.inlined] using Parses.add operator first last

theorem eval_inlined {lookup : Address → Option Float} {value : Float} (known : inner.eval lookup = .ok value)
    (replaced : Address) (tree : SyntaxTree) :
    (inlined replaced inner tree).eval lookup = tree.eval (Function.update lookup replaced (some value)) := by
  induction tree with
  | number => rfl
  | cell address =>
    by_cases same : address = replaced
    · subst same
      simp [inlined, eval, known]
    · simp [inlined, eval, same]
  | operation op left right first last => rw [inlined, eval_operation, eval_operation, first, last]

end SyntaxTree

namespace Formula

theorem written_inlined {f g : Formula} {replaced : Address} :
    ∀ token ∈ f.tokens.flatMap (Token.inlined replaced g.tokens), token.Written := by
  intro token member
  obtain ⟨source, known, within⟩ := List.mem_flatMap.mp member
  have kept := f.written source known
  cases source with
  | cell address =>
    simp only [Token.inlined] at within
    split at within
    next =>
      rcases List.mem_cons.mp within with rfl | within
      · trivial
      · rcases List.mem_append.mp within with within | within
        · exact g.written token within
        · rw [List.mem_singleton.mp within]
          trivial
    next =>
      rw [List.mem_singleton.mp within]
      exact kept
  | opening | closing | operator | number | stray =>
    rw [List.mem_singleton.mp within]
    exact kept

/-- Writing out what a cell holds changes no value and no error, when what it holds has a value. -/
theorem evaluate_of_inlined {f g : Formula} {lookup : Address → Option Float} {value : Float}
    (known : g.evaluate lookup = .ok value) (replaced : Address) :
    fault? (f.tokens.flatMap (Token.inlined replaced g.tokens)) = none ∧
      ∃ whole : Formula, whole.tokens = f.tokens.flatMap (Token.inlined replaced g.tokens) ∧
        whole.evaluate lookup = f.evaluate (Function.update lookup replaced (some value)) := by
  obtain ⟨tree, parses⟩ := f.exists_tree
  obtain ⟨inner, around⟩ := g.exists_tree
  have together := parses.inlined around replaced
  have faultless := faultless_iff_derives.mpr (derives_of_parses together)
  obtain ⟨whole, tokens⟩ := exists_of_written written_inlined faultless
  refine ⟨fault?_eq_none_iff.mpr faultless, whole, tokens, ?_⟩
  rw [evaluate_of_parses around] at known
  rw [evaluate_of_parses (tokens ▸ together), evaluate_of_parses parses, SyntaxTree.eval_inlined known]

/-- A difference is divided by twice. Without its parentheses it would be torn apart. -/
theorem evaluate_of_inlined_divisor : ∃ (f g whole : Formula) (a1 : Address) (lookup : Address → Option Float),
    parse "8/a1/a1-b1".toList = .ok f ∧ parse "b1-2".toList = .ok g ∧ g.evaluate lookup = .ok 2 ∧
      parse "8/(b1-2)/(b1-2)-b1".toList = .ok whole ∧
      whole.evaluate lookup = f.evaluate (Function.update lookup a1 (some 2)) := by
  let a1 : Address := (Address.parse? "A1").get (by decide)
  let lookup (address : Address) : Option Float := if address.text = "B1" then some 4 else none
  have shown : (parse "8/a1/a1-b1".toList).isOk = true := by decide +kernel
  have value : ((parse "b1-2".toList).map (evaluate · lookup)) = .ok (.ok 2) := by decide +kernel
  have tokens : Token.scan "8/(b1-2)/(b1-2)-b1".toList = (do
      let f ← parse "8/a1/a1-b1".toList
      let g ← parse "b1-2".toList
      return f.tokens.flatMap (Token.inlined a1 g.tokens)) := by
    decide +kernel
  cases first : parse "8/a1/a1-b1".toList with
  | error e =>
    rw [first] at shown
    cases shown
  | ok f =>
    cases second : parse "b1-2".toList with
    | error e =>
      rw [second] at value
      cases value
    | ok g =>
      rw [second] at value
      have known : g.evaluate lookup = .ok 2 := Except.ok.inj value
      obtain ⟨_, whole, same, equal⟩ := evaluate_of_inlined (f := f) known a1
      rw [first, second] at tokens
      exact ⟨f, g, whole, a1, lookup, rfl, rfl, known, parse_eq_ok_iff.mpr (same ▸ tokens), equal⟩

end Formula
end Worksheet
