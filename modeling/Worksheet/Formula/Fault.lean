import Worksheet.Formula.Token

/-! Why a text is no formula, and why a formula has no value. -/

namespace Worksheet

inductive FormulaError where
  | empty
  | stray (text : List Char)
  | tooLarge (literal : List Char)
  | start (found : Token)
  | finish (found : Token)
  | operandExpected (after found : Token)
  | operatorExpected (after found : Token)
  /-- A closing parenthesis with none open, by its place among the tokens. -/
  | unopened (position : Nat)
  /-- Parentheses that are still open at the end, by the counts of both kinds. -/
  | unclosed (openings closings : Nat)
deriving DecidableEq

namespace FormulaError

private def quoted (cs : List Char) : String := "'" ++ .ofList cs ++ "'"

def message : FormulaError → String
  | empty => "Formula cannot be empty"
  | stray text => "Invalid token " ++ quoted text
  | tooLarge literal => "Numeric literal " ++ quoted literal ++ " is out of range"
  | start found => "Formula must start with a number, variable, or '(' but starts with " ++ quoted found.text
  | finish found => "Formula must end with a number, variable, or ')' but ends with " ++ quoted found.text
  | operandExpected after found =>
    "Expected a number, variable, or '(' after " ++ quoted after.text ++ " but found " ++ quoted found.text
  | operatorExpected after found =>
    "Expected an operator or ')' after " ++ quoted after.text ++ " but found " ++ quoted found.text
  | unopened position => "Closing parenthesis at token " ++ toString position ++ " has no matching '('"
  | unclosed openings closings =>
    "Unbalanced parentheses: " ++ toString openings ++ " opening but " ++ toString closings ++ " closing"

end FormulaError

inductive EvaluationError where
  | undefined (address : Address)
  | divisionByZero
  /-- The tokens leave an operator without an operand, which those of a formula never do. -/
  | missingOperand
deriving DecidableEq

namespace EvaluationError

def message : EvaluationError → String
  | undefined address => "Undefined variable: " ++ address.text
  | divisionByZero => "Division by zero"
  | missingOperand => "Missing operand"

end EvaluationError
end Worksheet
