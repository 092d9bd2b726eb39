import Worksheet.Formula.Basic

/-! Evaluation with two stacks: operands, and operators that wait for their right side. An
operator applies the waiting ones that bind at least as tightly, so equal strength groups to
the left; a closing parenthesis applies all that wait inside it. -/

namespace Worksheet

inductive Pending where
  | operation (op : Operator)
  | opening
deriving DecidableEq

namespace Operator

/-- The value of an operator; the right side of a division must not be zero of either sign. -/
def compute (op : Operator) (left right : Float) : Except EvaluationError Float :=
  match op with
  | add => .ok (left + right)
  | subtract => .ok (left - right)
  | multiply => .ok (left * right)
  | divide => if right == 0 then .error .divisionByZero else .ok (left / right)

end Operator

structure Machine where
  operands : List Float
  pending : List Pending

namespace Machine

def start : Machine := ⟨[], []⟩

def push (value : Float) (m : Machine) : Machine := { m with operands := value :: m.operands }

def await (p : Pending) (m : Machine) : Machine := { m with pending := p :: m.pending }

def apply (op : Operator) : List Float → Except EvaluationError (List Float)
  | right :: left :: operands => do return (← op.compute left right) :: operands
  | _ => .error .missingOperand

/-- Applies waiting operators from the top, as long as they are wanted. -/
def unwind (wanted : Operator → Bool) : List Pending → List Float → Except EvaluationError Machine
  | .operation op :: pending, operands =>
    if wanted op then do unwind wanted pending (← apply op operands)
    else .ok ⟨operands, .operation op :: pending⟩
  | pending, operands => .ok ⟨operands, pending⟩

/-- Takes one token. A closing parenthesis also takes away the opening one that it meets. -/
def step (lookup : Address → Option Float) (m : Machine) : Token → Except EvaluationError Machine
  | .number value => .ok (m.push value)
  | .cell address =>
    match lookup address with
    | some value => .ok (m.push value)
    | none => .error (.undefined address)
  | .operator op => do
    let m ← unwind (op.strength ≤ ·.strength) m.pending m.operands
    return m.await (.operation op)
  | .opening => .ok (m.await .opening)
  | .closing => do
    let m ← unwind (fun _ => true) m.pending m.operands
    return { m with pending := m.pending.tail }
  | .stray _ => .ok m

def finish (m : Machine) : Except EvaluationError Float := do
  match (← unwind (fun _ => true) m.pending m.operands).operands with
  | value :: _ => return value
  | [] => .error .missingOperand

end Machine

/-- A finished evaluation: the cells it asked for, in order, and what came of it. -/
structure Evaluation where
  asked : List Address
  result : Except EvaluationError Float

namespace Evaluation

/-- Puts the cell that a token asks for before what the rest of an evaluation asks. -/
def after (token : Token) (e : Evaluation) : Evaluation := { e with asked := token.cell?.toList ++ e.asked }

def run (lookup : Address → Option Float) : Machine → List Token → Evaluation
  | m, [] => ⟨[], m.finish⟩
  | m, token :: tokens =>
    match m.step lookup token with
    | .error e => after token ⟨[], .error e⟩
    | .ok m => after token (run lookup m tokens)

end Evaluation

namespace Formula

def evaluation (f : Formula) (lookup : Address → Option Float) : Evaluation :=
  Evaluation.run lookup .start f.tokens

/-- The value of a formula when cells have the values that `lookup` gives. -/
def evaluate (f : Formula) (lookup : Address → Option Float) : Except EvaluationError Float :=
  (f.evaluation lookup).result

end Formula
end Worksheet
