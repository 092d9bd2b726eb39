import Worksheet.Proofs.SyntaxTree

/-! The machine with two stacks computes what the syntax tree says. Operators that wait are applied
late, but never after the next operand has been looked up if they can fail, so even the first
error is that of the tree. -/

namespace Worksheet

namespace SyntaxTree

/-- The left side is evaluated before the right side, and both before the operation. -/
def eval (lookup : Address → Option Float) : SyntaxTree → Except EvaluationError Float
  | number value => .ok value
  | cell address =>
    match lookup address with
    | some value => .ok value
    | none => .error (.undefined address)
  | operation op left right => do
    let a ← left.eval lookup
    let b ← right.eval lookup
    match op with
    | .add => .ok (a + b)
    | .subtract => .ok (a - b)
    | .multiply => .ok (a * b)
    | .divide => if b == 0 then .error .divisionByZero else .ok (a / b)

variable {lookup : Address → Option Float}

theorem eval_operation (op : Operator) (left right : SyntaxTree) :
    (operation op left right).eval lookup =
      left.eval lookup >>= fun a => right.eval lookup >>= fun b => op.compute a b := by
  cases op <;> rfl

theorem eval_ne_missingOperand (tree : SyntaxTree) : tree.eval lookup ≠ .error .missingOperand := by
  induction tree with
  | number value =>
    intro same
    cases same
  | cell address =>
    rw [eval]
    split <;> simp
  | operation op left right first last =>
    rw [eval_operation]
    cases found : left.eval lookup with
    | error e =>
      rw [found] at first
      exact first
    | ok a =>
      cases found : right.eval lookup with
      | error e =>
        rw [found] at last
        exact last
      | ok b =>
        change op.compute a b ≠ _
        cases op with
        | add | subtract | multiply =>
          intro same
          cases same
        | divide =>
          simp only [Operator.compute]
          split <;> simp

def Grade.strength : Grade → Nat
  | .sum => 1
  | .product => 2
  | .factor => 3

def Grade.wants (grade : Grade) (op : Operator) : Bool := grade.strength ≤ op.strength

theorem Grade.wants_sum : Grade.sum.wants = fun _ => true := by
  funext op
  cases op <;> rfl

end SyntaxTree

namespace Machine
open SyntaxTree

variable {lookup : Address → Option Float} {grade tighter : Grade} {m : Machine}

def settle (grade : Grade) (m : Machine) : Except EvaluationError Machine := unwind grade.wants m.pending m.operands

def Bounded (grade : Grade) (m : Machine) : Prop :=
  ∀ op rest, m.pending = .operation op :: rest → op.strength < grade.strength

theorem bounded_factor (m : Machine) : Bounded .factor m := by
  intro op rest _
  cases op <;> decide

theorem Bounded.settle (bounded : Bounded grade m) : m.settle grade = .ok m := by
  obtain ⟨operands, pending⟩ := m
  unfold Machine.settle
  cases pending with
  | nil => rfl
  | cons top rest =>
    cases top with
    | opening => rfl
    | operation op =>
      have loose : grade.wants op = false := by
        have weaker := bounded op rest rfl
        simpa [Grade.wants] using weaker
      simp only [unwind, loose]
      rfl

/-- Operators that bind more tightly may be applied beforehand. -/
theorem settle_settle (below : grade.strength ≤ tighter.strength) (m : Machine) :
    (m.settle tighter >>= Machine.settle grade) = m.settle grade := by
  obtain ⟨operands, pending⟩ := m
  unfold Machine.settle
  induction pending generalizing operands with
  | nil => rfl
  | cons top rest ih =>
    cases top with
    | opening => rfl
    | operation op =>
      by_cases tight : tighter.wants op = true
      · have wanted : grade.wants op = true := by
          simp only [Grade.wants, decide_eq_true_eq] at tight ⊢
          omega
        simp only [unwind, tight, wanted, if_true, bind_assoc]
        congr 1
        funext operands
        exact ih operands
      · simp only [unwind, tight]
        rfl

theorem Bounded.settle_operation (bounded : Bounded grade m) {op : Operator} (equal : op.strength = grade.strength)
    (left right : Float) :
    (((m.push left).await (.operation op)).push right).settle grade =
      op.compute left right >>= fun value => .ok (m.push value) := by
  have wanted : grade.wants op = true := by simp [Grade.wants, equal]
  change unwind grade.wants (.operation op :: m.pending) (right :: left :: m.operands) = _
  simp only [unwind, wanted, if_true, apply, bind_assoc, pure_bind]
  congr 1
  funext value
  have pushed : Bounded grade (m.push value) := bounded
  exact pushed.settle

def top (m : Machine) : Except EvaluationError Float :=
  match m.operands with
  | value :: _ => .ok value
  | [] => .error .missingOperand

theorem finish_eq (m : Machine) : m.finish = m.settle .sum >>= top := by
  rw [settle, Grade.wants_sum]
  rfl

/-- Taking an operator settles its own grade first. -/
theorem step_operator {op : Operator} (equal : op.strength = grade.strength) (m : Machine) :
    m.step lookup (.operator op) = m.settle grade >>= fun m => .ok (m.await (.operation op)) := by
  have wanted : (fun other : Operator => decide (op.strength ≤ other.strength)) = grade.wants := by
    funext other
    rw [equal, Grade.wants]
  simp only [step, wanted]
  rfl

theorem step_closing (m : Machine) :
    m.step lookup .closing = m.settle .sum >>= fun m => .ok { m with pending := m.pending.tail } := by
  rw [settle, Grade.wants_sum]
  rfl

/-- From a machine on which nothing waits that binds as tightly, the tokens of a tree leave its value
on top, once the operators of its grade are settled. -/
def Runs (lookup : Address → Option Float) (grade : Grade) (tokens : List Token) (tree : SyntaxTree) : Prop :=
  ∀ m, Bounded grade m →
    (tokens.foldlM (Machine.step lookup) m >>= Machine.settle grade) = tree.eval lookup >>= fun value => .ok (m.push value)

theorem Runs.widen {tokens : List Token} {tree : SyntaxTree} (runs : Runs lookup tighter tokens tree)
    (below : grade.strength ≤ tighter.strength) : Runs lookup grade tokens tree := by
  intro m bounded
  have narrow : Bounded tighter m := fun op rest top => Nat.lt_of_lt_of_le (bounded op rest top) below
  calc
    _ = (tokens.foldlM (Machine.step lookup) m >>= Machine.settle tighter) >>= Machine.settle grade := by
      rw [bind_assoc]
      congr 1
      funext m
      exact (settle_settle below m).symm
    _ = tree.eval lookup >>= fun value => (m.push value).settle grade := by
      rw [runs m narrow, bind_assoc]
      rfl
    _ = tree.eval lookup >>= fun value => .ok (m.push value) := by
      congr 1
      funext value
      have pushed : Bounded grade (m.push value) := bounded
      exact pushed.settle

theorem Runs.operand {token : Token} {tree : SyntaxTree}
    (step : ∀ m : Machine, m.step lookup token = tree.eval lookup >>= fun value => .ok (m.push value)) :
    Runs lookup .factor [token] tree := by
  intro m _
  rw [List.foldlM_cons, step m, bind_assoc, bind_assoc]
  congr 1
  funext value
  exact (bounded_factor _).settle

theorem Runs.parentheses {tokens : List Token} {tree : SyntaxTree} (runs : Runs lookup .sum tokens tree) :
    Runs lookup .factor (.opening :: (tokens ++ [.closing])) tree := by
  intro m _
  have bounded : Bounded .sum (m.await .opening) := fun op rest top => by cases top
  calc
    _ = ((tokens.foldlM (Machine.step lookup) (m.await .opening) >>= Machine.settle .sum) >>=
          fun m => .ok { m with pending := m.pending.tail }) >>= Machine.settle .factor := by
      change (tokens ++ [Token.closing]).foldlM (Machine.step lookup) (m.await .opening) >>= _ = _
      simp only [List.foldlM_append, List.foldlM_cons, List.foldlM_nil, bind_pure, bind_assoc, step_closing]
    _ = tree.eval lookup >>= fun value => .ok (m.push value) := by
      rw [runs _ bounded, bind_assoc, bind_assoc]
      congr 1
      funext value
      exact (bounded_factor _).settle

theorem Runs.operation {left right : List Token} {a b : SyntaxTree} {op : Operator} (first : Runs lookup grade left a)
    (last : Runs lookup tighter right b) (equal : op.strength = grade.strength) (below : grade.strength < tighter.strength) :
    Runs lookup grade (left ++ .operator op :: right) (.operation op a b) := by
  intro m bounded
  calc
    _ = ((left.foldlM (Machine.step lookup) m >>= Machine.settle grade) >>=
          fun m => right.foldlM (Machine.step lookup) (m.await (.operation op)) >>= Machine.settle tighter) >>=
            Machine.settle grade := by
      simp only [List.foldlM_append, List.foldlM_cons, step_operator equal, bind_assoc,
        settle_settle (Nat.le_of_lt below)]
      rfl
    _ = a.eval lookup >>= fun x => b.eval lookup >>= fun y =>
          (((m.push x).await (.operation op)).push y).settle grade := by
      rw [first m bounded, bind_assoc, bind_assoc]
      congr 1
      funext x
      have waiting : Bounded tighter ((m.push x).await (.operation op)) := by
        intro other rest top
        cases top
        omega
      change (right.foldlM _ _ >>= Machine.settle tighter) >>= _ = _
      rw [last _ waiting, bind_assoc]
      rfl
    _ = (SyntaxTree.operation op a b).eval lookup >>= fun value => .ok (m.push value) := by
      rw [eval_operation, bind_assoc]
      simp only [bind_assoc, bounded.settle_operation equal]

theorem runs_of_parses {tokens : List Token} {tree : SyntaxTree} (parses : Parses grade tokens tree) :
    Runs lookup grade tokens tree := by
  induction parses with
  | number value => exact .operand fun _ => rfl
  | cell address =>
    apply Runs.operand
    intro m
    cases found : lookup address with
    | none => simp [step, eval, found, bind, Except.bind]
    | some value => simp [step, eval, found, bind, Except.bind]
  | parentheses _ inside => exact inside.parentheses
  | factor _ single => exact single.widen (by decide)
  | multiply operator _ _ first last =>
    rcases operator with rfl | rfl
    · exact first.operation last rfl (by decide)
    · exact first.operation last rfl (by decide)
  | product _ single => exact single.widen (by decide)
  | add operator _ _ first last =>
    rcases operator with rfl | rfl
    · exact first.operation last rfl (by decide)
    · exact first.operation last rfl (by decide)

end Machine

theorem Evaluation.result_run (lookup : Address → Option Float) (m : Machine) (tokens : List Token) :
    (run lookup m tokens).result = tokens.foldlM (Machine.step lookup) m >>= Machine.finish := by
  induction tokens generalizing m with
  | nil => rfl
  | cons token tokens ih =>
    rw [List.foldlM_cons]
    cases stepped : m.step lookup token with
    | error e =>
      simp only [run, stepped]
      rfl
    | ok next =>
      simp only [run, stepped]
      exact ih next

namespace Formula

theorem evaluate_of_parses {f : Formula} {tree : SyntaxTree} (parses : SyntaxTree.Parses .sum f.tokens tree)
    (lookup : Address → Option Float) : f.evaluate lookup = tree.eval lookup := by
  have bounded : Machine.Bounded .sum .start := fun op rest top => by cases top
  calc
    f.evaluate lookup = f.tokens.foldlM (Machine.step lookup) .start >>= Machine.finish := Evaluation.result_run ..
    _ = (f.tokens.foldlM (Machine.step lookup) .start >>= Machine.settle .sum) >>= Machine.top := by
      simp only [bind_assoc, ← Machine.finish_eq]
    _ = tree.eval lookup >>= fun value => .ok value := by
      rw [Machine.runs_of_parses parses .start bounded, bind_assoc]
      rfl
    _ = tree.eval lookup := bind_pure _

/-- Every formula has exactly one syntax tree, and evaluating the formula is evaluating the tree: the
same operations on the same operands, and the same error first. -/
theorem evaluate_eq_eval (f : Formula) :
    ∃ tree, (∀ other, SyntaxTree.Parses .sum f.tokens other ↔ other = tree) ∧
      ∀ lookup, f.evaluate lookup = tree.eval lookup ∧ f.evaluate lookup ≠ .error .missingOperand := by
  obtain ⟨tree, parses⟩ := f.exists_tree
  refine ⟨tree, ?_, ?_⟩
  · intro other
    constructor
    · exact fun parses' => parses'.unique parses
    · rintro rfl
      exact parses
  · intro lookup
    have same := evaluate_of_parses parses lookup
    exact ⟨same, same ▸ tree.eval_ne_missingOperand⟩

end Formula
end Worksheet
