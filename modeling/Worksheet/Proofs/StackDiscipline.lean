import Mathlib.Data.List.Chain
import Worksheet.Proofs.TreeEvaluation

/-! The two stacks of an evaluation belong together: what the place between two tokens calls for, the
stacks have. So no operator lacks an operand, no closing parenthesis takes away another opening one
than its own, and nothing is left over in the end, although the machine checks none of this. -/

namespace Worksheet

theorem Operator.strength_cases (op : Operator) : op.strength = 1 ∨ op.strength = 2 := by
  cases op
  all_goals decide

namespace SyntaxTree

/-- Where an operator may stand there is one operand that belongs to none yet. -/
def Place.held : Place → Nat
  | operand => 0
  | operator => 1

def Place.after (token : Token) : Place := if token.ends then .operator else .operand

def Place.behind : Place → List Token → Place
  | place, [] => place
  | _, token :: tokens => behind (.after token) tokens

theorem Place.behind_concat (place : Place) (tokens : List Token) (token : Token) :
    place.behind (tokens ++ [token]) = .after token := by
  induction tokens generalizing place with
  | nil => rfl
  | cons first tokens ih => exact ih _

theorem Place.held_after (token : Token) : (Place.after token).held = if token.ends then 1 else 0 := by
  unfold Place.after
  split
  · rfl
  · rfl

/-- A parenthesis that is open in the end was opened last at one place, and all that were opened behind
that place are closed again. -/
theorem exists_open {tokens : List Token} (opened : ∃ front back, tokens = front ++ back ∧ 0 < depth back) :
    ∃ outer inside, tokens = outer ++ .opening :: inside ∧ Nested .sum inside := by
  induction tokens with
  | nil =>
    obtain ⟨front, back, same, positive⟩ := opened
    obtain ⟨_, rfl⟩ := List.nil_eq_append_iff.mp same
    simp at positive
  | cons token tokens ih =>
    by_cases later : ∃ front back, tokens = front ++ back ∧ 0 < depth back
    · obtain ⟨outer, inside, rfl, nested⟩ := ih later
      exact ⟨token :: outer, inside, rfl, nested⟩
    · have flat (front back : List Token) (same : tokens = front ++ back) : depth back ≤ 0 :=
        Int.not_lt.mp fun positive => later ⟨front, back, same, positive⟩
      obtain ⟨front, back, same, positive⟩ := opened
      have whole := flat [] tokens rfl
      cases front with
      | cons _ front =>
        have bound := flat front back (List.cons.inj same).2
        omega
      | nil =>
        obtain rfl : token :: tokens = back := same
        rw [depth_cons] at positive
        cases token with
        | opening =>
          have level : depth tokens = 0 := by
            simp only [weight] at positive
            omega
          refine ⟨[], tokens, rfl, level, ?_, fun _ _ _ _ _ => trivial⟩
          rintro front back rfl
          have bound := flat front back rfl
          rw [depth_append] at level
          omega
        | closing | operator | number | cell | stray =>
          simp only [weight] at positive
          omega

end SyntaxTree

namespace Machine
open SyntaxTree

variable {lookup : Address → Option Float} {place : Place} {level : Nat} {m next : Machine} {token : Token}
  {tokens : List Token} {pending below : List Pending} {operands : List Float} {wanted : Operator → Bool}

def waiting (pending : List Pending) : List Operator :=
  pending.filterMap fun
    | .operation op => some op
    | .opening => none

theorem count_operations (ops : List Operator) : (ops.map Pending.operation).count .opening = 0 :=
  List.count_eq_zero.mpr (by simp)

/-! No operator is without its operands -/

/-- Either all is as it should be, or something has failed that was not for want of an operand. -/
def Supplied {α : Type} (holds : α → Prop) : Except EvaluationError α → Prop
  | .ok result => holds result
  | .error e => e ≠ .missingOperand

theorem Supplied.bind {α β : Type} {holds : α → Prop} {holds' : β → Prop} {first : Except EvaluationError α}
    {later : α → Except EvaluationError β} (supplied : Supplied holds first)
    (rest : ∀ result, holds result → Supplied holds' (later result)) : Supplied holds' (first >>= later) := by
  cases first with
  | error e => exact supplied
  | ok result => exact rest result supplied

theorem supplied_compute (op : Operator) (left right : Float) : Supplied (fun _ => True) (op.compute left right) := by
  cases op with
  | add | subtract | multiply => trivial
  | divide =>
    simp only [Operator.compute]
    split
    · intro same
      cases same
    · trivial

theorem supplied_apply (op : Operator) {size : Nat} (enough : operands.length = size + 2) :
    Supplied (fun rest => rest.length = size + 1) (apply op operands) := by
  rcases operands with _ | ⟨right, _ | ⟨left, operands⟩⟩
  · cases enough
  · cases enough
  · apply (supplied_compute op left right).bind
    intro value _
    exact Nat.succ.inj enough

theorem supplied_unwind (wanted : Operator → Bool) (filled : operands.length = (waiting pending).length + 1) :
    Supplied (fun m => m.operands.length = (waiting m.pending).length + 1) (unwind wanted pending operands) := by
  induction pending generalizing operands with
  | nil => exact filled
  | cons top pending ih =>
    cases top with
    | opening => exact filled
    | operation op =>
      simp only [unwind]
      split
      · exact (supplied_apply op filled).bind fun _ => ih
      · exact filled

/-- Operators are taken from the top only, and all of them up to one that is not wanted. -/
theorem pending_of_unwind (unwound : unwind wanted pending operands = .ok m) :
    ∃ ops : List Operator, pending = ops.map .operation ++ m.pending ∧
      ∀ op rest, m.pending = .operation op :: rest → wanted op = false := by
  induction pending generalizing operands with
  | nil =>
    cases unwound
    exact ⟨[], rfl, nofun⟩
  | cons top pending ih =>
    cases top with
    | opening =>
      cases unwound
      exact ⟨[], rfl, nofun⟩
    | operation op =>
      simp only [unwind] at unwound
      split at unwound
      next =>
        cases applied : apply op operands with
        | error e =>
          rw [applied] at unwound
          cases unwound
        | ok operands =>
          rw [applied] at unwound
          obtain ⟨ops, rfl, stops⟩ := ih unwound
          exact ⟨op :: ops, rfl, stops⟩
      next loose =>
        cases unwound
        refine ⟨[], rfl, ?_⟩
        rintro _ _ ⟨⟩
        exact Bool.of_not_eq_true loose

/-- Of two operators with no parenthesis between them the upper one binds more tightly. -/
def Above : Pending → Pending → Prop
  | .operation upper, .operation lower => lower.strength < upper.strength
  | _, _ => True

/-- How the stacks stand at a place with so many open parentheses. -/
structure Disciplined (place : Place) (level : Nat) (m : Machine) : Prop where
  filled : m.operands.length = (waiting m.pending).length + place.held
  rising : m.pending.IsChain Above
  opened : m.pending.count .opening = level

theorem Disciplined.start : Disciplined .operand 0 .start := ⟨rfl, .nil, rfl⟩

theorem Disciplined.push (disciplined : Disciplined .operand level m) (value : Float) :
    Disciplined .operator level (m.push value) :=
  ⟨congrArg (· + 1) disciplined.filled, disciplined.rising, disciplined.opened⟩

theorem Disciplined.await_opening (disciplined : Disciplined .operand level m) :
    Disciplined .operand (level + 1) (m.await .opening) where
  filled := disciplined.filled
  rising := List.isChain_cons.mpr ⟨fun _ _ => trivial, disciplined.rising⟩
  opened := by simp [await, disciplined.opened]

theorem Disciplined.unwind (disciplined : Disciplined .operator level m) (wanted : Operator → Bool) :
    Supplied (fun next => Disciplined .operator level next ∧ ∀ op rest, next.pending = .operation op :: rest → wanted op = false)
      (unwind wanted m.pending m.operands) := by
  have supplied := supplied_unwind wanted disciplined.filled
  cases unwound : Machine.unwind wanted m.pending m.operands with
  | error e =>
    rw [unwound] at supplied
    exact supplied
  | ok next =>
    rw [unwound] at supplied
    obtain ⟨ops, whole, stops⟩ := pending_of_unwind unwound
    have rising := disciplined.rising
    have opened := disciplined.opened
    rw [whole] at rising opened
    rw [List.count_append, count_operations, Nat.zero_add] at opened
    exact ⟨⟨supplied, rising.right_of_append, opened⟩, stops⟩

theorem Disciplined.await_operation (disciplined : Disciplined .operator level m) (op : Operator)
    (looser : ∀ other rest, m.pending = .operation other :: rest → other.strength < op.strength) :
    Disciplined .operand level (m.await (.operation op)) where
  filled := disciplined.filled
  rising := by
    refine List.isChain_cons.mpr ⟨?_, disciplined.rising⟩
    intro top first
    obtain ⟨rest, same⟩ := List.head?_eq_some_iff.mp first
    cases top with
    | opening => trivial
    | operation other => exact looser other rest same
  opened := by
    have other : Pending.operation op ≠ .opening := nofun
    rw [← disciplined.opened]
    exact List.count_cons_of_ne other

theorem Disciplined.close (disciplined : Disciplined .operator (level + 1) m)
    (bare : ∀ op rest, m.pending ≠ .operation op :: rest) :
    Disciplined .operator level { m with pending := m.pending.tail } := by
  obtain ⟨filled, rising, opened⟩ := disciplined
  obtain ⟨operands, pending⟩ := m
  cases pending with
  | nil => cases opened
  | cons top rest =>
    cases top with
    | operation op => exact absurd rfl (bare op rest)
    | opening =>
      refine ⟨filled, rising.tail, ?_⟩
      simpa using opened

theorem Disciplined.step (disciplined : Disciplined place level m) (follows : Follows place level (token :: tokens)) :
    Supplied (fun next => ∃ later : Nat, (later : Int) = level + weight token ∧ Disciplined (.after token) later next ∧
      Follows (.after token) later tokens) (m.step lookup token) := by
  cases follows with
  | number value rest => exact ⟨level, (Int.add_zero _).symm, disciplined.push value, rest⟩
  | cell address rest =>
    simp only [Machine.step]
    split
    next value _ => exact ⟨level, (Int.add_zero _).symm, disciplined.push value, rest⟩
    next =>
      intro same
      cases same
  | opening rest => exact ⟨level + 1, rfl, disciplined.await_opening, rest⟩
  | operator op rest =>
    apply (disciplined.unwind _).bind
    rintro next ⟨settled, stops⟩
    refine ⟨level, (Int.add_zero _).symm, settled.await_operation op ?_, rest⟩
    intro other below same
    simpa using stops other below same
  | @closing level _ rest =>
    apply (disciplined.unwind _).bind
    rintro next ⟨settled, stops⟩
    refine ⟨level, ?_, settled.close ?_, rest⟩
    · simp only [weight]
      omega
    · intro op below same
      cases stops op below same

theorem Disciplined.run {front back : List Token} (disciplined : Disciplined place level m)
    (follows : Follows place level (front ++ back)) :
    Supplied (fun next => ∃ later : Nat, (later : Int) = level + depth front ∧ Disciplined (place.behind front) later next ∧
      Follows (place.behind front) later back) (front.foldlM (Machine.step lookup) m) := by
  induction front generalizing place level m with
  | nil => exact ⟨level, (Int.add_zero _).symm, disciplined, follows⟩
  | cons token front ih =>
    rw [List.foldlM_cons]
    apply (disciplined.step follows).bind
    rintro next ⟨later, levels, disciplined, follows⟩
    have rest := ih disciplined follows
    rwa [levels, Int.add_assoc, ← depth_cons] at rest

/-! Every parenthesis is taken away by its own -/

/-- The machine after some tokens, none of which has ended the evaluation. -/
def Reached (lookup : Address → Option Float) (tokens : List Token) (m : Machine) : Prop :=
  tokens.foldlM (Machine.step lookup) .start = .ok m

theorem reached_append {front back : List Token} : Reached lookup (front ++ back) next ↔
    ∃ m, Reached lookup front m ∧ back.foldlM (Machine.step lookup) m = .ok next := by
  unfold Reached
  rw [List.foldlM_append]
  cases front.foldlM (Machine.step lookup) .start with
  | error e => exact ⟨nofun, nofun⟩
  | ok m => exact ⟨fun taken => ⟨m, rfl, taken⟩, fun ⟨_, same, taken⟩ => by cases same; exact taken⟩

inductive Moves : List Pending → Token → List Pending → Prop where
  | operator (op : Operator) (ops : List Operator) (rest : List Pending) :
      Moves (ops.map .operation ++ rest) (.operator op) (.operation op :: rest)
  | opening (pending : List Pending) : Moves pending .opening (.opening :: pending)
  | closing (ops : List Operator) {rest : List Pending} (bare : ∀ op below, rest ≠ .operation op :: below) :
      Moves (ops.map .operation ++ rest) .closing rest.tail
  | other (pending : List Pending) {token : Token} (flat : weight token = 0) : Moves pending token pending

theorem moves_of_step (taken : m.step lookup token = .ok next) : Moves m.pending token next.pending := by
  cases token with
  | number | stray =>
    cases taken
    exact .other _ rfl
  | cell address =>
    simp only [Machine.step] at taken
    split at taken
    next =>
      cases taken
      exact .other _ rfl
    next => cases taken
  | opening =>
    cases taken
    exact .opening _
  | operator op =>
    simp only [Machine.step] at taken
    cases unwound : unwind (op.strength ≤ ·.strength) m.pending m.operands with
    | error e =>
      rw [unwound] at taken
      cases taken
    | ok settled =>
      rw [unwound] at taken
      cases taken
      obtain ⟨ops, whole, _⟩ := pending_of_unwind unwound
      rw [whole]
      exact .operator op ops settled.pending
  | closing =>
    simp only [Machine.step] at taken
    cases unwound : unwind (fun _ => true) m.pending m.operands with
    | error e =>
      rw [unwound] at taken
      cases taken
    | ok settled =>
      rw [unwound] at taken
      cases taken
      obtain ⟨ops, whole, stops⟩ := pending_of_unwind unwound
      rw [whole]
      apply Moves.closing ops
      intro op below same
      cases stops op below same

/-- Of what is pending, a parenthesis stands right above these entries, and so many others above it. -/
def Encloses (below : List Pending) (inner : Int) (pending : List Pending) : Prop :=
  ∃ above, pending = above ++ .opening :: below ∧ (above.count .opening : Int) = inner

private theorem above_of_operations {ops : List Operator} {above rest : List Pending}
    (same : ops.map .operation ++ rest = above ++ .opening :: below) :
    ∃ between, above = ops.map .operation ++ between ∧ rest = between ++ .opening :: below := by
  rcases List.append_eq_append_iff.mp same with ⟨between, inside, outside⟩ | ⟨between, inside, outside⟩
  · exact ⟨between, inside, outside⟩
  · cases between with
    | nil => exact ⟨[], by simpa using inside.symm, by simpa using outside.symm⟩
    | cons top between =>
      obtain ⟨rfl, _⟩ := List.cons.inj outside
      have impossible : Pending.opening ∈ ops.map Pending.operation := by simp [inside]
      simp at impossible

theorem Encloses.of_operations {inner : Int} {ops : List Operator} {rest : List Pending}
    (encloses : Encloses below inner (ops.map .operation ++ rest)) : Encloses below inner rest := by
  obtain ⟨above, whole, count⟩ := encloses
  obtain ⟨between, rfl, rfl⟩ := above_of_operations whole
  rw [List.count_append, count_operations, Nat.zero_add] at count
  exact ⟨between, rfl, count⟩

theorem Encloses.top_cases {inner : Int} (encloses : Encloses below inner pending)
    (bare : ∀ op rest, pending ≠ .operation op :: rest) :
    inner = 0 ∧ pending = .opening :: below ∨ ∃ rest, pending = .opening :: rest ∧ Encloses below (inner - 1) rest := by
  obtain ⟨above, rfl, count⟩ := encloses
  cases above with
  | nil => exact Or.inl ⟨count.symm, rfl⟩
  | cons top above =>
    cases top with
    | operation op => exact absurd rfl (bare op _)
    | opening =>
      rw [List.count_cons_self] at count
      exact Or.inr ⟨_, rfl, above, rfl, by omega⟩

theorem Encloses.step {after : List Pending} {inner : Int} (encloses : Encloses below inner pending)
    (moves : Moves pending token after) (opened : 0 ≤ inner + weight token) :
    Encloses below (inner + weight token) after := by
  cases moves with
  | operator op ops rest =>
    obtain ⟨above, whole, count⟩ := encloses.of_operations
    refine ⟨.operation op :: above, congrArg _ whole, ?_⟩
    simpa [weight] using count
  | opening =>
    obtain ⟨above, whole, count⟩ := encloses
    refine ⟨.opening :: above, congrArg _ whole, ?_⟩
    simp [weight, count]
  | closing ops bare =>
    rcases encloses.of_operations.top_cases bare with ⟨rfl, _⟩ | ⟨rest, rfl, rest_encloses⟩
    · cases opened
    · exact rest_encloses
  | other _ flat =>
    rw [flat, Int.add_zero]
    exact encloses

theorem Encloses.run {inner : Int} (encloses : Encloses below inner m.pending)
    (taken : tokens.foldlM (Machine.step lookup) m = .ok next)
    (opened : ∀ front back, tokens = front ++ back → 0 ≤ inner + depth front) :
    Encloses below (inner + depth tokens) next.pending := by
  induction tokens generalizing inner m with
  | nil =>
    cases taken
    rwa [depth_nil, Int.add_zero]
  | cons token tokens ih =>
    rw [List.foldlM_cons] at taken
    cases stepped : m.step lookup token with
    | error e =>
      rw [stepped] at taken
      cases taken
    | ok between =>
      rw [stepped] at taken
      have first : 0 ≤ inner + weight token := by simpa using opened [token] tokens rfl
      rw [depth_cons, ← Int.add_assoc]
      apply ih (encloses.step (moves_of_step stepped) first) taken
      rintro front back rfl
      simpa [Int.add_assoc] using opened (token :: front) back rfl

/-- A parenthesis that no other is above is taken away by the next closing one, with the operators above it. -/
theorem Encloses.close {after : List Pending} (encloses : Encloses below 0 pending) (moves : Moves pending .closing after) :
    after = below ∧ ∃ ops : List Operator, pending = ops.map .operation ++ .opening :: below := by
  cases moves with
  | closing ops bare =>
    rcases encloses.of_operations.top_cases bare with ⟨_, rfl⟩ | ⟨rest, _, above, _, negative⟩
    · exact ⟨rfl, ops, rfl⟩
    · omega
  | other _ flat => cases flat

/-- What was pending before a parenthesis that is still open is pending yet, below it. -/
theorem encloses_of_reached {outer inside : List Token} (reached : Reached lookup (outer ++ .opening :: inside) m)
    (opened : ∀ front back, inside = front ++ back → 0 ≤ depth front) :
    ∃ before, Reached lookup outer before ∧ Encloses before.pending (depth inside) m.pending := by
  obtain ⟨before, reached, taken⟩ := reached_append.mp reached
  have first : Encloses before.pending 0 (before.await .opening).pending := ⟨[], rfl, rfl⟩
  have encloses := first.run taken fun front back same => by simpa using opened front back same
  rw [Int.zero_add] at encloses
  exact ⟨before, reached, encloses⟩

structure Discipline (lookup : Address → Option Float) (front : List Token) (token : Token) (m : Machine) : Prop where
  filled : m.operands.length = (waiting m.pending).length + if token.ends then 1 else 0
  /-- With no parenthesis between them, operators bind the more tightly the higher they are. -/
  rising : ∀ above (ops : List Operator) below, m.pending = above ++ (ops.map .operation ++ below) →
    ops.Pairwise (fun upper lower => lower.strength < upper.strength) ∧ ops.length ≤ 2
  opened : (m.pending.count .opening : Int) = depth (front ++ [token])
  /-- A parenthesis that has not been closed since is right above what was pending before it, and has as many
  others above it as have been opened since and are open. -/
  kept : ∀ outer inside, front ++ [token] = outer ++ .opening :: inside →
    (∀ begun rest, inside = begun ++ rest → 0 ≤ depth begun) → ∃ before above, Reached lookup outer before ∧
      m.pending = above ++ .opening :: before.pending ∧ (above.count .opening : Int) = depth inside
  /-- A closing parenthesis has taken away the opening one that it belongs to and the operators between them. -/
  closed : token = .closing → ∃ outer inside before inner, ∃ ops : List Operator,
    front = outer ++ .opening :: inside ∧ Nested .sum inside ∧ Reached lookup outer before ∧ Reached lookup front inner ∧
    inner.pending = ops.map .operation ++ .opening :: before.pending ∧ m.pending = before.pending

theorem Disciplined.rising_of_infix (disciplined : Disciplined place level m) {above below : List Pending}
    {ops : List Operator} (whole : m.pending = above ++ (ops.map .operation ++ below)) :
    ops.Pairwise (fun upper lower => lower.strength < upper.strength) ∧ ops.length ≤ 2 := by
  have rising := disciplined.rising
  rw [whole] at rising
  have chain : ops.IsChain fun upper lower => lower.strength < upper.strength :=
    (List.isChain_map _).mp rising.right_of_append.left_of_append
  have pairwise : ops.Pairwise fun upper lower => lower.strength < upper.strength := by
    let tighter (upper lower : Operator) : Prop := lower.strength < upper.strength
    have : Trans tighter tighter tighter := ⟨fun first second => Nat.lt_trans second first⟩
    exact List.IsChain.pairwise (R := tighter) chain
  refine ⟨pairwise, ?_⟩
  match ops, chain with
  | [], _ | [_], _ | [_, _], _ => simp
  | first :: second :: third :: _, chain =>
    obtain ⟨highest, chain⟩ := List.isChain_cons_cons.mp chain
    obtain ⟨higher, _⟩ := List.isChain_cons_cons.mp chain
    have := first.strength_cases
    have := third.strength_cases
    omega

variable {f : Formula} {front back : List Token} {value : Float}

theorem disciplined_of_reached (whole : f.tokens = front ++ back) (reached : Reached lookup front m) :
    ∃ level : Nat, (level : Int) = depth front ∧ Disciplined (Place.operand.behind front) level m ∧
      Follows (Place.operand.behind front) level back := by
  have follows := f.faultless.follows
  rw [whole] at follows
  have run : Supplied _ (front.foldlM (Machine.step lookup) .start) := Disciplined.start.run follows
  rw [reached] at run
  obtain ⟨level, levels, rest⟩ := run
  exact ⟨level, by simpa using levels, rest⟩

theorem discipline_of_reached (whole : f.tokens = front ++ token :: back) (reached : Reached lookup (front ++ [token]) m) :
    Discipline lookup front token m := by
  have whole : f.tokens = (front ++ [token]) ++ back := by simpa using whole
  obtain ⟨level, levels, disciplined, _⟩ := disciplined_of_reached whole reached
  constructor
  case filled => rw [disciplined.filled, Place.behind_concat, Place.held_after]
  case rising => exact fun _ _ _ => disciplined.rising_of_infix
  case opened => rw [disciplined.opened, levels]
  case kept =>
    intro outer inside parts opened
    rw [parts] at reached
    obtain ⟨before, reached, above, pending, count⟩ := encloses_of_reached reached opened
    exact ⟨before, above, reached, pending, count⟩
  case closed =>
    rintro rfl
    have positive : 0 < depth front := by
      simp only [depth_append, depth_cons, depth_nil, weight] at levels
      omega
    obtain ⟨outer, inside, rfl, nested⟩ := exists_open ⟨[], front, rfl, positive⟩
    obtain ⟨inner, reached, taken⟩ := reached_append.mp reached
    obtain ⟨before, reached', encloses⟩ := encloses_of_reached reached nested.opened
    rw [nested.closed] at encloses
    have stepped : inner.step lookup .closing = .ok m := by simpa using taken
    obtain ⟨popped, ops, pending⟩ := encloses.close (moves_of_step stepped)
    exact ⟨outer, inside, before, inner, ops, rfl, nested, reached', reached, pending, popped⟩

theorem step_ne_missingOperand (whole : f.tokens = front ++ token :: back) (reached : Reached lookup front m) :
    m.step lookup token ≠ .error .missingOperand := by
  obtain ⟨level, _, disciplined, follows⟩ := disciplined_of_reached whole reached
  have supplied : Supplied _ (m.step lookup token) := disciplined.step follows
  intro failed
  rw [failed] at supplied
  exact supplied rfl

theorem unwound_of_evaluate (evaluated : f.evaluate lookup = .ok value) :
    ∃ m, Reached lookup f.tokens m ∧ unwind (fun _ => true) m.pending m.operands = .ok ⟨[value], []⟩ := by
  have run : f.evaluate lookup = f.tokens.foldlM (Machine.step lookup) .start >>= finish := Evaluation.result_run ..
  rw [run] at evaluated
  cases reached : f.tokens.foldlM (Machine.step lookup) .start with
  | error e =>
    rw [reached] at evaluated
    cases evaluated
  | ok m =>
    rw [reached] at evaluated
    refine ⟨m, reached, ?_⟩
    obtain ⟨level, _, disciplined, follows⟩ := disciplined_of_reached (List.append_nil _).symm reached
    generalize Place.operand.behind f.tokens = place at disciplined follows
    cases follows
    have supplied := disciplined.unwind fun _ => true
    change (unwind (fun _ => true) m.pending m.operands >>= top) = .ok value at evaluated
    cases unwound : unwind (fun _ => true) m.pending m.operands with
    | error e =>
      rw [unwound] at evaluated
      cases evaluated
    | ok last =>
      rw [unwound] at evaluated supplied
      obtain ⟨settled, stops⟩ := supplied
      obtain ⟨operands, pending⟩ := last
      have empty : pending = [] := by
        cases pending with
        | nil => rfl
        | cons top rest =>
          cases top with
          | operation op => cases stops op rest rfl
          | opening => simpa using settled.opened
      subst empty
      obtain ⟨only, rfl⟩ := List.length_eq_one_iff.mp settled.filled
      cases evaluated
      rfl

end Machine

namespace Formula
open Machine

/-- An evaluation never lacks an operand, and after each token its two stacks belong together: there is an
operand for every operator that waits, and one more behind an operand or a closing parenthesis;
within each parenthesis at most two operators wait, the upper one with the tighter binding; the
parentheses that are pending are those that are open, and each is taken away by its own closing one.
When there is a value, it is all that is left. -/
theorem stacks_disciplined (f : Formula) (lookup : Address → Option Float) :
    (∀ front token back m, f.tokens = front ++ token :: back → Reached lookup (front ++ [token]) m →
      Discipline lookup front token m) ∧
    (∀ front token back m, f.tokens = front ++ token :: back → Reached lookup front m →
      m.step lookup token ≠ .error .missingOperand) ∧
    f.evaluate lookup ≠ .error .missingOperand ∧
    ∀ value, f.evaluate lookup = .ok value → ∃ m, Reached lookup f.tokens m ∧
      unwind (fun _ => true) m.pending m.operands = .ok ⟨[value], []⟩ := by
  refine ⟨fun _ _ _ _ => discipline_of_reached, fun _ _ _ _ => step_ne_missingOperand, ?_, fun _ => unwound_of_evaluate⟩
  obtain ⟨tree, parses⟩ := f.exists_tree
  rw [evaluate_of_parses parses]
  exact tree.eval_ne_missingOperand

private def ones : Address → Option Float := fun _ => some 1

private def nested : List Char := "2*(A1-3/B1)+1".toList

/-- Three operators wait when the parenthesis is closed, and the one before it goes on waiting. -/
theorem stacks_disciplined_within : ∃ (f : Formula) (front back : List Token) (m last : Machine), parse nested = .ok f ∧
    f.tokens = front ++ .closing :: back ∧ Reached ones (front ++ [.closing]) m ∧ Discipline ones front .closing m ∧
    m.pending = [.operation .multiply] ∧ m.operands.length = 2 ∧ f.evaluate ones = .ok (-3) ∧
    Reached ones f.tokens last ∧ unwind (fun _ => true) last.pending last.operands = .ok ⟨[-3], []⟩ := by
  have shown : (parse nested).toOption.map (fun f =>
      (decide (f.tokens = f.tokens.take 8 ++ .closing :: f.tokens.drop 9), (f.evaluate ones).toOption,
        ((f.tokens.take 8 ++ [.closing]).foldlM (step ones) .start).toOption.map fun m => (m.pending, m.operands.length))) =
      some (true, some (-3), some ([.operation .multiply], 2)) := by
    decide +kernel
  cases read : parse nested with
  | error e =>
    rw [read] at shown
    cases shown
  | ok f =>
    rw [read] at shown
    obtain ⟨parts, shown⟩ := Prod.mk.inj (Option.some.inj shown)
    obtain ⟨value, held⟩ := Prod.mk.inj shown
    have parts := of_decide_eq_true parts
    have value : f.evaluate ones = .ok (-3) := by
      cases evaluated : f.evaluate ones with
      | error e => rw [evaluated] at value; cases value
      | ok x => rw [evaluated] at value; cases value; rfl
    cases taken : (f.tokens.take 8 ++ [Token.closing]).foldlM (step ones) .start with
    | error e =>
      rw [taken] at held
      cases held
    | ok m =>
      rw [taken] at held
      obtain ⟨pending, size⟩ := Prod.mk.inj (Option.some.inj held)
      have disciplined := stacks_disciplined f ones
      obtain ⟨last, reached, unwound⟩ := disciplined.2.2.2 _ value
      exact ⟨f, _, _, m, last, rfl, parts, taken, disciplined.1 _ _ _ _ parts taken, pending, size, value, reached, unwound⟩

end Formula
end Worksheet
