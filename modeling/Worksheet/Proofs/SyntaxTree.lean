import Worksheet.Formula.Evaluation

/-! The syntax tree of a formula. The grammar gives every token list that passes for a formula a tree,
and never two: an operator outside all parentheses can be the last one applied only where it
binds the least and stands furthest to the right. -/

namespace Worksheet

/-- How the operations of a formula are nested. Parentheses leave no other trace. -/
inductive SyntaxTree where
  | number (value : Float)
  | cell (address : Address)
  | operation (op : Operator) (left right : SyntaxTree)

namespace SyntaxTree

inductive Grade where
  | sum
  | product
  | factor

/-- Products stand inside sums, and a chain of equal strength ends with its last operand, so it groups
to the left. Parentheses turn any sum into a factor. -/
inductive Parses : Grade → List Token → SyntaxTree → Prop where
  | number (value : Float) : Parses .factor [.number value] (.number value)
  | cell (address : Address) : Parses .factor [.cell address] (.cell address)
  | parentheses {tokens tree} (inside : Parses .sum tokens tree) :
      Parses .factor (.opening :: (tokens ++ [.closing])) tree
  | factor {tokens tree} (single : Parses .factor tokens tree) : Parses .product tokens tree
  | multiply {op left right a b} (operator : op = .multiply ∨ op = .divide) (first : Parses .product left a)
      (last : Parses .factor right b) : Parses .product (left ++ .operator op :: right) (.operation op a b)
  | product {tokens tree} (single : Parses .product tokens tree) : Parses .sum tokens tree
  | add {op left right a b} (operator : op = .add ∨ op = .subtract) (first : Parses .sum left a)
      (last : Parses .product right b) : Parses .sum (left ++ .operator op :: right) (.operation op a b)

/-! One tree at most -/

def weight : Token → Int
  | .opening => 1
  | .closing => -1
  | _ => 0

def depth : List Token → Int
  | [] => 0
  | token :: tokens => weight token + depth tokens

@[simp] theorem depth_nil : depth [] = 0 := rfl

@[simp] theorem depth_cons (token : Token) (tokens : List Token) : depth (token :: tokens) = weight token + depth tokens := rfl

@[simp] theorem depth_append (front back : List Token) : depth (front ++ back) = depth front + depth back := by
  induction front with
  | nil => simp
  | cons token front ih => rw [List.cons_append, depth_cons, depth_cons, ih, Int.add_assoc]

def Grade.Allows : Grade → Operator → Prop
  | .sum, _ => True
  | .product, op => op = .multiply ∨ op = .divide
  | .factor, _ => False

structure Nested (grade : Grade) (tokens : List Token) : Prop where
  closed : depth tokens = 0
  opened : ∀ front back, tokens = front ++ back → 0 ≤ depth front
  outside : ∀ front op back, tokens = front ++ .operator op :: back → depth front = 0 → grade.Allows op

theorem Nested.weaken {grade other : Grade} {tokens : List Token} (nested : Nested grade tokens)
    (allows : ∀ op, grade.Allows op → other.Allows op) : Nested other tokens :=
  ⟨nested.closed, nested.opened, fun front op back same level => allows op (nested.outside front op back same level)⟩

private theorem prefix_cases {left right front back : List Token} {op : Operator}
    (same : left ++ .operator op :: right = front ++ back) :
    (∃ rest, left = front ++ rest ∧ back = rest ++ .operator op :: right) ∨
      ∃ rest, front = left ++ .operator op :: rest ∧ right = rest ++ back := by
  rcases List.append_eq_append_iff.mp same with ⟨rest, rfl, tail⟩ | ⟨rest, rfl, tail⟩
  · cases rest with
    | nil => exact Or.inl ⟨[], by simp, by simpa using tail.symm⟩
    | cons token rest =>
      obtain ⟨rfl, rfl⟩ := List.cons.inj tail
      exact Or.inr ⟨rest, rfl, rfl⟩
  · exact Or.inl ⟨rest, rfl, tail⟩

theorem Nested.join {grade first last : Grade} {left right : List Token} {op : Operator} (nested : Nested first left)
    (nested' : Nested last right) (allows : ∀ op, first.Allows op ∨ last.Allows op → grade.Allows op)
    (joins : grade.Allows op) : Nested grade (left ++ .operator op :: right) := by
  constructor
  case closed => simp [weight, nested.closed, nested'.closed]
  case opened =>
    intro front back same
    rcases prefix_cases same with ⟨rest, whole, _⟩ | ⟨rest, rfl, whole⟩
    · exact nested.opened front rest whole
    · simpa [weight, nested.closed] using nested'.opened rest back whole
  case outside =>
    intro front other back same level
    rcases prefix_cases same with ⟨rest, whole, tail⟩ | ⟨rest, rfl, whole⟩
    · cases rest with
      | nil =>
        obtain ⟨equal, _⟩ := List.cons.inj tail
        rwa [Token.operator.inj equal]
      | cons token rest =>
        obtain ⟨rfl, _⟩ := List.cons.inj tail
        exact allows other (Or.inl (nested.outside front other rest whole level))
    · apply allows other (Or.inr (nested'.outside rest other back whole _))
      simpa [weight, nested.closed] using level

theorem Nested.enclose {tokens : List Token} (nested : Nested .sum tokens) :
    Nested .factor (.opening :: (tokens ++ [.closing])) := by
  have inside {front back : List Token} (same : tokens ++ [.closing] = front ++ back) (proper : back ≠ []) :
      0 ≤ depth front := by
    rcases List.append_eq_append_iff.mp same with ⟨rest, rfl, tail⟩ | ⟨rest, whole, _⟩
    · cases rest with
      | nil => exact Int.le_of_eq (by simp [nested.closed])
      | cons token rest => simp_all
    · exact nested.opened front rest whole
  constructor
  case closed => simp [weight, nested.closed]
  case opened =>
    intro front back same
    cases front with
    | nil => simp
    | cons token front =>
      obtain ⟨rfl, rest⟩ := List.cons.inj same
      cases back with
      | nil =>
        obtain rfl : tokens ++ [.closing] = front := by simpa using rest
        simp [weight, nested.closed]
      | cons next back =>
        have bound := inside rest (List.cons_ne_nil _ _)
        simp only [depth_cons, weight]
        omega
  case outside =>
    intro front op back same level
    cases front with
    | nil => cases same
    | cons token front =>
      obtain ⟨rfl, rest⟩ := List.cons.inj same
      have bound := inside rest (List.cons_ne_nil _ _)
      simp only [depth_cons, weight] at level
      omega

theorem Parses.nested {grade : Grade} {tokens : List Token} {tree : SyntaxTree} (parses : Parses grade tokens tree) :
    Nested grade tokens := by
  have single {token : Token} (flat : weight token = 0) (operand : ∀ op, token ≠ .operator op) :
      Nested .factor [token] := by
    refine ⟨by simp [flat], ?_, ?_⟩
    · intro front back same
      cases front with
      | nil => simp
      | cons other front =>
        obtain ⟨rfl, rest⟩ := List.cons.inj same
        obtain ⟨rfl, _⟩ := List.nil_eq_append_iff.mp rest
        simp [flat]
    · intro front op back same
      cases front with
      | nil => exact absurd (List.cons.inj same).1 (operand op)
      | cons other front => simp at same
  induction parses with
  | number => exact single rfl nofun
  | cell => exact single rfl nofun
  | parentheses _ inside => exact inside.enclose
  | factor _ inside => exact inside.weaken fun _ impossible => impossible.elim
  | multiply operator _ _ first last =>
    exact first.join last (fun op either => either.elim id fun impossible => impossible.elim) operator
  | product _ inside => exact inside.weaken fun _ _ => trivial
  | add _ _ _ first last => exact first.join last (fun _ _ => trivial) trivial

/-- Of two ways to split a token list at an operator, the one further to the left has the other's
operator in its right part and outside all parentheses. -/
private theorem split_unique {first last : Grade} {left right left' right' : List Token} {op op' : Operator}
    (nested : Nested first left) (nested' : Nested first left') (parts : Nested last right) (parts' : Nested last right')
    (apart : ¬ last.Allows op) (apart' : ¬ last.Allows op')
    (same : left ++ .operator op :: right = left' ++ .operator op' :: right') :
    left = left' ∧ op = op' ∧ right = right' := by
  have level {a b : List Token} {o : Operator} (x : Nested first a) (y : Nested first (a ++ .operator o :: b)) :
      depth b = 0 := by
    have total := y.closed
    simpa [weight, x.closed] using total
  rcases prefix_cases same with ⟨rest, whole, tail⟩ | ⟨rest, whole, tail⟩
  · cases rest with
    | nil =>
      obtain ⟨equal, rfl⟩ := List.cons.inj tail
      exact ⟨by simpa using whole, (Token.operator.inj equal).symm, rfl⟩
    | cons token rest =>
      obtain ⟨rfl, right⟩ := List.cons.inj tail
      subst whole
      exact absurd (parts'.outside rest op _ right (level nested' nested)) apart
  · subst whole
    exact absurd (parts.outside rest op' right' tail (level nested nested')) apart'

theorem Parses.unique {grade : Grade} {tokens : List Token} {tree other : SyntaxTree} (parses : Parses grade tokens tree)
    (parses' : Parses grade tokens other) : tree = other := by
  induction parses generalizing other with
  | number value =>
    cases parses'
    rfl
  | cell address =>
    cases parses'
    rfl
  | @parentheses tokens tree inside ih =>
    generalize whole : Token.opening :: (tokens ++ [.closing]) = all at parses'
    cases parses' with
    | number | cell => cases whole
    | parentheses inside' =>
      have same := List.append_cancel_right (List.cons.inj whole).2
      exact ih (same ▸ inside')
  | @factor tokens tree single ih =>
    cases parses' with
    | factor single' => exact ih single'
    | @multiply op left right _ _ _ first _ => exact (single.nested.outside left op right rfl first.nested.closed).elim
  | @multiply op left right _ _ operator first last ihFirst ihLast =>
    generalize whole : left ++ .operator op :: right = all at parses'
    cases parses' with
    | factor single' => exact (single'.nested.outside left op right whole.symm first.nested.closed).elim
    | multiply operator' first' last' =>
      obtain ⟨rfl, rfl, rfl⟩ := split_unique first.nested first'.nested last.nested last'.nested id id whole
      rw [ihFirst first', ihLast last']
  | @product tokens tree single ih =>
    cases parses' with
    | product single' => exact ih single'
    | @add op left right _ _ operator first _ =>
      have tight := single.nested.outside left op right rfl first.nested.closed
      rcases operator with rfl | rfl <;> simp [Grade.Allows] at tight
  | @add op left right _ _ operator first last ihFirst ihLast =>
    have apart {op : Operator} (operator : op = .add ∨ op = .subtract) : ¬ Grade.product.Allows op := by
      rcases operator with rfl | rfl <;> simp [Grade.Allows]
    generalize whole : left ++ .operator op :: right = all at parses'
    cases parses' with
    | product single' => exact absurd (single'.nested.outside left op right whole.symm first.nested.closed) (apart operator)
    | add operator' first' last' =>
      obtain ⟨rfl, rfl, rfl⟩ :=
        split_unique first.nested first'.nested last.nested last'.nested (apart operator) (apart operator') whole
      rw [ihFirst first', ihLast last']

/-! One tree at least -/

inductive Place where
  | operand
  | operator

/-- The tokens may follow at a place with so many open parentheses, and close all of them. -/
inductive Follows : Place → Nat → List Token → Prop where
  | nil : Follows .operator 0 []
  | number {level tokens} (value : Float) (rest : Follows .operator level tokens) :
      Follows .operand level (.number value :: tokens)
  | cell {level tokens} (address : Address) (rest : Follows .operator level tokens) :
      Follows .operand level (.cell address :: tokens)
  | opening {level tokens} (rest : Follows .operand (level + 1) tokens) : Follows .operand level (.opening :: tokens)
  | closing {level tokens} (rest : Follows .operator level tokens) : Follows .operator (level + 1) (.closing :: tokens)
  | operator {level tokens} (op : Operator) (rest : Follows .operand level tokens) :
      Follows .operator level (.operator op :: tokens)

/-- A sum that waits for its next product. -/
def Leading (tokens : List Token) : Prop :=
  tokens = [] ∨ ∃ left a op, (op = .add ∨ op = .subtract) ∧ Parses .sum left a ∧ tokens = left ++ [.operator op]

def Joining (tokens : List Token) : Prop :=
  tokens = [] ∨ ∃ left a op, (op = .multiply ∨ op = .divide) ∧ Parses .product left a ∧ tokens = left ++ [.operator op]

inductive Open : Nat → List Token → Prop where
  | none : Open 0 []
  | opening {level outer leading joining} (around : Open level outer) (sum : Leading leading) (product : Joining joining) :
      Open (level + 1) (outer ++ (leading ++ (joining ++ [.opening])))

theorem Joining.complete {joining tokens : List Token} {tree : SyntaxTree} (product : Joining joining)
    (factor : Parses .factor tokens tree) : ∃ whole, Parses .product (joining ++ tokens) whole := by
  rcases product with rfl | ⟨left, a, op, operator, first, rfl⟩
  · exact ⟨tree, .factor factor⟩
  · exact ⟨.operation op a tree, by simpa using Parses.multiply operator first factor⟩

theorem Leading.complete {leading tokens : List Token} {tree : SyntaxTree} (sum : Leading leading)
    (product : Parses .product tokens tree) : ∃ whole, Parses .sum (leading ++ tokens) whole := by
  rcases sum with rfl | ⟨left, a, op, operator, first, rfl⟩
  · exact ⟨tree, .product product⟩
  · exact ⟨.operation op a tree, by simpa using Parses.add operator first product⟩

/-- Reading goes on from any state of the open sums and products; at the place of an operator a factor
has just been read. -/
def Place.Completes : Place → Nat → List Token → Prop
  | operand, level, tokens => ∀ outer leading joining, Open level outer → Leading leading → Joining joining →
      ∃ tree, Parses .sum (outer ++ (leading ++ (joining ++ tokens))) tree
  | operator, level, tokens => ∀ outer leading joining last a, Open level outer → Leading leading → Joining joining →
      Parses .factor last a → ∃ tree, Parses .sum (outer ++ (leading ++ (joining ++ (last ++ tokens)))) tree

theorem Follows.completes {place : Place} {level : Nat} {tokens : List Token} (follows : Follows place level tokens) :
    place.Completes level tokens := by
  induction follows with
  | nil =>
    intro outer leading joining last a around sum product factor
    cases around
    obtain ⟨b, product⟩ := product.complete factor
    simpa using sum.complete product
  | number value _ ih =>
    intro outer leading joining around sum product
    exact ih outer leading joining _ _ around sum product (.number value)
  | cell address _ ih =>
    intro outer leading joining around sum product
    exact ih outer leading joining _ _ around sum product (.cell address)
  | opening _ ih =>
    intro outer leading joining around sum product
    simpa using ih _ [] [] (.opening around sum product) (Or.inl rfl) (Or.inl rfl)
  | closing _ ih =>
    intro outer leading joining last a around sum product factor
    obtain ⟨b, product⟩ := product.complete factor
    obtain ⟨c, inside⟩ := sum.complete product
    cases around with
    | opening around sum product => simpa using ih _ _ _ _ _ around sum product (.parentheses inside)
  | operator op _ ih =>
    intro outer leading joining last a around sum product factor
    obtain ⟨b, product⟩ := product.complete factor
    by_cases tight : op = .multiply ∨ op = .divide
    · simpa using ih outer leading _ around sum (Or.inr ⟨_, b, op, tight, product, rfl⟩)
    · have loose : op = .add ∨ op = .subtract := by cases op <;> simp_all
      obtain ⟨c, first⟩ := sum.complete product
      simpa using ih outer _ [] around (Or.inr ⟨_, c, op, loose, first, rfl⟩) (Or.inl rfl)

end SyntaxTree

namespace Formula

/-- What ends an operand is followed by what cannot begin one, and the other way round. -/
theorem begins_of_neighbours {current next : Token} (plain : strayText? current = none)
    (fine : neighbourFault? current next = none) : next.begins = !current.ends := by
  cases current with
  | stray => cases plain
  | opening | operator =>
    cases next with
    | opening | number | cell => rfl
    | closing | operator | stray => cases fine
  | closing | number | cell =>
    cases next with
    | closing | operator => rfl
    | stray => cases fine
    | opening | number | cell => cases fine

private theorem follows_of_faultless {tokens : List Token} {first last : Token} {position openings closings : Nat}
    (plain : ∀ token ∈ first :: tokens, strayText? token = none) (ends : (first :: tokens).getLast? = some last)
    (finished : last.ends = true) (neighbours : neighboursFault? (first :: tokens) = none)
    (parentheses : parenthesesFault? position openings closings (first :: tokens) = none) (few : closings ≤ openings) :
    SyntaxTree.Follows (if first.begins then .operand else .operator) (openings - closings) (first :: tokens) := by
  induction tokens generalizing first position openings closings with
  | nil =>
    obtain rfl : first = last := by simpa using ends
    cases first with
    | opening | operator => cases finished
    | stray text => simp [strayText?] at plain
    | number value =>
      obtain rfl : openings = closings := by simpa [parenthesesFault?] using parentheses
      simpa [Token.begins] using SyntaxTree.Follows.number value .nil
    | cell address =>
      obtain rfl : openings = closings := by simpa [parenthesesFault?] using parentheses
      simpa [Token.begins] using SyntaxTree.Follows.cell address .nil
    | closing =>
      obtain rfl : openings = closings + 1 := by
        simp only [parenthesesFault?] at parentheses
        grind
      simpa [Token.begins] using SyntaxTree.Follows.closing .nil
  | cons next tokens ih =>
    rw [neighboursFault?, Option.or_eq_none_iff] at neighbours
    have later {position openings closings : Nat}
        (parentheses : parenthesesFault? position openings closings (next :: tokens) = none) (few : closings ≤ openings) :=
      ih (fun token member => plain token (List.mem_cons_of_mem _ member)) (by simpa using ends) neighbours.2 parentheses few
    have begins := begins_of_neighbours (plain first List.mem_cons_self) neighbours.1
    cases first with
    | stray text => simp [strayText?] at plain
    | opening =>
      have rest := later (by simpa only [parenthesesFault?] using parentheses) (Nat.le_succ_of_le few)
      rw [begins, Nat.succ_sub few] at rest
      simpa [Token.begins] using SyntaxTree.Follows.opening rest
    | operator op =>
      have rest := later (by simpa only [parenthesesFault?] using parentheses) few
      rw [begins] at rest
      simpa [Token.begins] using SyntaxTree.Follows.operator op rest
    | number value =>
      have rest := later (by simpa only [parenthesesFault?] using parentheses) few
      rw [begins] at rest
      simpa [Token.begins] using SyntaxTree.Follows.number value rest
    | cell address =>
      have rest := later (by simpa only [parenthesesFault?] using parentheses) few
      rw [begins] at rest
      simpa [Token.begins] using SyntaxTree.Follows.cell address rest
    | closing =>
      simp only [parenthesesFault?] at parentheses
      split at parentheses
      next => cases parentheses
      next fewer =>
        have rest := later parentheses (by omega)
        rw [begins] at rest
        have level : openings - closings = openings - (closings + 1) + 1 := by omega
        rw [level]
        simpa [Token.begins] using SyntaxTree.Follows.closing rest

theorem Faultless.follows {tokens : List Token} (faultless : Faultless tokens) : SyntaxTree.Follows .operand 0 tokens := by
  obtain ⟨plain, ⟨first, start, begins⟩, ⟨last, finish, ends⟩, neighbours, parentheses⟩ := faultless
  obtain ⟨rest, rfl⟩ := List.head?_eq_some_iff.mp start
  have follows := follows_of_faultless plain finish ends neighbours parentheses (Nat.le_refl 0)
  rwa [if_pos begins] at follows

theorem Faultless.exists_tree {tokens : List Token} (faultless : Faultless tokens) :
    ∃ tree, SyntaxTree.Parses .sum tokens tree := by
  simpa using faultless.follows.completes [] [] [] .none (Or.inl rfl) (Or.inl rfl)

theorem exists_tree (f : Formula) : ∃ tree, SyntaxTree.Parses .sum f.tokens tree := f.faultless.exists_tree

end Formula
end Worksheet
