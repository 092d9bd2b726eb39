import Worksheet.Json.Number

/-! JSON values that a document has no use for. A value under an unknown key is read past at any
depth; a value of the wrong kind is a fault, found before or after the value depending on
its kind. -/

namespace Worksheet.Json

/-- The fault of a value that stands where another kind is wanted, from its first character on.
A string, a word or a number is read to its end before it is found to be the wrong one. -/
def unwanted (cs : List Char) : Fault :=
  let after {α : Type} : Except Fault α → Fault
    | .error fault => fault
    | .ok _ => .mismatch
  let number (cs : List Char) : Fault :=
    match readNumber .incomplete cs with
    | .error fault => fault
    | .ok (n, _) => if isTooLarge n then .malformed else .mismatch
  match cs with
  | [] => .incomplete
  | '"' :: rest => after (readString rest)
  | '[' :: _ | '\x7b' :: _ => .mismatch
  | 'n' :: rest => after (readWord ['u', 'l', 'l'] rest)
  | 't' :: rest => after (readWord ['r', 'u', 'e'] rest)
  | 'f' :: rest => after (readWord ['a', 'l', 's', 'e'] rest)
  | '-' :: rest => number rest
  | c :: rest => if c.isDigit then number (c :: rest) else .malformed

/-- What is left after a word whose first letter has been read. -/
def Rest.afterFirst {c : Char} {cs : List Char} (rest : { rest : List Char // rest.length ≤ cs.length }) :
    Rest (c :: cs) :=
  ⟨rest.val, Nat.lt_succ_of_le rest.property⟩

inductive Bracket where
  | square
  | curly
deriving DecidableEq

def Bracket.close : Bracket → Char
  | square => ']'
  | curly => '\x7d'

def skipScalar (cs : List Char) : Except Fault (Rest cs) :=
  match cs with
  | [] => .error .incomplete
  | '"' :: rest => do return (← skipString rest).behind
  | 'n' :: rest => do return .afterFirst (← readWord ['u', 'l', 'l'] rest)
  | 't' :: rest => do return .afterFirst (← readWord ['r', 'u', 'e'] rest)
  | 'f' :: rest => do return .afterFirst (← readWord ['a', 'l', 's', 'e'] rest)
  | '-' :: rest => do return (← readNumber .malformed rest).2.behind
  | c :: rest => if c.isDigit then do return (← readNumber .malformed (c :: rest)).2 else .error .malformed

def readColon (cs : List Char) : Except Fault (Rest cs) :=
  match found : dropSpace cs with
  | [] => .error .incomplete
  | c :: rest =>
    if c = ':' then .ok ⟨rest, length_lt_of_dropSpace found⟩ else .error .malformed

inductive Stage where
  | value
  /-- The first entry of a bracket that has just been opened, or its end. -/
  | opened (bracket : Bracket)
  | key
  | ended

/-- An opened bracket is one step before its first entry. -/
def Stage.rank : Stage → Nat
  | opened _ => 1
  | _ => 0

/-- How many characters are read from a stage on, at least. -/
def Stage.least : Stage → Nat
  | ended => 0
  | _ => 1

/-- The stage after a comma, or before the first entry. -/
def Bracket.entry : Bracket → Stage
  | square => .value
  | curly => .key

/-- The brackets around a stage when `outer` are those around its bracket: a key stands for its
own bracket. -/
def Bracket.around (bracket : Bracket) (outer : List Bracket) : List Bracket :=
  match bracket with
  | square => square :: outer
  | curly => outer

private theorem least_entry (bracket : Bracket) : bracket.entry.least = 1 := by cases bracket <;> rfl

private theorem rank_entry (bracket : Bracket) : bracket.entry.rank = 0 := by cases bracket <;> rfl

/-- Reads past a value, or past the rest of one inside the brackets that are open around it, the
innermost first. -/
def skip (stage : Stage) (outer : List Bracket) (cs : List Char) : Except Fault (List Char) :=
  match stage with
  | .value =>
    match _ : dropSpace cs with
    | '[' :: rest => skip (.opened .square) outer rest
    | '\x7b' :: rest => skip (.opened .curly) outer rest
    | start =>
      match skipScalar start with
      | .error fault => .error fault
      | .ok after => skip .ended outer after.val
  | .opened bracket =>
    match _ : dropSpace cs with
    | [] => .error .incomplete
    | c :: rest =>
      if c = bracket.close then skip .ended outer rest
      else skip bracket.entry (bracket.around outer) (c :: rest)
  | .key =>
    match _ : dropSpace cs with
    | [] => .error .incomplete
    | c :: rest =>
      if c = '"' then
        match skipString rest with
        | .error fault => .error fault
        | .ok after =>
          match readColon after.val with
          | .error fault => .error fault
          | .ok final => skip .value (.curly :: outer) final.val
      else .error .malformed
  | .ended =>
    match outer with
    | [] => .ok cs
    | bracket :: outer =>
      match _ : dropSpace cs with
      | [] => .error .incomplete
      | c :: rest =>
        if c = ',' then skip bracket.entry (bracket.around outer) rest
        else if c = bracket.close then skip .ended outer rest
        else .error .malformed
termination_by 2 * cs.length + stage.rank
decreasing_by
  · have shorter := length_lt_of_dropSpace ‹_›
    simp only [Stage.rank]
    omega
  · have shorter := length_lt_of_dropSpace ‹_›
    simp only [Stage.rank]
    omega
  · have shorter := Nat.lt_of_lt_of_le after.property (length_le_of_dropSpace ‹_›)
    simp only [Stage.rank]
    omega
  · have shorter := length_lt_of_dropSpace ‹_›
    simp only [Stage.rank]
    omega
  · have shorter := length_lt_of_dropSpace ‹_›
    rw [rank_entry, List.length_cons]
    simp only [Stage.rank]
    omega
  · have shorter := Nat.lt_trans final.property (Nat.lt_trans after.property (length_lt_of_dropSpace ‹_›))
    simp only [Stage.rank]
    omega
  · have shorter := length_lt_of_dropSpace ‹_›
    rw [rank_entry]
    simp only [Stage.rank]
    omega
  · have shorter := length_lt_of_dropSpace ‹_›
    simp only [Stage.rank]
    omega

theorem length_skip {stage : Stage} {outer : List Bracket} {cs rest : List Char}
    (read : skip stage outer cs = .ok rest) :
    rest.length + stage.least ≤ cs.length := by
  fun_induction skip stage outer cs
  case case1 found ih | case2 found ih | case6 found ih =>
    have shorter := length_lt_of_dropSpace found
    have bound := ih read
    simp only [Stage.least] at bound ⊢
    omega
  case case15 found ih | case16 found _ ih =>
    have shorter := length_lt_of_dropSpace found
    have bound := ih read
    simp only [Stage.least] at bound ⊢
    omega
  case case4 after _ ih =>
    have shorter := Nat.lt_of_lt_of_le after.property (length_dropSpace_le _)
    have bound := ih read
    simp only [Stage.least] at bound ⊢
    omega
  case case7 bracket _ _ found _ ih =>
    have shorter := length_le_of_dropSpace found
    have bound := ih read
    rw [least_entry] at bound
    simp only [Stage.least]
    omega
  case case11 after _ final _ found ih =>
    have shorter := Nat.lt_trans final.property (Nat.lt_trans after.property (length_lt_of_dropSpace found))
    have bound := ih read
    simp only [Stage.least] at bound ⊢
    omega
  case case13 =>
    cases read
    simp [Stage.least]
  all_goals cases read

def skipValue (cs : List Char) : Except Fault (Rest cs) :=
  match read : skip .value [] cs with
  | .error fault => .error fault
  | .ok rest => .ok ⟨rest, length_skip read⟩

end Worksheet.Json
