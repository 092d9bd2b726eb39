import Worksheet.Address
import Worksheet.Number.Text

/-! The tokens of a formula and their canonical spelling: numbers with the fewest digits that
read back, variables in upper case. -/

namespace Worksheet

inductive Operator where
  | add
  | subtract
  | multiply
  | divide
deriving DecidableEq

namespace Operator

def symbol : Operator → Char
  | add => '+'
  | subtract => '-'
  | multiply => '*'
  | divide => '/'

def ofSymbol? : Char → Option Operator
  | '+' => some add
  | '-' => some subtract
  | '*' => some multiply
  | '/' => some divide
  | _ => none

/-- How tightly an operator binds: multiplication and division before addition and subtraction. -/
def strength : Operator → Nat
  | add | subtract => 1
  | multiply | divide => 2

theorem symbol_of_ofSymbol? {c : Char} {op : Operator} (found : ofSymbol? c = some op) : op.symbol = c := by
  unfold ofSymbol? at found
  split at found <;> simp_all <;> subst found <;> rfl

end Operator

inductive Token where
  | opening
  | closing
  | operator (op : Operator)
  | number (value : Float)
  | cell (address : Address)
  /-- Text that is no token of a formula, kept so that it can be quoted. -/
  | stray (text : List Char)
deriving DecidableEq

namespace Token

def text : Token → List Char
  | opening => ['(']
  | closing => [')']
  | operator op => [op.symbol]
  | number value => Number.write value
  | cell address => address.text.toList
  | stray text => text

def isOperand : Token → Bool
  | number _ | cell _ => true
  | _ => false

def begins : Token → Bool
  | number _ | cell _ | opening => true
  | _ => false

def ends : Token → Bool
  | number _ | cell _ | closing => true
  | _ => false

def cell? : Token → Option Address
  | cell address => some address
  | _ => none

end Token
end Worksheet
