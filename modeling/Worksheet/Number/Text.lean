import Worksheet.Number.Numeral

/-! Numbers as text. A number is written with the fewest digits that read back, never with an
exponent; reading takes a sign, a numeral, or a word for infinity or for no number. -/

namespace Worksheet.Number

def isFinite (x : Float) : Bool := Magnitude.ofFloat x < Magnitude.infinity

/-- No number, as the word `nan` is read. -/
def undefined : Float := .ofBits 0x7FF8000000000000

def ofDecimal (negative : Bool) (d : Decimal) : Float := Magnitude.toFloat negative d.magnitude

def digits (size : Nat) : List Char :=
  if size = 0 then ['0']
  else if size < Magnitude.infinity then (Decimal.shortest size).positional
  else ['i', 'n', 'f']

/-- The text of a number. Negative zero keeps its sign, and what is no number has none. -/
def write (x : Float) : List Char :=
  let size := Magnitude.ofFloat x
  if Magnitude.infinity < size then ['N', 'a', 'N']
  else if Magnitude.isNegative x then '-' :: digits size
  else digits size

def toText (x : Float) : String := .ofList (write x)

/-- Reads a text without a sign. Words may be spelled in either case. -/
def readUnsigned? (negative : Bool) (cs : List Char) : Option Float :=
  let word := String.ofList (cs.map Char.toLower)
  if word = "inf" ∨ word = "infinity" then some (Magnitude.toFloat negative Magnitude.infinity)
  else if word = "nan" then some undefined
  else
    match Numeral.scan? cs with
    | some (numeral, []) => some (ofDecimal negative numeral.decimal)
    | _ => none

/-- Reads a whole text as a number; values beyond the finite ones become infinite or zero. -/
def read? : List Char → Option Float
  | '+' :: rest => readUnsigned? false rest
  | '-' :: rest => readUnsigned? true rest
  | cs => readUnsigned? false cs

end Worksheet.Number
