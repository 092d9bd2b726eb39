/-! Writing JSON text, on one line or indented by two spaces. Strings keep every character but
quotes, backslashes and control characters. -/

namespace Worksheet.Json

def hexDigits (n : Nat) : List Char := [Nat.digitChar (n / 16), Nat.digitChar (n % 16)]

/-- A character inside a string. -/
def writeChar (c : Char) : List Char :=
  if c = '"' then ['\\', '"']
  else if c = '\\' then ['\\', '\\']
  else if c = '\x08' then ['\\', 'b']
  else if c = '\x0c' then ['\\', 'f']
  else if c = '\n' then ['\\', 'n']
  else if c = '\r' then ['\\', 'r']
  else if c = '\t' then ['\\', 't']
  else if c.toNat < 0x20 then ['\\', 'u', '0', '0'] ++ hexDigits c.toNat
  else [c]

def writeString (text : String) : List Char := '"' :: (text.toList.flatMap writeChar ++ ['"'])

inductive Layout where
  | compact
  | indented
deriving DecidableEq

namespace Layout

/-- A new line at a depth, where lines are broken. -/
def newline (layout : Layout) (depth : Nat) : List Char :=
  match layout with
  | compact => []
  | indented => '\n' :: List.replicate (2 * depth) ' '

def colon : Layout → List Char
  | compact => [':']
  | indented => [':', ' ']

/-- A member whose value is already written. -/
def member (layout : Layout) (key : String) (value : List Char) : List Char :=
  writeString key ++ layout.colon ++ value

/-- An object at a depth, from its written members. Nothing stands in an empty one. -/
def object (layout : Layout) (depth : Nat) (members : List (List Char)) : List Char :=
  let line := layout.newline (depth + 1)
  match members with
  | [] => ['\x7b', '\x7d']
  | first :: others =>
    ['\x7b'] ++ line ++ first ++ others.flatMap (fun member => [','] ++ line ++ member) ++
      layout.newline depth ++ ['\x7d']

end Layout
end Worksheet.Json
