import Worksheet.Text.Unprinted

/-! Text in quotation marks, for messages. Characters that would not show, or would change what
stands around them, are spelled out. -/

namespace Worksheet.Text

def quoteChar (c : Char) : List Char :=
  if c = '\x00' then ['\\', '0']
  else if c = '\t' then ['\\', 't']
  else if c = '\r' then ['\\', 'r']
  else if c = '\n' then ['\\', 'n']
  else if c = '\\' then ['\\', '\\']
  else if c = '"' then ['\\', '"']
  else if isUnprinted c then ['\\', 'u', '\x7b'] ++ Nat.toDigits 16 c.toNat ++ ['\x7d']
  else [c]

def quote (text : String) : String := .ofList ('"' :: (text.toList.flatMap quoteChar ++ ['"']))

end Worksheet.Text
