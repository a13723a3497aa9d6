import BehaviorTree.Text.Hexadecimal
import BehaviorTree.Text.Visible

namespace BehaviorTree.Text

/-!
# Quoted text

Text between double quotes, in which every character can be seen: the quote and the backslash
are escaped, the usual controls have short escapes, and any other hidden character is written
as its code point in hexadecimal.
-/

/-- One character of quoted text. -/
def quoteChar (c : Char) : List Char :=
  if c = '"' then ['\\', '"']
  else if c = '\\' then ['\\', '\\']
  else if c = '\t' then ['\\', 't']
  else if c = '\n' then ['\\', 'n']
  else if c = '\r' then ['\\', 'r']
  else if c.toNat = 0 then ['\\', '0']
  else if isVisible c then [c]
  else ['\\', 'u', '{'] ++ hexadecimal c.toNat ++ ['}']

/-- Text in double quotes, with every character that cannot be seen escaped. -/
def quote (s : String) : String :=
  String.ofList ('"' :: s.toList.flatMap quoteChar ++ ['"'])

end BehaviorTree.Text
