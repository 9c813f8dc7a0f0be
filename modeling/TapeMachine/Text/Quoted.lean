import TapeMachine.Text.Hex
import TapeMachine.Text.Printable

/-!
# Quoted text

Messages show foreign text between quotes.  The quote is `'`, or `"` if the text holds a `'` and no
`"`.  The quote and the backslash are escaped, and so is every character that is not printable.
-/

namespace TapeMachine.Text

def quoteFor (cs : List Char) : Char := if '\'' ∈ cs ∧ '"' ∉ cs then '"' else '\''

def escaped (quote c : Char) : List Char :=
  if c = quote ∨ c = '\\' then ['\\', c]
  else if c = '\t' then ['\\', 't']
  else if c = '\n' then ['\\', 'n']
  else if c = '\r' then ['\\', 'r']
  else if isPrintable c then [c]
  else if c.toNat < 0x100 then '\\' :: 'x' :: hexDigits 2 c.toNat
  else if c.toNat < 0x10000 then '\\' :: 'u' :: hexDigits 4 c.toNat
  else '\\' :: 'U' :: hexDigits 8 c.toNat

def quotedChars (cs : List Char) : List Char :=
  let quote := quoteFor cs
  quote :: cs.flatMap (escaped quote) ++ [quote]

def quoted (s : String) : String := String.ofList (quotedChars s.toList)

def bracketed (items : List String) : String := "[" ++ ", ".intercalate items ++ "]"

end TapeMachine.Text
