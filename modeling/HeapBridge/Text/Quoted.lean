import HeapBridge.Text.Hex
import HeapBridge.Text.Invisible

/-!
# Quoted text

A text as diagnostics show it: in double quotes, with the quote, the backslash and every character
that would not show replaced by an escape.
-/
namespace HeapBridge.Text

/-- Whether a character is shown by its number. -/
def needsNumber (c : Char) : Bool :=
  if c.toNat < 0x80 then c.toNat < 0x20 || c.toNat == 0x7f else isInvisible c

/-- One character inside quotes. -/
def quoteChar (c : Char) : String :=
  if c = '\x00' then "\\0"
  else if c = '\t' then "\\t"
  else if c = '\r' then "\\r"
  else if c = '\n' then "\\n"
  else if c = '\\' then "\\\\"
  else if c = '"' then "\\\""
  else if needsNumber c then "\\u\x7b" ++ hexDigits c.toNat ++ "\x7d"
  else String.singleton c

/-- A text in quotes. -/
def quoted (s : String) : String :=
  "\"" ++ String.join (s.toList.map quoteChar) ++ "\""

end HeapBridge.Text
