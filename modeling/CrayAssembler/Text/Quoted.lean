import CrayAssembler.Text.Digits
import CrayAssembler.Text.Shapeless

namespace CrayAssembler

namespace Text

/-- A character between quotes of the kind `quote`. -/
def escapeChar (quote c : Char) : String :=
  if c = '\x00' then "\\0"
  else if c = '\t' then "\\t"
  else if c = '\r' then "\\r"
  else if c = '\n' then "\\n"
  else if c = '\\' || c = quote then String.ofList ['\\', c]
  else if isShapeless c then "\\u\x7b" ++ digits 16 c.toNat ++ "\x7d"
  else c.toString

/-- A text in double quotes. -/
def quoted (text : String) : String :=
  "\"" ++ String.join (text.toList.map (escapeChar '"')) ++ "\""

/-- A character in single quotes. -/
def quotedChar (c : Char) : String :=
  "'" ++ escapeChar '\'' c ++ "'"

end Text

end CrayAssembler
