namespace CrayAssembler

inductive Operator where
  | plus
  | minus
  | star
  | slash
  | backslash
  | bang
  | ampersand
  | hash
  | less
  | greater
  | hashLess
  | hashGreater
  | equals
  /-- Take the operand as a parcel address. -/
  | asParcel
  /-- Take the operand as a word address. -/
  | asWord
  | floatPlus
  | floatMinus
  | floatTimes
  | halfTimes
  | iterationTimes
  | roundedTimes
  | reciprocal
deriving DecidableEq, Repr

namespace Operator

def text : Operator → String
  | plus => "+"
  | minus => "-"
  | star => "*"
  | slash => "/"
  | backslash => "\\"
  | bang => "!"
  | ampersand => "&"
  | hash => "#"
  | less => "<"
  | greater => ">"
  | hashLess => "#<"
  | hashGreater => "#>"
  | equals => "="
  | asParcel => "P."
  | asWord => "W."
  | floatPlus => "+F"
  | floatMinus => "-F"
  | floatTimes => "*F"
  | halfTimes => "*H"
  | iterationTimes => "*I"
  | roundedTimes => "*R"
  | reciprocal => "/H"

/-- The operator that one character stands for. -/
def ofSign? : Char → Option Operator
  | '+' => some plus
  | '-' => some minus
  | '*' => some star
  | '/' => some slash
  | '\\' => some backslash
  | '!' => some bang
  | '&' => some ampersand
  | '#' => some hash
  | '<' => some less
  | '>' => some greater
  | '=' => some equals
  | _ => none

/-- Operators made of a sign and a letter, which stand directly before a register. -/
def variants : Operator → List (Char × Operator)
  | star => [('F', floatTimes), ('H', halfTimes), ('I', iterationTimes), ('R', roundedTimes)]
  | plus => [('F', floatPlus)]
  | minus => [('F', floatMinus)]
  | slash => [('H', reciprocal)]
  | _ => []

end Operator

end CrayAssembler
