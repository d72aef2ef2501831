namespace CrayAssembler

namespace Text

def padLeft (fill : Char) (width : Nat) (text : String) : String :=
  String.ofList (List.replicate (width - text.length) fill) ++ text

def padRight (fill : Char) (width : Nat) (text : String) : String :=
  text ++ String.ofList (List.replicate (width - text.length) fill)

/-- Digits of `n` in `radix`, most significant first, without leading zeros. -/
def digits (radix : Nat) (n : Nat) : String :=
  String.ofList (Nat.toDigits radix n)

/-- Octal digits of `n`, with leading zeros up to `width`. -/
def octal (width : Nat) (n : Nat) : String :=
  padLeft '0' width (digits 8 n)

/-- Hexadecimal digits of `n` in lower case, with leading zeros up to `width`. -/
def hex (width : Nat) (n : Nat) : String :=
  padLeft '0' width (digits 16 n)

def decimal (n : Nat) : String :=
  digits 10 n

/-- Value of a digit in a radix of at most 36; letters of either case count from ten. -/
def digitValue? (radix : Nat) (c : Char) : Option Nat :=
  let value :=
    if '0' ≤ c ∧ c ≤ '9' then some (c.toNat - '0'.toNat)
    else if 'a' ≤ c ∧ c ≤ 'z' then some (c.toNat - 'a'.toNat + 10)
    else if 'A' ≤ c ∧ c ≤ 'Z' then some (c.toNat - 'A'.toNat + 10)
    else none
  value.filter (· < radix)

end Text

end CrayAssembler
