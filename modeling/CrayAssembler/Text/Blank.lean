namespace CrayAssembler

namespace Text

/-- Characters with the Unicode property `White_Space`. -/
def isBlank (c : Char) : Bool :=
  let n := c.toNat
  (9 ≤ n && n ≤ 13) || n = 0x20 || n = 0x85 || n = 0xA0 || n = 0x1680 ||
    (0x2000 ≤ n && n ≤ 0x200A) || n = 0x2028 || n = 0x2029 || n = 0x202F || n = 0x205F ||
    n = 0x3000

def dropEndWhile (p : Char → Bool) (chars : List Char) : List Char :=
  (chars.reverse.dropWhile p).reverse

def trimStart (chars : List Char) : List Char :=
  chars.dropWhile isBlank

def trimEnd (chars : List Char) : List Char :=
  dropEndWhile isBlank chars

def trim (chars : List Char) : List Char :=
  trimEnd (trimStart chars)

/-- Pieces between separators, empty ones included; there is always at least one. -/
def split (separator : Char → Bool) : List Char → List (List Char)
  | [] => [[]]
  | c :: rest =>
    if separator c then [] :: split separator rest
    else
      match split separator rest with
      | [] => [[c]]
      | piece :: more => (c :: piece) :: more

/-- What stands before and after the first separator, if there is one. -/
def cut (separator : Char) (chars : List Char) : Option (List Char × List Char) :=
  match chars.span (· ≠ separator) with
  | (_, []) => none
  | (before, _ :: after) => some (before, after)

/-- Number of bytes of the UTF-8 form. -/
def byteSize (chars : List Char) : Nat :=
  chars.foldr (fun c size => c.utf8Size + size) 0

def bytes (chars : List Char) : List UInt8 :=
  chars.flatMap String.utf8EncodeChar

/-- The text whose UTF-8 form is given. -/
def ofBytes? (bytes : List UInt8) : Option String :=
  String.fromUTF8? ⟨bytes.toArray⟩

/-- Drop characters up to a byte offset. -/
def dropBytes (count : Nat) : List Char → List Char
  | [] => []
  | c :: cs => if count = 0 then c :: cs else dropBytes (count - c.utf8Size) cs

/-- Characters before a byte offset. -/
def takeBytes (count : Nat) : List Char → List Char
  | [] => []
  | c :: cs => if count = 0 then [] else c :: takeBytes (count - c.utf8Size) cs

/-- Characters from byte offset `start` up to byte offset `stop`. -/
def slice (chars : List Char) (start stop : Nat) : List Char :=
  takeBytes (stop - start) (dropBytes start chars)

def upper (text : String) : String :=
  String.ofList (text.toList.map Char.toUpper)

def lower (text : String) : String :=
  String.ofList (text.toList.map Char.toLower)

/-- Equal up to the case of ASCII letters. -/
def sameLetters (left right : String) : Bool :=
  upper left == upper right

end Text

end CrayAssembler
