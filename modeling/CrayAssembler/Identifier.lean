namespace CrayAssembler

namespace Identifier

def isMark (c : Char) : Bool :=
  c = '$' || c = '@' || c = '%'

def startChar (c : Char) : Bool :=
  c.isAlpha || isMark c

def bodyChar (c : Char) : Bool :=
  c.isAlphanum || isMark c

/-- Whether the whole text is one identifier. -/
def valid : List Char → Bool
  | [] => false
  | c :: cs => startChar c && cs.all bodyChar

end Identifier

end CrayAssembler
