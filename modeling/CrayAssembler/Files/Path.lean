import CrayAssembler.Text.Blank

namespace CrayAssembler

namespace Path

/-- Pieces between slashes, empty ones included. -/
def pieces (path : String) : List String :=
  (Text.split (· = '/') path.toList).map String.ofList

def isAbsolute (path : String) : Bool :=
  path.toList.head? = some '/'

/-- The components that matter: the root, and names. A dot counts only at the start. -/
def components (path : String) : List String :=
  let all := pieces path
  let root := if isAbsolute path then ["/"] else []
  let start := if all.head? = some "." then ["."] else []
  root ++ start ++ all.filter fun piece => piece ≠ "" && piece ≠ "."

/-- Whether a path has a part before its last component. -/
def hasDirectory (path : String) : Bool :=
  1 < (components path).length

/-- The last component, if it is a name. -/
def fileName? (path : String) : Option String :=
  (components path).getLast?.filter fun name => name ≠ "/" && name ≠ "." && name ≠ ".."

/-- A name up to its last dot. A dot at the start does not count. -/
def stemOf (name : List Char) : List Char :=
  match name.reverse.span (· ≠ '.') with
  | (_, []) => name
  | (_, _ :: before) => if before.isEmpty then name else before.reverse

/-- The name of a file without its extension. -/
def stem (path : String) : String :=
  match fileName? path with
  | some name => String.ofList (stemOf name.toList)
  | none => ""

/-- A path written backwards, without the slashes and dots that follow its last name. -/
def dropTrailing : List Char → List Char
  | '/' :: rest => dropTrailing rest
  | '.' :: '/' :: rest => dropTrailing rest
  | chars => chars

/-- The path with the extension of its last name replaced. -/
def withExtension (path extension : String) : String :=
  match fileName? path with
  | none => path
  | some name =>
    let suffix := name.length - (stemOf name.toList).length
    let kept := (dropTrailing path.toList.reverse).drop suffix
    String.ofList kept.reverse ++ "." ++ extension

/-- A path inside a directory. -/
def join (directory path : String) : String :=
  if isAbsolute path then path
  else if directory.isEmpty || directory.toList.getLast? = some '/' then directory ++ path
  else directory ++ "/" ++ path

end Path

end CrayAssembler
