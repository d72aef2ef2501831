import CrayAssembler.Files.Path

namespace CrayAssembler

inductive FileError where
  | notFound
  | notDirectory
  | isDirectory
  /-- The contents are not text. -/
  | invalidText
  | other (message : String)
deriving DecidableEq, Repr

def FileError.message : FileError → String
  | notFound => "No such file or directory (os error 2)"
  | notDirectory => "Not a directory (os error 20)"
  | isDirectory => "Is a directory (os error 21)"
  | invalidText => "stream did not contain valid UTF-8"
  | other message => message

abbrev Bytes := List UInt8

/-- What a program can do with files and its output. -/
structure FileSystem (m : Type → Type) where
  isFile : String → m Bool
  read : String → m (Except FileError Bytes)
  write : String → Bytes → m (Except FileError Unit)
  /-- Write to standard output. -/
  print : Bytes → m Unit

/-- Files by the names on the way to them. A directory is there when a file is in it. -/
structure FileTree where
  files : List (List String × Bytes)
deriving DecidableEq, Repr, Inhabited

namespace FileTree

/-- What is found at a path. -/
inductive Place where
  | directory
  | file (names : List String)
  /-- Nothing, in a directory that exists. -/
  | absent (names : List String)
  /-- Nothing, where only a directory could be. -/
  | absentDirectory
deriving DecidableEq, Repr

def get? (tree : FileTree) (names : List String) : Option Bytes :=
  tree.files.lookup names

def isDirectory (tree : FileTree) (names : List String) : Bool :=
  tree.files.any fun (file, _) => names.isPrefixOf file && names.length < file.length

/-- Follow the pieces of a path from a directory on. Outside the tree (`none`) nothing is found. -/
def locateFrom (tree : FileTree) (directory : Option (List String)) :
    List String → Except FileError Place
  | [] => .ok .directory
  | piece :: rest =>
    if piece = "" || piece = "." then tree.locateFrom directory rest
    else if piece = ".." then
      let outer := directory.bind fun names => if names.isEmpty then none else some names.dropLast
      tree.locateFrom outer rest
    else
      match directory with
      | none => .error .notFound
      | some names =>
        let here := names ++ [piece]
        if (tree.get? here).isSome then
          if rest.isEmpty then .ok (.file here) else .error .notDirectory
        else if tree.isDirectory here then tree.locateFrom (some here) rest
        else if rest.isEmpty then .ok (.absent here)
        else if rest.all (· = "") then .ok .absentDirectory
        else .error .notFound

/-- What is at a path, which is relative to the root of the tree unless it is absolute. -/
def locate (tree : FileTree) (path : String) : Except FileError Place :=
  if path.isEmpty then .error .notFound
  else
    let start := if Path.isAbsolute path then none else some []
    tree.locateFrom start (Path.pieces path)

def isFile (tree : FileTree) (path : String) : Bool :=
  match tree.locate path with
  | .ok (.file _) => true
  | _ => false

def read (tree : FileTree) (path : String) : Except FileError Bytes := do
  match ← tree.locate path with
  | .file names => return (tree.get? names).getD []
  | .directory => throw .isDirectory
  | .absent _ | .absentDirectory => throw .notFound

def put (tree : FileTree) (names : List String) (contents : Bytes) : FileTree :=
  ⟨(names, contents) :: tree.files.filter (·.1 ≠ names)⟩

def write (tree : FileTree) (path : String) (contents : Bytes) : Except FileError FileTree := do
  match ← tree.locate path with
  | .file names | .absent names => return tree.put names contents
  | .directory | .absentDirectory => throw .isDirectory

/-- A tree of files and what was written to standard output. -/
structure Workspace where
  tree : FileTree
  output : Bytes
deriving DecidableEq, Repr, Inhabited

/-- Files kept in a tree. -/
def fileSystem : FileSystem (StateM Workspace) where
  isFile path := return (← get).tree.isFile path
  read path := return (← get).tree.read path
  write path contents := do
    match (← get).tree.write path contents with
    | .ok tree =>
      modify fun workspace => { workspace with tree }
      return .ok ()
    | .error reason => return .error reason
  print bytes := modify fun workspace => { workspace with output := workspace.output ++ bytes }

end FileTree

end CrayAssembler
