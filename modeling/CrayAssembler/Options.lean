import CrayAssembler.Assembly.Context
import CrayAssembler.Files.Path

namespace CrayAssembler

/-- Where the listing or the object file goes. -/
inductive Destination where
  | suppressed
  | standardOutput
  | file (path : String)
deriving DecidableEq, Repr, Inhabited

def Destination.ofArgument : String → Destination
  | "-" | "$OUT" => standardOutput
  | "0" => suppressed
  | path => file path

structure Options where
  listing : Destination := .suppressed
  object : Destination := .suppressed
  /-- Directories that are searched for external text. -/
  searchPath : List String := []
  /-- Text that is assembled before the source files. -/
  externalText : Option String := none
  settings : Settings := {}
  warningsFatal : Bool := false
  /-- The name of what is outside all modules. -/
  moduleId : Option String := none
deriving DecidableEq, Repr, Inhabited

namespace Options

/-- Directories of a search path, separated by colons or semicolons. -/
def splitSearchPath (path : String) : List String :=
  ((Text.split (fun c => c = ':' || c = ';') path.toList).filter (!·.isEmpty)).map String.ofList

/-- Names of modules in object files are at most this long. -/
def moduleIdLimit : Nat := 8

/-- A hash of bytes: each is mixed in and the result multiplied by a prime. -/
def hash (bytes : List UInt8) : UInt32 :=
  bytes.foldl (fun hash byte => (hash ^^^ byte.toUInt32) * 0x01000193) 0x811c9dc5

/-- A name for a module. One that is too long keeps its first half, and digits of a hash stand for
the whole of it. -/
def moduleIdentifier (name : String) : String :=
  let upper := Text.upper name
  if upper.length ≤ moduleIdLimit then upper
  else
    let digits := Text.hex 4 ((hash (Text.bytes upper.toList)).toNat % UInt16.size)
    String.ofList (upper.toList.take (moduleIdLimit / 2)) ++ Text.upper digits

/-- A name for the module of a source file. -/
def moduleIdentifierFor (path : String) : String :=
  moduleIdentifier (Path.stem path)

end Options

end CrayAssembler
