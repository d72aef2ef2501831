import CrayAssembler.Identifier

namespace CrayAssembler

namespace Micro

/-- A statement after substitution. -/
structure Substituted where
  text : String
  /-- Some name was not that of a micro. -/
  unknown : Bool
  /-- The text was edited. -/
  changed : Bool
deriving DecidableEq, Repr

/-- The name of a reference whose opening quote has been read. -/
def reference? (chars : List Char) : Option (List Char) :=
  let name := chars.takeWhile (· ≠ '"')
  if name.length < chars.length && Identifier.valid name then some name else none

/-- Edited characters, of which the first `skip` belong to a reference already replaced. Unknown
micros become empty text. An underscore outside apostrophes joins a reference to what stands around
it and is deleted. -/
def editFrom (lookup : String → Option String) (quoted : Bool) (skip : Nat) :
    List Char → List Char × Bool × Bool
  | [] => ([], false, false)
  | c :: rest =>
    match skip with
    | more + 1 => editFrom lookup quoted more rest
    | 0 =>
      match if c = '"' then reference? rest else none with
      | some name =>
        let (text, unknown, _) := editFrom lookup quoted (name.length + 1) rest
        match lookup (String.ofList name) with
        | some value => (value.toList ++ text, unknown, true)
        | none => (text, true, true)
      | none =>
        if c = '_' && !quoted then
          let (text, unknown, _) := editFrom lookup quoted 0 rest
          (text, unknown, true)
        else
          let (text, unknown, changed) :=
            editFrom lookup (if c = '\'' then !quoted else quoted) 0 rest
          (c :: text, unknown, changed)

def substitute (line : List Char) (lookup : String → Option String) : Substituted :=
  let (text, unknown, changed) := editFrom lookup false 0 line
  ⟨String.ofList text, unknown, changed⟩

/-- Micros that are always defined and do not depend on the date. -/
def builtin (name qualifier : String) : Option String :=
  match name with
  | "$CNC" => some "_"
  | "$CPU" => some "CRAY XMP"
  | "$MIC" => some "\""
  | "$QUAL" => some qualifier
  | _ => none

end Micro

end CrayAssembler
