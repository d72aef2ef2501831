import CrayAssembler.Diagnostic
import CrayAssembler.Source.Definition
import CrayAssembler.Token.Basic
import CrayAssembler.Value
import Std.Data.TreeMap

namespace CrayAssembler

structure SymbolKey where
  qualifier : String
  name : String
deriving DecidableEq, Repr, Inhabited

namespace SymbolKey

/-- Order by qualifier, then by name. -/
def order (left right : SymbolKey) : Ordering :=
  compareLex (compareOn SymbolKey.qualifier) (compareOn SymbolKey.name) left right

instance : Ord SymbolKey := ⟨order⟩

/-- The name with its qualifier, as an expression can refer to it. -/
def qualifiedName (key : SymbolKey) : String :=
  if key.qualifier.isEmpty then key.name else "/" ++ key.qualifier ++ "/" ++ key.name

end SymbolKey

/-- The values of symbols, those only mentioned included. -/
structure SymbolTable where
  values : Std.TreeMap SymbolKey Value

namespace SymbolTable

def empty : SymbolTable := ⟨∅⟩

instance : Inhabited SymbolTable := ⟨empty⟩

def get? (table : SymbolTable) (key : SymbolKey) : Option Value :=
  table.values[key]?

def insert (table : SymbolTable) (key : SymbolKey) (value : Value) : SymbolTable :=
  ⟨table.values.insert key value⟩

/-- All symbols in order. -/
def toList (table : SymbolTable) : List (SymbolKey × Value) :=
  table.values.toList

def isDefined (table : SymbolTable) (key : SymbolKey) : Bool :=
  (table.get? key).any fun value => !value.isUndefined

/-- The symbol that a name refers to under the qualifier `current`. An unqualified name refers to
the current qualifier, unless only the empty one defines it. A mere mention in the current
qualifier does not hide a definition in the empty one. -/
def resolve (table : SymbolTable) (name : Name) (current : String) : SymbolKey :=
  match name.qualifier with
  | some qualifier => ⟨qualifier, name.name⟩
  | none =>
    let here : SymbolKey := ⟨current, name.name⟩
    let outer : SymbolKey := ⟨"", name.name⟩
    if current.isEmpty || table.isDefined here then here
    else if table.isDefined outer || (table.get? here).isNone && (table.get? outer).isSome then
      outer
    else here

/-- Whether a symbol of a named qualifier has its name defined in the empty one. -/
def isShadow (table : SymbolTable) (key : SymbolKey) : Bool :=
  !key.qualifier.isEmpty && table.isDefined ⟨"", key.name⟩

/-- Enter a symbol as undefined unless it is already known. -/
def mention (table : SymbolTable) (key : SymbolKey) : SymbolTable :=
  if (table.get? key).isSome then table else table.insert key .undefined

/-- Look a symbol up for use in an expression, entering it when it is not known. -/
def reference (table : SymbolTable) (key : SymbolKey) : Value × SymbolTable :=
  match table.get? key with
  | some value => (value, table)
  | none => (.undefined, table.insert key .undefined)

/-- Whether a new definition of a symbol conflicts with what is known of it. In pass 1 a symbol may
be defined once, unless the old and the new definition are redefinable. In pass 2 a definition must
agree with that of pass 1, unless it is redefinable. -/
def conflicts (old new : Value) (redefinable : Bool) (pass : Pass) : Bool :=
  let mayRedefine := redefinable && old.attributes.redefinable
  old.isExternal ||
    match pass with
    | .one => !old.isUndefined && !mayRedefine
    | .two =>
      if old.attributes.definedInPassTwo then !mayRedefine
      else !redefinable && !old.isUndefined && !old.same new

/-- Define a symbol. An entry point stays one. -/
def define (table : SymbolTable) (key : SymbolKey) (value : Value) (redefinable : Bool)
    (pass : Pass) : Except ErrorKind SymbolTable :=
  let attributes := { value.attributes.ofValue with
    redefinable := redefinable
    definedInPassTwo := pass = .two }
  let new := { value with attributes }
  match table.get? key with
  | none => .ok (table.insert key new)
  | some old =>
    if conflicts old new redefinable pass then .error .doubleDefinition
    else .ok (table.insert key
      { new with attributes := { attributes with entry := old.attributes.entry } })

/-- Mark a symbol as an entry point. -/
def markEntry (table : SymbolTable) (key : SymbolKey) : SymbolTable :=
  let (value, table) := table.reference key
  table.insert key { value with attributes := { value.attributes with entry := true } }

/-- Make a symbol external with a place in the list of externals. A defined symbol cannot become
external; one that already is stays as it is. -/
def makeExternal (table : SymbolTable) (key : SymbolKey) (index : Nat) :
    Except ErrorKind SymbolTable :=
  let (value, table) := table.reference key
  if value.isExternal then .ok table
  else if !value.isUndefined then .error .doubleDefinition
  else
    let new := Value.ofExternal index
    let attributes := { new.attributes with entry := value.attributes.entry }
    .ok (table.insert key { new with attributes })

/-- A value moved with its section, which lies `words` words further on. -/
def displace (offset : SectionId → Nat) (value : Value) : Value :=
  if value.isUndefined || value.isExternal || value.addressKind = .value then value
  else
    match value.home with
    | none => value
    | some id =>
      let units := offset id * value.addressKind.perWord
      { value with numeric := value.numeric + UInt64.ofNat units }

/-- Move all addresses with their sections before pass 2. -/
def adjust (table : SymbolTable) (offset : SectionId → Nat) : SymbolTable :=
  ⟨table.values.map fun _ value => displace offset value⟩

/-- Whether the units that a value moves by with its section do not run over. -/
def displaceable (offset : SectionId → Nat) (value : Value) : Bool :=
  value.isUndefined || value.isExternal || value.addressKind = .value ||
    value.home.all fun id => (counted? (offset id * value.addressKind.perWord)).isSome

/-- All addresses moved with their sections, if none of them moves by units that run over. -/
def adjust? (table : SymbolTable) (offset : SectionId → Nat) : Option SymbolTable :=
  if table.toList.all fun (_, value) => displaceable offset value then some (table.adjust offset)
  else none

/-- Symbols that are still undefined. -/
def undefined (table : SymbolTable) : List SymbolKey :=
  (table.toList.filter fun (key, value) => value.isUndefined && !table.isShadow key).map (·.1)

end SymbolTable

end CrayAssembler
