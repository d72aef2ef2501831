import CrayAssembler.Diagnostic
import CrayAssembler.Source.Fields

namespace CrayAssembler

/-- The two passes over the source. -/
inductive Pass where
  | one
  | two
deriving DecidableEq, Repr, Inhabited

structure Prototype where
  name : String
  location : Option String
  positional : List String
  /-- Keyword parameters and their default texts. -/
  keyword : List (String × String)
deriving DecidableEq, Repr

namespace Prototype

/-- Add one parameter as written; a positional one may not follow a keyword one. -/
def addParameter (prototype : Prototype) (item : List Char) : Except ErrorKind Prototype :=
  match Text.cut '=' item with
  | some (name, default) =>
    if Identifier.valid name then
      let entry := (String.ofList name, String.ofList (Fields.withoutParens default))
      .ok { prototype with keyword := prototype.keyword ++ [entry] }
    else .error .operandField
  | none =>
    if Identifier.valid item && prototype.keyword.isEmpty then
      .ok { prototype with positional := prototype.positional ++ [String.ofList item] }
    else .error .operandField

/-- Read a prototype statement. -/
def ofStatement (line : List Char) : Except ErrorKind Prototype := do
  let fields := Fields.ofStatement line
  if !Fields.isIdentifier fields.result then throw .resultField
  if !fields.location.isEmpty && !Fields.isIdentifier fields.location then throw .locationField
  let location := if fields.location.isEmpty then none else some fields.location
  let prototype : Prototype := ⟨fields.result, location, [], []⟩
  (Fields.splitSubfields fields.operand.toList).foldlM addParameter prototype

def parameters (prototype : Prototype) : List String :=
  prototype.location.toList ++ prototype.positional ++ prototype.keyword.map (·.1)

end Prototype

/-- A piece of a line of a macro's body. -/
inductive Fragment where
  | text (text : String)
  | parameter (name : String)
deriving DecidableEq, Repr

namespace Fragment

/-- Maximal runs of identifier characters, and the other characters one by one. -/
def runs : List Char → List (List Char)
  | [] => []
  | c :: rest =>
    match runs rest with
    | [] => [[c]]
    | run :: more =>
      if Identifier.bodyChar c && run.head?.any Identifier.bodyChar then (c :: run) :: more
      else [c] :: run :: more

/-- Put a fragment before others; neighbouring texts become one. -/
def cons : Fragment → List Fragment → List Fragment
  | .text before, .text after :: rest => .text (before ++ after) :: rest
  | fragment, rest => fragment :: rest

/-- Divide a line of a body into texts and references to parameters. -/
def ofLine (line : List Char) (parameters : List String) : List Fragment :=
  (runs line).foldr (fun run rest =>
    let shown := String.ofList run
    cons (if parameters.contains shown then .parameter shown else .text shown) rest) []

def render (bindings : List (String × String)) : Fragment → String
  | .text shown => shown
  | .parameter name => (bindings.lookup name).getD ""

end Fragment

structure MacroDefinition where
  prototype : Prototype
  /-- The pass in which the definition was read. -/
  pass : Pass
  body : List (List Fragment)
deriving DecidableEq, Repr

namespace MacroDefinition

def make (prototype : Prototype) (body : List String) (pass : Pass) : MacroDefinition :=
  { prototype
    pass
    body := body.map fun line => Fragment.ofLine line.toList prototype.parameters }

/-- Bind the arguments of a call in order. Newer bindings stand before older ones; `positional`
are the parameters still without an argument. -/
def bindArguments (keywords : List String) (positional : List String)
    (bindings : List (String × String)) :
    List (List Char) → Except ErrorKind (List (String × String))
  | [] => .ok bindings
  | argument :: rest =>
    let keyword? := (Text.cut '=' argument).filter fun (name, _) =>
      keywords.contains (String.ofList name)
    match keyword?, positional with
    | some (name, value), _ =>
      let binding := (String.ofList name, String.ofList (Fields.withoutParens value))
      bindArguments keywords positional (binding :: bindings) rest
    | none, parameter :: more =>
      let binding := (parameter, String.ofList (Fields.withoutParens argument))
      bindArguments keywords more (binding :: bindings) rest
    | none, [] => .error .operandField

/-- Bindings of a call before its arguments are read. -/
def initialBindings (prototype : Prototype) (location : String) : List (String × String) :=
  (prototype.location.toList.map fun name => (name, location)) ++ prototype.keyword.reverse

/-- Lines of the expansion of a call. -/
def expand (definition : MacroDefinition) (location operand : String) :
    Except ErrorKind (List String) := do
  let prototype := definition.prototype
  let bindings ← bindArguments (prototype.keyword.map (·.1)) prototype.positional
    (initialBindings prototype location) (Fields.splitSubfields operand.toList)
  return definition.body.map fun line => String.join (line.map (Fragment.render bindings))

end MacroDefinition

end CrayAssembler
