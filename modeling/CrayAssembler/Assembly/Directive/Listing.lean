import CrayAssembler.Assembly.Operand

namespace CrayAssembler

namespace Asm

/-- Add to the listing, in pass 2. -/
def listItem (item : Listing.Item) : AsmM Unit :=
  modify fun context =>
    if context.pass = .two then { context with listing := context.listing.push item } else context

/-- The flags that a list of keywords leaves; none when some keyword is unknown. -/
def flagsAfter : List String → ListFlags → Option ListFlags
  | [], flags => some flags
  | word :: rest, flags =>
    match ListFlag.ofKeyword? word with
    | some (flag, set) => flagsAfter rest (flags.put flag set)
    | none => none

/-- Change the listing flags, which also turns the listing on unless a keyword turns it off. -/
def setList (fields : Fields) : AsmM Unit := do
  let setting := (← get).list
  let put (list : Setting ListFlags) (context : Context) : Context := { context with list }
  if fields.operand = "*" then change setting.restore put
  else
    match flagsAfter (Fields.subfields fields.operand) (setting.current.put .on true) with
    | some flags => change (setting.replace flags) put
    | none => error .operandField

/-- The text of a heading; an empty operand gives an empty one. -/
def heading (fields : Fields) (item : String → Listing.Item) : AsmM Unit := do
  ignoreLocation fields
  if fields.operand.isEmpty then listItem (item "")
  else
    match Fields.unquote fields.operand.toList with
    | some text => listItem (item (String.ofList text))
    | none => error .operandField

def title (fields : Fields) : AsmM Unit := heading fields .title

def subtitle (fields : Fields) : AsmM Unit := heading fields .subtitle

def listWhenOn (item : Listing.Item) : AsmM Unit := do
  if (← get).list.current.contains .on then listItem item

/-- Leave blank lines, by default one. -/
def space (fields : Fields) : AsmM Unit := do
  ignoreLocation fields
  if fields.operand.isEmpty then listWhenOn (.space 1)
  else
    match ← absoluteOperand fields.operand with
    | some lines => listWhenOn (.space lines.toNat)
    | none => return ()

/-- Go on to a new page. -/
def eject (fields : Fields) : AsmM Unit := do
  ignoreLocation fields
  noOperand fields
  listWhenOn .eject

end Asm

end CrayAssembler
