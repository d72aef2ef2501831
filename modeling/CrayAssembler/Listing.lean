import CrayAssembler.Diagnostic
import CrayAssembler.Source.Line
import CrayAssembler.Text.Digits
import CrayAssembler.Text.Quoted
import CrayAssembler.Value

namespace CrayAssembler

namespace Listing

/-- A statement as it is listed. -/
structure Line where
  number : LineNumber
  indicators : String
  address : Option String
  value : Option String
  /-- Generated code or data in octal; the first piece stands beside the statement. -/
  generated : List String
  text : String
  /-- The line comes from a macro call or a duplicated group. -/
  expansion : Bool
deriving DecidableEq, Repr

inductive Item where
  | line (line : Line)
  | title (text : String)
  | subtitle (text : String)
  | space (lines : Nat)
  | eject
  /-- Names and values of the symbols of a module. -/
  | symbols (moduleName : String) (entries : List (String × String))
deriving DecidableEq, Repr

/-- An address: word addresses in octal, parcel addresses with a letter for the parcel. -/
def addressText (value : Word) (kind : AddressKind) : String :=
  match kind with
  | .parcel =>
    let letter := ['a', 'b', 'c', 'd'].getD (value.toNat % 4) 'a'
    Text.octal 1 (value.toNat / 4) ++ letter.toString
  | _ => Text.octal 1 value.toNat

def formFeed : String := "\x0c"

/-- The columns of a line up to the text of the statement. -/
def columns (indicators number marker address first : String) : String :=
  Text.padRight ' ' 4 indicators ++ Text.padLeft ' ' 6 number ++ marker ++ " " ++
    Text.padLeft ' ' 8 address ++ "  " ++ Text.padRight ' ' 22 first

def Line.render (line : Line) : String :=
  let (first, more) :=
    match line.value, line.generated with
    | some value, generated => (value, generated)
    | none, first :: more => (first, more)
    | none, [] => ("", [])
  let marker := if line.expansion then "+" else " "
  let shown := String.ofList (Text.trimEnd line.text.toList)
  let head := columns line.indicators (Text.decimal line.number) marker (line.address.getD "") first
  head ++ "  " ++ shown ++ "\n" ++
    String.join (more.map fun piece => columns "" "" " " "" piece ++ "\n")

def Item.render : Item → String
  | .line listed => listed.render
  | .title text => formFeed ++ text ++ "\n"
  | .subtitle text => text ++ "\n\n"
  | .space lines => String.ofList (List.replicate lines '\n')
  | .eject => formFeed ++ "\n"
  | .symbols moduleName entries =>
    "\nSymbols of module " ++ Text.quoted moduleName ++ ":\n" ++
      String.join (entries.map fun (name, value) =>
        "  " ++ Text.padRight ' ' 24 name ++ " " ++ value ++ "\n")

/-- The counts of errors and warnings, and what each kind means. -/
def summary (tally : Tally) : String :=
  let faults := tally.seen.toList.filter fun d => d.isError || d.isWarning
  "\n" ++ Text.decimal tally.errors ++ " error(s), " ++ Text.decimal tally.warnings ++
    " warning(s)\n" ++ String.join (faults.map fun d => "  " ++ d.text ++ "\n")

def render (items : List Item) : String :=
  String.join (items.map Item.render)

end Listing

end CrayAssembler
