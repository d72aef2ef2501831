namespace CrayAssembler

inductive ListFlag where
  /-- Listing is on at all. -/
  | on
  /-- Lines edited by substitution are listed as edited. -/
  | edited
  /-- The symbol table is listed at the end of each module. -/
  | symbols
  /-- Lines of duplicated groups are listed. -/
  | duplicated
  /-- Lines of macro expansions are listed. -/
  | expanded
  /-- Lines of macro expansions that generate code or data are listed. -/
  | generating
  /-- Edited text is listed beside the text as written. -/
  | substituted
  /-- Warnings about macro definitions are given. -/
  | definitionWarnings
  /-- A macro that is defined again is warned of, if such warnings are given. -/
  | redefinitionWarning
deriving DecidableEq, Repr

namespace ListFlag

/-- All flags in order. -/
def all : List ListFlag :=
  [on, edited, symbols, duplicated, expanded, generating, substituted, definitionWarnings,
    redefinitionWarning]

def keyword : ListFlag → String
  | on => "ON"
  | edited => "ED"
  | symbols => "XRF"
  | duplicated => "DUP"
  | expanded => "MAC"
  | generating => "MBO"
  | substituted => "MIC"
  | definitionWarnings => "WEM"
  | redefinitionWarning => "WMR"

def ofName? (name : String) : Option ListFlag :=
  all.find? fun flag => flag.keyword = name

/-- The flag that a keyword names, and whether it is set or cleared. `NO` before a name clears the
flag, and so does `OFF`. -/
def ofKeyword? (word : String) : Option (ListFlag × Bool) :=
  if word = "OFF" then some (on, false)
  else
    match word.toList with
    | 'N' :: 'O' :: c :: rest => (ofName? (String.ofList (c :: rest))).map (·, false)
    | _ => (ofName? word).map (·, true)

end ListFlag

/-- A set of flags, its members in the order of `ListFlag.all`. -/
structure ListFlags where
  toList : List ListFlag
deriving DecidableEq, Repr

namespace ListFlags

def contains (flags : ListFlags) (flag : ListFlag) : Bool :=
  flags.toList.contains flag

/-- Set or clear a flag. -/
def put (flags : ListFlags) (flag : ListFlag) (set : Bool) : ListFlags :=
  ⟨ListFlag.all.filter fun x => if x = flag then set else flags.contains x⟩

/-- The flags at the start of an assembly. -/
def initial : ListFlags := ⟨[.on, .edited, .symbols, .duplicated]⟩

instance : Inhabited ListFlags := ⟨initial⟩

/-- Whether listing is on and a flag is set. -/
def lists (flags : ListFlags) (flag : ListFlag) : Bool :=
  flags.contains .on && flags.contains flag

end ListFlags

end CrayAssembler
