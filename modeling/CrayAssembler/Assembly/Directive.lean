import CrayAssembler.Assembly.Directive.Capture
import CrayAssembler.Assembly.Directive.Condition
import CrayAssembler.Assembly.Directive.Counter
import CrayAssembler.Assembly.Directive.Data
import CrayAssembler.Assembly.Directive.Listing
import CrayAssembler.Assembly.Directive.Module
import CrayAssembler.Assembly.Directive.Section
import CrayAssembler.Assembly.Directive.Symbol

namespace CrayAssembler

inductive Directive where
  | openModule
  | endModule
  | makeAbsolute
  | setComment
  | addStack
  | setStart
  | openSection
  | openBlock
  | openCommon
  | setQualifier
  | setBase
  | setFormat
  | setLocation
  | setOrigin
  | reserveWords
  | reserveZeros
  | align
  | reachWordBit
  | reachParcelBit
  | equate
  | setValue
  | defineMicroSize
  | declareExternals
  | declareEntries
  | defineMicro
  | defineDecimalMicro
  | defineOctalMicro
  | defineSynonym
  | data
  | constants
  | variableFields
  | ifAttribute
  | ifText
  | ifExpression
  | otherwise
  | endCondition
  | skipStatements
  | errorIf
  | raise
  | setList
  | title
  | subtitle
  | space
  | eject
  /-- Text that some assemblers keep out of the listing; it is listed as usual. -/
  | listedText
  | beginDefinition
  | strayEnd
  | beginGroup
  /-- A known directive that cannot be used. -/
  | unavailable
deriving DecidableEq, Repr

namespace Directive

def ofName? : String → Option Directive
  | "IDENT" => some openModule
  | "END" => some endModule
  | "ABS" => some makeAbsolute
  | "COMMENT" => some setComment
  | "STACK" => some addStack
  | "START" => some setStart
  | "SECTION" => some openSection
  | "BLOCK" => some openBlock
  | "COMMON" => some openCommon
  | "QUAL" => some setQualifier
  | "BASE" => some setBase
  | "FORMAT" => some setFormat
  | "LOC" => some setLocation
  | "ORG" => some setOrigin
  | "BSS" => some reserveWords
  | "BSSZ" => some reserveZeros
  | "ALIGN" => some align
  | "BITW" => some reachWordBit
  | "BITP" => some reachParcelBit
  | "EQU" | "=" => some equate
  | "SET" => some setValue
  | "MICSIZE" => some defineMicroSize
  | "EXT" => some declareExternals
  | "ENTRY" => some declareEntries
  | "MICRO" => some defineMicro
  | "DECMIC" => some defineDecimalMicro
  | "OCTMIC" => some defineOctalMicro
  | "OPSYN" => some defineSynonym
  | "DATA" => some data
  | "CON" => some constants
  | "VWD" => some variableFields
  | "IFA" => some ifAttribute
  | "IFC" => some ifText
  | "IFE" => some ifExpression
  | "ELSE" => some otherwise
  | "ENDIF" => some endCondition
  | "SKIP" => some skipStatements
  | "ERRIF" => some errorIf
  | "ERROR" => some raise
  | "LIST" => some setList
  | "TITLE" => some title
  | "SUBTITLE" => some subtitle
  | "SPACE" => some space
  | "EJECT" => some eject
  | "TEXT" | "ENDTEXT" => some listedText
  | "MACRO" => some beginDefinition
  | "ENDM" | "ENDDUP" => some strayEnd
  | "DUP" => some beginGroup
  | "LOCAL" | "MODULE" | "OPDEF" | "REP" | "ECHO" | "STOPDUP" => some unavailable
  | _ => none

def run (directive : Directive) (fields : Fields) : AsmM Unit :=
  match directive with
  | openModule => Asm.openModule fields
  | endModule => Asm.endModule fields
  | makeAbsolute => Asm.makeAbsolute fields
  | setComment => Asm.setComment fields
  | addStack => Asm.addStack fields
  | setStart => Asm.setStart fields
  | openSection => Asm.openSection fields
  | openBlock => Asm.openNamed .mixed fields
  | openCommon => Asm.openNamed .common fields
  | setQualifier => Asm.setQualifier fields
  | setBase => Asm.setBase fields
  | setFormat => Asm.setFormat fields
  | setLocation => Asm.setLocation fields
  | setOrigin => Asm.setOrigin fields
  | reserveWords => Asm.reserveWords fields
  | reserveZeros => Asm.reserveZeros fields
  | align => Asm.align fields
  | reachWordBit => Asm.reachWordBit fields
  | reachParcelBit => Asm.reachParcelBit fields
  | equate => Asm.equate false fields
  | setValue => Asm.equate true fields
  | defineMicroSize => Asm.defineMicroSize fields
  | declareExternals => Asm.declareExternals fields
  | declareEntries => Asm.declareEntries fields
  | defineMicro => Asm.defineMicro fields
  | defineDecimalMicro => Asm.defineDecimalMicro fields
  | defineOctalMicro => Asm.defineOctalMicro fields
  | defineSynonym => Asm.defineSynonym fields
  | data => Asm.data fields
  | constants => Asm.constants fields
  | variableFields => Asm.variableFields fields
  | ifAttribute => Asm.ifAttribute fields
  | ifText => Asm.ifText fields
  | ifExpression => Asm.ifExpression fields
  | otherwise => Asm.otherwise fields
  | endCondition => Asm.endCondition fields
  | skipStatements => Asm.skipStatements fields
  | errorIf => Asm.errorIf fields
  | raise => Asm.raise fields
  | setList => Asm.setList fields
  | title => Asm.title fields
  | subtitle => Asm.subtitle fields
  | space => Asm.space fields
  | eject => Asm.eject fields
  | listedText => return ()
  | beginDefinition => Asm.beginDefinition fields
  | strayEnd => Asm.strayEnd fields
  | beginGroup => Asm.beginGroup fields
  | unavailable => Asm.error .resultField

end Directive

end CrayAssembler
