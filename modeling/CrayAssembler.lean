import CrayAssembler.Assembly.Basic
import CrayAssembler.Assembly.Context
import CrayAssembler.Assembly.Directive
import CrayAssembler.Assembly.Directive.Capture
import CrayAssembler.Assembly.Directive.Condition
import CrayAssembler.Assembly.Directive.Counter
import CrayAssembler.Assembly.Directive.Data
import CrayAssembler.Assembly.Directive.Listing
import CrayAssembler.Assembly.Directive.Module
import CrayAssembler.Assembly.Directive.Section
import CrayAssembler.Assembly.Directive.Symbol
import CrayAssembler.Assembly.Emit
import CrayAssembler.Assembly.Frame
import CrayAssembler.Assembly.Instruction
import CrayAssembler.Assembly.Operand
import CrayAssembler.Assembly.Setting
import CrayAssembler.Assembly.Statement
import CrayAssembler.BoundedStack
import CrayAssembler.CharConstant
import CrayAssembler.CommandLine
import CrayAssembler.Diagnostic
import CrayAssembler.Double.Basic
import CrayAssembler.Double.Shortest
import CrayAssembler.Expr.Basic
import CrayAssembler.Expr.Eval
import CrayAssembler.Expr.Parser
import CrayAssembler.Files.Basic
import CrayAssembler.Files.Path
import CrayAssembler.Identifier
import CrayAssembler.InstructionSet
import CrayAssembler.ListFlags
import CrayAssembler.Listing
import CrayAssembler.Machine.Characters
import CrayAssembler.Machine.FloatWord
import CrayAssembler.Machine.Instruction
import CrayAssembler.Machine.Word
import CrayAssembler.Main
import CrayAssembler.Module.Basic
import CrayAssembler.Module.Finish
import CrayAssembler.Module.LiteralPool
import CrayAssembler.Numeral
import CrayAssembler.Object.Basic
import CrayAssembler.Object.Dataset
import CrayAssembler.Object.Dump
import CrayAssembler.Object.Reader
import CrayAssembler.Object.Record
import CrayAssembler.Options
import CrayAssembler.Pattern.Basic
import CrayAssembler.Pattern.Matcher
import CrayAssembler.Pattern.Trie
import CrayAssembler.Program
import CrayAssembler.Proofs.Akin.Basic
import CrayAssembler.Proofs.Akin.Frames
import CrayAssembler.Proofs.Akin.Insertion
import CrayAssembler.Proofs.Akin.Statements
import CrayAssembler.Proofs.Assembly.Agreement
import CrayAssembler.Proofs.Assembly.BothPasses
import CrayAssembler.Proofs.Assembly.Branches
import CrayAssembler.Proofs.Assembly.Calls
import CrayAssembler.Proofs.Assembly.Chain
import CrayAssembler.Proofs.Assembly.Comparisons
import CrayAssembler.Proofs.Assembly.Conditions
import CrayAssembler.Proofs.Assembly.Constants
import CrayAssembler.Proofs.Assembly.Consulting
import CrayAssembler.Proofs.Assembly.Deed
import CrayAssembler.Proofs.Assembly.Directives
import CrayAssembler.Proofs.Assembly.Emission
import CrayAssembler.Proofs.Assembly.Expansion
import CrayAssembler.Proofs.Assembly.Externals
import CrayAssembler.Proofs.Assembly.Finishing
import CrayAssembler.Proofs.Assembly.Flushing
import CrayAssembler.Proofs.Assembly.Glance
import CrayAssembler.Proofs.Assembly.Layout
import CrayAssembler.Proofs.Assembly.Literals
import CrayAssembler.Proofs.Assembly.Loads
import CrayAssembler.Proofs.Assembly.Micros
import CrayAssembler.Proofs.Assembly.Nesting
import CrayAssembler.Proofs.Assembly.Occurring
import CrayAssembler.Proofs.Assembly.Opening
import CrayAssembler.Proofs.Assembly.Operands
import CrayAssembler.Proofs.Assembly.Outline
import CrayAssembler.Proofs.Assembly.Paired
import CrayAssembler.Proofs.Assembly.Passes
import CrayAssembler.Proofs.Assembly.Placing
import CrayAssembler.Proofs.Assembly.Recurring
import CrayAssembler.Proofs.Assembly.Reentry
import CrayAssembler.Proofs.Assembly.References
import CrayAssembler.Proofs.Assembly.Relocations
import CrayAssembler.Proofs.Assembly.Reports
import CrayAssembler.Proofs.Assembly.Rigid
import CrayAssembler.Proofs.Assembly.Roaming
import CrayAssembler.Proofs.Assembly.Session
import CrayAssembler.Proofs.Assembly.Sizes
import CrayAssembler.Proofs.Assembly.Statements
import CrayAssembler.Proofs.Assembly.Step
import CrayAssembler.Proofs.Assembly.Storing
import CrayAssembler.Proofs.Assembly.SymbolListing
import CrayAssembler.Proofs.Assembly.Traits
import CrayAssembler.Proofs.Assembly.Twin
import CrayAssembler.Proofs.Expr.Displacement
import CrayAssembler.Proofs.Expr.Grammar
import CrayAssembler.Proofs.Expr.Immobile
import CrayAssembler.Proofs.Expr.Keys
import CrayAssembler.Proofs.Expr.Longest
import CrayAssembler.Proofs.Expr.Numbers
import CrayAssembler.Proofs.Expr.Tree
import CrayAssembler.Proofs.Expr.WellFormed
import CrayAssembler.Proofs.Likeness.Basic
import CrayAssembler.Proofs.Likeness.Statements
import CrayAssembler.Proofs.Machine.Bits
import CrayAssembler.Proofs.Machine.Justification
import CrayAssembler.Proofs.Machine.Packing
import CrayAssembler.Proofs.Machine.Rounding
import CrayAssembler.Proofs.Module.Interning
import CrayAssembler.Proofs.Module.Literals
import CrayAssembler.Proofs.Module.Sound
import CrayAssembler.Proofs.Object.Division
import CrayAssembler.Proofs.Object.Reading
import CrayAssembler.Proofs.Object.RoundTrip
import CrayAssembler.Proofs.Object.Truncation
import CrayAssembler.Proofs.Pattern.Arguments
import CrayAssembler.Proofs.Pattern.Instructions
import CrayAssembler.Proofs.Pattern.Soundness
import CrayAssembler.Proofs.Pattern.Trie
import CrayAssembler.Proofs.Pattern.Walk
import CrayAssembler.Proofs.Section.Counters
import CrayAssembler.Proofs.Section.Image
import CrayAssembler.Proofs.Source.Comments
import CrayAssembler.Proofs.Source.Joining
import CrayAssembler.Proofs.Source.Quoting
import CrayAssembler.Proofs.Source.Subfields
import CrayAssembler.Proofs.Source.Substitution
import CrayAssembler.Proofs.Symbol.Externals
import CrayAssembler.Proofs.Symbol.Operations
import CrayAssembler.Proofs.Symbol.Persistence
import CrayAssembler.Proofs.Symbol.Table
import CrayAssembler.Proofs.Text.Digits
import CrayAssembler.Proofs.Text.Scaling
import CrayAssembler.Proofs.Token.Coverage
import CrayAssembler.Proofs.Token.Places
import CrayAssembler.Proofs.Token.Registers
import CrayAssembler.Proofs.Token.Scanning
import CrayAssembler.Proofs.Token.Shape
import CrayAssembler.Proofs.Token.Shifting
import CrayAssembler.Proofs.Token.Spelling
import CrayAssembler.Proofs.Token.Steps
import CrayAssembler.Proofs.Value.Combination
import CrayAssembler.Proofs.Value.Displacement
import CrayAssembler.Proofs.Value.Immobile
import CrayAssembler.Proofs.Value.Refers
import CrayAssembler.Proofs.Value.Rigid
import CrayAssembler.Proofs.Value.WellFormed
import CrayAssembler.Proofs.Walk.Directives
import CrayAssembler.Proofs.Walk.Keeping
import CrayAssembler.Proofs.Walk.Operands
import CrayAssembler.Proofs.Walk.Placing
import CrayAssembler.Proofs.Walk.Regard
import CrayAssembler.Proofs.Walk.Roaming
import CrayAssembler.Proofs.Walk.Statements
import CrayAssembler.Register
import CrayAssembler.Section.Basic
import CrayAssembler.Section.Block
import CrayAssembler.Source.Clock
import CrayAssembler.Source.Definition
import CrayAssembler.Source.Fields
import CrayAssembler.Source.Format
import CrayAssembler.Source.Line
import CrayAssembler.Source.Micro
import CrayAssembler.Symbol.Table
import CrayAssembler.Text.Blank
import CrayAssembler.Text.Digits
import CrayAssembler.Text.Quoted
import CrayAssembler.Text.Shapeless
import CrayAssembler.Token.Basic
import CrayAssembler.Token.Lexeme
import CrayAssembler.Token.Lexer
import CrayAssembler.Token.Operator
import CrayAssembler.Value
import CrayAssembler.Value.Arithmetic
