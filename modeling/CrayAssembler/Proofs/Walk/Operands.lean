import CrayAssembler.Assembly.Directive
import CrayAssembler.Proofs.Expr.Keys
import CrayAssembler.Proofs.Expr.Tree
import CrayAssembler.Proofs.Walk.Regard

namespace CrayAssembler

/-- A property of values that every computation with them keeps. -/
structure Value.Closed (V : Value → Prop) : Prop where
  absolute : ∀ n, V (.absolute n)
  float : ∀ x, V (.float x)
  undefined : V .undefined
  unary : ∀ op {value result}, V value → Value.unary op value = .ok result → V result
  binary : ∀ op {left right outcome}, V left → V right →
    Value.binary op left right = .ok outcome → V outcome.value
  /-- What an expression takes of the value of a symbol. -/
  used : ∀ {value}, V value → V { value with attributes := value.attributes.ofValue }
  convert : ∀ kind numeric {value}, V value → V ({ value with numeric }.withAddressKind kind)

/-- Nothing need be known of values. -/
theorem Value.closed_true : Value.Closed fun _ => True :=
  ⟨fun _ => trivial, fun _ => trivial, trivial, fun _ _ _ _ _ => trivial,
    fun _ _ _ _ _ _ _ => trivial, fun _ => trivial, fun _ _ _ _ => trivial⟩

namespace Asm

open Eval (EvalM)

/-- An error is no result. -/
theorem noResult {α : Type} {Q : α → Prop} (kind : ErrorKind) :
    ∀ value, Except.error kind = Except.ok value → Q value :=
  fun _ same => nomatch same

theorem noValue {α : Type} {Q : α → Prop} : ∀ value, none = some value → Q value :=
  fun _ same => nomatch same

theorem run_modifyModule (change : Module → Module) (context : Context) :
    (modifyModule change).run context = pure ((), context.modifyModule change) := rfl

section Faults

/-- Faults may be noted. -/
structure Faults (regard : Regard) : Prop where
  note : ∀ d, regard.Keeps (note d)

variable {regard : Regard} (faults : Faults regard)

include faults

theorem Faults.error (kind : ErrorKind) : regard.Keeps (error kind) :=
  faults.note _

theorem Faults.warn (kind : WarningKind) : regard.Keeps (warn kind) :=
  faults.note _

/-- A part that fails with an error. -/
theorem Faults.fail {α : Type} (kind : ErrorKind) (value : α) :
    regard.Keeps (do Asm.error kind; return value) :=
  (faults.error kind).bind fun _ => .pure trivial

theorem Faults.ignoreLocation (fields : Fields) : regard.Keeps (ignoreLocation fields) := by
  unfold Asm.ignoreLocation
  split
  · exact .pure _
  · exact faults.warn _

theorem Faults.noOperand (fields : Fields) : regard.Keeps (noOperand fields) := by
  unfold Asm.noOperand
  split
  · exact .pure _
  · exact faults.error _

end Faults

section Yields

variable {α β : Type} {regard : Regard} {Q : α → Prop} {R : β → Prop}

/-- What is shown of the actions that are part of an evaluation, and of what it comes to. -/
def Yields (regard : Regard) (read : EvalM AsmM α) (Q : α → Prop) : Prop :=
  ∀ progress, regard.Gives (read.run.run progress) fun result =>
    ∀ value, result.1 = .ok value → Q value

theorem Yields.pure {value : α} (known : Q value) : Yields regard (pure value) Q := fun _ =>
  .pure fun _ same => Except.ok.inj same ▸ known

theorem Yields.throw (kind : ErrorKind) : Yields regard (throw kind) Q := fun _ =>
  .pure (noResult kind)

theorem Yields.modify (change : Eval.Progress → Eval.Progress) :
    Yields regard (modify change) fun _ => True := fun _ =>
  .pure fun _ _ => trivial

theorem Yields.bind {read : EvalM AsmM α} {next : α → EvalM AsmM β} (first : Yields regard read Q)
    (second : ∀ value, Q value → Yields regard (next value) R) : Yields regard (read >>= next) R := by
  intro progress
  rw [ExceptT.run_bind, StateT.run_bind]
  refine (first progress).bind fun ⟨result, after⟩ known => ?_
  cases result with
  | error kind => exact .pure (noResult kind)
  | ok value => exact second value (known value rfl) after

/-- Asking the surroundings. -/
theorem Yields.lift {action : AsmM α} (gives : regard.Gives action Q) :
    Yields regard (liftM action : EvalM AsmM α) Q := by
  intro progress
  have lifted : (liftM action : EvalM AsmM α).run.run progress =
      action >>= fun value => Pure.pure (.ok value, progress) := rfl
  rw [lifted]
  refine gives.bind fun value known => .pure ?_
  rintro _ ⟨⟩
  exact known

theorem Yields.collect {evaluation : EvalM AsmM Value} {V : Value → Prop}
    (yields : Yields regard evaluation V) : regard.Gives (Eval.collect evaluation) fun result =>
      ∀ found, result = .ok found → V found.value := by
  refine (yields {}).bind fun ⟨result, progress⟩ known => ?_
  cases result with
  | error kind => exact .pure (noResult kind)
  | ok value =>
    refine .pure ?_
    rintro _ ⟨⟩
    exact known value rfl

end Yields

/-- A value takes one word. -/
theorem length_literalWords {value : Value} {words : List Word} {undefined : Bool}
    (stored : literalWords value = .ok (words, undefined)) : words.length = 1 := by
  unfold literalWords at stored
  split at stored
  · cases stored
    rfl
  change (if value.isRelocatable || value.isExternal then .error .relocatableField
    else storedWord value >>= fun word => .ok ([word], false)) = _ at stored
  split at stored
  · nomatch stored
  · cases word : storedWord value with
    | error kind =>
      rw [word] at stored
      nomatch stored
    | ok word =>
      rw [word] at stored
      cases stored
      rfl

/-- What a literal is to hold can be found and, where that counts, is of the length that the text
tells. -/
def Holding (regard : Regard) (sized : Prop) (key : String) : LiteralOperand AsmM → Prop
  | .characters constant => sized → constant.pack.length = LiteralPool.wordCount key
  | .computed evaluation => (sized → LiteralPool.wordCount key = 1) ∧ regard.Keeps evaluation

/-- What has to be shown of symbols, counters and literals for it to be shown of expressions; `sized`
says that literals have to be of the lengths that their texts tell. -/
structure Consults (regard : Regard) (V : Value → Prop) (sized : Prop) : Prop extends
    Faults regard where
  values : Value.Closed V
  symbol : ∀ name, regard.Gives (symbol name) fun found => V found.value
  counter : ∀ counter, regard.Gives (Asm.counter counter) V
  placeLiteral : ∀ {key : String} {words : List Word} (undefined : Bool),
    (sized → words.length = LiteralPool.wordCount key) →
    regard.Gives (placeLiteral key words undefined) fun result =>
      ∀ value, result = .ok value → V value

/-- Whatever is seen of a context may be asked for. -/
structure Sees (regard : Regard) : Prop where
  view : ∀ {α : Type} {next : Context → AsmM α} {Q : α → Prop},
    (∀ context : Context, next context.sight = next context) →
    (∀ context, regard.Gives (next context) Q) → regard.Gives (get >>= next) Q

/-- Modules may be changed, but for their macros, if what they become has nothing to do with these. -/
structure Changes (regard : Regard) : Prop extends Faults regard, Sees regard where
  modifyModule : ∀ {change : Module → Module},
    (∀ module : Module, (change module).bare = change module.bare) →
    (∀ module : Module, (change module).macros = module.macros) →
    regard.Keeps (modifyModule change)

section Changes

variable {regard : Regard} (changes : Changes regard)

include changes

theorem Changes.symbol (name : Name) : regard.Keeps (symbol name) := by
  refine changes.view (fun context => by rw [context.currentModule_sight]; rfl) fun context => ?_
  refine Regard.Keeps.bind (changes.modifyModule (fun _ => rfl) fun _ => rfl) fun _ => ?_
  exact .pure trivial

theorem Changes.counter (counter : Counter) : regard.Keeps (Asm.counter counter) := by
  refine changes.view (fun context => ?_) fun context => ?_
  · rw [context.currentSection_sight, context.relocatable_sight]
    rfl
  · cases counter <;> exact .pure trivial

theorem Changes.placeLiteral (key : String) (words : List Word) (undefined : Bool) :
    regard.Keeps (placeLiteral key words undefined) := by
  refine changes.view (fun context => by rw [context.currentModule_sight]; rfl) fun context => ?_
  refine Regard.Keeps.bind (changes.modifyModule (fun _ => rfl) fun _ => rfl) fun _ => ?_
  split
  · exact .pure trivial
  · exact .pure trivial

theorem Changes.defineSymbol (location : String) (value : Value) (redefinable : Bool) :
    regard.Keeps (defineSymbol location value redefinable) := by
  unfold Asm.defineSymbol
  split
  · exact .pure _
  split
  · exact changes.error _
  refine changes.view (fun context => by rw [context.currentModule_sight]; rfl) fun context => ?_
  dsimp only
  split
  · exact changes.modifyModule (fun _ => rfl) fun _ => rfl
  · exact changes.error _

/-- Nothing has to be known of the values of operands. -/
theorem Changes.consults (sized : Prop) : Consults regard (fun _ => True) sized where
  toFaults := changes.toFaults
  values := Value.closed_true
  symbol := changes.symbol
  counter := changes.counter
  placeLiteral _ _ := (changes.placeLiteral _ _ _).mono fun _ _ _ _ => trivial

end Changes

section Operands

variable {regard : Regard} {V : Value → Prop} {sized : Prop} (consults : Consults regard V sized)

include consults

theorem Consults.literal {key : String} {operand : LiteralOperand AsmM}
    (holding : Holding regard sized key operand) :
    regard.Gives (literal key operand) fun result => ∀ value, result = .ok value → V value := by
  unfold Asm.literal
  cases operand with
  | characters constant => exact consults.placeLiteral _ holding
  | computed evaluation =>
    refine holding.2.bind fun found => ?_
    cases found with
    | error kind => exact .pure (noResult kind)
    | ok found =>
      dsimp only
      split
      case h_1 kind _ => exact .pure (noResult kind)
      case h_2 words undefined stored =>
        exact consults.placeLiteral _ fun counts =>
          (length_literalWords stored).trans (holding.1 counts).symm

/-- What an expression comes to has the property. -/
theorem Consults.tree {expr : Expr} (keyed : sized → expr.Keyed) :
    Yields regard (Eval.tree surroundings expr) V := by
  induction expr with
  | symbol name =>
    refine (Yields.lift (consults.symbol name)).bind fun found known => ?_
    exact (Yields.modify _).bind fun _ _ => .pure (consults.values.used known)
  | number text =>
    have radix : regard.Keeps surroundings.radix :=
      .bindGet (fun alike => by rw [alike.base, alike.inInstruction]) fun _ => .pure trivial
    refine (Yields.lift radix).bind fun radix _ => ?_
    split
    · exact .pure (consults.values.absolute _)
    · exact .pure (consults.values.float _)
    · exact .throw _
  | based value => exact .pure (consults.values.absolute _)
  | string constant =>
    unfold Eval.tree Eval.characters
    split
    · exact .pure (consults.values.absolute _)
    · exact .pure (consults.values.absolute _)
    · exact .throw _
  | location counter => exact Yields.lift (consults.counter counter)
  | unary op operand ih =>
    refine (ih keyed).bind fun value known => ?_
    unfold Eval.unary
    split
    case h_1 computed => exact .pure (consults.values.unary op known computed)
    case h_2 => exact .throw _
  | binary op left right leftIh rightIh =>
    refine (leftIh fun counts => (keyed counts).1).bind fun value known => ?_
    refine (rightIh fun counts => (keyed counts).2).bind fun other knownToo => ?_
    unfold Eval.binary
    split
    case h_1 outcome computed =>
      have result := consults.values.binary op known knownToo computed
      split
      · exact (Yields.modify _).bind fun _ _ => .pure result
      · exact .pure result
    case h_2 => exact .throw _
  | group inner ih => exact ih keyed
  | literal key operand ih =>
    have held := (ih fun counts => (keyed counts).2).collect.keeps
    refine (Yields.lift (consults.literal ?_)).bind fun result known => ?_
    · cases operand with
      | string constant => exact fun counts => (keyed counts).1.symm
      | _ => exact ⟨fun counts => (keyed counts).1, held⟩
    cases result with
    | ok value => exact .pure (known value rfl)
    | error kind => exact .throw kind

theorem Consults.evaluate {expr : Expr} (keyed : sized → expr.Keyed) :
    regard.Gives (expr.evaluate surroundings) fun result =>
      ∀ found, result = .ok found → V found.value := by
  unfold Expr.evaluate
  rw [Eval.run_steps]
  exact (consults.tree keyed).collect

theorem Consults.evaluateExpr {expr : Expr} (keyed : sized → expr.Keyed) :
    regard.Gives (evaluateExpr expr) fun result => ∀ found, result = some found → V found.value := by
  refine (consults.evaluate keyed).bind fun result known => ?_
  cases result with
  | error kind => exact (consults.error kind).bind fun _ => .pure noValue
  | ok found =>
    have same : ∀ other, some found = some other → V other.value := by
      rintro _ ⟨⟩
      exact known found rfl
    refine (Regard.Keeps.forM fun kind _ => consults.warn kind).bind fun _ => ?_
    exact .complain (consults.error _) (.pure same)

omit consults in
/-- The literals of an operand that is read are of the lengths that their texts tell. -/
theorem Faults.parseOperand (faults : Faults regard) (text : String) :
    regard.Gives (parseOperand text) fun result => ∀ expr, result = some expr → expr.Keyed := by
  refine .bindGet (fun alike => by rw [alike.settings]) fun context => ?_
  dsimp only
  split
  · exact (faults.error _).bind fun _ => .pure noValue
  · split
    case h_1 expr parsed =>
      refine .pure ?_
      rintro _ ⟨⟩
      exact Expr.keyed_parseComplete (laid_tokenize _ _) parsed
    · exact (faults.error _).bind fun _ => .pure noValue

theorem Consults.evaluateOperand (text : String) :
    regard.Gives (evaluateOperand text) fun result =>
      ∀ found, result = some found → V found.value := by
  refine (consults.parseOperand text).bind fun expr? keyed => ?_
  cases expr? with
  | none => exact .pure noValue
  | some expr => exact consults.evaluateExpr fun _ => keyed expr rfl

theorem Consults.absoluteOperand (text : String) : regard.Keeps (absoluteOperand text) := by
  refine (consults.evaluateOperand text).keeps.bind fun evaluation? => ?_
  cases evaluation? with
  | none => exact .pure trivial
  | some evaluation =>
    dsimp only
    split
    · exact .pure trivial
    · exact .pure trivial
    · exact consults.fail _ _

theorem Consults.counterOperand (operand : String) : regard.Keeps (counterOperand operand) := by
  refine (consults.evaluateOperand operand).keeps.bind fun evaluation? => ?_
  cases evaluation? with
  | none => exact .pure trivial
  | some evaluation =>
    refine .bindGet (fun alike => by rw [alike.sectionId]) fun context => ?_
    dsimp only
    split
    · exact .pure trivial
    split
    · exact consults.fail _ _
    split
    · exact consults.fail _ _
    split
    · exact .complain (consults.warn _) (.pure trivial)
    · exact .pure trivial

theorem Consults.compareValues (left right : String) : regard.Keeps (compareValues left right) := by
  refine (consults.evaluateOperand left).keeps.bind fun left? => ?_
  cases left? with
  | none => exact .pure trivial
  | some left =>
    refine (consults.evaluateOperand right).keeps.bind fun right? => ?_
    cases right? with
    | none => exact .pure trivial
    | some right =>
      dsimp only
      split
      · exact consults.fail _ _
      split
      · exact .pure trivial
      split
      · exact .pure trivial
      · exact consults.fail _ _

theorem Consults.expressionCondition (left relation right : String) :
    regard.Keeps (expressionCondition left relation right) := by
  unfold Asm.expressionCondition
  split
  · exact consults.fail _ _
  · exact (consults.compareValues left right).bind fun _ => .pure trivial

end Operands

end Asm

end CrayAssembler
