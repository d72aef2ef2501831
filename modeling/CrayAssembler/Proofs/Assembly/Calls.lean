import CrayAssembler.Proofs.Likeness.Statements

namespace CrayAssembler

namespace Prototype

theorem name_addParameter {prototype after : Prototype} {item : List Char}
    (added : prototype.addParameter item = .ok after) : after.name = prototype.name := by
  unfold addParameter at added
  split at added
  case h_1 =>
    split at added
    · cases added
      rfl
    · nomatch added
  case h_2 =>
    split at added
    · cases added
      rfl
    · nomatch added

theorem name_foldlM {prototype after : Prototype} {items : List (List Char)}
    (read : items.foldlM addParameter prototype = .ok after) : after.name = prototype.name := by
  induction items generalizing prototype with
  | nil =>
    cases read
    rfl
  | cons item items ih =>
    rw [List.foldlM_cons] at read
    cases added : prototype.addParameter item with
    | error kind =>
      rw [added] at read
      nomatch read
    | ok next =>
      rw [added] at read
      exact (ih read).trans (name_addParameter added)

/-- The name of a macro is an identifier, as it is written in the result field of the prototype. -/
theorem name_ofStatement {line : List Char} {prototype : Prototype}
    (read : ofStatement line = .ok prototype) :
    prototype.name = (Fields.ofStatement line).result ∧ Fields.isIdentifier prototype.name := by
  unfold ofStatement at read
  dsimp only at read
  split at read
  · nomatch read
  case isFalse identifier =>
    split at read
    · nomatch read
    · have name := name_foldlM read
      refine ⟨name, ?_⟩
      rw [name]
      simpa using identifier

end Prototype

namespace Context

/-- What the module with the given place has under the name of a macro. -/
def definitionAt (context : Context) (index : Nat) (name : String) : Option MacroDefinition :=
  (context.moduleAt index).macros[name]?

variable {context : Context} {name : String} {definition : MacroDefinition}

/-- The current module comes first when a macro is looked up. -/
theorem findMacro?_of_current
    (found : context.definitionAt context.moduleIndex name = some definition)
    (pass : definition.pass = context.pass) : context.findMacro? name = some definition := by
  have current : context.currentModule.macros[name]? = some definition := found
  unfold findMacro? searched
  rw [List.filterMap_cons_some (f := fun module : Module => module.macros[name]?) current]
  exact List.find?_cons_of_pos (decide_eq_true pass)

theorem definitionAt_modifyModule {change : Module → Module}
    (kept : (change context.currentModule).macros = context.currentModule.macros) (index : Nat)
    (name : String) :
    (context.modifyModule change).definitionAt index name = context.definitionAt index name := by
  unfold definitionAt
  rw [related_modifyModule (R := fun before after => after.macros = before.macros)
    (fun _ => rfl) kept]

end Context

namespace Asm

section Keeping

/-- The module with the given place has the macro. -/
def Has (index : Nat) (name : String) (definition : MacroDefinition) (context : Context) : Prop :=
  context.definitionAt index name = some definition

/-- Statements leave the macros of modules alone, but for those that they enter. -/
theorem sameness_has (index : Nat) (name : String) (definition : MacroDefinition) :
    Sameness (Solely (Has index name definition)) where
  toLikeness := by
    refine likeness_solely (reading_solely (fun kept has => ?_) fun _ has => has) (fun _ has => has)
      (fun {context} called has => ?_) (fun has => has) (fun _ has => has) fun _ has => has
    · exact (Context.definitionAt_modifyModule (kept _) index name).trans has
    · unfold Has Context.definitionAt at has ⊢
      by_cases known : index < context.modules.length
      · unfold Context.moduleAt at has ⊢
        rw [List.getD_eq_getElem?_getD] at has ⊢
        dsimp only
        rwa [List.getElem?_append_left known]
      · rw [Context.moduleAt_of_le (Nat.not_lt.mp known)] at has
        nomatch has
  veiled solely := congrArg (Context.masked id) solely.same
  others {_ there change} modules _ solely := by
    refine ⟨congrArg change solely.same, ?_⟩
    unfold Has Context.definitionAt
    rw [Context.moduleAt_of_modules (modules there)]
    exact solely.known

variable {index : Nat} {name : String} {definition : MacroDefinition} {context start later : Context}

/-- A line ends the definition of a macro with this name in the module with the given place. -/
def Defines (context : Context) (text : String) (index : Nat) (name : String) : Prop :=
  context.moduleIndex = index ∧ ∃ prototype body,
    context.capture = some (.definition prototype body) ∧ prototype.name = name ∧
      endsCapture text name "ENDM"

/-- Contexts between statements, none of which ends another definition of the macro. -/
inductive Onwards (index : Nat) (name : String) (start : Context) : Context → Prop
  | refl : Onwards index name start start
  | statement {context : Context} (number : LineNumber) (text : String) (origin : Option FrameKind)
      (truncated mayNest : Bool) (before : Onwards index name start context)
      (apart : ¬ Defines context text index name) :
      Onwards index name start
        ((assembleStatement number text origin truncated mayNest).run context).2

theorem run_defineMacro (prototype : Prototype) (body : List String) (context : Context) :
    ∃ statement, ((defineMacro prototype body).run context).2 =
      ({ context with statement } : Context).modifyModule fun module =>
        { module with
          macros := module.macros.insert prototype.name (.make prototype body context.pass) } := by
  unfold defineMacro
  rw [StateT.run_bind, StateT.run_get, pure_bind]
  dsimp only
  split
  · exact ⟨_, rfl⟩
  · exact ⟨context.statement, rfl⟩

/-- A definition replaces what the module has under its name, and nothing else. -/
theorem definitionAt_defineMacro (prototype : Prototype) (body : List String) (context : Context)
    (index : Nat) (name : String) :
    ((defineMacro prototype body).run context).2.definitionAt index name =
      if (context.moduleIndex = index ∧ index < context.modules.length) ∧ prototype.name = name then
        some (.make prototype body context.pass)
      else context.definitionAt index name := by
  obtain ⟨statement, ran⟩ := run_defineMacro prototype body context
  rw [ran]
  unfold Context.definitionAt
  rw [Context.moduleAt_modifyModule]
  by_cases current : context.moduleIndex = index ∧ index < context.modules.length
  · by_cases named : prototype.name = name
    · subst named
      rw [if_pos current, if_pos ⟨current, rfl⟩]
      exact Std.TreeMap.getElem?_insert_self
    · rw [if_pos current, if_neg fun both => named both.2]
      dsimp only
      rw [Std.TreeMap.getElem?_insert, if_neg (by simpa using named)]
      rfl
  · rw [if_neg current, if_neg fun both => current both.1]
    rfl

/-- The module has the macro until another definition of the name ends. -/
theorem Onwards.definitionAt (onwards : Onwards index name start later)
    (found : start.definitionAt index name = some definition) :
    later.definitionAt index name = some definition := by
  induction onwards with
  | refl => exact found
  | @statement context number text origin truncated mayNest _ apart ih =>
    have begun : Solely (Has index name definition) (context.begun ⟨number, text, truncated⟩)
        (context.begun ⟨number, text, truncated⟩) := ⟨rfl, ih⟩
    refine ((sameness_has index name definition).assembleStatement begun
      (fun prototype body captured ends => ⟨rfl, rfl, ?_⟩) origin mayNest).2.known
    unfold Has
    rw [definitionAt_defineMacro, if_neg]
    · exact ih
    · rintro ⟨⟨current, -⟩, rfl⟩
      exact apart ⟨current, prototype, body, captured, rfl, ends⟩

/-- The end of a definition enters the macro. -/
theorem definitionAt_assembleStatement (known : context.moduleIndex < context.modules.length)
    {prototype : Prototype} {body : List String}
    (collecting : context.capture = some (.definition prototype body)) {ending : String}
    (ends : endsCapture ending prototype.name "ENDM") (number : LineNumber)
    (origin : Option FrameKind) (truncated mayNest : Bool) :
    ((assembleStatement number ending origin truncated mayNest).run context).2.definitionAt
      context.moduleIndex prototype.name = some (.make prototype body context.pass) := by
  have sameness := sameness_has context.moduleIndex prototype.name (.make prototype body context.pass)
  let line : SourceLine := ⟨number, ending, truncated⟩
  have captured : ((assembleLine ending).run (context.begun line)).2 =
      { ((defineMacro prototype body).run (context.begun line)).2 with capture := none } := by
    have begun : (context.begun line).capture = some (.definition prototype body) := collecting
    rw [run_assembleLine_some begun]
    unfold captureLine captureInto
    dsimp only
    rw [if_pos ends]
    rfl
  have defined : ((assembleLine ending).run (context.begun line)).2.definitionAt
      context.moduleIndex prototype.name = some (.make prototype body context.pass) := by
    have entered := definitionAt_defineMacro prototype body (context.begun line)
      context.moduleIndex prototype.name
    rw [if_pos ⟨⟨rfl, known⟩, rfl⟩] at entered
    rw [captured]
    exact entered
  have finished : Together (Solely (Has context.moduleIndex prototype.name
      (.make prototype body context.pass))) (do
        if !mayNest then refuseFrame
        finishStatement ending ((assembleLine ending).run (context.begun line)).1 origin) :=
    .complain sameness.refuseFrame (sameness.finishStatement _ _ _)
  have ran : (assembleStatement number ending origin truncated mayNest).run context = (do
      if !mayNest then refuseFrame
      finishStatement ending ((assembleLine ending).run (context.begun line)).1 origin).run
        ((assembleLine ending).run (context.begun line)).2 := by
    have body := run_assembleBody line context
    rw [run_assembleStatement, body]
    cases mayNest <;> rfl
  rw [ran]
  exact (finished _ _ ⟨rfl, defined⟩).2.known

end Keeping

section Calling

variable {context later : Context}

/-- The fields of a line as they are written. -/
def writtenFields (context : Context) (text : String) : Fields :=
  Fields.ofStatement (Fields.withoutCommentary
    (Micro.substitute text.toList context.findMicro?).text.toList context.format.current)

theorem statementFields_result (context : Context) (text : String) :
    (statementFields context text).result =
      if context.settings.flexible then Text.upper (writtenFields context text).result
      else (writtenFields context text).result := by
  unfold statementFields fieldsOf
  dsimp only
  split <;> rfl

/-- A macro is called by its own name: from the end of its definition on, in its module and its pass, a
statement that is assembled and has that name in its result field is given to the macro, until another
definition of the name ends. The name must not have been made a synonym, and must be in upper case where
result fields are read so. -/
theorem called_by_own_name (known : context.moduleIndex < context.modules.length)
    {written ending : String} {prototype : Prototype} {body : List String}
    (read : Prototype.ofStatement written.toList = .ok prototype)
    (collecting : context.capture = some (.definition prototype body))
    (ends : endsCapture ending prototype.name "ENDM") {number : LineNumber}
    {origin : Option FrameKind} {truncated mayNest : Bool}
    (onwards : Onwards context.moduleIndex prototype.name
      ((assembleStatement number ending origin truncated mayNest).run context).2 later)
    (current : later.moduleIndex = context.moduleIndex) (pass : later.pass = context.pass)
    (original : later.findSynonym? prototype.name = none)
    (upper : later.settings.flexible → Text.upper prototype.name = prototype.name)
    {line : SourceLine} (outside : later.capture = none)
    (plain : Fields.isComment line.text.toList = false)
    (assembled : (passOver (statementFields later line.text) later.skip).1 = false)
    (named : (writtenFields later line.text).result = (Fields.ofStatement written.toList).result) :
    bodyOf later line =
      ((call (.make prototype body context.pass) (statementFields later line.text)).run
        (met (later.begun line) line.text)).2 := by
  obtain ⟨name, identifier⟩ := Prototype.name_ofStatement read
  have result : (statementFields later line.text).result = prototype.name := by
    rw [statementFields_result, named, ← name]
    split
    case isTrue flexible => exact upper flexible
    case isFalse => rfl
  have filled : (statementFields later line.text).result ≠ "" := by
    rw [result]
    exact fun empty => nonempty_of_isIdentifier identifier (String.isEmpty_iff.mpr empty)
  have entered := onwards.definitionAt
    (definitionAt_assembleStatement known collecting ends number origin truncated mayNest)
  have found : later.findMacro? prototype.name = some (.make prototype body context.pass) := by
    rw [← current] at entered
    exact Context.findMacro?_of_current entered pass.symm
  have meant : (later.findSynonym? (statementFields later line.text).result).getD
      (statementFields later line.text).result = prototype.name := by
    rw [result, original]
    rfl
  have dispatched := @run_dispatch_definition (met (later.begun line) line.text) _ _ filled (meant ▸ found)
  rw [bodyOf_statement outside plain, if_neg (Bool.eq_false_iff.mp assembled), dispatched]

/-- A macro whose name is written in upper case, and one more statement before it is called. -/
theorem called_by_own_name_upper :
    let collected : List SourceLine := [⟨1, "         MACRO", false⟩, ⟨2, "         GEN      X", false⟩,
      ⟨3, "         CON      X", false⟩]
    let context := ((collected.forM assembleSourceLine).run
      (.initial { flexible := true } ⟨"", "", ""⟩ "MAIN")).2
    let defined := ((assembleStatement 4 "GEN      ENDM" none false true).run context).2
    let later := ((assembleStatement 5 "         SPACE" none false true).run defined).2
    let line : SourceLine := ⟨6, "         GEN      7", false⟩
    bodyOf later line =
      ((call (.make ⟨"GEN", none, ["X"], []⟩ ["         CON      X"] context.pass)
        (statementFields later line.text)).run (met (later.begun line) line.text)).2 := by
  intro collected context defined later line
  have reached : context.moduleIndex < context.modules.length ∧
      context.capture = some (.definition ⟨"GEN", none, ["X"], []⟩ ["         CON      X"]) ∧
      defined.capture = none ∧ later.moduleIndex = context.moduleIndex ∧
      later.pass = context.pass ∧ later.findSynonym? "GEN" = none ∧ later.capture = none ∧
      (passOver (statementFields later line.text) later.skip).1 = false ∧
      (writtenFields later line.text).result =
        (Fields.ofStatement "         GEN      X".toList).result := by
    decide +kernel
  obtain ⟨known, collecting, free, current, pass, original, outside, assembled, named⟩ := reached
  have onwards : Onwards context.moduleIndex "GEN" defined later := by
    refine .statement 5 "         SPACE" none false true .refl ?_
    rintro ⟨-, prototype, body, captured, -⟩
    rw [free] at captured
    nomatch captured
  exact @called_by_own_name context later known "         GEN      X" "GEN      ENDM"
    ⟨"GEN", none, ["X"], []⟩ ["         CON      X"] (by decide +kernel) collecting
    (by decide +kernel) 4 none false true onwards current pass original (fun _ => by decide +kernel)
    line outside (by decide) assembled named

/-- The statement has given no lines. -/
def Lineless (context : Context) : Prop :=
  ∀ frame, context.statement.frameChange ≠ .push frame

theorem lineless_machineInstruction (fields : Fields) (lineless : Lineless context) :
    Lineless ((machineInstruction fields).run context).2 := by
  have likeness : Likeness (Solely Lineless) := by
    refine likeness_solely (reading_solely (fun _ lineless => lineless) fun kept lineless => ?_)
      (fun _ lineless => lineless) (fun _ lineless => lineless) (fun _ _ given => nomatch given)
      (fun _ lineless => lineless) fun _ lineless => lineless
    exact fun frame given => lineless frame ((kept _).symm.trans given)
  exact (likeness.machineInstruction fields context context ⟨rfl, lineless⟩).2.known

/-- Where result fields are read in upper case, a macro with another name is not called by it: the
statement is given to the machine instructions. -/
theorem lowercase_name_not_called :
    let lines : List SourceLine := [⟨1, "         MACRO", false⟩, ⟨2, "         foo", false⟩,
      ⟨3, "A        =        5", false⟩, ⟨4, "foo      ENDM", false⟩]
    let context := ((lines.forM assembleSourceLine).run
      (.initial { flexible := true } ⟨"", "", ""⟩ "MAIN")).2
    let line : SourceLine := ⟨5, "         foo", false⟩
    let definition : MacroDefinition := .make ⟨"foo", none, [], []⟩ ["A        =        5"] .one
    context.findMacro? "foo" = some definition ∧ context.findSynonym? "foo" = none ∧
      context.capture = none ∧ context.skip = none ∧
      (writtenFields context line.text).result = "foo" ∧
      bodyOf context line ≠ ((call definition (statementFields context line.text)).run
        (met (context.begun line) line.text)).2 := by
  intro lines context line definition
  have reached : context.findMacro? "foo" = some definition ∧ context.findSynonym? "foo" = none ∧
      context.capture = none ∧ context.skip = none ∧
      (writtenFields context line.text).result = "foo" ∧
      (statementFields context line.text).result = "FOO" ∧ context.findSynonym? "FOO" = none ∧
      context.findMacro? "FOO" = none ∧
      ((call definition (statementFields context line.text)).run
        (met (context.begun line) line.text)).2.statement.frameChange =
          .push ⟨.call, 5, ["A        =        5"]⟩ := by
    decide +kernel
  obtain ⟨found, original, outside, unskipped, written, result, synonym, undefined, given⟩ := reached
  refine ⟨found, original, outside, unskipped, written, fun same => ?_⟩
  have meant : ((met (context.begun line) line.text).findSynonym?
      (statementFields context line.text).result).getD (statementFields context line.text).result =
        "FOO" := by
    rw [result]
    exact congrArg (Option.getD · "FOO") synonym
  have filled : (statementFields context line.text).result ≠ "" := by
    rw [result]
    decide
  have dispatched := @run_dispatch_instruction (met (context.begun line) line.text) _ filled
    (meant ▸ undefined) (meant ▸ rfl)
  have body := bodyOf_statement outside (show Fields.isComment line.text.toList = false by decide)
  rw [unskipped, passOver, if_neg Bool.false_ne_true, dispatched] at body
  have keep := ((mild_begun context line).met line.text).keep
  rw [← same, body] at given
  exact lineless_machineInstruction _ (fun _ pushed => nomatch keep.symm.trans pushed) _ given

end Calling

end Asm

end CrayAssembler
