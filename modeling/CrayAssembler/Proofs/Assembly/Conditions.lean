import CrayAssembler.Proofs.Assembly.Recurring

namespace CrayAssembler

/-- Some name may be told apart from all others. -/
theorem Expr.All.split {N U : Name → Prop} {C : Counter → Prop} {expr : Expr}
    (all : expr.All (fun name => N name ∨ U name) C) :
    expr.All N C ∨ ∃ name, U name ∧
      Eval.Step.operand (Eval.symbol Asm.surroundings name) ∈ Eval.steps Asm.surroundings expr := by
  induction expr with
  | symbol name =>
    rcases all with known | other
    · exact .inl known
    · exact .inr ⟨name, other, List.mem_singleton_self _⟩
  | location place => exact .inl all
  | unary op operand ih =>
    rcases ih all with known | ⟨name, other, member⟩
    · exact .inl known
    · exact .inr ⟨name, other, List.mem_append_left _ member⟩
  | binary op left right leftIh rightIh =>
    rcases leftIh all.1 with first | ⟨name, other, member⟩
    · rcases rightIh all.2 with second | ⟨name, other, member⟩
      · exact .inl ⟨first, second⟩
      · exact .inr ⟨name, other, List.mem_append_left _ (List.mem_append_right _ member)⟩
    · exact .inr ⟨name, other, List.mem_append_left _ (List.mem_append_left _ member)⟩
  | group inner ih => exact ih all
  | literal key operand => nomatch all
  | _ => exact .inl trivial

/-- Directives that decide whether statements are passed over. -/
def Directive.conditions : List Directive :=
  [.ifAttribute, .ifText, .ifExpression]

namespace Asm

/-- A name refers to nothing that the pass has come to. -/
structure Unseen (context : Context) (name : Name) : Prop where
  seen : definedInPass (context.lookup name) context.pass = false
  native : (context.lookup name).isExternal = false

instance (context : Context) (name : Name) : Decidable (Unseen context name) :=
  decidable_of_iff (definedInPass (context.lookup name) context.pass = false ∧
      (context.lookup name).isExternal = false)
    ⟨fun ⟨seen, native⟩ => ⟨seen, native⟩, fun unseen => ⟨unseen.seen, unseen.native⟩⟩

theorem Unseen.glance {context later : Context} {name : Name} (unseen : Unseen context name)
    (glance : Glance context later) : Unseen later name := by
  rcases glance.lookup name with same | ⟨-, blank⟩
  · refine ⟨?_, ?_⟩
    · rw [same, glance.pass]
      exact unseen.seen
    · rw [same]
      exact unseen.native
  · refine ⟨?_, ?_⟩
    · rw [blank]
      exact definedInPass_undefined _
    · rw [blank]
      rfl

section Forward

variable {expr : Expr} {context : Context}

/-- That a symbol is ahead has been noticed. -/
theorem lasting_forward : Lasting fun place => place.1.forward where
  warn kind place forward := by
    change (if place.1.warnings.contains kind then place.1 else _).forward
    split <;> exact forward
  symbol name place forward := by
    rw [outcome_symbol]
    change (place.1.forward || _) = true
    rw [forward, Bool.true_or]

/-- A symbol to which the pass has not come is noticed when it is read. -/
theorem forward_symbol {name : Name} {place : Place} (unseen : Unseen place.2 name)
    (stack : List Value) :
    (outcome (Eval.step stack (.operand (Eval.symbol surroundings name))) place).2.1.forward := by
  change (outcome (Eval.symbol surroundings name >>= fun value => pure (value :: stack))
    place).2.1.forward
  rw [outcome_bind, outcome_symbol]
  change (place.1.forward || !definedInPass _ _) = true
  rw [unseen.seen, Bool.not_false, Bool.or_true]

/-- Steps that read a symbol to which the pass has not come notice it, if they come to an end. -/
theorem forward_steps {steps : List (Eval.Step AsmM)} {name : Name}
    (glances : ∀ step ∈ steps,
      PairedStep (Alone fun place => Glance context place.2) (· = ·) step)
    (noticing : ∀ step ∈ steps, PairedStep (Alone fun place => place.1.forward) (· = ·) step)
    (unseen : Unseen context name)
    (member : .operand (Eval.symbol surroundings name) ∈ steps) {stack result : List Value}
    {place later : Place} (glance : Glance context place.2)
    (run : outcome (steps.foldlM Eval.step stack) place = (.ok result, later)) :
    later.1.forward := by
  induction steps generalizing stack place with
  | nil => nomatch member
  | cons step steps ih =>
    obtain ⟨firstGlances, restGlances⟩ := List.forall_mem_cons.mp glances
    obtain ⟨-, restNoticing⟩ := List.forall_mem_cons.mp noticing
    have kept := (paired_step compatible_eq (lasting_glance context).warnable firstGlances
      (List.forall₂_refl stack) place place ⟨rfl, glance⟩).1.2
    have noticed := fun same : step = .operand (Eval.symbol surroundings name) =>
      same ▸ forward_symbol (unseen.glance glance) stack
    rw [List.foldlM_cons, outcome_bind] at run
    revert run kept noticed
    rcases outcome (Eval.step stack step) place with ⟨_ | next, middle⟩
    · exact fun run => nomatch run
    intro run kept noticed
    rcases List.mem_cons.mp member with same | inRest
    · have last := (paired_steps compatible_eq lasting_forward.warnable restNoticing
        (List.forall₂_refl next) middle middle ⟨rfl, noticed same.symm⟩).1.2
      rwa [show outcome (steps.foldlM Eval.step next) middle = _ from run] at last
    · exact ih restGlances restNoticing inRest kept run

/-- An expression that names a symbol to which the pass has not come has no value, or one that is
known to be ahead. -/
theorem forward_evaluate (plain : expr.All (fun _ => True) fun _ => True) {name : Name}
    (unseen : Unseen context name)
    (member : .operand (Eval.symbol surroundings name) ∈ Eval.steps surroundings expr)
    {evaluation : Evaluation}
    (found : ((expr.evaluate surroundings).run context).1 = .ok evaluation) :
    evaluation.forward := by
  have noticed := @forward_steps context _ _ ((lasting_glance context).plain plain)
    (lasting_forward.plain plain) unseen member []
  rw [run_evaluate] at found
  unfold Eval.run at found
  rw [outcome_bind] at found
  revert found
  rcases run : outcome ((Eval.steps surroundings expr).foldlM Eval.step []) ({}, context) with
    ⟨_ | stack, later⟩
  · exact fun found => nomatch found
  have forward := noticed (.refl context) run
  intro found
  rcases stack with _ | ⟨value, _ | ⟨second, rest⟩⟩
  · nomatch found
  · cases found
    exact forward
  · nomatch found

end Forward

/-- A context that reading operands leads to, seen as two. -/
def Glanced (context here there : Context) : Prop :=
  here = there ∧ Glance context here

theorem registers_glanced (context : Context) : Registers context.settings (Glanced context) where
  settings := by
    rintro here _ ⟨rfl, glance⟩
    exact ⟨glance.settings, glance.settings⟩
  register := by
    rintro here _ d ⟨rfl, glance⟩
    exact ⟨rfl, glance.trans (.register here d)⟩

theorem glanced_evaluate (context : Context) {expr : Expr}
    (plain : expr.All (fun _ => True) fun _ => True) :
    Together (Glanced context) (expr.evaluate surroundings) := by
  rintro here _ ⟨rfl, glance⟩
  have kept := @Lasting.run _ expr (lasting_glance context) plain ({}, here) glance
  exact ⟨rfl, rfl, kept⟩

/-- What an operand may ask that can be compared: it may also name symbols to which neither pass has
come. -/
def comparing (offset : SectionId → Nat) (here there : Context) : Scope where
  settings := here.settings
  symbol name := (recurring offset here there).symbol name ∨ Unseen here name ∧ Unseen there name
  counter := (recurring offset here there).counter

instance (offset : SectionId → Nat) (here there : Context) :
    DecidablePred (comparing offset here there).symbol :=
  fun name => inferInstanceAs (Decidable ((recurring offset here there).symbol name ∨ _))

instance (offset : SectionId → Nat) (here there : Context) :
    DecidablePred (comparing offset here there).counter :=
  inferInstanceAs (DecidablePred (recurring offset here there).counter)

section Comparisons

variable {M : Context → Context → Prop} {settings : Settings} {scope : Scope}
  {context here there : Context} {offset : SectionId → Nat} {text left right relation : String}

theorem Scope.Covers.glanced (covers : scope.Covers text)
    (same : context.settings = scope.settings) :
    Together (Glanced context) (evaluateOperand text) :=
  (registers_glanced context).evaluateOperand fun expr parsed =>
    glanced_evaluate context ((covers expr (same ▸ parsed)).mono (fun _ _ => trivial)
      fun _ _ => trivial)

theorem Registers.compareValues (registers : Registers settings M)
    (first : Together M (Asm.evaluateOperand left))
    (second : Together M (Asm.evaluateOperand right)) : Together M (compareValues left right) := by
  refine first.bind fun left? => ?_
  cases left? with
  | none => exact .pure _
  | some left =>
    refine second.bind fun right? => ?_
    cases right? with
    | none => exact .pure _
    | some right =>
      dsimp only
      split
      · exact (registers.error _).bind fun _ => .pure _
      split
      · exact .pure _
      split
      · exact .pure _
      · exact (registers.error _).bind fun _ => .pure _

theorem Registers.expressionCondition (registers : Registers settings M)
    (compares : Together M (Asm.compareValues left right)) :
    Together M (expressionCondition left relation right) := by
  unfold Asm.expressionCondition
  split
  · exact (registers.error _).bind fun _ => .pure _
  · exact compares.bind fun _ => .pure _

theorem glance_expressionCondition (first : scope.Covers left) (second : scope.Covers right)
    (same : context.settings = scope.settings) :
    Glance context ((expressionCondition left relation right).run context).2 :=
  have registers := registers_glanced context
  have compares := registers.compareValues (first.glanced same) (second.glanced same)
  (registers.expressionCondition compares context context ⟨rfl, .refl context⟩).2.2

/-- An operand that names a symbol to which the pass has not come, in all contexts that reading
other operands leads to. -/
def Awaits (context : Context) (text : String) : Prop :=
  ∀ later, Glance context later → ∀ evaluation,
    ((evaluateOperand text).run later).1 = some evaluation → evaluation.forward

theorem awaits_of_unseen {expr : Expr} (parsed : operandExpr? context.settings text = some expr)
    (plain : expr.All (fun _ => True) fun _ => True) {name : Name} (unseen : Unseen context name)
    (member : .operand (Eval.symbol surroundings name) ∈ Eval.steps surroundings expr) :
    Awaits context text := by
  intro later glance evaluation found
  rw [run_evaluateOperand, glance.settings, parsed] at found
  dsimp only at found
  rw [run_evaluateExpr] at found
  have forward := @forward_evaluate expr later plain name (unseen.glance glance) member
  revert found forward
  rcases (expr.evaluate surroundings).run later with ⟨_ | reading, after⟩
  · exact fun found => nomatch found
  · intro found forward
    cases found
    exact forward rfl

/-- What can be compared either is read alike in both contexts or awaits a symbol in both. -/
theorem Scope.Covers.known_or_awaits (covers : (comparing offset here there).Covers text)
    (same : there.settings = here.settings) :
    (recurring offset here there).Covers text ∨ Awaits here text ∧ Awaits there text := by
  cases parsed : operandExpr? here.settings text with
  | none =>
    refine .inl fun expr found => ?_
    rw [show operandExpr? here.settings text = some expr from found] at parsed
    nomatch parsed
  | some expr =>
    have all := covers expr parsed
    have plain := all.mono (fun _ _ => trivial) fun _ _ => trivial
    rcases all.split with known | ⟨name, ⟨first, second⟩, member⟩
    · refine .inl fun other found => ?_
      cases parsed.symm.trans found
      exact known
    · exact .inr ⟨awaits_of_unseen parsed plain first member,
        awaits_of_unseen (same ▸ parsed) plain second member⟩

/-- Nothing is compared with an operand that awaits a symbol. -/
theorem compareValues_of_awaits (glances : Together (Glanced context) (evaluateOperand left))
    (awaits : Awaits context left ∨ Awaits context right) :
    ((compareValues left right).run context).1 = none := by
  have first : Awaits context left → _ := fun awaits => awaits context (.refl context)
  have glance := (glances context context ⟨rfl, .refl context⟩).2.2
  have second : Awaits context right → _ := fun awaits => awaits _ glance
  unfold compareValues
  rw [StateT.run_bind]
  revert first second
  rcases (evaluateOperand left).run context with ⟨_ | left, middle⟩
  · exact fun _ _ => rfl
  change _ → _ → (((evaluateOperand right >>= fun right? => _ : AsmM _).run middle)).1 = none
  rw [StateT.run_bind]
  rcases (evaluateOperand right).run middle with ⟨_ | right, last⟩
  · exact fun _ _ => rfl
  intro first second
  have forward : (left.forward || right.forward) = true := by
    rcases awaits with inLeft | inRight
    · rw [first inLeft left rfl, Bool.true_or]
    · rw [second inRight right rfl, Bool.or_true]
  change (StateT.run (if left.forward || right.forward then _ else _ : AsmM _) last).1 = none
  rw [if_pos forward]
  rfl

/-- A comparison comes to the same in both contexts. -/
theorem compareValues_alike (matching : Matching (recurring offset here there) here there)
    (first : (comparing offset here there).Covers left)
    (second : (comparing offset here there).Covers right) :
    ((compareValues left right).run here).1 = ((compareValues left right).run there).1 := by
  have same : there.settings = here.settings := matching.others
  have fails (awaits : Awaits here left ∧ Awaits there left ∨
      Awaits here right ∧ Awaits there right) :
      ((compareValues left right).run here).1 = ((compareValues left right).run there).1 := by
    rw [compareValues_of_awaits (first.glanced rfl) (awaits.imp And.left And.left),
      compareValues_of_awaits (first.glanced same) (awaits.imp And.right And.right)]
  rcases first.known_or_awaits same with known | awaits
  · rcases second.known_or_awaits same with knownToo | awaits
    · exact ((registers_matching _).compareValues (together_evaluateOperand known)
        (together_evaluateOperand knownToo) here there matching).1
    · exact fails (.inr awaits)
  · exact fails (.inl awaits)

theorem run_expressionCondition (left relation right : String) (context : Context) :
    ((expressionCondition left relation right).run context).1 =
      (Relation.ofOperand? relation).map fun relation =>
        ((compareValues left right).run context).1.any relation.holds := by
  unfold expressionCondition
  cases Relation.ofOperand? relation <;> rfl

theorem Matching.passing (matching : Matching scope here there) (skip : Option Skip) :
    Matching scope { here with skip } { there with skip } where
  settings := matching.settings
  others := matching.others
  skip := rfl
  radix := matching.radix
  names name named := ⟨(matching.names name named).value, (matching.names name named).seen,
    (matching.names name named).blank⟩
  counters place counted := by
    have unmoved (context : Context) :
        ({ context with skip } : Context).counterValue place = context.counterValue place := by
      cases place <;> rfl
    rw [unmoved, unmoved]
    exact matching.counters place counted

/-- A condition that is met or not met alike passes over the same statements. -/
theorem together_conclude (fields : Fields) (condition : Bool) {part : Option String}
    (covers : ∀ text ∈ part, scope.Covers text) :
    Together (Matching scope) (conclude fields condition part) := by
  have passing (count : Option Nat) : Together (Matching scope)
      (if !condition then
        modify fun context => { context with skip := skipAfter fields.location count }
      else pure PUnit.unit : AsmM PUnit) := by
    split
    · exact .modify fun _ _ matching => matching.passing _
    · exact .pure _
  unfold conclude
  dsimp only
  split
  · exact (registers_matching scope).error _
  split
  · exact passing none
  case h_2 text found =>
    have member : text ∈ part := (Option.filter_eq_some_iff.mp found).1
    refine (together_absoluteOperand (covers text member)).bind fun count => ?_
    cases count with
    | none => exact .pure _
    | some n => exact passing _

end Comparisons

section Attributes

variable {context here there : Context} {label : String}

/-- What is asked of a symbol to which the pass has come. -/
theorem any_defined (context : Context) (label : String) (P : Value → Bool) :
    ((context.currentModule.symbols.get? (resolve context label)).filter fun value =>
      definedInPass value context.pass).any P =
      (definedInPass (context.lookup ⟨none, label⟩) context.pass &&
        P (context.lookup ⟨none, label⟩)) := by
  change _ = (definedInPass ((context.currentModule.symbols.get? (resolve context label)).getD
    .undefined) context.pass &&
      P ((context.currentModule.symbols.get? (resolve context label)).getD .undefined))
  cases context.currentModule.symbols.get? (resolve context label) with
  | none => rw [Option.getD_none, definedInPass_undefined]; rfl
  | some value =>
    rw [Option.getD_some, Option.filter_some]
    cases definedInPass value context.pass <;> rfl

theorem any_external (context : Context) (label : String) :
    (context.currentModule.symbols.get? (resolve context label)).any Value.isExternal =
      (context.lookup ⟨none, label⟩).isExternal := by
  change _ = ((context.currentModule.symbols.get? (resolve context label)).getD
    .undefined).isExternal
  cases context.currentModule.symbols.get? (resolve context label) <;> rfl

/-- Both contexts tell the same of a name: that they have come to a symbol with these attributes, or
that they have not. -/
structure Tells (here there : Context) (label : String) : Prop where
  seen : definedInPass (there.lookup ⟨none, label⟩) there.pass =
    definedInPass (here.lookup ⟨none, label⟩) here.pass
  external : (there.lookup ⟨none, label⟩).isExternal = (here.lookup ⟨none, label⟩).isExternal
  attributes : definedInPass (here.lookup ⟨none, label⟩) here.pass →
    (there.lookup ⟨none, label⟩).attributes.redefinable =
        (here.lookup ⟨none, label⟩).attributes.redefinable ∧
      (there.lookup ⟨none, label⟩).isRelocatable = (here.lookup ⟨none, label⟩).isRelocatable ∧
      (there.lookup ⟨none, label⟩).addressKind = (here.lookup ⟨none, label⟩).addressKind
  micro : (there.findMicro? label).isSome = (here.findMicro? label).isSome
  definition : (there.findMacro? label).isSome = (here.findMacro? label).isSome

theorem Tells.asked (tells : Tells here there label) {P : Value → Bool}
    (about : ∀ value other : Value,
      value.attributes.redefinable = other.attributes.redefinable →
      value.isRelocatable = other.isRelocatable → value.isExternal = other.isExternal →
      value.addressKind = other.addressKind → P value = P other) :
    ((there.currentModule.symbols.get? (resolve there label)).filter fun value =>
      definedInPass value there.pass).any P =
    ((here.currentModule.symbols.get? (resolve here label)).filter fun value =>
      definedInPass value here.pass).any P := by
  rw [any_defined, any_defined, tells.seen]
  cases seen : definedInPass (here.lookup ⟨none, label⟩) here.pass with
  | false => rfl
  | true =>
    obtain ⟨redefinable, relocatable, kind⟩ := tells.attributes seen
    rw [about _ _ redefinable relocatable tells.external kind]

theorem Tells.holds (tells : Tells here there label) (property : String) :
    attributeHolds? there property label = attributeHolds? here property label := by
  have defined : ((there.currentModule.symbols.get? (resolve there label)).filter fun value =>
      definedInPass value there.pass).isSome =
      ((here.currentModule.symbols.get? (resolve here label)).filter fun value =>
        definedInPass value here.pass).isSome := by
    have asked := tells.asked (P := fun _ => true) fun _ _ _ _ _ _ => rfl
    rwa [Option.any_true, Option.any_true] at asked
  have redefinable := tells.asked (P := (·.attributes.redefinable)) fun _ _ same _ _ _ => same
  have relocatable := tells.asked (P := Value.isRelocatable) fun _ _ _ same _ _ => same
  have absolute := tells.asked (P := fun value => !value.isRelocatable && !value.isExternal)
    fun _ _ _ relocatable external _ => by rw [relocatable, external]
  have kind (kind : AddressKind) := tells.asked (P := (·.addressKind = kind))
    fun _ _ _ _ _ same => by rw [same]
  unfold attributeHolds?
  simp only [defined, redefinable, relocatable, absolute, kind, any_external, tells.external,
    tells.micro, tells.definition]

theorem Tells.condition (tells : Tells here there label) (property : String) :
    attributeCondition? there property label = attributeCondition? here property label := by
  unfold attributeCondition?
  split <;> rw [tells.holds]

end Attributes

section Statements

variable {context here there : Context} {offset : SectionId → Nat} {directive : Directive}

/-- What a condition decides; nothing, after an error, when it is not well formed. -/
def decision (directive : Directive) (fields : Fields) : AsmM (Option Bool) := do
  match directive, Fields.subfields fields.operand with
  | .ifAttribute, property :: label :: rest =>
    if 1 < rest.length || !Fields.isIdentifier label then malformed
    else
      match attributeCondition? (← get) property label with
      | some holds => return some holds
      | none => malformed
  | .ifText, left :: relation :: right :: rest =>
    if 1 < rest.length then malformed
    else
      match Relation.ofOperand? relation with
      | none => malformed
      | some relation =>
        return some (relation.holds (compare (comparedText left) (comparedText right)))
  | .ifExpression, left :: relation :: right :: rest =>
    if 1 < rest.length then malformed else expressionCondition left relation right
  | _, _ => malformed
where
  malformed : AsmM (Option Bool) := do
    error .operandField
    return none

/-- The operand of a condition that counts the statements to be passed over. -/
def counted : Directive → List String → Option String
  | .ifAttribute, _ :: _ :: rest => rest.head?
  | _, _ :: _ :: _ :: rest => rest.head?
  | _, _ => none

/-- Conditions act on what they decide. -/
theorem run_condition (conditional : directive ∈ Directive.conditions) (fields : Fields)
    (context : Context) :
    (directive.run fields).run context = (do
      match ← decision directive fields with
      | some holds => conclude fields holds (counted directive (Fields.subfields fields.operand))
      | none => return () : AsmM Unit).run context := by
  rcases List.mem_cons.mp conditional with rfl | conditional
  · change (ifAttribute fields).run context = _
    unfold ifAttribute decision counted
    rcases Fields.subfields fields.operand with _ | ⟨property, _ | ⟨label, rest⟩⟩
    · rfl
    · rfl
    · dsimp only
      by_cases malformed : (1 < rest.length || !Fields.isIdentifier label) = true
      · rw [if_pos malformed, if_pos malformed]
        rfl
      · rw [if_neg malformed, if_neg malformed]
        simp only [StateT.run_bind, StateT.run_get, pure_bind]
        cases attributeCondition? context property label <;> rfl
  rcases List.mem_cons.mp conditional with rfl | conditional
  · change (ifText fields).run context = _
    unfold ifText decision counted
    rcases Fields.subfields fields.operand with _ | ⟨left, _ | ⟨relation, _ | ⟨right, rest⟩⟩⟩
    · rfl
    · rfl
    · rfl
    · dsimp only
      split
      · rfl
      · cases Relation.ofOperand? relation <;> rfl
  · cases List.mem_singleton.mp conditional
    change (ifExpression fields).run context = _
    unfold ifExpression decision counted
    rcases Fields.subfields fields.operand with _ | ⟨left, _ | ⟨relation, _ | ⟨right, rest⟩⟩⟩
    · rfl
    · rfl
    · rfl
    · dsimp only
      split <;> rfl

/-- Neither the symbol nor the micro or macro that a name refers to tells the passes apart. A symbol
that moves with its section keeps its attributes. -/
structure Asks (here there : Context) (label : String) : Prop where
  symbol : Stays here there ⟨none, label⟩ ∨
    Unseen here ⟨none, label⟩ ∧ Unseen there ⟨none, label⟩ ∨
    Agrees here there ⟨none, label⟩ ∧ (there.lookup ⟨none, label⟩).attributes.redefinable =
      (here.lookup ⟨none, label⟩).attributes.redefinable
  micro : (there.findMicro? label).isSome = (here.findMicro? label).isSome
  definition : (there.findMacro? label).isSome = (here.findMacro? label).isSome

instance (here there : Context) (label : String) : Decidable (Asks here there label) :=
  decidable_of_iff ((Stays here there ⟨none, label⟩ ∨
      Unseen here ⟨none, label⟩ ∧ Unseen there ⟨none, label⟩ ∨
      Agrees here there ⟨none, label⟩ ∧ (there.lookup ⟨none, label⟩).attributes.redefinable =
        (here.lookup ⟨none, label⟩).attributes.redefinable) ∧
      (there.findMicro? label).isSome = (here.findMicro? label).isSome ∧
      (there.findMacro? label).isSome = (here.findMacro? label).isSome)
    ⟨fun ⟨symbol, micro, definition⟩ => ⟨symbol, micro, definition⟩,
      fun asks => ⟨asks.symbol, asks.micro, asks.definition⟩⟩

/-- What a condition asks before it counts does not tell the passes apart. -/
def Asked (offset : SectionId → Nat) (here there : Context) : Directive → List String → Prop
  | .ifAttribute, _ :: label :: _ => Asks here there label
  | .ifExpression, left :: _ :: right :: _ =>
    (comparing offset here there).Covers left ∧ (comparing offset here there).Covers right
  | _, _ => True

instance (offset : SectionId → Nat) (here there : Context) (directive : Directive)
    (parts : List String) : Decidable (Asked offset here there directive parts) := by
  unfold Asked
  split <;> infer_instance

/-- A condition asks nothing that tells the passes apart. -/
def Impartial (offset : SectionId → Nat) (here there : Context) (directive : Directive)
    (parts : List String) : Prop :=
  Asked offset here there directive parts ∧
    ∀ text ∈ counted directive parts, (recurring offset here there).Covers text

instance (offset : SectionId → Nat) (here there : Context) (directive : Directive)
    (parts : List String) : Decidable (Impartial offset here there directive parts) :=
  inferInstanceAs (Decidable (_ ∧ _))

/-- What a condition decides is the same in both contexts. -/
theorem decision_alike (conditional : directive ∈ Directive.conditions)
    (matching : Matching (recurring offset here there) here there)
    (tells : ∀ label, Asks here there label → Tells here there label) {fields : Fields}
    (impartial : Impartial offset here there directive (Fields.subfields fields.operand)) :
    Meets (Matching (recurring offset here there)) (decision directive fields) here there := by
  have malformed : Meets (Matching (recurring offset here there)) decision.malformed here there :=
    ((registers_matching _).error _).bind (fun _ => .pure _) here there matching
  obtain ⟨asked, -⟩ := impartial
  revert asked
  unfold decision
  generalize Fields.subfields fields.operand = parts
  rcases List.mem_cons.mp conditional with rfl | conditional
  · rcases parts with _ | ⟨property, _ | ⟨label, rest⟩⟩
    · exact fun _ => malformed
    · exact fun _ => malformed
    intro asks
    dsimp only
    split
    · exact malformed
    unfold Meets
    simp only [StateT.run_bind, StateT.run_get, pure_bind]
    rw [(tells label asks).condition property]
    cases attributeCondition? here property label with
    | none => exact malformed
    | some holds => exact ⟨rfl, matching⟩
  rcases List.mem_cons.mp conditional with rfl | conditional
  · rcases parts with _ | ⟨left, _ | ⟨relation, _ | ⟨right, rest⟩⟩⟩
    · exact fun _ => malformed
    · exact fun _ => malformed
    · exact fun _ => malformed
    intro _
    dsimp only
    split
    · exact malformed
    split
    · exact malformed
    · exact ⟨rfl, matching⟩
  · cases List.mem_singleton.mp conditional
    rcases parts with _ | ⟨left, _ | ⟨relation, _ | ⟨right, rest⟩⟩⟩
    · exact fun _ => malformed
    · exact fun _ => malformed
    · exact fun _ => malformed
    rintro ⟨first, second⟩
    dsimp only
    split
    · exact malformed
    have same : there.settings = here.settings := matching.others
    refine ⟨?_, matching.glances ?_ ?_⟩
    · rw [run_expressionCondition, run_expressionCondition,
        compareValues_alike matching first second]
    · exact glance_expressionCondition first second rfl
    · exact glance_expressionCondition first second same

end Statements

end Asm

namespace Assembly

open Asm (Steps Abreast Asks Tells)

variable (lines : List SourceLine) (name : String) (settings : Settings) (clock : Clock)
  {here there : Context}

theorem tells_of_asks (leads : Steps here (passOneAfter lines name settings clock))
    (reached : Steps (passTwoStart lines name settings clock) there)
    (current : there.moduleIndex = here.moduleIndex) {label : String}
    (asks : Asks here there label) : Tells here there label := by
  have first := pass_of_leads lines name settings clock leads
  have second : there.pass = .two := Steps.pass reached
  obtain ⟨stays | ⟨unseen, unseenToo⟩ | ⟨agrees, redefinable⟩, micro, definition⟩ := asks
  · have same := same_of_stays lines name settings clock leads reached current stays
    obtain ⟨defined, fixed⟩ := stays.settled
    refine ⟨?_, ?_, fun _ => ⟨?_, ?_, ?_⟩, micro, definition⟩
    · rw [first, second, stays.again, Asm.definedInPass, defined]
      rfl
    · rw [Value.isExternal_of_same same, SymbolTable.isExternal_displace]
    · rw [stays.fixed, fixed]
    · rw [Value.isRelocatable_of_same same, SymbolTable.isRelocatable_displace]
    · rw [Value.addressKind_of_same same, SymbolTable.addressKind_displace]
  · refine ⟨?_, ?_, fun seen => ?_, micro, definition⟩
    · rw [unseen.seen, unseenToo.seen]
    · rw [unseen.native, unseenToo.native]
    · rw [unseen.seen] at seen
      cases seen
  · have same := Value.same_iff.mpr agrees.value.symm
    exact ⟨agrees.seen.symm, Value.isExternal_of_same same, fun _ => ⟨redefinable,
      Value.isRelocatable_of_same same, Value.addressKind_of_same same⟩, micro, definition⟩

/-- A condition at the same place of both passes. If it asks of symbols that are settled before the
place, to which neither pass has come, or that stand for the same in both, the passes decide alike and
go on to pass over the same statements. Attributes of a symbol stay when its section moves; a
comparison and a count need a symbol that does not move, and a count needs one that both passes know
or both lack. -/
theorem condition_recurs (leads : Steps here (passOneAfter lines name settings clock))
    (reached : Steps (passTwoStart lines name settings clock) there) (abreast : Abreast here there)
    {directive : Directive} (conditional : directive ∈ Directive.conditions) (fields : Fields)
    (impartial : Asm.Impartial ((passTwoStart lines name settings clock).offsetAt here.moduleIndex)
      here there directive (Fields.subfields fields.operand)) :
    ((Asm.decision directive fields).run there).1 = ((Asm.decision directive fields).run here).1 ∧
      ((directive.run fields).run there).2.skip = ((directive.run fields).run here).2.skip := by
  have matching := matching_recurring lines name settings clock leads reached abreast
  have decides := Asm.decision_alike conditional matching (fun label =>
    tells_of_asks lines name settings clock leads reached abreast.module) impartial
  refine ⟨decides.1.symm, ?_⟩
  rw [Asm.run_condition conditional, Asm.run_condition conditional]
  refine (decides.bind fun holds => ?_).2.skip.symm
  cases holds with
  | none => exact .pure _
  | some holds => exact Asm.together_conclude fields holds impartial.2

/-- A condition compares a symbol that is defined above it with one that is defined below it. -/
def belatedLines : List SourceLine :=
  [⟨1, "N        =         5", false⟩, ⟨2, "         IFE       N,EQ,X,2", false⟩,
    ⟨3, "         CON       1", false⟩, ⟨4, "         CON       2", false⟩,
    ⟨5, "X        =         5", false⟩]

theorem condition_recurs_belated :
    let fields : Fields := ⟨"", "IFE", "N,EQ,X,2", 19⟩
    let there := passTwoAfter belatedLines "MAIN" {} ⟨"", "", ""⟩ 1
    (there.lookup ⟨none, "X"⟩).numeric = 5 ∧
      ((Asm.decision .ifExpression fields).run there).1 = some false ∧
      ((Directive.ifExpression.run fields).run there).2.skip = some (.statements 2) := by
  intro fields there
  let here := passOneAfter (belatedLines.take 1) "MAIN" {} ⟨"", "", ""⟩
  have decided : ((Asm.decision .ifExpression fields).run here).1 = some false ∧
      ((Directive.ifExpression.run fields).run here).2.skip = some (.statements 2) := by
    decide +kernel
  have recurs := condition_recurs belatedLines "MAIN" {} ⟨"", "", ""⟩
    (leads_passOneAfter belatedLines "MAIN" {} ⟨"", "", ""⟩ 1)
    (reached_passTwoAfter belatedLines "MAIN" {} ⟨"", "", ""⟩ 1) (by decide +kernel)
    (show Directive.ifExpression ∈ Directive.conditions by decide) fields (by decide +kernel)
  exact ⟨by decide +kernel, recurs.1.trans decided.1, recurs.2.trans decided.2⟩

/-- A condition asks whether a symbol is defined that is declared external below it. Pass 1 passes
over the next statement and pass 2 assembles it, without a diagnostic. -/
theorem conditions_part :
    let lines : List SourceLine := [⟨1, "         IDENT    M", false⟩,
      ⟨2, "         IFA      DEF,X,1", false⟩, ⟨3, "         CON      7", false⟩,
      ⟨4, "         EXT      X", false⟩, ⟨5, "         END", false⟩]
    (passOneAfter (lines.take 2) "MAIN" {} ⟨"", "", ""⟩).skip = some (.statements 1) ∧
      (passTwoAfter lines "MAIN" {} ⟨"", "", ""⟩ 2).skip = none ∧
      (ofLines lines "MAIN" {} ⟨"", "", ""⟩).reports = [] := by
  decide +kernel

end Assembly

end CrayAssembler
