import CrayAssembler.Proofs.Assembly.Agreement
import CrayAssembler.Proofs.Assembly.Glance

namespace CrayAssembler

namespace Asm

open SymbolTable (Settled displace)

/-- A name stands for the same in both contexts: for a value that both have come to, or for
nothing. -/
structure Agrees (here there : Context) (name : Name) : Prop where
  value : (here.lookup name).bare = (there.lookup name).bare
  seen : definedInPass (here.lookup name) here.pass = definedInPass (there.lookup name) there.pass
  blank : (here.lookup name).isUndefined → (here.lookup name).bare = .undefined ∧
    definedInPass (here.lookup name) here.pass = false

instance (here there : Context) (name : Name) : Decidable (Agrees here there name) :=
  decidable_of_iff ((here.lookup name).bare = (there.lookup name).bare ∧
      definedInPass (here.lookup name) here.pass = definedInPass (there.lookup name) there.pass ∧
      ((here.lookup name).isUndefined → (here.lookup name).bare = .undefined ∧
        definedInPass (here.lookup name) here.pass = false))
    ⟨fun ⟨value, seen, blank⟩ => ⟨value, seen, blank⟩,
      fun agrees => ⟨agrees.value, agrees.seen, agrees.blank⟩⟩

theorem Agrees.symm {here there : Context} {name : Name} (agrees : Agrees here there name) :
    Agrees there here name where
  value := agrees.value.symm
  seen := agrees.seen.symm
  blank undefined := by
    rw [← Value.isUndefined_of_same (Value.same_iff.mpr agrees.value)] at undefined
    rw [← agrees.value, ← agrees.seen]
    exact agrees.blank undefined

theorem Agrees.glance {here later there : Context} {name : Name} (agrees : Agrees here there name)
    (glance : Glance here later) : Agrees later there name := by
  rcases glance.lookup name with same | ⟨undefined, blank⟩
  · refine ⟨?_, ?_, ?_⟩
    · rw [same]
      exact agrees.value
    · rw [same, glance.pass]
      exact agrees.seen
    · rw [same, glance.pass]
      exact agrees.blank
  · obtain ⟨nothing, unseen⟩ := agrees.blank undefined
    refine ⟨?_, ?_, fun _ => ?_⟩
    · rw [blank, ← agrees.value, nothing]
      rfl
    · rw [blank, ← agrees.seen, unseen]
      exact definedInPass_undefined _
    · rw [blank]
      exact ⟨rfl, definedInPass_undefined _⟩

/-- What an operand with certain names and counters can ask. -/
structure Scope where
  settings : Settings
  symbol : Name → Prop
  counter : Counter → Prop

/-- The contexts give the same answers to all that is asked in a scope, and are passing over the
same statements. -/
structure Matching (scope : Scope) (here there : Context) : Prop where
  settings : here.settings = scope.settings
  others : there.settings = scope.settings
  skip : here.skip = there.skip
  radix : here.base.current.radix here.inInstruction = there.base.current.radix there.inInstruction
  names : ∀ name, scope.symbol name → Agrees here there name
  counters : ∀ place, scope.counter place → here.counterValue place = there.counterValue place

section Matching

variable {scope : Scope} {here there later after : Context}

theorem Matching.symm (matching : Matching scope here there) : Matching scope there here where
  settings := matching.others
  others := matching.settings
  skip := matching.skip.symm
  radix := matching.radix.symm
  names name named := (matching.names name named).symm
  counters place counted := (matching.counters place counted).symm

theorem Matching.glance (matching : Matching scope here there) (glance : Glance here later) :
    Matching scope later there where
  settings := glance.settings.trans matching.settings
  others := matching.others
  skip := glance.skip.trans matching.skip
  radix := glance.radix.trans matching.radix
  names name named := (matching.names name named).glance glance
  counters place counted := (glance.counter place).trans (matching.counters place counted)

theorem Matching.glances (matching : Matching scope here there) (first : Glance here later)
    (second : Glance there after) : Matching scope later after :=
  ((matching.glance first).symm.glance second).symm

end Matching

theorem matched_plain {scope : Scope} {expr : Expr} (all : expr.All scope.symbol scope.counter) :
    ∀ step ∈ Eval.steps surroundings expr, PairedStep (Matched (Matching scope)) (· = ·) step := by
  refine paired_plain (fun name named => ?_) (fun place counted => ?_) ?_ all
  · rintro ⟨progress, here⟩ ⟨_, there⟩ ⟨rfl, matching⟩
    have agrees := matching.names name named
    rw [outcome_symbol, outcome_symbol]
    refine ⟨⟨?_, matching.glances (.mention ..) (.mention ..)⟩, .ok agrees.value⟩
    dsimp only
    rw [agrees.seen]
  · rintro ⟨progress, here⟩ ⟨_, there⟩ ⟨rfl, matching⟩
    rw [outcome_counter, outcome_counter]
    exact ⟨⟨rfl, matching⟩, .ok (matching.counters place counted)⟩
  · rintro ⟨progress, here⟩ ⟨_, there⟩ ⟨rfl, matching⟩
    rw [outcome_radix, outcome_radix]
    exact ⟨⟨rfl, matching⟩, .ok matching.radix⟩

/-- Related contexts have the given settings, and diagnostics do not part them. -/
structure Registers (settings : Settings) (M : Context → Context → Prop) : Prop where
  settings : ∀ {here there}, M here there → here.settings = settings ∧ there.settings = settings
  register : ∀ {here there} d, M here there → M (here.register d) (there.register d)

section Operands

variable {settings : Settings} {M : Context → Context → Prop} (registers : Registers settings M)
  {expr : Expr} {text : String}

include registers

theorem Registers.error (kind : ErrorKind) : Together M (error kind) :=
  .modify fun _ _ => registers.register _

theorem Registers.warn (kind : WarningKind) : Together M (warn kind) :=
  .modify fun _ _ => registers.register _

theorem Registers.evaluateExpr (evaluates : Together M (expr.evaluate surroundings)) :
    Together M (evaluateExpr expr) := by
  refine evaluates.bind fun result => ?_
  cases result with
  | error kind => exact (registers.error kind).bind fun _ => .pure _
  | ok evaluation =>
    refine (Together.forM registers.warn).bind fun _ => ?_
    split
    · exact (registers.error _).bind fun _ => .pure _
    · exact .pure _

theorem Registers.evaluateOperand (evaluates : ∀ expr, operandExpr? settings text = some expr →
    Together M (expr.evaluate surroundings)) : Together M (evaluateOperand text) := by
  intro here there related
  obtain ⟨first, second⟩ := registers.settings related
  unfold Meets
  rw [run_evaluateOperand, run_evaluateOperand, first, second]
  cases parsed : operandExpr? settings text with
  | none => exact ⟨rfl, registers.register _ related⟩
  | some expr => exact registers.evaluateExpr (evaluates expr parsed) here there related

theorem Registers.absoluteOperand (evaluates : Together M (Asm.evaluateOperand text)) :
    Together M (absoluteOperand text) := by
  refine evaluates.bind fun result => ?_
  cases result with
  | none => exact .pure _
  | some evaluation =>
    dsimp only
    split
    · exact .pure _
    · exact .pure _
    · exact (registers.error _).bind fun _ => .pure _

end Operands

section Scopes

variable {scope : Scope} {expr : Expr} {text : String}

/-- An operand asks nothing beyond a scope. It may not be an expression at all. -/
def Scope.Covers (scope : Scope) (text : String) : Prop :=
  ∀ expr, operandExpr? scope.settings text = some expr → expr.All scope.symbol scope.counter

instance [DecidablePred scope.symbol] [DecidablePred scope.counter] :
    Decidable (scope.Covers text) :=
  match parsed : operandExpr? scope.settings text with
  | none => .isTrue fun _ found => nomatch parsed.symm.trans found
  | some expr => decidable_of_iff (expr.All scope.symbol scope.counter)
    ⟨fun all _ found => Option.some.inj (parsed.symm.trans found) ▸ all,
      fun covers => covers expr parsed⟩

theorem registers_matching (scope : Scope) : Registers scope.settings (Matching scope) where
  settings matching := ⟨matching.settings, matching.others⟩
  register d matching := matching.glances (.register _ d) (.register _ d)

theorem together_evaluate (all : expr.All scope.symbol scope.counter) :
    Together (Matching scope) (expr.evaluate surroundings) := by
  intro here there matching
  exact (paired_run compatible_eq (warnable_matched) (matched_plain all)).together here there
    matching

theorem together_evaluateOperand (covers : scope.Covers text) :
    Together (Matching scope) (evaluateOperand text) :=
  (registers_matching scope).evaluateOperand fun expr parsed =>
    together_evaluate (covers expr parsed)

theorem together_absoluteOperand (covers : scope.Covers text) :
    Together (Matching scope) (absoluteOperand text) :=
  (registers_matching scope).absoluteOperand (together_evaluateOperand covers)

end Scopes

/-- The passes are at the same place. -/
structure Abreast (here there : Context) : Prop where
  settings : there.settings = here.settings
  module : there.moduleIndex = here.moduleIndex
  base : there.base.current = here.base.current
  inInstruction : there.inInstruction = here.inInstruction
  skip : there.skip = here.skip

instance (here there : Context) : Decidable (Abreast here there) :=
  decidable_of_iff (there.settings = here.settings ∧ there.moduleIndex = here.moduleIndex ∧
      there.base.current = here.base.current ∧ there.inInstruction = here.inInstruction ∧
      there.skip = here.skip)
    ⟨fun ⟨settings, module, base, inInstruction, skip⟩ =>
      ⟨settings, module, base, inInstruction, skip⟩,
      fun abreast => ⟨abreast.settings, abreast.module, abreast.base, abreast.inInstruction,
        abreast.skip⟩⟩

/-- A name refers to a symbol that pass 1 has settled, and that pass 2 has come to again. -/
structure Stays (here there : Context) (name : Name) : Prop where
  key : there.keyOf name = here.keyOf name
  settled : Settled (here.lookup name)
  again : definedInPass (there.lookup name) .two
  fixed : (there.lookup name).attributes.redefinable = false
  external : (there.lookup name).isExternal → (here.lookup name).isExternal

instance (here there : Context) (name : Name) : Decidable (Stays here there name) :=
  decidable_of_iff (there.keyOf name = here.keyOf name ∧ Settled (here.lookup name) ∧
      definedInPass (there.lookup name) .two ∧
      (there.lookup name).attributes.redefinable = false ∧
      ((there.lookup name).isExternal → (here.lookup name).isExternal))
    ⟨fun ⟨key, settled, again, fixed, external⟩ => ⟨key, settled, again, fixed, external⟩,
      fun stays => ⟨stays.key, stays.settled, stays.again, stays.fixed, stays.external⟩⟩

/-- What is asked in pass 1 with the answers that pass 2 gives as well. A section that is placed
anew between the passes moves all addresses in it. Of symbols that are not settled the passes must
hold the same, such as those that both lack, or that both have set anew. -/
def recurring (offset : SectionId → Nat) (here there : Context) : Scope where
  settings := here.settings
  symbol name := Stays here there name ∧ displace offset (here.lookup name) = here.lookup name ∨
    Agrees here there name
  counter place := here.counterValue place = there.counterValue place

instance (offset : SectionId → Nat) (here there : Context) :
    DecidablePred (recurring offset here there).symbol :=
  fun name => inferInstanceAs (Decidable (Stays here there name ∧ _ ∨ _))

instance (offset : SectionId → Nat) (here there : Context) :
    DecidablePred (recurring offset here there).counter :=
  fun place => inferInstanceAs (Decidable (here.counterValue place = there.counterValue place))

end Asm

namespace Assembly

open SymbolTable (Carried displace)
open Asm (Steps Stays Abreast)

variable (lines : List SourceLine) (name : String) (settings : Settings) (clock : Clock)
  {here there : Context}

theorem pass_of_leads (leads : Steps here (passOneAfter lines name settings clock)) :
    here.pass = .one := by
  have begun := (Asm.follows_lines lines _ ⟨Asm.sound_initial settings clock name, .refl⟩).1
  exact (Steps.pass leads).symm.trans (Steps.pass begun.steps)

/-- What some context of pass 1 has settled is the same when the pass ends. -/
theorem settles_of_leads (leads : Steps here (passOneAfter lines name settings clock)) :
    Asm.Settles here (passOneEnd lines name settings clock) := by
  have ended := settles_passOneEnd lines name settings clock lines.length
  rw [List.take_length] at ended
  intro index key settled
  obtain ⟨middle, same⟩ :=
    leads.settles (pass_of_leads lines name settings clock leads) index key settled
  obtain ⟨last, sameToo⟩ := ended index key middle
  exact ⟨last, Value.same_trans sameToo same⟩

/-- A symbol that stays has its value of pass 1, moved with its section. -/
theorem same_of_stays (leads : Steps here (passOneAfter lines name settings clock))
    (reached : Steps (passTwoStart lines name settings clock) there)
    (current : there.moduleIndex = here.moduleIndex) {label : Name}
    (stays : Stays here there label) :
    (there.lookup label).same (displace
      ((passTwoStart lines name settings clock).offsetAt here.moduleIndex) (here.lookup label)) := by
  have now : there.lookup label = there.valueAt here.moduleIndex (here.keyOf label) := by
    rw [← stays.key, ← current]
    rfl
  obtain ⟨⟨defined, -⟩, same⟩ := settles_of_leads lines name settings clock leads here.moduleIndex
    (here.keyOf label) stays.settled
  generalize moved : (passTwoStart lines name settings clock).offsetAt here.moduleIndex = offset
  have displaced := SymbolTable.displace_same offset same
  refine Value.same_trans ?_ displaced
  have carried := Asm.Steps.carried reached rfl
    (Asm.carried_betweenPasses (passOneEnd lines name settings clock) here.moduleIndex
      (here.keyOf label))
  rw [← now] at carried
  change Carried (displace ((passTwoStart lines name settings clock).offsetAt _) _) _ at carried
  rw [moved] at carried
  rcases carried with unchanged | external | ⟨-, again | undefined⟩
  · exact unchanged
  · -- an external of pass 1 is the same one throughout pass 2
    have before := (Value.isExternal_of_same same).trans (stays.external external)
    rw [now]
    refine Asm.Steps.external reached ?_ ?_ ?_
    · rw [SymbolTable.isUndefined_displace]
      exact defined
    · rw [SymbolTable.isExternal_displace]
      exact before
    · rcases Asm.valueAt_betweenPasses (passOneEnd lines name settings clock) here.moduleIndex
        (here.keyOf label) with begun | ⟨lost, -⟩
      · rw [← moved]
        exact Value.same_iff.mpr (congrArg Value.bare begun)
      · rw [defined] at lost
        nomatch lost
  · rw [stays.fixed] at again
    nomatch again
  · rw [SymbolTable.isUndefined_displace, defined] at undefined
    nomatch undefined

theorem matching_recurring (leads : Steps here (passOneAfter lines name settings clock))
    (reached : Steps (passTwoStart lines name settings clock) there) (abreast : Abreast here there) :
    Asm.Matching (Asm.recurring
      ((passTwoStart lines name settings clock).offsetAt here.moduleIndex) here there) here there where
  settings := rfl
  others := abreast.settings
  skip := abreast.skip.symm
  radix := by rw [abreast.base, abreast.inInstruction]
  names label stands := by
    rcases stands with ⟨stays, unmoved⟩ | agrees
    · have same := same_of_stays lines name settings clock leads reached abreast.module stays
      rw [unmoved] at same
      have first := pass_of_leads lines name settings clock leads
      have second : there.pass = .two := Steps.pass reached
      obtain ⟨defined, -⟩ := stays.settled
      refine ⟨(Value.same_iff.mp same).symm, ?_, fun undefined => ?_⟩
      · rw [first, second, stays.again, Asm.definedInPass, defined]
        rfl
      · rw [defined] at undefined
        nomatch undefined
    · exact agrees
  counters place same := same

/-- An operand that must be a known plain integer, at the same place of both passes. If each of its
names refers to a symbol that is settled before the place and does not move, or stands for the same
in both passes, the operand comes to the same in both. So one that pass 1 refuses is refused by pass 2
with an error. -/
theorem absoluteOperand_recurs (leads : Steps here (passOneAfter lines name settings clock))
    (reached : Steps (passTwoStart lines name settings clock) there) (abreast : Abreast here there)
    (text : String) (covers : (Asm.recurring
      ((passTwoStart lines name settings clock).offsetAt here.moduleIndex) here there).Covers text) :
    ((Asm.absoluteOperand text).run there).1 = ((Asm.absoluteOperand text).run here).1 ∧
      (((Asm.absoluteOperand text).run here).1 = none →
        ((Asm.absoluteOperand text).run there).2.statement.diagnostics.hasErrors) := by
  have matching := matching_recurring lines name settings clock leads reached abreast
  obtain ⟨same, -⟩ := Asm.together_absoluteOperand covers here there matching
  refine ⟨same.symm, fun refused => ?_⟩
  exact Asm.hasErrors_absoluteOperand text there (same.symm.trans refused)

/-- All lines of pass 1 are assembled in contexts that lead to its end. -/
theorem leads_passOneAfter (count : Nat) :
    Steps (passOneAfter (lines.take count) name settings clock)
      (passOneAfter lines name settings clock) := by
  have sound := Asm.sound_initial settings clock name
  have begun := (Asm.follows_lines (lines.take count) _ ⟨sound, .refl⟩).1
  have rest := (Asm.follows_lines (lines.drop count) _ ⟨begun.sound, .refl⟩).1
  have whole : lines.forM Asm.assembleSourceLine = _ := Asm.forM_take_drop lines count
  conv => rhs; rw [passOneAfter, whole]
  exact rest.steps

/-- The context after some lines of pass 2. -/
def passTwoAfter (count : Nat) : Context :=
  (((lines.take count).forM Asm.assembleSourceLine).run (passTwoStart lines name settings clock)).2

theorem reached_passTwoAfter (count : Nat) : Steps (passTwoStart lines name settings clock)
    (passTwoAfter lines name settings clock count) :=
  steps_passTwo lines name settings clock count

/-- One name of the operand is defined above it and the other one nowhere. -/
def wantingLines : List SourceLine :=
  [⟨1, "N        =         5", false⟩, ⟨2, "         BSS       N+X", false⟩]

theorem absoluteOperand_recurs_wanting :
    ((Asm.absoluteOperand "N+X").run (passTwoAfter wantingLines "MAIN" {} ⟨"", "", ""⟩ 1)).1 = none ∧
      ((Asm.absoluteOperand "N+X").run
        (passTwoAfter wantingLines "MAIN" {} ⟨"", "", ""⟩ 1)).2.statement.diagnostics.hasErrors := by
  have refused : ((Asm.absoluteOperand "N+X").run
      (passOneAfter (wantingLines.take 1) "MAIN" {} ⟨"", "", ""⟩)).1 = none := by decide +kernel
  have recurs := absoluteOperand_recurs wantingLines "MAIN" {} ⟨"", "", ""⟩
    (leads_passOneAfter wantingLines "MAIN" {} ⟨"", "", ""⟩ 1)
    (reached_passTwoAfter wantingLines "MAIN" {} ⟨"", "", ""⟩ 1) (by decide +kernel) "N+X"
    (by decide +kernel)
  exact ⟨recurs.1.trans refused, recurs.2 refused⟩

/-- An operand that pass 1 refuses, since its symbol is defined further on, is used by pass 2
without a diagnostic. -/
theorem refusal_lost :
    let lines : List SourceLine := [⟨1, "         IDENT    M", false⟩,
      ⟨2, "         BSS      N", false⟩, ⟨3, "N        =        5", false⟩, ⟨4, "         END", false⟩]
    ((Asm.absoluteOperand "N").run (passOneAfter (lines.take 1) "MAIN" {} ⟨"", "", ""⟩)).1 = none ∧
      ((Asm.absoluteOperand "N").run (passTwoAfter lines "MAIN" {} ⟨"", "", ""⟩ 1)).1 = some 5 ∧
      (ofLines lines "MAIN" {} ⟨"", "", ""⟩).reports = [] := by
  decide +kernel

end Assembly

end CrayAssembler
