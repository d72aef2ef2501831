import CrayAssembler.Proofs.Assembly.Twin
import CrayAssembler.Proofs.Expr.Numbers
import CrayAssembler.Proofs.Machine.Code
import CrayAssembler.Proofs.Walk.Keeping

namespace CrayAssembler

/-- A text of digits that denote the number of a word, or its negative after a sign. -/
inductive Text.Denotes (radix : Nat) (n : Word) : List Char → Prop
  | plain {digits : List Char} (denotes : DigitsOf radix n.toNat digits) : Denotes radix n digits
  | negative {digits : List Char} (denotes : DigitsOf radix (-n).toNat digits) :
      Denotes radix n ('-' :: digits)

namespace Asm

open Eval (tree)
open Text (Denotes DigitsOf)

section Rendering

variable {radix width : Nat} {n : Word} {text : String} {digits : List Char}

theorem toList_padLeft (fill : Char) (width : Nat) (text : String) :
    (Text.padLeft fill width text).toList =
      List.replicate (width - text.length) fill ++ text.toList := by
  rw [Text.padLeft, String.toList_append, String.toList_ofList]

theorem denotes_octal (n : Word) : Denotes 8 n (Text.octal 1 n.toNat).toList := by
  rw [Text.octal, toList_padLeft, Text.digits, String.toList_ofList]
  exact .plain ((Text.digitsOf_toDigits (by decide) (by decide) _).fill (by decide) _)

theorem denotes_signedDecimal (n : Word) : Denotes 10 n (signedDecimal n).toList := by
  have bound := n.toNat_lt
  by_cases small : n.toNat < 2 ^ 63
  · have signed : n.signed = n.toNat := by rw [Word.signed_eq, if_pos small]
    have plain : (signedDecimal n).toList = Nat.toDigits 10 n.toNat := by
      rw [signedDecimal, signed, if_neg (by omega), Int.natAbs_natCast, Text.decimal, Text.digits,
        String.toList_ofList]
    rw [plain]
    exact .plain (Text.digitsOf_toDigits (by decide) (by decide) _)
  · have signed : n.signed = n.toNat - 2 ^ 64 := by rw [Word.signed_eq, if_neg small]
    have below : (n.toNat : Int) - 2 ^ 64 < 0 := by omega
    have magnitude : ((n.toNat : Int) - 2 ^ 64).natAbs = (-n).toNat := by
      have size : UInt64.size = 2 ^ 64 := rfl
      rw [UInt64.toNat_neg, size]
      omega
    have negative : (signedDecimal n).toList = '-' :: Nat.toDigits 10 (-n).toNat := by
      rw [signedDecimal, signed, if_pos below, magnitude, String.toList_append, Text.decimal,
        Text.digits, String.toList_ofList, String.toList_ofList]
      rfl
    rw [negative]
    exact .negative (Text.digitsOf_toDigits (by decide) (by decide) _)

/-- A text that has room in a width is filled up to it and denotes the same. -/
theorem zeroFill?_eq (positive : 0 < radix) (denotes : Denotes radix n text.toList)
    (room : text.length ≤ width) :
    ∃ filled, zeroFill? text width = some filled ∧ Denotes radix n filled.toList ∧
      filled.length = width := by
  have length : text.length = text.toList.length := String.length_toList.symm
  unfold zeroFill?
  rw [if_neg (Nat.not_lt.mpr room)]
  split
  case h_1 digits same =>
    rw [same] at denotes length
    have filled : ("-" ++ Text.padLeft '0' (width - 1) (String.ofList digits)).toList =
        '-' :: (List.replicate (width - 1 - digits.length) '0' ++ digits) := by
      rw [String.toList_append, toList_padLeft, String.toList_ofList, String.toList_ofList,
        String.length_ofList]
      rfl
    refine ⟨_, rfl, ?_, ?_⟩
    · rw [filled]
      cases denotes with
      | plain denotes => exact absurd (denotes.all '-' (List.mem_cons_self ..)).1 (by decide)
      | negative denotes => exact .negative (denotes.fill positive _)
    · rw [← String.length_toList, filled]
      simp only [List.length_cons, List.length_append, List.length_replicate] at length ⊢
      omega
  case h_2 other =>
    refine ⟨_, rfl, ?_, ?_⟩
    · rw [toList_padLeft]
      generalize text.toList = chars at denotes other
      cases denotes with
      | plain denotes => exact .plain (denotes.fill positive _)
      | negative denotes => exact absurd rfl (other _)
    · rw [← String.length_toList, toList_padLeft]
      simp only [List.length_append, List.length_replicate]
      omega

/-- The text filled to the width that is asked for, if any, unless it has no room in it. -/
def filled? (text : String) (width? : Option Word) : Option String :=
  width?.elim (some text) fun width => zeroFill? text width.toNat

theorem filled?_eq {width? : Option Word} (positive : 0 < radix)
    (denotes : Denotes radix n text.toList)
    (room : ∀ width ∈ width?, text.length ≤ width.toNat) :
    ∃ filled, filled? text width? = some filled ∧ Denotes radix n filled.toList ∧
      ∀ width ∈ width?, filled.length = width.toNat := by
  cases width? with
  | none => exact ⟨text, rfl, denotes, nofun⟩
  | some width =>
    obtain ⟨filled, found, again, length⟩ := zeroFill?_eq positive denotes (room width rfl)
    refine ⟨filled, found, again, ?_⟩
    rintro _ ⟨⟩
    exact length

end Rendering

section Reading

variable {context : Context} {radix : Nat} {n : Word} {digits : List Char} {text : String}

theorem evaluate_digits (positive : 0 < radix)
    (here : context.base.current.radix context.inInstruction = radix)
    (denotes : DigitsOf radix n.toNat digits) :
    outcome (tree surroundings (.number (String.ofList digits))) ({}, context) =
      (.ok (.absolute n), ({}, context)) := by
  have read := Numeral.read_digits positive denotes n.toNat_lt
  rw [outcome_number, String.toList_ofList, here, read, UInt64.ofNat_toNat]

theorem evaluate_negative (positive : 0 < radix)
    (here : context.base.current.radix context.inInstruction = radix)
    (denotes : DigitsOf radix (-n).toNat digits) :
    outcome (tree surroundings (.unary .minus (.number (String.ofList digits)))) ({}, context) =
      (.ok (.absolute n), ({}, context)) := by
  have inner := evaluate_digits positive here denotes
  change outcome (tree surroundings _ >>= _) _ = _
  rw [outcome_bind_of (congrArg Prod.fst inner), inner, outcome_evalUnary]
  have back : Value.unary .minus (.absolute (-n)) = .ok (.absolute (- -n)) :=
    congrArg (fun coefficient => Except.ok ({ Value.absolute (- -n) with coefficient } : Value))
      (Value.neg_eq_zero.mpr rfl)
  rw [back, UInt64.neg_neg]

/-- The text is an expression, and wherever numbers have the radix its value is a constant with the
number. -/
def ReadsBack (radix : Nat) (text : String) (n : Word) : Prop :=
  ∀ anyCase, ∃ expr, Expr.parseComplete (tokenize text.toList anyCase) text.toList = .ok expr ∧
    ∀ context : Context, context.base.current.radix context.inInstruction = radix →
      ∃ evaluation, ((expr.evaluate surroundings).run context).1 = .ok evaluation ∧
        evaluation.value.isConstant ∧ evaluation.value.numeric = n

theorem readsBack_of_denotes (positive : 0 < radix) (denotes : Denotes radix n text.toList) :
    ReadsBack radix text n := by
  intro anyCase
  generalize text.toList = chars at denotes ⊢
  cases denotes with
  | plain denotes =>
    refine ⟨_, Expr.parseComplete_digits anyCase denotes.some fun c member =>
      (denotes.all c member).1, fun context here => ?_⟩
    rw [run_evaluate_tree, evaluate_digits positive here denotes]
    exact ⟨_, rfl, rfl, rfl⟩
  | negative denotes =>
    refine ⟨_, Expr.parseComplete_negative anyCase denotes.some fun c member =>
      (denotes.all c member).1, fun context here => ?_⟩
    rw [run_evaluate_tree, evaluate_negative positive here denotes]
    exact ⟨_, rfl, rfl, rfl⟩

end Reading

section Storing

variable {context : Context} {radix : Nat} {expr : String} {rest : List String}
  {evaluation : Evaluation} {width? : Option Word} {fields : Fields} {render : Word → String}
  {text : String}

/-- Some module is current, whatever is done with it. -/
theorem loose_current : Loose fun context => context.moduleIndex < context.modules.length where
  aside _ current := current
  modifyModule change := .modify fun context current => by
    simpa only [Context.modifyModule, List.length_modify] using current

theorem findMicro?_putMicro (current : context.moduleIndex < context.modules.length)
    (name text : String) : ((putMicro name text).run context).2.findMicro? name = some text := by
  change (context.modifyModule _).findMicro? name = some text
  unfold Context.findMicro? Context.searched
  rw [Context.currentModule_modifyModule current, List.findSome?_cons]
  simp only [Std.TreeMap.getElem?_insert_self]

/-- The width that the subfields after a number ask for, if any. -/
inductive AsksWidth (context : Context) : List String → Option Word → Prop
  | none : AsksWidth context [] none
  | width {part : String} {width : Word}
      (known : ((absoluteOperand part).run context).1 = some width) :
      AsksWidth context [part] (some width)

/-- The text of a number, filled to a width if there is one, is what is put into the micro. -/
theorem run_defineNumericMicro (current : context.moduleIndex < context.modules.length)
    (named : Fields.isIdentifier fields.location)
    (parts : Fields.subfields fields.operand = expr :: rest)
    (evaluated : ((evaluateOperand expr).run context).1 = some evaluation)
    (fixed : evaluation.value.isRelocatable = false)
    (native : evaluation.value.isExternal = false)
    (asks : AsksWidth ((evaluateOperand expr).run context).2 rest width?)
    (fits : filled? (render evaluation.value.numeric) width? = some text) :
    ∃ last : Context, last.moduleIndex < last.modules.length ∧
      (defineNumericMicro render fields).run context = (putMicro fields.location text).run last := by
  have few : ¬1 < rest.length := by cases asks <;> simp
  have inside := (loose_current.reads.evaluateOperand expr context current).1
  unfold defineNumericMicro
  dsimp only
  rw [if_neg (by simp [named]), parts]
  dsimp only
  rw [if_neg few, StateT.run_bind]
  generalize (evaluateOperand expr).run context = result at evaluated asks inside ⊢
  obtain ⟨value?, middle⟩ := result
  obtain rfl : value? = some evaluation := evaluated
  change ∃ last : Context, _ ∧ (ite _ _ _ : AsmM Unit).run middle = _
  rw [fixed, native, if_neg (by decide)]
  cases asks with
  | none =>
    obtain rfl := Option.some.inj fits
    exact ⟨middle, inside, rfl⟩
  | @width part width known =>
    have still := (loose_current.reads.absoluteOperand part middle inside).1
    dsimp only [List.head?_cons] at known ⊢
    rw [StateT.run_bind]
    generalize (absoluteOperand part).run middle = result at known still ⊢
    obtain ⟨width?, last⟩ := result
    obtain rfl : width? = some width := known
    have found : zeroFill? (render evaluation.value.numeric) width.toNat = some text := fits
    dsimp only [bind]
    rw [found]
    exact ⟨last, still, rfl⟩

/-- A number without a width, or with one that has room for it, is stored and filled to the width. -/
theorem defineNumericMicro_stores (render : Word → String) (fields : Fields)
    (positive : 0 < radix) (current : context.moduleIndex < context.modules.length)
    (named : Fields.isIdentifier fields.location)
    (parts : Fields.subfields fields.operand = expr :: rest)
    (evaluated : ((evaluateOperand expr).run context).1 = some evaluation)
    (fixed : evaluation.value.isRelocatable = false)
    (native : evaluation.value.isExternal = false)
    (asks : AsksWidth ((evaluateOperand expr).run context).2 rest width?)
    (denotes : Denotes radix evaluation.value.numeric (render evaluation.value.numeric).toList)
    (room : ∀ width ∈ width?, (render evaluation.value.numeric).length ≤ width.toNat) :
    ∃ text, ((defineNumericMicro render fields).run context).2.findMicro? fields.location =
        some text ∧ ReadsBack radix text evaluation.value.numeric ∧
      ∀ width ∈ width?, text.length = width.toNat := by
  obtain ⟨text, fits, again, length⟩ := filled?_eq positive denotes room
  obtain ⟨last, inside, run⟩ := run_defineNumericMicro current named parts evaluated fixed native
    asks fits
  rw [run]
  exact ⟨text, findMicro?_putMicro inside _ _, readsBack_of_denotes positive again, length⟩

/-- The text that a numeric micro gets is an expression with the number that it was made of, in decimal
or in octal digits, and has the width that is asked for if the number has room in it. -/
theorem numericMicro_readsBack (fields : Fields)
    (current : context.moduleIndex < context.modules.length)
    (named : Fields.isIdentifier fields.location)
    (parts : Fields.subfields fields.operand = expr :: rest)
    (evaluated : ((evaluateOperand expr).run context).1 = some evaluation)
    (fixed : evaluation.value.isRelocatable = false)
    (native : evaluation.value.isExternal = false)
    (asks : AsksWidth ((evaluateOperand expr).run context).2 rest width?) :
    ((∀ width ∈ width?, (signedDecimal evaluation.value.numeric).length ≤ width.toNat) →
        ∃ text, ((Directive.defineDecimalMicro.run fields).run context).2.findMicro?
            fields.location = some text ∧ ReadsBack 10 text evaluation.value.numeric ∧
          ∀ width ∈ width?, text.length = width.toNat) ∧
      ((∀ width ∈ width?, (Text.octal 1 evaluation.value.numeric.toNat).length ≤ width.toNat) →
        ∃ text, ((Directive.defineOctalMicro.run fields).run context).2.findMicro?
            fields.location = some text ∧ ReadsBack 8 text evaluation.value.numeric ∧
          ∀ width ∈ width?, text.length = width.toNat) := by
  constructor
  · intro room
    exact defineNumericMicro_stores signedDecimal fields (by decide) current named parts evaluated
      fixed native asks (denotes_signedDecimal _) room
  · intro room
    exact defineNumericMicro_stores (fun word => Text.octal 1 word.toNat) fields (by decide) current
      named parts evaluated fixed native asks (denotes_octal _) room

/-- The least number, filled to 25 characters in decimal and to 22 in octal digits. -/
theorem numericMicro_readsBack_least :
    let context := (Context.initial {} ⟨"", "", ""⟩ "MAIN").startPass .one
    let decimal : Fields := ⟨"D", "DECMIC", "-9223372036854775807-1,25", 19⟩
    let octal : Fields := ⟨"D", "OCTMIC", "-9223372036854775807-1,22", 19⟩
    ((evaluateOperand "-9223372036854775807-1").run context).1 =
        some ⟨.absolute 0x8000000000000000, false, []⟩ ∧
      (∃ text, ((Directive.defineDecimalMicro.run decimal).run context).2.findMicro? "D" =
        some text ∧ ReadsBack 10 text 0x8000000000000000 ∧ text.length = 25) ∧
      ∃ text, ((Directive.defineOctalMicro.run octal).run context).2.findMicro? "D" =
        some text ∧ ReadsBack 8 text 0x8000000000000000 ∧ text.length = 22 := by
  intro context decimal octal
  have evaluated : ((evaluateOperand "-9223372036854775807-1").run context).1 =
      some ⟨.absolute 0x8000000000000000, false, []⟩ := by decide +kernel
  have current : context.moduleIndex < context.modules.length := Nat.one_pos
  have wide : AsksWidth ((evaluateOperand "-9223372036854775807-1").run context).2 ["25"] (some 25) :=
    .width (by decide +kernel)
  have narrow : AsksWidth ((evaluateOperand "-9223372036854775807-1").run context).2 ["22"] (some 22) :=
    .width (by decide +kernel)
  obtain ⟨text, found, again, filled⟩ := (numericMicro_readsBack decimal current (by decide)
    (by decide) evaluated rfl rfl wide).1 (by rintro _ ⟨⟩; decide)
  obtain ⟨other, stored, back, padded⟩ := (numericMicro_readsBack octal current (by decide)
    (by decide) evaluated rfl rfl narrow).2 (by rintro _ ⟨⟩; decide)
  exact ⟨evaluated, ⟨text, found, again, filled 25 rfl⟩, other, stored, back, padded 22 rfl⟩

end Storing

end Asm

end CrayAssembler
