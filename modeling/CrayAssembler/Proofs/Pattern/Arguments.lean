import CrayAssembler.InstructionSet
import CrayAssembler.Proofs.Pattern.Soundness
import CrayAssembler.Proofs.Token.Registers
import Mathlib.Data.List.Forall2

namespace CrayAssembler

open Matcher (Arg)

/-- The designators of the class have numbers. -/
def RegisterClass.numbered : RegisterClass → Bool
  | .semaphores | .ca | .ce | .ci | .cl | .mc | .rt | .vl | .vm | .xa => false
  | _ => true

namespace Matcher

/-- The items of a pattern that take an argument. -/
def slots (items : List PatternItem) : List PatternItem :=
  items.filter fun
    | .register .. | .expression => true
    | _ => false

/-- An argument that an item takes. -/
inductive Suits : PatternItem → Arg → Prop
  | register {register : Register} {number : Option Nat} (valid : register.Valid)
      (same : ∀ n ∈ number, register.number = n) :
      Suits (.register register.kind number) (.register register.number)
  | expression (expr : Expr) : Suits .expression (.expression expr)

section Suiting

variable {anyCase : Bool} {text : List Char} {items : List PatternItem} {tokens : List Token}
  {args : List Arg} {n : Nat}

theorem Takes.tail_valid {item : PatternItem} {rest : List Token} {arg : Option Arg}
    (takes : Takes anyCase text item tokens arg rest) (valid : ∀ token ∈ tokens, token.Valid) :
    ∀ token ∈ rest, token.Valid := by
  cases takes with
  | expression => exact (List.forall_mem_append.mp valid).2
  | comma | general | named | operator | mnemonic => exact (List.forall_mem_cons.mp valid).2

/-- Items take their arguments one by one. -/
theorem Fits.suits (fits : Fits anyCase text items tokens args)
    (valid : ∀ token ∈ tokens, token.Valid) : List.Forall₂ Suits (slots items) args := by
  induction fits with
  | nil => exact .nil
  | cons takes _ ih =>
    have rest := ih (takes.tail_valid valid)
    cases takes with
    | comma | operator | mnemonic => exact rest
    | expression => exact .cons (.expression _) rest
    | general kind =>
      exact .cons (.register ((List.forall_mem_cons.mp valid).1 _ kind) nofun) rest
    | named kind =>
      refine .cons (.register ((List.forall_mem_cons.mp valid).1 _ kind) ?_) rest
      rintro _ ⟨⟩
      rfl

theorem Instance.suits {result operand : String} (fits : Instance anyCase items
    (.ofText result anyCase) (.ofText operand anyCase) args) :
    List.Forall₂ Suits (slots items) args := by
  obtain ⟨before, after, first, second, rfl, fitsResult, fitsOperand, rfl⟩ := fits
  unfold slots
  rw [List.filter_append]
  exact List.rel_append (fitsResult.suits (valid_tokenize _ _)) (fitsOperand.suits (valid_tokenize _ _))

theorem getElem?_of_suits {slots : List PatternItem} (suits : List.Forall₂ Suits slots args)
    {item : PatternItem} (found : slots[n]? = some item) : ∃ arg, args[n]? = some arg ∧ Suits item arg := by
  induction suits generalizing n with
  | nil => nomatch found
  | @cons first arg _ _ one _ ih =>
    cases n with
    | zero =>
      obtain rfl : first = item := Option.some.inj found
      exact ⟨arg, rfl, one⟩
    | succ n => exact ih found

end Suiting

end Matcher

namespace InstructionSet

open Matcher (slots Suits)

/-- The argument that a field comes from. -/
def Part.argument? : Part → Option Nat
  | register arg => some arg
  | fixed _ => none

/-- A field comes from a register, or holds a number that is less than `count`. -/
def Part.fits (count : Nat) : Part → Bool
  | register _ => true
  | fixed value => value < count

namespace Encoding

/-- The arguments that are registers, each with how many numbers its place can hold. -/
def registers : Encoding → List (Nat × Nat)
  | fields _ i j k => ([i, j, k].filterMap Part.argument?).map (·, 8)
  | wide _ i jk => i.argument?.toList.map (·, 8) ++ jk.argument?.toList.map (·, 64)
  | constant .. | branch .. => []
  | memory _ i _ index => (i, 8) :: index.toList.map (·, 8)
  | loadA i _ | loadS i _ | shift _ i _ _ => [(i, 8)]
  | setSemaphore jk _ | testSemaphore jk _ => [(jk, 64)]

/-- The arguments that are expressions. -/
def expressions : Encoding → List Nat
  | fields .. | wide .. | constant .. => []
  | branch _ address => [address]
  | memory _ _ address _ => address.toList
  | loadA _ value | loadS _ value | shift _ _ value _ | setSemaphore _ value |
    testSemaphore _ value => [value]

/-- The numbers of the encoding itself are not cut. -/
def fits : Encoding → Bool
  | fields gh i j k => gh < 0o200 && i.fits 8 && j.fits 8 && k.fits 8
  | wide gh i jk => gh < 0o200 && i.fits 8 && jk.fits 64
  | constant gh ijk => gh < 0o200 && ijk < 0o1000
  | branch gh _ | shift gh .. => gh < 0o200
  | memory g .. => g < 0o20
  | loadA .. | loadS .. | setSemaphore .. | testSemaphore .. => true

end Encoding

namespace Rule

/-- The number of an argument is in the code, or is the same as one that is. -/
def tells (rule : Rule) (arg : Nat) : Bool :=
  let known := rule.encoding.registers.map (·.1)
  known.contains arg || rule.same.any fun (first, second) =>
    first = arg && known.contains second || second = arg && known.contains first

/-- An item is a register of a class with at most so many numbers. -/
def isRegister (count : Nat) : PatternItem → Bool
  | .register kind _ => kind.count ≤ count
  | _ => false

/-- A rule and the items of its pattern go together. -/
structure Agrees (items : List PatternItem) (rule : Rule) : Prop where
  registers : ∀ place ∈ rule.encoding.registers, (slots items)[place.1]?.any (isRegister place.2)
  expressions : ∀ arg ∈ rule.encoding.expressions, (slots items)[arg]? = some .expression
  same : ∀ pair ∈ rule.same, (slots items)[pair.1]?.any (isRegister 64) ∧
    (slots items)[pair.2]?.any (isRegister 64)
  told : ∀ slot ∈ (slots items).zipIdx, ∀ kind, slot.1 = .register kind none → kind.numbered →
    rule.tells slot.2
  fits : rule.encoding.fits

/-- What is to be checked of a row. -/
def checked (items : List PatternItem) (rule : Rule) : Bool :=
  (rule.encoding.registers.all fun place => (slots items)[place.1]?.any (isRegister place.2)) &&
  (rule.encoding.expressions.all fun arg => (slots items)[arg]? = some .expression) &&
  (rule.same.all fun pair => (slots items)[pair.1]?.any (isRegister 64) &&
    (slots items)[pair.2]?.any (isRegister 64)) &&
  ((slots items).zipIdx.all fun slot =>
    match slot.1 with
    | .register kind none => !kind.numbered || rule.tells slot.2
    | _ => true) &&
  rule.encoding.fits

theorem agrees_of_checked {items : List PatternItem} {rule : Rule} (check : rule.checked items = true) :
    rule.Agrees items := by
  unfold checked at check
  simp only [Bool.and_eq_true, List.all_eq_true, decide_eq_true_eq, Option.all_eq_true] at check
  obtain ⟨⟨⟨⟨registers, expressions⟩, same⟩, told⟩, fits⟩ := check
  refine ⟨registers, expressions, same, fun slot member kind item numbered => ?_, fits⟩
  have known := told slot member
  rw [item] at known
  dsimp only at known
  rw [numbered] at known
  exact known

end Rule

end InstructionSet

end CrayAssembler
