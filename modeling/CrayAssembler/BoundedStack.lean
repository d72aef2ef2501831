import CrayAssembler.Diagnostic

namespace CrayAssembler

/-- A stack of at most `limit` items, the top one first. -/
structure BoundedStack (α : Type) (limit : Nat) where
  items : List α
  bounded : items.length ≤ limit
deriving DecidableEq

inductive StackError where
  | overflow
  | underflow
deriving DecidableEq, Repr

namespace StackError

def message : StackError → String
  | overflow => "stack is full"
  | underflow => "stack is empty"

/-- The diagnostic of a statement that nests too deep, or that restores what was never saved. -/
def kind : StackError → ErrorKind
  | overflow => .illegalNesting
  | underflow => .operandField

end StackError

namespace BoundedStack

variable {α : Type} {limit : Nat}

def empty : BoundedStack α limit := ⟨[], Nat.zero_le limit⟩

instance : Inhabited (BoundedStack α limit) := ⟨empty⟩

def size (stack : BoundedStack α limit) : Nat :=
  stack.items.length

def isFull (stack : BoundedStack α limit) : Bool :=
  limit ≤ stack.size

def push (stack : BoundedStack α limit) (item : α) : Except StackError (BoundedStack α limit) :=
  if room : stack.items.length < limit then .ok ⟨item :: stack.items, room⟩
  else .error .overflow

def pop : BoundedStack α limit → Except StackError (α × BoundedStack α limit)
  | ⟨[], _⟩ => .error .underflow
  | ⟨item :: rest, bounded⟩ => .ok (item, ⟨rest, Nat.le_of_succ_le bounded⟩)

def top? (stack : BoundedStack α limit) : Option α :=
  stack.items.head?

/-- Change the top item, if there is one. -/
def modifyTop (stack : BoundedStack α limit) (change : α → α) : BoundedStack α limit :=
  match stack with
  | ⟨[], bounded⟩ => ⟨[], bounded⟩
  | ⟨item :: rest, bounded⟩ => ⟨change item :: rest, bounded⟩

end BoundedStack

end CrayAssembler
