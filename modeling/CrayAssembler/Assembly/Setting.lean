import CrayAssembler.BoundedStack

namespace CrayAssembler

/-- How many values of a setting can be saved. -/
def settingDepth : Nat := 16

/-- A current value, and those that it has replaced. -/
structure Setting (α : Type) where
  current : α
  saved : BoundedStack α settingDepth

namespace Setting

variable {α : Type}

def make (current : α) : Setting α := ⟨current, .empty⟩

instance [Inhabited α] : Inhabited (Setting α) := ⟨make default⟩

/-- Save the current value and put a new one in its place. -/
def replace (setting : Setting α) (new : α) : Except StackError (Setting α) :=
  (setting.saved.push setting.current).map fun saved => ⟨new, saved⟩

/-- Go back to the value saved last. -/
def restore (setting : Setting α) : Except StackError (Setting α) :=
  setting.saved.pop.map fun (old, saved) => ⟨old, saved⟩

end Setting

end CrayAssembler
