import CrayAssembler.Proofs.Module.Literals
import CrayAssembler.Proofs.Section.Image
import Mathlib.Algebra.GroupWithZero.Nat

namespace CrayAssembler

/-- A call that enters a literal. -/
structure LiteralCall where
  key : String
  words : List Word
deriving DecidableEq, Repr

/-- What an entry of a pool keeps of a literal, whatever words it is given. -/
def Literal.shape (literal : Literal) : String × Nat :=
  (literal.key, literal.words.length)

namespace LiteralCall

def shape (call : LiteralCall) : String × Nat :=
  (call.key, call.words.length)

/-- Number of words of some calls. -/
def total (calls : List LiteralCall) : Nat :=
  (calls.map (·.words.length)).sum

end LiteralCall

namespace LiteralStore

/-- Enter literals one after another, and tell the place of each. -/
def internAll (store : LiteralStore) : List LiteralCall → List Nat × LiteralStore
  | [] => ([], store)
  | call :: calls =>
    let (offset, next) := store.intern call.key call.words
    let (offsets, last) := next.internAll calls
    (offset :: offsets, last)

/-- The store that calls have left, of which the first was made to an empty one. -/
def ofCalls (calls : List LiteralCall) : LiteralStore :=
  (LiteralStore.empty.internAll calls).2

/-- The places that the calls were told. -/
def told (calls : List LiteralCall) : List Nat :=
  (LiteralStore.empty.internAll calls).1

theorem Linked.internAll {store : LiteralStore} (linked : store.Linked) (calls : List LiteralCall) :
    (store.internAll calls).2.Linked := by
  induction calls generalizing store with
  | nil => exact linked
  | cons call calls ih => exact ih (linked.intern call.key call.words)

end LiteralStore

namespace LiteralPool

/-- The pool with literals entered. -/
def after (pool : LiteralPool) (calls : List LiteralCall) : LiteralPool :=
  ⟨(pool.store.internAll calls).2, pool.linked.internAll calls⟩

variable {pool : LiteralPool} {key : String} {words : List Word} {calls : List LiteralCall}
  {entry : Literal}

section Shape

end Shape

section Place

end Place

section Latest

/-- A call that gives an entry the words that it has. -/
def fits (entry : Literal) (call : LiteralCall) : Bool :=
  call.shape = entry.shape

end Latest

end LiteralPool

namespace LiteralStore

variable {calls : List LiteralCall}

end LiteralStore

namespace LiteralPool

variable {pool : LiteralPool} {entry : Literal}

end LiteralPool

namespace Module

variable {module : Module}

/-- In a sound module nothing has been placed after the origin counter of the section of literals. -/
theorem Sound.reaches (sound : module.Sound) :
    (module.getSection literalsSection).block.Reaches
      (module.getSection literalsSection).originBits := by
  have member := mem_of_section? (section?_of_lt sound.literals_lt)
  exact fun image found => ((sound.sections _ member).framed image found).base_le

end Module

namespace LiteralPool

/-- Keys that come again, once with other words and once with another number of them, and an entry
without words. -/
def sampleCalls : List LiteralCall :=
  [⟨"A", [1]⟩, ⟨"'text of a literal'", [2, 3, 4]⟩, ⟨"A", [5]⟩, ⟨"''", []⟩, ⟨"A", [6, 7]⟩, ⟨"B", [8]⟩]

/-- A module with a word in the section of literals, and counters that stand within the next one. -/
def sampleModule : Module :=
  { Module.make "M" with literals := empty.after sampleCalls }.modifySection literalsSection fun sec =>
    { sec with
      originBits := 70
      locationBits := 70
      block := (ObjectBlock.empty.writeWords 0 [9]).1 }

example : LiteralStore.told sampleCalls = [0, 1, 0, 4, 0, 4] := by decide

end LiteralPool

end CrayAssembler
