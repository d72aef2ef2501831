import CrayAssembler.Pattern.Matcher

namespace CrayAssembler

/-- The items that can come next, with the places of the nodes after them. Where a pattern ends, also
the place of its handler. -/
structure Trie.Node where
  children : List (PatternItem × Nat) := []
  ending : Option Nat := none
deriving DecidableEq, Repr

structure Trie (α : Type) where
  nodes : Array Trie.Node
  handlers : Array α

namespace Trie

variable {α : Type}

/-- The root alone. -/
def empty : Trie α := ⟨#[{}], #[]⟩

/-- The number of patterns. -/
def size (trie : Trie α) : Nat :=
  trie.handlers.size

def Node.child? (node : Node) (item : PatternItem) : Option Nat :=
  (node.children.find? (·.1 = item)).map (·.2)

def child? (trie : Trie α) (place : Nat) (item : PatternItem) : Option Nat :=
  trie.nodes[place]?.bind (·.child? item)

def ending? (trie : Trie α) (place : Nat) : Option Nat :=
  trie.nodes[place]?.bind (·.ending)

/-- Whether an item of some kind can come next. -/
def startsWith (trie : Trie α) (place : Nat) (p : PatternItem → Bool) : Bool :=
  trie.nodes[place]?.any fun node => node.children.any fun link => p link.1

def handler? (trie : Trie α) (place : Nat) : Option α :=
  (trie.ending? place).bind (trie.handlers[·]?)

/-- Add a node after the one at `place`. -/
def addChild (trie : Trie α) (place : Nat) (item : PatternItem) : Trie α :=
  { trie with
    nodes := (trie.nodes.push {}).modify place fun node =>
      { node with children := node.children ++ [(item, trie.nodes.size)] } }

/-- Go on to the node after an item, which is added if there is none. -/
def enter (trie : Trie α) (place : Nat) (item : PatternItem) : Trie α × Nat :=
  match trie.child? place item with
  | some next => (trie, next)
  | none => (trie.addChild place item, trie.nodes.size)

def enterAll (trie : Trie α) (place : Nat) : List PatternItem → Trie α × Nat
  | [] => (trie, place)
  | item :: items =>
    let (trie, next) := trie.enter place item
    enterAll trie next items

/-- Let a pattern end at a node. -/
def endAt (trie : Trie α) (place : Nat) (handler : α) : Trie α where
  nodes := trie.nodes.modify place fun node => { node with ending := some trie.handlers.size }
  handlers := trie.handlers.push handler

/-- Add a pattern that is not yet present. -/
def insert (trie : Trie α) (pattern : String) (handler : α) : Except PatternError (Trie α) := do
  let items ← PatternItem.ofPattern pattern
  let (grown, last) := trie.enterAll 0 items
  if (grown.ending? last).isSome then throw (.duplicate pattern)
  return grown.endAt last handler

def ofPatterns (patterns : List (String × α)) : Except PatternError (Trie α) :=
  patterns.foldlM (fun trie (pattern, handler) => trie.insert pattern handler) empty

/-- The graph of the places of nodes. -/
def graph (trie : Trie α) : Matcher.Graph Nat α where
  child? := trie.child?
  startsWith := trie.startsWith
  handler? := trie.handler?

/-- Find the pattern of a statement. -/
def find (trie : Trie α) (result operand : Matcher.FieldTokens) (anyCase : Bool) :
    Except Matcher.MatchError (Matcher.Found α) :=
  trie.graph.find 0 result operand anyCase

end Trie

end CrayAssembler
