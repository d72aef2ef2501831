import CrayAssembler.Machine.Word
import Std.Data.TreeMap

namespace CrayAssembler

structure Literal where
  key : String
  /-- Place in the section of literals, in words. -/
  offset : Nat
  words : List Word
deriving DecidableEq, Repr

namespace Literal

/-- The literal with other words, if there are as many of them. -/
def update (literal : Literal) (words : List Word) : Literal :=
  if literal.words.length = words.length then { literal with words } else literal

variable {literal : Literal} {words : List Word}

@[simp] theorem key_update : (literal.update words).key = literal.key := by
  unfold update
  split <;> rfl

@[simp] theorem offset_update : (literal.update words).offset = literal.offset := by
  unfold update
  split <;> rfl

@[simp] theorem length_update : (literal.update words).words.length = literal.words.length := by
  unfold update
  split
  case isTrue same => exact same.symm
  case isFalse => rfl

/-- Number of words of some literals. -/
def total (literals : List Literal) : Nat :=
  (literals.flatMap (·.words)).length

theorem total_congr {literals others : List Literal}
    (same : literals.map (·.words.length) = others.map (·.words.length)) :
    total literals = total others := by
  unfold total
  rw [List.length_flatMap, List.length_flatMap, same]

end Literal

/-- The literals of a module in the order of their first appearance. An entry is told by the text of
the literal and keeps the place that it was given when it was first seen, so that both passes agree
on it. -/
structure LiteralStore where
  entries : List Literal
  /-- Where the entry of a key stands. -/
  byKey : Std.TreeMap String Nat
  size : Nat

namespace LiteralStore

def empty : LiteralStore := ⟨[], ∅, 0⟩

/-- Enter a literal and tell its place. One that is seen for the first time is given its words at the
end; the words of one that is known are replaced, if their number is the same. -/
def intern (store : LiteralStore) (key : String) (words : List Word) : Nat × LiteralStore :=
  match store.byKey[key]? with
  | some index =>
    ((store.entries[index]?.map (·.offset)).getD store.size,
      { store with entries := store.entries.modify index (·.update words) })
  | none =>
    (store.size,
      { entries := store.entries ++ [⟨key, store.size, words⟩]
        byKey := store.byKey.insert key store.entries.length
        size := store.size + words.length })

/-- How the parts of a store go together: keys lead to the entries that have them, entries stand one
after another, and the size is that of all of them. -/
structure Linked (store : LiteralStore) : Prop where
  byKey_iff : ∀ key index, store.byKey[key]? = some index ↔
    store.entries[index]?.map Literal.key = some key
  offset_eq : ∀ (index : Nat) (entry : Literal), store.entries[index]? = some entry →
    entry.offset = Literal.total (store.entries.take index)
  size_eq : store.size = Literal.total store.entries

theorem linked_empty : LiteralStore.empty.Linked where
  byKey_iff key index := by
    rw [empty, Std.TreeMap.getElem?_emptyc]
    exact ⟨nofun, nofun⟩
  offset_eq := nofun
  size_eq := rfl

variable {store : LiteralStore} {key : String} {words : List Word}

theorem keys_modify (entries : List Literal) (index : Nat) (words : List Word) (place : Nat) :
    (entries.modify index (·.update words))[place]?.map Literal.key =
      entries[place]?.map Literal.key := by
  rw [List.getElem?_modify, Option.map_eq_map, Option.map_map]
  refine Option.map_congr fun entry _ => ?_
  dsimp only [Function.comp]
  split
  · exact Literal.key_update
  · rfl

theorem lengths_modify (entries : List Literal) (index : Nat) (words : List Word) :
    (entries.modify index (·.update words)).map (·.words.length) =
      entries.map (·.words.length) := by
  refine List.ext_getElem? fun place => ?_
  rw [List.getElem?_map, List.getElem?_map, List.getElem?_modify, Option.map_eq_map, Option.map_map]
  refine Option.map_congr fun entry _ => ?_
  dsimp only [Function.comp]
  split
  · exact Literal.length_update
  · rfl

/-- No key, place or number of words is changed with the words of an entry. -/
theorem Linked.modify (linked : store.Linked) (index : Nat) (words : List Word) :
    ({ store with entries := store.entries.modify index (·.update words) } : LiteralStore).Linked where
  byKey_iff other place := by
    rw [keys_modify]
    exact linked.byKey_iff other place
  offset_eq := by
    intro place entry found
    dsimp only at found ⊢
    rw [List.getElem?_modify, Option.map_eq_map, Option.map_eq_some_iff] at found
    obtain ⟨old, before, rfl⟩ := found
    have same : Literal.total ((store.entries.modify index (·.update words)).take place) =
        Literal.total (store.entries.take place) :=
      Literal.total_congr (by rw [List.map_take, List.map_take, lengths_modify])
    rw [same, ← linked.offset_eq place old before]
    split
    · exact Literal.offset_update
    · rfl
  size_eq := linked.size_eq.trans (Literal.total_congr (lengths_modify _ _ _)).symm

theorem Linked.append (linked : store.Linked) (unknown : store.byKey[key]? = none)
    (words : List Word) :
    ({ entries := store.entries ++ [⟨key, store.size, words⟩]
       byKey := store.byKey.insert key store.entries.length
       size := store.size + words.length } : LiteralStore).Linked where
  byKey_iff := by
    intro other place
    dsimp only
    rw [Std.TreeMap.getElem?_insert, List.getElem?_append]
    have fresh (i : Nat) : store.entries[i]?.map Literal.key ≠ some key := by
      intro found
      nomatch unknown.symm.trans ((linked.byKey_iff key i).mpr found)
    by_cases same : key = other
    · subst same
      rw [if_pos Std.ReflCmp.compare_self, Option.some.injEq]
      split
      case isTrue inside =>
        exact ⟨fun last => absurd inside (by omega), fun found => absurd found (fresh place)⟩
      case isFalse outside =>
        rw [List.getElem?_singleton]
        split
        case isTrue first => exact ⟨fun _ => rfl, fun _ => by omega⟩
        case isFalse later => exact ⟨fun last => absurd (by omega) later, nofun⟩
    · rw [if_neg (by simpa using same), linked.byKey_iff]
      split
      · rfl
      case isFalse outside =>
        rw [List.getElem?_eq_none (Nat.le_of_not_lt outside), List.getElem?_singleton]
        refine ⟨nofun, fun found => ?_⟩
        split at found
        · exact absurd (Option.some.inj found) same
        · nomatch found
  offset_eq := by
    intro place entry found
    dsimp only at found ⊢
    rw [List.getElem?_append] at found
    split at found
    case isTrue inside =>
      rw [List.take_append_of_le_length (Nat.le_of_lt inside)]
      exact linked.offset_eq place entry found
    case isFalse outside =>
      rw [List.getElem?_singleton] at found
      split at found
      case isFalse => nomatch found
      case isTrue first =>
        cases found
        have last : place = store.entries.length := by omega
        rw [last, List.take_left]
        exact linked.size_eq
  size_eq := by
    unfold Literal.total
    rw [List.flatMap_append, List.length_append, List.flatMap_singleton]
    exact congrArg (· + words.length) linked.size_eq

theorem Linked.intern (linked : store.Linked) (key : String) (words : List Word) :
    (store.intern key words).2.Linked := by
  unfold LiteralStore.intern
  split
  case h_1 index _ => exact linked.modify index words
  case h_2 unknown => exact linked.append unknown words

end LiteralStore

/-- The literal pool of a module. -/
structure LiteralPool where
  store : LiteralStore
  linked : store.Linked

namespace LiteralPool

def empty : LiteralPool := ⟨.empty, LiteralStore.linked_empty⟩

instance : Inhabited LiteralPool := ⟨empty⟩

def entries (pool : LiteralPool) : List Literal :=
  pool.store.entries

/-- Number of words of the entries. -/
def size (pool : LiteralPool) : Nat :=
  pool.store.size

def intern (pool : LiteralPool) (key : String) (words : List Word) : Nat × LiteralPool :=
  ((pool.store.intern key words).1, ⟨(pool.store.intern key words).2, pool.linked.intern key words⟩)

/-- The pool with a literal entered. -/
def insert (pool : LiteralPool) (key : String) (words : List Word) : LiteralPool :=
  (pool.intern key words).2

def contains (pool : LiteralPool) (key : String) : Bool :=
  pool.store.byKey.contains key

def find? (pool : LiteralPool) (key : String) : Option Literal :=
  pool.store.byKey[key]?.bind (pool.entries[·]?)

/-- The place of a key: that of its entry, or the one that it would get. -/
def offset (pool : LiteralPool) (key : String) : Nat :=
  ((pool.find? key).map (·.offset)).getD pool.size

/-- All words of the pool in order. -/
def words (pool : LiteralPool) : List Word :=
  pool.entries.flatMap (·.words)

/-- Entries with their places. -/
def placed (pool : LiteralPool) : List (Nat × Literal) :=
  pool.entries.map fun entry => (entry.offset, entry)

/-- The words of the entries with the place of each. -/
def placedWords (pool : LiteralPool) : List (Nat × Word) :=
  pool.entries.flatMap fun entry => entry.words.mapIdx fun i word => (entry.offset + i, word)

end LiteralPool

end CrayAssembler
