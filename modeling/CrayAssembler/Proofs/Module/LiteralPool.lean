import CrayAssembler.Module.Finish
import CrayAssembler.Proofs.Section.Buffer
import Mathlib.Data.List.TakeWhile

namespace CrayAssembler

namespace LiteralPool

variable {pool : LiteralPool} {key : String} {words : List Word}

theorem byKey_iff {index : Nat} : pool.store.byKey[key]? = some index ↔
    ∃ entry, pool.entries[index]? = some entry ∧ entry.key = key :=
  (pool.linked.byKey_iff key index).trans Option.map_eq_some_iff

theorem byKey_of_getElem? {index : Nat} {entry : Literal}
    (found : pool.entries[index]? = some entry) : pool.store.byKey[entry.key]? = some index :=
  byKey_iff.mpr ⟨entry, found, rfl⟩

theorem contains_iff : pool.contains key ↔ key ∈ pool.entries.map (·.key) := by
  unfold contains
  rw [Std.TreeMap.contains_eq_isSome_getElem?, Option.isSome_iff_exists, List.mem_map]
  constructor
  · rintro ⟨index, known⟩
    obtain ⟨entry, found, same⟩ := byKey_iff.mp known
    exact ⟨entry, List.mem_of_getElem? found, same⟩
  · rintro ⟨entry, member, rfl⟩
    obtain ⟨index, found⟩ := List.getElem?_of_mem member
    exact ⟨index, byKey_of_getElem? found⟩

theorem size_eq (pool : LiteralPool) : pool.size = Literal.total pool.entries :=
  pool.linked.size_eq

/-- The place of a key is the number of words before its entry; of all words when there is none. -/
theorem offset_eq (pool : LiteralPool) (key : String) :
    pool.offset key = Literal.total (pool.entries.takeWhile (·.key ≠ key)) := by
  unfold offset find?
  cases known : pool.store.byKey[key]? with
  | none =>
    have whole : pool.entries.takeWhile (·.key ≠ key) = pool.entries := by
      refine List.takeWhile_eq_self_iff.mpr fun entry member => decide_eq_true fun same => ?_
      obtain ⟨index, found⟩ := List.getElem?_of_mem member
      rw [← same, byKey_of_getElem? found] at known
      nomatch known
    rw [whole]
    exact pool.size_eq
  | some index =>
    obtain ⟨entry, found, same⟩ := byKey_iff.mp known
    have before : pool.entries.takeWhile (·.key ≠ key) = pool.entries.take index := by
      obtain ⟨inside, rfl⟩ := List.getElem?_eq_some_iff.mp found
      have others : ∀ entry ∈ pool.entries.take index, decide (entry.key ≠ key) = true := by
        intro other member
        refine decide_eq_true fun alike => ?_
        obtain ⟨place, held⟩ := List.getElem?_of_mem member
        obtain ⟨short, -⟩ := List.getElem?_eq_some_iff.mp held
        rw [List.length_take] at short
        rw [List.getElem?_take_of_lt (by omega)] at held
        have first := byKey_of_getElem? held
        rw [alike, known] at first
        have := Option.some.inj first
        omega
      conv => lhs; rw [← List.take_append_drop index pool.entries]
      rw [List.takeWhile_append_of_pos others, List.drop_eq_getElem_cons inside,
        List.takeWhile_cons_of_neg (by simpa using same), List.append_nil]
    rw [before, Option.bind_some, found]
    exact pool.linked.offset_eq index entry found

/-- What entering a literal makes of an entry. -/
def replaced (key : String) (words : List Word) (entry : Literal) : Literal :=
  if entry.key = key then entry.update words else entry

@[simp] theorem key_replaced (entry : Literal) : (replaced key words entry).key = entry.key := by
  unfold replaced
  split
  · exact Literal.key_update
  · rfl

@[simp] theorem length_replaced (entry : Literal) :
    (replaced key words entry).words.length = entry.words.length := by
  unfold replaced
  split
  · exact Literal.length_update
  · rfl

theorem intern_eq (pool : LiteralPool) (key : String) (words : List Word) :
    pool.intern key words = (pool.offset key, pool.insert key words) := by
  refine Prod.ext ?_ rfl
  unfold intern LiteralStore.intern offset find?
  dsimp only
  cases pool.store.byKey[key]? <;> rfl

/-- Entering a literal replaces the words of the entry that has its key, or puts a new one after the
others. -/
theorem entries_insert (pool : LiteralPool) (key : String) (words : List Word) :
    (pool.insert key words).entries =
      if pool.contains key then pool.entries.map (replaced key words)
      else pool.entries ++ [⟨key, pool.size, words⟩] := by
  unfold contains
  rw [Std.TreeMap.contains_eq_isSome_getElem?]
  unfold insert intern LiteralStore.intern
  dsimp only [entries]
  cases known : pool.store.byKey[key]? with
  | none => rfl
  | some index =>
    rw [Option.isSome_some, if_pos rfl]
    refine List.ext_getElem? fun place => ?_
    rw [List.getElem?_modify, List.getElem?_map, Option.map_eq_map]
    refine Option.map_congr fun entry found => ?_
    have here : index = place ↔ entry.key = key := by
      constructor
      · rintro rfl
        obtain ⟨other, same, named⟩ := byKey_iff.mp known
        cases found.symm.trans same
        exact named
      · rintro rfl
        exact Option.some.inj (known.symm.trans (byKey_of_getElem? found))
    unfold replaced
    exact ite_congr (propext here) (fun _ => rfl) fun _ => rfl

theorem keys_insert (pool : LiteralPool) (key : String) (words : List Word) :
    (pool.insert key words).entries.map (·.key) =
      pool.entries.map (·.key) ++ if pool.contains key then [] else [key] := by
  rw [entries_insert]
  split
  · rw [List.map_map, List.append_nil]
    exact List.map_congr_left fun entry _ => key_replaced entry
  · exact List.map_append

theorem length_words (pool : LiteralPool) : pool.words.length = pool.size :=
  pool.size_eq.symm

/-- Literals that stand one after another have their words in a row. -/
theorem mapIdx_words {literals : List Literal} {start : Nat}
    (standing : ∀ (index : Nat) (entry : Literal), literals[index]? = some entry →
      entry.offset = start + Literal.total (literals.take index)) :
    (literals.flatMap fun entry => entry.words.mapIdx fun i word => (entry.offset + i, word)) =
      (literals.flatMap (·.words)).mapIdx fun i word => (start + i, word) := by
  induction literals generalizing start with
  | nil => rfl
  | cons first literals ih =>
    have here : first.offset = start := standing 0 first rfl
    have rest := @ih (start + first.words.length) fun index entry found => by
      rw [standing (index + 1) entry found, Nat.add_assoc, List.take_succ_cons]
      unfold Literal.total
      rw [List.flatMap_cons, List.length_append]
    rw [List.flatMap_cons, List.flatMap_cons, List.mapIdx_append, rest, here]
    refine congrArg _ (List.mapIdx_eq_mapIdx_iff.mpr fun i inside => ?_)
    rw [Nat.add_assoc, Nat.add_comm i]

theorem placedWords_eq (pool : LiteralPool) :
    pool.placedWords = pool.words.mapIdx fun i word => (0 + i, word) :=
  mapIdx_words fun index entry found =>
    (pool.linked.offset_eq index entry found).trans (Nat.zero_add _).symm

end LiteralPool

namespace ObjectBlock

theorem writePlaced_eq (block : ObjectBlock) (bitAddress start : Nat) (words : List Word) :
    block.writePlaced bitAddress (words.mapIdx fun i word => (start + i, word)) =
      block.writeWords (bitAddress + start * wordBits) words := by
  induction words generalizing block start with
  | nil => rfl
  | cons word words ih =>
    rw [List.mapIdx_cons, writePlaced, writeWords, Nat.add_zero]
    cases block.writeBits (bitAddress + start * wordBits) wordBits word with
    | error kind => rfl
    | ok written =>
      have rest := ih written (start + 1)
      rw [Nat.succ_mul, ← Nat.add_assoc] at rest
      dsimp only
      rw [← rest]
      refine congrArg _ (List.mapIdx_eq_mapIdx_iff.mpr fun i inside => ?_)
      rw [Nat.add_assoc, Nat.add_comm 1]

/-- The words of a pool are placed one after another. -/
theorem writePlaced_placedWords (block : ObjectBlock) (bitAddress : Nat) (pool : LiteralPool) :
    block.writePlaced bitAddress pool.placedWords = block.writeWords bitAddress pool.words := by
  rw [pool.placedWords_eq, writePlaced_eq, Nat.zero_mul, Nat.add_zero]

end ObjectBlock

namespace Module

/-- Placing the literal pool is writing its words at the end of its section. -/
theorem placeLiterals_eq (module : Module) :
    module.placeLiterals =
      (module.modifySection literalsSection fun _ =>
        { module.getSection literalsSection with
          block := ((module.getSection literalsSection).block.writeWords
            (module.getSection literalsSection).originBits module.literals.words).1 }.advance
              (module.literals.words.length * wordBits),
        ((module.getSection literalsSection).block.writeWords
          (module.getSection literalsSection).originBits module.literals.words).2) := by
  unfold placeLiterals
  dsimp only
  rw [ObjectBlock.writePlaced_placedWords, LiteralPool.length_words]

end Module

end CrayAssembler
