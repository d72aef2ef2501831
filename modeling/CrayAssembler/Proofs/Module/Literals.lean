import CrayAssembler.Proofs.Expr.Keys
import CrayAssembler.Proofs.Module.LiteralPool
import CrayAssembler.Proofs.Module.Sound

namespace CrayAssembler

namespace LiteralPool

/-- The words of the entry of a key. -/
def held? (pool : LiteralPool) (key : String) : Option (List Word) :=
  (pool.entries.find? (·.key = key)).map (·.words)

/-- Every entry has the words that its key tells. -/
def Counted (pool : LiteralPool) : Prop :=
  ∀ entry ∈ pool.entries, entry.words.length = wordCount entry.key

variable {pool : LiteralPool} {key : String} {words : List Word}

theorem contains_insert (pool : LiteralPool) (key : String) (words : List Word) (other : String) :
    (pool.insert key words).contains other = true ↔ key = other ∨ pool.contains other = true := by
  rw [contains_iff, contains_iff, keys_insert, List.mem_append]
  split
  case isTrue known =>
    refine ⟨fun held => .inr (held.resolve_right List.not_mem_nil), ?_⟩
    rintro (rfl | held)
    · exact .inl (contains_iff.mp known)
    · exact .inl held
  case isFalse =>
    rw [List.mem_singleton, eq_comm]
    exact Or.comm

theorem held?_isSome : (pool.held? key).isSome ↔ pool.contains key := by
  unfold held?
  rw [Option.isSome_map, List.find?_isSome, contains_iff, List.mem_map]
  exact exists_congr fun entry => and_congr_right fun _ => decide_eq_true_iff

theorem Counted.insert (counted : pool.Counted) (length : words.length = wordCount key) :
    (pool.insert key words).Counted := by
  intro entry member
  rw [entries_insert] at member
  split at member
  · obtain ⟨old, inside, rfl⟩ := List.mem_map.mp member
    rw [length_replaced, key_replaced]
    exact counted old inside
  · rcases List.mem_append.mp member with old | new
    · exact counted entry old
    · rw [List.mem_singleton.mp new]
      exact length

/-- The words that were entered last under a key are those of its entry. -/
theorem held?_insert (counted : pool.Counted) (length : words.length = wordCount key)
    (other : String) :
    (pool.insert key words).held? other = if key = other then some words else pool.held? other := by
  unfold held?
  rw [entries_insert]
  split
  case isTrue known =>
    have keys : ((fun entry : Literal => decide (entry.key = other)) ∘ replaced key words) =
        fun entry => decide (entry.key = other) := by
      funext entry
      exact congrArg (fun key => decide (key = other)) (key_replaced entry)
    rw [List.find?_map, keys, Option.map_map]
    cases found : pool.entries.find? (·.key = other) with
    | none =>
      have unknown := held?_isSome.mpr known
      unfold held? at unknown
      split
      case isTrue same =>
        rw [same, found] at unknown
        nomatch unknown
      case isFalse => rfl
    | some entry =>
      have named : entry.key = other := by simpa using List.find?_some found
      have counts := counted entry (List.mem_of_find?_eq_some found)
      change some (replaced key words entry).words = _
      unfold replaced
      by_cases same : key = other
      · have alike : entry.words.length = words.length := by rw [counts, named, ← same, length]
        rw [if_pos (named.trans same.symm), if_pos same, Literal.update, if_pos alike]
      · rw [if_neg fun here => same (here.symm.trans named), if_neg same]
        rfl
  case isFalse unknown =>
    have missing : ¬(pool.held? key).isSome := fun known => unknown (held?_isSome.mp known)
    rw [List.find?_append]
    by_cases same : key = other
    · subst same
      have none : pool.entries.find? (·.key = key) = none := by
        unfold held? at missing
        rw [Option.isSome_map] at missing
        exact Option.not_isSome_iff_eq_none.mp missing
      rw [none, if_pos rfl]
      simp
    · rw [if_neg same]
      simp [same]

theorem total_map_replaced (entries : List Literal) :
    Literal.total (entries.map (replaced key words)) = Literal.total entries := by
  refine Literal.total_congr ?_
  rw [List.map_map]
  exact List.map_congr_left fun entry _ => length_replaced entry

/-- An entry has its place as soon as its key is seen, and keeps it. -/
theorem offset_insert {other : String} (known : key = other ∨ pool.contains other) :
    (pool.insert key words).offset other = pool.offset other := by
  rw [offset_eq, offset_eq, entries_insert]
  split
  case isTrue =>
    have keys : ((fun entry : Literal => decide (entry.key ≠ other)) ∘ replaced key words) =
        fun entry => decide (entry.key ≠ other) := by
      funext entry
      exact congrArg (fun key => decide (key ≠ other)) (key_replaced entry)
    rw [List.takeWhile_map, keys, total_map_replaced]
  case isFalse unknown =>
    rw [List.takeWhile_append]
    split
    case isFalse => rfl
    case isTrue whole =>
      have all : pool.entries.takeWhile (fun entry => decide (entry.key ≠ other)) = pool.entries :=
        (List.takeWhile_prefix _).eq_of_length whole
      have absent : ¬pool.contains other := by
        intro present
        obtain ⟨entry, member, same⟩ := List.mem_map.mp (contains_iff.mp present)
        exact of_decide_eq_true (List.takeWhile_eq_self_iff.mp all entry member) same
      obtain rfl : key = other := known.resolve_right absent
      rw [all]
      unfold Literal.total
      simp

/-- The words of an entry stand in the pool at its place. -/
theorem words_held (held : pool.held? key = some words) :
    (pool.words.drop (pool.offset key)).take words.length = words := by
  unfold held? at held
  rw [offset_eq]
  unfold LiteralPool.words Literal.total
  generalize pool.entries = entries at held
  induction entries with
  | nil => nomatch held
  | cons entry entries ih =>
    by_cases same : entry.key = key
    · rw [List.find?_cons_of_pos (by simpa using same)] at held
      obtain rfl : entry.words = words := Option.some.inj held
      rw [List.takeWhile_cons_of_neg (by simpa using same)]
      simp
    · rw [List.find?_cons_of_neg (by simpa using same)] at held
      rw [List.takeWhile_cons_of_pos (by simpa using same), List.flatMap_cons, List.flatMap_cons,
        List.length_append, ← List.drop_drop, List.drop_left]
      exact ih held

end LiteralPool

/-- An image that holds just these words from a word on. -/
structure ImageWords.Spans (image : ImageWords) (base : Nat) (words : List Word) : Prop where
  base_eq : image.base = base
  toList_eq : image.toList = words

/-- A block that holds just these words from a word on. -/
def ObjectBlock.Spans (block : ObjectBlock) (base : Nat) (words : List Word) : Prop :=
  match block.image with
  | none => words = []
  | some image => image.Spans base words

namespace ObjectBlock

variable {block : ObjectBlock} {base : Nat} {words : List Word}

/-- What the image of a block is that has just these words. -/
theorem Spans.of_image (spans : block.Spans base words) :
    block.Reaches ((base + words.length) * wordBits) ∧
      (block.image.map (·.base)).getD (base + words.length) = base ∧
      (block.image.map (·.stop)).getD (base + words.length) = base + words.length ∧
      ∀ i < words.length, block.word (base + i) = words.getD i 0 := by
  have place : (base + words.length) * wordBits / wordBits = base + words.length :=
    Nat.mul_div_cancel _ (by decide)
  unfold Spans at spans
  unfold Reaches word
  rw [place]
  cases found : block.image with
  | none =>
    rw [found] at spans
    subst spans
    exact ⟨nofun, rfl, rfl, nofun⟩
  | some image =>
    rw [found] at spans
    obtain ⟨rfl, rfl⟩ := spans
    refine ⟨?_, rfl, rfl, fun i inside => ?_⟩
    · rintro _ ⟨⟩
      exact Nat.le_add_right _ _
    · change image.word (image.base + i) = _
      unfold ImageWords.word
      rw [if_neg (by omega), Nat.add_sub_cancel_left]

/-- A word is written after the others. -/
theorem Spans.writeBits (spans : block.Spans base words) (word : Word) :
    ∃ written, block.writeBits ((base + words.length) * wordBits) wordBits word = .ok written ∧
      written.Spans base (words ++ [word]) := by
  have place : (base + words.length) * wordBits / wordBits = base + words.length :=
    Nat.mul_div_cancel _ (by decide)
  obtain ⟨reaches, baseWord, stopWord, known⟩ := spans.of_image
  obtain ⟨next, accepted, written⟩ :=
    writeBits_of_reaches (by decide) (Nat.le_refl _) reaches word
  obtain ⟨image, found, base_eq, stop_eq⟩ := written.image
  rw [place, baseWord] at base_eq
  rw [place, stopWord] at stop_eq
  have length : image.toList.length = (words ++ [word]).length := by
    rw [List.length_append, List.length_singleton]
    unfold ImageWords.stop at stop_eq
    unfold wordBits at stop_eq
    omega
  refine ⟨next, accepted, ?_⟩
  unfold Spans
  rw [found]
  refine ⟨base_eq, List.ext_getElem length fun i inside _ => Word.eq_of_bits fun j short => ?_⟩
  have listed := ImageWords.bit_toList (List.getElem?_eq_getElem inside) short
  rw [listed, base_eq, ← bit_of_image found, written.bit, Nat.sub_self, Nat.zero_add]
  rw [length, List.length_append, List.length_singleton] at inside
  rcases Nat.lt_or_eq_of_le (Nat.le_of_lt_succ inside) with before | rfl
  · rw [if_neg (by unfold wordBits at *; omega), bit_of_word _ _ short, known i before,
      List.getElem_append_left before, List.getD_eq_getElem?_getD, List.getElem?_eq_getElem before,
      Option.getD_some]
  · rw [if_pos (by omega), List.getElem_append_right (Nat.le_refl _), Nat.add_sub_cancel_left]
    simp

theorem Spans.writeWords (spans : block.Spans base words) (more : List Word) :
    (block.writeWords ((base + words.length) * wordBits) more).1.Spans base (words ++ more) := by
  induction more generalizing block words with
  | nil =>
    rw [List.append_nil]
    exact spans
  | cons word more ih =>
    obtain ⟨written, accepted, longer⟩ := spans.writeBits word
    have rest := ih longer
    rw [List.length_append, List.length_singleton, ← Nat.add_assoc, Nat.add_mul _ 1, Nat.one_mul,
      List.append_assoc] at rest
    unfold ObjectBlock.writeWords
    rw [accepted]
    exact rest

end ObjectBlock

namespace Section

/-- Nothing has been placed in the section in this pass. -/
structure Blank (sec : Section) : Prop where
  image : sec.block.image = none
  first : sec.firstBits = none
  origin : sec.originBits = sec.originOffset * wordBits

theorem blank_restart (sec : Section) : sec.restart.Blank := ⟨rfl, rfl, rfl⟩

/-- The section with words placed at its end. -/
def withWords (sec : Section) (words : List Word) : Section :=
  { sec with block := (sec.block.writeWords sec.originBits words).1 }.advance
    (words.length * wordBits)

variable {sec : Section} {words : List Word}

/-- What is placed in a blank section is its image. -/
theorem Blank.toObject (blank : sec.Blank) (some : words ≠ []) (index : Nat) :
    ((sec.withWords words).toObject index).origin = UInt64.ofNat sec.originOffset ∧
      ((sec.withWords words).toObject index).image = .some ⟨0, words⟩ ∧
      (sec.withWords words).size ≠ 0 := by
  have positive : 0 < words.length * wordBits :=
    Nat.mul_pos (List.length_pos_iff.mpr some) (by decide)
  have spans : (sec.block.writeWords sec.originBits words).1.Spans sec.originOffset words := by
    have begun : sec.block.Spans sec.originOffset [] := by
      unfold ObjectBlock.Spans
      rw [blank.image]
    rw [blank.origin]
    exact begun.writeWords words
  unfold ObjectBlock.Spans at spans
  cases found : (sec.block.writeWords sec.originBits words).1.image with
  | none =>
    rw [found] at spans
    exact absurd spans some
  | some image =>
  rw [found] at spans
  have base : (sec.withWords words).baseWord = sec.originOffset := by
    unfold withWords baseWord
    rw [advance_of_pos _ positive]
    dsimp only
    rw [blank.first, Option.getD_none, blank.origin]
    exact Nat.mul_div_cancel _ (by decide)
  refine ⟨congrArg UInt64.ofNat base, ?_, ?_⟩
  · unfold Section.toObject
    dsimp only
    rw [base]
    unfold withWords
    rw [advance_block]
    dsimp only
    rw [found, Option.map_some, spans.base_eq, Nat.sub_self, spans.toList_eq]
    rfl
  · unfold size
    rw [base]
    unfold highWord withWords
    rw [advance_of_pos _ positive]
    dsimp only
    rw [blank.origin]
    unfold wordBits at positive ⊢
    omega

end Section

theorem Module.getSection_placeLiterals {module : Module} (sound : module.Sound) :
    module.placeLiterals.1.getSection literalsSection =
      (module.getSection literalsSection).withWords module.literals.words := by
  rw [placeLiterals_eq, getSection_modifySection, if_pos ⟨rfl, sound.literals_lt⟩]
  rfl

end CrayAssembler
