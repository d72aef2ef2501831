import CrayAssembler.Proofs.Object.RoundTrip

namespace CrayAssembler

namespace Word

theorem wordsOfBytes_of_short {left : List UInt8} (short : left.length < 8) :
    wordsOfBytes left = ([], left) := by
  refine wordsOfBytes.eq_2 left ?_
  rintro _ _ _ _ _ _ _ _ _ rfl
  simp only [List.length_cons] at short
  omega

/-- Words are divided out of their bytes, and bytes that make up no word are left over. -/
theorem wordsOfBytes_append (words : List Word) {left : List UInt8} (short : left.length < 8) :
    wordsOfBytes (words.flatMap bytes ++ left) = (words, left) := by
  induction words with
  | nil => exact wordsOfBytes_of_short short
  | cons word words ih =>
    have first : ofBytes [(word >>> 56).toUInt8, (word >>> 48).toUInt8, (word >>> 40).toUInt8,
        (word >>> 32).toUInt8, (word >>> 24).toUInt8, (word >>> 16).toUInt8, (word >>> 8).toUInt8,
        word.toUInt8] = word := ofBytes_bytes word
    simp only [List.flatMap_cons, bytes, List.cons_append, List.nil_append, wordsOfBytes]
    rw [first, ih]

/-- The first bytes of words are those of the first words and some of the next one. -/
theorem exists_words_of_prefix {words : List Word} {cut : List UInt8}
    (head : cut <+: words.flatMap bytes) :
    ∃ first left, first <+: words ∧ left.length < 8 ∧ cut = first.flatMap bytes ++ left := by
  induction words generalizing cut with
  | nil => exact ⟨[], [], List.nil_prefix, by decide, List.prefix_nil.mp head⟩
  | cons word words ih =>
    rw [List.flatMap_cons] at head
    by_cases short : cut.length < 8
    · exact ⟨[], cut, List.nil_prefix, short, rfl⟩
    · have whole : word.bytes <+: cut :=
        List.prefix_of_prefix_length_le (List.prefix_append ..) head (Nat.not_lt.mp short)
      obtain ⟨rest, rfl⟩ := whole
      obtain ⟨first, left, begins, few, rfl⟩ := ih ((List.prefix_append_right_inj _).mp head)
      refine ⟨word :: first, left, (List.prefix_cons_inj word).mpr begins, few, ?_⟩
      rw [List.flatMap_cons, List.append_assoc]

end Word

namespace Dataset

/-- Where the words of a dataset stop that was cut off. -/
def Stop.Cut (stop : Stop) : Prop :=
  stop = .missingEndOfData ∨ stop = .recordPastEnd

/-- An item that is cut off is not found. -/
theorem divideFrom_cut {item : Item} (short : ∀ words, item = .record words → words.length < 2 ^ 60)
    {cut : List Word} (head : cut <+: item.words) (lacks : cut ≠ item.words) (position : Nat) :
    ∃ stop, divideFrom position 0 cut = ([], ⟨position, stop⟩) ∧ stop.Cut := by
  cases cut with
  | nil => exact ⟨.missingEndOfData, rfl, .inl rfl⟩
  | cons word rest =>
    cases item with
    | endOfFile =>
      obtain ⟨rfl, empty⟩ := List.cons_prefix_cons.mp head
      rw [List.prefix_nil.mp empty] at lacks
      exact absurd rfl lacks
    | endOfData =>
      obtain ⟨rfl, empty⟩ := List.cons_prefix_cons.mp head
      rw [List.prefix_nil.mp empty] at lacks
      exact absurd rfl lacks
    | record words =>
      obtain ⟨rfl, part⟩ := List.cons_prefix_cons.mp head
      have small := short words rfl
      have missing : ¬words.length ≤ rest.length := by
        intro enough
        exact lacks (congrArg (_ :: ·) (part.eq_of_length_le enough))
      have notData : recordControl ≠ endOfDataControl := by decide
      have notFile : recordControl ≠ endOfFileControl := by decide
      refine ⟨.recordPastEnd, ?_, .inr rfl⟩
      simp only [divideFrom, recordControl_kind small, recordControl_length small, if_neg notData,
        if_neg notFile, if_true, if_neg missing]

/-- Words that were cut off are divided into the items that stand before the cut. -/
theorem divide_cut {items : List Item} (going : ∀ item ∈ items, item ≠ .endOfData)
    (short : ∀ words, .record words ∈ items → words.length < 2 ^ 60) {cut : List Word}
    (head : cut <+: words (items ++ [.endOfData])) (lacks : cut ≠ words (items ++ [.endOfData])) :
    (divide cut).1.map (·.value) <+: items ∧ (divide cut).2.value.Cut := by
  suffices ∀ position, (divideFrom position 0 cut).1.map (·.value) <+: items ∧
      (divideFrom position 0 cut).2.value.Cut from this 0
  induction items generalizing cut with
  | nil =>
    intro position
    have mark : ∀ words, Item.endOfData = .record words → words.length < 2 ^ 60 := nofun
    obtain ⟨stop, divided, isCut⟩ := divideFrom_cut mark head lacks position
    rw [divided]
    exact ⟨List.nil_prefix, isCut⟩
  | cons item items ih =>
    intro position
    have written : words (item :: items ++ [.endOfData]) =
        item.words ++ words (items ++ [.endOfData]) := List.flatMap_cons
    have own : ∀ words, item = .record words → words.length < 2 ^ 60 :=
      fun words same => short words (same ▸ List.mem_cons_self)
    rw [written] at head lacks
    -- The cut falls in the first item, or that item is whole and the cut falls behind it.
    by_cases whole : item.words <+: cut
    · obtain ⟨rest, rfl⟩ := whole
      have later := ih (fun other member => going other (List.mem_cons_of_mem _ member))
        (fun words member => short words (List.mem_cons_of_mem _ member))
        ((List.prefix_append_right_inj _).mp head) (fun same => lacks (by rw [same]))
        (position + item.words.length)
      rw [divideFrom_item item (going item List.mem_cons_self) own]
      exact ⟨(List.prefix_cons_inj item).mpr later.1, later.2⟩
    · have inside : cut <+: item.words :=
        (List.prefix_or_prefix_of_prefix head (List.prefix_append ..)).resolve_right whole
      obtain ⟨stop, divided, isCut⟩ := divideFrom_cut own inside
        (fun same => whole (same ▸ List.prefix_rfl)) position
      rw [divided]
      exact ⟨List.nil_prefix, isCut⟩

end Dataset

namespace Object

namespace Read

/-- What can be taken as a whole can be taken up to any place. -/
theorem Taken.head {items : List Dataset.Item} {before after : Progress}
    (taken : Taken items before after) {located : List (Dataset.Located Dataset.Item)}
    (head : located.map (·.value) <+: items) :
    ∃ middle, located.foldlM item before = .ok middle := by
  obtain ⟨rest, rfl⟩ := head
  have whole := taken (located ++ rest.map (⟨0, ·⟩)) (by
    rw [List.map_append, List.map_map]
    exact congrArg (_ ++ ·) (List.map_id rest))
  rw [List.foldlM_append] at whole
  cases found : located.foldlM item before with
  | ok middle => exact ⟨middle, rfl⟩
  | error error =>
    rw [found] at whole
    nomatch whole

/-- Data that was cut off is refused, whatever was read before the cut. -/
theorem finish_cut (progress : Progress) {stop : Dataset.Located Dataset.Stop}
    (isCut : stop.value.Cut) :
    ∃ error, finish progress stop = .error error ∧
      error.fault ∈ [.missingEndOfData, .recordPastEnd] := by
  obtain ⟨position, value⟩ := stop
  rcases isCut with rfl | rfl
  · exact ⟨_, rfl, List.mem_cons_self⟩
  · exact ⟨_, rfl, List.mem_cons_of_mem _ List.mem_cons_self⟩

end Read

/-- The items of modules can be told by their control words, and none of them ends the data. -/
theorem divisible_items (modules : List Module) (writable : ∀ module ∈ modules, module.Writable) :
    (∀ item ∈ modules.flatMap Module.items, item ≠ .endOfData) ∧
      ∀ words, .record words ∈ modules.flatMap Module.items → words.length < 2 ^ 60 := by
  constructor
  · rintro item member rfl
    obtain ⟨module, -, inModule⟩ := List.mem_flatMap.mp member
    exact module.endOfData_not_mem_items inModule
  · intro words member
    obtain ⟨module, inModules, inModule⟩ := List.mem_flatMap.mp member
    have bound := (writable module inModules).record_short words inModule
    omega

/-- Bytes are read as words once they make up whole ones. -/
theorem read_append (words : List Word) {left : List UInt8} (short : left.length < 8) :
    read (words.flatMap Word.bytes ++ left) =
      if left.isEmpty then
        (Dataset.divide words).1.foldlM Read.item {} >>= fun progress =>
          Read.finish progress (Dataset.divide words).2
      else .error ⟨words.length, .notWholeWords⟩ := by
  rw [read, Word.wordsOfBytes_append words short]
  cases left <;> rfl

/-- An object file that was cut off anywhere is refused, and on account of the cut. -/
theorem read_truncated (modules : List Module) (writable : ∀ module ∈ modules, module.Writable)
    {cut : List UInt8} (head : cut <+: write modules) (shorter : cut.length < (write modules).length) :
    ∃ error, read cut = .error error ∧
      error.fault ∈ [.notWholeWords, .missingEndOfData, .recordPastEnd] := by
  rw [write_eq] at head shorter
  obtain ⟨words, left, begins, short, rfl⟩ := Word.exists_words_of_prefix head
  rw [read_append words short]
  split
  case isFalse => exact ⟨_, rfl, List.mem_cons_self⟩
  case isTrue whole =>
    rw [List.isEmpty_iff.mp whole, List.append_nil] at shorter
    have lacks : words ≠ Dataset.words (items modules) := by
      rintro rfl
      exact Nat.lt_irrefl _ shorter
    obtain ⟨going, small⟩ := divisible_items modules writable
    obtain ⟨before, isCut⟩ := Dataset.divide_cut going small begins lacks
    obtain ⟨last, taken⟩ := Read.taken_modules modules writable [] 0
    obtain ⟨progress, read⟩ := taken.head before
    obtain ⟨error, refused, fault⟩ := Read.finish_cut progress isCut
    change (Dataset.divide words).1.foldlM Read.item {} = _ at read
    rw [read]
    exact ⟨error, refused, List.mem_cons_of_mem _ fault⟩

/-- The file is cut behind an image whose last word looks like the mark at the end of the data. -/
theorem read_truncated_sampleModule :
    (write [sampleModule]).take 232 <+: write [sampleModule] ∧
      ((write [sampleModule]).take 232).length < (write [sampleModule]).length ∧
      ∃ error, read ((write [sampleModule]).take 232) = .error error ∧
        error.fault ∈ [.notWholeWords, .missingEndOfData, .recordPastEnd] := by
  have head : (write [sampleModule]).take 232 <+: write [sampleModule] := List.take_prefix ..
  have shorter : ((write [sampleModule]).take 232).length < (write [sampleModule]).length := by
    decide +kernel
  refine ⟨head, shorter, read_truncated _ (fun module member => ?_) head shorter⟩
  rw [List.mem_singleton.mp member]
  exact sampleModule_writable

end Object

end CrayAssembler
