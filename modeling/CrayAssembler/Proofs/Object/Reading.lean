import CrayAssembler.Object.Reader
import CrayAssembler.Proofs.Machine.Packing

namespace CrayAssembler

theorem SectionType.ofNumber?_number (type : SectionType) :
    SectionType.ofNumber? type.number = some type := by
  cases type <;> decide

theorem Residency.ofNumber?_number (residency : Residency) :
    Residency.ofNumber? residency.number = some residency := by
  cases residency <;> decide

theorem AddressKind.ofCode?_code (kind : AddressKind) :
    AddressKind.ofCode? (UInt64.ofNat kind.code).toNat = some kind := by
  cases kind <;> decide

namespace Object

/-- The kind and unit of an entry leave its index and width alone. -/
theorem entryWord_eq (kind : EntryKind) (parcel : Bool) (index : Word) (fieldLength : UInt32)
    (small : index.toNat < 2 ^ 30) :
    ∃ low flags : Word,
      entryWord kind parcel index fieldLength = low ||| flags ∧
      low.toNat = index.toNat * 2 ^ 32 + fieldLength.toNat ∧
      flags >>> 32 &&& indexMask = 0 ∧ flags.toUInt32 = 0 ∧
      (flags &&& extendedBit ≠ 0 ↔ kind = .extended) ∧ (flags &&& parcelBit ≠ 0 ↔ parcel) := by
  have masked : index &&& indexMask = index := by
    have mask : indexMask.toNat = 2 ^ 30 - 1 := by decide
    apply UInt64.toNat_inj.mp
    rw [Word.toNat_and_mask _ mask, Nat.mod_eq_of_lt small]
  have width : fieldLength.toUInt64.toNat = fieldLength.toNat := UInt32.toNat_toUInt64 _
  have fits : fieldLength.toUInt64.toNat < 2 ^ (32 : Word).toNat := by
    rw [width]
    exact fieldLength.toNat_lt
  have sum := Word.toNat_shiftLeft_or index fieldLength.toUInt64 32 (by decide) fits
  have shift : (32 : Word).toNat = 32 := rfl
  refine ⟨index <<< 32 ||| fieldLength.toUInt64,
    (if kind = .extended then extendedBit else 0) ||| (if parcel then parcelBit else 0),
    ?_, ?_, ?_, ?_, ?_, ?_⟩
  · rw [entryWord, masked, UInt64.or_assoc]
  · rw [sum, width, shift]
    omega
  all_goals cases kind <;> cases parcel <;> decide

theorem attributeWord_toNat (block : Block) (small : block.index.toNat < 2 ^ 32) :
    block.attributeWord.toNat =
      block.index.toNat * 2 ^ 32 + block.type.number * 256 + block.residency.number := by
  have type : (UInt64.ofNat block.type.number).toNat = block.type.number ∧
      block.type.number < 8 := by
    cases block.type <;> decide
  have residency : (UInt64.ofNat block.residency.number).toNat = block.residency.number ∧
      block.residency.number < 4 := by
    cases block.residency <;> decide
  have shift : (32 : Word).toNat = 32 ∧ (8 : Word).toNat = 8 := ⟨rfl, rfl⟩
  have kinds := Word.toNat_shiftLeft_or (UInt64.ofNat block.type.number)
    (UInt64.ofNat block.residency.number) 8 (by decide) (by rw [residency.1, shift.2]; omega)
  rw [type.1, residency.1, shift.2] at kinds
  have all := Word.toNat_shiftLeft_or block.index
    (UInt64.ofNat block.type.number <<< 8 ||| UInt64.ofNat block.residency.number) 32 (by decide)
    (by rw [kinds, shift.1]; omega)
  rw [Block.attributeWord, UInt64.or_assoc, all, kinds, shift.1]
  omega

theorem RecordType.ofNumber?_number (type : RecordType) :
    RecordType.ofNumber? type.number = some type := by
  cases type <;> decide

namespace Read

/-- Reading takes exactly `words` from the record that they begin, and gives `value`. What is left
of a record is never more than the whole record, which is how its counts are judged. -/
def Reads {α : Type} (read : ReadM α) (words : List Word) (value : α) : Prop :=
  ∀ (rest : List Word) (position length : Nat), words.length + rest.length ≤ length →
    length ≤ 2 ^ 56 → read.run ⟨words ++ rest, position, length⟩ =
      .ok (value, ⟨rest, position + words.length, length⟩)

theorem run_bind_of_ok {α β : Type} {read : ReadM α} {next : α → ReadM β} {cursor after : Cursor}
    {value : α} (ok : read.run cursor = .ok (value, after)) :
    (read >>= next).run cursor = (next value).run after := by
  rw [StateT.run_bind, ok]
  rfl

namespace Reads

theorem pure {α : Type} (value : α) : Reads (Pure.pure value) [] value := by
  intro rest position length _ _
  rfl

theorem bind {α β : Type} {read : ReadM α} {next : α → ReadM β} {first second : List Word}
    {value : α} {result : β} (head : Reads read first value)
    (tail : Reads (next value) second result) : Reads (read >>= next) (first ++ second) result := by
  intro rest position length room bound
  rw [List.length_append] at room
  have here := head (second ++ rest) position length (by rw [List.length_append]; omega) bound
  have there := tail rest (position + first.length) length (by omega) bound
  rw [List.append_assoc, run_bind_of_ok here, there, List.length_append, Nat.add_assoc]

theorem bindNothing {α β : Type} {read : ReadM α} {next : α → ReadM β} {words : List Word}
    {value : α} {result : β} (head : Reads read words value)
    (tail : Reads (next value) [] result) : Reads (read >>= next) words result := by
  have both := head.bind tail
  rwa [List.append_nil] at both

/-- What follows reads nothing more. -/
theorem last {α β : Type} {read : ReadM α} {words : List Word} {value : α} (f : α → β)
    (reads : Reads read words value) :
    Reads (read >>= fun value => Pure.pure (f value)) words (f value) :=
  reads.bindNothing (pure (f value))

end Reads

theorem reads_word (first : Word) : Reads word [first] first := by
  intro rest position length _ _
  rfl

theorem reads_takeWords (words : List Word) : Reads (takeWords words.length) words words := by
  intro rest position length _ _
  have enough : ¬(words ++ rest).length < words.length := by
    rw [List.length_append]
    omega
  simp only [takeWords, StateT.run_bind, StateT.run_get, pure_bind, if_neg enough, StateT.run_set,
    StateT.run_pure, List.drop_left, List.take_left]
  rfl

theorem run_count {n : Nat} (rest : List Word) (position length : Nat) (bounded : n ≤ length * 8)
    (bound : length ≤ 2 ^ 56) :
    count.run ⟨UInt64.ofNat n :: rest, position, length⟩ = .ok (n, ⟨rest, position + 1, length⟩) := by
  have number := Word.toNat_ofNat_of_lt (show n < 2 ^ 64 by omega)
  change (if (UInt64.ofNat n).toNat ≤ length * 8 then Pure.pure (UInt64.ofNat n).toNat
    else fail .implausibleCount : ReadM Nat).run ⟨rest, position + 1, length⟩ = _
  rw [number, if_pos bounded]
  rfl

theorem reads_text (text : String) : Reads Read.text (textWords text) text := by
  intro rest position length room bound
  have packed : (Characters.pack (Text.bytes text.toList) (Text.bytes text.toList).length
      .leftZero).length = ((Text.bytes text.toList).length + 7) / 8 :=
    Characters.length_pack _ _ .leftZero
  rw [textWords, List.length_cons, packed] at room
  have number := run_count (Characters.pack (Text.bytes text.toList)
    (Text.bytes text.toList).length .leftZero ++ rest) position length
    (show (Text.bytes text.toList).length ≤ length * 8 by omega) bound
  have taken := reads_takeWords (Characters.pack (Text.bytes text.toList)
    (Text.bytes text.toList).length .leftZero) rest (position + 1) length
    (by rw [packed]; omega) bound
  rw [packed] at taken
  rw [Read.text, textWords, List.cons_append, countWord, run_bind_of_ok number,
    run_bind_of_ok taken]
  simp only [Characters.take_flatMap_bytes_pack, Text.ofBytes?_bytes]
  rw [List.length_cons, packed, Nat.add_comm (_ / 8), ← Nat.add_assoc]
  rfl

/-- Things written one after another are read back by reading that many times. -/
theorem reads_many {α β : Type} {read : ReadM β} {words : α → List Word} {value : α → β}
    (items : List α) (each : ∀ item ∈ items, Reads read (words item) (value item)) :
    Reads (many read items.length) (items.flatMap words) (items.map value) := by
  induction items with
  | nil => exact .pure []
  | cons item items ih =>
    have later := ih fun other member => each other (List.mem_cons_of_mem _ member)
    exact (each item List.mem_cons_self).bind (later.last (value item :: ·))

theorem length_le_flatMap {α : Type} (words : α → List Word) (items : List α)
    (each : ∀ item ∈ items, words item ≠ []) : items.length ≤ (items.flatMap words).length := by
  induction items with
  | nil => exact Nat.le_refl 0
  | cons item items ih =>
    have later := ih fun other member => each other (List.mem_cons_of_mem _ member)
    have here := List.length_pos_iff.mpr (each item List.mem_cons_self)
    rw [List.flatMap_cons, List.length_append, List.length_cons]
    omega

/-- A list with its number in front. That number is plausible, since nothing takes no words. -/
theorem reads_counted {α β : Type} {read : ReadM β} {words : α → List Word} {value : α → β}
    (items : List α) (each : ∀ item ∈ items, Reads read (words item) (value item))
    (nonempty : ∀ item ∈ items, words item ≠ []) :
    Reads (counted read) (countWord items :: items.flatMap words) (items.map value) := by
  intro rest position length room bound
  have fewer := length_le_flatMap words items nonempty
  rw [List.length_cons] at room
  have list := reads_many items each rest (position + 1) length (by omega) bound
  have number := run_count (items.flatMap words ++ rest) position length
    (show items.length ≤ length * 8 by omega) bound
  rw [counted, List.cons_append, countWord, run_bind_of_ok number, list, List.length_cons,
    Nat.add_assoc, Nat.add_comm 1]

/-- Words with their number in front. -/
theorem reads_countedWords (words : List Word) :
    Reads (count >>= takeWords) (countWord words :: words) words := by
  intro rest position length room bound
  rw [List.length_cons] at room
  have number := run_count (words ++ rest) position length
    (show words.length ≤ length * 8 by omega) bound
  have taken := reads_takeWords words rest (position + 1) length (by omega) bound
  rw [List.cons_append, countWord, run_bind_of_ok number, taken, List.length_cons, Nat.add_assoc,
    Nat.add_comm 1]

theorem textWords_ne_nil (text : String) : textWords text ≠ [] := List.cons_ne_nil _ _

theorem reads_block? (block : Option Word) (proper : block ≠ some noBlock) :
    Reads block? [blockWord block] block := by
  have found : (if blockWord block = noBlock then none else some (blockWord block)) = block := by
    cases block with
    | none => rfl
    | some index => exact if_neg fun same => proper (congrArg some same)
  have reads := (reads_word (blockWord block)).last fun index =>
    if index = noBlock then none else some index
  rwa [found] at reads

theorem reads_entry (kind : EntryKind) (parcel : Bool) (index : Word) (fieldLength : UInt32)
    (bitAddress : Word) (small : index.toNat < 2 ^ 30) :
    Reads entry [entryWord kind parcel index fieldLength, bitAddress]
      ⟨kind, parcel, index, fieldLength, bitAddress⟩ := by
  obtain ⟨low, flags, written, number, noIndex, noWidth, extended, isParcel⟩ :=
    entryWord_eq kind parcel index fieldLength small
  have width := fieldLength.toNat_lt
  have below : low.toNat < 2 ^ 62 := by omega
  have mask : indexMask.toNat = 2 ^ 30 - 1 := by decide
  have high : extendedBit.toNat = 2 * 2 ^ 62 ∧ parcelBit.toNat = 1 * 2 ^ 62 := by decide
  have indexFound : (low ||| flags) >>> 32 &&& indexMask = index := by
    rw [UInt64.shiftRight_or, Word.or_and, noIndex, UInt64.or_zero]
    apply UInt64.toNat_inj.mp
    rw [Word.toNat_and_mask _ mask, UInt64.toNat_shiftRight, Nat.shiftRight_eq_div_pow, number]
    change (index.toNat * 2 ^ 32 + fieldLength.toNat) / 2 ^ 32 % 2 ^ 30 = index.toNat
    omega
  have widthFound : (low ||| flags).toUInt32 = fieldLength := by
    rw [UInt64.toUInt32_or, noWidth, UInt32.or_zero]
    apply UInt32.toNat_inj.mp
    rw [UInt64.toNat_toUInt32, number]
    omega
  have kindFound : (if (low ||| flags) &&& extendedBit ≠ 0 then EntryKind.extended
      else EntryKind.standard) = kind := by
    rw [Word.or_and, Word.and_eq_zero_of_lt high.1 below, UInt64.zero_or]
    cases kind with
    | standard => exact if_neg fun set => nomatch extended.mp set
    | extended => exact if_pos (extended.mpr rfl)
  have parcelFound : decide ((low ||| flags) &&& parcelBit ≠ 0) = parcel := by
    rw [Word.or_and, Word.and_eq_zero_of_lt high.2 below, UInt64.zero_or]
    exact Bool.eq_iff_iff.mpr (decide_eq_true_iff.trans isParcel)
  rw [written]
  refine (reads_word (low ||| flags)).bind ?_
  rw [indexFound, widthFound, kindFound, parcelFound]
  exact (reads_word bitAddress).last (Entry.mk kind parcel index fieldLength)

theorem reads_relocation (entry : Relocation) (small : entry.targetBlock.toNat < 2 ^ 30) :
    Reads relocation entry.words entry :=
  (reads_entry entry.kind entry.parcel entry.targetBlock entry.fieldLength entry.bitAddress
    small).last fun (e : Entry) =>
      Relocation.mk e.kind e.index e.bitAddress e.fieldLength e.parcel

theorem reads_externalReference (entry : ExternalReference)
    (small : entry.externalIndex.toNat < 2 ^ 30) : Reads externalReference entry.words entry :=
  (reads_entry entry.kind entry.parcel entry.externalIndex entry.fieldLength entry.bitAddress
    small).last fun (e : Entry) =>
      ExternalReference.mk e.kind e.index e.bitAddress e.fieldLength e.parcel

/-- A block as it is first described, without contents. -/
def bare (block : Block) : Block :=
  { block with image := none, relocations := [], externals := [] }

theorem reads_blockDescription (block : Block) (small : block.index.toNat < 2 ^ 32) :
    Reads blockDescription block.description (bare block) := by
  have number := attributeWord_toNat block small
  have type : block.type.number < 8 := by cases block.type <;> decide
  have residency : block.residency.number < 4 := by cases block.residency <;> decide
  have typeFound : (block.attributeWord >>> 8).toNat % 256 = block.type.number := by
    rw [UInt64.toNat_shiftRight, Nat.shiftRight_eq_div_pow, number]
    change (block.index.toNat * 2 ^ 32 + block.type.number * 256 + block.residency.number) /
      2 ^ 8 % 256 = block.type.number
    omega
  have residencyFound : block.attributeWord.toNat % 256 = block.residency.number := by
    rw [number]
    omega
  have indexFound : block.attributeWord >>> 32 = block.index := by
    apply UInt64.toNat_inj.mp
    rw [UInt64.toNat_shiftRight, Nat.shiftRight_eq_div_pow, number]
    change (block.index.toNat * 2 ^ 32 + block.type.number * 256 + block.residency.number) /
      2 ^ 32 = block.index.toNat
    omega
  refine (reads_text block.name).bind ((reads_word block.attributeWord).bind ?_)
  rw [typeFound, residencyFound, indexFound, SectionType.ofNumber?_number,
    Residency.ofNumber?_number]
  exact (reads_word block.size).bind ((reads_word block.origin).last fun origin =>
    { bare block with origin })

theorem reads_entryPoint (entry : EntryPoint) (proper : entry.block ≠ some noBlock) :
    Reads entryPoint entry.words entry := by
  refine (reads_text entry.name).bind ((reads_block? entry.block proper).bind
    ((reads_word entry.value).bind ?_))
  refine (reads_word (UInt64.ofNat entry.kind.code)).bind ?_
  rw [AddressKind.ofCode?_code]
  exact .pure entry

end Read

end Object

end CrayAssembler
