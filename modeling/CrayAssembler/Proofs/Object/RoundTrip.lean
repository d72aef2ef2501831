import CrayAssembler.Proofs.Object.Division
import CrayAssembler.Proofs.Object.Reading

namespace CrayAssembler

namespace Object

/-- What a module must satisfy to be told from its records: blocks have indices of their own, all
indices fit the fields that hold them, no block is the one that stands for none, and the length of
every record fits its first word. -/
structure Module.Writable (module : Module) : Prop where
  distinct : (module.blocks.map (·.index)).Nodup
  index_lt : ∀ block ∈ module.blocks, block.index.toNat < 2 ^ 32
  target_lt : ∀ block ∈ module.blocks, ∀ entry ∈ block.relocations,
    entry.targetBlock.toNat < 2 ^ 30
  external_lt : ∀ block ∈ module.blocks, ∀ entry ∈ block.externals,
    entry.externalIndex.toNat < 2 ^ 30
  entry_block : ∀ entry ∈ module.entries, entry.block ≠ some noBlock
  start_block : ∀ start, module.start = some start → start.block ≠ some noBlock
  record_short : ∀ words, .record words ∈ module.items → words.length ≤ 2 ^ 56

namespace Read

/-- Items lead from one state of reading to another, wherever in the file they stand. -/
def Taken (items : List Dataset.Item) (before after : Progress) : Prop :=
  ∀ located : List (Dataset.Located Dataset.Item), located.map (·.value) = items →
    located.foldlM item before = .ok after

namespace Taken

theorem nil (progress : Progress) : Taken [] progress progress := by
  intro located values
  rw [List.map_eq_nil_iff.mp values]
  rfl

theorem append {first second : List Dataset.Item} {before middle after : Progress}
    (head : Taken first before middle) (tail : Taken second middle after) :
    Taken (first ++ second) before after := by
  intro located values
  obtain ⟨left, right, rfl, leftValues, rightValues⟩ := List.map_eq_append_iff.mp values
  rw [List.foldlM_append, head left leftValues]
  exact tail right rightValues

theorem single {one : Dataset.Item} {before after : Progress}
    (taken : ∀ position, item before ⟨position, one⟩ = .ok after) : Taken [one] before after := by
  intro located values
  obtain ⟨⟨position, value⟩, rest, rfl, rfl, empty⟩ := List.map_eq_cons_iff.mp values
  rw [List.map_eq_nil_iff.mp empty, List.foldlM_cons, taken position]
  rfl

end Taken

theorem header_number (type : RecordType) {n : Nat} (short : n < 2 ^ 56) :
    ((UInt64.ofNat type.number <<< 56 ||| UInt64.ofNat n) >>> 56).toNat = type.number := by
  have length := Word.toNat_ofNat_of_lt (show n < 2 ^ 64 by omega)
  have code : (UInt64.ofNat type.number).toNat = type.number ∧ type.number < 8 := by
    cases type <;> decide
  have shift : (56 : Word).toNat = 56 := rfl
  have sum := Word.toNat_shiftLeft_or (UInt64.ofNat type.number) (UInt64.ofNat n) 56 (by decide)
    (by rw [length, shift]; exact short)
  rw [code.1, length, shift] at sum
  rw [UInt64.toNat_shiftRight, sum, Nat.shiftRight_eq_div_pow]
  change (type.number * 2 ^ 56 % 2 ^ 64 + n) / 2 ^ 56 = type.number
  omega

/-- A record is taken as its body is read. -/
theorem taken_record {type : RecordType} {body : List Word} {before after : Progress}
    (short : body.length < 2 ^ 56) (reads : Reads (recordBody before type) body after) :
    Taken [Object.record type body] before after := by
  have whole : Reads (record before)
      ([UInt64.ofNat type.number <<< 56 ||| UInt64.ofNat body.length] ++ body) after := by
    refine (reads_word _).bind ?_
    rw [header_number type short, RecordType.ofNumber?_number]
    exact reads
  refine .single fun position => ?_
  have run := whole [] (position + 1) (body.length + 1)
    (by rw [List.length_append, List.length_singleton, List.length_nil]; omega) (by omega)
  rw [List.append_nil] at run
  change ((record before).run ⟨_ :: body, position + 1, (_ :: body).length⟩).map (·.1) = _
  rw [List.length_cons]
  exact congrArg (Except.map (·.1)) run

/-- A record that belongs to a module changes the module that is being read. -/
theorem reads_recordBody {type : RecordType} (inner : type ≠ .programDescription)
    {done : List Module} {module changed : Module} {n : Nat} {body : List Word}
    (reads : Reads (part type module n) body changed) :
    Reads (recordBody ⟨done, some module, n⟩ type) body ⟨done, some changed, n⟩ := by
  have unfolded : recordBody ⟨done, some module, n⟩ type =
      (do return ⟨done, some (← part type module n), n⟩ : ReadM Progress) := by
    rw [recordBody, if_neg inner]
  rw [unfolded]
  exact reads.last fun module => (⟨done, some module, n⟩ : Progress)

/-- The module that a description gives. -/
def bareModule (module : Module) : Module :=
  { module with blocks := module.blocks.map bare, entries := [], externals := [], start := none }

theorem reads_description (module : Module)
    (small : ∀ block ∈ module.blocks, block.index.toNat < 2 ^ 32) :
    Reads description module.descriptionWords (bareModule module, module.entries.length) := by
  have flag : decide ((if module.absolute then (1 : Word) else 0) &&& 1 ≠ 0) = module.absolute := by
    cases module.absolute <;> decide
  have blocks : Reads (counted blockDescription) _ (module.blocks.map bare) :=
    reads_counted module.blocks
      (fun block member => reads_blockDescription block (small block member))
      (fun block _ => List.append_ne_nil_of_left_ne_nil (textWords_ne_nil block.name) _)
  have names : Reads (counted text) _ (module.entries.map (·.name)) :=
    reads_counted module.entries (fun entry _ => reads_text entry.name)
      (fun entry _ => textWords_ne_nil entry.name)
  rw [Module.descriptionWords, List.append_assoc, List.append_assoc, List.append_assoc]
  change Reads description (textWords module.name ++ ([if module.absolute then 1 else 0] ++
    ([module.stackSize] ++ (textWords module.comment ++ (_ ++ _))))) _
  refine (reads_text module.name).bind ((reads_word _).bind ((reads_word module.stackSize).bind
    ((reads_text module.comment).bind (blocks.bind ?_))))
  rw [flag]
  have last := names.last fun names => (bareModule module, names.length)
  rw [List.length_map] at last
  exact last

theorem taken_description (module : Module) (done : List Module) (n : Nat)
    (small : ∀ block ∈ module.blocks, block.index.toNat < 2 ^ 32)
    (short : module.descriptionWords.length < 2 ^ 56) :
    Taken [Object.record .programDescription module.descriptionWords] ⟨done, none, n⟩
      ⟨done, some (bareModule module), module.entries.length⟩ := by
  refine taken_record short ?_
  exact (reads_description module small).last fun found =>
    (⟨done, some found.1, found.2⟩ : Progress)

/-- The block that is changed is the one with the index. -/
theorem reads_modifyBlock {module : Module} {before after : List Block} {block : Block}
    (change : Block → Block) (blocks : module.blocks = before ++ block :: after)
    (fresh : ∀ other ∈ before, other.index ≠ block.index) :
    Reads (modifyBlock module block.index change) []
      { module with blocks := before ++ change block :: after } := by
  have place : module.blocks.findIdx? (·.index = block.index) = some before.length := by
    have none : before.findIdx? (·.index = block.index) = none := by
      rw [List.findIdx?_eq_none_iff]
      exact fun other member => decide_eq_false (fresh other member)
    rw [blocks, List.findIdx?_append, none, List.findIdx?_cons]
    simp
  have changed : module.blocks.modify before.length change = before ++ change block :: after := by
    rw [blocks, List.modify_eq_take_cons_drop (by simp), List.take_left, List.getElem_append_right
      (Nat.le_refl _), List.drop_append]
    simp
  have run : modifyBlock module block.index change =
      Pure.pure { module with blocks := before ++ change block :: after } := by
    simp only [modifyBlock, place, changed]
  rw [run]
  exact .pure _

/-- A round of records over the blocks of a module. The record of a block finds it, because every
block has an index of its own. -/
theorem taken_round {done : List Module} {shell : Module} {n : Nat} {blocks : List Block}
    (records : Block → List Dataset.Item) (old new : Block → Block)
    (each : ∀ block ∈ blocks, ∀ before after, (∀ other ∈ before, other.index ≠ block.index) →
      Taken (records block) ⟨done, some { shell with blocks := before ++ old block :: after }, n⟩
        ⟨done, some { shell with blocks := before ++ new block :: after }, n⟩)
    (kept : ∀ block, (new block).index = block.index) (distinct : (blocks.map (·.index)).Nodup) :
    Taken (blocks.flatMap records) ⟨done, some { shell with blocks := blocks.map old }, n⟩
      ⟨done, some { shell with blocks := blocks.map new }, n⟩ := by
  suffices ∀ todo passed, blocks = passed ++ todo → Taken (todo.flatMap records)
      ⟨done, some { shell with blocks := passed.map new ++ todo.map old }, n⟩
      ⟨done, some { shell with blocks := passed.map new ++ todo.map new }, n⟩ from this blocks [] rfl
  intro todo
  induction todo with
  | nil => exact fun passed _ => .nil _
  | cons block todo ih =>
    intro passed all
    have fresh : ∀ other ∈ passed.map new, other.index ≠ block.index := by
      intro other member
      obtain ⟨earlier, inPassed, rfl⟩ := List.mem_map.mp member
      rw [kept]
      rw [all, List.map_append, List.nodup_append] at distinct
      exact distinct.2.2 _ (List.mem_map_of_mem inPassed) _ (List.mem_map_of_mem List.mem_cons_self)
    have here := each block (by rw [all]; simp) (passed.map new) (todo.map old) fresh
    have later := ih (passed ++ [block]) (by rw [all]; simp)
    simp only [List.map_append, List.map_cons, List.map_nil, List.append_assoc, List.cons_append,
      List.nil_append] at later
    exact here.append later

/-- A block with its image. -/
def imaged (block : Block) : Block := { block with relocations := [], externals := [] }

/-- A block with its image and relocations. -/
def relocated (block : Block) : Block := { block with externals := [] }

theorem reads_image {shell : Module} {before after : List Block} {block : Block} (image : Image)
    (fresh : ∀ other ∈ before, other.index ≠ block.index) :
    Reads (Read.image { shell with blocks := before ++ block :: after })
      (block.index :: image.loadWord :: countWord image.words :: image.words)
      { shell with blocks := before ++ { block with image := some image } :: after } := by
  have filled : Reads (modifyBlock { shell with blocks := before ++ block :: after } block.index
      fun block => { block with image := some ⟨image.loadWord, image.words⟩ }) [] _ :=
    reads_modifyBlock _ rfl fresh
  have words : Reads ((count >>= takeWords) >>= fun words =>
      modifyBlock { shell with blocks := before ++ block :: after } block.index
        fun block => { block with image := some ⟨image.loadWord, words⟩ }) _ _ :=
    (reads_countedWords image.words).bindNothing filled
  rw [bind_assoc] at words
  exact (reads_word block.index).bind ((reads_word image.loadWord).bind words)

theorem taken_images {module : Module} (done : List Module) (n : Nat) (shell : Module)
    (distinct : (module.blocks.map (·.index)).Nodup)
    (short : ∀ body, Object.record .text body ∈ module.imageRecords → body.length < 2 ^ 56) :
    Taken module.imageRecords ⟨done, some { shell with blocks := module.blocks.map bare }, n⟩
      ⟨done, some { shell with blocks := module.blocks.map imaged }, n⟩ := by
  refine taken_round _ bare imaged ?_ (fun _ => rfl) distinct
  intro block member before after fresh
  cases found : block.image with
  | none =>
    have same : bare block = imaged block := by
      rw [bare, imaged, found]
    rw [same]
    exact .nil _
  | some image =>
    have written : Object.record .text (block.index :: image.loadWord :: countWord image.words ::
        image.words) ∈ module.imageRecords :=
      List.mem_flatMap.mpr ⟨block, member, by rw [found]; exact List.mem_singleton_self _⟩
    have filled : { bare block with image := some image } = imaged block := by
      rw [bare, imaged, found]
    refine taken_record (short _ written) (reads_recordBody (by decide) ?_)
    rw [← filled]
    exact reads_image image fresh

theorem tableRecords_eq_flatMap {α : Type} (module : Module) (type : RecordType)
    (table : Block → List α) (words : α → List Word) :
    module.tableRecords type table words = module.blocks.flatMap fun block =>
      if (table block).isEmpty then []
      else [Object.record type
        (block.index :: countWord (table block) :: (table block).flatMap words)] := by
  rw [Module.tableRecords]
  induction module.blocks with
  | nil => rfl
  | cons block blocks ih =>
    rw [List.flatMap_cons, ← ih, List.filter_cons]
    cases (table block).isEmpty <;> rfl

/-- A round of tables of one type. A block without a table of that type is left as it is. -/
theorem taken_tables {α : Type} {module : Module} (done : List Module) (n : Nat) (shell : Module)
    {type : RecordType} {table : Block → List α} {words : α → List Word} {read : ReadM α}
    {old new : Block → Block} {put : List α → Block → Block}
    (inner : type ≠ .programDescription)
    (reader : ∀ module, part type module n =
      (do modifyBlock module (← word) (put (← counted read))))
    (kept : ∀ block, (old block).index = block.index ∧ (new block).index = block.index)
    (filled : ∀ block, put (table block) (old block) = new block)
    (unfilled : ∀ block, table block = [] → old block = new block)
    (nonempty : ∀ entry, words entry ≠ [])
    (each : ∀ block ∈ module.blocks, ∀ entry ∈ table block, Reads read (words entry) entry)
    (distinct : (module.blocks.map (·.index)).Nodup)
    (short : ∀ body, Object.record type body ∈ module.tableRecords type table words →
      body.length < 2 ^ 56) :
    Taken (module.tableRecords type table words)
      ⟨done, some { shell with blocks := module.blocks.map old }, n⟩
      ⟨done, some { shell with blocks := module.blocks.map new }, n⟩ := by
  rw [tableRecords_eq_flatMap] at short ⊢
  refine taken_round _ old new ?_ (fun block => (kept block).2) distinct
  intro block member before after fresh
  by_cases empty : table block = []
  · rw [unfilled block empty, empty]
    exact .nil _
  · have some : (table block).isEmpty = false := by simpa using empty
    have bound := short (block.index :: countWord (table block) :: (table block).flatMap words)
      (List.mem_flatMap.mpr ⟨block, member, by rw [some]; exact List.mem_singleton_self _⟩)
    rw [some]
    refine taken_record bound (reads_recordBody inner ?_)
    rw [reader, ← filled]
    have entries : Reads (counted read) _ ((table block).map id) :=
      reads_counted (table block) (each block member) (fun entry _ => nonempty entry)
    rw [List.map_id] at entries
    have change : Reads (modifyBlock { shell with blocks := before ++ old block :: after }
        (old block).index (put (table block))) [] _ :=
      reads_modifyBlock _ rfl (by rw [(kept block).1]; exact fresh)
    rw [(kept block).1] at change
    exact (reads_word block.index).bind (entries.bindNothing change)

/-- The names end the list of entry points that the description announced. -/
theorem reads_names {module : Module} (blocks : List Block)
    (proper : ∀ entry ∈ module.entries, entry.block ≠ some noBlock) :
    Reads (names { bareModule module with blocks } module.entries.length) module.nameWords
      { module with blocks, start := none } := by
  have externals : Reads (counted text) _ (module.externals.map id) :=
    reads_counted module.externals (fun name _ => reads_text name)
      (fun name _ => textWords_ne_nil name)
  rw [List.map_id] at externals
  refine externals.bind ?_
  intro rest position length room bound
  have entries : Reads (many entryPoint module.entries.length) _ (module.entries.map id) :=
    reads_many module.entries fun entry member => reads_entryPoint entry (proper entry member)
  have fewer := length_le_flatMap EntryPoint.words module.entries fun entry _ =>
    List.append_ne_nil_of_left_ne_nil (textWords_ne_nil entry.name) _
  rw [List.map_id] at entries
  rw [List.length_cons] at room
  have number := run_count (module.entries.flatMap EntryPoint.words ++ rest) position length
    (show module.entries.length ≤ length * 8 by omega) bound
  have list := entries rest (position + 1) length (by omega) bound
  rw [List.cons_append, countWord, run_bind_of_ok number, if_neg (by simp), run_bind_of_ok list,
    List.length_cons, Nat.add_comm (List.length _), ← Nat.add_assoc]
  rfl

theorem reads_start {module : Module} (start : StartPoint) (proper : start.block ≠ some noBlock) :
    Reads (Read.start module) (textWords start.name ++ [blockWord start.block, start.value])
      { module with start := some start } :=
  (reads_text start.name).bind ((reads_block? start.block proper).bind
    ((reads_word start.value).last fun value =>
      { module with start := some ⟨start.name, start.block, value⟩ }))

theorem taken_start {module : Module} (done : List Module) (n : Nat)
    (proper : ∀ start, module.start = some start → start.block ≠ some noBlock)
    (short : ∀ body, Object.record .start body ∈ module.startRecords → body.length < 2 ^ 56) :
    Taken module.startRecords ⟨done, some { module with start := none }, n⟩
      ⟨done, some module, n⟩ := by
  rw [Module.startRecords] at short ⊢
  cases found : module.start with
  | none =>
    have same : { module with start := none } = module := by
      rw [← found]
    rw [same]
    exact .nil _
  | some start =>
    rw [found] at short
    have same : { module with start := some start } = module := by
      rw [← found]
    refine taken_record (short _ (List.mem_singleton_self _)) (reads_recordBody (by decide) ?_)
    have reads : Reads (Read.start { module with start := none }) _ _ :=
      reads_start start (proper start found)
    exact same ▸ reads

/-- All records of a module give the module. -/
theorem taken_module {module : Module} (writable : module.Writable) (done : List Module) (n : Nat) :
    Taken module.items ⟨done, none, n⟩ ⟨done ++ [module], none, module.entries.length⟩ := by
  have short : ∀ type body, Object.record type body ∈ module.items → body.length < 2 ^ 56 := by
    intro type body member
    have whole := writable.record_short _ member
    rw [List.length_cons] at whole
    omega
  simp only [Module.items, List.mem_append, or_assoc] at short
  have description := taken_description module done n writable.index_lt
    (short _ _ (.inl (List.mem_singleton_self _)))
  have images := taken_images done module.entries.length (bareModule module) writable.distinct
    fun body member => short _ body (.inr (.inl member))
  have relocations : Taken (module.tableRecords .relocation Block.relocations Relocation.words)
      ⟨done, some { bareModule module with blocks := module.blocks.map imaged }, _⟩
      ⟨done, some { bareModule module with blocks := module.blocks.map relocated }, _⟩ :=
    taken_tables done module.entries.length (bareModule module) (by decide) (fun _ => rfl)
      (fun _ => ⟨rfl, rfl⟩) (fun _ => rfl)
      (fun block empty => by rw [imaged, relocated, empty]) (fun _ => List.cons_ne_nil _ _)
      (fun block member entry inTable =>
        reads_relocation entry (writable.target_lt block member entry inTable))
      writable.distinct (fun body member => short _ body (.inr (.inr (.inl member))))
  have externals : Taken (module.tableRecords .externalTable Block.externals
      ExternalReference.words)
      ⟨done, some { bareModule module with blocks := module.blocks.map relocated }, _⟩
      ⟨done, some { bareModule module with blocks := module.blocks.map id }, _⟩ :=
    taken_tables done module.entries.length (bareModule module) (by decide) (fun _ => rfl)
      (fun _ => ⟨rfl, rfl⟩) (fun _ => rfl)
      (fun block empty => by rw [relocated, ← empty]; rfl) (fun _ => List.cons_ne_nil _ _)
      (fun block member entry inTable =>
        reads_externalReference entry (writable.external_lt block member entry inTable))
      writable.distinct (fun body member => short _ body (.inr (.inr (.inr (.inl member)))))
  rw [List.map_id] at externals
  have names : Taken [Object.record .names module.nameWords]
      ⟨done, some { bareModule module with blocks := module.blocks }, module.entries.length⟩
      ⟨done, some { module with start := none }, module.entries.length⟩ := by
    refine taken_record (short _ _ (.inr (.inr (.inr (.inr (.inl (List.mem_singleton_self _)))))))
      (reads_recordBody (by decide) ?_)
    exact reads_names module.blocks writable.entry_block
  have start := taken_start done module.entries.length writable.start_block
    fun body member => short _ body (.inr (.inr (.inr (.inr (.inr (.inl member))))))
  have close : Taken [.endOfFile] ⟨done, some module, module.entries.length⟩
      ⟨done ++ [module], none, module.entries.length⟩ := .single fun _ => rfl
  exact (((((description.append images).append relocations).append externals).append names).append
    start).append close

theorem taken_modules (modules : List Module) (writable : ∀ module ∈ modules, module.Writable)
    (done : List Module) (n : Nat) :
    ∃ last, Taken (modules.flatMap Module.items) ⟨done, none, n⟩ ⟨done ++ modules, none, last⟩ := by
  induction modules generalizing done n with
  | nil =>
    rw [List.append_nil]
    exact ⟨n, .nil _⟩
  | cons module modules ih =>
    have here := taken_module (writable module List.mem_cons_self) done n
    obtain ⟨last, later⟩ := ih (fun other member => writable other (List.mem_cons_of_mem _ member))
      (done ++ [module]) module.entries.length
    rw [List.append_assoc] at later
    exact ⟨last, here.append later⟩

end Read

/-- The end of the data is no part of a module. -/
theorem Module.endOfData_not_mem_items (module : Module) : .endOfData ∉ module.items := by
  have description : Dataset.Item.endOfData ≠ record .programDescription module.descriptionWords :=
    nofun
  have images : .endOfData ∉ module.imageRecords := by
    intro member
    obtain ⟨block, _, inBlock⟩ := List.mem_flatMap.mp member
    cases found : block.image with
    | none => rw [found] at inBlock; nomatch inBlock
    | some image => rw [found] at inBlock; nomatch List.mem_singleton.mp inBlock
  have tables {α : Type} (type : RecordType) (table : Block → List α) (words : α → List Word) :
      .endOfData ∉ module.tableRecords type table words := by
    intro member
    obtain ⟨block, _, same⟩ := List.mem_map.mp member
    nomatch same
  have names : Dataset.Item.endOfData ≠ record .names module.nameWords := nofun
  have start : .endOfData ∉ module.startRecords := by
    intro member
    rw [startRecords] at member
    cases found : module.start with
    | none => rw [found] at member; nomatch member
    | some start => rw [found] at member; nomatch List.mem_singleton.mp member
  simp only [items, List.mem_append, List.mem_singleton, description, images, tables, names, start,
    reduceCtorEq, or_self, not_false_eq_true]

/-- Modules that can be told from their records are read back from the file they are written to. -/
theorem read_write (modules : List Module) (writable : ∀ module ∈ modules, module.Writable) :
    read (write modules) = .ok modules := by
  have going : ∀ item ∈ modules.flatMap Module.items, item ≠ .endOfData := by
    intro item member same
    obtain ⟨module, _, inModule⟩ := List.mem_flatMap.mp member
    exact module.endOfData_not_mem_items (same ▸ inModule)
  have short : ∀ words, .record words ∈ modules.flatMap Module.items → words.length < 2 ^ 60 := by
    intro words member
    obtain ⟨module, inModules, inModule⟩ := List.mem_flatMap.mp member
    have bound := (writable module inModules).record_short words inModule
    omega
  obtain ⟨values, stop⟩ := Dataset.divide_words (modules.flatMap Module.items) going short
  obtain ⟨last, taken⟩ := Read.taken_modules modules writable [] 0
  have progress := taken _ values
  have finish : Read.finish ⟨[] ++ modules, none, last⟩
      (Dataset.divide (Dataset.words (items modules))).2 = .ok modules := by
    rw [Read.finish, items, stop]
    rfl
  rw [read, write_eq, Dataset.bytes, Word.wordsOfBytes_flatMap_bytes]
  change ((Dataset.divide (Dataset.words (items modules))).1.foldlM Read.item ⟨[], none, 0⟩ >>=
    fun progress => Read.finish progress (Dataset.divide (Dataset.words (items modules))).2) = _
  rw [items, progress]
  exact finish

/-- A module with something of every kind in it. -/
def sampleModule : Module where
  name := "M"
  absolute := true
  stackSize := 16
  comment := "SAMPLE MODULE"
  blocks := [
    { index := 3, name := "", type := .mixed, residency := .cm, size := 4, origin := 0
      image := some ⟨1, [5, 0xffffffffffffffff]⟩
      relocations := [⟨.extended, 0, 70, 24, true⟩]
      externals := [⟨.standard, 0, 64, 22, false⟩] },
    { index := 0, name := "DATA", type := .data, residency := .em, size := 1, origin := 8
      image := none, relocations := [], externals := [] }]
  entries := [⟨"E", some 3, 9, .parcel⟩]
  externals := ["X", "LONGEXTERNAL"]
  start := some ⟨"E", none, 9⟩

theorem sampleModule_writable : sampleModule.Writable where
  distinct := by decide
  index_lt := by decide
  target_lt := by decide
  external_lt := by decide
  entry_block := by decide
  start_block := by
    rintro start ⟨⟩
    decide
  record_short := by
    have all : ∀ item ∈ sampleModule.items, item.words.length ≤ 2 ^ 56 := by decide +kernel
    intro words member
    exact Nat.le_of_lt (all _ member)

theorem read_write_sampleModule :
    read (write [sampleModule, sampleModule]) = .ok [sampleModule, sampleModule] := by
  refine read_write _ fun module member => ?_
  simp only [List.mem_cons, List.not_mem_nil, or_false, or_self] at member
  rw [member]
  exact sampleModule_writable

end Object

end CrayAssembler
