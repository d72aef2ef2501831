import CrayAssembler.Proofs.Assembly.Loads
import CrayAssembler.Proofs.Assembly.Placing
import CrayAssembler.Proofs.Assembly.Reentry
import CrayAssembler.Proofs.Assembly.Sizes
import CrayAssembler.Proofs.Section.Image

namespace CrayAssembler

namespace Asm

section Parts

/-- The value of a field, if its width is one. -/
def readVariable (width : Nat) (expr : List Char) : AsmM (Option (Nat × Value)) := do
  if wordBits < width then
    error .fieldWidth
    return none
  else if expr.isEmpty then
    error .dataItem
    return none
  else
    let value ← storable (valueOrUndefined (← evaluateOperand (String.ofList expr)))
    return some (width, value)

/-- The width and the value that an item gives. One that cannot be read draws an error. -/
def readVariableItem (item : String) : AsmM (Option (Nat × Value)) := do
  match Text.cut '/' item.toList with
  | none =>
    error .dataItem
    return none
  | some (width, expr) =>
    match ← absoluteOperand (String.ofList width) with
    | none => return none
    | some width => readVariable width.toNat expr

/-- Place a value in a field that is not empty. -/
def placeField (width : Nat) (value : Value) : AsmM Unit :=
  if 0 < width then emitField width value else return ()

/-- Place a value, with a warning if it is a plain number that is cut. -/
def placeVariable (width : Nat) (value : Value) : AsmM Unit :=
  if value.isConstant && !value.numeric.fitsField width then
    warn .truncation >>= fun _ => placeField width value
  else placeField width value

/-- An item is read before anything of it is placed. -/
theorem emitVariableItem_eq (item : String) :
    emitVariableItem item = readVariableItem item >>= fun
      | none => return ()
      | some (width, value) => placeVariable width value := by
  unfold emitVariableItem readVariableItem
  cases Text.cut '/' item.toList with
  | none => simp only [bind_assoc, pure_bind, bind_pure_unit]
  | some parts =>
    simp only [bind_assoc]
    refine bind_congr fun width? => ?_
    cases width? with
    | none => simp only [pure_bind]
    | some width =>
      dsimp only
      unfold readVariable
      split
      · simp only [bind_assoc, pure_bind, bind_pure_unit]
      split
      · simp only [bind_assoc, pure_bind, bind_pure_unit]
      · simp only [bind_assoc, pure_bind]
        rfl

end Parts

section Reading

variable {regard : Regard} {V : Value → Prop} {sized : Prop} (consults : Consults regard V sized)

include consults

theorem Consults.readVariable (width : Nat) (expr : List Char) :
    regard.Keeps (readVariable width expr) := by
  unfold Asm.readVariable
  split
  · exact consults.fail _ _
  split
  · exact consults.fail _ _
  · refine (consults.evaluateOperand _).bind fun evaluation? known => ?_
    exact (consults.storable consults.values (consults.values.valueOrUndefined known)).keeps.bind
      fun _ => .pure trivial

theorem Consults.readVariableItem (item : String) : regard.Keeps (readVariableItem item) := by
  unfold Asm.readVariableItem
  split
  · exact consults.fail _ _
  refine (consults.absoluteOperand _).bind fun width? => ?_
  cases width? with
  | none => exact .pure trivial
  | some width => exact consults.readVariable width.toNat _

end Reading

section Noting

variable {I : Context → Prop} (spared : Spared I)

include spared

theorem Spared.placeField (width : Nat) (value : Value) : Keeps I (placeField width value) := by
  unfold Asm.placeField
  split
  · exact Keeps.bind (sees_keeping.recordReference spared.modifySection spared.note _ _ _ _)
      fun _ => spared.emitShown _ _ _
  · exact .pure _

theorem Spared.placeVariable (width : Nat) (value : Value) : Keeps I (placeVariable width value) :=
  Gives.complain (spared.note _) (spared.placeField width value)

theorem Spared.emitVariableItem {V : Value → Prop} {sized : Prop}
    (consults : Consults (.keeping I) V sized) (item : String) : Keeps I (emitVariableItem item) := by
  rw [emitVariableItem_eq]
  refine Keeps.bind (consults.readVariableItem item) fun read? => ?_
  cases read? with
  | none => exact .pure trivial
  | some read => exact spared.placeVariable read.1 read.2

end Noting

section Faults

/-- A diagnostic was registered against the statement. -/
def Marked (d : Diagnostic) (context : Context) : Prop :=
  context.statement.diagnostics.contains d

theorem spared_marked (d : Diagnostic) : Spared (Marked d) where
  modifySection _ := .modify fun _ marked => marked
  note other := .modify fun _ marked => (DiagnosticSet.contains_insert_iff ..).mpr (.inr marked)
  showGenerated text := by
    refine Gives.bindGet fun context _ => ?_
    split
    · exact Keeps.modify fun _ marked => marked
    · exact .pure trivial

theorem consults_marked (d : Diagnostic) : Consults (.keeping (Marked d)) (fun _ => True) False := by
  refine consults_keeping (spared_marked d).note (fun name context marked => ?_)
    fun key words undefined context marked => ?_
  · rw [run_symbol]
    exact ⟨marked, trivial⟩
  · unfold placeLiteral
    rw [StateT.run_bind, StateT.run_get, pure_bind]
    dsimp only
    rw [StateT.run_bind, run_modifyModule, pure_bind]
    dsimp only
    split
    · exact ⟨marked, trivial⟩
    · exact ⟨marked, trivial⟩

theorem faulty_iff {context : Context} : Faulty context ↔ ∃ kind, Marked (.error kind) context := by
  unfold Faulty Marked DiagnosticSet.hasErrors DiagnosticSet.contains
  simp only [List.any_eq_true, List.contains_iff_mem]
  constructor
  · rintro ⟨d, member, isError⟩
    cases d with
    | error kind => exact ⟨kind, member⟩
    | _ => nomatch isError
  · rintro ⟨kind, member⟩
    exact ⟨_, member, rfl⟩

/-- What keeps every diagnostic keeps faults. -/
theorem Keeps.faulty {α : Type} {action : AsmM α} (keeps : ∀ d, Keeps (Marked d) action) :
    Keeps Faulty action := by
  intro context faulty
  obtain ⟨kind, marked⟩ := faulty_iff.mp faulty
  exact ⟨faulty_iff.mpr ⟨kind, (keeps _ context marked).1⟩, trivial⟩

theorem faulty_kept {action : AsmM Unit} (keeps : ∀ d, Keeps (Marked d) action) {context : Context}
    (quiet : ¬Faulty (action.run context).2) : ¬Faulty context :=
  fun faulty => quiet (Keeps.faulty keeps context faulty).1

theorem run_storable (value : Value) (context : Context) :
    (storable value).run context =
      if !value.isFloat then (value, context)
      else
        match storedWord value with
        | .ok word => (.absolute word, context)
        | .error kind => (.absolute 0, context.register (.error kind)) := by
  unfold storable
  split
  · rfl
  · cases storedWord value <;> rfl

/-- What is stored of a value that is known is known and no floating-point number, or it draws an
error. -/
theorem storable_cases {value : Value} (defined : value.isUndefined = false) (context : Context) :
    Faulty ((storable value).run context).2 ∨
      ((storable value).run context).1.isUndefined = false ∧
        ((storable value).run context).1.isFloat = false := by
  rw [run_storable]
  by_cases float : value.isFloat = true
  · rw [if_neg (by simp [float])]
    cases storedWord value with
    | ok word => exact .inr ⟨rfl, rfl⟩
    | error kind => exact .inl (hasErrors_error kind context)
  · rw [if_pos (by simpa using float)]
    exact .inr ⟨defined, Bool.eq_false_iff.mpr float⟩

/-- What an item gives if it is not faulty. -/
structure Readable (width : Nat) (value : Value) : Prop where
  narrow : width ≤ wordBits
  defined : value.isUndefined = false
  integer : value.isFloat = false

theorem readVariable_cases (width : Nat) (expr : List Char) (context : Context) :
    Faulty ((readVariable width expr).run context).2 ∨
      ∃ value, ((readVariable width expr).run context).1 = some (width, value) ∧
        Readable width value := by
  unfold readVariable
  split
  case isTrue => exact .inl (hasErrors_error _ _)
  case isFalse narrow =>
    split
    case isTrue => exact .inl (hasErrors_error _ _)
    case isFalse =>
      rw [StateT.run_bind]
      have useless := hasErrors_evaluateOperand (String.ofList expr) context
      generalize (evaluateOperand (String.ofList expr)).run context = evaluated at useless ⊢
      obtain ⟨evaluation?, later⟩ := evaluated
      change Faulty ((storable (valueOrUndefined evaluation?)).run later).2 ∨ ∃ value,
        some (width, ((storable (valueOrUndefined evaluation?)).run later).1) = some (width, value) ∧
          Readable width value
      have kept : Faulty later → Faulty ((storable (valueOrUndefined evaluation?)).run later).2 :=
        by
        have faults : Faults (.keeping Faulty) := ⟨spared_faulty.note⟩
        exact fun faulty => (faults.storable Value.closed_true trivial later faulty).1
      cases evaluation? with
      | none => exact .inl (kept (useless fun _ same => nomatch same))
      | some evaluation =>
        by_cases undefined : evaluation.value.isUndefined = true
        · refine .inl (kept (useless ?_))
          rintro _ ⟨⟩
          exact undefined
        · refine (storable_cases (Bool.eq_false_iff.mpr undefined) later).imp_right ?_
          exact fun known => ⟨_, rfl, Nat.not_lt.mp narrow, known.1, known.2⟩

/-- An item is read, or it draws an error. -/
theorem readVariableItem_cases (item : String) (context : Context) :
    Faulty ((readVariableItem item).run context).2 ∨
      ∃ width value, ((readVariableItem item).run context).1 = some (width, value) ∧
        Readable width value := by
  unfold readVariableItem
  cases Text.cut '/' item.toList with
  | none => exact .inl (hasErrors_error _ _)
  | some parts =>
    dsimp only
    rw [StateT.run_bind]
    have refused := hasErrors_absoluteOperand (String.ofList parts.1) context
    generalize (absoluteOperand (String.ofList parts.1)).run context = reading at refused ⊢
    obtain ⟨width?, middle⟩ := reading
    cases width? with
    | none => exact .inl (refused rfl)
    | some width =>
      exact (readVariable_cases width.toNat parts.2 middle).imp_right fun ⟨value, known⟩ =>
        ⟨width.toNat, value, known⟩

end Faults

section Placing

/-- The last `width` bits of a word were placed at the origin counter. -/
structure Packed (width : Nat) (bits : Word) (context later : Context) : Prop where
  origin : later.currentSection.originBits = context.currentSection.originBits + width
  bit : ∀ address, later.currentSection.block.bit address =
    if context.currentSection.originBits ≤ address ∧
      address < context.currentSection.originBits + width
    then bits.bit (wordBits - width + (address - context.currentSection.originBits))
    else context.currentSection.block.bit address

/-- Bits are written in the current section. -/
structure Writing (context : Context) : Prop where
  seated : Seated context
  second : context.pass = .two
  imaged : context.currentSection.type.allowsImage
  framed : ∀ image, context.currentSection.block.image = some image →
    context.currentSection.Framed image

variable {context : Context} {width : Nat}

theorem bit_of_image_eq {block other : ObjectBlock} (same : other.image = block.image)
    (address : Nat) : other.bit address = block.bit address := by
  unfold ObjectBlock.bit ObjectBlock.word
  rw [same]

/-- Nothing but the tables of the section is changed by what is left to the loader. -/
theorem section_recordReference (seated : Seated context) (kind : Object.EntryKind)
    (fieldLength : Nat) (value : Value) (parcel : Bool) :
    ∃ block : ObjectBlock, block.image = context.currentSection.block.image ∧
      ((recordReference kind fieldLength value parcel).run context).2.currentSection =
        { context.currentSection with block } := by
  generalize recorded : ((recordReference kind fieldLength value parcel).run context).2 = after
  obtain rfl | ⟨d, rfl⟩ | ⟨-, ⟨id, -, rfl⟩ | ⟨index, -, rfl⟩⟩ :=
    recordReference_cases context kind fieldLength value parcel recorded
  · exact ⟨_, rfl, rfl⟩
  · exact ⟨_, rfl, rfl⟩
  · refine ⟨_, ?_, (currentSection_modify context _).trans (if_pos seated)⟩
    rfl
  · refine ⟨_, ?_, (currentSection_modify context _).trans (if_pos seated)⟩
    rfl

theorem Writing.recordReference (writing : Writing context) (kind : Object.EntryKind)
    (fieldLength : Nat) (value : Value) (parcel : Bool) :
    Writing ((recordReference kind fieldLength value parcel).run context).2 := by
  have poised := poised_recordReference context kind fieldLength value parcel
  obtain ⟨block, image, same⟩ :=
    section_recordReference writing.seated kind fieldLength value parcel
  refine ⟨poised.seated writing.seated, poised.pass.trans writing.second, ?_, ?_⟩
  · rw [poised.type]
    exact writing.imaged
  · rw [same]
    intro found known
    have framed := writing.framed found (image.symm.trans known)
    exact ⟨framed.first_le, framed.base_lt, framed.base_le, framed.stop_le⟩

theorem packed_emitBits (writing : Writing context) (narrow : width ≤ wordBits) (bits : Word) :
    Packed width bits context ((emitBits width bits).run context).2 := by
  obtain ⟨block, result, written⟩ := emitBits_eq writing.framed width bits
  rw [if_pos (by simp [writing.second, writing.imaged])] at written
  rw [result]
  have current := currentSection_modify context fun sec => { sec with block }.advance width
  rw [if_pos writing.seated] at current
  constructor
  · rw [current, Section.advance_originBits]
  · intro address
    rw [current, Section.advance_block]
    exact ObjectBlock.bit_writeBits narrow written address

/-- A value that is known is placed in its field. -/
theorem packed_emitField (writing : Writing context) (narrow : width ≤ wordBits) {value : Value}
    (defined : value.isUndefined = false) :
    Packed width value.numeric context ((emitField width value).run context).2 := by
  obtain ⟨block, image, same⟩ := section_recordReference writing.seated .extended width value false
  have placed := packed_emitBits (writing.recordReference .extended width value false) narrow
    (if value.isUndefined then 0 else value.numeric)
  rw [if_neg (by simp [defined])] at placed
  have shown (text : String) (context : Context) :
      ((showGenerated text).run context).2.currentSection = context.currentSection := by
    unfold showGenerated
    rw [StateT.run_bind, StateT.run_get, pure_bind]
    dsimp only
    split <;> rfl
  unfold emitField
  rw [StateT.run_bind]
  dsimp only
  rw [if_neg (by simp [defined])]
  constructor
  · refine (congrArg (·.originBits) (shown _ _)).trans (placed.origin.trans ?_)
    rw [same]
  · intro address
    refine (congrArg (·.block.bit address) (shown _ _)).trans ((placed.bit address).trans ?_)
    rw [same]
    exact ite_congr rfl (fun _ => rfl) fun _ => bit_of_image_eq image address

theorem packed_placeField (writing : Writing context) {value : Value}
    (readable : Readable width value) :
    Packed width value.numeric context ((placeField width value).run context).2 := by
  unfold placeField
  split
  case isTrue => exact packed_emitField writing readable.narrow readable.defined
  case isFalse empty =>
    obtain rfl := Nat.eq_zero_of_not_pos empty
    exact ⟨rfl, fun _ => (if_neg (by omega)).symm⟩

theorem packed_placeVariable (writing : Writing context) {value : Value}
    (readable : Readable width value) :
    Packed width value.numeric context ((placeVariable width value).run context).2 := by
  unfold placeVariable
  split
  · have still : Writing (context.register (.warning .truncation)) :=
      ⟨writing.seated, writing.second, writing.imaged, writing.framed⟩
    have warned := packed_placeField still readable
    exact ⟨warned.origin, warned.bit⟩
  · exact packed_placeField writing readable

/-- A plain number that is cut draws a warning. -/
theorem marked_placeVariable {value : Value} (constant : value.isConstant)
    (large : value.numeric.fitsField width = false) (context : Context) :
    Marked (.warning .truncation) ((placeVariable width value).run context).2 := by
  unfold placeVariable
  rw [if_pos (by simp [constant, large])]
  have warned : Marked (.warning .truncation) (context.register (.warning .truncation)) :=
    (DiagnosticSet.contains_insert_iff ..).mpr (.inl rfl)
  exact ((spared_marked _).placeField width value _ warned).1

end Placing

section Items

variable {context later : Context}

/-- Where items of a statement are placed in pass 2. -/
structure Packing (context : Context) : Prop where
  sound : context.Sound
  second : context.pass = .two
  imaged : context.currentSection.type.allowsImage

theorem Packing.writing (packing : Packing context) : Writing context where
  seated := ⟨packing.sound.current_lt, packing.sound.sections_lt _ List.mem_cons_self⟩
  second := packing.second
  imaged := packing.imaged
  framed := packing.sound.currentSection_sound.framed

theorem Packing.within (packing : Packing context) (within : Within context later) :
    Packing later where
  sound := within.sound
  second := within.steady.pass.trans packing.second
  imaged := by
    rw [within.type]
    exact packing.imaged

theorem Packing.emitVariableItem (packing : Packing context) (item : String) :
    Packing ((emitVariableItem item).run context).2 :=
  packing.within
    (places_within.emitVariableItem packing.imaged item context (.refl packing.sound)).1

theorem Packing.forM (packing : Packing context) (items : List String) :
    Packing ((items.forM Asm.emitVariableItem).run context).2 :=
  packing.within ((Keeps.forM fun item _ => places_within.emitVariableItem packing.imaged item)
    context (.refl packing.sound)).1

/-- Diagnostics stay as long as items are placed. -/
theorem keeps_marked_forM (items : List String) (d : Diagnostic) :
    Keeps (Marked d) (items.forM emitVariableItem) :=
  Keeps.forM fun item _ => (spared_marked d).emitVariableItem (consults_marked d) item

/-- What an item leaves: its value in the next bits, which is cut with a warning only if it is a plain
number. -/
structure Stores (item : String) (context later : Context) (width : Nat) (value : Value) : Prop where
  read : ((readVariableItem item).run context).1 = some (width, value)
  readable : Readable width value
  packed : Packed width value.numeric context later
  warned : value.isConstant → value.numeric.fitsField width = false →
    Marked (.warning .truncation) later

/-- An item that draws no error is stored. -/
theorem stores_emitVariableItem (packing : Packing context) {item : String}
    (quiet : ¬Faulty ((emitVariableItem item).run context).2) :
    ∃ width value, Stores item context ((emitVariableItem item).run context).2 width value := by
  have reads := reads_quiet packing.sound
  have reading : Quiet context ((readVariableItem item).run context).2 :=
    (reads.readVariableItem item context (.refl context)).1
  have cases := readVariableItem_cases item context
  rw [emitVariableItem_eq, StateT.run_bind] at quiet ⊢
  generalize found : (readVariableItem item).run context = outcome at reading cases quiet ⊢
  obtain ⟨read?, middle⟩ := outcome
  have clean : ¬Faulty middle := faulty_kept (fun d => by
    cases read? with
    | none => exact .pure _
    | some read => exact (spared_marked d).placeVariable read.1 read.2) quiet
  obtain ⟨width, value, rfl, readable⟩ := cases.resolve_left clean
  have current : middle.currentSection = context.currentSection := reading.currentSection
  have writing : Writing middle := (packing.within
    ((Within.refl packing.sound).quiet reading)).writing
  have placed := packed_placeVariable writing readable
  refine ⟨width, value, congrArg Prod.fst found, readable, ⟨?_, fun address => ?_⟩,
    fun constant large => marked_placeVariable constant large middle⟩
  · rw [← current]
    exact placed.origin
  · rw [← current]
    exact placed.bit address

/-- What was placed before stays while items are placed behind it. -/
theorem forM_emitVariableItem_keeps (packing : Packing context) {items : List String}
    (quiet : ¬Faulty ((items.forM emitVariableItem).run context).2) :
    let later := ((items.forM emitVariableItem).run context).2
    context.currentSection.originBits ≤ later.currentSection.originBits ∧
      ∀ address < context.currentSection.originBits,
        later.currentSection.block.bit address = context.currentSection.block.bit address := by
  induction items generalizing context with
  | nil => exact ⟨Nat.le_refl _, fun _ _ => rfl⟩
  | cons item items ih =>
    have cons : (((item :: items).forM emitVariableItem).run context).2 =
        ((items.forM emitVariableItem).run ((emitVariableItem item).run context).2).2 := rfl
    rw [cons] at quiet ⊢
    have first : ¬Faulty ((emitVariableItem item).run context).2 :=
      faulty_kept (keeps_marked_forM items) quiet
    obtain ⟨width, value, stores⟩ := stores_emitVariableItem packing first
    obtain ⟨further, kept⟩ := ih (packing.emitVariableItem item) quiet
    have origin := stores.packed.origin
    refine ⟨by omega, fun address before => (kept address (by omega)).trans ?_⟩
    rw [stores.packed.bit, if_neg (by omega)]

end Items

section Statements

variable {context : Context}

/-- The items of a statement are placed where there is an image, or there is an error. -/
theorem run_variableFields {fields : Fields} (quiet : ¬Faulty ((variableFields fields).run context).2) :
    context.currentSection.type.allowsImage ∧
      ((variableFields fields).run context).2 = (((Fields.subfields fields.operand).forM
        emitVariableItem).run ((defineFieldLabel fields.location).run context).2).2 := by
  have unfolded : (variableFields fields).run context =
      (if context.currentSection.type.allowsImage then do
        defineFieldLabel fields.location
        (Fields.subfields fields.operand).forM emitVariableItem
      else error .instructionPlacement : AsmM Unit).run context := rfl
  rw [unfolded] at quiet ⊢
  by_cases imaged : context.currentSection.type.allowsImage
  · rw [if_pos imaged]
    exact ⟨imaged, rfl⟩
  · rw [if_neg imaged] at quiet
    exact absurd (hasErrors_error _ _) quiet

/-- In pass 2, if a statement draws neither an error nor a warning of a cut, each of its items is read
and has the last bits of its value in its field, wherever the statement stands. A value that belongs
to no section and to no external is got back from the field. An address is got back exactly if it
fits, of which nothing is said. -/
theorem variableFields_stores (occurs : Occurs context) (second : context.pass = .two)
    (fields : Fields) (quiet : ¬Faulty ((variableFields fields).run context).2)
    (uncut : ¬Marked (.warning .truncation) ((variableFields fields).run context).2) :
    let after := ((variableFields fields).run context).2
    ∀ items item rest, Fields.subfields fields.operand = items ++ item :: rest →
      let here := ((do
        defineFieldLabel fields.location
        items.forM emitVariableItem : AsmM Unit).run context).2
      ∃ width value, ((readVariableItem item).run here).1 = some (width, value) ∧
        Readable width value ∧
        let stored := after.currentSection.block.field here.currentSection.originBits width
        stored = value.numeric.toBitVec.setWidth width ∧
          (value.home = none → value.isExternal = false → Word.Regains stored value.numeric) ∧
          (Word.Regains stored value.numeric ↔ value.numeric.fitsField width) := by
  intro after items item rest split here
  obtain ⟨imaged, ran⟩ := run_variableFields quiet
  let next := ((emitVariableItem item).run here).2
  have ended : after = ((rest.forM emitVariableItem).run next).2 := by
    have parts : (items ++ item :: rest).forM emitVariableItem = (do
        items.forM emitVariableItem
        (item :: rest).forM emitVariableItem) := List.forM_append
    refine ran.trans ?_
    rw [split, parts]
    rfl
  have begun : Packing context := ⟨occurs.reached.sound, second, imaged⟩
  have packing : Packing here := (begun.within (places_within.defineFieldLabel fields.location context
    (.refl begun.sound)).1).forM items
  have later : ¬Faulty ((rest.forM emitVariableItem).run next).2 := ended ▸ quiet
  obtain ⟨width, value, stores⟩ := stores_emitVariableItem packing
    (faulty_kept (keeps_marked_forM rest) later)
  obtain ⟨-, kept⟩ := forM_emitVariableItem_keeps (packing.emitVariableItem item) later
  -- what is placed after the item lies behind it
  have bits : ∀ i < width, after.currentSection.block.bit (here.currentSection.originBits + i) =
      value.numeric.bit (wordBits - width + i) := by
    intro i inside
    have origin := stores.packed.origin
    rw [ended, kept _ (by omega), stores.packed.bit, if_pos (by omega), Nat.add_sub_cancel_left]
  have stored := ObjectBlock.field_eq stores.readable.narrow bits
  have iff := Word.fitsField_iff_regains value.numeric stores.readable.narrow
  refine ⟨width, value, stores.read, stores.readable, stored, fun home internal => ?_, ?_⟩
  · have constant : value.isConstant := Value.isConstant_iff.mpr
      ⟨⟨home, internal, stores.readable.defined⟩, stores.readable.integer⟩
    rw [stored]
    refine iff.mp (Decidable.byContradiction fun large => uncut ?_)
    have cut := stores.warned constant (Bool.eq_false_iff.mpr large)
    rw [show ((variableFields fields).run context).2 = _ from ended]
    exact (keeps_marked_forM rest _ next cut).1
  · rw [stored]
    exact iff.symm

end Statements

end Asm

namespace Assembly

/-- A negative number in the second of two fields. -/
theorem variableFields_stores_negative :
    let context := passTwoAfter [⟨1, "         IDENT    M", false⟩] "MAIN" {} ⟨"", "", ""⟩ 1
    let fields : Fields := ⟨"F", "VWD", "8/5,3/-1", 18⟩
    let after := ((Asm.variableFields fields).run context).2
    context.pass = .two ∧ after.statement.diagnostics.hasErrors = false ∧
      after.statement.diagnostics.contains (.warning .truncation) = false ∧
      after.currentSection.block.field 8 3 = 7#3 ∧
      Word.Regains (after.currentSection.block.field 8 3) (-1) := by
  intro context fields
  have occurs : Asm.Occurs context := Asm.occurs_passTwoAfter ..
  let after := ((Asm.variableFields fields).run context).2
  let here := ((do
    Asm.defineFieldLabel fields.location
    ["8/5"].forM Asm.emitVariableItem : AsmM Unit).run context).2
  obtain ⟨second, quiet, uncut, origin, read⟩ :
      context.pass = .two ∧ after.statement.diagnostics.hasErrors = false ∧
        after.statement.diagnostics.contains (.warning .truncation) = false ∧
        here.currentSection.originBits = 8 ∧
        ((Asm.readVariableItem "3/-1").run here).1 = some (3, .absolute (-1)) := by
    decide +kernel
  have split : Fields.subfields fields.operand = ["8/5"] ++ "3/-1" :: [] := by decide +kernel
  clear_value context
  obtain ⟨width, value, found, -, stored, regains, -⟩ := Asm.variableFields_stores occurs second fields
    (Bool.eq_false_iff.mp quiet) (Bool.eq_false_iff.mp uncut) ["8/5"] "3/-1" [] split
  obtain ⟨rfl, rfl⟩ := Prod.mk.inj (Option.some.inj (found.symm.trans read))
  rw [show _ = 8 from origin] at stored regains
  exact ⟨second, quiet, uncut, stored.trans (by decide), regains rfl rfl⟩

/-- The address 2 of an absolute module is put in a field of one bit. No bit of it is left there, and
nothing is said. -/
theorem address_cut :
    let lines : List SourceLine := [⟨1, "         IDENT    M", false⟩, ⟨2, "         ABS", false⟩,
      ⟨3, "         BSS      2", false⟩, ⟨4, "A        CON      1", false⟩]
    let context := passTwoAfter lines "MAIN" {} ⟨"", "", ""⟩ 4
    let read := ((Asm.readVariableItem "1/A").run context).1
    let after := ((Asm.variableFields ⟨"", "VWD", "1/A", 18⟩).run context).2
    read.map (fun found => (found.1, found.2.numeric)) = some (1, 2) ∧
      read.all (fun found => !found.2.isUndefined && !found.2.isRelocatable && !found.2.isExternal) ∧
      after.statement.diagnostics = .empty ∧
      after.currentSection.block.field 192 1 = 0#1 ∧
      ¬Word.Regains (after.currentSection.block.field 192 1) 2 := by
  decide +kernel

end Assembly

end CrayAssembler
