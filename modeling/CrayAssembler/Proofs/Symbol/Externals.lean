import CrayAssembler.Proofs.Module.Sound
import CrayAssembler.Proofs.Symbol.Persistence

namespace CrayAssembler

/-- Two values are external alike, with the same place in the list of externals. -/
structure Value.Alike (left right : Value) : Prop where
  isExternal : left.isExternal = right.isExternal
  external : left.external = right.external

namespace SymbolTable

theorem alike_displace (offset : SectionId → Nat) (value : Value) :
    (displace offset value).Alike value := by
  unfold displace
  split
  · exact ⟨rfl, rfl⟩
  · split <;> exact ⟨rfl, rfl⟩

/-- What becomes of all values when a symbol is made external. -/
theorem makeExternal_cases {table changed : SymbolTable} {key : SymbolKey} {index : Nat}
    (made : table.makeExternal key index = .ok changed) :
    ((table.value key).isExternal ∧ ∀ other, changed.value other = table.value other) ∨
      (table.value key).isExternal = false ∧ ∃ new : Value, new.Alike (.ofExternal index) ∧
        ∀ other, changed.value other = if key = other then new else table.value other := by
  unfold makeExternal at made
  rw [reference_eq] at made
  dsimp only at made
  split at made
  case isTrue external =>
    cases made
    exact .inl ⟨external, value_mention table key⟩
  case isFalse other =>
    split at made
    · nomatch made
    · cases made
      let new := Value.ofExternal index
      let entry := ((table.get? key).getD .undefined).attributes.entry
      refine .inr ⟨by simpa [value] using other,
        { new with attributes := { new.attributes with entry } }, ⟨rfl, rfl⟩, fun symbol => ?_⟩
      rw [value_insert, value_mention]

/-- A symbol that is undefined can be made external. -/
theorem makeExternal_of_isUndefined {table : SymbolTable} {key : SymbolKey}
    (undefined : (table.value key).isUndefined ∨ (table.value key).isExternal) (index : Nat) :
    ∃ changed, table.makeExternal key index = .ok changed := by
  unfold makeExternal
  rw [reference_eq]
  dsimp only
  split
  · exact ⟨_, rfl⟩
  case isFalse other =>
    rcases undefined with undefined | external
    · unfold value at undefined
      rw [undefined]
      exact ⟨_, rfl⟩
    · exact absurd external other

theorem isUndefined_of_mem {table : SymbolTable} {key : SymbolKey}
    (member : key ∈ table.undefined) : (table.value key).isUndefined := by
  obtain ⟨⟨_, found⟩, listed, rfl⟩ := List.mem_map.mp member
  obtain ⟨inside, undefined⟩ := List.mem_filter.mp listed
  have lookup : table.get? _ = some found := Std.TreeMap.mem_toList_iff_getElem?_eq_some.mp inside
  rw [value, lookup]
  exact (Bool.and_eq_true_iff.mp undefined).1

/-- What becomes of all values when a symbol is defined. -/
theorem define_cases {table changed : SymbolTable} {key : SymbolKey} {new : Value}
    {redefinable : Bool} {pass : Pass} (made : table.define key new redefinable pass = .ok changed) :
    (table.value key).isExternal = false ∧ ∃ held : Value, held.Alike new ∧
      ∀ other, changed.value other = if key = other then held else table.value other := by
  obtain ⟨entry, result⟩ := define_eq table key new redefinable pass
  rw [result] at made
  split at made
  · nomatch made
  case isFalse agrees =>
    cases made
    refine ⟨?_, new.held redefinable pass entry, ⟨rfl, rfl⟩, fun other => value_insert ..⟩
    unfold conflicts at agrees
    simp only [Bool.or_eq_true, not_or, Bool.not_eq_true] at agrees
    exact agrees.1

/-- A symbol that is external keeps its place whatever is done to the table. -/
theorem Change.alike {pass : Pass} {table changed : SymbolTable}
    (change : Change pass table changed) {key : SymbolKey}
    (external : (table.value key).isExternal) : (changed.value key).Alike (table.value key) := by
  have other {symbol : SymbolKey} {new : Value} (fresh : (table.value symbol).isExternal = false)
      (result : changed.value key = if symbol = key then new else table.value key) :
      (changed.value key).Alike (table.value key) := by
    have different : symbol ≠ key := by
      rintro rfl
      nomatch external.symm.trans fresh
    rw [result, if_neg different]
    exact ⟨rfl, rfl⟩
  cases change with
  | keep => exact ⟨rfl, rfl⟩
  | mention symbol =>
    rw [value_mention]
    exact ⟨rfl, rfl⟩
  | markEntry symbol =>
    obtain ⟨entry, result⟩ := value_markEntry table symbol key
    rw [result]
    exact ⟨rfl, rfl⟩
  | makeExternal symbol index made =>
    rcases makeExternal_cases made with ⟨-, same⟩ | ⟨fresh, new, -, result⟩
    · rw [same]
      exact ⟨rfl, rfl⟩
    · exact other fresh (result key)
  | define symbol new redefinable made =>
    obtain ⟨fresh, held, -, result⟩ := define_cases made
    exact other fresh (result key)

end SymbolTable

namespace Module

/-- The externals of a module and the places of its symbols fit together. A symbol that has a place
is the one at that place, unless a definition granted it the place of another one. -/
structure Linked (granted : SymbolKey → Nat → Prop) (module : Module) : Prop where
  nodup : module.externals.Nodup
  external : ∀ key ∈ module.externals, (module.symbols.value key).isExternal
  placed : ∀ key place, (module.symbols.value key).isExternal →
    (module.symbols.value key).external = some place →
      module.externals[place]? = some key ∨ granted key place ∧ place < module.externals.length

variable {granted : SymbolKey → Nat → Prop} {module after : Module} {key : SymbolKey}

theorem Linked.mono {more : SymbolKey → Nat → Prop} (linked : module.Linked granted)
    (still : ∀ key place, granted key place → more key place) : module.Linked more :=
  ⟨linked.nodup, linked.external, fun key place external lookup =>
    (linked.placed key place external lookup).imp_right (.imp_left (still key place))⟩

/-- Only the list of externals and the places of symbols count. -/
theorem Linked.of_alike (linked : module.Linked granted)
    (externals : after.externals = module.externals)
    (alike : ∀ key, (after.symbols.value key).Alike (module.symbols.value key)) :
    after.Linked granted where
  nodup := by
    rw [externals]
    exact linked.nodup
  external := by
    intro key member
    rw [externals] at member
    rw [(alike key).isExternal]
    exact linked.external key member
  placed := by
    intro key place external lookup
    rw [(alike key).isExternal] at external
    rw [(alike key).external] at lookup
    rw [externals]
    exact linked.placed key place external lookup

theorem Linked.of_same (linked : module.Linked granted)
    (symbols : after.symbols = module.symbols) (externals : after.externals = module.externals) :
    after.Linked granted :=
  linked.of_alike externals fun key => by rw [symbols]; exact ⟨rfl, rfl⟩

theorem linked_empty (symbols : module.symbols = .empty) (externals : module.externals = []) :
    module.Linked granted where
  nodup := by
    rw [externals]
    exact .nil
  external := by
    rw [externals]
    exact List.forall_mem_nil _
  placed := by
    intro key place external
    rw [symbols, SymbolTable.value, SymbolTable.get?_empty] at external
    cases external

/-- A definition grants the place that its value has. -/
theorem Linked.define (linked : module.Linked granted) {value : Value} {redefinable : Bool}
    {pass : Pass} {symbols : SymbolTable} {sections : Nat}
    (made : module.symbols.define key value redefinable pass = .ok symbols)
    (refers : value.Refers sections module.externals.length)
    (grant : ∀ place, value.isExternal → value.external = some place → granted key place) :
    ({ module with symbols } : Module).Linked granted := by
  obtain ⟨fresh, held, alike, result⟩ := SymbolTable.define_cases made
  refine ⟨linked.nodup, fun other member => ?_, fun other place external lookup => ?_⟩
  · have known := linked.external other member
    have different : key ≠ other := by
      rintro rfl
      nomatch known.symm.trans fresh
    change (symbols.value other).isExternal = true
    rw [result, if_neg different]
    exact known
  · change (symbols.value other).isExternal = true at external
    change (symbols.value other).external = some place at lookup
    rw [result] at external lookup
    split at external
    case isTrue same =>
      rw [if_pos same] at lookup
      rw [alike.isExternal] at external
      rw [alike.external] at lookup
      subst same
      exact .inr ⟨grant place external lookup, refers.external_lt place lookup⟩
    case isFalse different =>
      rw [if_neg different] at lookup
      exact linked.placed other place external lookup

theorem addExternal_of_mem (member : key ∈ module.externals) : module.addExternal key = module := by
  unfold addExternal
  rw [if_pos (List.contains_iff_mem.mpr member)]

theorem externals_addExternal_of_not_mem (unknown : key ∉ module.externals) :
    (module.addExternal key).externals = module.externals ++ [key] := by
  unfold addExternal
  rw [if_neg fun known => unknown (List.contains_iff_mem.mp known)]

/-- A symbol is listed after all others. -/
theorem Linked.append (linked : module.Linked granted) {symbols : SymbolTable}
    (unknown : key ∉ module.externals) (external : (symbols.value key).isExternal)
    (place : ∀ place, (symbols.value key).external = some place →
      place = module.externals.length ∨ granted key place ∧ place < module.externals.length)
    (others : ∀ other, key ≠ other →
      (symbols.value other).Alike (module.symbols.value other)) :
    ({ module.addExternal key with symbols } : Module).Linked granted := by
  have externals := externals_addExternal_of_not_mem unknown
  have longer : (module.externals ++ [key]).length = module.externals.length + 1 :=
    List.length_append
  refine ⟨?_, fun other listed => ?_, fun other index isExternal lookup => ?_⟩ <;>
    dsimp only at *
  · rw [externals]
    refine List.nodup_append.mpr ⟨linked.nodup, by simp, fun old inside new single => ?_⟩
    rw [List.mem_singleton.mp single]
    rintro rfl
    exact unknown inside
  · by_cases same : key = other
    · rw [← same]
      exact external
    · rw [externals] at listed
      rw [(others other same).isExternal]
      rcases List.mem_append.mp listed with old | new
      · exact linked.external other old
      · exact absurd (List.mem_singleton.mp new).symm same
  · rw [externals, longer]
    by_cases same : key = other
    · subst same
      rcases place index lookup with rfl | ⟨given, known⟩
      · exact .inl (List.getElem?_concat_length ..)
      · exact .inr ⟨given, by omega⟩
    · rw [(others other same).isExternal] at isExternal
      rw [(others other same).external] at lookup
      rcases linked.placed other index isExternal lookup with found | ⟨given, known⟩
      · exact .inl ((List.getElem?_append_left (List.getElem?_eq_some_iff.mp found).1).trans found)
      · exact .inr ⟨given, by omega⟩

/-- A symbol that is declared external gets the place after all others, or keeps the place that it
has. -/
theorem Linked.declareExternal (linked : module.Linked granted) {symbols : SymbolTable}
    (made : module.symbols.makeExternal key (module.externalIndex key) = .ok symbols) :
    ({ module.addExternal key with symbols } : Module).Linked granted := by
  rcases SymbolTable.makeExternal_cases made with ⟨external, same⟩ | ⟨fresh, new, alike, result⟩
  · have alike (other : SymbolKey) : (symbols.value other).Alike (module.symbols.value other) := by
      rw [same]
      exact ⟨rfl, rfl⟩
    by_cases member : key ∈ module.externals
    · rw [addExternal_of_mem member]
      exact linked.of_alike rfl alike
    · refine linked.append member ((same key).symm ▸ external) ?_ fun other _ => alike other
      -- it is not listed at its place, so that the place was granted
      intro place lookup
      rw [same] at lookup
      rcases linked.placed key place external lookup with found | given
      · exact absurd (List.mem_of_getElem? found) member
      · exact .inr given
  · have unknown : key ∉ module.externals := by
      intro member
      nomatch (linked.external key member).symm.trans fresh
    have value_eq : symbols.value key = new := (result key).trans (if_pos rfl)
    refine linked.append unknown ?_ ?_ ?_
    · rw [value_eq, alike.isExternal]
      rfl
    · intro place lookup
      rw [value_eq, alike.external] at lookup
      obtain rfl : module.externalIndex key = place := Option.some.inj lookup
      exact .inl (List.idxOf_eq_length unknown)
    · intro other different
      rw [result, if_neg different]
      exact ⟨rfl, rfl⟩

/-- Whatever survives the declaration of one external survives that of all symbols which are left
undefined: each of them can still be made external when its turn comes. -/
theorem declareImplicitExternals_induction {P : Module → Prop} (start : P module)
    (declare : ∀ {module : Module} {key : SymbolKey} {symbols : SymbolTable}, P module →
      module.symbols.makeExternal key (module.externalIndex key) = .ok symbols →
      P { module.addExternal key with symbols }) : P module.declareImplicitExternals := by
  have open_ : ∀ key ∈ module.symbols.undefined,
      (module.symbols.value key).isUndefined ∨ (module.symbols.value key).isExternal :=
    fun key member => .inl (SymbolTable.isUndefined_of_mem member)
  unfold declareImplicitExternals
  generalize module.symbols.undefined = keys at open_
  induction keys generalizing module with
  | nil => exact start
  | cons first rest ih =>
    rw [List.foldl_cons]
    split
    · exact ih start fun key member => open_ key (List.mem_cons_of_mem _ member)
    obtain ⟨symbols, made⟩ := SymbolTable.makeExternal_of_isUndefined
      (open_ first List.mem_cons_self) (module.externalIndex first)
    rw [made]
    refine ih (declare start made) fun key member => ?_
    have before := open_ key (List.mem_cons_of_mem _ member)
    rcases SymbolTable.value_makeExternal made key with same | ⟨-, external⟩
    · rwa [same]
    · exact .inr external

theorem Linked.declareImplicitExternals (linked : module.Linked granted) :
    module.declareImplicitExternals.Linked granted :=
  declareImplicitExternals_induction linked fun linked made => linked.declareExternal made

theorem alike_declareImplicitExternals (external : (module.symbols.value key).isExternal) :
    (module.declareImplicitExternals.symbols.value key).Alike (module.symbols.value key) := by
  refine declareImplicitExternals_induction
    (P := fun later => (later.symbols.value key).Alike (module.symbols.value key)) ⟨rfl, rfl⟩ ?_
  intro later other symbols alike made
  have change : SymbolTable.Change .one later.symbols symbols := .makeExternal other _ made
  have kept := change.alike (alike.isExternal.trans external)
  exact ⟨kept.isExternal.trans alike.isExternal, kept.external.trans alike.external⟩

theorem Linked.preparePassTwo (linked : module.Linked granted) :
    module.preparePassTwo.Linked granted := by
  refine linked.of_alike rfl fun key => ?_
  change ((module.symbols.adjust _).value key).Alike _
  rw [SymbolTable.value_adjust]
  exact SymbolTable.alike_displace _ _

end Module

end CrayAssembler
