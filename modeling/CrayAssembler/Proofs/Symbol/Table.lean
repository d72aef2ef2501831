import CrayAssembler.Proofs.Value.Refers
import CrayAssembler.Symbol.Table

namespace CrayAssembler

namespace SymbolKey

instance : Std.TransOrd SymbolKey :=
  inferInstanceAs (Std.TransCmp (compareLex (compareOn SymbolKey.qualifier)
    (compareOn SymbolKey.name)))

instance : Std.LawfulEqOrd SymbolKey where
  eq_of_compare := by
    rintro ⟨leftQualifier, leftName⟩ ⟨rightQualifier, rightName⟩ equal
    obtain ⟨qualifiers, names⟩ := compareLex_eq_eq.mp equal
    obtain rfl : leftQualifier = rightQualifier := Std.LawfulEqOrd.eq_of_compare qualifiers
    obtain rfl : leftName = rightName := Std.LawfulEqOrd.eq_of_compare names
    rfl

end SymbolKey

namespace SymbolTable

theorem get?_empty (key : SymbolKey) : empty.get? key = none :=
  Std.TreeMap.getElem?_emptyc

theorem get?_insert (table : SymbolTable) (key other : SymbolKey) (value : Value) :
    (table.insert key value).get? other = if key = other then some value else table.get? other := by
  unfold get? insert
  rw [Std.TreeMap.getElem?_insert]
  by_cases same : key = other
  · rw [if_pos same, if_pos (Std.compare_eq_iff_eq.mpr same)]
  · rw [if_neg same, if_neg fun equal => same (Std.compare_eq_iff_eq.mp equal)]

theorem get?_adjust (table : SymbolTable) (offset : SectionId → Nat) (key : SymbolKey) :
    (table.adjust offset).get? key = (table.get? key).map (displace offset) :=
  Std.TreeMap.getElem?_map

/-- A value of a table that was changed in one place is the new one or was there before. -/
theorem eq_or_get?_of_insert {table : SymbolTable} {key other : SymbolKey} {value found : Value}
    (lookup : (table.insert key value).get? other = some found) :
    found = value ∨ table.get? other = some found := by
  rw [get?_insert] at lookup
  split at lookup
  · exact .inl (Option.some.inj lookup).symm
  · exact .inr lookup

/-- A definition that is accepted enters its value, up to the attributes of the symbol. -/
theorem define_eq_insert {table defined : SymbolTable} {key : SymbolKey} {value : Value}
    {redefinable : Bool} {pass : Pass} (made : table.define key value redefinable pass = .ok defined) :
    ∃ entry, defined = table.insert key { value with attributes :=
      { value.attributes.ofValue with
        redefinable, definedInPassTwo := pass = .two, entry } } := by
  unfold define at made
  dsimp only at made
  split at made
  · cases made
    exact ⟨false, rfl⟩
  case h_2 old _ =>
    split at made
    · nomatch made
    · cases made
      exact ⟨old.attributes.entry, rfl⟩

theorem reference_eq (table : SymbolTable) (key : SymbolKey) :
    table.reference key = ((table.get? key).getD .undefined, table.mention key) := by
  unfold reference mention
  cases table.get? key <;> rfl

theorem get?_mention (table : SymbolTable) (key other : SymbolKey) :
    (table.mention key).get? other =
      if key = other then some ((table.get? key).getD .undefined) else table.get? other := by
  unfold mention
  cases found : table.get? key with
  | none => exact get?_insert table key other .undefined
  | some value =>
    by_cases same : key = other
    · rw [if_pos same, ← same]
      exact found
    · rw [if_neg same]
      rfl

/-- All values refer to the first so many sections and externals. -/
def Refers (sections externals : Nat) (table : SymbolTable) : Prop :=
  ∀ key value, table.get? key = some value → value.Refers sections externals

variable {sections externals : Nat} {table : SymbolTable}

theorem refers_empty : empty.Refers sections externals := by
  intro key value found
  rw [get?_empty] at found
  nomatch found

theorem Refers.mono (refers : table.Refers sections externals) {moreSections moreExternals : Nat}
    (more : sections ≤ moreSections) (moreToo : externals ≤ moreExternals) :
    table.Refers moreSections moreExternals :=
  fun key value found => (refers key value found).mono more moreToo

theorem Refers.insert (refers : table.Refers sections externals) (key : SymbolKey) {value : Value}
    (new : value.Refers sections externals) : (table.insert key value).Refers sections externals := by
  intro other found lookup
  rcases eq_or_get?_of_insert lookup with rfl | old
  · exact new
  · exact refers other found old

theorem Refers.getD (refers : table.Refers sections externals) (key : SymbolKey) :
    ((table.get? key).getD .undefined).Refers sections externals := by
  cases found : table.get? key with
  | none => exact Value.refers_undefined
  | some value => exact refers key value found

theorem Refers.mention (refers : table.Refers sections externals) (key : SymbolKey) :
    (table.mention key).Refers sections externals := by
  unfold SymbolTable.mention
  split
  · exact refers
  · exact refers.insert key Value.refers_undefined

theorem Refers.define (refers : table.Refers sections externals) {defined : SymbolTable}
    {key : SymbolKey} {value : Value} {redefinable : Bool} {pass : Pass}
    (new : value.Refers sections externals)
    (made : table.define key value redefinable pass = .ok defined) :
    defined.Refers sections externals := by
  obtain ⟨entry, rfl⟩ := define_eq_insert made
  exact refers.insert key (new.of_same rfl rfl)

theorem Refers.markEntry (refers : table.Refers sections externals) (key : SymbolKey) :
    (table.markEntry key).Refers sections externals := by
  unfold SymbolTable.markEntry
  rw [reference_eq]
  exact (refers.mention key).insert key ((refers.getD key).of_same rfl rfl)

theorem Refers.makeExternal (refers : table.Refers sections externals) {key : SymbolKey}
    {index : Nat} {changed : SymbolTable} (known : index < externals)
    (made : table.makeExternal key index = .ok changed) : changed.Refers sections externals := by
  unfold SymbolTable.makeExternal at made
  rw [reference_eq] at made
  dsimp only at made
  split at made
  · cases made
    exact refers.mention key
  · split at made
    · nomatch made
    · cases made
      refine (refers.mention key).insert key ⟨nofun, ?_⟩
      rintro _ ⟨⟩
      exact known

theorem Refers.adjust (refers : table.Refers sections externals) (offset : SectionId → Nat) :
    (table.adjust offset).Refers sections externals := by
  intro key value found
  rw [get?_adjust, Option.map_eq_some_iff] at found
  obtain ⟨old, lookup, rfl⟩ := found
  refine (refers key old lookup).of_same ?_ ?_
  · unfold displace
    split
    · rfl
    · split <;> rfl
  · unfold displace
    split
    · rfl
    · split <;> rfl

end SymbolTable

end CrayAssembler
