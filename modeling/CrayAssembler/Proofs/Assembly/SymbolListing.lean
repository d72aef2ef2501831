import CrayAssembler.Proofs.Assembly.Recurring
import Mathlib.Data.List.Basic
import Mathlib.Data.List.Nodup

namespace CrayAssembler

namespace SymbolKey

/-- The name and the qualifier are free of the mark that stands between them. -/
def Plain (key : SymbolKey) : Prop :=
  '/' ∉ key.name.toList ∧ '/' ∉ key.qualifier.toList

instance (key : SymbolKey) : Decidable key.Plain :=
  inferInstanceAs (Decidable (_ ∧ _))

theorem toList_qualifiedName (key : SymbolKey) :
    key.qualifiedName.toList =
      if key.qualifier = "" then key.name.toList
      else '/' :: (key.qualifier.toList ++ '/' :: key.name.toList) := by
  unfold qualifiedName
  by_cases outer : key.qualifier = ""
  · simp [outer]
  · simp [outer]

/-- No two symbols are listed under one name. -/
theorem qualifiedName_inj {key other : SymbolKey} (plain : key.Plain) (alsoPlain : other.Plain)
    (same : key.qualifiedName = other.qualifiedName) : key = other := by
  obtain ⟨qualifier, name⟩ := key
  obtain ⟨otherQualifier, otherName⟩ := other
  obtain ⟨nameFree, free⟩ := plain
  obtain ⟨otherNameFree, otherFree⟩ := alsoPlain
  have texts := congrArg String.toList same
  rw [toList_qualifiedName, toList_qualifiedName] at texts
  dsimp only at *
  split at texts
  case isTrue outer =>
    split at texts
    case isTrue alsoOuter => rw [outer, alsoOuter, String.toList_inj.mp texts]
    case isFalse => exact absurd (texts ▸ List.mem_cons_self) nameFree
  case isFalse =>
    split at texts
    case isTrue => exact absurd (texts ▸ List.mem_cons_self) otherNameFree
    case isFalse =>
      rw [List.cons.injEq, List.append_cons_inj_of_notMem free nameFree] at texts
      rw [String.toList_inj.mp texts.2.1, String.toList_inj.mp texts.2.2.2]

end SymbolKey

namespace SymbolTable

/-- Symbols that are listed, in order. -/
def shown (table : SymbolTable) : List SymbolKey :=
  (table.toList.filter fun (key, _) => !table.isShadow key).map (·.1)

variable {table : SymbolTable} {key : SymbolKey}

theorem mem_toList {value : Value} : (key, value) ∈ table.toList ↔ table.get? key = some value :=
  Std.TreeMap.mem_toList_iff_getElem?_eq_some

theorem nodup_shown (table : SymbolTable) : table.shown.Nodup := by
  unfold shown
  rw [List.Nodup, List.pairwise_map]
  refine (Std.TreeMap.distinct_keys_toList (t := table.values)).filter _ |>.imp ?_
  intro first second different same
  exact different (Std.compare_eq_iff_eq.mpr same)

theorem mem_shown : key ∈ table.shown ↔ (table.get? key).isSome = true ∧ table.isShadow key = false := by
  unfold shown
  rw [List.mem_map, Option.isSome_iff_exists]
  constructor
  · rintro ⟨⟨_, value⟩, listed, rfl⟩
    obtain ⟨inside, seen⟩ := List.mem_filter.mp listed
    exact ⟨⟨value, mem_toList.mp inside⟩, (Bool.not_eq_true' _).mp seen⟩
  · rintro ⟨⟨value, found⟩, seen⟩
    exact ⟨(key, value), List.mem_filter.mpr ⟨mem_toList.mpr found, (Bool.not_eq_true' _).mpr seen⟩, rfl⟩

theorem isSome_get?_of_defined (defined : (table.value key).isUndefined = false) :
    (table.get? key).isSome = true := by
  unfold value at defined
  cases found : table.get? key with
  | none =>
    rw [found] at defined
    nomatch defined
  | some value => rfl

/-- A symbol with a value is listed unless the empty qualifier has one of its name as well. -/
theorem mem_shown_of_defined (defined : (table.value key).isUndefined = false) :
    key ∈ table.shown ↔
      ¬(key.qualifier ≠ "" ∧ (table.value ⟨"", key.name⟩).isUndefined = false) := by
  rw [mem_shown, isSome_get?_of_defined defined, isShadow, isDefined_eq]
  simp

end SymbolTable

namespace Module

variable {module : Module}

theorem listedSymbols_eq (module : Module) :
    module.listedSymbols = module.symbols.shown.map fun key =>
      (key.qualifiedName, (module.symbols.value key).text) := by
  unfold listedSymbols SymbolTable.shown
  rw [List.map_map]
  refine List.map_congr_left fun ⟨key, value⟩ listed => ?_
  have found := SymbolTable.mem_toList.mp (List.mem_filter.mp listed).1
  dsimp only [Function.comp]
  rw [SymbolTable.value, found]
  rfl

end Module

namespace Asm

theorem listing_produceObject (context : Context) :
    (produceObject.run context).2.listing =
      if context.gives && context.list.current.lists .symbols then
        context.listing.push (.symbols context.currentModule.name context.currentModule.listedSymbols)
      else context.listing := by
  unfold produceObject Context.gives
  rw [StateT.run_bind, StateT.run_get, pure_bind]
  dsimp only
  split
  case isTrue wanted =>
    rw [wanted, Bool.true_and]
    split <;> split <;> rfl
  case isFalse wanted =>
    rw [eq_false_of_ne_true wanted]
    rfl

theorem listed_sealed (context : Context) :
    context.sealed.currentModule.name = context.currentModule.name ∧
      context.sealed.currentModule.listedSymbols = context.currentModule.listedSymbols := by
  unfold Context.sealed
  by_cases current : context.moduleIndex < context.modules.length
  · rw [Context.currentModule_modifyModule current]
    exact ⟨rfl, rfl⟩
  · unfold Context.modifyModule Context.currentModule
    rw [List.modify_eq_self (Nat.not_lt.mp current)]
    exact ⟨rfl, rfl⟩

/-- What closing a module adds to the listing. -/
theorem listing_closeModule (context : Context) :
    (closeModule.run context).2.listing =
      if context.sealed.gives && context.list.current.lists .symbols then
        context.listing.push (.symbols context.currentModule.name context.currentModule.listedSymbols)
      else context.listing := by
  have given (later : StatementState) :
      (produceObject.run { context.sealed with statement := later }).2.listing =
        if context.sealed.gives && context.list.current.lists .symbols then
          context.listing.push
            (.symbols context.currentModule.name context.currentModule.listedSymbols)
        else context.listing := by
    obtain ⟨name, symbols⟩ := listed_sealed context
    rw [← name, ← symbols]
    exact listing_produceObject _
  unfold closeModule
  rw [StateT.run_bind, StateT.run_get, pure_bind]
  dsimp only
  rw [StateT.run_bind, run_modifyModule, pure_bind]
  dsimp only
  split
  · exact given _
  · exact given context.statement

open SymbolTable in
/-- A module that gives an object module lists its symbols, if symbols are listed at all, one by one and
each with its qualified name and its value. A symbol that is defined is left out exactly if it belongs
to a named qualifier and the empty one defines its name. As long as no name holds the mark that
qualifiers are set in, there is one line under the name of every other one that is defined, and none
under the names of those left out. -/
theorem closeModule_lists {context : Context} (gives : context.sealed.gives = true)
    (wanted : context.list.current.lists .symbols = true) :
    let table := context.currentModule.symbols
    ∃ shown : List SymbolKey,
      (closeModule.run context).2.listing = context.listing.push (.symbols context.currentModule.name
        (shown.map fun key => (key.qualifiedName, (table.value key).text))) ∧
      shown.Nodup ∧
      (∀ key ∈ shown, (table.get? key).isSome = true) ∧
      (∀ key, (table.value key).isUndefined = false →
        (key ∈ shown ↔
          ¬(key.qualifier ≠ "" ∧ (table.value ⟨"", key.name⟩).isUndefined = false))) ∧
      ((∀ key, (table.get? key).isSome = true → key.Plain) →
        ∀ key, (table.value key).isUndefined = false →
          (shown.map fun other => (other.qualifiedName, (table.value other).text)).countP
              (fun line => line.1 = key.qualifiedName) =
            if key.qualifier ≠ "" ∧ (table.value ⟨"", key.name⟩).isUndefined = false then 0
            else 1) := by
  intro table
  refine ⟨table.shown, ?_, table.nodup_shown, fun key member => (mem_shown.mp member).1,
    fun key => mem_shown_of_defined, fun plain key defined => ?_⟩
  · rw [listing_closeModule, gives, wanted, Module.listedSymbols_eq]
    rfl
  · have lines : (table.shown.map fun other => (other.qualifiedName, (table.value other).text)).countP
        (fun line => line.1 = key.qualifiedName) = table.shown.count key := by
      rw [List.countP_map, List.count]
      refine List.countP_congr fun other member => ?_
      have inside := plain other (mem_shown.mp member).1
      have here := plain key (isSome_get?_of_defined defined)
      simp only [Function.comp_apply, decide_eq_true_eq, beq_iff_eq]
      exact ⟨SymbolKey.qualifiedName_inj inside here, fun same => by rw [same]⟩
    rw [lines]
    by_cases hidden : key.qualifier ≠ "" ∧ (table.value ⟨"", key.name⟩).isUndefined = false
    · rw [if_pos hidden]
      exact List.count_eq_zero.mpr fun listed => (mem_shown_of_defined defined).mp listed hidden
    · rw [if_neg hidden]
      exact List.count_eq_one_of_mem table.nodup_shown ((mem_shown_of_defined defined).mpr hidden)

end Asm

namespace Assembly

/-- A name that two qualifiers define, and others that one of them defines or mentions. -/
def qualifiedLines : List SourceLine :=
  [⟨1, "         IDENT    M", false⟩, ⟨2, "X        =        1", false⟩,
    ⟨3, "         QUAL     Q", false⟩, ⟨4, "X        =        2", false⟩,
    ⟨5, "Y        =        3", false⟩, ⟨6, "         QUAL     *", false⟩,
    ⟨7, "         END", false⟩]

/-- The module is closed by its last line. -/
theorem closeModule_lists_qualified :
    let context := passTwoAfter qualifiedLines "MAIN" {} ⟨"", "", ""⟩ 6
    context.sealed.gives = true ∧ context.list.current.lists .symbols = true ∧
      ∃ shown : List SymbolKey,
        (Asm.closeModule.run context).2.listing =
          context.listing.push (.symbols "M" (shown.map fun key =>
            (key.qualifiedName, (context.currentModule.symbols.value key).text))) ∧
        ⟨"Q", "Y"⟩ ∈ shown ∧ ⟨"Q", "X"⟩ ∉ shown ∧
        (shown.map fun key =>
          (key.qualifiedName, (context.currentModule.symbols.value key).text)).countP
            (fun line => line.1 = "/Q/Y") = 1 := by
  intro context
  -- One evaluation of the program gives all that is read off its state.
  have facts : context.sealed.gives = true ∧ context.list.current.lists .symbols = true ∧
      context.currentModule.name = "M" ∧
      (context.currentModule.symbols.value ⟨"", "X"⟩).isUndefined = false ∧
      (context.currentModule.symbols.value ⟨"Q", "X"⟩).isUndefined = false ∧
      (context.currentModule.symbols.value ⟨"Q", "Y"⟩).isUndefined = false ∧
      (context.currentModule.symbols.value ⟨"", "Y"⟩).isUndefined = true ∧
      ∀ entry ∈ context.currentModule.symbols.toList, entry.1.Plain := by
    decide +kernel
  obtain ⟨gives, wanted, name, first, second, third, alone, plain⟩ := facts
  obtain ⟨shown, listing, -, -, among, lines⟩ := Asm.closeModule_lists gives wanted
  rw [name] at listing
  have own : ¬((⟨"Q", "Y"⟩ : SymbolKey).qualifier ≠ "" ∧
      (context.currentModule.symbols.value ⟨"", "Y"⟩).isUndefined = false) := fun both =>
    nomatch alone.symm.trans both.2
  refine ⟨gives, wanted, shown, listing, (among _ third).mpr own,
    fun listed => (among _ second).mp listed ⟨by decide, first⟩, ?_⟩
  have count := lines (fun key known => ?_) ⟨"Q", "Y"⟩ third
  · rwa [if_neg own] at count
  · obtain ⟨value, found⟩ := Option.isSome_iff_exists.mp known
    exact plain (key, value) (SymbolTable.mem_toList.mpr found)

/-- A symbol that is defined is missing from the listing, since the empty qualifier defines its name as
well. -/
theorem definition_unlisted :
    let context := finalContext qualifiedLines "MAIN" {} ⟨"", "", ""⟩
    ((context.moduleAt 1).symbols.value ⟨"Q", "X"⟩).text = "2" ∧
      (context.moduleAt 1).symbols.isShadow ⟨"Q", "X"⟩ = true ∧
      Listing.Item.symbols "M" [("X", "1"), ("/Q/Y", "3")] ∈ context.listing ∧
      (context.listing.toList.filter fun
        | .symbols _ _ => true
        | _ => false).length = 1 := by
  decide +kernel

end Assembly

end CrayAssembler
