import CrayAssembler.Proofs.Assembly.Agreement
import Mathlib.Data.Set.BooleanAlgebra
import Mathlib.Order.CompletePartialOrder
import Mathlib.Order.Interval.Set.Basic

namespace CrayAssembler

namespace SymbolTable

theorem displace_of_address (offset : SectionId → Nat) {value : Value} {id : SectionId}
    (defined : value.isUndefined = false) (internal : value.isExternal = false)
    (home : value.home = some id) (address : value.addressKind ≠ .value) :
    displace offset value = { value with
      numeric := value.numeric + UInt64.ofNat (offset id * value.addressKind.perWord) } := by
  unfold displace
  rw [defined, internal, home, if_neg (by simpa using address)]

theorem displace_of_other (offset : SectionId → Nat) {value : Value}
    (other : value.isUndefined ∨ value.isExternal ∨ value.home = none ∨
      value.addressKind = .value) : displace offset value = value := by
  unfold displace
  split
  · rfl
  case isFalse address =>
    have homeless : value.home = none := by
      rcases other with undefined | external | homeless | plain
      · simp [undefined] at address
      · simp [external] at address
      · exact homeless
      · simp [plain] at address
    rw [homeless]

end SymbolTable

open SymbolTable (displace)

/-- One past the last word of a section that the layout starts at a word: as many words further on as
it had in pass 1, or where it already ended when a statement placed it. -/
def Section.layoutEnd (sec : Section) (start : Nat) : Nat :=
  if sec.placed then { sec with originOffset := start }.endWord else start + sec.size

namespace Module

section Offsets

variable {next i j : Nat} {sec first second : Section} {sections : List Section}

theorem layOutFrom_cons (next : Nat) (sec : Section) (rest : List Section) :
    layOutFrom next (sec :: rest) =
      { sec with originOffset := if sec.placed then 0 else next } ::
        layOutFrom (max next (sec.layoutEnd (if sec.placed then 0 else next))) rest := by
  unfold Section.layoutEnd
  rw [layOutFrom]
  split
  case isTrue => rfl
  case isFalse => rw [Nat.max_eq_right (Nat.le_add_right ..)]

/-- The word at which the layout from word `next` on starts a section. -/
def layoutStart (next : Nat) (sections : List Section) (i : Nat) : Nat :=
  ((layOutFrom next sections).map (·.originOffset)).getD i 0

@[simp] theorem layoutStart_zero (next : Nat) (sec : Section) (rest : List Section) :
    layoutStart next (sec :: rest) 0 = if sec.placed then 0 else next := by
  rw [layoutStart, layOutFrom_cons]
  rfl

@[simp] theorem layoutStart_succ (next : Nat) (sec : Section) (rest : List Section) (i : Nat) :
    layoutStart next (sec :: rest) (i + 1) =
      layoutStart (max next (sec.layoutEnd (layoutStart next (sec :: rest) 0))) rest i := by
  rw [layoutStart_zero, layoutStart, layOutFrom_cons]
  rfl

/-- The layout changes nothing but where sections start. -/
theorem getElem?_layOutFrom (next : Nat) (sections : List Section) (i : Nat) :
    (layOutFrom next sections)[i]? =
      sections[i]?.map fun sec => { sec with originOffset := layoutStart next sections i } := by
  induction sections generalizing next i with
  | nil => rfl
  | cons sec rest ih =>
    rw [layOutFrom_cons]
    cases i with
    | zero => simp
    | succ i => simp [ih]

theorem le_layoutStart (found : sections[i]? = some sec) (floating : sec.placed = false) :
    next ≤ layoutStart next sections i := by
  induction sections generalizing next i with
  | nil => nomatch found
  | cons top rest ih =>
    cases i with
    | zero =>
      obtain rfl : top = sec := Option.some.inj found
      rw [layoutStart_zero, floating]
      exact Nat.le_refl next
    | succ i =>
      rw [layoutStart_succ]
      exact Nat.le_trans (Nat.le_max_left ..) (ih found)

theorem layoutStart_of_placed (found : sections[i]? = some sec) (placed : sec.placed = true) :
    layoutStart next sections i = 0 := by
  induction sections generalizing next i with
  | nil => nomatch found
  | cons top rest ih =>
    cases i with
    | zero =>
      obtain rfl : top = sec := Option.some.inj found
      rw [layoutStart_zero, if_pos placed]
    | succ i =>
      rw [layoutStart_succ]
      exact ih found

/-- A section that is not placed starts past the end of every section before it. -/
theorem layoutEnd_le_layoutStart (before : i < j) (atFirst : sections[i]? = some first)
    (atSecond : sections[j]? = some second) (floating : second.placed = false) :
    first.layoutEnd (layoutStart next sections i) ≤ layoutStart next sections j := by
  induction sections generalizing next i j with
  | nil => nomatch atFirst
  | cons top rest ih =>
    cases j with
    | zero => omega
    | succ j =>
      rw [layoutStart_succ]
      cases i with
      | zero =>
        obtain rfl : top = first := Option.some.inj atFirst
        exact Nat.le_trans (Nat.le_max_right ..) (le_layoutStart atSecond floating)
      | succ i =>
        rw [layoutStart_succ]
        exact ih (by omega) atFirst atSecond

end Offsets

/-- How pass 2 finds a module that was laid out: where its sections lie, what became of its symbols,
and how the sections start again. -/
structure LaidOut (module later : Module) : Prop where
  /-- A placed section counts from the start of the module. -/
  placed : ∀ {i sec}, module.sections[i]? = some sec → sec.placed = true → later.offset i = 0
  /-- A section that is not placed starts past the end of every section before it. -/
  spaced : ∀ {i j first second}, i < j → module.sections[i]? = some first →
    module.sections[j]? = some second → second.placed = false →
      first.layoutEnd (later.offset i) ≤ later.offset j
  disjoint : ∀ {i j first second}, i ≠ j → module.sections[i]? = some first →
    module.sections[j]? = some second → first.placed = false → second.placed = false →
      Disjoint (Set.Ico (later.offset i) (later.offset i + first.size))
        (Set.Ico (later.offset j) (later.offset j + second.size))
  /-- An address moves with its section, in its own units. -/
  moved : ∀ {key value id}, module.symbols.get? key = some value → value.isUndefined = false →
    value.isExternal = false → value.home = some id → value.addressKind ≠ .value →
      later.symbols.get? key = some { value with
        numeric := value.numeric + UInt64.ofNat (later.offset id * value.addressKind.perWord) }
  /-- Whatever is no address in a section stays. -/
  stays : ∀ {key}, (∀ value, module.symbols.get? key = some value →
    value.isUndefined ∨ value.isExternal ∨ value.home = none ∨ value.addressKind = .value) →
      later.symbols.get? key = module.symbols.get? key
  length : later.sections.length = module.sections.length
  restarted : ∀ {i sec}, later.sections[i]? = some sec →
    sec.originOffset = later.offset i ∧ sec.originBits = later.offset i * wordBits ∧
      sec.locationBits = later.offset i * wordBits ∧ sec.block = .empty

variable {module : Module}

theorem offset_preparePassTwo (absolute : module.absolute = true) (id : SectionId) :
    module.preparePassTwo.offset id = layoutStart 0 module.sections id := by
  unfold offset preparePassTwo
  rw [absolute]
  dsimp only
  rw [if_pos rfl, List.map_map]
  rfl

theorem get?_preparePassTwo (module : Module) (key : SymbolKey) :
    module.preparePassTwo.symbols.get? key =
      (module.symbols.get? key).map (displace module.preparePassTwo.offset) := by
  refine (SymbolTable.get?_adjust ..).trans (congrArg (Option.map · _) (congrArg displace ?_))
  funext id
  unfold offset preparePassTwo
  dsimp only
  rw [List.map_map]
  rfl

theorem spaced_preparePassTwo (absolute : module.absolute = true) {i j : Nat}
    {first second : Section} (before : i < j) (atFirst : module.sections[i]? = some first)
    (atSecond : module.sections[j]? = some second) (floating : second.placed = false) :
    first.layoutEnd (module.preparePassTwo.offset i) ≤ module.preparePassTwo.offset j := by
  rw [offset_preparePassTwo absolute, offset_preparePassTwo absolute]
  exact layoutEnd_le_layoutStart before atFirst atSecond floating

/-- Two sections that are not placed lie apart, whichever of them comes first. -/
theorem apart_preparePassTwo (absolute : module.absolute = true) {i j : Nat}
    {first second : Section} (different : i ≠ j) (atFirst : module.sections[i]? = some first)
    (atSecond : module.sections[j]? = some second) (floating : first.placed = false)
    (alsoFloating : second.placed = false) :
    module.preparePassTwo.offset i + first.size ≤ module.preparePassTwo.offset j ∨
      module.preparePassTwo.offset j + second.size ≤ module.preparePassTwo.offset i := by
  have ends {sec : Section} (start : Nat) (free : sec.placed = false) :
      sec.layoutEnd start = start + sec.size := by
    rw [Section.layoutEnd, free]
    rfl
  rcases Nat.lt_or_gt_of_ne different with before | after
  · have spaced := spaced_preparePassTwo absolute before atFirst atSecond alsoFloating
    exact .inl (ends _ floating ▸ spaced)
  · have spaced := spaced_preparePassTwo absolute after atSecond atFirst floating
    exact .inr (ends _ alsoFloating ▸ spaced)

theorem laidOut_of_absolute (absolute : module.absolute = true) :
    module.LaidOut module.preparePassTwo where
  placed := by
    intro i sec found placed
    rw [offset_preparePassTwo absolute, layoutStart_of_placed found placed]
  spaced := spaced_preparePassTwo absolute
  disjoint := by
    intro i j first second different atFirst atSecond floating alsoFloating
    rw [Set.disjoint_left]
    intro word inFirst inSecond
    rw [Set.mem_Ico] at inFirst inSecond
    have apart := apart_preparePassTwo absolute different atFirst atSecond floating alsoFloating
    omega
  moved := by
    intro key value id found defined internal home address
    rw [get?_preparePassTwo, found, Option.map_some, SymbolTable.displace_of_address _ defined internal home
      address]
  stays := by
    intro key other
    rw [get?_preparePassTwo]
    cases found : module.symbols.get? key with
    | none => rfl
    | some value => rw [Option.map_some, SymbolTable.displace_of_other _ (other value found)]
  length := module.length_sections_preparePassTwo
  restarted := by
    intro i sec found
    obtain ⟨laid, atLaid, rfl⟩ : ∃ laid : Section,
        (layOutFrom 0 module.sections)[i]? = some laid ∧ laid.restart = sec := by
      unfold preparePassTwo at found
      rw [absolute] at found
      exact Option.map_eq_some_iff.mp ((List.getElem?_map ..).symm.trans found)
    rw [getElem?_layOutFrom, Option.map_eq_some_iff] at atLaid
    obtain ⟨old, -, rfl⟩ := atLaid
    rw [offset_preparePassTwo absolute]
    exact ⟨rfl, rfl, rfl, rfl⟩

section Counting

/-- A layout that does not run over 64 bits: sections that are not placed end below 2^64 words, and
all start below 2^64 bits. -/
structure Countable (module : Module) : Prop where
  ends : ∀ {i sec}, module.sections[i]? = some sec → sec.placed = false →
    module.preparePassTwo.offset i + sec.size < countLimit
  starts : ∀ {i sec}, module.sections[i]? = some sec →
    module.preparePassTwo.offset i * wordBits < countLimit

theorem counted?_eq_some {n m : Nat} : counted? n = some m ↔ n < countLimit ∧ n = m := by
  unfold counted?
  split
  case isTrue fits => exact ⟨fun same => ⟨fits, Option.some.inj same⟩, fun both => congrArg _ both.2⟩
  case isFalse beyond => exact ⟨nofun, fun both => absurd both.1 beyond⟩

/-- The words that the layout from a word on counts do not run over. -/
def LayoutFits (next : Nat) (sections : List Section) : Prop :=
  ∀ i sec, sections[i]? = some sec → sec.placed = false →
    layoutStart next sections i + sec.size < countLimit

theorem layoutFits_cons {next : Nat} {top : Section} {rest : List Section} :
    LayoutFits next (top :: rest) ↔ (top.placed = false → next + top.size < countLimit) ∧
      LayoutFits (max next (top.layoutEnd (if top.placed then 0 else next))) rest := by
  constructor
  · refine fun fits => ⟨fun floating => ?_, fun i sec found floating => ?_⟩
    · have own := fits 0 top rfl floating
      rwa [layoutStart_zero, if_neg (by simp [floating])] at own
    · have later := fits (i + 1) sec found floating
      rwa [layoutStart_succ, layoutStart_zero] at later
  · rintro ⟨own, later⟩ i sec found floating
    cases i with
    | zero =>
      obtain rfl := Option.some.inj found
      rw [layoutStart_zero, if_neg (by simp [floating])]
      exact own floating
    | succ i =>
      rw [layoutStart_succ, layoutStart_zero]
      exact later i sec found floating

theorem layOutFrom?_eq_some {next : Nat} {sections laid : List Section} :
    layOutFrom? next sections = some laid ↔
      LayoutFits next sections ∧ layOutFrom next sections = laid := by
  induction sections generalizing next laid with
  | nil =>
    have none : LayoutFits next [] := fun i sec found => by rw [List.getElem?_nil] at found; cases found
    exact ⟨fun same => ⟨none, Option.some.inj same⟩, fun both => congrArg some both.2⟩
  | cons top rest ih =>
    rw [layoutFits_cons, layOutFrom_cons, layOutFrom?]
    cases placed : top.placed with
    | true =>
      change (layOutFrom? (max next { top with originOffset := 0 }.endWord) rest).map _ = _ ↔ _
      rw [Option.map_eq_some_iff]
      have past : top.layoutEnd 0 = { top with originOffset := 0 }.endWord := if_pos placed
      simp only [ih, if_true, past]
      exact ⟨fun ⟨laid, ⟨fits, same⟩, whole⟩ => ⟨⟨nofun, fits⟩, same ▸ whole⟩,
        fun ⟨⟨_, fits⟩, whole⟩ => ⟨_, ⟨fits, rfl⟩, whole⟩⟩
    | false =>
      have past : max next (top.layoutEnd next) = next + top.size := by
        rw [Section.layoutEnd, placed]
        exact Nat.max_eq_right (Nat.le_add_right ..)
      simp only [if_false, Bool.false_eq_true, past, Option.bind_eq_bind, Option.bind_eq_some_iff,
        counted?_eq_some, ih, forall_const]
      constructor
      · rintro ⟨_, ⟨own, rfl⟩, _, ⟨fits, rfl⟩, whole⟩
        exact ⟨⟨own, fits⟩, Option.some.inj whole⟩
      · rintro ⟨⟨own, fits⟩, rfl⟩
        exact ⟨_, ⟨own, rfl⟩, _, ⟨fits, rfl⟩, rfl⟩

theorem mapM_restart?_eq_some {sections restarted : List Section} :
    sections.mapM Section.restart? = some restarted ↔
      (∀ sec ∈ sections, sec.originOffset * wordBits < countLimit) ∧
        sections.map Section.restart = restarted := by
  induction sections generalizing restarted with
  | nil =>
    exact ⟨fun same => ⟨List.forall_mem_nil _, Option.some.inj same⟩, fun both => congrArg some both.2⟩
  | cons sec sections ih =>
    have own {later : Section} : sec.restart? = some later ↔
        sec.originOffset * wordBits < countLimit ∧ sec.restart = later := by
      unfold Section.restart?
      rw [Option.map_eq_some_iff]
      simp only [counted?_eq_some]
      exact ⟨fun ⟨_, ⟨fits, _⟩, same⟩ => ⟨fits, same⟩, fun ⟨fits, same⟩ => ⟨_, ⟨fits, rfl⟩, same⟩⟩
    simp only [List.mapM_cons, Option.bind_eq_bind, Option.bind_eq_some_iff, own, ih,
      List.forall_mem_cons, List.map_cons]
    constructor
    · rintro ⟨_, ⟨fits, rfl⟩, _, ⟨others, rfl⟩, whole⟩
      exact ⟨⟨fits, others⟩, Option.some.inj whole⟩
    · rintro ⟨⟨fits, others⟩, rfl⟩
      exact ⟨_, ⟨fits, rfl⟩, _, ⟨others, rfl⟩, rfl⟩

theorem counted?_isSome {n : Nat} : (counted? n).isSome ↔ n < countLimit := by
  rw [Option.isSome_iff_exists]
  simp only [counted?_eq_some, exists_eq_right']

/-- No address moves by more units than its section moves by bits. -/
theorem adjust?_eq_some {offset : SectionId → Nat} (fits : ∀ id, offset id * wordBits < countLimit)
    (table : SymbolTable) : table.adjust? offset = some (table.adjust offset) := by
  refine if_pos (List.all_eq_true.mpr fun (key, value) _ => ?_)
  have units (id : SectionId) : offset id * value.addressKind.perWord < countLimit := by
    have few : value.addressKind.perWord ≤ wordBits := by
      cases value.addressKind <;> decide
    exact Nat.lt_of_le_of_lt (Nat.mul_le_mul_left _ few) (fits id)
  have home : value.home.all fun id =>
      (counted? (offset id * value.addressKind.perWord)).isSome := by
    cases value.home with
    | none => rfl
    | some id => exact counted?_isSome.mpr (units id)
  dsimp only [SymbolTable.displaceable]
  rw [home, Bool.or_true]

theorem starts_layOutFrom {next : Nat} {sections : List Section} :
    (∀ sec ∈ layOutFrom next sections, sec.originOffset * wordBits < countLimit) ↔
      ∀ i sec, sections[i]? = some sec → layoutStart next sections i * wordBits < countLimit := by
  constructor
  · intro fits i sec found
    have moved : (layOutFrom next sections)[i]? =
        some { sec with originOffset := layoutStart next sections i } := by
      rw [getElem?_layOutFrom, found, Option.map_some]
    have bound := fits _ (List.mem_of_getElem? moved)
    exact bound
  · intro fits sec member
    obtain ⟨i, found⟩ := List.getElem?_of_mem member
    rw [getElem?_layOutFrom, Option.map_eq_some_iff] at found
    obtain ⟨old, before, rfl⟩ := found
    exact fits i old before

/-- With counters of 64 bits an absolute module is made ready for pass 2 exactly if none of them runs
over, and then as it is without bounds. -/
theorem preparePassTwo?_eq_some (absolute : module.absolute = true) {later : Module} :
    module.preparePassTwo? = some later ↔ module.Countable ∧ module.preparePassTwo = later := by
  have countable : module.Countable ↔ LayoutFits 0 module.sections ∧
      ∀ sec ∈ layOutFrom 0 module.sections, sec.originOffset * wordBits < countLimit := by
    rw [starts_layOutFrom]
    constructor
    · intro fits
      refine ⟨fun i sec found floating => ?_, fun i sec found => ?_⟩
      · exact offset_preparePassTwo absolute i ▸ fits.ends found floating
      · exact offset_preparePassTwo absolute i ▸ fits.starts found
    · rintro ⟨ends, begins⟩
      refine ⟨fun found floating => ?_, fun found => ?_⟩
      · exact (offset_preparePassTwo absolute _).symm ▸ ends _ _ found floating
      · exact (offset_preparePassTwo absolute _).symm ▸ begins _ _ found
  have offsets (fits : ∀ sec ∈ layOutFrom 0 module.sections, sec.originOffset * wordBits < countLimit)
      (id : SectionId) :
      ((layOutFrom 0 module.sections).map (·.originOffset)).getD id 0 * wordBits < countLimit := by
    rw [List.getD_eq_getElem?_getD, List.getElem?_map]
    cases found : (layOutFrom 0 module.sections)[id]? with
    | none =>
      rw [Option.map_none, Option.getD_none, Nat.zero_mul]
      exact Nat.two_pow_pos wordBits
    | some sec => exact fits sec (List.mem_of_getElem? found)
  rw [countable]
  unfold preparePassTwo? preparePassTwo
  simp only [absolute, if_true, Option.bind_eq_bind, Option.bind_eq_some_iff, layOutFrom?_eq_some,
    mapM_restart?_eq_some]
  constructor
  · rintro ⟨_, ⟨ends, rfl⟩, symbols, moved, _, ⟨begins, rfl⟩, whole⟩
    rw [adjust?_eq_some (offsets begins)] at moved
    cases moved
    exact ⟨⟨ends, begins⟩, Option.some.inj whole⟩
  · rintro ⟨⟨ends, begins⟩, rfl⟩
    exact ⟨_, ⟨ends, rfl⟩, _, adjust?_eq_some (offsets begins) _, _, ⟨begins, rfl⟩, rfl⟩

end Counting

/-- What is done between the passes lays an absolute module out, as long as its counters of 64 bits do
not run over: sections that no statement placed lie apart and past all that comes before them,
addresses move with their sections, and everything starts again where it was put. -/
theorem laidOut_preparePassTwo (absolute : module.absolute = true) :
    (module.preparePassTwo?.isSome ↔ module.Countable) ∧
      ∀ later, module.preparePassTwo? = some later →
        later = module.preparePassTwo ∧ module.LaidOut later := by
  constructor
  · rw [Option.isSome_iff_exists]
    exact ⟨fun ⟨_, made⟩ => ((preparePassTwo?_eq_some absolute).mp made).1,
      fun fits => ⟨_, (preparePassTwo?_eq_some absolute).mpr ⟨fits, rfl⟩⟩⟩
  · intro later made
    obtain ⟨-, rfl⟩ := (preparePassTwo?_eq_some absolute).mp made
    exact ⟨rfl, laidOut_of_absolute absolute⟩

/-- An absolute module after pass 1: three words of code, an empty pool, two words placed from word 10
on, and words that no statement placed, of which a symbol names the third parcel. -/
def sampleLayout : Module :=
  { make "M" with
    absolute := true
    sections :=
      [(Section.make "" .mixed .cm).advance 160,
        .make "=" .data .cm,
        { ((Section.make "P" .mixed .cm).setOriginWord 10).advance 128 with placed := true },
        (Section.make "Q" .mixed .cm).advance 64]
    symbols := SymbolTable.empty.insert ⟨"", "X"⟩ (.address .parcel 3 2 true) }

theorem laidOut_sampleLayout :
    sampleLayout.absolute = true ∧ ∃ later, sampleLayout.preparePassTwo? = some later ∧
      sampleLayout.LaidOut later ∧ later.sections.map (·.originBits) = [0, 192, 0, 768] ∧
      later.symbols.get? ⟨"", "X"⟩ = some (.address .parcel 3 50 true) := by
  obtain ⟨later, made⟩ : ∃ later, sampleLayout.preparePassTwo? = some later := by
    rw [← Option.isSome_iff_exists]
    decide +kernel
  obtain ⟨rfl, laidOut⟩ := (laidOut_preparePassTwo rfl).2 later made
  have known : sampleLayout.symbols.get? ⟨"", "X"⟩ = some (.address .parcel 3 2 true) :=
    (SymbolTable.get?_insert ..).trans (if_pos rfl)
  exact ⟨rfl, _, made, laidOut, by decide, laidOut.moved known rfl rfl rfl (by decide)⟩

end Module

end CrayAssembler
