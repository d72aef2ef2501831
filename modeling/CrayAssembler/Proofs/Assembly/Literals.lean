import CrayAssembler.Proofs.Assembly.Agreement
import CrayAssembler.Proofs.Assembly.Flushing

namespace CrayAssembler

namespace Asm

variable {start : Context}

section Passes

/-- A pass ends with the closing of the anonymous module. -/
theorem closes_finishPass (line : LineNumber) : Takes (Follows start) (finishPass line)
    fun final => ∃ last, Follows start last ∧ final = ((closeAnonymousModule line).run last).2 :=
  takes_finishPass line fun last follows => ⟨last, follows, rfl⟩

theorem closable_named : Closable Context.Named where
  aside _ _ named := named
  placeLiterals named := named_modifyModule named fun labelled => labelled.placeLiterals
  produce _ named := named

theorem named_finishPass (named : start.Named) (line : LineNumber) :
    Takes (Follows start) (finishPass line) Context.Named := by
  refine takes_finishPass line (takes_closeAnonymousModule line ?_ closable_named
    fun _ _ named => named)
  intro context follows
  have reached : context.Named := Steps.named follows.steps named
  exact reached

theorem closable_counted : Closable PoolsCounted where
  aside _ _ counted := counted
  placeLiterals {context} counted := by
    refine counted.of_same fun index => ?_
    rw [← literals_closed context index, Context.moduleAt_closed]
    rfl
  produce _ counted := counted

theorem counted_finishPass (counted : PoolsCounted start) (opened : start.Open)
    (line : LineNumber) : Takes (Follows start) (finishPass line) PoolsCounted := by
  refine takes_finishPass line (takes_closeAnonymousModule line ?_ closable_counted
    fun _ _ counted => counted)
  intro context follows
  obtain ⟨references, session⟩ := follows.sessions.session opened
  have reached : PoolsCounted context := counted.session session
  exact reached

theorem open_initial (settings : Settings) (clock : Clock) (name : String) :
    ((Context.initial settings clock name).startPass .one).Open :=
  ⟨rfl, rfl, nofun, nofun⟩

end Passes

end Asm

namespace Assembly

variable (lines : List SourceLine) (name : String) (settings : Settings) (clock : Clock)

/-- What holds at the end of a pass that began with the initial context holds after pass 1. -/
theorem passOneEnd_of_finishPass {Q : Context → Prop}
    (ends : ∀ line, Asm.Takes (Asm.Follows ((Context.initial settings clock name).startPass .one))
      (Asm.finishPass line) Q) : Q (passOneEnd lines name settings clock) := by
  have begun : Asm.Follows ((Context.initial settings clock name).startPass .one)
      ((Context.initial settings clock name).startPass .one) :=
    ⟨Asm.sound_initial settings clock name, .refl⟩
  unfold passOneEnd Asm.runPass
  exact ((Asm.follows_lines lines).takesBind fun _ => ends _) _ begun

theorem named_passTwoStart : (passTwoStart lines name settings clock).Named := by
  have ended : (passOneEnd lines name settings clock).Named := by
    refine passOneEnd_of_finishPass lines name settings clock (Asm.named_finishPass ?_)
    intro module member
    rw [List.mem_singleton.mp member]
    rfl
  intro module member
  obtain ⟨old, inside, rfl⟩ := List.mem_map.mp member
  refine Module.Labelled.preparePassTwo ?_
  split
  · exact (ended old inside).of_sections (Module.declareImplicitExternals_kept old).1
  · exact ended old inside

theorem literals_passTwoStart (index : Nat) :
    ((passTwoStart lines name settings clock).moduleAt index).literals =
      ((passOneEnd lines name settings clock).moduleAt index).literals := by
  rw [moduleAt_passTwoStart]
  split
  case isTrue =>
    split
    · exact (Module.declareImplicitExternals_kept _).2
    · rfl
  case isFalse beyond => rw [Context.moduleAt_of_le (Nat.not_lt.mp beyond)]

theorem counted_passTwoStart : Asm.PoolsCounted (passTwoStart lines name settings clock) := by
  have ended : Asm.PoolsCounted (passOneEnd lines name settings clock) := by
    refine passOneEnd_of_finishPass lines name settings clock
      (Asm.counted_finishPass ?_ (Asm.open_initial settings clock name))
    intro index entry member
    cases index <;> nomatch member
  exact ended.of_same (literals_passTwoStart lines name settings clock)

theorem blank_passTwoStart (index : Nat) :
    (((passTwoStart lines name settings clock).moduleAt index).getSection literalsSection).Blank := by
  obtain ⟨sec, restarted⟩ := section_passTwoStart lines name settings clock index literalsSection
  rw [restarted]
  exact Section.blank_restart sec

theorem flushed_passTwoStart :
    Asm.Flushed (passTwoStart lines name settings clock) (passTwoStart lines name settings clock) where
  sound := sound_passTwoStart lines name settings clock
  second := rfl
  opened := open_passTwoStart lines name settings clock
  named := named_passTwoStart lines name settings clock
  apart := by
    change literalsSection ∉ [nominalSection]
    decide
  waiting _ _ := rfl
  ended index ended := by
    rw [unended_passTwoStart] at ended
    nomatch ended

/-- Every line of pass 2 is assembled in a session that ends with the closing of the anonymous
module. -/
theorem sessions_passTwo (count : Nat) :
    ∃ references more last line,
      Asm.Session (passTwoStart lines name settings clock) references
        (((lines.take count).forM Asm.assembleSourceLine).run
          (passTwoStart lines name settings clock)).2 ∧
      Asm.Session (((lines.take count).forM Asm.assembleSourceLine).run
        (passTwoStart lines name settings clock)).2 more last ∧
      finalContext lines name settings clock = ((Asm.closeAnonymousModule line).run last).2 := by
  have opened := open_passTwoStart lines name settings clock
  have begun := (Asm.follows_lines (lines.take count) _
    ⟨sound_passTwoStart lines name settings clock, .refl⟩).1
  have rest := (Asm.follows_lines (lines.drop count) _ ⟨begun.sound, .refl⟩).1
  obtain ⟨references, session⟩ := begun.sessions.session opened
  obtain ⟨last, follows, closed⟩ :=
    Asm.closes_finishPass ((lines.getLast?.map (·.number + 1)).getD 1) _ rest
  obtain ⟨more, later⟩ := follows.sessions.session (session.stays_open opened)
  refine ⟨references, more, last, _, session, later, Eq.trans ?_ closed⟩
  rw [finalContext_eq]
  unfold Asm.runPass
  rw [Asm.forM_take_drop lines count]
  rfl

/-- Literals in object modules. Every line of pass 2 is assembled in a session, and all object
modules are given by the end of it. A reference to a literal, anywhere in such a session, is the
address of a place in the block of literals of its module, which is that of the text. If the module
is closed, the image has there the words of the last reference in the module with the same text:
those of the reference itself, unless a later one comes to others. -/
theorem literal_last_reference :
    (∀ count, ∃ references more last line,
      Asm.Session (passTwoStart lines name settings clock) references
        (((lines.take count).forM Asm.assembleSourceLine).run
          (passTwoStart lines name settings clock)).2 ∧
      Asm.Session (((lines.take count).forM Asm.assembleSourceLine).run
        (passTwoStart lines name settings clock)).2 more last ∧
      (ofLines lines name settings clock).objects =
        ((Asm.closeAnonymousModule line).run last).2.objects.toList) ∧
    ∀ references here key operand evaluation after more last line final,
      Asm.Session (passTwoStart lines name settings clock) references here →
      (Expr.literal key operand).Written →
      ((Expr.literal key operand).evaluate Asm.surroundings).run here = (.ok evaluation, after) →
      Asm.Session after more last →
      ((Asm.closeAnonymousModule line).run last).2 = final →
      let module := final.moduleAt here.moduleIndex
      module.ended = true →
      ∃ words, Asm.ComesTo here words operand ∧
        let found := Asm.lastWords here.moduleIndex key words more
        (found ≠ [] → module.toObject ∈ final.objects ∧
          ∃ block ∈ module.toObject.blocks, ∃ image,
            block.index = UInt64.ofNat literalsSection ∧ block.image = some image ∧
            image.loadWord = 0 ∧ evaluation.value.home = some literalsSection ∧
            evaluation.value.addressKind = .word ∧
            evaluation.value.numeric = block.origin + UInt64.ofNat (module.literals.offset key) ∧
            (image.words.drop (module.literals.offset key)).take found.length = found) := by
  constructor
  · intro count
    obtain ⟨references, more, last, line, first, rest, closed⟩ :=
      sessions_passTwo lines name settings clock count
    exact ⟨references, more, last, line, first, rest, by rw [← closed]; rfl⟩
  · intro references here key operand evaluation after more last line final session written
      evaluated later closed module ended
    have flushed := flushed_passTwoStart lines name settings clock
    have counted := counted_passTwoStart lines name settings clock
    have before := flushed.session session
    obtain ⟨words, nested, middle, comes, length, run, rfl, value⟩ :=
      Asm.reference_of_evaluate before.sound before.second written.keyed evaluated
    have read := before.run run
    have index : middle.moduleIndex = here.moduleIndex := run.level.moduleIndex
    have whole := ((session.run run).run (.refer key words .refl length)).trans later
    have given := (flushed.session whole).given (blank_passTwoStart lines name settings clock) closed
      ended
    have held : Asm.Holds final here.moduleIndex key (middle.currentModule.literals.offset key)
        (Asm.lastWords here.moduleIndex key words more) := by
      have entered := Asm.holds_refer ((counted.session session).run run) read.sound.current_lt length
      rw [index] at entered
      refine (entered.session later).of_same fun index => ?_
      rw [← closed]
      exact Asm.literals_closeAnonymousModule last line index
    refine ⟨words, comes, fun some => ?_⟩
    have filled : module.literals.words ≠ [] := by
      intro empty
      have nothing := held.at_place
      rw [empty, List.drop_nil, List.take_nil] at nothing
      exact some nothing.symm
    obtain ⟨block, member, number, origin, image⟩ :=
      given.block (blank_passTwoStart lines name settings clock _) filled
    rw [show module.literals.offset key = _ from held.offset]
    refine ⟨given.object_mem filled, block, member, _, number, image, rfl, ?_, ?_, ?_, held.at_place⟩
    · rw [value]
      rfl
    · rw [value]
      rfl
    · have waiting := read.waiting _ read.opened.current
      rw [value, origin, ← UInt64.ofNat_add, ← index, ← waiting]
      rfl

/-- Outside all modules, a symbol that may be set again. -/
def settable : List SourceLine := [⟨1, "X        SET       1", false⟩]

/-- A reference comes to 1 and a later one with the same text to 2; the image has 2. -/
theorem literal_last_reference_settable :
    let start := passTwoStart settable "MAIN" {} ⟨"", "", ""⟩
    let first := ((Expr.literal "X" (.symbol ⟨none, "X"⟩)).evaluate Asm.surroundings).run start
    let final := ((Asm.closeAnonymousModule 2).run (first.2.refer "X" [2])).2
    Asm.ComesTo start [1] (.symbol ⟨none, "X"⟩) ∧
      (final.moduleAt 0).toObject ∈ final.objects ∧
      ∃ block ∈ (final.moduleAt 0).toObject.blocks, ∃ image, block.image = some image ∧
        (image.words.drop ((final.moduleAt 0).literals.offset "X")).take 1 = [2] := by
  intro start first final
  have index : first.2.moduleIndex = 0 := by decide +kernel
  have stored : (((Expr.symbol ⟨none, "X"⟩).evaluate Asm.surroundings).run start).1.toOption.bind
      (fun evaluation => (Asm.storedWord evaluation.value).toOption) = some 1 := by
    decide +kernel
  have written : (Expr.literal "X" (.symbol ⟨none, "X"⟩)).Written := by
    refine .operand "=X".toList false ?_
    have read : (Expr.parseComplete (tokenize "=X".toList false) "=X".toList).toOption =
        some (.literal "X" (.symbol ⟨none, "X"⟩)) := by
      decide +kernel
    cases parsed : Expr.parseComplete (tokenize "=X".toList false) "=X".toList with
    | error reason => rw [parsed] at read; nomatch read
    | ok expr => rw [parsed] at read; exact congrArg _ (Option.some.inj read)
  have ended : (final.moduleAt 0).ended = true := by decide +kernel
  have later : Asm.Session first.2 [⟨0, "X", [2]⟩] (first.2.refer "X" [2]) := by
    rw [← index]
    exact .run .refl (.refer "X" [2] .refl (by decide +kernel))
  cases evaluated : first.1 with
  | error kind =>
    have succeeds : first.1.toBool = true := by decide +kernel
    rw [evaluated] at succeeds
    nomatch succeeds
  | ok evaluation =>
  obtain ⟨words, ⟨known, word, read, same, rfl⟩, held⟩ :=
    (literal_last_reference settable "MAIN" {} ⟨"", "", ""⟩).2 _ start "X" _ evaluation first.2 _ _ 2
      final .refl written (Prod.ext evaluated rfl) later rfl ended
  have one : word = 1 := by
    rw [read] at stored
    change (Asm.storedWord known.value).toOption = some 1 at stored
    rw [same] at stored
    exact Option.some.inj stored
  obtain ⟨member, block, inside, image, -, found, -, -, -, -, words⟩ := held (List.cons_ne_nil _ _)
  exact ⟨⟨known, word, read, same, by rw [one]⟩, member, block, inside, image, found, words⟩

/-- References do not always find what they came to. A literal is told by its text, so that the
second reference of a program overwrites what the first has entered. And a module may never be
closed, without any fault, if its `END` has become the name of a macro; it gives no object module. -/
theorem literals_lost :
    (let assembly := ofLines [⟨1, "         IDENT     M", false⟩,
      ⟨2, "X        SET       1", false⟩, ⟨3, "         CON       =X", false⟩,
      ⟨4, "X        SET       2", false⟩, ⟨5, "         CON       =X", false⟩,
      ⟨6, "         END", false⟩] "MAIN" {} ⟨"", "", ""⟩
    assembly.tally.errors = 0 ∧
      assembly.objects.map (fun object => object.blocks.map fun block =>
        (block.image, block.relocations)) =
        [[(some ⟨0, [0, 0]⟩, [⟨.extended, 1, 0, 64, false⟩, ⟨.extended, 1, 64, 64, false⟩]),
          (some ⟨0, [2]⟩, [])]]) ∧
    let assembly := ofLines [⟨1, "         IDENT     M", false⟩, ⟨2, "         MACRO", false⟩,
      ⟨3, "         END", false⟩, ⟨4, "         CON       7", false⟩,
      ⟨5, "END      ENDM", false⟩, ⟨6, "         CON       =5", false⟩] "MAIN" {} ⟨"", "", ""⟩
    assembly.tally.errors = 0 ∧ assembly.objects = [] := by
  decide +kernel

end Assembly

end CrayAssembler
