import CrayAssembler.Proofs.Akin.Insertion
import CrayAssembler.Proofs.Assembly.Roaming

namespace CrayAssembler

namespace DiagnosticSet

/-- No diagnostic is listed twice. -/
def Distinct (set : DiagnosticSet) : Prop :=
  set.toList.Nodup

theorem distinct_insert (set : DiagnosticSet) (d : Diagnostic) : (set.insert d).Distinct :=
  (by decide : Diagnostic.all.Nodup).sublist List.filter_sublist

theorem Distinct.noted {before after : DiagnosticSet} (distinct : before.Distinct)
    (noted : before.Noted after) : after.Distinct := by
  cases noted with
  | same => exact distinct
  | insert d => exact distinct_insert before d
  | cleared => exact List.nodup_nil

end DiagnosticSet

/-- Diagnostics without the mark of the end of a module. -/
def faults (diagnostics : List Diagnostic) : List Diagnostic :=
  diagnostics.filter (· ≠ .moduleEnd)

theorem mem_faults {diagnostics : List Diagnostic} {d : Diagnostic} (fault : d ≠ .moduleEnd) :
    d ∈ faults diagnostics ↔ d ∈ diagnostics := by
  unfold faults
  rw [List.mem_filter, decide_eq_true fault, and_iff_left rfl]

/-- The mark is neither an error nor a warning. -/
theorem countP_faults {p : Diagnostic → Bool} (blind : p .moduleEnd = false)
    (diagnostics : List Diagnostic) : (faults diagnostics).countP p = diagnostics.countP p := by
  unfold faults
  rw [List.countP_filter]
  refine List.countP_congr fun d _ => ?_
  cases d <;> simp [blind]

/-- The counts are those of the diagnostics over all reports, and what was seen is what is reported.
No report repeats itself. -/
structure Tally.Balanced (tally : Tally) (reports : List Report) : Prop where
  errors : tally.errors = (reports.flatMap (·.diagnostics)).countP Diagnostic.isError
  warnings : tally.warnings = (reports.flatMap (·.diagnostics)).countP Diagnostic.isWarning
  seen : ∀ d, d ≠ .moduleEnd →
    (tally.seen.contains d = true ↔ ∃ report ∈ reports, d ∈ report.diagnostics)
  distinct : ∀ report ∈ reports, report.diagnostics.Nodup

namespace Tally

theorem balanced_initial : Balanced {} [] where
  errors := rfl
  warnings := rfl
  seen _ _ := ⟨nofun, nofun⟩
  distinct := nofun

/-- A set of diagnostics is counted, and all faults in it are reported. Whether the mark of the end of
a module is reported as well does not matter. -/
theorem Balanced.add {tally : Tally} {reports more : List Report} {set : DiagnosticSet}
    (balanced : tally.Balanced reports) (distinct : ∀ report ∈ more, report.diagnostics.Nodup)
    (reported : faults (more.flatMap (·.diagnostics)) = faults set.toList) :
    (tally.add set).Balanced (reports ++ more) where
  errors := by
    rw [List.flatMap_append, List.countP_append, ← balanced.errors,
      ← countP_faults rfl (more.flatMap _), reported, countP_faults rfl]
    rfl
  warnings := by
    rw [List.flatMap_append, List.countP_append, ← balanced.warnings,
      ← countP_faults rfl (more.flatMap _), reported, countP_faults rfl]
    rfl
  seen d fault := by
    have added : set.contains d = true ↔ ∃ report ∈ more, d ∈ report.diagnostics := by
      rw [← List.mem_flatMap, ← mem_faults fault, reported, mem_faults fault]
      exact List.contains_iff_mem
    change (tally.seen.union set).contains d = true ↔ _
    rw [DiagnosticSet.contains_union, Bool.or_eq_true, balanced.seen d fault, added]
    simp only [List.mem_append, or_and_right, exists_or]
  distinct := by
    intro report member
    rcases List.mem_append.mp member with old | new
    · exact balanced.distinct report old
    · exact distinct report new

/-- There are reports of errors, and of warnings, as soon as any are counted. -/
theorem Balanced.failed_iff {tally : Tally} {reports : List Report}
    (balanced : tally.Balanced reports) (warningsFatal : Bool) :
    tally.failed warningsFatal = true ↔ ∃ report ∈ reports, ∃ d ∈ report.diagnostics,
      d.isError = true ∨ warningsFatal = true ∧ d.isWarning = true := by
  have counted (p : Diagnostic → Bool) : 0 < (reports.flatMap (·.diagnostics)).countP p ↔
      ∃ report ∈ reports, ∃ d ∈ report.diagnostics, p d = true := by
    simp only [List.countP_pos_iff, List.mem_flatMap]
    exact ⟨fun ⟨d, ⟨report, inside, listed⟩, holds⟩ => ⟨report, inside, d, listed, holds⟩,
      fun ⟨report, inside, d, listed, holds⟩ => ⟨d, ⟨report, inside, listed⟩, holds⟩⟩
  unfold failed
  rw [Bool.or_eq_true, Bool.and_eq_true, decide_eq_true_iff, decide_eq_true_iff, balanced.errors,
    balanced.warnings, counted, counted]
  constructor
  · rintro (⟨report, inside, d, listed, error⟩ | ⟨fatal, report, inside, d, listed, warning⟩)
    · exact ⟨report, inside, d, listed, .inl error⟩
    · exact ⟨report, inside, d, listed, .inr ⟨fatal, warning⟩⟩
  · rintro ⟨report, inside, d, listed, error | ⟨fatal, warning⟩⟩
    · exact .inl ⟨report, inside, d, listed, error⟩
    · exact .inr ⟨fatal, report, inside, d, listed, warning⟩

end Tally

namespace Asm

/-- The diagnostics of the current statement are listed once, and those of all statements before it
that were counted are reported. -/
structure Accounted (context : Context) : Prop where
  distinct : context.statement.diagnostics.Distinct
  balanced : context.tally.Balanced context.reports.toList

section Contexts

variable {context after : Context}

/-- The current statement, the counts and the reports are all that matters. -/
theorem Accounted.aside (accounted : Accounted context)
    (noted : context.statement.diagnostics.Noted after.statement.diagnostics)
    (tally : after.tally = context.tally) (reports : after.reports = context.reports) :
    Accounted after where
  distinct := accounted.distinct.noted noted
  balanced := by
    rw [tally, reports]
    exact accounted.balanced

end Contexts

section Statements

/-- The modules are neither counted nor reported. -/
theorem loose_accounted : Loose Accounted where
  aside noted accounted := accounted.aside noted rfl rfl
  modifyModule _ := .modify fun _ accounted => accounted.aside .same rfl rfl

/-- What statements place and where they go is neither counted nor reported. -/
theorem roams_accounted : Roams (.keeping Accounted) (fun _ => True) True :=
  loose_accounted.roams fun _ accounted => accounted.aside .same rfl rfl

theorem persists_accounted : Persists Accounted where
  inside keeps := keeps _ _ _ loose_accounted.survives roams_accounted
  closable :=
    { aside := fun _ noted accounted => accounted.aside noted rfl rfl
      placeLiterals := fun accounted => accounted.aside .same rfl rfl
      produce := fun _ accounted => accounted.aside .same rfl rfl }
  addModule _ accounted := accounted.aside .same rfl rfl
  enter _ accounted := accounted.aside .same rfl rfl

end Statements

section Counting

variable {context : Context}

theorem Accounted.counted (accounted : Accounted context) (number : LineNumber) (text : String)
    {set : DiagnosticSet} (distinct : set.Distinct) :
    Accounted (context.counted number text set) where
  distinct := accounted.distinct
  balanced := by
    have again : faults (faults set.toList) = faults set.toList := by
      unfold faults
      rw [List.filter_filter]
      simp only [Bool.and_self]
    unfold Context.counted
    dsimp only
    split
    case isTrue quiet =>
      rw [← List.append_nil context.reports.toList]
      exact accounted.balanced.add nofun (List.isEmpty_iff.mp quiet).symm
    case isFalse =>
      rw [Array.toList_push]
      refine accounted.balanced.add ?_ ?_
      · intro report member
        rw [List.mem_singleton.mp member]
        exact distinct.sublist List.filter_sublist
      · rw [List.flatMap_singleton]
        exact again

/-- The diagnostics of a statement are counted when it is finished in pass 2. -/
theorem accounted_finishStatement (text : String) (edited : Option String)
    (origin : Option FrameKind) : Keeps Accounted (finishStatement text edited origin) := by
  refine Takes.keeps fun context accounted => ?_
  obtain ⟨listing, finished⟩ := finishStatement_eq text edited origin context
  rw [finished]
  have rested : Accounted context.rest := accounted.aside .cleared rfl rfl
  have next : Accounted (if context.statement.diagnostics.contains .moduleEnd then
      context.rest.left else context.rest) := by
    split
    · exact rested.aside .same rfl rfl
    · exact rested
  have counted : Accounted (context.finished text) := by
    unfold Context.finished
    dsimp only
    split
    · exact next.counted _ text accounted.distinct
    · exact next
  exact counted.aside .same rfl rfl

/-- What closing the anonymous module draws is counted and reported as it is. -/
theorem Accounted.signedOff (accounted : Accounted context) (line : LineNumber) :
    Accounted (context.signedOff line) := by
  have silenced : Accounted context.silenced := accounted.aside .cleared rfl rfl
  unfold Context.signedOff
  dsimp only
  split
  · refine ⟨silenced.distinct, ?_⟩
    rw [Array.toList_push]
    refine accounted.balanced.add ?_ ?_
    · intro report member
      rw [List.mem_singleton.mp member]
      exact accounted.distinct
    · rw [List.flatMap_singleton]
  · exact silenced

theorem accounted_closeAnonymousModule (line : LineNumber) :
    Keeps Accounted (closeAnonymousModule line) := by
  refine Takes.keeps fun context accounted => ?_
  have entered : Accounted
      { context with moduleIndex := Context.anonymousModule, statement := { line } } :=
    accounted.aside .cleared rfl rfl
  rw [run_closeAnonymousModule]
  exact (persists_accounted.closable.closeModule _ entered).1.signedOff line

end Counting

section Passes

theorem assembles_accounted : Assembles Accounted Accounted :=
  persists_accounted.assembles accounted_finishStatement

theorem accounted_runPass (lines : List SourceLine) (pass : Pass) :
    Keeps Accounted (runPass lines pass) := by
  have started : Keeps Accounted (modify fun context => context.startPass pass : AsmM PUnit) :=
    .modify fun _ accounted => accounted.aside .same rfl rfl
  refine started.bind fun _ => (assembles_accounted.lines lines).bind fun _ => ?_
  exact (assembles_accounted.finishPass _ (accounted_closeAnonymousModule _).takes).keeps

theorem accounted_runPasses (lines : List SourceLine) : Keeps Accounted (runPasses lines) := by
  have between : Keeps Accounted (modify betweenPasses : AsmM PUnit) :=
    .modify fun _ accounted => accounted.aside .same rfl rfl
  refine (accounted_runPass lines .one).bind fun _ => ?_
  exact between.bind fun _ => accounted_runPass lines .two

theorem accounted_initial (settings : Settings) (clock : Clock) (name : String) :
    Accounted (.initial settings clock name) :=
  ⟨List.nodup_nil, Tally.balanced_initial⟩

end Passes

end Asm

/-- Every diagnostic that is counted is reported, once, and an assembly fails because of what it
reports. -/
theorem Assembly.reports_balanced (lines : List SourceLine) (name : String) (settings : Settings)
    (clock : Clock) :
    let assembly := ofLines lines name settings clock
    assembly.tally.Balanced assembly.reports ∧
      ∀ warningsFatal, assembly.failed warningsFatal = true ↔
        ∃ report ∈ assembly.reports, ∃ d ∈ report.diagnostics,
          d.isError = true ∨ warningsFatal = true ∧ d.isWarning = true := by
  have accounted := (Asm.accounted_runPasses lines _ (Asm.accounted_initial settings clock name)).1
  exact ⟨accounted.balanced, fun warningsFatal => accounted.balanced.failed_iff warningsFatal⟩

end CrayAssembler
