import CrayAssembler.Proofs.Source.Comments
import Mathlib.Data.List.Forall2

namespace CrayAssembler

/-- What a run of identifier characters becomes. It is a word unless it begins with a digit. -/
def replacement (value : String → Option String) (run : List Char) : List Char :=
  if Identifier.valid run then ((value (String.ofList run)).map String.toList).getD run else run

/-- The second text is the first one with its words replaced. Runs of identifier characters are as
long as they can be. -/
inductive Replaced (value : String → Option String) : List Char → List Char → Prop
  | nil : Replaced value [] []
  | between {c : Char} {rest shown : List Char} (apart : Identifier.bodyChar c = false) :
      Replaced value rest shown → Replaced value (c :: rest) (c :: shown)
  | run {run rest shown : List Char} (solid : run ≠ []) (body : ∀ c ∈ run, Identifier.bodyChar c)
      (ends : ∀ c ∈ rest.head?, Identifier.bodyChar c = false) :
      Replaced value rest shown → Replaced value (run ++ rest) (replacement value run ++ shown)

namespace Replaced

variable {value : String → Option String} {line shown other run rest : List Char}

theorem takeWhile_run (body : ∀ c ∈ run, Identifier.bodyChar c)
    (ends : ∀ c ∈ rest.head?, Identifier.bodyChar c = false) :
    (run ++ rest).takeWhile Identifier.bodyChar = run ∧
      (run ++ rest).dropWhile Identifier.bodyChar = rest := by
  rw [List.takeWhile_append_of_pos body, List.dropWhile_append_of_pos body]
  cases rest with
  | nil => exact ⟨List.append_nil _, rfl⟩
  | cons c rest =>
    have apart := ends c rfl
    rw [List.takeWhile_cons_of_neg (by simp [apart]), List.dropWhile_cons_of_neg (by simp [apart])]
    exact ⟨List.append_nil _, rfl⟩

/-- A line that begins with an identifier character begins with a run of them. -/
theorem exists_run {c : Char} (inside : Identifier.bodyChar c) (line : List Char) :
    ∃ run rest, c :: line = run ++ rest ∧ run ≠ [] ∧ (∀ d ∈ run, Identifier.bodyChar d) ∧
      ∀ d ∈ rest.head?, Identifier.bodyChar d = false := by
  refine ⟨(c :: line).takeWhile Identifier.bodyChar, (c :: line).dropWhile Identifier.bodyChar,
    List.takeWhile_append_dropWhile.symm, ?_, fun d member => List.mem_takeWhile_imp member,
    fun d first => ?_⟩
  · rw [List.takeWhile_cons_of_pos inside]
    exact List.cons_ne_nil _ _
  · have stopped := List.head?_dropWhile_not Identifier.bodyChar (c :: line)
    rw [show ((c :: line).dropWhile Identifier.bodyChar).head? = some d from first] at stopped
    simpa using stopped

/-- A line has one text in which its words are replaced. -/
theorem unique (first : Replaced value line shown) (second : Replaced value line other) :
    shown = other := by
  induction first generalizing other with
  | nil =>
    generalize same : [] = line at second
    cases second with
    | nil => rfl
    | between => nomatch same
    | run solid => exact absurd (List.append_eq_nil_iff.mp same.symm).1 solid
  | @between c rest shown apart _ ih =>
    generalize same : c :: rest = line at second
    cases second with
    | nil => nomatch same
    | between _ second =>
      cases same
      rw [ih second]
    | run solid body =>
      obtain ⟨first, run, rfl⟩ := List.exists_cons_of_ne_nil solid
      cases same
      rw [body c List.mem_cons_self] at apart
      nomatch apart
  | @run run rest shown solid body ends _ ih =>
    generalize same : run ++ rest = line at second
    cases second with
    | nil => exact absurd (List.append_eq_nil_iff.mp same).1 solid
    | between apart =>
      obtain ⟨first, run, rfl⟩ := List.exists_cons_of_ne_nil solid
      cases same
      rw [body _ List.mem_cons_self] at apart
      nomatch apart
    | @run _ _ _ _ bodyToo endsToo second =>
      obtain ⟨taken, dropped⟩ := takeWhile_run body ends
      obtain ⟨takenToo, droppedToo⟩ := takeWhile_run bodyToo endsToo
      rw [same, takenToo] at taken
      rw [same, droppedToo] at dropped
      subst taken dropped
      rw [ih second]

/-- Words that are replaced by themselves leave a line as it is. -/
theorem eq_of_same (same : ∀ name text, value name = some text → text = name)
    (replaced : Replaced value line shown) : shown = line := by
  induction replaced with
  | nil => rfl
  | between _ _ ih => rw [ih]
  | @run run _ _ _ _ _ _ ih =>
    have kept : replacement value run = run := by
      unfold replacement
      split
      · cases known : value (String.ofList run) with
        | none => rfl
        | some text =>
          rw [same _ _ known]
          exact String.toList_ofList
      · rfl
    rw [ih, kept]

end Replaced

namespace Fragment

/-- What a line of a body comes to. -/
def shown (bindings : List (String × String)) (line : List Fragment) : List Char :=
  (String.join (line.map (render bindings))).toList

variable {bindings : List (String × String)} {parameters : List String}

theorem shown_cons (fragment : Fragment) (line : List Fragment) :
    shown bindings (cons fragment line) = (fragment.render bindings).toList ++ shown bindings line := by
  have plain : shown bindings (fragment :: line) =
      (fragment.render bindings).toList ++ shown bindings line := by
    unfold shown
    rw [List.map_cons, String.join_cons, String.toList_append]
  rcases fragment with before | name
  · rcases line with _ | ⟨after | name, line⟩
    · exact plain
    · unfold shown cons
      simp only [List.map_cons, String.join_cons, String.toList_append, render, List.append_assoc]
    · exact plain
  · exact plain

/-- A line is divided behind a run of identifier characters. -/
theorem runs_append {run rest : List Char} (solid : run ≠ [])
    (body : ∀ c ∈ run, Identifier.bodyChar c)
    (ends : ∀ c ∈ rest.head?, Identifier.bodyChar c = false) :
    runs (run ++ rest) = run :: runs rest := by
  induction run with
  | nil => exact absurd rfl solid
  | cons c run ih =>
    obtain ⟨first, body⟩ := List.forall_mem_cons.mp body
    rw [List.cons_append, runs]
    rcases run with _ | ⟨d, run⟩
    · rcases rest with _ | ⟨d, rest⟩
      · rfl
      · have apart := ends d rfl
        rw [List.nil_append, runs_cons apart]
        simp [apart]
    · rw [ih (List.cons_ne_nil _ _) body]
      simp [first, body d List.mem_cons_self]

theorem ofLine_append {run rest : List Char} (solid : run ≠ [])
    (body : ∀ c ∈ run, Identifier.bodyChar c)
    (ends : ∀ c ∈ rest.head?, Identifier.bodyChar c = false) :
    ofLine (run ++ rest) parameters =
      cons (if parameters.contains (String.ofList run) then .parameter (String.ofList run)
        else .text (String.ofList run)) (ofLine rest parameters) := by
  unfold ofLine
  rw [runs_append solid body ends]
  rfl

section Parameters

variable {value : String → Option String}
  (proper : ∀ name ∈ parameters, Fields.isIdentifier name)
  (bound : ∀ name ∈ parameters, value name = some ((bindings.lookup name).getD ""))
  (others : ∀ name, name ∉ parameters → value name = none)

include proper bound others

/-- A run of identifier characters is shown as what replaces it. -/
theorem render_run (run : List Char) :
    (render bindings (if parameters.contains (String.ofList run) then .parameter (String.ofList run)
      else .text (String.ofList run))).toList = replacement value run := by
  unfold replacement
  cases named : parameters.contains (String.ofList run) with
  | true =>
    have member := List.contains_iff_mem.mp named
    have valid := proper _ member
    rw [Fields.isIdentifier, String.toList_ofList] at valid
    rw [if_pos rfl, if_pos valid, bound _ member]
    rfl
  | false =>
    have unknown : value (String.ofList run) = none := others _ fun member => by
      rw [List.contains_iff_mem.mpr member] at named
      cases named
    rw [if_neg Bool.false_ne_true, unknown]
    change (String.ofList run).toList = ite _ run run
    rw [ite_self, String.toList_ofList]

/-- The words of a line that are parameters have been replaced by what is bound to them. -/
theorem replaced_shown (line : List Char) :
    Replaced value line (shown bindings (ofLine line parameters)) := by
  induction size : line.length using Nat.strong_induction_on generalizing line with
  | _ size ih =>
    rcases line with _ | ⟨c, rest⟩
    · exact .nil
    cases apart : Identifier.bodyChar c with
    | false =>
      rw [ofLine_cons proper apart, shown_cons, render, String.toList_ofList]
      refine .between apart (ih rest.length ?_ rest rfl)
      rw [← size]
      exact Nat.lt_succ_self _
    | true =>
      obtain ⟨run, after, parts, solid, body, ends⟩ := Replaced.exists_run apart rest
      rw [parts] at size ⊢
      rw [ofLine_append solid body ends, shown_cons, render_run proper bound others]
      refine .run solid body ends (ih after.length ?_ after rfl)
      rw [← size, List.length_append]
      exact Nat.lt_add_of_pos_left (List.length_pos_of_ne_nil solid)

end Parameters

end Fragment

namespace MacroDefinition

/-- The keyword that an argument is for, and what it gives. -/
def keywordArgument? (keywords : List String) (argument : List Char) :
    Option (List Char × List Char) :=
  (Text.cut '=' argument).filter fun (name, _) => keywords.contains (String.ofList name)

/-- Arguments that are for positional parameters, in order. -/
def positionalArguments (keywords : List String) (arguments : List (List Char)) :
    List (List Char) :=
  arguments.filter fun argument => (keywordArgument? keywords argument).isNone

/-- What is given last for a keyword. -/
def lastGiven? (keywords : List String) (arguments : List (List Char)) (name : String) :
    Option (List Char) :=
  ((arguments.filterMap (keywordArgument? keywords)).filter fun (keyword, _) =>
    String.ofList keyword = name).getLast?.map (·.2)

/-- The text of an argument: parentheses that begin and end it are left out. -/
def argumentText (argument : List Char) : String :=
  String.ofList (Fields.withoutParens argument)

/-- What the arguments of a call assign to a parameter. -/
def assigned? (keywords positional : List String) (arguments : List (List Char)) (name : String) :
    Option String :=
  if name ∈ positional then
    (positionalArguments keywords arguments)[positional.idxOf name]?.map argumentText
  else (lastGiven? keywords arguments name).map argumentText

section Arguments

variable {keywords positional : List String} {bindings : List (String × String)}
  {argument : List Char} {arguments : List (List Char)} {given : List Char × List Char}
  {name parameter : String}

theorem positionalArguments_cons_some (keyword : keywordArgument? keywords argument = some given) :
    positionalArguments keywords (argument :: arguments) = positionalArguments keywords arguments := by
  unfold positionalArguments
  rw [List.filter_cons_of_neg (by simp [keyword])]

theorem positionalArguments_cons_none (plain : keywordArgument? keywords argument = none) :
    positionalArguments keywords (argument :: arguments) =
      argument :: positionalArguments keywords arguments := by
  unfold positionalArguments
  rw [List.filter_cons_of_pos (by simp [plain])]

theorem lastGiven?_cons_some (keyword : keywordArgument? keywords argument = some given) :
    lastGiven? keywords (argument :: arguments) name = (lastGiven? keywords arguments name).or
      (if String.ofList given.1 = name then some given.2 else none) := by
  unfold lastGiven?
  rw [List.filterMap_cons_some keyword]
  by_cases same : String.ofList given.1 = name
  · rw [List.filter_cons_of_pos (by simp [same]), if_pos same, List.getLast?_cons]
    cases ((arguments.filterMap (keywordArgument? keywords)).filter _).getLast? <;> rfl
  · rw [List.filter_cons_of_neg (by simp [same]), if_neg same, Option.or_none]

theorem lastGiven?_cons_none (plain : keywordArgument? keywords argument = none) :
    lastGiven? keywords (argument :: arguments) name = lastGiven? keywords arguments name := by
  unfold lastGiven?
  rw [List.filterMap_cons_none plain]

theorem mem_of_keywordArgument? (keyword : keywordArgument? keywords argument = some given) :
    String.ofList given.1 ∈ keywords := by
  obtain ⟨-, member⟩ := Option.filter_eq_some_iff.mp keyword
  exact List.contains_iff_mem.mp member

/-- Only keywords are given by name. -/
theorem lastGiven?_of_not_mem (apart : name ∉ keywords) :
    lastGiven? keywords arguments name = none := by
  unfold lastGiven?
  rw [List.filter_eq_nil_iff.mpr]
  · rfl
  · intro given member
    obtain ⟨argument, -, keyword⟩ := List.mem_filterMap.mp member
    have known := mem_of_keywordArgument? keyword
    simp only [decide_eq_true_eq]
    rintro rfl
    exact apart known

theorem bindArguments_cons_some (keyword : keywordArgument? keywords argument = some given) :
    bindArguments keywords positional bindings (argument :: arguments) =
      bindArguments keywords positional
        ((String.ofList given.1, argumentText given.2) :: bindings) arguments :=
  bindArguments.eq_2 _ _ _ _ _ _ _ keyword

theorem bindArguments_cons_none (plain : keywordArgument? keywords argument = none) :
    bindArguments keywords (parameter :: positional) bindings (argument :: arguments) =
      bindArguments keywords positional ((parameter, argumentText argument) :: bindings)
        arguments :=
  bindArguments.eq_3 _ _ _ _ _ _ plain

theorem bindArguments_full (plain : keywordArgument? keywords argument = none) :
    bindArguments keywords [] bindings (argument :: arguments) = .error .operandField :=
  bindArguments.eq_4 _ _ _ _ plain

/-- A call fails if it has more positional arguments than there are parameters for them. -/
theorem bindArguments_error
    (many : positional.length < (positionalArguments keywords arguments).length) :
    bindArguments keywords positional bindings arguments = .error .operandField := by
  induction arguments generalizing positional bindings with
  | nil => nomatch many
  | cons argument arguments ih =>
    cases keyword : keywordArgument? keywords argument with
    | some given =>
      rw [positionalArguments_cons_some keyword] at many
      rw [bindArguments_cons_some keyword]
      exact ih many
    | none =>
      rw [positionalArguments_cons_none keyword] at many
      cases positional with
      | nil => exact bindArguments_full keyword
      | cons parameter positional =>
        rw [bindArguments_cons_none keyword]
        exact ih (Nat.lt_of_succ_lt_succ many)

/-- Otherwise what the arguments assign stands before what was bound without them. -/
theorem bindArguments_ok (distinct : positional.Nodup)
    (apart : ∀ name ∈ positional, name ∉ keywords)
    (few : (positionalArguments keywords arguments).length ≤ positional.length) :
    ∃ bound, bindArguments keywords positional bindings arguments = .ok bound ∧
      ∀ name, bound.lookup name =
        (assigned? keywords positional arguments name).or (bindings.lookup name) := by
  induction arguments generalizing positional bindings with
  | nil =>
    refine ⟨bindings, rfl, fun name => ?_⟩
    unfold assigned?
    split <;> rfl
  | cons argument arguments ih =>
    cases keyword : keywordArgument? keywords argument with
    | some given =>
      rw [positionalArguments_cons_some keyword] at few
      obtain ⟨bound, result, holds⟩ := ih distinct apart few
      refine ⟨bound, (bindArguments_cons_some keyword).trans result, fun name => ?_⟩
      rw [holds name]
      unfold assigned?
      rw [positionalArguments_cons_some keyword]
      split
      case isTrue member =>
        have other : name ≠ String.ofList given.1 := fun same =>
          apart name member (same ▸ mem_of_keywordArgument? keyword)
        rw [List.lookup_cons, beq_false_of_ne other]
      case isFalse =>
        rw [lastGiven?_cons_some keyword, List.lookup_cons]
        by_cases same : String.ofList given.1 = name
        · rw [if_pos same, beq_iff_eq.mpr same.symm]
          cases lastGiven? keywords arguments name <;> rfl
        · rw [if_neg same, beq_false_of_ne (Ne.symm same), Option.or_none]
    | none =>
      rw [positionalArguments_cons_none keyword] at few
      cases positional with
      | nil => nomatch few
      | cons parameter positional =>
        obtain ⟨fresh, distinct⟩ := List.nodup_cons.mp distinct
        obtain ⟨foreign, apart⟩ := List.forall_mem_cons.mp apart
        obtain ⟨bound, result, holds⟩ := ih distinct apart (Nat.le_of_succ_le_succ few)
        refine ⟨bound, (bindArguments_cons_none keyword).trans result, fun name => ?_⟩
        rw [holds name, List.lookup_cons]
        unfold assigned?
        rw [positionalArguments_cons_none keyword, lastGiven?_cons_none keyword]
        by_cases same : name = parameter
        · subst same
          rw [if_neg fresh, if_pos List.mem_cons_self, lastGiven?_of_not_mem foreign,
            List.idxOf_cons_self, beq_self_eq_true]
          rfl
        · rw [beq_false_of_ne same, List.idxOf_cons_ne _ (Ne.symm same)]
          by_cases member : name ∈ positional
          · rw [if_pos member, if_pos (List.mem_cons_of_mem _ member)]
            rfl
          · rw [if_neg member, if_neg (List.not_mem_cons_of_ne_of_not_mem same member)]

end Arguments

theorem lookup_of_not_mem {entries : List (String × String)} {name : String}
    (missing : name ∉ entries.map (·.1)) : entries.lookup name = none := by
  rw [List.lookup_eq_none_iff]
  intro entry member
  rw [bne_iff_ne]
  rintro rfl
  exact missing (List.mem_map_of_mem member)

/-- The order of entries does not matter if each name has one. -/
theorem lookup_reverse {entries : List (String × String)} (distinct : (entries.map (·.1)).Nodup)
    (name : String) : entries.reverse.lookup name = entries.lookup name := by
  induction entries with
  | nil => rfl
  | cons entry entries ih =>
    obtain ⟨fresh, distinct⟩ := List.nodup_cons.mp distinct
    rw [List.reverse_cons, List.lookup_append, ih distinct, List.lookup_cons, List.lookup_cons]
    by_cases same : name = entry.1
    · rw [lookup_of_not_mem (same ▸ fresh), beq_iff_eq.mpr same]
      rfl
    · rw [beq_false_of_ne same]
      exact Option.or_none

end MacroDefinition

namespace Prototype

open MacroDefinition

/-- What a parameter stands for in a call: the location field, a positional argument or nothing, or
what is given last for a keyword or else its default. -/
def binding? (prototype : Prototype) (location : String) (arguments : List (List Char))
    (name : String) : Option String :=
  let keywords := prototype.keyword.map (·.1)
  if prototype.location = some name then some location
  else if name ∈ prototype.positional then
    let given := (positionalArguments keywords arguments)[prototype.positional.idxOf name]?
    some ((given.map argumentText).getD "")
  else (prototype.keyword.lookup name).map fun default =>
    ((lastGiven? keywords arguments name).map argumentText).getD default

section Bindings

variable {prototype : Prototype} {location name : String} {arguments : List (List Char)}

theorem lookup_location :
    (prototype.location.toList.map fun name => (name, location)).lookup name =
      if prototype.location = some name then some location else none := by
  cases prototype.location with
  | none => rfl
  | some label =>
    rw [Option.toList_some, List.map_singleton, List.lookup_cons, List.lookup_nil]
    by_cases same : name = label
    · rw [beq_iff_eq.mpr same, if_pos (congrArg some same.symm)]
    · rw [beq_false_of_ne same, if_neg fun equal => same (Option.some.inj equal).symm]

theorem binding?_of_not_mem (foreign : name ∉ prototype.parameters) :
    prototype.binding? location arguments name = none := by
  simp only [parameters, List.mem_append, not_or, Option.mem_toList] at foreign
  obtain ⟨⟨first, second⟩, third⟩ := foreign
  unfold binding?
  rw [if_neg first, if_neg second, lookup_of_not_mem third, Option.map_none]

/-- The bindings of a call hold what its parameters stand for. -/
theorem binding?_of_mem (distinct : prototype.parameters.Nodup)
    {bound : List (String × String)}
    (holds : ∀ name, bound.lookup name =
      (assigned? (prototype.keyword.map (·.1)) prototype.positional arguments name).or
        ((initialBindings prototype location).lookup name))
    (member : name ∈ prototype.parameters) :
    prototype.binding? location arguments name = some ((bound.lookup name).getD "") := by
  obtain ⟨front, keywords, apart⟩ := List.nodup_append.mp distinct
  obtain ⟨-, -, located⟩ := List.nodup_append.mp front
  rw [holds name]
  unfold binding? initialBindings
  rw [List.lookup_append, lookup_reverse keywords, lookup_location]
  have foreign (member : name ∈ prototype.location.toList ++ prototype.positional) :
      name ∉ prototype.keyword.map (·.1) := fun keyword => apart name member name keyword rfl
  by_cases first : prototype.location = some name
  · have named : name ∈ prototype.location.toList := Option.mem_toList.mpr first
    have unplaced : name ∉ prototype.positional := fun inside => located name named name inside rfl
    rw [if_pos first, if_pos first, assigned?, if_neg unplaced,
      lastGiven?_of_not_mem (foreign (List.mem_append_left _ named))]
    rfl
  rw [if_neg first, if_neg first, Option.none_or]
  by_cases second : name ∈ prototype.positional
  · rw [if_pos second, assigned?, if_pos second,
      lookup_of_not_mem (foreign (List.mem_append_right _ second)), Option.or_none]
  · rw [if_neg second, assigned?, if_neg second]
    have keyword : name ∈ prototype.keyword.map (·.1) := by
      simpa [parameters, first, second] using member
    cases known : prototype.keyword.lookup name with
    | none =>
      obtain ⟨entry, member, same⟩ := List.mem_map.mp keyword
      have other := List.lookup_eq_none_iff.mp known entry member
      exact absurd same.symm (bne_iff_ne.mp other)
    | some default =>
      cases lastGiven? (prototype.keyword.map (·.1)) arguments name <;> rfl

end Bindings

end Prototype

namespace MacroDefinition

variable {line : List Char} {prototype : Prototype}

/-- The lines of an expansion are those of the body, divided and put together again. -/
theorem expand_make_eq (prototype : Prototype) (body : List String) (pass : Pass)
    (location operand : String) :
    (make prototype body pass).expand location operand =
      (bindArguments (prototype.keyword.map (·.1)) prototype.positional
        (initialBindings prototype location) (Fields.splitSubfields operand.toList)).map fun bound =>
          body.map fun written => String.ofList
            (Fragment.shown bound (Fragment.ofLine written.toList prototype.parameters)) := by
  have rendered (bound : List (String × String)) : ((make prototype body pass).body.map fun line =>
      String.join (line.map (Fragment.render bound))) = body.map fun written => String.ofList
        (Fragment.shown bound (Fragment.ofLine written.toList prototype.parameters)) := by
    unfold make
    rw [List.map_map]
    exact List.map_congr_left fun written _ => String.ofList_toList.symm
  unfold expand
  dsimp only
  change bindArguments (prototype.keyword.map (·.1)) prototype.positional
    (initialBindings prototype location) _ >>= _ = _
  cases bindArguments (prototype.keyword.map (·.1)) prototype.positional
      (initialBindings prototype location) (Fields.splitSubfields operand.toList) with
  | error kind => rfl
  | ok bound => exact congrArg Except.ok (rendered bound)

/-- The expansion of a macro whose parameters have different names. A call fails if it has more
positional arguments than there are parameters for them, and otherwise gives the lines of the body
with their words replaced by what they stand for in the call; no other lines fit this description. If
all parameters stand for themselves, these are the lines of the body. -/
theorem expand_make (read : Prototype.ofStatement line = .ok prototype)
    (distinct : prototype.parameters.Nodup) (body : List String) (pass : Pass)
    (location operand : String) :
    let arguments := Fields.splitSubfields operand.toList
    let count := (positionalArguments (prototype.keyword.map (·.1)) arguments).length
    let value := prototype.binding? location arguments
    (prototype.positional.length < count →
        (make prototype body pass).expand location operand = .error .operandField) ∧
      (count ≤ prototype.positional.length →
        ∃ lines, (make prototype body pass).expand location operand = .ok lines ∧
          List.Forall₂ (fun written shown => ∀ text, Replaced value written.toList text ↔
            text = shown.toList) body lines ∧
          ((∀ name ∈ prototype.parameters, value name = some name) → lines = body)) := by
  intro arguments count value
  have proper := Prototype.proper_ofStatement read
  obtain ⟨front, -, apart⟩ := List.nodup_append.mp distinct
  have foreign : ∀ name ∈ prototype.positional, name ∉ prototype.keyword.map (·.1) :=
    fun name member keyword => apart name (List.mem_append_right _ member) name keyword rfl
  rw [expand_make_eq]
  constructor
  · intro many
    rw [bindArguments_error many]
    rfl
  · intro few
    obtain ⟨bound, result, holds⟩ := @bindArguments_ok _ _ (initialBindings prototype location) _
      (List.nodup_append.mp front).2.1 foreign few
    have replaced (written : String) : Replaced value written.toList
        (Fragment.shown bound (Fragment.ofLine written.toList prototype.parameters)) :=
      Fragment.replaced_shown proper (fun name => Prototype.binding?_of_mem distinct holds)
        (fun name => Prototype.binding?_of_not_mem) written.toList
    rw [result]
    refine ⟨_, rfl, ?_, fun same => ?_⟩
    · rw [List.forall₂_map_right_iff, List.forall₂_same]
      intro written _ text
      rw [String.toList_ofList]
      exact ⟨fun other => other.unique (replaced written), fun same => same ▸ replaced written⟩
    · have kept : ∀ name text, value name = some text → text = name := fun name text known => by
        by_cases member : name ∈ prototype.parameters
        · exact Option.some.inj (known.symm.trans (same name member))
        · exact nomatch known.symm.trans (Prototype.binding?_of_not_mem member)
      refine (List.map_congr_left fun written _ => ?_).trans (List.map_id body)
      rw [(replaced written).eq_of_same kept]
      exact String.ofList_toList

theorem expand_make_sample :
    let prototype : Prototype := ⟨"M", some "L", ["A"], [("B", "1")]⟩
    let body := ["L        CON      A+B+12A"]
    (make prototype body .one).expand "X" "1,2" = .error .operandField ∧
      (make prototype body .one).expand "L" "(A),B=1,B=(B)" = .ok body := by
  intro prototype body
  have read : Prototype.ofStatement "L        M        A,B=(1)".toList = .ok prototype := by
    decide +kernel
  obtain ⟨many, -⟩ := expand_make read (by decide) body .one "X" "1,2"
  obtain ⟨-, few⟩ := expand_make read (by decide) body .one "L" "(A),B=1,B=(B)"
  obtain ⟨lines, expanded, -, same⟩ := few (by decide +kernel)
  refine ⟨many (by decide +kernel), ?_⟩
  rw [expanded, same (by decide +kernel)]

/-- Parentheses that begin and end an argument are left out although they do not belong together. -/
theorem expand_torn :
    Prototype.ofStatement "         M        X".toList = .ok ⟨"M", none, ["X"], []⟩ ∧
      "(A)".toList.foldl Nesting.after .outside = .outside ∧
      (make ⟨"M", none, ["X"], []⟩ ["         CON      X"] .one).expand "" "(A)+(B)" =
        .ok ["         CON      A)+(B"] := by
  decide +kernel

end MacroDefinition

end CrayAssembler
