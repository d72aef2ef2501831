import CrayAssembler.Proofs.Token.Places
import CrayAssembler.Source.Definition
import CrayAssembler.Source.Line
import Mathlib.Data.List.TakeWhile

namespace CrayAssembler

namespace Fields

/-- A comment has an asterisk after its blanks. -/
theorem isComment_cons {c : Char} {rest : List Char} (comment : isComment (c :: rest)) :
    Text.isBlank c ∧ isComment rest ∨ c = '*' := by
  unfold isComment Text.trimStart at comment ⊢
  by_cases blank : Text.isBlank c
  · rw [List.dropWhile_cons_of_pos blank] at comment
    exact .inl ⟨blank, comment⟩
  · rw [List.dropWhile_cons_of_neg blank] at comment
    exact .inr (by simpa using comment)

theorem isComment_blank {c : Char} (blank : Text.isBlank c) (rest : List Char) :
    isComment (c :: rest) = isComment rest := by
  unfold isComment Text.trimStart
  rw [List.dropWhile_cons_of_pos blank]

theorem isComment_asterisk (rest : List Char) : isComment ('*' :: rest) :=
  rfl

/-- What follows does not make a comment anything else. -/
theorem isComment_append {line : List Char} (comment : isComment line) (more : List Char) :
    isComment (line ++ more) := by
  induction line with
  | nil => nomatch comment
  | cons c line ih =>
    rw [List.cons_append]
    rcases isComment_cons comment with ⟨blank, comment⟩ | rfl
    · rw [isComment_blank blank]
      exact ih comment
    · exact isComment_asterisk _

theorem isComment_of_append {line blanks : List Char} (comment : isComment (line ++ blanks))
    (blank : ∀ c ∈ blanks, Text.isBlank c) : isComment line := by
  induction line with
  | nil =>
    unfold isComment Text.trimStart at comment
    rw [List.nil_append, List.dropWhile_eq_nil_iff.mpr blank] at comment
    nomatch comment
  | cons c line ih =>
    rcases isComment_cons comment with ⟨first, comment⟩ | rfl
    · rw [isComment_blank first]
      exact ih comment
    · exact isComment_asterisk _

theorem isComment_trimEnd {line : List Char} (comment : isComment line) :
    isComment (Text.trimEnd line) := by
  have parts : Text.trimEnd line ++ (line.reverse.takeWhile Text.isBlank).reverse = line := by
    unfold Text.trimEnd Text.dropEndWhile
    rw [← List.reverse_append, List.takeWhile_append_dropWhile, List.reverse_reverse]
  rw [← parts] at comment
  refine isComment_of_append comment fun c member => ?_
  exact List.mem_takeWhile_imp (List.mem_reverse.mp member)

end Fields

/-- The lines that are not comments. -/
def plainLines (lines : List String) : List String :=
  lines.filter fun line => !Fields.isComment line.toList

theorem plainLines_append (lines more : List String) :
    plainLines (lines ++ more) = plainLines lines ++ plainLines more :=
  List.filter_append ..

theorem plainLines_plainLines (lines : List String) :
    plainLines (plainLines lines) = plainLines lines := by
  simp [plainLines, List.filter_filter]

theorem plainLines_eq_nil {lines : List String} :
    plainLines lines = [] ↔ ∀ line ∈ lines, Fields.isComment line.toList := by
  simp [plainLines]

theorem plainLines_comment {line : String} (comment : Fields.isComment line.toList)
    (lines : List String) : plainLines (line :: lines) = plainLines lines := by
  simp [plainLines, comment]

theorem plainLines_solid {line : String} (solid : ¬Fields.isComment line.toList)
    (lines : List String) : plainLines (line :: lines) = line :: plainLines lines := by
  simp [plainLines, solid]

/-- Lines that are written out many times. -/
theorem plainLines_replicate (count : Nat) (lines : List String) :
    plainLines (List.replicate count lines).flatten =
      (List.replicate count (plainLines lines)).flatten := by
  induction count with
  | zero => rfl
  | succ count ih =>
    rw [List.replicate_succ, List.replicate_succ, List.flatten_cons, List.flatten_cons,
      plainLines_append, ih]

/-- Lists that differ by members for which nothing is left give the same. -/
theorem filter_map_of_filter {α β : Type} {kept : α → Bool} {left : β → Bool} {f : α → β}
    (dropped : ∀ item, kept item = false → left (f item) = false) (items : List α) :
    ((items.filter kept).map f).filter left = (items.map f).filter left := by
  induction items with
  | nil => rfl
  | cons item items ih =>
    cases keeps : kept item with
    | true =>
      rw [List.filter_cons_of_pos keeps, List.map_cons, List.map_cons, List.filter_cons,
        List.filter_cons, ih]
    | false =>
      have out := dropped item keeps
      rw [List.filter_cons_of_neg (by simp [keeps]), List.map_cons,
        List.filter_cons_of_neg (by simp [out]), ih]

namespace Identifier

theorem not_bodyChar_of_isBlank {c : Char} (blank : Text.isBlank c) : bodyChar c = false := by
  unfold bodyChar Char.isAlphanum
  rw [Text.not_isAlpha_of_isBlank blank, Text.not_isDigit_of_isBlank blank,
    not_isMark_of_isBlank blank]
  rfl

theorem bodyChar_of_valid {name : List Char} (proper : valid name) : ∀ c ∈ name, bodyChar c := by
  cases name with
  | nil => exact fun c member => nomatch member
  | cons first rest =>
    obtain ⟨start, body⟩ := Bool.and_eq_true_iff.mp proper
    intro c member
    rcases List.mem_cons.mp member with rfl | member
    · unfold startChar at start
      unfold bodyChar Char.isAlphanum
      rcases Bool.or_eq_true_iff.mp start with alpha | mark
      · simp [alpha]
      · simp [mark]
    · exact List.all_eq_true.mp body c member

end Identifier

namespace Prototype

/-- The parameters have the names of identifiers. -/
def Proper (prototype : Prototype) : Prop :=
  ∀ name ∈ prototype.parameters, Fields.isIdentifier name

theorem Proper.add {prototype after : Prototype} (proper : prototype.Proper) {name : List Char}
    (valid : Identifier.valid name)
    (more : ∀ other ∈ after.parameters, other ∈ prototype.parameters ∨ other = String.ofList name) :
    after.Proper := by
  intro other member
  rcases more other member with old | rfl
  · exact proper other old
  · rwa [Fields.isIdentifier, String.toList_ofList]

theorem Proper.addParameter {prototype after : Prototype} (proper : prototype.Proper)
    {item : List Char} (added : prototype.addParameter item = .ok after) : after.Proper := by
  unfold Prototype.addParameter at added
  split at added
  case h_1 name default _ =>
    split at added
    case isTrue valid =>
      cases added
      refine proper.add valid ?_
      grind [parameters]
    case isFalse => nomatch added
  case h_2 =>
    split at added
    case isTrue valid =>
      cases added
      refine proper.add (Bool.and_eq_true_iff.mp valid).1 ?_
      grind [parameters]
    case isFalse => nomatch added

theorem Proper.foldlM {prototype after : Prototype} (proper : prototype.Proper)
    {items : List (List Char)} (read : items.foldlM Prototype.addParameter prototype = .ok after) :
    after.Proper := by
  induction items generalizing prototype with
  | nil =>
    cases read
    exact proper
  | cons item items ih =>
    rw [List.foldlM_cons] at read
    cases added : prototype.addParameter item with
    | error kind =>
      rw [added] at read
      nomatch read
    | ok next =>
      rw [added] at read
      exact ih (proper.addParameter added) read

theorem proper_ofStatement {line : List Char} {prototype : Prototype}
    (read : ofStatement line = .ok prototype) : prototype.Proper := by
  unfold ofStatement at read
  dsimp only at read
  split at read
  · nomatch read
  split at read
  · nomatch read
  case isFalse located =>
    refine Proper.foldlM (fun name member => ?_) read
    simp only [parameters, List.map_nil, List.append_nil, Option.mem_toList] at member
    split at member
    case isTrue => nomatch member
    case isFalse given =>
      obtain ⟨⟩ := member
      simpa [given] using located

end Prototype

namespace Fragment

/-- A line of a macro's body is a comment whatever its parameters stand for. -/
def isComment : List Fragment → Bool
  | .text shown :: _ => Fields.isComment shown.toList
  | _ => false

theorem runs_cons {c : Char} (apart : Identifier.bodyChar c = false) (rest : List Char) :
    runs (c :: rest) = [c] :: runs rest := by
  rw [runs]
  cases runs rest with
  | nil => rfl
  | cons run more => simp [apart]

variable {parameters : List String}
  (proper : ∀ name ∈ parameters, Fields.isIdentifier name)

include proper

/-- A character that is in no name is a text by itself, or begins the text that follows. -/
theorem ofLine_cons {c : Char} (apart : Identifier.bodyChar c = false) (rest : List Char) :
    ofLine (c :: rest) parameters = cons (.text (String.ofList [c])) (ofLine rest parameters) := by
  have text : parameters.contains (String.ofList [c]) = false := by
    by_contra named
    have member := List.contains_iff_mem.mp (Bool.not_eq_false _ ▸ named)
    have proper := proper _ member
    rw [Fields.isIdentifier, String.toList_ofList] at proper
    rw [Identifier.bodyChar_of_valid proper c List.mem_cons_self] at apart
    nomatch apart
  unfold ofLine
  rw [runs_cons apart, List.foldr_cons]
  simp only [text, Bool.false_eq_true, if_false]

theorem isComment_ofLine {line : List Char} (comment : Fields.isComment line) :
    isComment (ofLine line parameters) := by
  induction line with
  | nil => nomatch comment
  | cons c line ih =>
    rcases Fields.isComment_cons comment with ⟨blank, comment⟩ | rfl
    · rw [ofLine_cons proper (Identifier.not_bodyChar_of_isBlank blank)]
      have inner := ih comment
      revert inner
      cases ofLine line parameters with
      | nil => exact fun inner => nomatch inner
      | cons fragment more =>
        cases fragment with
        | parameter name => exact fun inner => nomatch inner
        | text shown =>
          intro inner
          change Fields.isComment (String.ofList [c] ++ shown).toList = true
          rw [String.toList_append, String.toList_ofList, List.singleton_append,
            Fields.isComment_blank blank]
          exact inner
    · rw [ofLine_cons proper (by decide)]
      cases ofLine line parameters with
      | nil => rfl
      | cons fragment more =>
        cases fragment with
        | parameter name => rfl
        | text shown =>
          change Fields.isComment (String.ofList ['*'] ++ shown).toList = true
          rw [String.toList_append, String.toList_ofList]
          exact Fields.isComment_asterisk _

omit proper in
theorem isComment_render {line : List Fragment} (comment : isComment line)
    (bindings : List (String × String)) :
    Fields.isComment (String.join (line.map (render bindings))).toList := by
  cases line with
  | nil => nomatch comment
  | cons fragment more =>
    cases fragment with
    | parameter name => nomatch comment
    | text shown =>
      rw [List.map_cons, String.join_cons, String.toList_append]
      exact Fields.isComment_append comment _

end Fragment

namespace MacroDefinition

/-- A macro without the comments of its body. -/
def plain (definition : MacroDefinition) : MacroDefinition :=
  { definition with body := definition.body.filter fun line => !Fragment.isComment line }

theorem plain_make {prototype : Prototype} (proper : prototype.Proper) (body : List String)
    (pass : Pass) :
    (make prototype (plainLines body) pass).plain = (make prototype body pass).plain := by
  refine congrArg (MacroDefinition.mk prototype pass) (filter_map_of_filter (fun line dropped => ?_) body)
  have comment := Fragment.isComment_ofLine proper (Bool.not_eq_eq_eq_not.mp dropped)
  simp [comment]

/-- Macros that are the same without comments expand to lines that are the same without comments. -/
theorem plainLines_expand {definition other : MacroDefinition} (same : definition.plain = other.plain)
    (location operand : String) :
    (definition.expand location operand).map plainLines =
      (other.expand location operand).map plainLines := by
  obtain ⟨prototype, pass, body⟩ := definition
  obtain ⟨_, _, body'⟩ := other
  injection same with named read left
  dsimp only at named read left
  subst named read
  have rendered (bindings : List (String × String)) (body : List (List Fragment)) :
      plainLines ((body.filter fun line => !Fragment.isComment line).map fun line =>
        String.join (line.map (Fragment.render bindings))) =
      plainLines (body.map fun line => String.join (line.map (Fragment.render bindings))) := by
    refine filter_map_of_filter (fun line dropped => ?_) body
    rw [Fragment.isComment_render (by simpa using dropped) bindings]
    rfl
  unfold expand
  dsimp only
  cases bindArguments (prototype.keyword.map (·.1)) prototype.positional
    (initialBindings prototype location) (Fields.splitSubfields operand.toList) with
  | error kind => rfl
  | ok bindings =>
    refine congrArg Except.ok ?_
    exact (rendered bindings body).symm.trans (left ▸ rendered bindings body')

end MacroDefinition

namespace SourceLine

/-- A comment that is not cut is a comment in the source. -/
theorem make_comment (number : LineNumber) {raw : List Char} (comment : Fields.isComment raw)
    (short : raw.length ≤ maxLength) :
    Fields.isComment (make number raw).text.toList ∧ (make number raw).truncated = false := by
  have fits : (Text.trimEnd raw).length ≤ maxLength := by
    unfold Text.trimEnd Text.dropEndWhile
    rw [List.length_reverse]
    have dropped := (List.dropWhile_sublist Text.isBlank (l := raw.reverse)).length_le
    rw [List.length_reverse] at dropped
    exact Nat.le_trans dropped short
  unfold make
  dsimp only
  rw [List.take_of_length_le fits, String.toList_ofList]
  refine ⟨Fields.isComment_append (Fields.isComment_trimEnd comment) _, ?_⟩
  exact decide_eq_false (Nat.not_lt.mpr fits)

end SourceLine

/-- The second program is the first one with comments between its lines, each no longer than a line may
be. The lines of the first one keep their texts, but not their numbers. -/
inductive Commented : List SourceLine → List SourceLine → Prop
  | nil : Commented [] []
  | line {line other : SourceLine} {lines others : List SourceLine} (text : line.text = other.text)
      (truncated : line.truncated = other.truncated) :
      Commented lines others → Commented (line :: lines) (other :: others)
  | comment (number : LineNumber) {raw : List Char} {lines others : List SourceLine}
      (comment : Fields.isComment raw) (short : raw.length ≤ SourceLine.maxLength) :
      Commented lines others → Commented lines (.make number raw :: others)

end CrayAssembler
