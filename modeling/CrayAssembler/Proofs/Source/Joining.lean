import CrayAssembler.Proofs.Source.Subfields
import Mathlib.Algebra.Group.Nat.Even
import Mathlib.Data.List.Infix

namespace CrayAssembler

namespace Fields

/-- Characters outside quotations, without the apostrophes; `quoted` tells whether the text begins
inside one. -/
def outsideQuotes (quoted : Bool) : List Char → List Char
  | [] => []
  | c :: rest =>
    if c = '\'' then outsideQuotes (!quoted) rest
    else if quoted then outsideQuotes quoted rest
    else c :: outsideQuotes quoted rest

/-- Parentheses balance, when `depth` of them are open before the text. -/
structure Balanced (depth : Nat) (text : List Char) : Prop where
  closings : ∀ front, front <+: text → front.count ')' ≤ depth + front.count '('
  settled : text.count ')' = depth + text.count '('

/-- Every comma stands where a parenthesis is open, when `depth` of them are open before the text. -/
def Sheltered (depth : Nat) (text : List Char) : Prop :=
  ∀ front, front ++ [','] <+: text → front.count ')' < depth + front.count '('

/-- An item whose apostrophes are paired and whose parentheses balance, with no comma outside quotations
and parentheses. -/
structure SelfContained (item : List Char) : Prop where
  paired : Even (item.count '\'')
  balanced : Balanced 0 (outsideQuotes false item)
  sheltered : Sheltered 0 (outsideQuotes false item)

instance (depth : Nat) (text : List Char) : Decidable (Balanced depth text) :=
  decidable_of_iff
    ((∀ front ∈ text.inits, front.count ')' ≤ depth + front.count '(') ∧
      text.count ')' = depth + text.count '(')
    ⟨fun ⟨closings, settled⟩ =>
      ⟨fun front start => closings front ((List.mem_inits ..).mpr start), settled⟩,
    fun balanced =>
      ⟨fun front start => balanced.closings front ((List.mem_inits ..).mp start), balanced.settled⟩⟩

instance (depth : Nat) (text : List Char) : Decidable (Sheltered depth text) :=
  decidable_of_iff
    (∀ front ∈ text.inits, front ++ [','] <+: text → front.count ')' < depth + front.count '(')
    ⟨fun sheltered front comma =>
      sheltered front ((List.mem_inits ..).mpr ((List.prefix_append ..).trans comma)) comma,
    fun sheltered front _ => sheltered front⟩

instance (item : List Char) : Decidable (SelfContained item) :=
  decidable_of_iff
    (Even (item.count '\'') ∧ Balanced 0 (outsideQuotes false item) ∧
      Sheltered 0 (outsideQuotes false item))
    ⟨fun ⟨paired, balanced, sheltered⟩ => ⟨paired, balanced, sheltered⟩,
    fun closed => ⟨closed.paired, closed.balanced, closed.sheltered⟩⟩

section Depth

variable {depth : Nat} {c : Char} {text : List Char}

theorem uneven_eq_false_iff (text : List Char) : uneven text = false ↔ Even (text.count '\'') := by
  induction text with
  | nil => decide
  | cons c text ih =>
    by_cases quote : c = '\''
    · subst quote
      rw [List.count_cons_self, Nat.even_add_one, ← ih, uneven, decide_eq_true rfl, Bool.true_xor,
        Bool.not_eq_false', Bool.not_eq_false]
    · rw [List.count_cons_of_ne quote, ← ih, uneven, decide_eq_false quote, Bool.false_xor]

/-- No parenthesis closes that was never opened, so that the depth counts those that are open. -/
theorem Balanced.depth_after (balanced : Balanced depth (c :: text)) (other : c ≠ '\'') :
    (Nesting.after ⟨false, depth⟩ c).depth + (if c = ')' then 1 else 0) =
      depth + (if c = '(' then 1 else 0) := by
  unfold Nesting.after
  by_cases opening : c = '('
  · simp [opening]
  · by_cases closing : c = ')'
    · subst closing
      have opened : 1 ≤ depth :=
        balanced.closings [')'] (List.cons_prefix_cons.mpr ⟨rfl, List.nil_prefix⟩)
      simpa using Nat.sub_add_cancel opened
    · simp [other, opening, closing]

theorem Balanced.tail (balanced : Balanced depth (c :: text)) (other : c ≠ '\'') :
    Balanced (Nesting.after ⟨false, depth⟩ c).depth text := by
  have step := balanced.depth_after other
  refine ⟨fun front start => ?_, ?_⟩
  · have before := balanced.closings (c :: front) (List.cons_prefix_cons.mpr ⟨rfl, start⟩)
    simp only [List.count_cons, beq_iff_eq] at before
    omega
  · have before := balanced.settled
    simp only [List.count_cons, beq_iff_eq] at before
    omega

theorem Sheltered.tail (sheltered : Sheltered depth (c :: text)) (balanced : Balanced depth (c :: text))
    (other : c ≠ '\'') : Sheltered (Nesting.after ⟨false, depth⟩ c).depth text := by
  have step := balanced.depth_after other
  intro front comma
  have before := sheltered (c :: front) (List.cons_prefix_cons.mpr ⟨rfl, comma⟩)
  simp only [List.count_cons, beq_iff_eq] at before
  omega

theorem Sheltered.not_isOutside (sheltered : Sheltered depth (',' :: text)) :
    Nesting.isOutside ⟨false, depth⟩ = false := by
  have inside : 0 < depth := sheltered [] (List.cons_prefix_cons.mpr ⟨rfl, List.nil_prefix⟩)
  simp [Nesting.isOutside, Nat.ne_of_gt inside]

/-- A text that closes what is open before it, and shelters its commas, belongs to one subfield. -/
theorem walks_balanced {quoted : Bool} (balanced : Balanced depth (outsideQuotes quoted text))
    (sheltered : Sheltered depth (outsideQuotes quoted text)) :
    Walks ⟨quoted, depth⟩ text ⟨quoted ^^ uneven text, 0⟩ := by
  induction text generalizing quoted depth with
  | nil =>
    obtain rfl : 0 = depth := balanced.settled
    rw [uneven, Bool.xor_false]
    exact walks_nil _
  | cons c text ih =>
    rw [uneven, ← Bool.xor_assoc]
    by_cases quote : c = '\''
    · subst quote
      rw [outsideQuotes, if_pos rfl] at balanced sheltered
      rw [decide_eq_true rfl, Bool.xor_true]
      exact .cons (fun comma => absurd comma (by decide)) (ih balanced sheltered)
    · rw [outsideQuotes, if_neg quote] at balanced sheltered
      rw [decide_eq_false quote, Bool.xor_false]
      cases quoted with
      | true => exact .cons (fun _ => rfl) ((after_quoted quote depth).symm ▸ ih balanced sheltered)
      | false =>
        -- Only outside quotations does the character count, and only there could it divide.
        rw [if_neg Bool.false_ne_true] at balanced sheltered
        have next : Nesting.after ⟨false, depth⟩ c =
            ⟨false, (Nesting.after ⟨false, depth⟩ c).depth⟩ := by
          unfold Nesting.after
          split_ifs <;> rfl
        refine .cons ?_ (next ▸ ih (balanced.tail quote) (sheltered.tail balanced quote))
        rintro rfl
        exact sheltered.not_isOutside

/-- What follows a self-contained item is divided as if it stood alone. -/
theorem SelfContained.walks {item : List Char} (closed : SelfContained item) :
    Walks .outside item .outside := by
  have even : uneven item = false := (uneven_eq_false_iff item).mpr closed.paired
  have walks := walks_balanced closed.balanced closed.sheltered
  rwa [even] at walks

end Depth

section Joining

theorem intercalate_splitFrom (nesting : Nesting) (field : List Char) :
    [','].intercalate (splitFrom nesting field) = field := by
  fun_induction splitFrom nesting field with
  | case1 => rfl
  | case2 nesting c rest separates ih =>
    obtain rfl : c = ',' := of_decide_eq_true (Bool.and_eq_true_iff.mp separates).1
    rw [List.intercalate_cons_of_ne_nil (splitFrom_ne_nil _ _), ih]
    rfl
  | case3 nesting c rest _ nothing => exact absurd nothing (splitFrom_ne_nil _ _)
  | case4 nesting c rest _ piece more pieces ih =>
    rw [pieces] at ih
    rw [List.intercalate_cons_cons_left, ih]

theorem splitFrom_intercalate {items : List (List Char)} (some : items ≠ [])
    (closed : ∀ item ∈ items, SelfContained item) :
    splitFrom .outside ([','].intercalate items) = items := by
  induction items with
  | nil => exact absurd rfl some
  | cons item items ih =>
    obtain ⟨first, others⟩ := List.forall_mem_cons.mp closed
    have walks := first.walks
    by_cases last : items = []
    · subst last
      rw [List.intercalate_singleton, ← List.append_nil item, walks]
      rfl
    · rw [List.intercalate_cons_of_ne_nil last, List.append_assoc, walks, List.singleton_append,
        splitFrom_comma, ih last others, List.modifyHead_cons, List.append_nil]

theorem intercalate_splitSubfields (field : List Char) :
    [','].intercalate (splitSubfields field) = field := by
  unfold splitSubfields
  split
  case isTrue empty => exact (List.isEmpty_iff.mp empty).symm
  case isFalse => exact intercalate_splitFrom _ _

/-- Only the one empty item is lost: it is joined to an empty field, which has no subfields. -/
theorem splitSubfields_intercalate {items : List (List Char)} (some : items ≠ []) (other : items ≠ [[]])
    (closed : ∀ item ∈ items, SelfContained item) :
    splitSubfields ([','].intercalate items) = items := by
  have divided := splitFrom_intercalate some closed
  rw [splitSubfields, if_neg, divided]
  intro empty
  rw [List.isEmpty_iff.mp empty] at divided
  exact other divided.symm

end Joining

/-- Dividing a field into subfields and joining items with commas undo each other: on every field, and on
every list of self-contained items but the single empty one, which joins to the empty field. -/
theorem subfields_intercalate :
    (∀ field : String, ",".intercalate (subfields field) = field) ∧
      ∀ items : List String, items ≠ [] → items ≠ [""] →
        (∀ item ∈ items, SelfContained item.toList) → subfields (",".intercalate items) = items := by
  have comma : ",".toList = [','] := rfl
  constructor
  · intro field
    have same : (String.toList ∘ String.ofList) = id := funext fun _ => String.toList_ofList
    rw [← String.toList_inj, String.toList_intercalate, subfields, List.map_map, same, List.map_id, comma]
    exact intercalate_splitSubfields field.toList
  · intro items some other closed
    have same : (String.ofList ∘ String.toList) = id := funext fun _ => String.ofList_toList
    have some : items.map String.toList ≠ [] := mt List.map_eq_nil_iff.mp some
    have other : items.map String.toList ≠ [[]] := fun single =>
      other (List.map_injective_iff.mpr (fun _ _ => String.toList_injective) single)
    rw [subfields, String.toList_intercalate, comma,
      splitSubfields_intercalate some other (List.forall_mem_map.mpr closed), List.map_map, same,
      List.map_id]

/-- Items that begin, end and hold separators. -/
def sampleItems : List String :=
  ["", "'it''s (,'", "(1,(2,')'))+X'1F'", ""]

theorem subfields_intercalate_sample :
    ",".intercalate (subfields "A,(B,'x,(C") = "A,(B,'x,(C" ∧
      sampleItems ≠ [] ∧ sampleItems ≠ [""] ∧ (∀ item ∈ sampleItems, SelfContained item.toList) ∧
      subfields (",".intercalate sampleItems) = sampleItems := by
  have closed : ∀ item ∈ sampleItems, SelfContained item.toList := by decide +kernel
  exact ⟨subfields_intercalate.1 _, by decide, by decide, closed,
    subfields_intercalate.2 _ (by decide) (by decide) closed⟩

end Fields

end CrayAssembler
