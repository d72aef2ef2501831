import CrayAssembler.Pattern.Trie
import CrayAssembler.Proofs.Pattern.Graph
import CrayAssembler.Proofs.Pattern.Soundness
import Mathlib.Data.List.Induction
import Mathlib.Data.List.Nodup

namespace CrayAssembler

namespace Trie

open Matcher (Row)

variable {α : Type} {trie next : Trie α} {path items : List PatternItem} {item : PatternItem}
  {place : Nat}

/-- The node to which items lead from the root. -/
def follow? (trie : Trie α) (items : List PatternItem) : Option Nat :=
  items.foldlM trie.child? 0

/-- The handler of the pattern that has these items. -/
def lookup? (trie : Trie α) (items : List PatternItem) : Option α :=
  (trie.follow? items).bind trie.handler?

/-- Each node is reached along exactly one sequence of items, and endings are places of handlers. -/
structure Sound (trie : Trie α) : Prop where
  distinct : ∀ (place : Nat) (node : Node), trie.nodes[place]? = some node →
    (node.children.map (·.1)).Nodup
  reached : ∀ place, place < trie.nodes.size ↔ ∃ path, trie.follow? path = some place
  apart : ∀ path other place, trie.follow? path = some place → trie.follow? other = some place →
    path = other
  handled : ∀ place number, trie.ending? place = some number → number < trie.handlers.size

section Nodes

theorem follow?_concat (trie : Trie α) (path : List PatternItem) (item : PatternItem) :
    trie.follow? (path ++ [item]) = (trie.follow? path).bind (trie.child? · item) := by
  rw [follow?, List.foldlM_append]
  exact Option.bind_congr fun _ _ => bind_pure _

theorem follow?_isSome_of_along (along : path <+: items) (reached : (trie.follow? items).isSome) :
    (trie.follow? path).isSome := by
  obtain ⟨rest, rfl⟩ := along
  rw [follow?, List.foldlM_append] at reached
  cases here : trie.follow? path with
  | none =>
    rw [follow?] at here
    rw [here] at reached
    nomatch reached
  | some _ => rfl

theorem Node.child?_eq_none {node : Node} :
    node.child? item = none ↔ item ∉ node.children.map (·.1) := by
  rw [child?, Option.map_eq_none_iff, List.find?_eq_none, List.mem_map]
  constructor
  · rintro none ⟨link, member, same⟩
    exact none link member (decide_eq_true same)
  · intro none link member same
    exact none ⟨link, member, of_decide_eq_true same⟩

/-- The next place in the array is not that of a node. -/
theorem child?_size (trie : Trie α) (item : PatternItem) :
    trie.child? trie.nodes.size item = none := by
  rw [child?, Array.getElem?_eq_none (Nat.le_refl _)]
  rfl

theorem ending?_size (trie : Trie α) : trie.ending? trie.nodes.size = none := by
  rw [ending?, Array.getElem?_eq_none (Nat.le_refl _)]
  rfl

theorem getElem?_addChild (inside : place < trie.nodes.size) (item : PatternItem) (other : Nat) :
    (trie.addChild place item).nodes[other]? =
      if other = place then trie.nodes[place]?.map fun node =>
        { node with children := node.children ++ [(item, trie.nodes.size)] }
      else if other = trie.nodes.size then some {} else trie.nodes[other]? := by
  rw [addChild, Array.getElem?_modify, Array.getElem?_push]
  split
  case isTrue same =>
    subst same
    rw [if_pos rfl, if_neg (Nat.ne_of_lt inside)]
  case isFalse other => rw [if_neg (Ne.symm other)]

theorem child?_addChild (inside : place < trie.nodes.size) (absent : trie.child? place item = none)
    (other : Nat) (another : PatternItem) :
    (trie.addChild place item).child? other another =
      if other = place ∧ another = item then some trie.nodes.size
      else trie.child? other another := by
  have here : trie.nodes[place]? = some trie.nodes[place] := Array.getElem?_eq_getElem inside
  rw [child?, here, Option.bind_some] at absent
  rw [child?, getElem?_addChild inside]
  by_cases same : other = place
  · subst same
    simp only [if_true, true_and, here, Option.map_some, Option.bind_some, child?, Node.child?,
      List.find?_append]
    by_cases same : another = item
    · subst same
      simp only [Node.child?, Option.map_eq_none_iff] at absent
      simp [absent]
    · simp [same, Ne.symm same]
  · have elsewhere : ¬(other = place ∧ another = item) := fun both => same both.1
    rw [if_neg same, if_neg elsewhere]
    by_cases new : other = trie.nodes.size
    · subst new
      rw [if_pos rfl, child?_size]
      rfl
    · rw [if_neg new, child?]

theorem ending?_addChild (inside : place < trie.nodes.size) (item : PatternItem) (other : Nat) :
    (trie.addChild place item).ending? other = trie.ending? other := by
  rw [ending?, getElem?_addChild inside]
  by_cases same : other = place
  · subst same
    rw [if_pos rfl, Option.bind_map, ending?]
    rfl
  · rw [if_neg same]
    by_cases new : other = trie.nodes.size
    · subst new
      rw [if_pos rfl, ending?_size]
      rfl
    · rw [if_neg new, ending?]

theorem child?_endAt (trie : Trie α) (place : Nat) (handler : α) :
    (trie.endAt place handler).child? = trie.child? := by
  funext other item
  rw [child?, child?, endAt, Array.getElem?_modify]
  split
  · rw [Option.bind_map]; rfl
  · rfl

theorem follow?_endAt (trie : Trie α) (place : Nat) (handler : α) :
    (trie.endAt place handler).follow? = trie.follow? := by
  funext path
  rw [follow?, child?_endAt]
  rfl

theorem ending?_endAt (inside : place < trie.nodes.size) (handler : α) (other : Nat) :
    (trie.endAt place handler).ending? other =
      if other = place then some trie.handlers.size else trie.ending? other := by
  rw [ending?, endAt, Array.getElem?_modify]
  by_cases same : place = other
  · subst same
    rw [if_pos rfl, if_pos rfl, Array.getElem?_eq_getElem inside]
    rfl
  · rw [if_neg same, if_neg (Ne.symm same)]
    rfl

end Nodes

namespace Sound

theorem inside (sound : trie.Sound) (here : trie.follow? path = some place) :
    place < trie.nodes.size :=
  (sound.reached place).mpr ⟨path, here⟩

/-- A new node is at the end of one sequence of items, and the others lead where they did. -/
theorem follow?_addChild (sound : trie.Sound) (here : trie.follow? path = some place)
    (absent : trie.child? place item = none) (other : List PatternItem) :
    (trie.addChild place item).follow? other =
      if other = path ++ [item] then some trie.nodes.size else trie.follow? other := by
  have within := sound.inside here
  -- From the root down, the last step being one in the new trie.
  induction other using List.reverseRecOn with
  | nil => rw [if_neg (by simp)]; rfl
  | append_singleton front last ih =>
    rw [follow?_concat, ih, follow?_concat]
    by_cases new : front = path ++ [item]
    · subst new
      have longer : path ++ [item] ++ [last] ≠ path ++ [item] := by simp
      rw [if_pos rfl, if_neg longer, follow?_concat, here, Option.bind_some, Option.bind_some, absent,
        child?_addChild within absent, if_neg (fun both => Nat.ne_of_gt within both.1), child?_size]
      rfl
    · rw [if_neg new]
      cases there : trie.follow? front with
      | none =>
        have elsewhere : front ++ [last] ≠ path ++ [item] := by
          intro same
          obtain ⟨rfl, -⟩ := List.append_inj' same rfl
          rw [here] at there
          nomatch there
        rw [if_neg elsewhere]
        rfl
      | some reached =>
        have same : reached = place ∧ last = item ↔ front ++ [last] = path ++ [item] := by
          constructor
          · rintro ⟨rfl, rfl⟩
            rw [sound.apart front path reached there here]
          · intro same
            obtain ⟨rfl, single⟩ := List.append_inj' same rfl
            exact ⟨Option.some.inj (there.symm.trans here), List.singleton_inj.mp single⟩
        rw [Option.bind_some, child?_addChild within absent, Option.bind_some]
        simp only [same]

theorem lookup?_addChild (sound : trie.Sound) (here : trie.follow? path = some place)
    (absent : trie.child? place item = none) (other : List PatternItem) :
    (trie.addChild place item).lookup? other = trie.lookup? other := by
  have within := sound.inside here
  have handled (reached : Nat) :
      (trie.addChild place item).handler? reached = trie.handler? reached := by
    rw [handler?, ending?_addChild within]
    rfl
  rw [lookup?, sound.follow?_addChild here absent, lookup?]
  split
  · next same =>
    subst same
    rw [follow?_concat, here, Option.bind_some, Option.bind_some, absent, handled, handler?,
      ending?_size]
    rfl
  · exact Option.bind_congr fun reached _ => handled reached

theorem addChild (sound : trie.Sound) (here : trie.follow? path = some place)
    (absent : trie.child? place item = none) : (trie.addChild place item).Sound := by
  have within := sound.inside here
  have size : (trie.addChild place item).nodes.size = trie.nodes.size + 1 := by
    simp [Trie.addChild]
  have lead := sound.follow?_addChild here absent
  constructor
  case distinct =>
    intro other node found
    rw [getElem?_addChild within] at found
    split at found
    · obtain ⟨node, before, rfl⟩ := Option.map_eq_some_iff.mp found
      have unlinked : item ∉ node.children.map (·.1) := by
        rw [child?, before] at absent
        exact Node.child?_eq_none.mp absent
      rw [List.map_append]
      exact (sound.distinct place node before).append (List.nodup_singleton _)
        (List.disjoint_singleton.mpr unlinked)
    · split at found
      · cases found
        exact List.nodup_nil
      · exact sound.distinct other node found
  case reached =>
    intro other
    rw [size, Nat.lt_succ_iff_lt_or_eq, sound.reached]
    constructor
    · rintro (⟨path', led⟩ | rfl)
      · refine ⟨path', ?_⟩
        rw [lead, if_neg, led]
        rintro rfl
        rw [follow?_concat, here, Option.bind_some, absent] at led
        nomatch led
      · exact ⟨path ++ [item], by rw [lead, if_pos rfl]⟩
    · rintro ⟨path', led⟩
      rw [lead] at led
      split at led
      · exact .inr (Option.some.inj led).symm
      · exact .inl ⟨path', led⟩
  case apart =>
    intro first second reached one two
    rw [lead] at one two
    split at one <;> split at two
    · next same same' => rw [same, same']
    · cases one
      exact absurd (sound.inside two) (Nat.lt_irrefl _)
    · cases two
      exact absurd (sound.inside one) (Nat.lt_irrefl _)
    · exact sound.apart first second reached one two
  case handled =>
    intro other number ended
    rw [ending?_addChild within] at ended
    exact sound.handled other number ended

theorem lookup?_endAt (sound : trie.Sound) (here : trie.follow? items = some place) (handler : α)
    (other : List PatternItem) :
    (trie.endAt place handler).lookup? other =
      if other = items then some handler else trie.lookup? other := by
  have within := sound.inside here
  rw [lookup?, follow?_endAt]
  by_cases same : other = items
  · subst same
    rw [if_pos rfl, here, Option.bind_some, handler?, ending?_endAt within, if_pos rfl]
    exact Array.getElem?_push_size
  · rw [if_neg same, lookup?]
    refine Option.bind_congr fun reached led => ?_
    have elsewhere : reached ≠ place := by
      rintro rfl
      exact same (sound.apart other items reached led here)
    rw [handler?, ending?_endAt within, if_neg elsewhere, handler?]
    refine Option.bind_congr fun number ended => ?_
    have earlier := sound.handled reached number ended
    exact (Array.getElem?_push_lt earlier).trans (Array.getElem?_eq_getElem earlier).symm

theorem endAt (sound : trie.Sound) (here : trie.follow? path = some place) (handler : α) :
    (trie.endAt place handler).Sound := by
  have within := sound.inside here
  constructor
  case distinct =>
    intro other node found
    rw [Trie.endAt, Array.getElem?_modify] at found
    split at found
    · obtain ⟨node, before, rfl⟩ := Option.map_eq_some_iff.mp found
      exact sound.distinct other node before
    · exact sound.distinct other node found
  case reached =>
    intro other
    rw [follow?_endAt, ← sound.reached]
    simp [Trie.endAt]
  case apart =>
    rw [follow?_endAt]
    exact sound.apart
  case handled =>
    intro other number ended
    have more : (trie.endAt place handler).handlers.size = trie.handlers.size + 1 :=
      Array.size_push ..
    rw [ending?_endAt within] at ended
    rw [more]
    split at ended
    · cases ended
      exact Nat.lt_succ_self _
    · exact Nat.lt_succ_of_lt (sound.handled other number ended)

theorem isSome_handler? (sound : trie.Sound) (place : Nat) :
    (trie.handler? place).isSome = (trie.ending? place).isSome := by
  rw [handler?]
  cases ended : trie.ending? place with
  | none => rfl
  | some number =>
    rw [Option.bind_some, Array.getElem?_eq_getElem (sound.handled place number ended)]
    rfl

end Sound

theorem follow?_empty (path : List PatternItem) :
    (empty : Trie α).follow? path = if path = [] then some 0 else none := by
  cases path <;> rfl

theorem lookup?_empty (path : List PatternItem) : (empty : Trie α).lookup? path = none := by
  rw [lookup?, follow?_empty]
  split <;> rfl

theorem sound_empty : (empty : Trie α).Sound := by
  have single {place : Nat} {node : Node} (found : (empty : Trie α).nodes[place]? = some node) :
      place = 0 ∧ node = {} := by
    obtain ⟨inside, rfl⟩ := Array.getElem?_eq_some_iff.mp found
    obtain rfl : place = 0 := Nat.lt_one_iff.mp inside
    exact ⟨rfl, rfl⟩
  constructor
  case distinct =>
    intro place node found
    obtain ⟨-, rfl⟩ := single found
    exact List.nodup_nil
  case reached =>
    intro place
    refine Nat.lt_one_iff.trans ⟨fun root => ⟨[], root ▸ rfl⟩, fun ⟨path, led⟩ => ?_⟩
    rw [follow?_empty] at led
    split at led
    · exact (Option.some.inj led).symm
    · nomatch led
  case apart =>
    intro path other place
    simp only [follow?_empty, Option.ite_none_right_eq_some]
    rintro ⟨rfl, -⟩ ⟨rfl, -⟩
    rfl
  case handled =>
    intro place number ended
    obtain ⟨node, found, ending⟩ := Option.bind_eq_some_iff.mp ended
    obtain ⟨-, rfl⟩ := single found
    nomatch ending

section Growing

/-- A trie has got the nodes that it lacked along some items, and nothing else. -/
structure Grown (trie next : Trie α) (items : List PatternItem) : Prop where
  sound : next.Sound
  leads : ∀ path, (next.follow? path).isSome ↔ (trie.follow? path).isSome ∨ path <+: items
  kept : ∀ path, next.lookup? path = trie.lookup? path
  handlers : next.handlers = trie.handlers

theorem Grown.of_follow? (sound : trie.Sound) (here : (trie.follow? items).isSome) :
    Grown trie trie items :=
  ⟨sound, fun _ => ⟨.inl, fun led => led.elim id (follow?_isSome_of_along · here)⟩,
    fun _ => rfl, rfl⟩

theorem Grown.trans {last : Trie α} {more : List PatternItem} (first : Grown trie next items)
    (second : Grown next last (items ++ more)) : Grown trie last (items ++ more) := by
  refine ⟨second.sound, fun path => ?_, fun path => (second.kept path).trans (first.kept path),
    second.handlers.trans first.handlers⟩
  rw [second.leads, first.leads, or_assoc]
  refine or_congr_right ⟨fun along => along.elim (·.trans (List.prefix_append _ _)) id, .inr⟩

/-- One step of an insertion. -/
theorem Sound.enter (sound : trie.Sound) (here : trie.follow? path = some place)
    (item : PatternItem) :
    Grown trie (trie.enter place item).1 (path ++ [item]) ∧
      (trie.enter place item).1.follow? (path ++ [item]) = some (trie.enter place item).2 := by
  unfold Trie.enter
  cases child : trie.child? place item with
  | some next =>
    have led : trie.follow? (path ++ [item]) = some next := by
      rw [follow?_concat, here, Option.bind_some, child]
    exact ⟨.of_follow? sound (led ▸ rfl), led⟩
  | none =>
    have lead := sound.follow?_addChild here child
    refine ⟨⟨sound.addChild here child, fun other => ?_, sound.lookup?_addChild here child, rfl⟩,
      (lead _).trans (if_pos rfl)⟩
    rw [lead]
    by_cases new : other = path ++ [item]
    · simp [new]
    · rw [if_neg new, List.prefix_concat_iff]
      have before : other <+: path → (trie.follow? other).isSome :=
        fun along => follow?_isSome_of_along along (here ▸ rfl)
      simp only [new, false_or]
      exact ⟨.inl, fun led => led.elim id before⟩

theorem Sound.enterAll (sound : trie.Sound) (here : trie.follow? path = some place)
    (items : List PatternItem) :
    Grown trie (trie.enterAll place items).1 (path ++ items) ∧
      (trie.enterAll place items).1.follow? (path ++ items) =
        some (trie.enterAll place items).2 := by
  induction items generalizing trie path place with
  | nil =>
    rw [List.append_nil]
    exact ⟨.of_follow? sound (here ▸ rfl), here⟩
  | cons item items ih =>
    obtain ⟨grown, entered⟩ := sound.enter here item
    obtain ⟨rest, led⟩ := ih grown.sound entered
    rw [List.append_cons]
    exact ⟨grown.trans rest, led⟩

/-- The trie after a pattern has been added. -/
structure Inserted (trie next : Trie α) (items : List PatternItem) (handler : α) : Prop where
  sound : next.Sound
  leads : ∀ path, (next.follow? path).isSome ↔ (trie.follow? path).isSome ∨ path <+: items
  lookup : ∀ path, next.lookup? path = if path = items then some handler else trie.lookup? path
  size : next.size = trie.size + 1

/-- A pattern is refused if there is one with its items. Otherwise it is found under them, and
everything else stays. -/
theorem Sound.insert (sound : trie.Sound) {pattern : String}
    (parsed : PatternItem.ofPattern pattern = .ok items) (handler : α) :
    if (trie.lookup? items).isSome then trie.insert pattern handler = .error (.duplicate pattern)
    else ∃ next, trie.insert pattern handler = .ok next ∧ Inserted trie next items handler := by
  have root : trie.follow? [] = some 0 := rfl
  obtain ⟨grown, led⟩ := sound.enterAll root items
  rw [List.nil_append] at grown led
  have found : ((trie.enterAll 0 items).1.ending? (trie.enterAll 0 items).2).isSome =
      (trie.lookup? items).isSome := by
    rw [← grown.sound.isSome_handler?, ← grown.kept, lookup?, led]
    rfl
  have inserted : trie.insert pattern handler =
      if (trie.lookup? items).isSome then .error (.duplicate pattern)
      else .ok ((trie.enterAll 0 items).1.endAt (trie.enterAll 0 items).2 handler) := by
    rw [Trie.insert, parsed]
    dsimp only [bind, Except.bind]
    rw [found]
    split <;> rfl
  rw [inserted]
  split
  · rfl
  · refine ⟨_, rfl, grown.sound.endAt led handler, fun path => ?_, fun path => ?_, ?_⟩
    · rw [follow?_endAt, grown.leads]
    · rw [grown.sound.lookup?_endAt led, grown.kept]
    · rw [size, size, ← grown.handlers]
      exact Array.size_push ..

end Growing

section Patterns

variable {patterns : List (String × α)} {pattern : String} {handler : α}

/-- What a trie keeps is what has been added. -/
structure Keeps (trie : Trie α) (patterns : List (String × α)) : Prop where
  sound : trie.Sound
  lookup : ∀ items handler, trie.lookup? items = some handler ↔
    ∃ pattern, (pattern, handler) ∈ patterns ∧ PatternItem.ofPattern pattern = .ok items
  size : trie.size = patterns.length

theorem keeps_empty : (empty : Trie α).Keeps [] :=
  ⟨sound_empty, by simp [lookup?_empty], rfl⟩

/-- Whether there is a pattern with the same items among some patterns. -/
def Repeats (patterns : List (String × α)) (pattern : String) : Prop :=
  ∃ entry ∈ patterns, PatternItem.ofPattern entry.1 = PatternItem.ofPattern pattern

theorem Keeps.isSome_lookup? (keeps : trie.Keeps patterns)
    (parsed : PatternItem.ofPattern pattern = .ok items) :
    (trie.lookup? items).isSome ↔ Repeats patterns pattern := by
  rw [Option.isSome_iff_exists]
  simp only [keeps.lookup, Repeats, parsed, Prod.exists]
  exact exists_comm

theorem Keeps.inserted (keeps : trie.Keeps patterns)
    (parsed : PatternItem.ofPattern pattern = .ok items) (fresh : ¬Repeats patterns pattern)
    (inserted : Inserted trie next items handler) : next.Keeps (patterns ++ [(pattern, handler)]) := by
  refine ⟨inserted.sound, fun path given => ?_, ?_⟩
  · rw [inserted.lookup]
    simp only [List.mem_append, List.mem_singleton, Prod.mk.injEq, or_and_right, exists_or]
    split
    · next same =>
      subst same
      constructor
      · rintro ⟨⟩
        exact .inr ⟨pattern, ⟨rfl, rfl⟩, parsed⟩
      · rintro (⟨earlier, member, read⟩ | ⟨_, ⟨rfl, rfl⟩, -⟩)
        · exact absurd ⟨_, member, read.trans parsed.symm⟩ fresh
        · rfl
    · next other =>
      rw [keeps.lookup]
      refine ⟨.inl, fun either => either.elim id ?_⟩
      rintro ⟨_, ⟨rfl, rfl⟩, read⟩
      exact absurd (Except.ok.inj (read.symm.trans parsed)) other
  · rw [inserted.size, keeps.size, List.length_append]
    rfl

/-- One insertion: it is refused exactly if the items are there already. -/
theorem Keeps.insert (keeps : trie.Keeps patterns)
    (parsed : PatternItem.ofPattern pattern = .ok items) (handler : α) :
    (Repeats patterns pattern → trie.insert pattern handler = .error (.duplicate pattern)) ∧
      (¬Repeats patterns pattern → ∃ next, trie.insert pattern handler = .ok next ∧
        next.Keeps (patterns ++ [(pattern, handler)])) := by
  have outcome := keeps.sound.insert parsed handler
  rw [← keeps.isSome_lookup? parsed]
  split at outcome
  · next present => exact ⟨fun _ => outcome, fun absent => absurd present absent⟩
  · next absent =>
    obtain ⟨next, inserted, after⟩ := outcome
    exact ⟨fun present => absurd present absent, fun _ => ⟨next, inserted,
      keeps.inserted parsed (mt (keeps.isSome_lookup? parsed).mpr absent) after⟩⟩

/-- Every pattern can be read. -/
def Readable (patterns : List (String × α)) : Prop :=
  ∀ entry ∈ patterns, (PatternItem.ofPattern entry.1).isOk

instance (patterns : List (String × α)) : Decidable (Readable patterns) :=
  inferInstanceAs (Decidable (∀ entry ∈ patterns, (PatternItem.ofPattern entry.1).isOk))

theorem Readable.parsed (readable : Readable patterns) (entry : String × α)
    (member : entry ∈ patterns) : ∃ items, PatternItem.ofPattern entry.1 = .ok items := by
  have isOk := readable entry member
  cases read : PatternItem.ofPattern entry.1 with
  | error reason => rw [read] at isOk; nomatch isOk
  | ok items => exact ⟨items, rfl⟩

/-- No two patterns have the same items. -/
def Unrepeated (patterns : List (String × α)) : Prop :=
  patterns.Pairwise fun entry later =>
    PatternItem.ofPattern entry.1 ≠ PatternItem.ofPattern later.1

instance (patterns : List (String × α)) : Decidable (Unrepeated patterns) :=
  inferInstanceAs (Decidable (patterns.Pairwise _))

theorem ofPatterns_concat (patterns : List (String × α)) (pattern : String) (handler : α) :
    ofPatterns (patterns ++ [(pattern, handler)]) =
      ofPatterns patterns >>= (·.insert pattern handler) := by
  rw [ofPatterns, List.foldlM_append]
  exact bind_congr fun _ => bind_pure _

/-- Patterns that can be read and do not repeat one another can be put together. -/
theorem keeps_ofPatterns (readable : Readable patterns) (unrepeated : Unrepeated patterns) :
    ∃ trie, ofPatterns patterns = .ok trie ∧ trie.Keeps patterns := by
  induction patterns using List.reverseRecOn with
  | nil => exact ⟨empty, rfl, keeps_empty⟩
  | append_singleton before entry ih =>
    obtain ⟨earlier, -, fresh⟩ := List.pairwise_append.mp unrepeated
    obtain ⟨trie, built, keeps⟩ := ih (fun entry member => readable entry (by simp [member])) earlier
    obtain ⟨items, parsed⟩ := readable.parsed entry (by simp)
    have new : ¬Repeats before entry.1 := by
      rintro ⟨other, member, same⟩
      exact fresh other member entry (List.mem_singleton_self _) same
    obtain ⟨next, inserted, after⟩ := (keeps.insert parsed entry.2).2 new
    refine ⟨next, ?_, after⟩
    rw [ofPatterns_concat, built]
    exact inserted

end Patterns

section Rows

variable {rows : List (Row α)} {matcher : Matcher α}

/-- A trie keeps the rows of a matcher. -/
structure Represents (trie : Trie α) (rows : List (Row α)) : Prop where
  sound : trie.Sound
  leads : ∀ path, (trie.follow? path).isSome ↔ path = [] ∨ ∃ row ∈ rows, path <+: row.items
  lookup : ∀ path, trie.lookup? path = (rows.find? (·.items = path)).map (·.handler)
  size : trie.size = rows.length

/-- The trie and the matcher both fail, for the same reason, or one keeps the rows of the other. -/
inductive Agree : Except PatternError (Trie α) → Except PatternError (Matcher α) → Prop
  | ok {trie : Trie α} {matcher : Matcher α} (represents : trie.Represents matcher.rows) :
      Agree (.ok trie) (.ok matcher)
  | error (reason : PatternError) : Agree (.error reason) (.error reason)

theorem represents_empty : (empty : Trie α).Represents [] :=
  ⟨sound_empty, by simp [follow?_empty], lookup?_empty, rfl⟩

theorem Represents.inserted {handler : α} (represents : trie.Represents rows)
    (absent : rows.find? (·.items = items) = none) (inserted : Inserted trie next items handler) :
    next.Represents (rows ++ [⟨items, handler⟩]) := by
  refine ⟨inserted.sound, fun path => ?_, fun path => ?_, ?_⟩
  · rw [inserted.leads, represents.leads]
    simp only [List.mem_append, List.mem_singleton, or_and_right, exists_or, exists_eq_left, or_assoc]
  · rw [inserted.lookup, represents.lookup, List.find?_append, List.find?_singleton]
    by_cases same : path = items
    · subst same
      rw [if_pos rfl, absent, if_pos (decide_eq_true rfl)]
      rfl
    · rw [if_neg same, if_neg (by simpa using Ne.symm same), Option.or_none]
  · rw [inserted.size, represents.size, List.length_append]
    rfl

theorem Represents.insert (represents : trie.Represents matcher.rows) (pattern : String)
    (handler : α) : Agree (trie.insert pattern handler) (matcher.insert pattern handler) := by
  cases parsed : PatternItem.ofPattern pattern with
  | error reason =>
    rw [Trie.insert, Matcher.insert, parsed]
    exact .error reason
  | ok items =>
    have outcome := represents.sound.insert parsed handler
    have present : (trie.lookup? items).isSome = matcher.rows.any fun row => row.items = items := by
      rw [represents.lookup, Option.isSome_map, Bool.eq_iff_iff, List.find?_isSome, List.any_eq_true]
    have refused : matcher.insert pattern handler =
        if (trie.lookup? items).isSome then .error (.duplicate pattern)
        else .ok ⟨matcher.rows ++ [⟨items, handler⟩]⟩ := by
      rw [Matcher.insert, parsed, present]
      rfl
    rw [refused]
    split at outcome
    · next known =>
      rw [outcome, if_pos known]
      exact .error _
    · next new =>
      obtain ⟨next, inserted, after⟩ := outcome
      rw [inserted, if_neg new]
      rw [represents.lookup, Option.isSome_map, Option.not_isSome_iff_eq_none] at new
      exact .ok (represents.inserted new after)

theorem Agree.bind {first : Except PatternError (Trie α)} {second : Except PatternError (Matcher α)}
    (agree : Agree first second) (pattern : String) (handler : α) :
    Agree (first >>= (·.insert pattern handler)) (second >>= (·.insert pattern handler)) := by
  cases agree with
  | ok represents => exact represents.insert pattern handler
  | error reason => exact .error reason

/-- Patterns are refused as a trie exactly when they are refused as rows. -/
theorem agree_ofPatterns (patterns : List (String × α)) :
    Agree (ofPatterns patterns) (Matcher.ofPatterns patterns) := by
  induction patterns using List.reverseRecOn with
  | nil => exact .ok represents_empty
  | append_singleton patterns entry ih =>
    have same : Matcher.ofPatterns (patterns ++ [entry]) =
        Matcher.ofPatterns patterns >>= (·.insert entry.1 entry.2) := by
      rw [Matcher.ofPatterns, List.foldlM_append]
      exact bind_congr fun _ => bind_pure _
    rw [same, ofPatterns_concat]
    exact ih.bind entry.1 entry.2

theorem find?_after (rows : List (Row α)) (item : PatternItem) (path : List PatternItem) :
    ((Matcher.Node.after rows item).find? (·.items = path)).map (·.handler) =
      (rows.find? (·.items = item :: path)).map (·.handler) := by
  induction rows with
  | nil => rfl
  | cons row rows ih =>
    obtain ⟨items, handler⟩ := row
    rw [Matcher.Node.after] at ih ⊢
    cases items with
    | nil => simpa using ih
    | cons first rest =>
      by_cases same : first = item
      · by_cases rest = path <;> simp_all
      · simpa [same] using ih

/-- The handler that is left when all items are taken is that of the row that has these items. -/
theorem handler?_afterAll (rows : List (Row α)) (path : List PatternItem) :
    Matcher.Node.handler? (Matcher.Node.afterAll rows path) =
      (rows.find? (·.items = path)).map (·.handler) := by
  induction path generalizing rows with
  | nil =>
    refine congrArg (Option.map _) (congrArg (List.find? · rows) ?_)
    funext row
    exact Bool.eq_iff_iff.mpr (List.isEmpty_iff.trans decide_eq_true_iff.symm)
  | cons item path ih => exact (ih (Matcher.Node.after rows item)).trans (find?_after rows item path)

/-- The items with which what is left of rows starts are those that a row has next. -/
theorem startsWith_afterAll (rows : List (Row α)) (path : List PatternItem) (p : PatternItem → Bool) :
    Matcher.Node.startsWith (Matcher.Node.afterAll rows path) p = true ↔
      ∃ item, p item = true ∧ ∃ row ∈ rows, path ++ [item] <+: row.items := by
  rw [Matcher.Node.startsWith, List.any_eq_true]
  constructor
  · rintro ⟨⟨left, handler⟩, member, starts⟩
    cases left with
    | nil => nomatch starts
    | cons item rest =>
      refine ⟨item, starts, _, Matcher.Node.mem_afterAll.mp member, rest, ?_⟩
      rw [List.append_assoc]
      rfl
  · rintro ⟨item, holds, ⟨_, handler⟩, member, rest, rfl⟩
    rw [List.append_assoc] at member
    exact ⟨⟨item :: rest, handler⟩, Matcher.Node.mem_afterAll.mpr member, holds⟩

/-- Where the trie has come to along some items, it answers what a walk asks there: by which items it
can go on, and what the pattern stands for that ends here. -/
theorem Represents.asks (represents : trie.Represents rows) (here : trie.follow? path = some place) :
    let node := Matcher.Node.afterAll rows path
    (∀ p, node.startsWith p = true ↔ ∃ item, p item = true ∧ (trie.child? place item).isSome) ∧
    (∀ item, node.child? item = (trie.child? place item).map fun _ =>
      Matcher.Node.afterAll rows (path ++ [item])) ∧
    node.handler? = trie.handler? place := by
  intro node
  have starts (p : PatternItem → Bool) :
      node.startsWith p = true ↔ ∃ item, p item = true ∧ (trie.child? place item).isSome := by
    rw [startsWith_afterAll]
    refine exists_congr fun item => and_congr_right fun _ => ?_
    have leads := represents.leads (path ++ [item])
    rw [follow?_concat, here, Option.bind_some] at leads
    simpa using leads.symm
  refine ⟨starts, fun item => ?_, ?_⟩
  · have alone := starts (· = item)
    simp only [decide_eq_true_eq, exists_eq_left] at alone
    cases child : trie.child? place item with
    | none =>
      rw [child] at alone
      exact Matcher.Node.child?_of_startsWith (Bool.eq_false_iff.mpr (mt alone.mp nofun))
        (decide_eq_true rfl)
    | some next =>
      rw [child] at alone
      obtain ⟨⟨left, handler⟩, member, first⟩ := List.any_eq_true.mp (alone.mpr rfl)
      obtain ⟨rest, rfl⟩ : ∃ rest, left = item :: rest := by
        cases left with
        | nil => nomatch first
        | cons other rest => exact ⟨rest, by simpa using first⟩
      rw [Matcher.Node.child?_of_mem member, Matcher.Node.afterAll, List.foldl_append]
      rfl
  · rw [handler?_afterAll, ← represents.lookup, lookup?, here]
    rfl

theorem startsWith_eq (trie : Trie α) (place : Nat) (p : PatternItem → Bool) :
    trie.startsWith place p = true ↔
      ∃ item, p item = true ∧ (trie.child? place item).isSome := by
  rw [startsWith, Option.any_eq_true]
  simp only [child?, Option.isSome_bind, Option.any_eq_true, List.any_eq_true,
    ← Option.ne_none_iff_isSome, ne_eq, Node.child?_eq_none, not_not, List.mem_map]
  constructor
  · rintro ⟨node, found, link, member, holds⟩
    exact ⟨link.1, holds, node, found, link, member, rfl⟩
  · rintro ⟨_, holds, node, found, link, member, rfl⟩
    exact ⟨node, found, link, member, holds⟩

/-- What is left of the rows along the items that lead to a place. -/
def LeftAt (trie : Trie α) (rows : List (Row α)) (place : Nat) (node : Matcher.Node α) : Prop :=
  ∃ path, trie.follow? path = some place ∧ node = Matcher.Node.afterAll rows path

/-- A walk over the trie is one over the rows that the trie keeps. -/
theorem Represents.simulates (represents : trie.Represents rows) :
    Matcher.Graph.Simulates (trie.LeftAt rows) trie.graph Matcher.byRows := by
  constructor
  case child =>
    rintro place _ ⟨path, here, rfl⟩ item
    obtain ⟨-, child, -⟩ := represents.asks here
    change Option.Rel _ (trie.child? place item) _
    rw [Matcher.byRows_child?, child item]
    cases next : trie.child? place item with
    | none => exact .none
    | some after =>
      have led : trie.follow? (path ++ [item]) = some after := by
        rw [follow?_concat, here, Option.bind_some, next]
      exact .some ⟨path ++ [item], led, rfl⟩
  case starts =>
    rintro place _ ⟨path, here, rfl⟩ p
    exact Bool.eq_iff_iff.mpr ((startsWith_eq trie place p).trans ((represents.asks here).1 p).symm)
  case handler =>
    rintro place _ ⟨path, here, rfl⟩
    exact (represents.asks here).2.2.symm

theorem Represents.find_eq (represents : trie.Represents matcher.rows) :
    trie.find = matcher.find := by
  funext result operand anyCase
  exact represents.simulates.find ⟨[], rfl, rfl⟩ result operand anyCase

/-- Patterns that are put together as rows are found as in the trie of the same patterns. -/
theorem find_ofPatterns {patterns : List (String × α)}
    (built : Matcher.ofPatterns patterns = .ok matcher) :
    ∃ trie, ofPatterns patterns = .ok trie ∧ trie.find = matcher.find := by
  have agree := agree_ofPatterns patterns
  rw [built] at agree
  generalize ofPatterns patterns = outcome at agree
  cases agree with
  | @ok trie _ represents => exact ⟨trie, rfl, represents.find_eq⟩

end Rows

section Map

variable {patterns : List (String × α)}

/-- A pattern ends at the node to which items lead exactly if one with these items has been added. -/
theorem Keeps.ends (keeps : trie.Keeps patterns) (items : List PatternItem) :
    (∃ place, trie.follow? items = some place ∧ (trie.ending? place).isSome) ↔
      ∃ entry ∈ patterns, PatternItem.ofPattern entry.1 = .ok items := by
  have found : (trie.lookup? items).isSome ↔
      ∃ place, trie.follow? items = some place ∧ (trie.ending? place).isSome := by
    rw [lookup?, Option.isSome_bind, Option.any_eq_true]
    simp only [keeps.sound.isSome_handler?]
  rw [← found, Option.isSome_iff_exists]
  simp only [keeps.lookup, Prod.exists]
  exact exists_comm.trans (by simp)

theorem Keeps.handler (keeps : trie.Keeps patterns) {entry : String × α} (member : entry ∈ patterns)
    (read : PatternItem.ofPattern entry.1 = .ok items) :
    ∃ place number, trie.follow? items = some place ∧ trie.ending? place = some number ∧
      trie.handlers[number]? = some entry.2 := by
  have found := (keeps.lookup items entry.2).mpr ⟨entry.1, member, read⟩
  obtain ⟨place, led, handled⟩ := Option.bind_eq_some_iff.mp found
  obtain ⟨number, ended, handler⟩ := Option.bind_eq_some_iff.mp handled
  exact ⟨place, number, led, ended, handler⟩

/-- The trie is a finite map from items to handlers. Of patterns that can be read, one is refused
exactly if an earlier one has the same items. If none is, items lead to a node at which a pattern ends
exactly if a pattern with these items has been added, and its handler is the one that was given with
it; no node has two children under one item, and there are as many patterns as were added. The rows of
a matcher are the same map: they are refused together, or the trie keeps the rows. -/
theorem ofPatterns_finite_map (patterns : List (String × α)) (readable : Readable patterns) :
    (∀ before pattern handler after, patterns = before ++ (pattern, handler) :: after →
      Unrepeated before → ∃ trie, ofPatterns before = .ok trie ∧
        (trie.insert pattern handler = .error (.duplicate pattern) ↔ Repeats before pattern) ∧
        ((∃ next, trie.insert pattern handler = .ok next) ↔ ¬Repeats before pattern)) ∧
    (Unrepeated patterns → ∃ trie, ofPatterns patterns = .ok trie ∧
      (∀ items,
        ((∃ place, trie.follow? items = some place ∧ (trie.ending? place).isSome) ↔
          ∃ entry ∈ patterns, PatternItem.ofPattern entry.1 = .ok items) ∧
        ∀ entry ∈ patterns, PatternItem.ofPattern entry.1 = .ok items →
          ∃ place number, trie.follow? items = some place ∧ trie.ending? place = some number ∧
            trie.handlers[number]? = some entry.2) ∧
      (∀ node ∈ trie.nodes, (node.children.map (·.1)).Nodup) ∧
      trie.size = patterns.length) ∧
    Agree (ofPatterns patterns) (Matcher.ofPatterns patterns) := by
  refine ⟨?_, fun unrepeated => ?_, agree_ofPatterns patterns⟩
  · rintro before pattern handler after rfl unrepeated
    obtain ⟨trie, built, keeps⟩ := keeps_ofPatterns
      (fun entry member => readable entry (List.mem_append_left _ member)) unrepeated
    obtain ⟨items, parsed⟩ := readable.parsed (pattern, handler) (by simp)
    obtain ⟨refused, added⟩ := keeps.insert parsed handler
    refine ⟨trie, built, ⟨fun error => ?_, refused⟩, ⟨fun ⟨next, ok⟩ repeats => ?_, fun fresh => ?_⟩⟩
    · by_contra fresh
      obtain ⟨next, ok, -⟩ := added fresh
      nomatch error.symm.trans ok
    · nomatch (refused repeats).symm.trans ok
    · obtain ⟨next, ok, -⟩ := added fresh
      exact ⟨next, ok⟩
  · obtain ⟨trie, built, keeps⟩ := keeps_ofPatterns readable unrepeated
    refine ⟨trie, built, fun items => ⟨keeps.ends items, fun _ => keeps.handler⟩, ?_, keeps.size⟩
    intro node member
    obtain ⟨place, found⟩ := Array.mem_iff_getElem?.mp member
    exact keeps.sound.distinct place node found

/-- One pattern goes on where another ends, and one differs from another by designators alone. -/
theorem ofPatterns_finite_map_designators :
    let patterns := Matcher.samplePatterns
    let load : List PatternItem := [.register .a none, .fieldDelimiter, .expression]
    Readable (patterns ++ [("Ak Ai+Aj", 7)]) ∧ Unrepeated patterns ∧
      ∃ trie, ofPatterns patterns = .ok trie ∧ trie.size = 6 ∧
        (∃ place number, trie.follow? load = some place ∧ trie.ending? place = some number ∧
          trie.handlers[number]? = some 4) ∧
        trie.insert "Ak Ai+Aj" 7 = .error (.duplicate "Ak Ai+Aj") := by
  intro patterns load
  have readable : Readable (patterns ++ [("Ak Ai+Aj", 7)]) := by decide +kernel
  have unrepeated : Unrepeated patterns := by decide +kernel
  have repeats : Repeats patterns "Ak Ai+Aj" :=
    ⟨("Ai Aj+Ak", 5), by decide +kernel, by decide +kernel⟩
  obtain ⟨trie, built, refused, -⟩ :=
    (ofPatterns_finite_map _ readable).1 patterns "Ak Ai+Aj" 7 [] rfl unrepeated
  obtain ⟨_, same, map, -, size⟩ := (ofPatterns_finite_map patterns (by decide +kernel)).2.1 unrepeated
  obtain rfl := Except.ok.inj (built.symm.trans same)
  exact ⟨readable, unrepeated, trie, built, size,
    (map load).2 ("Ai $", 4) (by decide +kernel) (by decide +kernel), refused.mpr repeats⟩

end Map

end Trie

end CrayAssembler
