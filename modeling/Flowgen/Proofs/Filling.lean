import Flowgen.Proofs.Tags
import Mathlib.Data.List.Find

namespace Flowgen.Template

/-!
# Filling placeholders one after the other and all at once

A text is well spaced if every tag in it stands between characters that no tag
has.  Whatever is put in place of the tags of such a text, no tag forms across
the edges.  So filling its placeholders one after the other is the same as
filling all of them at once, where each content has been filled by the later
placeholders.
-/

section Replacing

variable {name pattern replacement text first second : List Char}
  {character : Char}

/-- A tag that does not stand in a text leaves it as it is, whatever follows. -/
theorem replaceAll_tag_append
    (isName : IsTagName name)
    (absent : ¬ tag name <:+: first)
    (parted : Parted first second) :
    Text.replaceAll (tag name) replacement (first ++ second) =
      first ++ Text.replaceAll (tag name) replacement second := by
  induction first with
  | nil =>
      rfl
  | cons character rest inductionHypothesis =>
      rw [List.cons_append, Text.replaceAll_cons, inductionHypothesis]
      · rfl
      · exact fun found => absent (List.infix_cons found)
      · intro other before after isOther tagIs notNil alsoNotNil isSuffix
        exact parted other before after isOther tagIs notNil alsoNotNil
          (isSuffix.trans (List.suffix_cons character rest))
      · intro starts
        rw [← List.cons_append] at starts
        rcases Text.prefix_append_cases starts with
          inFirst | ⟨after, tagIs, notNil, isPrefix⟩
        · exact absent inFirst.isInfix
        · exact parted name _ after isName tagIs (by simp) notNil
            List.suffix_rfl isPrefix

theorem replaceAll_tag_eq_self
    (isName : IsTagName name)
    (absent : ¬ tag name <:+: text) :
    Text.replaceAll (tag name) replacement text = text := by
  have whole : Text.replaceAll (tag name) replacement (text ++ []) =
      text ++ Text.replaceAll (tag name) replacement [] :=
    replaceAll_tag_append isName absent (.of_head? (by simp))
  simpa [Text.replaceAll, Text.replaceAfter] using whole

/-- Texts that no tag connects are treated by themselves. -/
theorem replaceAll_tag_append_append
    (isName : IsTagName name)
    (parted : Parted first second) :
    Text.replaceAll (tag name) replacement (first ++ second) =
      Text.replaceAll (tag name) replacement first ++
        Text.replaceAll (tag name) replacement second := by
  induction size :
    first.length using Nat.strong_induction_on generalizing first with
  | _ length inductionHypothesis =>
      have shorter : ∀ before rest, before ≠ [] → first = before ++ rest →
          Text.replaceAll (tag name) replacement (rest ++ second) =
            Text.replaceAll (tag name) replacement rest ++
              Text.replaceAll (tag name) replacement second := by
        intro before rest notNil firstIs
        refine inductionHypothesis rest.length ?_ ?_ rfl
        · rw [← size, firstIs, List.length_append]
          have := List.length_pos_of_ne_nil notNil
          omega
        · intro other left right isOther tagIs leftNotNil rightNotNil isSuffix
          refine parted other left right isOther tagIs leftNotNil rightNotNil ?_
          rw [firstIs]
          exact isSuffix.trans (List.suffix_append before rest)
      cases first with
      | nil =>
          rfl
      | cons character rest =>
          by_cases starts : tag name <+: character :: rest
          · obtain ⟨more, whole⟩ := starts
            have notNil : tag name ≠ [] := by simp [tag]
            rw [← whole, List.append_assoc, Text.replaceAll_append_self notNil,
              Text.replaceAll_append_self notNil,
              shorter _ more notNil whole.symm, List.append_assoc]
          · have elsewhere : ¬ tag name <+: character :: (rest ++ second) := by
              intro startsWhole
              rw [← List.cons_append] at startsWhole
              rcases Text.prefix_append_cases startsWhole with
                inFirst | ⟨after, tagIs, notNil, isPrefix⟩
              · exact starts inFirst
              · exact parted name _ after isName tagIs (by simp) notNil
                  List.suffix_rfl isPrefix
            rw [List.cons_append, Text.replaceAll_cons elsewhere,
              Text.replaceAll_cons starts,
              shorter [character] rest (by simp) rfl, List.cons_append]

/--
Replacements that start outside tags do not lengthen what may be the start of
a tag.
-/
theorem prefix_of_prefix_replaceAll
    {start : List Char}
    (notNil : pattern ≠ [])
    (outside : isTagCharacter character = false)
    (inTags : ∀ other ∈ start, isTagCharacter other = true)
    (starts : start <+: Text.replaceAll pattern (character :: replacement)
      text) :
    start <+: text := by
  induction text generalizing start with
  | nil =>
      exact starts
  | cons first text inductionHypothesis =>
      by_cases atStart : pattern <+: first :: text
      · obtain ⟨rest, whole⟩ := atStart
        rw [← whole, Text.replaceAll_append_self notNil, List.cons_append]
          at starts
        cases start with
        | nil =>
            exact List.nil_prefix
        | cons head start =>
            -- the replacement cannot start with a character of a tag
            rw [(List.cons_prefix_cons.mp starts).1] at inTags
            rw [inTags character List.mem_cons_self] at outside
            cases outside
      · rw [Text.replaceAll_cons atStart] at starts
        cases start with
        | nil =>
            exact List.nil_prefix
        | cons head start =>
            obtain ⟨sameHead, restStarts⟩ := List.cons_prefix_cons.mp starts
            exact List.cons_prefix_cons.mpr ⟨sameHead, inductionHypothesis
              (List.forall_mem_cons.mp inTags).2 restStarts⟩

/--
Replacing a tag by a text that starts outside tags and has no opening brace
makes no new tags, and takes away the one it replaces.
-/
theorem tag_of_tag_replaceAll
    {other : List Char}
    (isOther : IsTagName other)
    (outside : isTagCharacter character = false)
    (noOpening : '\x7b' ∉ character :: replacement)
    (found : tag other <:+: Text.replaceAll (tag name)
      (character :: replacement) text) :
    tag other <:+: text ∧ other ≠ name := by
  have notNil : tag name ≠ [] := by simp [tag]
  induction size :
    text.length using Nat.strong_induction_on generalizing text with
  | _ length inductionHypothesis =>
      cases text with
      | nil =>
          simp [Text.replaceAll, Text.replaceAfter, tag] at found
      | cons first rest =>
          by_cases atStart : tag name <+: first :: rest
          · obtain ⟨more, whole⟩ := atStart
            rw [← whole, Text.replaceAll_append_self notNil] at found
            have inRest : tag other <:+:
                Text.replaceAll (tag name) (character :: replacement) more := by
              rcases Text.infix_append_cases found with
                inFirst | inSecond | ⟨before, after, tagIs, left, right,
                  isSuffix, isPrefix⟩
              · exact absurd (TagsIn.of_not_mem noOpening other isOther inFirst)
                  List.not_mem_nil
              · exact inSecond
              · exact absurd isPrefix
                  (Parted.of_not_mem noOpening other before after isOther tagIs
                  left right isSuffix)
            have shorter : more.length < length := by
              rw [← size, ← whole, List.length_append]
              have := List.length_pos_of_ne_nil notNil
              omega
            obtain ⟨inMore, different⟩ :=
              inductionHypothesis _ shorter inRest rfl
            refine ⟨?_, different⟩
            rw [← whole]
            exact List.infix_append_of_infix_right inMore
          · by_cases atFront : tag other <+: first :: rest
            · refine ⟨atFront.isInfix, ?_⟩
              rintro rfl
              exact atStart atFront
            · have inRest :
                  tag other <:+: Text.replaceAll (tag name)
                    (character :: replacement) rest := by
                rw [Text.replaceAll_cons atStart] at found
                rcases List.infix_cons_iff.mp found with front | behind
                · rw [← Text.replaceAll_cons atStart] at front
                  exact absurd (prefix_of_prefix_replaceAll notNil outside
                    (fun _ => isTagCharacter_of_mem isOther) front) atFront
                · exact behind
              have shorter : rest.length < length := by
                rw [← size]
                simp
              obtain ⟨inRest, different⟩ :=
                inductionHypothesis _ shorter inRest rfl
              exact ⟨List.infix_cons inRest, different⟩

end Replacing

/-- A text, by its characters, with placeholders filled in order. -/
def filled (slots : List Slot) (text : List Char) : List Char :=
  slots.foldl (fun text slot =>
    Text.replaceAll (tag slot.name.toList) slot.content.toList text) text

theorem fill_toList
    (text : String)
    (slots : List Slot) :
    (fill text slots).toList = filled slots text.toList := by
  induction slots generalizing text with
  | nil =>
      rfl
  | cons slot slots inductionHypothesis =>
      rw [fill, List.foldl_cons, ← fill, inductionHypothesis, fillSlot,
        Text.replace, String.toList_ofList, placeholder_toList]
      rfl

/-- Slots whose names are names of tags. -/
def Named (slots : List Slot) : Prop :=
  ∀ slot ∈ slots, IsTagName slot.name.toList

theorem named_of_names
    {names : List String}
    {slots : List Slot}
    (areNames : ∀ name ∈ names, IsTagName name.toList)
    (namesAre : slots.map Slot.name = names) :
    Named slots := by
  intro slot member
  apply areNames
  rw [← namesAre]
  exact List.mem_map_of_mem member

section Filled

variable {slot : Slot} {slots : List Slot} {text first second : List Char}
  {character : Char}

theorem filled_cons
    (slot : Slot)
    (slots : List Slot)
    (text : List Char) :
    filled (slot :: slots) text =
      filled slots (Text.replaceAll (tag slot.name.toList) slot.content.toList
        text) :=
  rfl

theorem filled_append
    (slots later : List Slot)
    (text : List Char) :
    filled (slots ++ later) text = filled later (filled slots text) :=
  List.foldl_append

theorem filled_tagFree_append
    (named : Named slots)
    (free : TagFree first)
    (apart : ∀ character, first.getLast? = some character →
      isTagCharacter character = false)
    (second : List Char) :
    filled slots (first ++ second) = first ++ filled slots second := by
  induction slots generalizing second with
  | nil =>
      rfl
  | cons slot slots inductionHypothesis =>
      obtain ⟨slotNamed, restNamed⟩ := List.forall_mem_cons.mp named
      have absent : ¬ tag slot.name.toList <:+: first := fun found =>
        List.not_mem_nil (free _ slotNamed found)
      rw [filled_cons, filled_cons,
        replaceAll_tag_append slotNamed absent (.of_getLast? apart),
        inductionHypothesis restNamed]

/--
A character that no tag has divides a text into two that are filled by
themselves.
-/
theorem filled_append_cons
    (named : Named slots)
    (outside : isTagCharacter character = false)
    (first second : List Char) :
    filled slots (first ++ character :: second) =
      filled slots first ++ character :: filled slots second := by
  induction slots generalizing first second with
  | nil =>
      rfl
  | cons slot slots inductionHypothesis =>
      obtain ⟨slotNamed, restNamed⟩ := List.forall_mem_cons.mp named
      have parted : Parted first (character :: second) :=
        .of_head? fun head isHead => Option.some.inj isHead ▸ outside
      have kept : Text.replaceAll (tag slot.name.toList) slot.content.toList
          (character :: second) =
          character :: Text.replaceAll (tag slot.name.toList)
            slot.content.toList second := by
        refine Text.replaceAll_cons fun starts => ?_
        have isOpening : '\x7b' = character :=
          (List.cons_prefix_cons.mp starts).1
        rw [← isOpening] at outside
        exact absurd outside (by decide)
      rw [filled_cons, filled_cons, filled_cons,
        replaceAll_tag_append_append slotNamed parted,
        kept, inductionHypothesis restNamed]

@[simp] theorem filled_nil
    (slots : List Slot) :
    filled slots [] = [] := by
  induction slots with
  | nil =>
      rfl
  | cons slot slots inductionHypothesis =>
      rw [filled_cons]
      exact inductionHypothesis

theorem filled_cons_of_outside
    (named : Named slots)
    (outside : isTagCharacter character = false)
    (text : List Char) :
    filled slots (character :: text) = character :: filled slots text := by
  have divided := filled_append_cons named outside [] text
  rwa [filled_nil, List.nil_append, List.nil_append] at divided

theorem filled_append_of_outside
    (named : Named slots)
    (outside : ∀ character ∈ first, isTagCharacter character = false)
    (second : List Char) :
    filled slots (first ++ second) = first ++ filled slots second := by
  induction first with
  | nil =>
      rfl
  | cons character first inductionHypothesis =>
      obtain ⟨characterOutside, restOutside⟩ := List.forall_mem_cons.mp outside
      rw [List.cons_append, filled_cons_of_outside named characterOutside,
        inductionHypothesis restOutside, List.cons_append]

theorem filled_intercalate
    {separator : List Char}
    (named : Named slots)
    (notNil : separator ≠ [])
    (outside : ∀ character ∈ separator, isTagCharacter character = false)
    (parts : List (List Char)) :
    filled slots (List.intercalate separator parts) =
      List.intercalate separator (parts.map (filled slots)) := by
  induction parts with
  | nil =>
      simp [List.intercalate]
  | cons part parts inductionHypothesis =>
      cases parts with
      | nil =>
          simp [List.intercalate]
      | cons next parts =>
          obtain ⟨first, separator, rfl⟩ := List.exists_cons_of_ne_nil notNil
          obtain ⟨firstOutside, restOutside⟩ := List.forall_mem_cons.mp outside
          rw [List.map_cons, List.map_cons, List.intercalate_cons_cons,
            List.intercalate_cons_cons, ← List.map_cons, ← inductionHypothesis,
            List.append_assoc,
            List.cons_append, filled_append_cons named firstOutside,
            filled_append_of_outside named restOutside, List.append_assoc,
            List.cons_append]

theorem filled_eq_self
    (named : Named slots)
    (absent : ∀ slot ∈ slots, ¬ tag slot.name.toList <:+: text) :
    filled slots text = text := by
  induction slots with
  | nil =>
      rfl
  | cons slot slots inductionHypothesis =>
      obtain ⟨slotNamed, restNamed⟩ := List.forall_mem_cons.mp named
      obtain ⟨slotAbsent, restAbsent⟩ := List.forall_mem_cons.mp absent
      rw [filled_cons, replaceAll_tag_eq_self slotNamed slotAbsent]
      exact inductionHypothesis restNamed restAbsent

theorem filled_eq_self_of_tagFree
    (named : Named slots)
    (free : TagFree text) :
    filled slots text = text :=
  filled_eq_self named fun slot member found =>
    List.not_mem_nil (free _ (named slot member) found)

end Filled

/-- Fill all placeholders at once, after `skip` characters. -/
def atOnceAfter (slots : List Slot) : Nat → List Char → List Char
  | _, [] => []
  | skip + 1, _ :: text => atOnceAfter slots skip text
  | 0, character :: text =>
      match slots.find? fun slot =>
        (placeholder slot.name).toList.isPrefixOf (character :: text) with
      | some slot =>
          slot.content.toList ++ atOnceAfter slots
            ((placeholder slot.name).toList.length - 1) text
      | none => character :: atOnceAfter slots 0 text

/--
A text with all placeholders filled at once: what is filled in is not looked
at again.
-/
def fillAtOnce (text : String) (slots : List Slot) : String :=
  String.ofList (atOnceAfter slots 0 text.toList)

/-- The slots with each content filled by the slots behind it. -/
def settled : List Slot → List Slot
  | [] => []
  | slot :: later => ⟨slot.name, fill slot.content later⟩ :: settled later

section AtOnce

variable {slot : Slot} {slots : List Slot} {text first second name : List Char}

theorem atOnceAfter_append
    (named : Named slots)
    (absent : ∀ slot ∈ slots, ¬ tag slot.name.toList <:+: first)
    (parted : Parted first second) :
    atOnceAfter slots 0 (first ++ second) =
      first ++ atOnceAfter slots 0 second := by
  induction first with
  | nil =>
      rfl
  | cons character rest inductionHypothesis =>
      have elsewhere : (slots.find? fun slot =>
          (placeholder slot.name).toList.isPrefixOf
            (character :: (rest ++ second))) = none := by
        rw [List.find?_eq_none]
        intro slot member
        rw [placeholder_toList, List.isPrefixOf_iff_prefix, ← List.cons_append]
        intro starts
        rcases Text.prefix_append_cases starts with
          inFirst | ⟨after, tagIs, notNil, isPrefix⟩
        · exact absent slot member inFirst.isInfix
        · exact parted _ _ after (named slot member) tagIs (by simp) notNil
            List.suffix_rfl isPrefix
      rw [List.cons_append, atOnceAfter, elsewhere]
      simp only
      rw [inductionHypothesis, List.cons_append]
      · exact fun slot member found =>
          absent slot member (List.infix_cons found)
      · intro other before after isOther tagIs notNil alsoNotNil isSuffix
        exact parted other before after isOther tagIs notNil alsoNotNil
          (isSuffix.trans (List.suffix_cons character rest))

theorem atOnceAfter_eq_self
    (named : Named slots)
    (free : TagFree text) :
    atOnceAfter slots 0 text = text := by
  have absent : ∀ slot ∈ slots, ¬ tag slot.name.toList <:+: text :=
    fun slot member found => List.not_mem_nil (free _ (named slot member) found)
  have whole :
      atOnceAfter slots 0 (text ++ []) = text ++ atOnceAfter slots 0 [] :=
    atOnceAfter_append named absent (.of_head? (by simp))
  simpa [atOnceAfter] using whole

theorem atOnceAfter_cons_of_outside
    {character : Char}
    (named : Named slots)
    (outside : isTagCharacter character = false) :
    atOnceAfter slots 0 (character :: text) =
      character :: atOnceAfter slots 0 text := by
  have free : TagFree [character] := by
    refine .of_not_mem fun isOpening => ?_
    rw [List.mem_singleton] at isOpening
    rw [← isOpening] at outside
    exact absurd outside (by decide)
  have absent : ∀ slot ∈ slots, ¬ tag slot.name.toList <:+: [character] :=
    fun slot member found => List.not_mem_nil (free _ (named slot member) found)
  exact atOnceAfter_append named absent
    (.of_getLast? fun other isLast => Option.some.inj isLast ▸ outside)

theorem atOnceAfter_length
    (passed : List Char) :
    atOnceAfter slots passed.length (passed ++ text) =
      atOnceAfter slots 0 text := by
  induction passed with
  | nil =>
      rfl
  | cons character passed inductionHypothesis =>
      simpa [atOnceAfter] using inductionHypothesis

/-- A text starts with two tags only if they are the same. -/
theorem tag_isPrefixOf_tag
    {other : List Char}
    (isName : IsTagName name)
    (isOther : IsTagName other)
    (text : List Char) :
    (tag name).isPrefixOf (tag other ++ text) = (name == other) := by
  rw [Bool.eq_iff_iff, List.isPrefixOf_iff_prefix, beq_iff_eq]
  constructor
  · intro starts
    rcases Text.prefix_append_cases starts with inside | ⟨rest, tagIs, _, _⟩
    · exact eq_of_tag_infix_tag isName isOther inside.isInfix
    · refine (eq_of_tag_infix_tag isOther isName ?_).symm
      rw [tagIs]
      exact List.infix_append_left
  · rintro rfl
    exact List.prefix_append _ _

/-- The first slot for a tag. -/
def slotFor? (slots : List Slot) (name : List Char) : Option Slot :=
  slots.find? fun slot => slot.name.toList == name

/--
What a tag alone becomes: the content of its slot, or itself if it has none.
-/
def contentFor (slots : List Slot) (name : List Char) : List Char :=
  match slotFor? slots name with
  | some slot => slot.content.toList
  | none => tag name

theorem contentFor_of_mem
    (nodup : (slots.map fun slot => slot.name.toList).Nodup)
    (member : slot ∈ slots) :
    contentFor slots slot.name.toList = slot.content.toList := by
  have found : slotFor? slots slot.name.toList = some slot := by
    induction slots with
    | nil =>
        cases member
    | cons first slots inductionHypothesis =>
        obtain ⟨isNew, restNodup⟩ := List.nodup_cons.mp nodup
        rcases List.mem_cons.mp member with rfl | inRest
        · exact List.find?_cons_of_pos (by simp)
        · have differs : first.name.toList ≠ slot.name.toList := by
            intro same
            exact isNew (List.mem_map.mpr ⟨slot, inRest, same.symm⟩)
          rw [slotFor?, List.find?_cons_of_neg (by simpa using differs)]
          exact inductionHypothesis restNodup inRest
  rw [contentFor, found]

theorem atOnceAfter_tag_append
    (named : Named slots)
    (isName : IsTagName name)
    (apart : ∀ character, second.head? = some character →
      isTagCharacter character = false) :
    atOnceAfter slots 0 (tag name ++ second) =
      contentFor slots name ++ atOnceAfter slots 0 second := by
  have sameSlot : (slots.find? fun slot =>
      (placeholder slot.name).toList.isPrefixOf (tag name ++ second)) =
        slotFor? slots name := by
    refine List.find?_congr fun slot member => ?_
    rw [placeholder_toList, tag_isPrefixOf_tag (named slot member) isName]
  rw [contentFor]
  cases found : slotFor? slots name with
  | some slot =>
      rw [found] at sameSlot
      have nameIs : slot.name.toList = name := by
        simpa using List.find?_some found
      simp only [tag, List.cons_append] at sameSlot ⊢
      rw [atOnceAfter, sameSlot]
      simp only [placeholder_toList, nameIs]
      have passed :
          atOnceAfter slots ('\x7b' :: name ++ ['\x7d', '\x7d']).length
          (('\x7b' :: name ++ ['\x7d', '\x7d']) ++ second) =
            atOnceAfter slots 0 second :=
        atOnceAfter_length _
      simpa [tag] using passed
  | none =>
      refine atOnceAfter_append named (fun slot member found' => ?_)
        (.of_head? apart)
      have nameIs := eq_of_tag_infix_tag (named slot member) isName found'
      exact List.find?_eq_none.mp found slot member (by simp [nameIs])

theorem filled_tag
    (named : Named slots)
    (isName : IsTagName name) :
    filled slots (tag name) = contentFor (settled slots) name := by
  induction slots with
  | nil =>
      rfl
  | cons slot slots inductionHypothesis =>
      obtain ⟨slotNamed, restNamed⟩ := List.forall_mem_cons.mp named
      rw [filled_cons]
      by_cases same : slot.name.toList = name
      · have replaced :
            Text.replaceAll (tag name) slot.content.toList (tag name ++ []) =
            slot.content.toList ++
            Text.replaceAll (tag name) slot.content.toList [] :=
          Text.replaceAll_append_self (by simp [tag])
        rw [List.append_nil] at replaced
        rw [same, replaced]
        simp [contentFor, slotFor?, settled, same, fill_toList, Text.replaceAll,
          Text.replaceAfter]
      · rw [replaceAll_tag_eq_self slotNamed fun found =>
          same (eq_of_tag_infix_tag slotNamed isName found),
            inductionHypothesis restNamed]
        simp [contentFor, slotFor?, settled, same]

theorem fill_eq_self_of_tagFree
    {text : String}
    (named : Named slots)
    (free : TagFree text.toList) :
    fill text slots = text := by
  apply String.toList_injective
  rw [fill_toList, filled_eq_self_of_tagFree named free]

theorem settled_eq_self
    (named : Named slots)
    (contents : ∀ slot ∈ slots, TagFree slot.content.toList) :
    settled slots = slots := by
  induction slots with
  | nil =>
      rfl
  | cons slot slots inductionHypothesis =>
      obtain ⟨_, restNamed⟩ := List.forall_mem_cons.mp named
      obtain ⟨slotFree, restFree⟩ := List.forall_mem_cons.mp contents
      rw [settled, fill_eq_self_of_tagFree restNamed slotFree,
        inductionHypothesis restNamed restFree]

theorem settled_named
    (named : Named slots) :
    Named (settled slots) := by
  induction slots with
  | nil =>
      exact named
  | cons slot slots inductionHypothesis =>
      obtain ⟨slotNamed, restNamed⟩ := List.forall_mem_cons.mp named
      exact List.forall_mem_cons.mpr ⟨slotNamed, inductionHypothesis restNamed⟩

end AtOnce

/-- A text with tags of some names, each between characters that no tag has. -/
inductive Spaced (names : List (List Char)) : List Char → Prop where
  | plain
      {text : List Char} :
      TagFree text →
      Spaced names text
  | slot
      {before name after : List Char}
      (free : TagFree before)
      (apart : ∀ character, before.getLast? = some character →
        isTagCharacter character = false)
      (isName : IsTagName name)
      (known : name ∈ names)
      (apartAfter : ∀ character, after.head? = some character →
        isTagCharacter character = false) :
      Spaced names after →
      Spaced names (before ++ tag name ++ after)

namespace Spaced

variable {names : List (List Char)} {text : List Char} {slots : List Slot}

/-- The tags of a well spaced text have the names that it says. -/
theorem tagsIn
    (spaced : Spaced names text) :
    TagsIn names text := by
  induction spaced with
  | plain free =>
      exact .of_tagFree free
  | slot free apart isName known apartAfter _ inductionHypothesis =>
      rw [List.append_assoc]
      exact (TagsIn.of_tagFree free).append
        ((TagsIn.tag isName known).append inductionHypothesis
          (.of_head? apartAfter))
        (.of_getLast? apart)

theorem filled_tag_append
    {name after : List Char}
    (named : Named slots)
    (apartAfter : ∀ character, after.head? = some character →
      isTagCharacter character = false) :
    filled slots (tag name ++ after) =
      filled slots (tag name) ++ filled slots after := by
  cases after with
  | nil =>
      simp
  | cons character after =>
      have outside := apartAfter character rfl
      rw [filled_append_cons named outside,
        filled_cons_of_outside named outside]

theorem atOnceAfter_slot
    {before name after : List Char}
    (named : Named slots)
    (free : TagFree before)
    (apart : ∀ character, before.getLast? = some character →
      isTagCharacter character = false)
    (isName : IsTagName name)
    (apartAfter : ∀ character, after.head? = some character →
      isTagCharacter character = false) :
    atOnceAfter slots 0 (before ++ tag name ++ after) =
      before ++ (contentFor slots name ++ atOnceAfter slots 0 after) := by
  have absent : ∀ slot ∈ slots, ¬ tag slot.name.toList <:+: before :=
    fun slot member found => List.not_mem_nil (free _ (named slot member) found)
  rw [List.append_assoc, atOnceAfter_append named absent (.of_getLast? apart),
    atOnceAfter_tag_append named isName apartAfter]

/-- A well spaced text is filled tag by tag. -/
theorem filled_eq_atOnceAfter
    (spaced : Spaced names text)
    (named : Named slots) :
    filled slots text = atOnceAfter (settled slots) 0 text := by
  induction spaced with
  | @plain text free =>
      rw [filled_eq_self_of_tagFree named free,
        atOnceAfter_eq_self (settled_named named) free]
  | @slot before name after free apart isName known apartAfter _
      inductionHypothesis =>
      rw [atOnceAfter_slot (settled_named named) free apart isName apartAfter,
        List.append_assoc, filled_tagFree_append named free apart,
        filled_tag_append named apartAfter, filled_tag named isName,
        inductionHypothesis]

/-- What a tag of a text becomes stands in the text that is filled at once. -/
theorem contentFor_infix_atOnceAfter
    {name : List Char}
    (spaced : Spaced names text)
    (named : Named slots)
    (isName : IsTagName name)
    (found : tag name <:+: text) :
    contentFor slots name <:+: atOnceAfter slots 0 text := by
  induction spaced with
  | plain free =>
      exact absurd (free name isName found) List.not_mem_nil
  | @slot before other after free apart isOther known apartAfter _
      inductionHypothesis =>
      rw [atOnceAfter_slot named free apart isOther apartAfter]
      rw [List.append_assoc] at found
      rcases (Parted.of_getLast? apart).split_tag isName found with
        inBefore | behind
      · exact absurd (free name isName inBefore) List.not_mem_nil
      rcases (Parted.of_head? apartAfter).split_tag isName behind with
        inTag | inAfter
      · rw [eq_of_tag_infix_tag isName isOther inTag]
        exact List.infix_append_of_infix_right List.infix_append_left
      · exact List.infix_append_of_infix_right
          (List.infix_append_of_infix_right (inductionHypothesis inAfter))

/--
The tags of a text that is filled at once are those of what its own tags
become.
-/
theorem tag_infix_atOnceAfter_iff
    {other : List Char}
    (spaced : Spaced names text)
    (named : Named slots)
    (isOther : IsTagName other) :
    tag other <:+: atOnceAfter slots 0 text ↔
      ∃ name, IsTagName name ∧ tag name <:+: text ∧
      tag other <:+: contentFor slots name := by
  constructor
  · intro found
    induction spaced with
    | plain free =>
        rw [atOnceAfter_eq_self named free] at found
        exact absurd (free other isOther found) List.not_mem_nil
    | @slot before name after free apart isName known apartAfter _
        inductionHypothesis =>
        have apartFilled :
            ∀ character, (atOnceAfter slots 0 after).head? = some character →
            isTagCharacter character = false := by
          intro character isHead
          cases after with
          | nil =>
              simp [atOnceAfter] at isHead
          | cons first after =>
              have outside := apartAfter first rfl
              rw [atOnceAfter_cons_of_outside named outside] at isHead
              exact Option.some.inj isHead ▸ outside
        rw [atOnceAfter_slot named free apart isName apartAfter] at found
        rcases (Parted.of_getLast? apart).split_tag isOther found with
          inBefore | behind
        · exact absurd (free other isOther inBefore) List.not_mem_nil
        rcases (Parted.of_head? apartFilled).split_tag isOther behind with
          inContent | inAfter
        · refine ⟨name, isName, ?_, inContent⟩
          rw [List.append_assoc]
          exact List.infix_append_of_infix_right List.infix_append_left
        · obtain ⟨later, isLater, inText, inContent⟩ :=
            inductionHypothesis inAfter
          exact ⟨later, isLater, List.infix_append_of_infix_right inText,
            inContent⟩
  · rintro ⟨name, isName, inText, inContent⟩
    exact inContent.trans (spaced.contentFor_infix_atOnceAfter named isName
      inText)

/--
Contents without tags take away the tags that have a slot, and leave the
others.
-/
theorem tag_infix_filled_iff
    {other : List Char}
    (spaced : Spaced names text)
    (named : Named slots)
    (contents : ∀ slot ∈ slots, TagFree slot.content.toList)
    (isOther : IsTagName other) :
    tag other <:+: filled slots text ↔
      tag other <:+: text ∧ ∀ slot ∈ slots, slot.name.toList ≠ other := by
  rw [spaced.filled_eq_atOnceAfter named, settled_eq_self named contents,
    spaced.tag_infix_atOnceAfter_iff named isOther]
  constructor
  · rintro ⟨name, isName, inText, inContent⟩
    rw [contentFor] at inContent
    cases found : slotFor? slots name with
    | some slot =>
        rw [found] at inContent
        have free := contents slot (List.mem_of_find?_eq_some found)
        exact absurd (free other isOther inContent) List.not_mem_nil
    | none =>
        rw [found] at inContent
        obtain rfl := eq_of_tag_infix_tag isOther isName inContent
        refine ⟨inText, fun slot member => ?_⟩
        simpa using List.find?_eq_none.mp found slot member
  · rintro ⟨inText, absent⟩
    have noSlot : slotFor? slots other = none :=
      List.find?_eq_none.mpr fun slot member => by
        simpa using absent slot member
    refine ⟨other, isOther, inText, ?_⟩
    rw [contentFor, noSlot]

/-- Contents without tags leave only the tags that have no slot. -/
theorem tagsIn_filled
    {others : List (List Char)}
    (spaced : Spaced names text)
    (named : Named slots)
    (contents : ∀ slot ∈ slots, TagFree slot.content.toList)
    (rest : ∀ name ∈ names, name ∈ others ∨
      ∃ slot ∈ slots, slot.name.toList = name) :
    TagsIn others (filled slots text) := by
  intro other isOther found
  obtain ⟨inText, absent⟩ :=
    (spaced.tag_infix_filled_iff named contents isOther).mp found
  rcases rest other (spaced.tagsIn other isOther inText) with
    isLeft | ⟨slot, member, nameIs⟩
  · exact isLeft
  · exact absurd nameIs (absent slot member)

theorem mono
    {others : List (List Char)}
    (spaced : Spaced names text)
    (included : names ⊆ others) :
    Spaced others text := by
  induction spaced with
  | plain free =>
      exact .plain free
  | slot free apart isName known apartAfter _ inductionHypothesis =>
      exact .slot free apart isName (included known) apartAfter
        inductionHypothesis

end Spaced

/--
Filling the placeholders of a well spaced text one after the other is filling
all of them at once, with each content filled by the slots behind it.
-/
theorem fill_eq_fillAtOnce
    {names : List (List Char)}
    {text : String}
    {slots : List Slot}
    (spaced : Spaced names text.toList)
    (named : Named slots) :
    fill text slots = fillAtOnce text (settled slots) := by
  apply String.toList_injective
  rw [fill_toList, spaced.filled_eq_atOnceAfter named, fillAtOnce,
    String.toList_ofList]

end Flowgen.Template
