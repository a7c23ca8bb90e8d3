import Flowgen.Proofs.Filling
import Flowgen.Text.Blank
import Flowgen.Text.Lines

namespace Flowgen.Template

/-!
# Well spaced templates

A template is well spaced if each of its lines is, and it stays so when blank
characters around it are dropped.  A single line is checked by looking for its
double braces one after the other.
-/

theorem isTagCharacter_of_isBlank
    {character : Char}
    (blank : Text.isBlank character = true) :
    isTagCharacter character = false := by
  rw [← Bool.not_eq_true]
  intro inTag
  have range : 95 ≤ character.toNat ∧ character.toNat ≤ 125 := by
    delta isTagCharacter isNameCharacter Char.isLower at inTag
    simp only [Bool.or_eq_true, beq_iff_eq, Bool.and_eq_true, decide_eq_true_eq]
      at inTag
    rcases inTag with ((⟨least, greatest⟩ | rfl) | rfl) | rfl
    · have low : (97 : Nat) ≤ character.toNat := least
      have high : character.toNat ≤ 122 := greatest
      omega
    · decide
    · decide
    · decide
  simp only [Text.isBlank, Bool.or_eq_true, Bool.and_eq_true, decide_eq_true_eq,
    beq_iff_eq] at blank
  omega

namespace Spaced

variable {names : List (List Char)} {text first second : List Char}
  {character : Char}

theorem of_cons
    (outside : isTagCharacter character = false)
    (spaced : Spaced names (character :: text)) :
    Spaced names text := by
  generalize wholeIs : character :: text = whole at spaced
  cases spaced with
  | plain free =>
      subst wholeIs
      exact .plain (free.of_infix (List.suffix_cons character text).isInfix)
  | @slot before name after free apart isName known apartAfter spacedAfter =>
      cases before with
      | nil =>
          have isOpening : character = '\x7b' := (List.cons.inj wholeIs).1
          rw [isOpening] at outside
          exact absurd outside (by decide)
      | cons head before =>
          rw [(List.cons.inj wholeIs).2]
          refine .slot (free.of_infix (List.suffix_cons head before).isInfix) ?_
            isName known apartAfter spacedAfter
          intro last isLast
          apply apart last
          rw [List.getLast?_cons, isLast]
          rfl

theorem of_concat
    (outside : isTagCharacter character = false)
    (spaced : Spaced names (text ++ [character])) :
    Spaced names text := by
  generalize wholeIs : text ++ [character] = whole at spaced
  induction spaced generalizing text with
  | plain free =>
      subst wholeIs
      exact .plain (free.of_infix List.infix_append_left)
  | @slot before name after free apart isName known apartAfter spacedAfter
      inductionHypothesis =>
      rcases List.eq_nil_or_concat after with rfl | ⟨rest, last, rfl⟩
      · have lastIs := congrArg List.getLast? wholeIs
        rw [List.append_nil, tag_append_eq, List.getLast?_concat,
          List.getLast?_concat] at lastIs
        have isClosing : character = '\x7d' := Option.some.inj lastIs
        rw [isClosing] at outside
        exact absurd outside (by decide)
      · rw [List.concat_eq_append, ← List.append_assoc] at wholeIs
        obtain ⟨rfl, sameLast⟩ := List.append_inj' wholeIs rfl
        refine .slot free apart isName known ?_ (inductionHypothesis ?_)
        · intro head isHead
          apply apartAfter head
          rw [List.concat_eq_append, List.head?_append, isHead]
          rfl
        · rw [sameLast, List.concat_eq_append]

/-- White space around a well spaced text can be dropped. -/
theorem trimmed
    (spaced : Spaced names text) :
    Spaced names (Text.trimmed text) := by
  have start : ∀ text, Spaced names text →
      Spaced names (text.dropWhile Text.isBlank) := by
    intro text spaced
    induction text with
    | nil =>
        exact spaced
    | cons character text inductionHypothesis =>
        rw [List.dropWhile_cons]
        split
        · rename_i blank
          exact inductionHypothesis
            (spaced.of_cons (isTagCharacter_of_isBlank blank))
        · exact spaced
  have finish : ∀ text, Spaced names text →
      Spaced names (Text.dropEnd Text.isBlank text) := by
    intro text spaced
    rw [Text.dropEnd]
    induction text using List.reverseRecOn with
    | nil =>
        exact spaced
    | append_singleton text character inductionHypothesis =>
        rw [List.reverse_concat, List.dropWhile_cons]
        split
        · rename_i blank
          exact inductionHypothesis
            (spaced.of_concat (isTagCharacter_of_isBlank blank))
        · rwa [List.reverse_cons, List.reverse_reverse]
  exact finish _ (start _ spaced)

/--
Well spaced texts can be put together with a character between them that no
tag has.
-/
theorem append_cons
    (firstSpaced : Spaced names first)
    (outside : isTagCharacter character = false)
    (secondSpaced : Spaced names second) :
    Spaced names (first ++ character :: second) := by
  have firm : Firm [] [character] := by
    refine ⟨by simp, .of_not_mem ?_, ?_, ?_⟩
    · intro isOpening
      rw [List.mem_singleton] at isOpening
      rw [← isOpening] at outside
      exact absurd outside (by decide)
    · exact fun other same => Option.some.inj same ▸ outside
    · exact fun other same => Option.some.inj same ▸ outside
  induction firstSpaced with
  | @plain text free =>
      rw [List.append_cons]
      cases secondSpaced with
      | plain alsoFree =>
          exact .plain (free.around firm alsoFree)
      | slot alsoFree apart isName known apartAfter spacedAfter =>
          rw [← List.append_assoc, ← List.append_assoc]
          refine .slot (free.around firm alsoFree) ?_ isName known apartAfter
            spacedAfter
          intro last isLast
          rename_i before _ _
          cases before with
          | nil =>
              rw [List.append_nil, List.getLast?_concat] at isLast
              exact Option.some.inj isLast ▸ outside
          | cons head before =>
              rw [List.getLast?_append_of_ne_nil _ (by simp)] at isLast
              exact apart last isLast
  | @slot before name after free apart isName known apartAfter _
      inductionHypothesis =>
      rw [List.append_assoc]
      refine .slot free apart isName known ?_ inductionHypothesis
      intro head isHead
      cases after with
      | nil =>
          exact Option.some.inj isHead ▸ outside
      | cons first after =>
          exact apartAfter head isHead

/-- Well spaced lines make a well spaced text. -/
theorem ofLines
    {lines : List String}
    (spaced : ∀ line ∈ lines, Spaced names line.toList) :
    Spaced names (Text.ofLines lines).toList := by
  rw [Text.ofLines, Text.join, String.toList_ofList]
  induction lines with
  | nil =>
      exact .plain (.of_not_mem (by simp [List.intercalate]))
  | cons line lines inductionHypothesis =>
      obtain ⟨lineSpaced, restSpaced⟩ := List.forall_mem_cons.mp spaced
      cases lines with
      | nil =>
          simpa [List.intercalate] using lineSpaced
      | cons next lines =>
          rw [List.map_cons, List.map_cons, List.intercalate_cons_cons,
            List.append_assoc]
          exact lineSpaced.append_cons (by decide)
            (inductionHypothesis restSpaced)

end Spaced

section Kept

variable {name text : List Char}

theorem infix_dropWhile_isBlank
    {character : Char}
    {rest : List Char}
    (notBlank : Text.isBlank character = false)
    (found : character :: rest <:+: text) :
    character :: rest <:+: text.dropWhile Text.isBlank := by
  induction text with
  | nil =>
      exact found
  | cons first text inductionHypothesis =>
      rw [List.dropWhile_cons]
      split
      · rename_i blank
        rcases List.infix_cons_iff.mp found with atFront | behind
        · rw [← (List.cons_prefix_cons.mp atFront).1, notBlank] at blank
          cases blank
        · exact inductionHypothesis behind
      · exact found

theorem tag_infix_trimmed
    (found : tag name <:+: text) :
    tag name <:+: Text.trimmed text := by
  have inStart : tag name <:+: Text.dropStart Text.isBlank text :=
    infix_dropWhile_isBlank (by decide) found
  have reversed : (tag name).reverse =
      '\x7d' :: ('\x7b' :: '\x7b' :: name ++ ['\x7d']).reverse := by
    simp [tag]
  rw [Text.trimmed, Text.dropEnd, ← List.reverse_infix, List.reverse_reverse,
    reversed]
  rw [← List.reverse_infix, reversed] at inStart
  exact infix_dropWhile_isBlank (by decide) inStart

theorem infix_intercalate
    {part separator : List Char}
    {parts : List (List Char)}
    (member : part ∈ parts) :
    part <:+: List.intercalate separator parts := by
  induction parts with
  | nil =>
      cases member
  | cons first parts inductionHypothesis =>
      cases parts with
      | nil =>
          rw [List.mem_singleton.mp member]
          simp [List.intercalate]
      | cons next parts =>
          rw [List.intercalate_cons_cons]
          rcases List.mem_cons.mp member with rfl | inRest
          · exact List.infix_append_of_infix_left List.infix_append_left
          · exact List.infix_append_of_infix_right (inductionHypothesis inRest)

theorem infix_ofLines
    {line : String}
    {lines : List String}
    (member : line ∈ lines) :
    line.toList <:+: (Text.ofLines lines).toList := by
  rw [Text.ofLines, Text.join_toList]
  exact infix_intercalate (List.mem_map_of_mem member)

theorem tag_infix_trim
    {line : String}
    {lines : List String}
    (member : line ∈ lines)
    (found : tag name <:+: line.toList) :
    tag name <:+: (Text.trim (Text.ofLines lines)).toList := by
  rw [Text.trim, String.toList_ofList]
  exact tag_infix_trimmed (found.trans (infix_ofLines member))

end Kept

/-- A text up to its first double braces, and what follows them. -/
def upToBraces : List Char → List Char × Option (List Char)
  | [] => ([], none)
  | character :: text =>
      match Text.after? ['\x7b', '\x7b'] (character :: text) with
      | some rest => ([], some rest)
      | none => (character :: (upToBraces text).1, (upToBraces text).2)

/--
Whether tags with known names stand at all double braces of a text, well
spaced.
-/
def isSpacedWithin (names : List (List Char)) : Nat → List Char → Bool
  | 0, _ => false
  | fuel + 1, text =>
      match upToBraces text with
      | (_, none) => true
      | (before, some rest) =>
          let name := rest.takeWhile isNameCharacter
          match Text.after? ['\x7d', '\x7d'] (rest.dropWhile isNameCharacter)
            with
          | none => false
          | some after =>
              !name.isEmpty && names.contains name
                && before.getLast?.all
                  (fun character => !isTagCharacter character)
                && after.head?.all (fun character => !isTagCharacter character)
                && isSpacedWithin names fuel after

/-- What stands before the first double braces has no double braces. -/
theorem upToBraces_eq
    {text before : List Char}
    {rest? : Option (List Char)}
    (found : upToBraces text = (before, rest?)) :
    ¬ ['\x7b', '\x7b'] <:+: before ∧
      text = before ++ (rest?.elim [] fun rest =>
        ['\x7b', '\x7b'] ++ rest) := by
  induction text generalizing before rest? with
  | nil =>
      cases found
      exact ⟨by simp, rfl⟩
  | cons character text inductionHypothesis =>
      rw [upToBraces] at found
      cases atFront : Text.after? ['\x7b', '\x7b'] (character :: text) with
      | some rest =>
          rw [atFront] at found
          cases found
          refine ⟨by simp, ?_⟩
          rw [Text.after?_eq_some.mp atFront]
          rfl
      | none =>
          rw [atFront] at found
          cases found
          obtain ⟨noBraces, whole⟩ := inductionHypothesis rfl
          refine ⟨fun braces => ?_, ?_⟩
          · rcases List.infix_cons_iff.mp braces with front | behind
            · apply Text.after?_eq_none.mp atFront
              rw [whole, ← List.cons_append]
              exact front.trans (List.prefix_append _ _)
            · exact noBraces behind
          · rw [List.cons_append, ← whole]

/-- What the check accepts is well spaced. -/
theorem spaced_of_isSpacedWithin
    {names : List (List Char)}
    {fuel : Nat}
    {text : List Char}
    (checked : isSpacedWithin names fuel text = true) :
    Spaced names text := by
  induction fuel generalizing text with
  | zero =>
      cases checked
  | succ fuel inductionHypothesis =>
      rw [isSpacedWithin] at checked
      rcases found : upToBraces text with ⟨before, _ | rest⟩
      · obtain ⟨noBraces, whole⟩ := upToBraces_eq found
        rw [whole, Option.elim_none, List.append_nil]
        exact .plain (.of_no_opening noBraces)
      · obtain ⟨noBraces, whole⟩ := upToBraces_eq found
        rw [found] at checked
        simp only at checked
        split at checked
        · cases checked
        · rename_i after closed
          simp only [Bool.and_eq_true, Bool.not_eq_true', Option.all_eq_true,
            List.isEmpty_eq_false_iff, List.contains_iff_mem] at checked
          obtain ⟨⟨⟨⟨notNil, known⟩, apart⟩, apartAfter⟩, restChecked⟩ :=
            checked
          have isName : IsTagName (rest.takeWhile isNameCharacter) :=
            ⟨notNil, List.all_eq_true.mp List.all_takeWhile⟩
          have restIs : rest = rest.takeWhile isNameCharacter ++
              (['\x7d', '\x7d'] ++ after) := by
            rw [← Text.after?_eq_some.mp closed,
              List.takeWhile_append_dropWhile]
          have textIs : text = before ++ tag (rest.takeWhile isNameCharacter) ++
              after := by
            rw [whole, Option.elim_some]
            nth_rewrite 1 [restIs]
            simp [tag]
          rw [textIs]
          exact .slot (.of_no_opening noBraces) apart isName known apartAfter
            (inductionHypothesis restChecked)

end Flowgen.Template
