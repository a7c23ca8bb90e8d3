import Flowgen.Proofs.AgentPrompts

namespace Flowgen

/-!
# The lines of a class

No placeholder goes over the end of a line, so a template is filled line by
line.  The calls to the methods stand in a class on lines of their own, and so
do the imports.
-/

open Template

namespace Text

/--
The lines of a part that begins and ends with a line are lines of the whole.
-/
theorem mem_splitOn_of_infix
    {part whole line : List Char}
    (found : '\n' :: (part ++ ['\n']) <:+: whole)
    (member : line ∈ part.splitOn '\n') :
    line ∈ whole.splitOn '\n' := by
  obtain ⟨before, after, rfl⟩ := found
  have regroup : before ++ '\n' :: (part ++ ['\n']) ++ after =
      before ++ '\n' :: (part ++ '\n' :: after) := by
    simp
  rw [regroup, List.splitOn_append_cons_self, List.splitOn_append_cons_self]
  exact List.mem_append_right _ (List.mem_append_left _ member)

end Text

theorem Template.ofLines_singleton
    (line : String) :
    (Text.ofLines [line]).toList = line.toList := by
  simp [Text.ofLines, Text.join]

namespace Class

variable {slots : List Slot} {language : Language}

/-- Class templates start and end with characters that are not blank. -/
theorem exists_ends_classCode
    (language : Language) :
    ∃ (first last : Char) (start finish : List Char) (rows : List String),
      rows ≠ [] ∧ classCode language =
        [String.ofList (first :: start)] ++
        (rows ++ [String.ofList (finish ++ [last])]) ∧
      Text.isBlank first = false ∧ Text.isBlank last = false := by
  cases language with
  | php =>
      exact ⟨'<', '\x7d', "?php".toList, [], ((classCode .php).drop 1).dropLast,
        List.cons_ne_nil _ _, rfl, by decide, by decide⟩
  | python =>
      exact ⟨'\x22', '\x7d', "\x22\x22".toList,
        "    \x7b\x7bsteps_methods\x7d".toList,
        ((classCode .python).drop 1).dropLast, List.cons_ne_nil _ _, rfl,
        by decide, by decide⟩
  | javascript =>
      exact ⟨'/', '\x7d', "**".toList, "\x7b\x7bmodule_export\x7d".toList,
        ((classCode .javascript).drop 1).dropLast, List.cons_ne_nil _ _, rfl,
        by decide, by decide⟩

theorem classTemplate_eq
    (language : Language) :
    classTemplate language = Text.ofLines (classCode language) := by
  obtain ⟨first, last, start, finish, rows, notNil, codeIs, startsFirm,
    endsFirm⟩ :=
    exists_ends_classCode language
  have textIs : (Text.ofLines (classCode language)).toList = [] ++ (first ::
      (start ++ '\n' :: ((Text.ofLines rows).toList ++ '\n' :: finish)) ++
      last :: []) := by
    rw [codeIs, ofLines_append (List.cons_ne_nil _ _)
      (List.append_ne_nil_of_left_ne_nil notNil _),
      ofLines_append notNil (List.cons_ne_nil _ _)]
    simp [Text.ofLines, Text.join]
  have nothing : Text.dropEnd Text.isBlank [] = [] := rfl
  apply String.toList_injective
  rw [classTemplate, Text.trim, String.toList_ofList, textIs,
    Text.trimmed_of_ends (by simp) startsFirm endsFirm, nothing,
    List.nil_append]

/-- Rows of a class template stand in the class, filled by themselves. -/
theorem rows_infix_fill
    {front rows back : List String}
    (named : Named slots)
    (codeIs : classCode language = front ++ (rows ++ back))
    (notNil : front ≠ [] ∧ rows ≠ [] ∧ back ≠ []) :
    '\n' :: (filled slots (Text.ofLines rows).toList ++ ['\n']) <:+:
      (fill (classTemplate language) slots).toList := by
  obtain ⟨frontNotNil, rowsNotNil, backNotNil⟩ := notNil
  have codeText : (Text.ofLines (classCode language)).toList =
      (Text.ofLines front).toList ++ '\n' ::
        ((Text.ofLines rows).toList ++ '\n' :: (Text.ofLines back).toList) := by
    rw [codeIs, ofLines_append frontNotNil
      (List.append_ne_nil_of_left_ne_nil rowsNotNil _),
      ofLines_append rowsNotNil backNotNil]
  rw [fill_toList, classTemplate_eq, codeText,
    filled_append_cons named (by decide), filled_append_cons named (by decide)]
  refine ⟨filled slots (Text.ofLines front).toList,
    filled slots (Text.ofLines back).toList, ?_⟩
  simp

/-- The remark before the calls in a class. -/
def callsRemark : Language → String
  | .php | .javascript => "            // Executa os nós na ordem definida"
  | .python => "            # Executa os nós na ordem definida"

/-- The calls in a class, on lines of their own behind their remark. -/
def callsText (language : Language) (calls : List String) : String :=
  callsRemark language ++ "\n            " ++ Text.join "\n            " calls

namespace Parts

variable {parts : Parts}

theorem filled_tag_of_mem
    {name content : String}
    (member : ⟨name, content⟩ ∈ parts.slots language)
    (free : TagFree content.toList) :
    filled (parts.slots language) (tag name.toList) = content.toList :=
  @Template.filled_tag_of_mem _ ⟨name, content⟩ (parts.named_slots language)
    (parts.nodup_slots language) member free

theorem calls_infix_fill
    (language : Language)
    (plain : ∀ call ∈ parts.calls, '\x7b' ∉ call.toList) :
    '\n' :: ((callsText language parts.calls).toList ++ ['\n']) <:+:
      (fill (classTemplate language) (parts.slots language)).toList := by
  have named := parts.named_slots language
  have codeIs : ∃ front back, front ≠ [] ∧ back ≠ [] ∧ classCode language =
      front ++ ([callsRemark language,
        "            \x7b\x7bsteps_calls\x7d\x7d"] ++ back) := by
    cases language with
    | php =>
        exact ⟨(classCode .php).take 52, (classCode .php).drop 54,
          List.cons_ne_nil _ _, List.cons_ne_nil _ _, rfl⟩
    | python =>
        exact ⟨(classCode .python).take 56, (classCode .python).drop 58,
          List.cons_ne_nil _ _, List.cons_ne_nil _ _, rfl⟩
    | javascript =>
        exact ⟨(classCode .javascript).take 34, (classCode .javascript).drop 36,
          List.cons_ne_nil _ _, List.cons_ne_nil _ _, rfl⟩
  obtain ⟨front, back, frontNotNil, backNotNil, codeIs⟩ := codeIs
  have found :=
    rows_infix_fill named codeIs ⟨frontNotNil, List.cons_ne_nil _ _, backNotNil⟩
  have callsFilled : filled (parts.slots language) (tag "steps_calls".toList) =
      (Text.join "\n            " parts.calls).toList :=
    filled_tag_of_mem (by simp [slots]) (tagFree_calls plain)
  have callsRow : "            \x7b\x7bsteps_calls\x7d\x7d".toList =
      "            ".toList ++ tag "steps_calls".toList := by
    decide
  have rowsText : (Text.ofLines
      ([callsRemark language] ++
        ["            \x7b\x7bsteps_calls\x7d\x7d"])).toList =
        (callsRemark language).toList ++ '\n' ::
          ("            ".toList ++ tag "steps_calls".toList) := by
    rw [ofLines_append (List.cons_ne_nil _ _) (List.cons_ne_nil _ _),
      ofLines_singleton, ofLines_singleton, callsRow]
  have remarkFree : TagFree (callsRemark language).toList := by
    cases language <;> exact .of_not_mem (by decide)
  have indentOutside : ∀ character ∈ "            ".toList,
      isTagCharacter character = false := by
    decide
  rw [List.singleton_append] at rowsText
  rw [rowsText, filled_append_cons named (by decide),
    filled_eq_self_of_tagFree named remarkFree,
    filled_append_of_outside named indentOutside, callsFilled] at found
  simpa [callsText] using found

end Parts

end Class

end Flowgen
