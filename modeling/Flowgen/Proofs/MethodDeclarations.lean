import Flowgen.Proofs.AgentPrompts

namespace Flowgen

/-!
# How methods are declared

A method is declared by the first of its lines that is no remark.  Filling
placeholders keeps the remarks before that line, so a method is declared the
way its template is: in the language that the template is written in, whatever
language the class is for.
-/

open Template

namespace Language

/-- What may stand before the name of a method where it is declared. -/
def leads : Language → List String
  | .php => ["private function "]
  | .python => ["def "]
  | .javascript => ["", "async "]

/-- How the declaration of a method goes on behind its name. -/
def opening : Language → String
  | .php => "("
  | .python => "(self"
  | .javascript => "() \x7b"

/-- How the declaration of a method may start in a language. -/
def declarations (language : Language) (name : String) : List String :=
  language.leads.map fun lead => lead ++ name ++ language.opening

end Language

namespace Method

/-- Whether a line, without white space around it, is a remark. -/
def isRemark (line : List Char) : Bool :=
  "/**".toList.isPrefixOf line || "*".toList.isPrefixOf line

/--
The first line of a code that is no remark, without white space around it.
-/
def declaration? (code : List Char) : Option (List Char) :=
  ((Text.splitOn ['\n'] code).map Text.trimmed).find? fun line => !isRemark line

/-- A method with a name is declared in the syntax of a language. -/
def DeclaredIn
    (language : Language)
    (name : String)
    (code : List Char) :
    Prop :=
  ∃ line, declaration? code = some line ∧
    ∃ start ∈ language.declarations name, start.toList <+: line

/-- A line with a remark, without placeholders. -/
structure IsRemark (line : List Char) : Prop where
  oneLine : '\n' ∉ line
  free : TagFree line
  remark : isRemark (Text.trimmed line) = true

/-- A code that opens with remarks and then a line with a declaration. -/
inductive Opens (declaration : List Char) : List Char → Prop where
  | remark
      {line text : List Char} :
      IsRemark line →
      Opens declaration text →
      Opens declaration (line ++ '\n' :: text)
  | declared
      {indent rest : List Char}
      (oneLine : '\n' ∉ indent)
      (blank : ∀ character ∈ indent, Text.isBlank character = true)
      (ends : ∀ character, rest.head? = some character → character = '\n') :
      Opens declaration (indent ++ (declaration ++ rest))

/-- A text that is not empty and has no white space at its ends, on one line. -/
structure IsTight (text : List Char) : Prop where
  oneLine : '\n' ∉ text
  start : ∃ first rest, text = first :: rest ∧ Text.isBlank first = false
  finish : ∃ front last, text = front ++ [last] ∧ Text.isBlank last = false

theorem IsTight.trimmed_append
    {indent text : List Char}
    (tight : IsTight text)
    (blank : ∀ character ∈ indent, Text.isBlank character = true) :
    Text.trimmed (indent ++ text) = text := by
  obtain ⟨first, rest, textStarts, startFirm⟩ := tight.start
  obtain ⟨front, last, textEnds, endFirm⟩ := tight.finish
  have started : (indent ++ text).dropWhile Text.isBlank = text := by
    rw [List.dropWhile_append_of_pos blank, textStarts,
      List.dropWhile_cons_of_neg (by simp [startFirm])]
  have ended : Text.dropEnd Text.isBlank (front ++ [last]) = front ++ [last] :=
    Text.dropEnd_append_cons endFirm front []
  rw [Text.trimmed, Text.dropStart, started, textEnds, ended]

namespace Opens

variable {declaration text : List Char} {slots : List Slot}

/--
Filling placeholders keeps the remarks, and fills the declaration by itself.
-/
theorem filled
    (opens : Opens declaration text)
    (named : Named slots) :
    Opens (filled slots declaration) (filled slots text) := by
  induction opens with
  | @remark line text isRemark _ inductionHypothesis =>
      rw [filled_append_cons named (by decide),
        filled_eq_self_of_tagFree named isRemark.free]
      exact .remark isRemark inductionHypothesis
  | @declared indent rest oneLine blank ends =>
      rw [filled_append_of_outside named fun character member =>
        isTagCharacter_of_isBlank (blank character member)]
      cases rest with
      | nil =>
          rw [List.append_nil]
          have whole := @declared (Template.filled slots declaration) indent []
            oneLine blank (by simp)
          rwa [List.append_nil] at whole
      | cons character rest =>
          obtain rfl := ends character rfl
          rw [filled_append_cons named (by decide)]
          exact .declared oneLine blank (by simp)

theorem ne_nil
    (opens : Opens declaration text)
    (tight : IsTight declaration) :
    text ≠ [] := by
  cases opens with
  | remark =>
      simp
  | declared =>
      obtain ⟨first, rest, rfl, _⟩ := tight.start
      simp

theorem dropStart
    (opens : Opens declaration text)
    (tight : IsTight declaration) :
    Opens declaration (Text.dropStart Text.isBlank text) := by
  cases opens with
  | @remark line text isRemark restOpens =>
      have notBlank : (line.dropWhile Text.isBlank).isEmpty = false := by
        cases empty : (line.dropWhile Text.isBlank).isEmpty with
        | false =>
            rfl
        | true =>
            have absurdly := isRemark.remark
            rw [Text.trimmed, Text.dropStart, List.isEmpty_iff.mp empty]
              at absurdly
            exact absurd absurdly (by decide)
      have kept : IsRemark (line.dropWhile Text.isBlank) := by
        have isSuffix := List.dropWhile_suffix (l := line) Text.isBlank
        refine ⟨fun member => isRemark.oneLine (isSuffix.subset member),
          isRemark.free.of_infix isSuffix.isInfix, ?_⟩
        rw [Text.trimmed, Text.dropStart, List.dropWhile_idempotent]
        exact isRemark.remark
      rw [Text.dropStart, List.dropWhile_append, notBlank]
      exact .remark kept restOpens
  | @declared indent rest oneLine blank ends =>
      obtain ⟨first, more, declarationIs, firm⟩ := tight.start
      rw [Text.dropStart, List.dropWhile_append_of_pos blank]
      have kept : (declaration ++ rest).dropWhile Text.isBlank =
          declaration ++ rest := by
        rw [declarationIs, List.cons_append,
          List.dropWhile_cons_of_neg (by simp [firm])]
      rw [kept]
      exact @declared declaration [] rest (by simp) (by simp) ends

theorem dropEnd
    (opens : Opens declaration text)
    (tight : IsTight declaration) :
    Opens declaration (Text.dropEnd Text.isBlank text) := by
  obtain ⟨front, last, declarationIs, firm⟩ := tight.finish
  have shape : ∀ text, Opens declaration text →
      ∃ before rest, text = before ++ last :: rest ∧
      Opens declaration (before ++ last :: Text.dropEnd Text.isBlank rest) := by
    intro text opens
    induction opens with
    | @remark line text isRemark _ inductionHypothesis =>
        obtain ⟨before, rest, rfl, inner⟩ := inductionHypothesis
        refine ⟨line ++ '\n' :: before, rest, by simp, ?_⟩
        have whole := inner.remark isRemark
        rwa [List.append_cons, ← List.append_assoc, ← List.append_cons] at whole
    | @declared indent rest oneLine blank ends =>
        have regroup : ∀ rest, indent ++ (declaration ++ rest) =
            indent ++ front ++ last :: rest := by
          intro rest
          rw [declarationIs]
          simp
        refine ⟨indent ++ front, rest, regroup rest, ?_⟩
        rw [← regroup]
        refine .declared oneLine blank fun character isHead => ?_
        obtain ⟨dropped, whole⟩ : Text.dropEnd Text.isBlank rest <+: rest := by
          rw [Text.dropEnd]
          have isSuffix :=
            List.dropWhile_suffix (l := rest.reverse) Text.isBlank
          simpa using List.reverse_prefix.mpr isSuffix
        apply ends
        rw [← whole, List.head?_append, isHead]
        rfl
  obtain ⟨before, rest, rfl, inner⟩ := shape text opens
  rwa [Text.dropEnd_append_cons firm]

theorem trimmed
    (opens : Opens declaration text)
    (tight : IsTight declaration) :
    Opens declaration (Text.trimmed text) :=
  (opens.dropStart tight).dropEnd tight

theorem declaration?_eq
    (opens : Opens declaration text)
    (tight : IsTight declaration)
    (notRemark : isRemark declaration = false) :
    declaration? text = some declaration := by
  unfold declaration?
  rw [Text.splitOn_singleton]
  induction opens with
  | @remark line text isRemark _ inductionHypothesis =>
      rw [List.splitOn_append_cons_self_of_not_mem isRemark.oneLine,
        List.map_cons, List.find?_cons_of_neg (by simp [isRemark.remark])]
      exact inductionHypothesis
  | @declared indent rest oneLine blank ends =>
      have noBreak : '\n' ∉ indent ++ declaration := by
        rw [List.mem_append, not_or]
        exact ⟨oneLine, tight.oneLine⟩
      have firstLine :
          ∃ others, (indent ++ (declaration ++ rest)).splitOn '\n' =
          (indent ++ declaration) :: others := by
        rw [← List.append_assoc]
        cases rest with
        | nil =>
            rw [List.append_nil]
            exact ⟨[], List.splitOn_eq_singleton noBreak⟩
        | cons character rest =>
            obtain rfl := ends character rfl
            exact ⟨_, List.splitOn_append_cons_self_of_not_mem noBreak rest⟩
      obtain ⟨others, linesAre⟩ := firstLine
      rw [linesAre, List.map_cons, tight.trimmed_append blank,
        List.find?_cons_of_pos (by simp [notRemark])]

/--
Lines that open with remarks make a code that opens with the declaration
behind them.
-/
theorem ofLines
    {lines : List String}
    {indent : List Char}
    (count : Nat)
    (remarks : ∀ line ∈ lines.take count, IsRemark line.toList)
    (declared : lines[count]? = some (String.ofList (indent ++ declaration)))
    (oneLine : '\n' ∉ indent)
    (blank : ∀ character ∈ indent, Text.isBlank character = true) :
    Opens declaration (Text.ofLines lines).toList := by
  rw [Text.ofLines, Text.join_toList]
  induction count generalizing lines with
  | zero =>
      obtain ⟨line, lines, rfl⟩ : ∃ line rest, lines = line :: rest := by
        cases lines with
        | nil =>
            cases declared
        | cons line rest =>
            exact ⟨line, rest, rfl⟩
      obtain rfl := Option.some.inj declared
      cases lines with
      | nil =>
          have whole :=
            @Opens.declared declaration indent [] oneLine blank (by simp)
          simpa using whole
      | cons next lines =>
          rw [List.map_cons, List.map_cons, List.intercalate_cons_cons,
            String.toList_ofList, List.append_assoc, List.append_assoc]
          exact .declared oneLine blank (by simp)
  | succ count inductionHypothesis =>
      cases lines with
      | nil =>
          cases declared
      | cons line lines =>
          rw [List.take_succ_cons, List.forall_mem_cons] at remarks
          rw [List.getElem?_cons_succ] at declared
          have opens := inductionHypothesis remarks.2 declared
          cases lines with
          | nil =>
              cases declared
          | cons next lines =>
              rw [List.map_cons, List.map_cons, List.intercalate_cons_cons,
                ← List.map_cons, List.append_assoc]
              exact .remark remarks.1 opens

end Opens

end Method

namespace Language

/-- How the declaration of a method ends in the templates of a language. -/
def ending : Language → String
  | .php => "(): void"
  | .python => "(self) -> None:"
  | .javascript => "() \x7b"

/-- The line that declares a method. -/
def header
    (language : Language)
    (lead : String)
    (name : List Char) :
    List Char :=
  lead.toList ++ (name ++ language.ending.toList)

variable {language : Language} {lead : String} {name : List Char}

theorem bracket_not_mem_leads
    (isLead : lead ∈ language.leads) :
    '(' ∉ lead.toList := by
  have noBrackets : ∀ lead ∈ language.leads, '(' ∉ lead.toList := by
    cases language <;> decide
  exact noBrackets lead isLead

/-- No two languages declare methods the same way. -/
theorem eq_of_mem_leads
    {other : Language}
    (isLead : lead ∈ language.leads)
    (isOther : lead ∈ other.leads) :
    language = other := by
  have apart :
      ∀ lead ∈ language.leads, lead ∈ other.leads → language = other := by
    cases language <;> cases other <;> decide
  exact apart lead isLead isOther

theorem takeWhile_bracket
    (isLead : lead ∈ language.leads)
    (noBracket : '(' ∉ name)
    (rest : List Char) :
    (lead.toList ++ (name ++ '(' :: rest)).takeWhile
      (fun character => character != '(') = lead.toList ++ name := by
  have inside :
      ∀ character ∈ lead.toList ++ name, (character != '(') = true := by
    intro character member
    refine bne_iff_ne.mpr ?_
    rintro rfl
    rcases List.mem_append.mp member with inLead | inName
    · exact bracket_not_mem_leads isLead inLead
    · exact noBracket inName
  rw [← List.append_assoc, List.takeWhile_append_of_pos inside]
  simp

/-- A declaration starts as those in its own language do, and as no others. -/
theorem exists_declaration_iff
    {methodName : String}
    (isLead : lead ∈ language.leads)
    (noBracket : '(' ∉ methodName.toList)
    (other : Language) :
    (∃ start ∈ other.declarations methodName,
        start.toList <+: language.header lead methodName.toList) ↔
      other = language := by
  constructor
  · rintro ⟨_, isStart, more, whole⟩
    obtain ⟨otherLead, isOther, rfl⟩ := List.mem_map.mp isStart
    obtain ⟨rest, openingIs⟩ : ∃ rest, other.opening.toList = '(' :: rest := by
      cases other <;> exact ⟨_, rfl⟩
    obtain ⟨otherRest, endingIs⟩ :
      ∃ rest, language.ending.toList = '(' :: rest := by
      cases language <;> exact ⟨_, rfl⟩
    have before :=
      congrArg (List.takeWhile fun character => character != '(') whole
    rw [String.toList_append, String.toList_append, openingIs, header, endingIs,
      takeWhile_bracket isLead noBracket, List.append_assoc, List.append_assoc,
      List.cons_append,
      takeWhile_bracket isOther noBracket] at before
    have sameLead : otherLead = lead :=
      String.toList_injective (List.append_cancel_right before)
    exact eq_of_mem_leads isOther (sameLead ▸ isLead)
  · rintro rfl
    refine ⟨lead ++ methodName ++ other.opening, List.mem_map_of_mem isLead, ?_⟩
    have isPrefix : other.opening.toList <+: other.ending.toList := by
      cases other <;> decide
    obtain ⟨rest, endingIs⟩ := isPrefix
    refine ⟨rest, ?_⟩
    rw [header, ← endingIs]
    simp

end Language

namespace Method

variable {methodName : String}

variable {language : Language} {lead : String} {name : List Char}

theorem isTight_header
    (isLead : lead ∈ language.leads)
    (notNil : name ≠ [])
    (plain : ∀ character ∈ name, Text.isBlank character = false) :
    IsTight (language.header lead name) := by
  have leadLine : ∀ lead ∈ language.leads, '\n' ∉ lead.toList := by
    cases language <;> decide
  have leadStart : ∀ lead ∈ language.leads,
      lead.toList.head?.all (fun character => !Text.isBlank character) =
        true := by
    cases language <;> decide
  have endingLine : '\n' ∉ language.ending.toList := by
    cases language <;> decide
  have endingLast : ∃ front last, language.ending.toList = front ++ [last] ∧
      Text.isBlank last = false := by
    cases language with
    | php =>
        exact ⟨"(): voi".toList, 'd', by decide, by decide⟩
    | python =>
        exact ⟨"(self) -> None".toList, ':', by decide, by decide⟩
    | javascript =>
        exact ⟨"() ".toList, '\x7b', by decide, by decide⟩
  refine ⟨?_, ?_, ?_⟩
  · simp only [Language.header, List.mem_append, not_or]
    refine ⟨leadLine lead isLead, fun member => ?_, endingLine⟩
    exact absurd (plain _ member) (by decide)
  · have startsFirm := leadStart lead isLead
    unfold Language.header
    cases leadIs : lead.toList with
    | nil =>
        obtain ⟨first, rest, rfl⟩ := List.exists_cons_of_ne_nil notNil
        exact ⟨first, _, rfl, plain first List.mem_cons_self⟩
    | cons first rest =>
        rw [leadIs] at startsFirm
        exact ⟨first, _, rfl, by simpa using startsFirm⟩
  · obtain ⟨front, last, endingIs, firm⟩ := endingLast
    refine ⟨lead.toList ++ (name ++ front), last, ?_, firm⟩
    rw [Language.header, endingIs]
    simp

theorem isTight_headerTag
    (isLead : lead ∈ language.leads) :
    IsTight (language.header lead (tag "method_name".toList)) := by
  refine isTight_header isLead (List.cons_ne_nil _ _) fun character member => ?_
  have inTag := isTagCharacter_of_mem (by decide) member
  cases blank : Text.isBlank character with
  | false =>
      rfl
  | true =>
      rw [isTagCharacter_of_isBlank blank] at inTag
      cases inTag

/-- Whether a line is a remark without placeholders. -/
def isRemarkLine (line : List Char) : Bool :=
  !line.contains '\n' && !Text.occurs ['\x7b', '\x7b'] line &&
    isRemark (Text.trimmed line)

theorem isRemark_of_isRemarkLine
    {line : List Char}
    (checked : isRemarkLine line = true) :
    IsRemark line := by
  simp only [isRemarkLine, Bool.and_eq_true, Bool.not_eq_true',
    ← Bool.not_eq_true, List.contains_iff_mem, Text.occurs_iff] at checked
  obtain ⟨⟨oneLine, noOpening⟩, remark⟩ := checked
  exact ⟨oneLine, .of_no_opening noOpening, remark⟩

/-- Lines are checked up to the one that declares a method. -/
theorem opens_of_check
    {lines : List String}
    {row : List Char}
    (lead indent : String)
    (count : Nat)
    (known : lead ∈ language.leads ∧ indent ∈ ["", "    "])
    (remarks : (lines.take count).all (fun line => isRemarkLine line.toList) =
      true)
    (written : lines[count]? = some (String.ofList row))
    (declared : row = indent.toList ++
      language.header lead (tag "method_name".toList)) :
    ∃ lead ∈ language.leads,
      Opens (language.header lead (tag "method_name".toList))
        (Text.ofLines lines).toList := by
  have indents : ∀ indent ∈ ["", "    "],
      '\n' ∉ indent.toList ∧ ∀ character ∈ indent.toList,
      Text.isBlank character = true := by
    decide
  obtain ⟨oneLine, blank⟩ := indents indent known.2
  rw [declared] at written
  refine ⟨lead, known.1, .ofLines count (fun line member => ?_) written oneLine
    blank⟩
  exact isRemark_of_isRemarkLine (List.all_eq_true.mp remarks line member)

theorem remarks_agentCode :
    (Shipped.phpAgentCode.take 9).all (fun line => isRemarkLine line.toList) =
      true ∧
      (Shipped.javascriptAgentCode.take 8).all
        (fun line => isRemarkLine line.toList) = true := by
  simp only [Shipped.phpAgentCode, Shipped.javascriptAgentCode, List.take,
    List.all]
  repeat rewrite [String.toList_ofList]
  decide +kernel

/-- The templates of a language declare their methods in that language. -/
theorem opens_codesOf
    (language : Language) :
    ∀ lines ∈ codesOf language, ∃ lead ∈ language.leads,
      Opens (language.header lead (tag "method_name".toList))
        (Text.ofLines lines).toList := by
  cases language with
  | php =>
      simp only [codesOf, List.forall_mem_cons]
      refine ⟨?_, ?_, ?_, ?_, ?_, by simp⟩
      case refine_5 =>
        exact opens_of_check "private function " "    " 9 (by decide)
          remarks_agentCode.1 rfl (by decide +kernel)
      all_goals
        exact opens_of_check "private function " "" 0 (by decide) rfl rfl
          (by decide +kernel)
  | python =>
      simp only [codesOf, List.forall_mem_cons]
      refine ⟨?_, ?_, ?_, ?_, ?_, by simp⟩
      all_goals
        exact opens_of_check "def " "    " 0 (by decide) rfl rfl
          (by decide +kernel)
  | javascript =>
      simp only [codesOf, List.forall_mem_cons]
      refine ⟨?_, ?_, ?_, ?_, ?_, by simp⟩
      case refine_2 =>
        exact opens_of_check "async " "    " 3 (by decide) (by decide +kernel)
          rfl (by decide +kernel)
      case refine_5 =>
        exact opens_of_check "async " "    " 8 (by decide) remarks_agentCode.2
          rfl (by decide +kernel)
      all_goals
        exact opens_of_check "" "    " 3 (by decide) (by decide +kernel) rfl
          (by decide +kernel)

variable {node : Value} {type code : String} {slots : List Slot}
  {lines : List String}

theorem brace_not_mem_leads
    (isLead : lead ∈ language.leads) :
    '\x7b' ∉ lead.toList := by
  have noBraces : ∀ lead ∈ language.leads, '\x7b' ∉ lead.toList := by
    cases language <;> decide
  exact noBraces lead isLead

theorem tagFree_ending
    (language : Language) :
    TagFree language.ending.toList := by
  cases language <;> decide

theorem ending_apart
    (language : Language)
    (character : Char)
    (isHead : language.ending.toList.head? = some character) :
    isTagCharacter character = false := by
  have bracket : language.ending.toList.head? = some '(' := by
    cases language <;> decide
  obtain rfl := Option.some.inj (bracket.symm.trans isHead)
  decide

theorem tagFree_header
    (isLead : lead ∈ language.leads)
    (noOpening : '\x7b' ∉ name) :
    TagFree (language.header lead name) := by
  have restFree : TagFree (name ++ language.ending.toList) :=
    (TagsIn.of_not_mem noOpening).append (tagFree_ending language)
      (.of_head? (ending_apart language))
  exact (TagsIn.of_not_mem (brace_not_mem_leads isLead)).append restFree
    (.of_not_mem (brace_not_mem_leads isLead))

/-- The name of a method is filled in where the method is declared. -/
theorem filled_header
    (isLead : lead ∈ language.leads)
    (named : Named slots) :
    filled slots (language.header lead (tag name)) =
      language.header lead (filled slots (tag name)) := by
  have apart : ∀ lead ∈ language.leads,
      lead.toList.getLast?.all (fun character => !isTagCharacter character) =
        true := by
    cases language <;> decide
  have leadApart : ∀ character, lead.toList.getLast? = some character →
      isTagCharacter character = false := by
    intro character isLast
    have checked := apart lead isLead
    rw [isLast] at checked
    simpa using checked
  rw [Language.header, filled_tagFree_append named
    (.of_not_mem (brace_not_mem_leads isLead)) leadApart,
    Spaced.filled_tag_append named (ending_apart language),
    filled_eq_self_of_tagFree named (tagFree_ending language), Language.header]

/--
The method of a node in a template opens with a declaration in the template's
language.
-/
theorem opens_fill
    (known : lines ∈ codesOf language)
    (made : Method.slots node type = .ok slots)
    (nameIs : Naming.methodName node = .ok methodName) :
    ∃ lead ∈ language.leads, Opens (language.header lead methodName.toList)
      (fill (Text.trim (Text.ofLines lines)) slots).toList := by
  obtain ⟨lead, isLead, opens⟩ := opens_codesOf language lines known
  have named := named_slots made
  have nameFilled :
      filled slots (tag "method_name".toList) = methodName.toList := by
    obtain ⟨other, back, otherIs, rfl, _⟩ := slots_eq_ok made
    obtain rfl := Except.ok.inj (nameIs.symm.trans otherIs)
    have free : TagFree methodName.toList :=
      .of_not_mem (Naming.brace_not_mem_methodName nameIs)
    exact @filled_tag_of_split [] back ⟨"method_name", methodName⟩ named
      (by simp) free
  refine ⟨lead, isLead, ?_⟩
  rw [fill_toList, Text.trim, String.toList_ofList, ← nameFilled,
    ← filled_header isLead named]
  exact (opens.trimmed (isTight_headerTag isLead)).filled named

/-- The plain method of a node opens with a declaration in PHP. -/
theorem opens_defaultMethod
    (made : defaultMethod node = .ok code)
    (nameIs : Naming.methodName node = .ok methodName) :
    Opens (Language.php.header "private function " methodName.toList)
      code.toList := by
  simp only [defaultMethod, bind_eq_ok, pure_eq_ok] at made
  obtain ⟨other, otherIs, nodeName, _, written, _, rfl⟩ := made
  obtain rfl := Except.ok.inj (nameIs.symm.trans otherIs)
  have rest : "(): void\n\x7b\n    // Nó: ".toList =
      Language.php.ending.toList ++ '\n' :: "\x7b\n    // Nó: ".toList := by
    decide
  simp only [String.toList_append, rest, List.append_assoc, List.cons_append]
  have regroup : ∀ lead ending more : List Char,
      lead ++ (methodName.toList ++ (ending ++ '\n' :: more)) =
        [] ++ (lead ++ (methodName.toList ++ ending) ++ '\n' :: more) := by
    simp
  rw [regroup]
  exact .declared (by simp) (by simp) (by simp)

theorem isRemark_header
    (isLead : lead ∈ language.leads)
    (notNil : name ≠ [])
    (alphanumeric : ∀ character ∈ name, character.isAlphanum = true) :
    isRemark (language.header lead name) = false := by
  have leadStart : ∀ lead ∈ language.leads,
      lead.toList.head?.all (fun character => character.isAlphanum) = true := by
    cases language <;> decide
  have notRemark :
      ∀ (first : Char) (rest : List Char), first.isAlphanum = true →
      isRemark (first :: rest) = false := by
    intro first rest isAlphanumeric
    have notSlash : '/' ≠ first := by
      rintro rfl
      exact absurd isAlphanumeric (by decide)
    have notStar : '*' ≠ first := by
      rintro rfl
      exact absurd isAlphanumeric (by decide)
    simp [isRemark, List.isPrefixOf, notSlash, notStar]
  have startsFirm := leadStart lead isLead
  unfold Language.header
  cases leadIs : lead.toList with
  | nil =>
      obtain ⟨first, rest, rfl⟩ := List.exists_cons_of_ne_nil notNil
      exact notRemark _ _ (alphanumeric first List.mem_cons_self)
  | cons first rest =>
      rw [leadIs] at startsFirm
      exact notRemark _ _ (by simpa using startsFirm)

/--
A method that opens with a declaration is declared in the language of that
alone.
-/
theorem Opens.declaredIn_iff
    {text : List Char}
    (opens : Opens (language.header lead methodName.toList) text)
    (isLead : lead ∈ language.leads)
    (nameIs : Naming.methodName node = .ok methodName)
    (other : Language) :
    DeclaredIn other methodName text ↔ other = language := by
  have notNil := Naming.methodName_ne_nil nameIs
  have alphanumeric := Naming.isAlphanum_of_mem_methodName nameIs
  have noBracket : '(' ∉ methodName.toList := by
    intro member
    exact absurd (alphanumeric _ member) (by decide)
  have tight : IsTight (language.header lead methodName.toList) :=
    isTight_header isLead notNil fun character member =>
      Naming.not_isBlank_of_isAlphanum (alphanumeric character member)
  have declared :=
    opens.declaration?_eq tight (isRemark_header isLead notNil alphanumeric)
  rw [← Language.exists_declaration_iff isLead noBracket other, DeclaredIn,
    declared]
  constructor
  · rintro ⟨line, isLine, starts⟩
    rwa [Option.some.inj isLine]
  · intro starts
    exact ⟨_, rfl, starts⟩

/-- The language that the method of a node is written in. -/
inductive WrittenIn (host : Host) (language : Language) (node : Value) :
  Language → Prop where
  | template
      {source : Language}
      {lines : List String}
      (known : lines ∈ codesOf source)
      (found : HasTemplate host language node lines) :
      WrittenIn host language node source
  | plain
      (lacks : LacksTemplate host language node) :
      WrittenIn host language node .php

theorem declaration?_of_mem_codesOf
    (known : lines ∈ codesOf language) :
    ∃ lead ∈ language.leads, declaration?
      (Text.trim (Text.ofLines lines)).toList =
      some (language.header lead (tag "method_name".toList)) := by
  obtain ⟨lead, isLead, opens⟩ := opens_codesOf language lines known
  have notRemark : ∀ lead ∈ language.leads,
      isRemark (language.header lead (tag "method_name".toList)) = false := by
    cases language <;> decide
  have tight := isTight_headerTag isLead
  refine ⟨lead, isLead, ?_⟩
  rw [Text.trim, String.toList_ofList]
  exact (opens.trimmed tight).declaration?_eq tight (notRemark lead isLead)

theorem eq_of_mem_codesOf
    {other : Language}
    {otherLines : List String}
    (known : lines ∈ codesOf language)
    (otherKnown : otherLines ∈ codesOf other)
    (same : Text.trim (Text.ofLines lines) =
      Text.trim (Text.ofLines otherLines)) :
    language = other := by
  obtain ⟨lead, isLead, declared⟩ := declaration?_of_mem_codesOf known
  obtain ⟨otherLead, isOther, otherDeclared⟩ :=
    declaration?_of_mem_codesOf otherKnown
  rw [same, otherDeclared, Option.some.injEq] at declared
  have noBracket : '(' ∉ (placeholder "method_name").toList := by decide
  have ownStart :=
    (Language.exists_declaration_iff isLead noBracket language).mpr rfl
  rw [placeholder_toList, ← declared, ← placeholder_toList] at ownStart
  exact (Language.exists_declaration_iff isOther noBracket language).mp ownStart

theorem WrittenIn.unique
    {host : Host}
    {first second : Language}
    (inFirst : WrittenIn host language node first)
    (inSecond : WrittenIn host language node second) :
    first = second := by
  cases inFirst with
  | template known found =>
      cases inSecond with
      | template otherKnown otherFound =>
          exact eq_of_mem_codesOf known otherKnown (found.unique otherFound)
      | plain lacks =>
          exact absurd lacks found.not_lacksTemplate
  | plain lacks =>
      cases inSecond with
      | template otherKnown otherFound =>
          exact absurd lacks otherFound.not_lacksTemplate
      | plain =>
          rfl

/--
The method of a node opens with a declaration in the language that it is
written in.
-/
theorem opens_ofNode
    {host : Host}
    (equipped : Equipped host.files)
    (made : ((ofNode .standard language.code node).start host).1 = .ok code) :
    ∃ methodName source, Naming.methodName node = .ok methodName ∧
      WrittenIn host language node source ∧ ∃ lead ∈ source.leads,
        Opens (source.header lead methodName.toList) code.toList := by
  obtain ⟨lines, type, slots, found, _, slotsMade, rfl⟩ | ⟨lacks, made⟩ :=
    ofNode_cases equipped made
  · obtain ⟨source, known⟩ := exists_mem_codesOf found.known
    obtain ⟨methodName, _, nameIs, _, _⟩ := slots_eq_ok slotsMade
    exact ⟨methodName, source, nameIs, .template known found,
      opens_fill known slotsMade nameIs⟩
  · obtain ⟨methodName, nameIs, _⟩ := bind_eq_ok.mp made
    exact ⟨methodName, .php, nameIs, .plain lacks, "private function ",
      by decide, opens_defaultMethod made nameIs⟩

end Method

end Flowgen
