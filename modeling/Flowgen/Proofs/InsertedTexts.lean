import Flowgen.Proofs.AgentPrompts

namespace Flowgen

/-!
# What is inserted for the parameters of a node

Parameters that are texts are put between double quotes as they are.  What
comes of this is a literal for the parameter only if every character of it is
read as it is written: a quote in the parameter ends the literal, and what
follows the quote stands behind it as code.
-/

open Template

namespace Text

/--
What a literal says, read from behind its opening quote to the first quote
that no backslash escapes, and what follows that quote.  A backslash and a
character stand for their meaning.
-/
def literalAfter?
    (meaning : Char → List Char) :
    List Char → Option (List Char × List Char)
  | [] => none
  | '\x22' :: rest => some ([], rest)
  | '\\' :: character :: rest =>
      (literalAfter? meaning rest).map fun result =>
        (meaning character ++ result.1, result.2)
  | character :: rest =>
      if character = '\\' then
        none
      else
        (literalAfter? meaning rest).map fun result =>
          (character :: result.1, result.2)

/--
A written text that is one literal for a content, from its first to its last
character.
-/
def IsLiteral
    (meaning : Char → List Char)
    (content written : List Char) :
    Prop :=
  ∃ body, written = '\x22' :: body ∧
    literalAfter? meaning body = some (content, [])

/--
A text that says itself in a literal: without quotes, and every escape means
what it shows.
-/
inductive SaysItself (meaning : Char → List Char) : List Char → Prop where
  | nil :
      SaysItself meaning []
  | plain
      {character : Char}
      {text : List Char}
      (notQuote : character ≠ '\x22')
      (notBackslash : character ≠ '\\') :
      SaysItself meaning text →
      SaysItself meaning (character :: text)
  | pair
      {character : Char}
      {text : List Char}
      (itself : meaning character = ['\\', character]) :
      SaysItself meaning text →
      SaysItself meaning ('\\' :: character :: text)

section Literals

variable {meaning : Char → List Char} {text rest content after : List Char}
  {character : Char}

theorem literalAfter?_cons
    (notQuote : character ≠ '\x22')
    (notBackslash : character ≠ '\\')
    (rest : List Char) :
    literalAfter? meaning (character :: rest) =
      (literalAfter? meaning rest).map fun result =>
      (character :: result.1, result.2) := by
  rw [literalAfter?, if_neg notBackslash]
  · exact notQuote
  · exact fun _ _ isBackslash _ => notBackslash isBackslash

/--
A literal is longer than what it says, if an escape means at most two
characters.
-/
theorem length_of_literalAfter?
    (short : ∀ character, (meaning character).length ≤ 2)
    (read : literalAfter? meaning text = some (content, after)) :
    content.length + after.length < text.length := by
  induction text using literalAfter?.induct generalizing content with
  | case1 =>
      cases read
  | case2 rest =>
      cases read
      simp
  | case3 character rest inductionHypothesis =>
      rw [literalAfter?, Option.map_eq_some_iff] at read
      obtain ⟨⟨said, left⟩, restRead, same⟩ := read
      simp only [Prod.mk.injEq] at same
      obtain ⟨rfl, rfl⟩ := same
      have shorter := inductionHypothesis restRead
      have := short character
      simp only [List.length_append, List.length_cons]
      omega
  | case4 rest notQuote notPair =>
      rw [literalAfter?, if_pos rfl] at read
      · cases read
      · exact notQuote
      · exact notPair
  | case5 character rest notQuote notPair notBackslash inductionHypothesis =>
      rw [literalAfter?_cons notQuote notBackslash, Option.map_eq_some_iff]
        at read
      obtain ⟨⟨said, left⟩, restRead, same⟩ := read
      simp only [Prod.mk.injEq] at same
      obtain ⟨rfl, rfl⟩ := same
      have shorter := inductionHypothesis restRead
      simp only [List.length_cons]
      omega

namespace SaysItself

/-- What says itself is read up to the quote behind it. -/
theorem literalAfter?_eq
    (saysItself : SaysItself meaning text)
    (rest : List Char) :
    literalAfter? meaning (text ++ '\x22' :: rest) = some (text, rest) := by
  induction saysItself with
  | nil =>
      rfl
  | plain notQuote notBackslash _ inductionHypothesis =>
      rw [List.cons_append, literalAfter?_cons notQuote notBackslash,
        inductionHypothesis]
      rfl
  | pair itself _ inductionHypothesis =>
      rw [List.cons_append, List.cons_append, literalAfter?,
        inductionHypothesis, Option.map_some, itself]
      rfl

theorem of_not_mem
    (noQuote : '\x22' ∉ text)
    (noBackslash : '\\' ∉ text) :
    SaysItself meaning text := by
  induction text with
  | nil =>
      exact .nil
  | cons character text inductionHypothesis =>
      rw [List.mem_cons, not_or] at noQuote noBackslash
      exact .plain (Ne.symm noQuote.1) (Ne.symm noBackslash.1)
        (inductionHypothesis noQuote.2 noBackslash.2)

/--
Where an escaped quote means a quote, a text with quotes does not say itself.
-/
theorem quote_not_mem
    (quoteMeans : meaning '\x22' = ['\x22'])
    (saysItself : SaysItself meaning text) :
    '\x22' ∉ text := by
  induction saysItself with
  | nil =>
      exact List.not_mem_nil
  | plain notQuote _ _ inductionHypothesis =>
      rw [List.mem_cons, not_or]
      exact ⟨Ne.symm notQuote, inductionHypothesis⟩
  | @pair character text itself _ inductionHypothesis =>
      have notQuote : '\x22' ≠ character := by
        rintro rfl
        rw [quoteMeans] at itself
        cases itself
      simp only [List.mem_cons, not_or]
      exact ⟨by decide, notQuote, inductionHypothesis⟩

end SaysItself

/--
A text is read back from between quotes if and only if it says itself.  Of a
text that does not, some escape says less than it shows, and no other escape
makes up for it.
-/
theorem literalAfter?_eq_self_iff
    (short : ∀ character, (meaning character).length ≤ 2) :
    literalAfter? meaning (text ++ '\x22' :: rest) = some (text, rest) ↔
      SaysItself meaning text := by
  refine ⟨fun read => ?_, fun saysItself => saysItself.literalAfter?_eq rest⟩
  induction text using literalAfter?.induct with
  | case1 =>
      exact .nil
  | case2 text =>
      cases read
  | case3 character text inductionHypothesis =>
      rw [List.cons_append, List.cons_append, literalAfter?,
        Option.map_eq_some_iff] at read
      obtain ⟨⟨said, left⟩, restRead, same⟩ := read
      obtain ⟨saidIs, rfl⟩ := Prod.mk.inj same
      have shorter := length_of_literalAfter? short restRead
      have lengths := congrArg List.length saidIs
      have isShort := short character
      simp only [List.length_append, List.length_cons] at shorter lengths
      have sameLength :
          (meaning character).length = ['\\', character].length := by
        simp only [List.length_cons, List.length_nil]
        omega
      obtain ⟨itself, rfl⟩ := List.append_inj (show meaning character ++ said =
        ['\\', character] ++ text from saidIs) sameLength
      exact .pair itself (inductionHypothesis restRead)
  | case4 text notQuote notPair =>
      -- the backslash at the end escapes the quote, and the literal goes on
      -- behind it
      obtain rfl : text = [] := by
        cases text with
        | nil =>
            rfl
        | cons next text =>
            exact absurd rfl fun same => notPair next text same rfl
      rw [List.cons_append, List.nil_append, literalAfter?,
        Option.map_eq_some_iff] at read
      obtain ⟨⟨said, left⟩, restRead, same⟩ := read
      obtain rfl : left = rest := (Prod.mk.inj same).2
      have shorter := length_of_literalAfter? short restRead
      omega
  | case5 character text notQuote notPair notBackslash inductionHypothesis =>
      rw [List.cons_append, literalAfter?_cons notQuote notBackslash,
        Option.map_eq_some_iff] at read
      obtain ⟨⟨said, left⟩, restRead, same⟩ := read
      obtain ⟨saidIs, rfl⟩ := Prod.mk.inj same
      obtain ⟨_, rfl⟩ := List.cons.inj saidIs
      exact .plain notQuote notBackslash (inductionHypothesis restRead)

end Literals

end Text

namespace Template

/--
No character of a tag stands directly before or behind a place between two
texts.
-/
def StandsApart (before after : List Char) : Prop :=
  before.getLast?.any isTagCharacter = false ∧
    after.head?.any isTagCharacter = false

instance (before after : List Char) : Decidable (StandsApart before after) :=
  inferInstanceAs (Decidable (_ ∧ _))

/-- A tag that stands apart is filled by itself. -/
theorem filled_apart
    {slots : List Slot}
    {before after : List Char}
    (named : Named slots)
    (apart : StandsApart before after)
    (name : List Char) :
    filled slots (before ++ (tag name ++ after)) =
      filled slots before ++ (filled slots (tag name) ++
        filled slots after) := by
  have behind : filled slots (tag name ++ after) =
      filled slots (tag name) ++ filled slots after := by
    cases after with
    | nil =>
        rw [filled_nil, List.append_nil, List.append_nil]
    | cons character after =>
        have outside : isTagCharacter character = false := apart.2
        rw [filled_append_cons named outside,
          filled_cons_of_outside named outside]
  rw [← behind]
  rcases List.eq_nil_or_concat' before with rfl | ⟨front, character, rfl⟩
  · rw [filled_nil, List.nil_append, List.nil_append]
  · have outside : isTagCharacter character = false := by
      simpa [StandsApart] using apart.1
    rw [List.append_assoc, List.singleton_append,
      filled_append_cons named outside,
      filled_append_cons named outside, filled_nil, List.append_assoc,
      List.singleton_append]

end Template

namespace Method

variable {node parameters : Value} {slots : List Slot} {text : String}

section Common

variable (made : commonSlots node = .ok slots)

include made

theorem named_commonSlots :
    Named slots :=
  named_of_names (by decide) (commonSlots_names made)

theorem nodup_commonSlots :
    (slots.map fun slot => slot.name.toList).Nodup := by
  have different : (commonNames.map String.toList).Nodup := by decide
  rw [← commonSlots_names made, List.map_map] at different
  exact different

theorem fill_commonSlots_eq_self
    (noOpening : '\x7b' ∉ text.toList) :
    fill text slots = text :=
  fill_eq_self_of_tagFree (named_commonSlots made) (.of_not_mem noOpening)

/--
In code, a common placeholder that stands apart is filled with its content.
-/
theorem fillCommon_apart
    {name content before after : String}
    (member : ⟨name, content⟩ ∈ slots)
    (free : TagFree content.toList)
    (apart : StandsApart before.toList after.toList) :
    fillCommon (.text (before ++ placeholder name ++ after)) node =
      .ok (fill before slots ++ content ++ fill after slots) := by
  have named := named_commonSlots made
  have isFilled : fill (before ++ placeholder name ++ after) slots =
      fill before slots ++ content ++ fill after slots := by
    have inserted :=
      @filled_tag_of_mem slots ⟨name, content⟩ named (nodup_commonSlots made)
      member free
    apply String.toList_injective
    simp only [fill_toList, String.toList_append, placeholder_toList,
      List.append_assoc]
    rw [filled_apart named apart, inserted]
  rw [fillCommon, made, ← isFilled]
  rfl

end Common

/--
What is inserted for the texts of a node, for its body and for the key of its
provider.
-/
theorem mem_commonSlots
    (made : commonSlots node = .ok slots)
    (areParameters : node.get "parameters" (.object []) = .ok parameters) :
    ⟨"url", inQuotes (given parameters "url" "")⟩ ∈ slots ∧
    ⟨"prompt", inQuotesOrEmpty (promptValue
      ((given parameters "prompt" "").orElse (given parameters "text" "")))⟩ ∈
      slots ∧
    ⟨"model", inQuotes ((given parameters "model" "").orElse
      (given parameters "modelName" "gpt-3.5-turbo")).unwrapped⟩ ∈ slots ∧
    ⟨"system_message", inQuotesOrEmpty
      ((given parameters "systemMessage" "").orElse
      (given parameters "system_message" "")).unwrapped⟩ ∈ slots ∧
    ⟨"body", bodyCode ((parameters.field? "body").getD (.object []))⟩ ∈ slots ∧
    ∃ name, (given parameters "provider" "openai").unwrapped = .text name ∧
      ⟨"api_key", keyCode (.ofName name)⟩ ∈ slots := by
  obtain ⟨_, provider, _, _, _, _, _, _, foundAre, _, isProvider, _, rfl⟩ :=
    commonSlots_eq_ok made
  obtain rfl := Except.ok.inj (areParameters.symm.trans foundAre)
  refine ⟨?_, ?_, ?_, ?_, ?_, provider, isProvider, ?_⟩
  all_goals simp

/--
A placeholder for a text: its parameter, another one in its place, and what
stands for both.
-/
structure TextParameter where
  placeholder : String
  parameter : String
  alternative : String
  fallback : String

/-- The placeholders for texts; nothing stands in for a URL. -/
def textParameters : List TextParameter :=
  [⟨"url", "url", "url", ""⟩,
   ⟨"prompt", "prompt", "text", ""⟩,
   ⟨"model", "model", "modelName", "gpt-3.5-turbo"⟩,
   ⟨"system_message", "systemMessage", "system_message", ""⟩]

/-- The text that a placeholder takes from its parameter, which is a text. -/
inductive TextParameter.Takes (parameters : Value) (entry : TextParameter) :
  String → Prop where
  | own
      {text : String}
      (isText : parameters.field? entry.parameter = some (.text text))
      (notEmpty : text ≠ "") :
      Takes parameters entry text
  | alternative
      {text : String}
      (isEmpty : parameters.field? entry.parameter = some (.text ""))
      (isText : parameters.field? entry.alternative = some (.text text)) :
      Takes parameters entry text
  | fallback
      (isEmpty : parameters.field? entry.parameter = some (.text ""))
      (isMissing : parameters.field? entry.alternative = none) :
      Takes parameters entry entry.fallback

theorem TextParameter.Takes.orElse_eq
    {entry : TextParameter}
    (takes : entry.Takes parameters text) :
    (given parameters entry.parameter "").orElse
      (given parameters entry.alternative entry.fallback) = .text text := by
  cases takes with
  | own isText notEmpty =>
      rw [given, isText]
      exact if_pos (by simpa [Value.isTruthy] using notEmpty)
  | alternative isEmpty isText =>
      rw [given, given, isEmpty, isText]
      rfl
  | fallback isEmpty isMissing =>
      rw [given, given, isEmpty, isMissing]
      rfl

theorem inQuotesOrEmpty_text
    (text : String) :
    inQuotesOrEmpty (.text text) = inQuotes (.text text) := by
  unfold inQuotesOrEmpty
  split
  · rfl
  · rename_i isFalse
    obtain rfl : text = "" := by simpa [Value.isTruthy] using isFalse
    rfl

theorem inQuotes_mem_commonSlots
    {entry : TextParameter}
    (made : commonSlots node = .ok slots)
    (areParameters : node.get "parameters" (.object []) = .ok parameters)
    (isEntry : entry ∈ textParameters)
    (takes : entry.Takes parameters text) :
    ⟨entry.placeholder, inQuotes (.text text)⟩ ∈ slots := by
  obtain ⟨hasUrl, hasPrompt, hasModel, hasMessage, _⟩ :=
    mem_commonSlots made areParameters
  have chosen := takes.orElse_eq
  simp only [textParameters, List.mem_cons, List.not_mem_nil, or_false]
    at isEntry
  rcases isEntry with rfl | rfl | rfl | rfl
  · rw [Value.orElse, ite_self] at chosen
    exact chosen ▸ hasUrl
  · rw [chosen] at hasPrompt
    exact inQuotesOrEmpty_text text ▸ hasPrompt
  · rw [chosen] at hasModel
    exact hasModel
  · rw [chosen] at hasMessage
    exact inQuotesOrEmpty_text text ▸ hasMessage

theorem inQuotes_text_toList
    (text : String) :
    (inQuotes (.text text)).toList = '\x22' :: (text.toList ++ ['\x22']) := by
  rw [inQuotes, String.toList_append, String.toList_append]
  rfl

theorem isLiteral_inQuotes_iff
    {meaning : Char → List Char}
    (short : ∀ character, (meaning character).length ≤ 2) :
    Text.IsLiteral meaning text.toList (inQuotes (.text text)).toList ↔
      Text.SaysItself meaning text.toList := by
  rw [← @Text.literalAfter?_eq_self_iff meaning text.toList [] short,
    Text.IsLiteral, inQuotes_text_toList]
  simp

/--
What is inserted for a text parameter is the text between quotes, with nothing
escaped.  It is a literal for the text if and only if the text says itself
there; a text with a quote never does, and where its start does, the literal
ends at that quote and the rest of the text stands behind it.
-/
theorem commonSlots_inserts_unescaped
    {entry : TextParameter}
    (made : commonSlots node = .ok slots)
    (areParameters : node.get "parameters" (.object []) = .ok parameters)
    (isEntry : entry ∈ textParameters)
    (takes : entry.Takes parameters text) :
    ⟨entry.placeholder, inQuotes (.text text)⟩ ∈ slots ∧
    (∀ before after : String, StandsApart before.toList after.toList →
      TagFree text.toList →
      fillCommon (.text (before ++ placeholder entry.placeholder ++ after))
        node =
        .ok (fill before slots ++ inQuotes (.text text) ++ fill after slots)) ∧
    ∀ meaning : Char → List Char,
    (∀ character, (meaning character).length ≤ 2) →
      meaning '\x22' = ['\x22'] →
      (Text.IsLiteral meaning text.toList (inQuotes (.text text)).toList ↔
        Text.SaysItself meaning text.toList) ∧
      ('\x22' ∈ text.toList →
        ¬ Text.IsLiteral meaning text.toList (inQuotes (.text text)).toList) ∧
      ('\x22' ∉ text.toList → '\\' ∉ text.toList →
        Text.IsLiteral meaning text.toList (inQuotes (.text text)).toList) ∧
      ∀ front back, text.toList = front ++ '\x22' :: back →
      Text.SaysItself meaning front →
        Text.literalAfter? meaning (inQuotes (.text text)).toList.tail =
          some (front, back ++ ['\x22']) := by
  have member := inQuotes_mem_commonSlots made areParameters isEntry takes
  refine ⟨member, fun before after apart free => ?_,
    fun meaning short quoteMeans => ?_⟩
  · refine fillCommon_apart made member (tagFree_inQuotes ?_) apart
    exact Value.clean_text.mpr free
  · have literal_iff := @isLiteral_inQuotes_iff text meaning short
    refine ⟨literal_iff, fun hasQuote isLiteral => ?_,
      fun noQuote noBackslash => ?_, fun front back textIs saysItself => ?_⟩
    · exact (literal_iff.mp isLiteral).quote_not_mem quoteMeans hasQuote
    · exact literal_iff.mpr (.of_not_mem noQuote noBackslash)
    · rw [inQuotes_text_toList, List.tail_cons, textIs, List.append_assoc,
        List.cons_append]
      exact saysItself.literalAfter?_eq _

/--
The usual meaning of an escape; one that has none stays with its backslash.
-/
def usualMeaning (character : Char) : List Char :=
  if character = '\x22' ∨ character = '\\' ∨ character = '$' then [character]
  else if character = 'n' then ['\n']
  else if character = 'r' then ['\r']
  else if character = 't' then ['\t']
  else ['\\', character]

/-- A URL that ends its literal and goes on with a call. -/
def callingUrl : String :=
  "a\x22; exit(); \x22b"

/-- A node with that URL. -/
def callingNode : Value :=
  .object [("name", .text "Fetch"),
    ("parameters", .object [("url", .text callingUrl)])]

/--
The URL is no literal where it is inserted: it ends at its quote, and a call
follows.
-/
theorem commonSlots_inserts_unescaped_callingNode :
    ∃ slots, commonSlots callingNode = .ok slots ∧
      fillCommon (.text "$url = \x7b\x7burl\x7d\x7d;") callingNode =
        .ok "$url = \x22a\x22; exit(); \x22b\x22;" ∧
      ¬ Text.IsLiteral usualMeaning callingUrl.toList
        (inQuotes (.text callingUrl)).toList ∧
      Text.literalAfter? usualMeaning
        (inQuotes (.text callingUrl)).toList.tail =
        some ("a".toList, "; exit(); \x22b\x22".toList) := by
  obtain ⟨slots, made⟩ := exists_eq_ok_of_isOk
    (show (commonSlots callingNode).isOk = true by decide +kernel)
  have takes : TextParameter.Takes (.object [("url", .text callingUrl)])
      ⟨"url", "url", "url", ""⟩ callingUrl :=
    .own rfl (by decide)
  have isShort : ∀ character, (usualMeaning character).length ≤ 2 := by
    intro character
    unfold usualMeaning
    repeat' split
    all_goals simp
  obtain ⟨_, inserted, literals⟩ :=
    commonSlots_inserts_unescaped made rfl List.mem_cons_self takes
  obtain ⟨_, noLiteral, _, endsEarly⟩ := literals usualMeaning isShort rfl
  refine ⟨slots, made, ?_, noLiteral (by decide), ?_⟩
  · have free : TagFree callingUrl.toList := .of_not_mem (by decide)
    have filledCode := inserted "$url = " ";" (by decide) free
    rw [fill_commonSlots_eq_self made (by decide),
      fill_commonSlots_eq_self made (by decide)] at filledCode
    exact filledCode
  · exact endsEarly "a".toList "; exit(); \x22b".toList rfl
      (.of_not_mem (by decide) (by decide))

end Method

end Flowgen
