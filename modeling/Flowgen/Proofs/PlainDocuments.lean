import Flowgen.Markup.Document
import Flowgen.Proofs.Searching
import Mathlib.Data.List.TakeWhile

namespace Flowgen.Markup

/-!
# Reading plain documents

A plain document has no attributes, references or declarations: only elements
with plain names, runs of text, and sections of text in which no markup counts.
How such a document is read is said token by token.
-/

/-- A name of ASCII letters. -/
def PlainName (name : List Char) : Prop :=
  name ≠ [] ∧ ∀ character ∈ name, character.isAlpha = true

instance (name : List Char) : Decidable (PlainName name) :=
  inferInstanceAs (Decidable (_ ∧ _))

section Tokens

variable {text : List Char}

variable {name rest : List Char} {character : Char}

/-- An ASCII letter may start a name and go on in it. -/
theorem startsName_of_isAlpha
    (isLetter : character.isAlpha = true) :
    Alphabet.standard.startsName character = true ∧
      Alphabet.standard.continuesName character = true := by
  have range : character.toNat < 128 := by
    delta Char.isAlpha Char.isUpper Char.isLower at isLetter
    simp only [Bool.or_eq_true, Bool.and_eq_true, decide_eq_true_eq] at isLetter
    rcases isLetter with ⟨_, least⟩ | ⟨_, least⟩
    · have high : character.toNat ≤ 90 := least
      omega
    · have high : character.toNat ≤ 122 := least
      omega
  simp [Alphabet.startsName, Alphabet.continuesName, range, isLetter,
    Char.isAlphanum]

theorem simpleName?_plain
    (plain : PlainName name) :
    simpleName? .standard (name ++ '>' :: rest) = some (name, '>' :: rest) := by
  obtain ⟨first, letters, rfl⟩ := List.exists_cons_of_ne_nil plain.1
  obtain ⟨firstLetter, restLetters⟩ := List.forall_mem_cons.mp plain.2
  have goOn :
      ∀ character ∈ letters, Alphabet.standard.continuesName character = true :=
    fun character member =>
      (startsName_of_isAlpha (restLetters character member)).2
  have stops : Alphabet.standard.continuesName '>' = false := by decide
  rw [List.cons_append, simpleName?,
    if_pos (startsName_of_isAlpha firstLetter).1,
    List.takeWhile_append_of_pos goOn, List.dropWhile_append_of_pos goOn]
  simp [stops]

theorem openingTag?_plain
    (plain : PlainName name)
    (fuel : Nat) :
    openingTag? .standard (fuel + 1) (name ++ '>' :: rest) =
      some (.opening ⟨none, name⟩ [] false, rest) := by
  have noSpace : skipSpace ('>' :: rest) = '>' :: rest := by
    simp [skipSpace, isSpace]
  simp [openingTag?, qualifiedName?, simpleName?_plain plain, attributes?,
    noSpace]

theorem upToFrom?_append
    {pattern text : List Char}
    (notNil : pattern ≠ [])
    (first : ∀ before after, text = before ++ after → after ≠ [] →
      ¬ pattern <+: after ++ (pattern ++ rest))
    (passed : List Char) :
    upToFrom? pattern passed (text ++ (pattern ++ rest)) =
      some (passed.reverse ++ text, rest) := by
  induction text generalizing passed with
  | nil =>
      obtain ⟨head, others, rfl⟩ := List.exists_cons_of_ne_nil notNil
      have found :
          Text.after? (head :: others) (head :: (others ++ rest)) = some rest :=
        Text.after?_eq_some.mpr rfl
      simp [upToFrom?, found]
  | cons character text inductionHypothesis =>
      have notHere := first [] (character :: text) rfl (by simp)
      rw [← Text.after?_eq_none] at notHere
      rw [List.cons_append] at notHere ⊢
      rw [upToFrom?, notHere]
      simp only
      rw [inductionHypothesis]
      · simp
      · intro before after textIs
        exact first (character :: before) after
          (by rw [textIs, List.cons_append])

theorem unifiedLineEnds_eq_self
    (noReturn : '\r' ∉ text) :
    Text.unifiedLineEnds text = text := by
  induction text with
  | nil =>
      rfl
  | cons character text inductionHypothesis =>
      have different : character ≠ '\r' :=
        fun same => noReturn (same ▸ List.mem_cons_self)
      have restNoReturn : '\r' ∉ text :=
        fun member => noReturn (List.mem_cons_of_mem _ member)
      rw [Text.unifiedLineEnds]
      · rw [inductionHypothesis restNoReturn]
      · exact fun _ isReturn _ => different isReturn
      · exact different

/-- How a document in the usual encoding is read. -/
def usual : Manner :=
  Encoding.utf8.manner

theorem token?_opening
    (plain : PlainName name)
    (fuel : Nat) :
    token? usual (fuel + 1) ('<' :: (name ++ '>' :: rest)) =
      some (.opening ⟨none, name⟩ [] false, rest) := by
  obtain ⟨first, letters, rfl⟩ := List.exists_cons_of_ne_nil plain.1
  have firstLetter := plain.2 first List.mem_cons_self
  rw [← openingTag?_plain plain fuel, List.cons_append]
  unfold token?
  split
  · rename_i same
    cases same
    exact absurd firstLetter (by decide)
  · rename_i same
    cases same
    exact absurd firstLetter (by decide)
  · rename_i same
    cases same
    exact absurd firstLetter (by decide)
  · rename_i same
    cases same
    rfl
  · rename_i same
    cases same
  · rename_i _ _ _ different _
    exact absurd rfl (different _)

theorem token?_closing
    (plain : PlainName name)
    (fuel : Nat) :
    token? usual fuel ('<' :: '/' :: (name ++ '>' :: rest)) =
      some (.closing name, rest) := by
  obtain ⟨first, letters, rfl⟩ := List.exists_cons_of_ne_nil plain.1
  obtain ⟨firstLetter, restLetters⟩ := List.forall_mem_cons.mp plain.2
  have goOn :
      ∀ character ∈ letters, (Alphabet.standard.continuesName character ||
      character == ':') = true := by
    intro character member
    rw [(startsName_of_isAlpha (restLetters character member)).2, Bool.true_or]
  have stops :
      ¬ (Alphabet.standard.continuesName '>' || '>' == ':') = true := by decide
  have taken : (letters ++ '>' :: rest).takeWhile (fun character =>
      Alphabet.standard.continuesName character ||
        character == ':') = letters := by
    rw [List.takeWhile_append_of_pos goOn, List.takeWhile_cons, if_neg stops,
      List.append_nil]
  have dropped : (letters ++ '>' :: rest).dropWhile (fun character =>
      Alphabet.standard.continuesName character ||
        character == ':') = '>' :: rest := by
    rw [List.dropWhile_append_of_pos goOn, List.dropWhile_cons, if_neg stops]
  have noSpace : skipSpace ('>' :: rest) = '>' :: rest := by
    simp [skipSpace, isSpace]
  have closes : Text.after? ['>'] ('>' :: rest) = some rest :=
    Text.after?_eq_some.mpr rfl
  simp [token?, closingTag?, usual, Encoding.manner, Encoding.alphabet,
    (startsName_of_isAlpha firstLetter).1, taken, dropped, noSpace, closes]

theorem token?_run
    (notNil : text ≠ [])
    (noMarkup : ∀ character ∈ text, endsText character = false ∧
      character ≠ ']' ∧ character ≠ '\r')
    (fuel : Nat) :
    token? usual fuel (text ++ '<' :: rest) =
      some (.text text, '<' :: rest) := by
  have goOn : ∀ character ∈ text, (!endsText character) = true := by
    intro character member
    rw [(noMarkup character member).1]
    rfl
  have run : (text ++ '<' :: rest).takeWhile
      (fun character => !endsText character) = text := by
    rw [List.takeWhile_append_of_pos goOn]
    simp [endsText]
  have noEnd : Text.occurs "]]>".toList text = false := by
    rw [← Bool.not_eq_true, Text.occurs_iff]
    intro found
    exact (noMarkup ']' (found.subset (by decide))).2.1 rfl
  have noReturn : '\r' ∉ text := fun member => (noMarkup '\r' member).2.2 rfl
  obtain ⟨first, others, rfl⟩ := List.exists_cons_of_ne_nil notNil
  have plainStart := (noMarkup first List.mem_cons_self).1
  unfold token?
  split
  · rename_i same
    rw [(List.cons.inj same).1] at plainStart
    exact absurd plainStart (by decide)
  · rename_i same
    rw [(List.cons.inj same).1] at plainStart
    exact absurd plainStart (by decide)
  · rename_i same
    rw [(List.cons.inj same).1] at plainStart
    exact absurd plainStart (by decide)
  · rename_i same
    rw [(List.cons.inj same).1] at plainStart
    exact absurd plainStart (by decide)
  · rename_i same
    rw [(List.cons.inj same).1] at plainStart
    exact absurd plainStart (by decide)
  · simp only [run, noEnd]
    simp [usual, Manner.lines, Encoding.manner,
      unifiedLineEnds_eq_self noReturn]

/-- How a section of text starts, after its bracket. -/
def sectionOpening : List Char :=
  ['!', '[', 'C', 'D', 'A', 'T', 'A', '[']

theorem token?_section
    (noEnd : ¬ [']', ']', '>'] <:+: text)
    (last : text.getLast? ≠ some ']')
    (noReturn : '\r' ∉ text)
    (fuel : Nat) :
    token? usual fuel ('<' ::
      (sectionOpening ++ (text ++ ([']', ']', '>'] ++ rest)))) =
      some (.text text, rest) := by
  have found : upTo? [']', ']', '>'] (text ++ ([']', ']', '>'] ++ rest)) =
      some (text, rest) := by
    rw [upTo?, upToFrom?_append (by simp)]
    · rfl
    · intro before after textIs notNil starts
      rcases Text.prefix_append_cases starts with
        inside | ⟨more, patternIs, moreNotNil, _⟩
      · apply noEnd
        rw [textIs]
        exact List.infix_append_of_infix_right inside.isInfix
      · -- only brackets can stand before the rest of the pattern
        have lastOfText : text.getLast? = after.getLast? := by
          rw [textIs, List.getLast?_append_of_ne_nil _ notNil]
        rcases after with _ | ⟨first, _ | ⟨second, _ | ⟨third, others⟩⟩⟩
        · exact notNil rfl
        · cases (List.cons.inj patternIs).1
          exact last lastOfText
        · cases (List.cons.inj (List.cons.inj patternIs).2).1
          exact last lastOfText
        · have lengths := congrArg List.length patternIs
          have := List.length_pos_of_ne_nil moreNotNil
          simp only [List.length_append, List.length_cons, List.length_nil]
            at lengths
          omega
  have keyword : "[CDATA[".toList = ['[', 'C', 'D', 'A', 'T', 'A', '['] := by
    decide
  have closed : "]]>".toList = [']', ']', '>'] := by decide
  simp only [List.cons_append, List.nil_append] at found
  simp [token?, sectionOpening, keyword, closed, Text.after?, found, usual,
    Manner.lines, Encoding.manner, unifiedLineEnds_eq_self noReturn]

end Tokens

/-- Take tokens of a document in the usual encoding that declares nothing. -/
def feedPlain
    (source : Source) :
    Nat → List Char → Progress → Option (Progress × List Char) :=
  feed (.empty source) usual (expandEntity (.empty source) 0) (arriveAt source)
    0

/-- What is known in the middle of a plain document: the open elements. -/
structure Within (stack : List Open) (progress : Progress) : Prop where
  stackIs : progress.stack = stack
  namespacesAre : progress.namespaces = initialNamespaces
  noRoot : progress.root = none
  nothingBrought : progress.budget.brought = 0

/-- Take one token of a plain document. -/
def stepPlain
    (source : Source)
    (token : Token)
    (progress : Progress) :
    Option Progress :=
  progress.step (.empty source) usual (expandEntity (.empty source) 0) 0 token

/--
Reading goes on from a text and open elements to a rest and other open
elements.
-/
def Reaches
    (source : Source)
    (text : List Char)
    (stack : List Open)
    (rest : List Char)
    (next : List Open) : Prop :=
  ∀ fuel progress, text.length < fuel → Within stack progress →
    ∃ left after, rest.length < left ∧ Within next after ∧
      feedPlain source fuel text progress = feedPlain source left rest after

/-- A document without entities never becomes too large. -/
theorem Budget.holds_arrive
    {budget : Budget}
    (nothing : budget.brought = 0)
    (source : Source)
    (rest : List Char) :
    (budget.arrive source rest).holds = true := by
  simp [Budget.holds, Budget.arrive, nothing]

section Reading

variable {element : Open} {progress : Progress}

variable {source : Source} {text rest : List Char} {stack next : List Open}
  {token : Token}

theorem feedPlain_token
    {fuel : Nat}
    (found : token? usual (fuel + 1) text = some (token, rest))
    (notNil : text ≠ [])
    (within : Within stack progress) :
    ∃ arrived, Within stack arrived ∧
      feedPlain source (fuel + 1) text progress =
        (stepPlain source token arrived).bind (feedPlain source fuel rest) := by
  refine ⟨{ progress with budget := progress.budget.arrive source rest }, ?_,
    ?_⟩
  · exact ⟨within.stackIs, within.namespacesAre, within.noRoot,
      within.nothingBrought⟩
  · have holds : (progress.budget.arrive source rest).holds = true :=
      Budget.holds_arrive within.nothingBrought source rest
    have goesOn : (text.isEmpty || progress.root.isSome) = false := by
      simp [within.noRoot, notNil]
    rw [feedPlain, feed, goesOn]
    simp only [found, arriveAt, holds, if_true, Option.bind_some,
      Bool.false_eq_true, if_false, stepPlain]
    cases Progress.step _ _ _ _ _ _ with
    | none =>
        rfl
    | some after =>
        rfl

theorem reaches_of_token
    (found : ∀ fuel, token? usual (fuel + 1) text = some (token, rest))
    (shorter : rest.length < text.length)
    (steps : ∀ progress, Within stack progress →
      ∃ after, stepPlain source token progress = some after ∧
      Within next after) :
    Reaches source text stack rest next := by
  intro fuel progress enough within
  obtain ⟨fuel, rfl⟩ : ∃ more, fuel = more + 1 := ⟨fuel - 1, by omega⟩
  have notNil : text ≠ [] := List.ne_nil_of_length_pos (by omega)
  obtain ⟨arrived, arrivedWithin, whole⟩ :=
    feedPlain_token (found fuel) notNil within
  obtain ⟨after, stepped, afterWithin⟩ := steps arrived arrivedWithin
  refine ⟨fuel, after, by omega, afterWithin, ?_⟩
  rw [whole, stepped, Option.bind_some]

theorem Reaches.trans
    {later : List Char}
    {last : List Open}
    (first : Reaches source text stack rest next)
    (second : Reaches source rest next later last) :
    Reaches source text stack later last := by
  intro fuel progress enough within
  obtain ⟨left, after, leftEnough, afterWithin, whole⟩ :=
    first fuel progress enough within
  obtain ⟨finalLeft, final, finalEnough, finalWithin, finalWhole⟩ :=
    second left after leftEnough afterWithin
  exact ⟨finalLeft, final, finalEnough, finalWithin, whole.trans finalWhole⟩

/-- How many elements are open. -/
def levelOf : List Open → Nat
  | [] => 0
  | element :: _ => element.level

/-- An element with a plain name as it is when it has just been opened. -/
def justOpened (name : List Char) (stack : List Open) : Open where
  written := name
  name := String.ofList name
  text := []
  children := []
  level := levelOf stack + 1
  outer := initialNamespaces

/-- An open element with one more piece of text. -/
def withText (content : List Char) (element : Open) : Open :=
  { element with text := content :: element.text }

/-- An open element with one more child. -/
def withChild (child : Element) (element : Open) : Open :=
  { element with children := child :: element.children }

variable {name : List Char}

theorem reaches_opening
    (plain : PlainName name) :
    Reaches source ('<' :: (name ++ '>' :: rest)) stack rest
      (justOpened name stack :: stack) := by
  refine reaches_of_token (token?_opening plain) (by simp; omega) ?_
  intro progress within
  have nameIs :
      elementName? initialNamespaces ⟨none, name⟩ = some (String.ofList name) :=
    rfl
  have levelIs : progress.level = levelOf stack := by
    rw [Progress.level, within.stackIs]
    rfl
  refine ⟨⟨justOpened name stack :: stack, initialNamespaces, none,
    progress.budget.countAgain usual []⟩, ?_, rfl, rfl, rfl, ?_⟩
  · simp [stepPlain, Progress.step, Progress.openElement, writtenBindings?,
      ownBindings,
      DocumentType.empty, bindAll, within.namespacesAre, nameIs, attributesFit,
      allDistinct,
      levelIs, within.stackIs, within.noRoot, justOpened, QualifiedName.written]
  · simpa [Budget.countAgain, usual, Encoding.manner]
      using within.nothingBrought

/-- Text is added to an element without children. -/
theorem stepPlain_text
    (within : Within (element :: stack) progress)
    (noChildren : element.children = [])
    (content : List Char) :
    ∃ after, stepPlain source (.text content) progress = some after ∧
      Within (withText content element :: stack) after := by
  refine ⟨{ progress with
    stack := withText content element :: stack }, ?_,
    rfl, within.namespacesAre, within.noRoot, within.nothingBrought⟩
  simp [stepPlain, Progress.step, Progress.addText, within.stackIs, noChildren,
    withText]

theorem reaches_run
    (notNil : text ≠ [])
    (noMarkup : ∀ character ∈ text, endsText character = false ∧
      character ≠ ']' ∧ character ≠ '\r')
    (noChildren : element.children = []) :
    Reaches source (text ++ '<' :: rest) (element :: stack) ('<' :: rest)
      (withText text element :: stack) := by
  refine reaches_of_token (fun fuel => token?_run notNil noMarkup (fuel + 1)) ?_
    fun _ within => stepPlain_text within noChildren text
  simpa using List.length_pos_of_ne_nil notNil

/-- A run of text behind a child is passed over. -/
theorem reaches_run_of_children
    (notNil : text ≠ [])
    (noMarkup : ∀ character ∈ text, endsText character = false ∧
      character ≠ ']' ∧ character ≠ '\r')
    (children : element.children ≠ []) :
    Reaches source (text ++ '<' :: rest) (element :: stack) ('<' :: rest)
      (element :: stack) := by
  refine reaches_of_token (fun fuel => token?_run notNil noMarkup (fuel + 1)) ?_
    ?_
  · simpa using List.length_pos_of_ne_nil notNil
  · intro progress within
    refine ⟨progress, ?_, within⟩
    simp [stepPlain, Progress.step, Progress.addText, within.stackIs, children]

theorem reaches_section
    (noEnd : ¬ [']', ']', '>'] <:+: text)
    (last : text.getLast? ≠ some ']')
    (noReturn : '\r' ∉ text)
    (noChildren : element.children = []) :
    Reaches source ('<' :: (sectionOpening ++
      (text ++ ([']', ']', '>'] ++ rest))))
      (element :: stack) rest (withText text element :: stack) := by
  refine reaches_of_token (fun fuel =>
    token?_section noEnd last noReturn (fuel + 1)) ?_
    fun _ within => stepPlain_text within noChildren text
  simp only [List.length_cons, List.length_append]
  omega

/-- A closing tag makes an element a child of the one around it. -/
theorem reaches_closing
    {element outer : Open}
    (plain : PlainName name)
    (written : element.written = name)
    (level : 0 < element.level)
    (outerIs : element.outer = initialNamespaces) :
    Reaches source ('<' :: '/' :: (name ++ '>' :: rest))
      (element :: outer :: stack) rest
      (withChild element.close outer :: stack) := by
  refine reaches_of_token (fun fuel => token?_closing plain (fuel + 1))
    (by simp; omega) ?_
  intro progress within
  refine ⟨{ progress with
    stack := withChild element.close outer :: stack
    namespaces :=
      initialNamespaces }, ?_, rfl, rfl, within.noRoot, within.nothingBrought⟩
  simp [stepPlain, Progress.step, Progress.closeElement, Progress.addElement,
    within.stackIs, written, level, outerIs, withChild]

theorem feedPlain_closing
    {fuel : Nat}
    (plain : PlainName name)
    (written : element.written = name)
    (level : 0 < element.level)
    (enough : ('<' :: '/' :: (name ++ '>' :: rest)).length < fuel)
    (within : Within [element] progress) :
    ∃ after, feedPlain source fuel ('<' :: '/' :: (name ++ '>' :: rest))
        progress = some (after, rest) ∧
      after.root = some element.close ∧ after.budget.brought = 0 := by
  obtain ⟨fuel, rfl⟩ : ∃ more, fuel = more + 2 :=
    ⟨fuel - 2, by simp only [List.length_cons] at enough; omega⟩
  obtain ⟨arrived, arrivedWithin, whole⟩ :=
    feedPlain_token (token?_closing plain (fuel + 2)) (by simp) within
  have stepped : stepPlain source (.closing name) arrived =
      some { arrived with
        stack := [], namespaces := element.outer, root :=
          some element.close } := by
    simp [stepPlain, Progress.step, Progress.closeElement, Progress.addElement,
      arrivedWithin.stackIs, written, level]
  refine ⟨{ arrived with
    stack := [], namespaces := element.outer, root :=
      some element.close }, ?_, rfl,
    arrivedWithin.nothingBrought⟩
  rw [whole, stepped, Option.bind_some]
  simp [feedPlain, feed]

end Reading

section Documents

variable {text : String} {rest : List Char} {name : List Char} {element : Open}

/-- A text that starts with a plain tag is a document in the usual encoding. -/
theorem ofContent_plain
    {characters : List Char}
    (plain : PlainName name)
    (textIs : text.toList = '<' :: (name ++ characters))
    (allowed : ∀ character ∈ text.toList, isAllowed character = true) :
    Source.ofContent (.text text) =
      .ok ⟨text.toList, .utf8, false, text.utf8ByteSize⟩ := by
  have noNull : text.toList.contains '\x00' = false := by
    rw [← Bool.not_eq_true, List.contains_iff_mem]
    exact fun member => absurd (allowed _ member) (by decide)
  have noMark : Source.dropMark text.toList = text.toList := by
    rw [textIs]
    rfl
  have noDeclaration :
      Declaration.split? text.toList = some (⟨none, false⟩, text.toList) := by
    obtain ⟨first, letters, rfl⟩ := List.exists_cons_of_ne_nil plain.1
    have keyword : "<?xml".toList = ['<', '?', 'x', 'm', 'l'] := by decide
    have notKeyword : ¬ '?' = first := by
      rintro rfl
      exact absurd (plain.2 _ List.mem_cons_self) (by decide)
    rw [textIs, Declaration.split?, keyword]
    simp [Text.after?, notKeyword]
  rw [Source.ofContent, Source.ofText?, noNull]
  simp [noMark, noDeclaration, Declaration.isUsual]

theorem skipMisc_space
    {fits : List Char → Bool}
    (space : ∀ character ∈ rest, isSpace character = true)
    (fitsEnd : fits [] = true)
    (fuel : Nat) :
    skipMisc .standard fits (fuel + 1) rest = some [] := by
  have nothingLeft : skipSpace rest = [] := by
    rw [skipSpace, List.dropWhile_eq_nil_iff]
    exact space
  rw [skipMisc, nothingLeft]
  simp [fitsEnd]

theorem skipMisc_plain
    {fits : List Char → Bool}
    {characters : List Char}
    (plain : PlainName name)
    (fitsAll : ∀ text, fits text = true)
    (fuel : Nat) :
    skipMisc .standard fits fuel ('<' :: (name ++ characters)) =
      some ('<' :: (name ++ characters)) := by
  obtain ⟨first, letters, rfl⟩ := List.exists_cons_of_ne_nil plain.1
  have firstLetter := plain.2 first List.mem_cons_self
  cases fuel with
  | zero =>
      rfl
  | succ fuel =>
      have noSpace : skipSpace ('<' :: (first :: letters ++ characters)) =
          '<' :: (first :: letters ++ characters) := by
        simp [skipSpace, isSpace]
      rw [skipMisc, noSpace]
      simp only [fitsAll, if_true]
      split
      · rename_i same
        rw [(List.cons.inj (List.cons.inj same).2).1] at firstLetter
        exact absurd firstLetter (by decide)
      · rename_i same
        rw [(List.cons.inj (List.cons.inj same).2).1] at firstLetter
        exact absurd firstLetter (by decide)
      · rfl

/-- A document whose outermost element is read up to its end is that element. -/
theorem parse_plain
    {characters closing : List Char}
    (plain : PlainName name)
    (textIs : text.toList = '<' :: (name ++ characters))
    (allowed : ∀ character ∈ text.toList, isAllowed character = true)
    (reaches : ∀ source, Reaches source text.toList []
      ('<' :: '/' :: (closing ++ '>' :: rest)) [element])
    (plainClosing : PlainName closing)
    (written : element.written = closing)
    (level : 0 < element.level)
    (space : ∀ character ∈ rest, isSpace character = true) :
    parse (.text text) = .ok element.close := by
  let source : Source := ⟨text.toList, .utf8, false, text.utf8ByteSize⟩
  have prolog : prolog? source = some (.empty source, text.toList) := by
    have noType : Text.after? "<!DOCTYPE".toList text.toList = none := by
      obtain ⟨first, letters, rfl⟩ := List.exists_cons_of_ne_nil plain.1
      have notKeyword : ¬ '!' = first := by
        rintro rfl
        exact absurd (plain.2 _ List.mem_cons_self) (by decide)
      rw [Text.after?_eq_none, textIs]
      rintro ⟨more, whole⟩
      exact notKeyword (List.cons.inj (List.cons.inj whole).2).1
    have skipped :
        skipMisc .standard (fun _ => true) text.toList.length text.toList =
        some text.toList := by
      nth_rewrite 2 3 [textIs]
      exact skipMisc_plain plain (fun _ => rfl) _
    simp only [prolog?]
    rw [show source.manner.alphabet = .standard from rfl,
      show source.text = text.toList from rfl, skipped]
    simp only [bind, Option.bind_some, noType, pure]
  have started : Within [] ⟨[], initialNamespaces, none, .ofSource source⟩ :=
    ⟨rfl, rfl, rfl, rfl⟩
  obtain ⟨left, progress, enough, within, whole⟩ :=
    reaches source (text.toList.length + 1) _ (Nat.lt_succ_self _) started
  obtain ⟨after, ended, rootIs, nothingBrought⟩ :=
    feedPlain_closing plainClosing written level enough within
  have elementRead :
      element? source (.empty source) text.toList = some (after, rest) := by
    have bracket : Text.after? ['<'] text.toList = some (name ++ characters) :=
      Text.after?_eq_some.mpr textIs
    simp only [element?, bracket]
    exact whole.trans ended
  have isDocument : document? source = some element.close := by
    have allAllowed : source.text.all isAllowed = true :=
      List.all_eq_true.mpr allowed
    have skipped : skipMisc source.manner.alphabet
        (fun rest => (after.budget.arrive source rest).holds) (rest.length + 1)
          rest = some [] :=
      skipMisc_space space (Budget.holds_arrive nothingBrought source []) _
    simp [document?, allAllowed, prolog, elementRead, rootIs, skipped]
  rw [parse, ofContent_plain plain textIs allowed]
  simp only [bind, Except.bind, require]
  rw [isDocument]

end Documents

end Flowgen.Markup
