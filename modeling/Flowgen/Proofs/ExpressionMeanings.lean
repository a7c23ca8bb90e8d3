import Flowgen.Proofs.Registrations

namespace Flowgen

/-!
# What the inside of an expression means

A path is sought behind two markers, one of which ends with the other, so what
decides is the shorter one.  Without a path, a source between dots is more
than the translator can make an access for, and the rest is an access to the
data directly or plain text.  So an expression faults exactly if it names a
source and no path goes on behind it in its line.
-/

namespace Expression

variable {text inside marker : List Char}

/-- A text with a source of the call between dots in it. -/
def NamesSource (inside : List Char) : Prop :=
  ∃ source ∈ sources, '.' :: source ++ ['.'] <:+: inside

/--
A text in which a path starts: below the data and a source there is more of
the line.
-/
def HasPath (inside : List Char) : Prop :=
  ∃ source ∈ sources, ∃ character, character ≠ '\n' ∧
    "json.".toList ++ (source ++ ['.', character]) <:+: inside

/-- A text that starts with the data, and below it there is more of the line. -/
def GoesDirect (inside : List Char) : Prop :=
  ∃ character, character ≠ '\n' ∧ "$json.".toList ++ [character] <+: inside

theorem isSome_restOfLine?_iff :
    (restOfLine? text).isSome = true ↔
    ∃ character, character ≠ '\n' ∧ [character] <+: text := by
  cases text with
  | nil =>
      simp [restOfLine?]
  | cons first text =>
      by_cases isBreak : first = '\n'
      · simp [restOfLine?, isBreak]
      · simp [restOfLine?, isBreak]

theorem isSome_pathAt?_iff :
    (pathAt? marker text).isSome = true ↔
      ∃ source ∈ sources, ∃ character, character ≠ '\n' ∧
        marker ++ (source ++ ['.', character]) <+: text := by
  have below : ∀ (source rest : List Char) (character : Char),
      marker ++ (source ++ ['.', character]) ++ rest =
        marker ++ (source ++ '.' :: (character :: rest)) := by
    simp
  constructor
  · intro found
    obtain ⟨path, found⟩ := Option.isSome_iff_exists.mp found
    simp only [pathAt?, Option.bind_eq_some_iff] at found
    obtain ⟨rest, ⟨behind, isMarked, isSource⟩, isLine⟩ := found
    obtain ⟨source, known, rfl⟩ := Parameters.afterSource?_eq_some.mp isSource
    obtain ⟨character, notBreak, more, rfl⟩ :=
      isSome_restOfLine?_iff.mp (Option.isSome_iff_exists.mpr ⟨path, isLine⟩)
    refine ⟨source, known, character, notBreak, more, ?_⟩
    rw [Text.after?_eq_some.mp isMarked, below]
    rfl
  · rintro ⟨source, known, character, notBreak, more, rfl⟩
    rw [below, pathAt?, Text.after?_eq_some.mpr rfl, Option.bind_some,
      Parameters.afterSource?_eq_some.mpr ⟨source, known, rfl⟩,
      Option.bind_some,
      isSome_restOfLine?_iff]
    exact ⟨character, notBreak, more, rfl⟩

theorem isSome_findPath?_iff :
    (findPath? marker text).isSome = true ↔
      ∃ source ∈ sources, ∃ character, character ≠ '\n' ∧
        marker ++ (source ++ ['.', character]) <:+: text := by
  induction text with
  | nil =>
      simp [findPath?]
  | cons first text inductionHypothesis =>
      have here := @isSome_pathAt?_iff (first :: text) marker
      simp only [List.infix_cons_iff, and_or_left, exists_or]
      rw [← here, ← inductionHypothesis, findPath?]
      cases pathAt? marker (first :: text) with
      | some path =>
          simp
      | none =>
          simp

/-- The marker with a dollar sign finds no path that the other one misses. -/
theorem isSome_sourcePath?_iff :
    (sourcePath? inside).isSome = true ↔ HasPath inside := by
  rw [HasPath, ← isSome_findPath?_iff, sourcePath?]
  cases found : findPath? "$json.".toList inside with
  | none =>
      rfl
  | some path =>
      refine iff_of_true rfl ?_
      obtain ⟨source, known, character, notBreak, written⟩ :=
        isSome_findPath?_iff.mp (Option.isSome_iff_exists.mpr ⟨path, found⟩)
      refine isSome_findPath?_iff.mpr ⟨source, known, character, notBreak, ?_⟩
      exact (List.suffix_cons '$' _).isInfix.trans written

theorem mentionsSource_iff :
    mentionsSource inside = true ↔ NamesSource inside := by
  simp only [mentionsSource, List.any_eq_true, Text.occurs_iff, NamesSource]

theorem isSome_directPath?_iff :
    (directPath? inside).isSome = true ↔ GoesDirect inside := by
  constructor
  · intro found
    obtain ⟨path, found⟩ := Option.isSome_iff_exists.mp found
    obtain ⟨behind, isMarked, isLine⟩ := Option.bind_eq_some_iff.mp found
    obtain ⟨character, notBreak, more, rfl⟩ :=
      isSome_restOfLine?_iff.mp (Option.isSome_iff_exists.mpr ⟨path, isLine⟩)
    refine ⟨character, notBreak, more, ?_⟩
    rw [Text.after?_eq_some.mp isMarked, List.append_assoc]
  · rintro ⟨character, notBreak, more, rfl⟩
    rw [List.append_assoc, directPath?, Text.after?_eq_some.mpr rfl,
      Option.bind_some, isSome_restOfLine?_iff]
    exact ⟨character, notBreak, more, rfl⟩

theorem HasPath.namesSource
    (hasPath : HasPath inside) :
    NamesSource inside := by
  obtain ⟨source, known, character, _, written⟩ := hasPath
  refine ⟨source, known, List.IsInfix.trans ⟨"json".toList, [character], ?_⟩
    written⟩
  rw [show "json.".toList = "json".toList ++ ['.'] from rfl]
  simp

theorem meaning_eq_unsupported_iff :
    meaning inside = .unsupported ↔ NamesSource inside ∧ ¬ HasPath inside := by
  rw [← isSome_sourcePath?_iff, ← mentionsSource_iff, meaning]
  cases sourcePath? inside with
  | some path =>
      simp
  | none =>
      cases mentionsSource inside with
      | true =>
          simp
      | false =>
          cases directPath? inside <;> simp

theorem meaning_eq_plain_iff :
    meaning inside = .plain ↔ ¬ (NamesSource inside ∨ GoesDirect inside) := by
  have names : (sourcePath? inside).isSome = true → NamesSource inside :=
    fun found => (isSome_sourcePath?_iff.mp found).namesSource
  rw [← mentionsSource_iff] at names
  rw [← isSome_directPath?_iff, ← mentionsSource_iff, meaning]
  cases found : sourcePath? inside with
  | some path =>
      simp [names (by rw [found]; rfl)]
  | none =>
      cases mentionsSource inside with
      | true =>
          simp
      | false =>
          cases directPath? inside <;> simp

/--
The markers of a text stand around an inside; white space around either does
not count.
-/
def Encloses (content : String) (inside : List Char) : Prop :=
  ∃ middle, Text.trimmed content.toList = opening ++ middle ++ closing ∧
    inside = Text.trimmed middle

/--
A text with markers that names a source inside them, but has no path there.
-/
def Stranded (content : String) : Prop :=
  ∃ inside, Encloses content inside ∧ NamesSource inside ∧ ¬ HasPath inside

theorem stranded_iff
    {content : String} :
    Stranded content ↔ isUnsupported content.toList = true := by
  rw [isUnsupported, beq_iff_eq, Option.map_eq_some_iff]
  refine exists_congr fun inside => ?_
  rw [inside?_eq_some_iff, meaning_eq_unsupported_iff, Encloses]
  simp only [eq_comm]

theorem Stranded.renderText_eq
    {content : String}
    (stranded : Stranded content)
    (scope : Scope) :
    renderText scope content = (.error .unsupportedSource, scope) := by
  rw [stranded_iff, isUnsupported, beq_iff_eq, Option.map_eq_some_iff]
    at stranded
  obtain ⟨inside, isInside, isMeant⟩ := stranded
  rw [renderText, isInside]
  simp only [isMeant]

theorem exists_renderText_eq_ok
    {content : String}
    (notStranded : ¬ Stranded content)
    (scope : Scope) :
    ∃ code after, renderText scope content = (.ok code, after) := by
  obtain ⟨_, faults⟩ := renderText_registers scope content
  rw [← stranded_iff] at faults
  cases rendered : renderText scope content with
  | mk result after =>
      cases result with
      | ok code =>
          exact ⟨code, after, rfl⟩
      | error fault =>
          exact absurd (faults.mp ⟨fault, by rw [rendered]⟩) notStranded

/--
Turning a text into code faults if and only if the text names a source between
its markers and no path starts there; the scope is then as it was.  Every
other text becomes a text.
-/
theorem renderText_faults_iff_stranded
    (scope : Scope)
    (content : String) :
    (onText renderText scope (.text content) =
        (.error .unsupportedSource, scope) ↔ Stranded content) ∧
      ((∃ code after, onText renderText scope (.text content) =
        (.ok (.text code), after)) ↔ ¬ Stranded content) ∧
      Fault.unsupportedSource.message =
        "'ExpressionParser' object has no attribute '_build_php_access'" := by
  by_cases stranded : Stranded content
  · have faulted : onText renderText scope (.text content) =
        (.error .unsupportedSource, scope) := by
      rw [onText, stranded.renderText_eq]
      rfl
    refine ⟨iff_of_true faulted stranded,
      iff_of_false ?_ (not_not_intro stranded), rfl⟩
    rintro ⟨code, after, made⟩
    rw [faulted] at made
    cases made
  · obtain ⟨code, after, rendered⟩ := exists_renderText_eq_ok stranded scope
    have made : onText renderText scope (.text content) =
        (.ok (.text code), after) := by
      rw [onText, rendered]
      rfl
    refine ⟨iff_of_false ?_ stranded, iff_of_true ⟨code, after, made⟩ stranded,
      rfl⟩
    rw [made]
    rintro ⟨⟩

/-- A break behind the dot of a source leaves nothing of the line for a path. -/
example :
    (renderText (.ofParameters []) "=\x7b\x7b $json.body.\nid \x7d\x7d").1 =
      .error .unsupportedSource := by
  decide +kernel

end Expression

end Flowgen
