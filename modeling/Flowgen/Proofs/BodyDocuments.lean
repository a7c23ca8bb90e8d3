import Flowgen.Proofs.InsertedTexts
import Flowgen.Proofs.JsonDocuments

namespace Flowgen.Method

/-!
# The body of a request as a document

The body of a node is inserted as a document with lines, each of them indented
once more where it stands.  The document is read back as the body: the
indentation only ever falls between its parts.
-/

open Template

variable {node parameters body : Value} {slots : List Slot} {document : String}

theorem bodyCode_toList
    (isTrue : body.isTruthy = true) :
    (bodyCode body).toList =
      Json.rebroken "\n    ".toList (Json.written (some 8) 0 body) := by
  have printed :
      (Json.print (some 8) body).toList = Json.written (some 8) 0 body :=
    String.toList_ofList
  rw [bodyCode, if_pos isTrue, Text.replace_toList, printed]
  exact replaceAll_singleton '\n' "\n    ".toList _

theorem parse_bodyCode
    (isTrue : body.isTruthy = true)
    (regular : body.Regular)
    (noReals : body.reals = []) :
    Json.parse (bodyCode body) = .ok body := by
  have blank : Json.Blank "\n    ".toList := by
    simp [Json.Blank, Json.isSpace]
  apply Json.parse_of_spells
  rw [bodyCode_toList isTrue]
  exact (Json.spells_written (some 8) 0 body regular noReals).rebroken blank

/--
A body that counts as true, was read from a document and has no doubles and no
tags in its strings is inserted as a document for itself, fields in order; no
placeholder that is filled later changes what was inserted.
-/
theorem fillCommon_body_reads_back
    (isRead : Json.parse document = .ok body)
    (isTrue : body.isTruthy = true)
    (noReals : body.reals = [])
    (clean : body.Clean)
    (areParameters : node.get "parameters" (.object []) = .ok parameters)
    (isBody : parameters.field? "body" = some body)
    (made : commonSlots node = .ok slots) :
    ∃ content, ⟨"body", content⟩ ∈ slots ∧ Json.parse content = .ok body ∧
      ∀ before after : String, StandsApart before.toList after.toList →
        fillCommon (.text (before ++ placeholder "body" ++ after)) node =
          .ok (fill before slots ++ content ++ fill after slots) := by
  obtain ⟨_, _, _, _, hasBody, _⟩ := mem_commonSlots made areParameters
  rw [isBody, Option.getD_some] at hasBody
  refine ⟨bodyCode body, hasBody, ?_, fun before after apart => ?_⟩
  · exact parse_bodyCode isTrue (Json.regular_of_parse isRead) noReals
  · exact fillCommon_apart made hasBody (tagFree_bodyCode clean) apart

/-- A body with escapes in its names and texts, and with empty parts. -/
def nestedBody : Value :=
  .object [("a\nb", .list [.text "\x01\x22\\", .object [], .list [], .int (-20),
    .null]), ("k", .bool true)]

theorem regular_nestedBody :
    nestedBody.Regular := by
  have noItems : (Value.list []).Regular := .list (by simp)
  have noFields : (Value.object []).Regular := .object (by simp) (by simp)
  have number : (Value.int (-20)).Regular := .int (by decide)
  refine .object (by decide) (List.forall_mem_cons.mpr ⟨.list ?_, ?_⟩)
  · simp [noItems, noFields, number, Value.Regular.text, Value.Regular.null]
  · simp [Value.Regular.bool]

/-- A document for that body. -/
def nestedDocument : String :=
  "\x7b\x22a\\nb\x22: [\x22\\u0001\\\x22\\\\\x22,\x7b\x7d,[],-20,null],"
    ++ "\x22k\x22: true\x7d"

theorem parse_nestedDocument :
    Json.parse nestedDocument = .ok nestedBody := by
  have documentIs : nestedDocument.toList = Json.written none 0 nestedBody := by
    decide +kernel
  apply Json.parse_of_spells
  rw [documentIs]
  exact Json.spells_written none 0 nestedBody regular_nestedBody rfl

/-- A node that sends the body. -/
def postNode : Value :=
  .object [("name", .text "Post"),
    ("parameters", .object [("body", nestedBody)])]

/-- The body is inserted as a document for itself. -/
theorem fillCommon_nestedBody_reads_back :
    ∃ content, Json.parse content = .ok nestedBody ∧
      fillCommon (.text "$body = \x7b\x7bbody\x7d\x7d;") postNode =
        .ok ("$body = " ++ content ++ ";") := by
  obtain ⟨slots, made⟩ := exists_eq_ok_of_isOk
    (show (commonSlots postNode).isOk = true by decide +kernel)
  have clean : nestedBody.Clean := by
    decide
  obtain ⟨content, _, isDocument, inserted⟩ :=
    fillCommon_body_reads_back parse_nestedDocument rfl rfl clean rfl rfl made
  have filledCode := inserted "$body = " ";" (by decide)
  rw [fill_commonSlots_eq_self made (by decide),
    fill_commonSlots_eq_self made (by decide)] at filledCode
  exact ⟨content, isDocument, filledCode⟩

end Flowgen.Method
