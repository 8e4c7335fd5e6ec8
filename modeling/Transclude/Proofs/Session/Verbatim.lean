/-
  Transclude/Proofs/Session/Verbatim.lean
  =======================================
  **Files that are inlined as they are.**

  A call of the directive for files is replaced by one string literal.  The text of
  the literal is that of the file wherever the file is well-formed, and ill-formed
  bytes before and behind such a part change nothing in it.  What is read for the
  ill-formed bytes is settled by a rule that takes them piece by piece.  Printed, the
  literal is a JSON string that is read as the same text, so no character of a file
  gets lost on the way through the output.
-/
import Transclude.Proofs.Expansion
import Transclude.Proofs.RoundTrip
import Transclude.Proofs.Session.Course
import Transclude.Proofs.Text.IllFormed

namespace Transclude

theorem Literal.decode_print_string (text : String) :
    Json.decode (Node.print ⟨.dummy, .stringLiteral text, .dummy, []⟩) = .ok (.string text) := by
  apply Json.decode_of_document
  rw [show (⟨.dummy, .stringLiteral text, .dummy, []⟩ : Node) = Literal.string text from rfl,
    Literal.print_string]
  exact ⟨[], Quoted.chars text.toList, [], by simp, Json.space_nil, Json.denotes_string text,
    Json.space_nil⟩

namespace Session

open Expansion

/-- A call of the directive for files whose file holds the given bytes. -/
structure ReadsBytes (program : Program) (marker : Marker) (disk : Disk) (file : SourceFile)
    (call : Node) (bytes : List UInt8) : Prop where
  function : marker.functionOf? program call = some "$INLINE_FILE"
  content : ∃ text, FirstArgument call text
    ∧ disk.read (file.directory.join ⟨text⟩) = .ok bytes

section Outcome

variable {program : Program} {marker : Marker} {disk : Disk} {file : SourceFile} {call : Node}

theorem expand?_of_bytes {bytes : List UInt8} (recording : Recording) (slot : Option Slot)
    (h : ReadsBytes program marker disk file call bytes) :
    expand? program marker disk recording file slot call =
      .ok (some ⟨.dummy, .stringLiteral (Utf8.lossy bytes), .dummy, []⟩) := by
  obtain ⟨text, hargument, hread⟩ := h.content
  have hstands : StandsFor disk file slot call "$INLINE_FILE" _ := .file hargument hread
  rw [expand?, h.function]
  simp only [ofCall_eq_ok_iff.mpr hstands]

/-- **A file is inlined verbatim wherever it is well-formed.**  A text between any bytes comes
    out whole between what these bytes come to on their own; a file that is the encoding of a
    text is inlined as that text; what bytes come to is what is read for them piece by piece;
    and the printed literal is the JSON string with its text. -/
theorem expand?_verbatim (recording : Recording) (slot : Option Slot)
    (before behind : List UInt8) (text : String) :
    (text ≠ "" →
      ReadsBytes program marker disk file call (before ++ Utf8.encode text ++ behind) →
      expand? program marker disk recording file slot call =
        .ok (some ⟨.dummy, .stringLiteral (Utf8.lossy before ++ text ++ Utf8.lossy behind), .dummy,
          []⟩)) ∧
    (ReadsBytes program marker disk file call (Utf8.encode text) →
      expand? program marker disk recording file slot call =
        .ok (some ⟨.dummy, .stringLiteral text, .dummy, []⟩)) ∧
    (∀ bytes content, Utf8.Reads bytes content.toList ↔ content = Utf8.lossy bytes) ∧
    ∀ content, Json.decode (Node.print ⟨.dummy, .stringLiteral content, .dummy, []⟩) =
      .ok (.string content) := by
  refine ⟨?_, ?_, Utf8.reads_iff, Literal.decode_print_string⟩
  · intro hne hreads
    rw [expand?_of_bytes recording slot hreads, Utf8.lossy_between before behind hne]
  · intro hreads
    rw [expand?_of_bytes recording slot hreads, Utf8.lossy_encode]

end Outcome

/-! ### A file with ill-formed bytes at both ends -/

namespace Torn

/-- Two of the three bytes of a character. -/
def before : List UInt8 := [0xE2, 0x82]

def text : String := "é\"\x00"

/-- A byte that starts no character. -/
def behind : List UInt8 := [0x80]

def call : Node :=
  Small.node 10 .callExpression
    [Small.node 11 (.identifier "text") [], Small.node 12 (.stringLiteral "torn.txt") []]

def disk : Disk :=
  Disk.empty.write ⟨"src/torn.txt"⟩ [0xE2, 0x82, 0xC3, 0xA9, 0x22, 0x00, 0x80]

theorem readsBytes : ReadsBytes Small.session.program Small.session.marker disk Small.file call
    (before ++ Utf8.encode text ++ behind) where
  function := by rfl
  content := ⟨"torn.txt", ⟨_, rfl, rfl⟩, by rfl⟩

end Torn

theorem expand?_verbatim_torn :
    Torn.text ≠ "" ∧
    ReadsBytes Small.session.program Small.session.marker Torn.disk Small.file Torn.call
      (Torn.before ++ Utf8.encode Torn.text ++ Torn.behind) ∧
    expand? Small.session.program Small.session.marker Torn.disk none Small.file none Torn.call =
      .ok (some (Literal.string "\uFFFDé\"\x00\uFFFD")) := by
  have hne : Torn.text ≠ "" := by decide
  refine ⟨hne, Torn.readsBytes, ?_⟩
  rw [(expand?_verbatim none none Torn.before Torn.behind Torn.text).1 hne Torn.readsBytes]
  rfl

end Session

end Transclude
