/-
  Transclude/Proofs/Session/Destructuring.lean
  ============================================
  **Calls whose value is taken apart.**

  A call of the directive for JSON files that initializes a declaration by an object
  pattern is replaced by the literal of those members that the pattern names.  Only
  they are encoded, so only they can fail, and nothing else in the file matters.  A
  call that stands anywhere else is replaced by the literal of the whole value.
-/
import Transclude.Proofs.Session.Course

namespace Transclude

open Json

namespace Session

open Expansion

/-- A call of the directive for JSON files whose file denotes a value. -/
structure ReadsJson (program : Program) (marker : Marker) (disk : Disk) (file : SourceFile)
    (call : Node) (value : Value) : Prop where
  function : marker.functionOf? program call = some "$INLINE_JSON"
  content : ∃ text bytes, FirstArgument call text
    ∧ disk.read (file.directory.join ⟨text⟩) = .ok bytes
    ∧ Document (Utf8.lossy bytes).toList value

section Outcome

variable {program : Program} {marker : Marker} {disk : Disk} {file : SourceFile} {call : Node}

theorem ReadsJson.normal {value : Value} (h : ReadsJson program marker disk file call value) :
    value.Normal := by
  obtain ⟨text, bytes, -, -, hdocument⟩ := h.content
  exact hdocument.normal

/-- The outcome of a call by the outcome of encoding what is left for it. -/
def outcomeOf (recording : Recording) : Except Cause Node → Except Failure (Option Node)
  | .ok literal => .ok (some literal)
  | .error cause => .error (.raise (recording.enter (.inlining "$INLINE_JSON")) cause)

theorem expand?_of_left {recording : Recording} {slot : Option Slot} {value left : Value}
    (h : ReadsJson program marker disk file call value) (hleft : Left slot value left) :
    expand? program marker disk recording file slot call =
      outcomeOf recording (Literal.ofValue left) := by
  obtain ⟨text, bytes, hargument, hread, hdocument⟩ := h.content
  have hcall : ofCall disk file "$INLINE_JSON" slot call = Literal.ofValue left := by
    cases hencoded : Literal.ofValue left with
    | ok literal => exact ofCall_eq_ok_iff.mpr (.json hargument hread hdocument hleft hencoded)
    | error cause =>
      obtain ⟨n, hn, rfl⟩ := (ofValue_left_eq_error_iff hdocument hleft).mp hencoded
      exact ofCall_eq_error_iff.mpr (.unsupportedValue hargument hread hdocument hleft hn)
  rw [expand?, h.function]
  simp only [hcall]
  cases Literal.ofValue left <;> rfl

theorem outcomeOf_eq_ok_iff {recording : Recording} {result : Except Cause Node} {literal : Node} :
    outcomeOf recording result = .ok (some literal) ↔ result = .ok literal := by
  cases result <;> simp [outcomeOf]

theorem outcomeOf_eq_error_iff {recording : Recording} {result : Except Cause Node}
    {failure : Failure} :
    outcomeOf recording result = .error failure ↔
      ∃ cause, result = .error cause
        ∧ failure = .raise (recording.enter (.inlining "$INLINE_JSON")) cause := by
  cases result <;> simp [outcomeOf, eq_comm]

theorem expand?_of_pattern (recording : Recording) {slot : Option Slot} {pattern : Node}
    {members : Members} (hpattern : Initializes slot pattern)
    (h : ReadsJson program marker disk file call (.object members)) :
    expand? program marker disk recording file slot call =
      outcomeOf recording (Literal.ofValue (.object (members.select pattern.namedKeys))) :=
  expand?_of_left h (.members hpattern)

theorem exists_error_outcomeOf {recording : Recording} {result : Except Cause Node} :
    (∃ failure, outcomeOf recording result = .error failure) ↔ ∃ cause, result = .error cause := by
  cases result <;> simp [outcomeOf]

/-- **Of an object that is taken apart exactly the members are inlined that the pattern names.**
    They are encoded in the order in which they are named, and the first number in them that has
    no finite double near it is the one that is reported.  Objects that agree on these members
    have the same outcome, and a value that is not taken apart is encoded whole. -/
theorem expand?_destructured (recording : Recording) (slot : Option Slot) :
    (∀ pattern (members : Members), Initializes slot pattern →
      ReadsJson program marker disk file call (.object members) →
      (∀ literal, expand? program marker disk recording file slot call = .ok (some literal) ↔
        ∃ entries, Literal.EncodesMembers (members.select pattern.namedKeys) entries ∧
          literal = ⟨.dummy, .objectLiteralExpression, .dummy,
            entries.map fun entry => ⟨.dummy, .propertyAssignment, .dummy,
              [⟨.dummy, .stringLiteral entry.1, .dummy, []⟩, entry.2]⟩⟩) ∧
      ((∃ failure, expand? program marker disk recording file slot call = .error failure) ↔
        ∃ member ∈ members.select pattern.namedKeys, ∃ n ∈ member.2.numbers, ¬ n.Finite) ∧
      (∀ failure, expand? program marker disk recording file slot call = .error failure →
        ∃ n, Number.FirstInfinite
            ((members.select pattern.namedKeys).flatMap fun member => member.2.numbers) n ∧
          failure = .raise (recording.enter (.inlining "$INLINE_JSON"))
            (.unsupportedValue n.text)) ∧
      ∀ disk' (members' : Members), ReadsJson program marker disk' file call (.object members') →
        (∀ key ∈ pattern.namedKeys, members'.lookup key = members.lookup key) →
        expand? program marker disk' recording file slot call =
          expand? program marker disk recording file slot call) ∧
    ∀ value, (∀ pattern, ¬ Initializes slot pattern) →
      ReadsJson program marker disk file call value →
      expand? program marker disk recording file slot call =
        outcomeOf recording (Literal.ofValue value) := by
  constructor
  · intro pattern members hpattern hreads
    have hnormal : (Value.object (members.select pattern.namedKeys)).Normal :=
      Members.normal_select hreads.normal _
    have hnumbers : (Value.object (members.select pattern.namedKeys)).numbers =
        (members.select pattern.namedKeys).flatMap fun member => member.2.numbers := by
      rw [Value.numbers, Literal.numbersOfMembers_eq]
    refine ⟨?_, ?_, ?_, ?_⟩
    · intro literal
      rw [expand?_of_pattern recording hpattern hreads, outcomeOf_eq_ok_iff,
        Literal.ofValue_object_eq_ok_iff]
    · rw [expand?_of_pattern recording hpattern hreads, exists_error_outcomeOf,
        Literal.exists_error_iff hnormal, hnumbers]
      simp only [List.mem_flatMap]
      constructor
      · rintro ⟨n, ⟨member, hmember, hn⟩, hinfinite⟩
        exact ⟨member, hmember, n, hn, hinfinite⟩
      · rintro ⟨member, hmember, n, hn, hinfinite⟩
        exact ⟨n, ⟨member, hmember, hn⟩, hinfinite⟩
    · intro failure hfailure
      rw [expand?_of_pattern recording hpattern hreads, outcomeOf_eq_error_iff] at hfailure
      obtain ⟨cause, hcause, rfl⟩ := hfailure
      obtain ⟨n, hn, rfl⟩ := (Literal.ofValue_eq_error_iff_firstInfinite hnormal).mp hcause
      exact ⟨n, hnumbers ▸ hn, rfl⟩
    · intro disk' members' hreads' hagree
      rw [expand?_of_pattern recording hpattern hreads,
        expand?_of_pattern recording hpattern hreads', Members.select_congr hagree]
  · intro value hplain hreads
    exact expand?_of_left hreads (.whole hplain)

end Outcome

/-! ### A declaration that takes a file apart -/

namespace Apart

def call : Node :=
  Small.node 10 .callExpression
    [Small.node 11 (.identifier "json") [], Small.node 12 (.stringLiteral "d.json") []]

def declaration : Node := Small.node 2 .variableDeclaration [Sample.pattern, call]

def program : Program := ⟨[], [(⟨10⟩, ⟨some "$INLINE_JSON", ⟨"inlay//index.d.ts"⟩⟩)], []⟩

def marker : Marker := ⟨⟨"inlay/index.d.ts"⟩⟩

def file : SourceFile :=
  ⟨⟨"main.ts"⟩, "", Small.node 0 .sourceFile [Small.node 1 .variableStatement [declaration]]⟩

/-- An object with a member that has no literal, and two that are read in another order. -/
def content : List UInt8 :=
  [123, 34, 117, 34, 58, 49, 101, 57, 57, 57, 44, 34, 107, 34, 58, 116, 114, 117, 101, 44,
    34, 97, 34, 58, 102, 97, 108, 115, 101, 125]

def disk : Disk := Disk.empty.write ⟨"d.json"⟩ content

def members : Members :=
  [("u", .number ⟨false, ['1'], none, some ⟨false, ['9', '9', '9']⟩⟩), ("k", .bool true),
    ("a", .bool false)]

theorem toList_content : (Utf8.lossy content).toList =
    ['\x7b', '"', 'u', '"', ':', '1', 'e', '9', '9', '9', ',', '"', 'k', '"', ':', 't', 'r',
      'u', 'e', ',', '"', 'a', '"', ':', 'f', 'a', 'l', 's', 'e', '\x7d'] := by
  rfl

theorem decode_content : decode (Utf8.lossy content) = .ok (.object members) := by
  rw [decode, toList_content, Result.mapError_eq_ok_iff]
  simp [readDocument, readValue, skipSpace, isSpace, readMembers, readString, readWord, andThen,
    readNumber, readWhole, readFraction, readExponent, readExponentDigits, Members.ofList,
    Members.insert, List.dropWhile, List.takeWhile, bind, Except.bind, pure, Except.pure,
    Except.map, members]

theorem initializes : Initializes (some ⟨declaration, 1⟩) Sample.pattern :=
  ⟨declaration, rfl, rfl, rfl, rfl⟩

theorem readsJson : ReadsJson program marker disk file call (.object members) where
  function := by rfl
  content := ⟨"d.json", content, ⟨_, rfl, rfl⟩, by rfl, document_of_decode decode_content⟩

end Apart

theorem expand?_destructured_sample :
    Initializes (some ⟨Apart.declaration, 1⟩) Sample.pattern ∧
    ReadsJson Apart.program Apart.marker Apart.disk Apart.file Apart.call (.object Apart.members) ∧
    expand? Apart.program Apart.marker Apart.disk none Apart.file (some ⟨Apart.declaration, 1⟩)
      Apart.call =
      .ok (some (.synthesize .objectLiteralExpression
        [Literal.property "a" (Literal.leaf .falseKeyword),
          Literal.property "k" (Literal.leaf .trueKeyword)])) := by
  refine ⟨Apart.initializes, Apart.readsJson, ?_⟩
  apply ((expand?_destructured none _).1 Sample.pattern Apart.members Apart.initializes
    Apart.readsJson).1 _ |>.mpr
  refine ⟨[("a", Literal.leaf .falseKeyword), ("k", Literal.leaf .trueKeyword)], ?_, rfl⟩
  exact .cons ⟨rfl, by simp [Literal.ofValue]⟩ (.cons ⟨rfl, by simp [Literal.ofValue]⟩ .nil)

end Session

end Transclude
