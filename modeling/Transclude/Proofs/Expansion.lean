/-
  Transclude/Proofs/Expansion.lean
  ================================
  **What one call stands for, and how it can fail.**

  Two relations say what the outcome of a call of a declared function is, without
  saying how it is found:

    * `StandsFor`: the literal, from the file that the first argument names and
      from the declaration that the call initializes;
    * `FailsWith`: the cause of the failure.  Each rule carries the negation of
      the rules before it, so the order in which causes are looked for is part of
      the relation: argument, read, function, document, shape, number.

  The rules speak of the grammar of documents (`Json.Document`), of the keys that a
  pattern names (`Node.namedKeys`) and of the values of numbers (`Number.Finite`), not
  of the functions by which these are found.  `ofCall_eq_ok_iff` and
  `ofCall_eq_error_iff` say that a call has exactly the outcomes that the relations
  give it.
-/
import Transclude.Expansion
import Transclude.Proofs.Destructuring
import Transclude.Proofs.LiteralTree

namespace Transclude.Expansion

/-! ### The parts of a call that matter -/

/-- The first argument of a call is a string literal with the given text. -/
def FirstArgument (call : Node) (text : String) : Prop :=
  ∃ argument, call.arguments.head? = some argument ∧ argument.kind = .stringLiteral text

/-- The node at a slot initializes a declaration that takes it apart by an object pattern. -/
def Initializes (slot : Option Slot) (pattern : Node) : Prop :=
  ∃ declaration, slot = some ⟨declaration, 1⟩ ∧ declaration.kind = .variableDeclaration
    ∧ declaration.children.head? = some pattern ∧ pattern.kind = .objectBindingPattern

/-- What is left of the value of a file for a node at a slot: all of it, or the members
    that the pattern of the declaration names.  Nothing is left of a value that a
    pattern cannot take apart. -/
inductive Left (slot : Option Slot) : Json.Value → Json.Value → Prop
  | whole {value : Json.Value} (plain : ∀ pattern, ¬ Initializes slot pattern) :
      Left slot value value
  | members {pattern : Node} {members : Json.Members} (apart : Initializes slot pattern) :
      Left slot (.object members) (.object (members.select pattern.namedKeys))
  | null {pattern : Node} (apart : Initializes slot pattern) : Left slot .null .null

theorem Left.normal {slot : Option Slot} {value left : Json.Value} (h : Left slot value left)
    (hvalue : value.Normal) : left.Normal := by
  cases h with
  | whole => exact hvalue
  | members => exact Json.Members.normal_select hvalue _
  | null => exact hvalue

/-! ### The two relations -/

/-- The literal that a call of a function stands for. -/
inductive StandsFor (disk : Disk) (file : SourceFile) (slot : Option Slot) (call : Node) :
    String → Node → Prop
  | file {text : String} {bytes : List UInt8} (argument : FirstArgument call text)
      (read : disk.read (file.directory.join ⟨text⟩) = .ok bytes) :
      StandsFor disk file slot call "$INLINE_FILE"
        ⟨.dummy, .stringLiteral (Utf8.lossy bytes), .dummy, []⟩
  | json {text : String} {bytes : List UInt8} {value left : Json.Value} {literal : Node}
      (argument : FirstArgument call text)
      (read : disk.read (file.directory.join ⟨text⟩) = .ok bytes)
      (document : Json.Document (Utf8.lossy bytes).toList value)
      (narrowed : Left slot value left) (encoded : Literal.ofValue left = .ok literal) :
      StandsFor disk file slot call "$INLINE_JSON" literal

/-- The cause for which a call of a function fails. -/
inductive FailsWith (disk : Disk) (file : SourceFile) (slot : Option Slot) (call : Node) :
    String → Cause → Prop
  | invalidArgument {function : String} (none : ∀ text, ¬ FirstArgument call text) :
      FailsWith disk file slot call function (.invalidArgument function)
  | io {function text : String} {reason : ReadError} (argument : FirstArgument call text)
      (unread : disk.read (file.directory.join ⟨text⟩) = .error reason) :
      FailsWith disk file slot call function (.io (file.directory.join ⟨text⟩) reason)
  | unknownFunction {function text : String} {bytes : List UInt8}
      (argument : FirstArgument call text)
      (read : disk.read (file.directory.join ⟨text⟩) = .ok bytes)
      (notFile : function ≠ "$INLINE_FILE") (notJson : function ≠ "$INLINE_JSON") :
      FailsWith disk file slot call function (.unknownFunction function)
  | malformedData {text : String} {bytes : List UInt8} {fault : Json.Fault}
      (argument : FirstArgument call text)
      (read : disk.read (file.directory.join ⟨text⟩) = .ok bytes)
      (malformed : ∀ value, ¬ Json.Document (Utf8.lossy bytes).toList value)
      (reported : Json.decode (Utf8.lossy bytes) = .error fault) :
      FailsWith disk file slot call "$INLINE_JSON"
        (.malformedData (file.directory.join ⟨text⟩) fault)
  | typeMismatch {text : String} {bytes : List UInt8} {value : Json.Value} {pattern : Node}
      (argument : FirstArgument call text)
      (read : disk.read (file.directory.join ⟨text⟩) = .ok bytes)
      (document : Json.Document (Utf8.lossy bytes).toList value)
      (apart : Initializes slot pattern)
      (notObject : value.shape ≠ .object) (notNull : value.shape ≠ .null) :
      FailsWith disk file slot call "$INLINE_JSON" (.typeMismatch text value.shape)
  | unsupportedValue {text : String} {bytes : List UInt8} {value left : Json.Value}
      {number : Json.Number} (argument : FirstArgument call text)
      (read : disk.read (file.directory.join ⟨text⟩) = .ok bytes)
      (document : Json.Document (Utf8.lossy bytes).toList value)
      (narrowed : Left slot value left)
      (first : Json.Number.FirstInfinite left.numbers number) :
      FailsWith disk file slot call "$INLINE_JSON" (.unsupportedValue number.text)

/-! ### What the functions on the way compute -/

theorem argument?_eq_some_iff {call : Node} {text : String} :
    argument? call = some text ↔ FirstArgument call text := by
  rw [argument?, Option.bind_eq_some_iff]
  constructor
  · rintro ⟨argument, hargument, htext⟩
    refine ⟨argument, hargument, ?_⟩
    unfold Node.string? at htext
    split at htext
    · next value hkind =>
      cases htext
      exact hkind
    · cases htext
  · rintro ⟨argument, hargument, hkind⟩
    refine ⟨argument, hargument, ?_⟩
    unfold Node.string?
    rw [hkind]

theorem argument?_eq_none_iff {call : Node} :
    argument? call = none ↔ ∀ text, ¬ FirstArgument call text := by
  rw [Option.eq_none_iff_forall_ne_some]
  constructor
  · intro h text hargument
    exact h text (argument?_eq_some_iff.mpr hargument)
  · intro h text hargument
    exact h text (argument?_eq_some_iff.mp hargument)

/-- The pattern that a declaration takes its value apart by. -/
theorem ofSlot?_of_initializes {slot : Option Slot} {pattern : Node}
    (h : Initializes slot pattern) :
    Pattern.ofSlot? slot = some ⟨pattern.children.map Binding.ofNode⟩ := by
  obtain ⟨declaration, rfl, hdeclaration, hpattern, hkind⟩ := h
  simp only [Pattern.ofSlot?, Node.declarationName?, hdeclaration, and_self, if_true, hpattern,
    Option.bind_some, Pattern.ofNode?, hkind]

theorem exists_initializes {slot : Option Slot} {found : Pattern}
    (h : Pattern.ofSlot? slot = some found) :
    ∃ pattern, Initializes slot pattern ∧ found = ⟨pattern.children.map Binding.ofNode⟩ := by
  unfold Pattern.ofSlot? at h
  split at h
  · cases h
  · next place =>
    split at h
    · next hplace =>
      obtain ⟨pattern, hpattern, hfound⟩ := Option.bind_eq_some_iff.mp h
      simp only [Node.declarationName?, hplace.1] at hpattern
      unfold Pattern.ofNode? at hfound
      split at hfound
      · next hkind =>
        cases hfound
        refine ⟨pattern, ⟨place.parent, ?_, hplace.1, hpattern, hkind⟩, rfl⟩
        rw [← hplace.2]
      · cases hfound
    · cases h

theorem ofSlot?_eq_none_iff {slot : Option Slot} :
    Pattern.ofSlot? slot = none ↔ ∀ pattern, ¬ Initializes slot pattern := by
  constructor
  · intro h pattern hpattern
    rw [ofSlot?_of_initializes hpattern] at h
    cases h
  · intro h
    rw [Option.eq_none_iff_forall_ne_some]
    intro found hfound
    obtain ⟨pattern, hpattern, -⟩ := exists_initializes hfound
    exact h pattern hpattern

theorem narrow_eq_ok_iff {text : String} {slot : Option Slot} {value left : Json.Value} :
    narrow text (Pattern.ofSlot? slot) value = .ok left ↔ Left slot value left := by
  constructor
  · intro h
    cases hslot : Pattern.ofSlot? slot with
    | none =>
      rw [hslot, narrow] at h
      cases h
      exact .whole (ofSlot?_eq_none_iff.mp hslot)
    | some found =>
      obtain ⟨pattern, hpattern, rfl⟩ := exists_initializes hslot
      rw [hslot] at h
      cases value with
      | null =>
        rw [narrow] at h
        cases h
        exact .null hpattern
      | object members =>
        rw [narrow, Pattern.restrict_eq] at h
        cases h
        exact .members hpattern
      | bool | number | string | array => simp [narrow] at h
  · intro h
    cases h with
    | whole hplain =>
      rw [ofSlot?_eq_none_iff.mpr hplain, narrow]
    | members hpattern =>
      rw [ofSlot?_of_initializes hpattern, narrow, Pattern.restrict_eq]
    | null hpattern =>
      rw [ofSlot?_of_initializes hpattern, narrow]

theorem narrow_eq_error_iff {text : String} {slot : Option Slot} {value : Json.Value}
    {cause : Cause} :
    narrow text (Pattern.ofSlot? slot) value = .error cause ↔
      (∃ pattern, Initializes slot pattern) ∧ value.shape ≠ .object ∧ value.shape ≠ .null
        ∧ cause = .typeMismatch text value.shape := by
  constructor
  · intro h
    cases hslot : Pattern.ofSlot? slot with
    | none =>
      rw [hslot, narrow] at h
      cases h
    | some found =>
      obtain ⟨pattern, hpattern, -⟩ := exists_initializes hslot
      refine ⟨⟨pattern, hpattern⟩, ?_⟩
      rw [hslot] at h
      cases value with
      | null | object => simp [narrow] at h
      | bool | number | string | array =>
        simp only [narrow, Except.error.injEq] at h
        simp only [Json.Value.shape, ← h, ne_eq, reduceCtorEq, not_false_eq_true, and_self]
  · rintro ⟨⟨pattern, hpattern⟩, hobject, hnull, rfl⟩
    rw [ofSlot?_of_initializes hpattern]
    cases value with
    | null => exact absurd rfl hnull
    | object => exact absurd rfl hobject
    | bool | number | string | array => rw [narrow] <;> simp

/-! ### A call has exactly the outcomes that the relations give it -/

theorem ofName?_eq_none_iff {function : String} :
    Directive.ofName? function = none ↔
      function ≠ Directive.file.name ∧ function ≠ Directive.json.name := by
  unfold Directive.ofName?
  by_cases hfile : function = Directive.file.name
  · simp [hfile]
  · rw [if_neg hfile]
    by_cases hjson : function = Directive.json.name
    · simp [hjson]
    · simp [hfile, hjson]

theorem eq_name_of_ofName? {function : String} {directive : Directive}
    (h : Directive.ofName? function = some directive) : function = directive.name := by
  unfold Directive.ofName? at h
  split at h
  · next hfile =>
    cases h
    exact hfile
  · split at h
    · next hjson =>
      cases h
      exact hjson
    · cases h

/-- What the call computes once its file has been read. -/
def ofContent (text : String) (path : Path) (slot : Option Slot) (function : String)
    (content : String) : Except Cause Node :=
  match Directive.ofName? function with
  | some .file => .ok (Literal.string content)
  | some .json => ofJson text path (Pattern.ofSlot? slot) content
  | none => .error (.unknownFunction function)

theorem ofCall_eq_ofContent {disk : Disk} {file : SourceFile} {function text : String}
    {slot : Option Slot} {call : Node} {bytes : List UInt8} (argument : FirstArgument call text)
    (read : disk.read (file.directory.join ⟨text⟩) = .ok bytes) :
    ofCall disk file function slot call =
      ofContent text (file.directory.join ⟨text⟩) slot function (Utf8.lossy bytes) := by
  unfold ofCall
  rw [argument?_eq_some_iff.mpr argument]
  simp only [read]
  rfl

theorem ofJson_eq_ok_iff {text : String} {path : Path} {slot : Option Slot} {content : String}
    {literal : Node} :
    ofJson text path (Pattern.ofSlot? slot) content = .ok literal ↔
      ∃ value left, Json.Document content.toList value ∧ Left slot value left
        ∧ Literal.ofValue left = .ok literal := by
  simp only [ofJson, Result.bind_eq_ok_iff, Result.mapError_eq_ok_iff, narrow_eq_ok_iff]
  constructor
  · rintro ⟨value, hdecode, left, hleft, hencoded⟩
    exact ⟨value, left, Json.document_of_decode hdecode, hleft, hencoded⟩
  · rintro ⟨value, left, hdocument, hleft, hencoded⟩
    exact ⟨value, Json.decode_of_document hdocument, left, hleft, hencoded⟩

/-- A text that is refused is no document. -/
theorem not_document {content : String} {fault : Json.Fault}
    (h : Json.decode content = .error fault) (value : Json.Value) :
    ¬ Json.Document content.toList value := by
  intro hdocument
  rw [Json.decode_of_document hdocument] at h
  cases h

/-- What is left of a document fails to be encoded at its first number without a finite
    double. -/
theorem ofValue_left_eq_error_iff {chars : List Char} {slot : Option Slot} {value left : Json.Value}
    {cause : Cause} (hdocument : Json.Document chars value) (hleft : Left slot value left) :
    Literal.ofValue left = .error cause ↔
      ∃ number, Json.Number.FirstInfinite left.numbers number
        ∧ cause = .unsupportedValue number.text := by
  apply Literal.ofValue_eq_error_iff_firstInfinite
  exact hleft.normal hdocument.normal

/-- A JSON file fails for its text, for its shape or for a number, in this order. -/
theorem ofJson_eq_error_iff {text : String} {path : Path} {slot : Option Slot} {content : String}
    {cause : Cause} :
    ofJson text path (Pattern.ofSlot? slot) content = .error cause ↔
      (∃ fault, Json.decode content = .error fault ∧ cause = .malformedData path fault) ∨
      ∃ value, Json.Document content.toList value ∧
        (((∃ pattern, Initializes slot pattern) ∧ value.shape ≠ .object ∧ value.shape ≠ .null
            ∧ cause = .typeMismatch text value.shape) ∨
          ∃ left number, Left slot value left ∧ Json.Number.FirstInfinite left.numbers number
            ∧ cause = .unsupportedValue number.text) := by
  simp only [ofJson, Result.bind_eq_error_iff, Result.mapError_eq_error_iff,
    Result.mapError_eq_ok_iff, narrow_eq_ok_iff, narrow_eq_error_iff]
  constructor
  · rintro (⟨fault, hfault, rfl⟩ | ⟨value, hvalue, hshape | ⟨left, hleft, hencoded⟩⟩)
    · exact .inl ⟨fault, hfault, rfl⟩
    · exact .inr ⟨value, Json.document_of_decode hvalue, .inl hshape⟩
    · have hdocument := Json.document_of_decode hvalue
      obtain ⟨number, hnumber⟩ := (ofValue_left_eq_error_iff hdocument hleft).mp hencoded
      exact .inr ⟨value, hdocument, .inr ⟨left, number, hleft, hnumber⟩⟩
  · rintro (⟨fault, hfault, rfl⟩ | ⟨value, hdocument, hshape | ⟨left, number, hleft, hnumber⟩⟩)
    · exact .inl ⟨fault, hfault, rfl⟩
    · exact .inr ⟨value, Json.decode_of_document hdocument, .inl hshape⟩
    · have hencoded := (ofValue_left_eq_error_iff hdocument hleft).mpr ⟨number, hnumber⟩
      exact .inr ⟨value, Json.decode_of_document hdocument, .inr ⟨left, hleft, hencoded⟩⟩

variable {disk : Disk} {file : SourceFile} {slot : Option Slot} {call : Node} {function : String}

/-- **A call has a literal exactly where the rules give it one.** -/
theorem ofCall_eq_ok_iff {literal : Node} :
    ofCall disk file function slot call = .ok literal ↔
      StandsFor disk file slot call function literal := by
  constructor
  · intro h
    cases hargument : argument? call with
    | none =>
      rw [ofCall, hargument] at h
      cases h
    | some text =>
      have hfirst := argument?_eq_some_iff.mp hargument
      cases hread : disk.read (file.directory.join ⟨text⟩) with
      | error reason =>
        simp only [ofCall, hargument, hread] at h
        cases h
      | ok bytes =>
        rw [ofCall_eq_ofContent hfirst hread, ofContent] at h
        split at h
        · next hname =>
          cases h
          rw [eq_name_of_ofName? hname]
          exact .file hfirst hread
        · next hname =>
          obtain ⟨value, left, hdocument, hleft, hencoded⟩ := ofJson_eq_ok_iff.mp h
          rw [eq_name_of_ofName? hname]
          exact .json hfirst hread hdocument hleft hencoded
        · cases h
  · intro h
    cases h with
    | file hfirst hread =>
      rw [ofCall_eq_ofContent hfirst hread]
      rfl
    | json hfirst hread hdocument hleft hencoded =>
      rw [ofCall_eq_ofContent hfirst hread]
      exact ofJson_eq_ok_iff.mpr ⟨_, _, hdocument, hleft, hencoded⟩

/-- **A call fails exactly as the rules say, for the first of the causes that apply.** -/
theorem ofCall_eq_error_iff {cause : Cause} :
    ofCall disk file function slot call = .error cause ↔
      FailsWith disk file slot call function cause := by
  constructor
  · intro h
    cases hargument : argument? call with
    | none =>
      rw [ofCall, hargument] at h
      cases h
      exact .invalidArgument (argument?_eq_none_iff.mp hargument)
    | some text =>
      have hfirst := argument?_eq_some_iff.mp hargument
      cases hread : disk.read (file.directory.join ⟨text⟩) with
      | error reason =>
        rw [ofCall, hargument] at h
        simp only [hread] at h
        cases h
        exact .io hfirst hread
      | ok bytes =>
        rw [ofCall_eq_ofContent hfirst hread, ofContent] at h
        split at h
        · cases h
        · next hname =>
          rw [eq_name_of_ofName? hname]
          rcases ofJson_eq_error_iff.mp h with
            ⟨fault, hfault, rfl⟩ | ⟨value, hvalue, hshape | ⟨left, number, hleft, hnumber, rfl⟩⟩
          · exact .malformedData hfirst hread (not_document hfault) hfault
          · obtain ⟨⟨pattern, hpattern⟩, hobject, hnull, rfl⟩ := hshape
            exact .typeMismatch hfirst hread hvalue hpattern hobject hnull
          · exact .unsupportedValue hfirst hread hvalue hleft hnumber
        · next hname =>
          cases h
          obtain ⟨hfile, hjson⟩ := ofName?_eq_none_iff.mp hname
          exact .unknownFunction hfirst hread hfile hjson
  · intro h
    cases h with
    | invalidArgument hnone => rw [ofCall, argument?_eq_none_iff.mpr hnone]
    | io hfirst hread =>
      rw [ofCall, argument?_eq_some_iff.mpr hfirst]
      simp only [hread]
      rfl
    | unknownFunction hfirst hread hfile hjson =>
      rw [ofCall_eq_ofContent hfirst hread, ofContent, ofName?_eq_none_iff.mpr ⟨hfile, hjson⟩]
    | malformedData hfirst hread hmalformed hfault =>
      rw [ofCall_eq_ofContent hfirst hread]
      exact ofJson_eq_error_iff.mpr (.inl ⟨_, hfault, rfl⟩)
    | typeMismatch hfirst hread hvalue hpattern hobject hnull =>
      rw [ofCall_eq_ofContent hfirst hread]
      exact ofJson_eq_error_iff.mpr
        (.inr ⟨_, hvalue, .inl ⟨⟨_, hpattern⟩, hobject, hnull, rfl⟩⟩)
    | unsupportedValue hfirst hread hvalue hleft hnumber =>
      rw [ofCall_eq_ofContent hfirst hread]
      exact ofJson_eq_error_iff.mpr (.inr ⟨_, hvalue, .inr ⟨_, _, hleft, hnumber, rfl⟩⟩)

/-- What a call stands for is built of the kinds of literals only. -/
theorem StandsFor.isLiteral {literal : Node} (h : StandsFor disk file slot call function literal) :
    literal.IsLiteral := by
  cases h with
  | file => exact Literal.isLiteral_leaf rfl
  | json _ _ _ _ hencoded => exact Literal.isLiteral_ofValue _ _ hencoded

end Transclude.Expansion
