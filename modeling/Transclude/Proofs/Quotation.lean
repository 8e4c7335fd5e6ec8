/-
  Transclude/Proofs/Quotation.lean
  ================================
  **A quoted text says itself where it ends.**

  Whatever follows a quoted text, the reader takes in the quoted text and no more, and
  gives back the text that was quoted.  So no text can close its own quotes early, and
  no two are quoted alike.

  Nor does a control character get through the quotes.  For the printed form of a tree
  this means that its control characters, among them the newlines that set its lines
  apart, do not depend on the texts of its string literals: there are as many of each
  as in the same tree with all of these texts emptied (`Node.hollow`).
-/
import Mathlib.Data.List.Forall2
import Transclude.Proofs.Text.Quoted
import Transclude.Tree.Printer

namespace Transclude

/-! ### Reading quoted texts -/

theorem toList_quote (text : String) : (quote text).toList = Quoted.chars text.toList := by
  rw [quote, String.toList_ofList]

namespace Json

/-- **The reader of strings stops at the end of a quoted text.** -/
theorem readString_quoted (text rest : List Char) :
    readString (text.flatMap Quoted.escape ++ ['"'] ++ rest) = .ok (text, rest) := by
  rw [List.append_assoc]
  exact readString_of_characters (characters_quoted text) rest

theorem readValue_quote (steps : Nat) (text : String) (rest : List Char) :
    readValue (steps + 1) ((quote text).toList ++ rest) = .ok (.string text, rest) := by
  have hstring := readString_quoted text.toList rest
  have hread : readValue (steps + 1) (Quoted.chars text.toList ++ rest) =
      .ok (.string (String.ofList text.toList), rest) := readValue_string hstring
  rw [toList_quote, hread, String.ofList_toList]

end Json

/-- **Quoted texts with something behind them are equal only in all parts.** -/
theorem quote_append_injective {text text' : String} {rest rest' : List Char}
    (h : (quote text).toList ++ rest = (quote text').toList ++ rest') :
    text = text' ∧ rest = rest' := by
  have hread := Json.readValue_quote 0 text rest
  rw [h, Json.readValue_quote] at hread
  simp only [Except.ok.injEq, Prod.mk.injEq, Json.Value.string.injEq] at hread
  exact ⟨hread.1.symm, hread.2.symm⟩

/-! ### Control characters -/

namespace Quoted

theorem le_toNat_digit {n : Nat} (h : n < 16) : 0x20 ≤ (Hex.digit n).toNat := by
  have hdigit : ∀ n, n < 16 → 0x20 ≤ (Hex.digit n).toNat := by decide
  exact hdigit n h

/-- **No control character stands for a character between quotes.** -/
theorem no_control_escape {c d : Char} (h : d ∈ escape c) : 0x20 ≤ d.toNat := by
  have hshort : ∀ e : Char, 0x20 ≤ e.toNat → d ∈ ['\\', e] → 0x20 ≤ d.toNat := by
    intro e he hd
    simp only [List.mem_cons, List.not_mem_nil, or_false] at hd
    rcases hd with rfl | rfl
    · decide
    · exact he
  unfold escape at h
  split_ifs at h with hquote hbackslash hb hf hn hr ht hcontrol
  · exact hshort '"' (by decide) h
  · exact hshort '\\' (by decide) h
  · exact hshort 'b' (by decide) h
  · exact hshort 'f' (by decide) h
  · exact hshort 'n' (by decide) h
  · exact hshort 'r' (by decide) h
  · exact hshort 't' (by decide) h
  · have hhigh := le_toNat_digit (n := c.toNat / 16) (by omega)
    have hlow := le_toNat_digit (n := c.toNat % 16) (by omega)
    simp only [List.mem_cons, List.not_mem_nil, or_false] at h
    rcases h with rfl | rfl | rfl | rfl | rfl | rfl
    · decide
    · decide
    · decide
    · decide
    · exact hhigh
    · exact hlow
  · rw [List.mem_singleton.mp h]
    omega

end Quoted

theorem no_control_quote {text : String} {c : Char} (h : c ∈ (quote text).toList) :
    0x20 ≤ c.toNat := by
  simp only [toList_quote, Quoted.chars, List.cons_append, List.mem_cons, List.mem_append,
    List.mem_flatMap, List.not_mem_nil, or_false] at h
  rcases h with rfl | ⟨d, -, hd⟩ | rfl
  · decide
  · exact Quoted.no_control_escape hd
  · decide

/-! ### Counting a character in composed texts -/

/-- How often a character stands in a text. -/
def occurrences (c : Char) (text : String) : Nat := text.toList.count c

namespace Printer

variable {c : Char}

@[simp] theorem occurrences_append (text text' : String) :
    occurrences c (text ++ text') = occurrences c text + occurrences c text' := by
  simp only [occurrences, String.toList_append, List.count_append]

/-- Texts in which a character stands as often, one by one. -/
def SameCounts (c : Char) (texts texts' : List String) : Prop :=
  List.Forall₂ (fun text text' => occurrences c text = occurrences c text') texts texts'

/-- The same of texts that may be missing. -/
def SameCount (c : Char) (text text' : Option String) : Prop :=
  text.map (occurrences c) = text'.map (occurrences c)

section

variable {texts texts' : List String} {text text' : Option String}

theorem SameCounts.map_eq (h : SameCounts c texts texts') :
    texts.map (occurrences c) = texts'.map (occurrences c) := by
  rw [← List.forall₂_eq_eq_eq, List.forall₂_map_left_iff, List.forall₂_map_right_iff]
  exact h

theorem SameCounts.getElem? (h : SameCounts c texts texts') (i : Nat) :
    SameCount c texts[i]? texts'[i]? := by
  unfold SameCount
  rw [← List.getElem?_map, ← List.getElem?_map, h.map_eq]

theorem SameCounts.head? (h : SameCounts c texts texts') : SameCount c texts.head? texts'.head? := by
  unfold SameCount
  rw [← List.head?_map, ← List.head?_map, h.map_eq]

theorem SameCounts.getLast? (h : SameCounts c texts texts') :
    SameCount c texts.getLast? texts'.getLast? := by
  unfold SameCount
  rw [← List.getLast?_map, ← List.getLast?_map, h.map_eq]

theorem SameCounts.isEmpty (h : SameCounts c texts texts') : texts.isEmpty = texts'.isEmpty := by
  cases h <;> rfl

theorem SameCounts.tail (h : SameCounts c texts texts') : SameCounts c texts.tail texts'.tail := by
  cases h with
  | nil => exact .nil
  | cons _ htail => exact htail

theorem SameCounts.map_append (h : SameCounts c texts texts') (before : String) :
    SameCounts c (texts.map (before ++ ·)) (texts'.map (before ++ ·)) := by
  unfold SameCounts
  rw [List.forall₂_map_left_iff, List.forall₂_map_right_iff]
  apply List.Forall₂.imp _ h
  intro text text' hsame
  simp only [occurrences_append, hsame]

theorem SameCounts.join (h : SameCounts c texts texts') :
    occurrences c (String.join texts) = occurrences c (String.join texts') := by
  unfold SameCounts at h
  induction h with
  | nil => rfl
  | cons hhead _ ih => simp only [String.join_cons, occurrences_append, hhead, ih]

theorem SameCounts.intercalate (h : SameCounts c texts texts') (separator : String) :
    occurrences c (separator.intercalate texts) = occurrences c (separator.intercalate texts') := by
  unfold SameCounts at h
  induction h with
  | nil => rfl
  | cons hhead htail ih =>
    cases htail with
    | nil => simp only [String.intercalate_singleton, hhead]
    | cons _ _ => simp only [String.intercalate_cons_cons, occurrences_append, hhead, ih]

theorem SameCounts.braced (h : SameCounts c texts texts') :
    occurrences c (braced texts) = occurrences c (braced texts') := by
  unfold Printer.braced
  rw [h.isEmpty]
  split
  · rfl
  · simp only [commaSeparated, occurrences_append, h.intercalate]

theorem SameCount.getD (h : SameCount c text text') :
    occurrences c (text.getD "") = occurrences c (text'.getD "") := by
  cases text <;> cases text' <;> simp_all [SameCount]

theorem SameCount.after (h : SameCount c text text') (before : String) :
    occurrences c (after before text) = occurrences c (after before text') := by
  cases text <;> cases text' <;> simp_all [SameCount, Printer.after]

theorem SameCount.before (h : SameCount c text text') (behind : String) :
    occurrences c (before text behind) = occurrences c (before text' behind) := by
  cases text <;> cases text' <;> simp_all [SameCount, Printer.before]

end

end Printer

/-! ### Trees with their string literals emptied -/

def Kind.hollow : Kind → Kind
  | .stringLiteral _ => .stringLiteral ""
  | kind => kind

mutual

/-- A tree with the texts of all its string literals emptied. -/
def Node.hollow : Node → Node
  | ⟨id, kind, span, children⟩ => ⟨id, kind.hollow, span, hollowAll children⟩

def hollowAll : List Node → List Node
  | [] => []
  | n :: rest => n.hollow :: hollowAll rest

end

theorem Kind.hollow_eq_importClause_iff (kind : Kind) :
    kind.hollow = .importClause ↔ kind = .importClause := by
  cases kind <;> simp [Kind.hollow]

theorem Node.kind_hollow (n : Node) : n.hollow.kind = n.kind.hollow := by
  cases n
  rw [Node.hollow]

/-- An import is printed with its clause whatever its string literals are. -/
theorem startsWithClause_hollow (children : List Node) :
    (hollowAll children).head?.any (fun child => decide (child.kind = .importClause)) =
      children.head?.any fun child => decide (child.kind = .importClause) := by
  cases children with
  | nil => rfl
  | cons child rest =>
    simp only [hollowAll, List.head?_cons, Option.any_some, Node.kind_hollow,
      Kind.hollow_eq_importClause_iff]

/-- A control character that is printed at a node does not come from its string literals. -/
theorem occurrences_compose {c : Char} (hc : c.toNat < 0x20) (kind : Kind) (children : List Node)
    {texts texts' : List String} (h : Printer.SameCounts c texts texts') :
    occurrences c (Printer.compose kind children texts) =
      occurrences c (Printer.compose kind.hollow (hollowAll children) texts') := by
  have hquote : ∀ text, occurrences c (quote text) = 0 := by
    intro text
    apply List.count_eq_zero.mpr
    intro hmem
    have hcontrol := no_control_quote hmem
    omega
  cases kind with
  | stringLiteral value => simp only [Kind.hollow, Printer.compose, hquote]
  | sourceFile => exact h.intercalate _
  | propertyAccessExpression => exact h.intercalate _
  | importClause => exact h.intercalate _
  | importSpecifier => exact h.intercalate _
  | propertyAssignment => exact h.intercalate _
  | block | variableStatement | objectBindingPattern | arrayBindingPattern
  | arrayLiteralExpression =>
    simp only [Kind.hollow, Printer.compose, Printer.commaSeparated, Printer.occurrences_append,
      h.intercalate]
  | namedImports => exact h.braced
  | objectLiteralExpression => exact h.braced
  | expressionStatement | namespaceImport | prefixUnaryExpression | computedPropertyName =>
    simp only [Kind.hollow, Printer.compose, Printer.occurrences_append, h.join]
  | variableDeclaration =>
    simp only [Kind.hollow, Printer.compose, Printer.occurrences_append, (h.getElem? 0).getD,
      (h.getElem? 1).after]
  | bindingElement propertyName =>
    cases propertyName with
    | false =>
      simp only [Kind.hollow, Printer.compose, Printer.occurrences_append, (h.getElem? 0).getD,
        (h.getElem? 1).after]
    | true =>
      simp only [Kind.hollow, Printer.compose, Printer.occurrences_append, (h.getElem? 0).before,
        (h.getElem? 1).getD, (h.getElem? 2).after]
  | returnStatement =>
    simp only [Kind.hollow, Printer.compose, h.isEmpty]
    split
    · rfl
    · simp only [Printer.occurrences_append, h.join]
  | callExpression =>
    simp only [Kind.hollow, Printer.compose, Printer.commaSeparated, Printer.occurrences_append,
      h.head?.getD, h.tail.intercalate]
  | importDeclaration =>
    simp only [Kind.hollow, Printer.compose, Printer.occurrences_append, startsWithClause_hollow,
      h.getLast?.getD]
    split
    · rw [h.head?.before]
    · rfl
  | other tag =>
    simp only [Kind.hollow, Printer.compose, Printer.occurrences_append, (h.map_append " ").join]
  | identifier | numericLiteral | trueKeyword | falseKeyword | nullKeyword => rfl

mutual

/-- **Control characters of a printed tree do not come from its string literals.** -/
theorem Node.occurrences_print {c : Char} (hc : c.toNat < 0x20) :
    ∀ n : Node, occurrences c n.print = occurrences c n.hollow.print
  | ⟨_, kind, _, children⟩ => by
    rw [Node.hollow, Node.print, Node.print]
    exact occurrences_compose hc kind children (sameCounts_printAll hc children)

theorem sameCounts_printAll {c : Char} (hc : c.toNat < 0x20) :
    ∀ nodes : List Node, Printer.SameCounts c (printAll nodes) (printAll (hollowAll nodes))
  | [] => .nil
  | n :: rest => .cons (n.occurrences_print hc) (sameCounts_printAll hc rest)

end

/-- **A quoted text says itself where it ends.**  Whatever follows it, the reader takes in the
    quoted text alone and gives back the text; so quoting is one-to-one, also when more follows.
    No control character is in it, so that texts in string literals have no part in the lines
    of a printed tree. -/
theorem quote_delimits_itself :
    (∀ (text : String) (rest : List Char), ∃ inner, (quote text).toList = '"' :: inner
      ∧ Json.readString (inner ++ rest) = .ok (text.toList, rest))
    ∧ (∀ (steps : Nat) (text : String) (rest : List Char),
      Json.readValue (steps + 1) ((quote text).toList ++ rest) = .ok (.string text, rest))
    ∧ (∀ text : String, ∀ c ∈ (quote text).toList, 0x20 ≤ c.toNat)
    ∧ (∀ (text text' : String) (rest rest' : List Char),
      (quote text).toList ++ rest = (quote text').toList ++ rest' → text = text' ∧ rest = rest')
    ∧ Function.Injective quote
    ∧ (∀ (tree : Node) (c : Char), c.toNat < 0x20 →
      tree.print.toList.count c = tree.hollow.print.toList.count c) := by
  refine ⟨?_, Json.readValue_quote, fun _ _ => no_control_quote,
    fun _ _ _ _ => quote_append_injective, ?_, ?_⟩
  · intro text rest
    refine ⟨text.toList.flatMap Quoted.escape ++ ['"'], ?_, Json.readString_quoted _ rest⟩
    rw [toList_quote]
    rfl
  · intro text text' h
    have hwhole : (quote text).toList ++ [] = (quote text').toList ++ [] := by rw [h]
    exact (quote_append_injective hwhole).1
  · intro tree c hc
    exact tree.occurrences_print hc

end Transclude
