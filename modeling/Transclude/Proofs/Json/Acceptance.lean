/-
  Transclude/Proofs/Json/Acceptance.lean
  ======================================
  **What is read is a document, and every document is read.**

  The readers of values, items and members hand each other ever fewer steps.  What
  they accept is a spelling of what they give back, by induction on the steps; every
  spelling is accepted with as many steps as it has characters, by induction on how
  it was derived.  Together they say that the texts that are read are the documents
  of the grammar, whatever the depth, each as what it denotes
  (`decode_eq_ok_iff_document`).
-/
import Transclude.Proofs.Json.Spelling

namespace Transclude.Json

/-! ### What is read is spelled -/

/-- The values that are read in so many steps are spelled by what was taken in, behind
    space. -/
def ValuesSpelled (steps : Nat) : Prop :=
  ∀ ⦃chars v rest⦄, readValue steps chars = .ok (v, rest) →
    ∃ space body, Space space ∧ Denotes body v ∧ chars = space ++ (body ++ rest)

def ItemsSpelled (steps : Nat) : Prop :=
  ∀ ⦃chars items rest⦄, readItems steps chars = .ok (items, rest) →
    ∃ space body space', Space space ∧ DenotesItems body items ∧ Space space'
      ∧ chars = space ++ (body ++ (space' ++ ']' :: rest))

def MembersSpelled (steps : Nat) : Prop :=
  ∀ ⦃chars members rest⦄, readMembers steps chars = .ok (members, rest) →
    ∃ body space', DenotesEntries body members ∧ Space space'
      ∧ chars = body ++ (space' ++ '\x7d' :: rest)

theorem valuesSpelled_succ {steps : Nat} (hitems : ItemsSpelled steps)
    (hmembers : MembersSpelled steps) : ValuesSpelled (steps + 1) := by
  intro chars v rest h
  obtain ⟨space, hspace, hchars⟩ := exists_space chars
  rw [hchars]
  rw [readValue] at h
  split at h
  · cases h
  · next heq =>
    obtain ⟨rfl, rfl⟩ := readWord_spelled h
    exact ⟨space, _, hspace, .null, by rw [heq]; rfl⟩
  · next heq =>
    obtain ⟨rfl, rfl⟩ := readWord_spelled h
    exact ⟨space, _, hspace, .wordTrue, by rw [heq]; rfl⟩
  · next heq =>
    obtain ⟨rfl, rfl⟩ := readWord_spelled h
    exact ⟨space, _, hspace, .wordFalse, by rw [heq]; rfl⟩
  · next heq =>
    obtain ⟨⟨n, rest'⟩, hn, hv⟩ := Result.bind_eq_ok_iff.mp h
    cases hv
    obtain ⟨body, hbody, hnumeral⟩ := readNumber_spelled .minus hn
    exact ⟨space, body, hspace, .number hnumeral, by rw [heq, ← hbody]; rfl⟩
  · next heq =>
    obtain ⟨⟨text, rest'⟩, htext, hv⟩ := Result.bind_eq_ok_iff.mp h
    cases hv
    obtain ⟨spelled, rfl, hspelled⟩ := readString_spelled htext
    exact ⟨space, _, hspace, .string hspelled, by rw [heq]; simp⟩
  · next inner heq =>
    obtain ⟨space₁, hspace₁, hinner⟩ := exists_space inner
    rw [heq, hinner]
    split at h
    · cases h
    · next hclose =>
      cases h
      exact ⟨space, _, hspace, .emptyArray hspace₁, by rw [hclose]; simp⟩
    · obtain ⟨⟨items, rest'⟩, hread, hv⟩ := Result.bind_eq_ok_iff.mp h
      cases hv
      obtain ⟨space₂, body, space₃, hspace₂, hbody, hspace₃, hall⟩ := hitems hread
      exact ⟨space, _, hspace, .array (hspace₁.append hspace₂) hbody hspace₃, by rw [hall]; simp⟩
  · next inner heq =>
    obtain ⟨space₁, hspace₁, hinner⟩ := exists_space inner
    rw [heq, hinner]
    split at h
    · cases h
    · next hclose =>
      cases h
      exact ⟨space, _, hspace, .emptyObject hspace₁, by rw [hclose]; simp⟩
    · obtain ⟨⟨members, rest'⟩, hread, hv⟩ := Result.bind_eq_ok_iff.mp h
      cases hv
      obtain ⟨body, space₂, hbody, hspace₂, hall⟩ := hmembers hread
      exact ⟨space, _, hspace, .object hspace₁ hbody hspace₂ (settled_ofList members),
        by rw [hall]; simp⟩
  · next c inner _ _ _ _ _ _ _ heq =>
    split at h
    · obtain ⟨⟨n, rest'⟩, hn, hv⟩ := Result.bind_eq_ok_iff.mp h
      cases hv
      obtain ⟨body, hbody, hnumeral⟩ := readNumber_spelled .absent hn
      exact ⟨space, body, hspace, .number hnumeral, by rw [heq, ← hbody]; rfl⟩
    · cases h

theorem itemsSpelled_succ {steps : Nat} (hvalues : ValuesSpelled steps)
    (hitems : ItemsSpelled steps) : ItemsSpelled (steps + 1) := by
  intro chars items rest h
  rw [readItems] at h
  obtain ⟨⟨first, rest₁⟩, hfirst, hnext⟩ := Result.bind_eq_ok_iff.mp h
  obtain ⟨space, body, hspace, hbody, rfl⟩ := hvalues hfirst
  obtain ⟨space₁, hspace₁, hrest₁⟩ := exists_space rest₁
  rw [hrest₁]
  simp only at hnext
  split at hnext
  · cases hnext
  · next hclose =>
    cases hnext
    exact ⟨space, body, space₁, hspace, .one hbody, hspace₁, by rw [hclose]⟩
  · next rest₂ hcomma =>
    obtain ⟨space₂, hspace₂, hrest₂⟩ := exists_space rest₂
    split at hnext
    · cases hnext
    · obtain ⟨⟨others, rest₃⟩, hothers, hlist⟩ := Result.bind_eq_ok_iff.mp hnext
      cases hlist
      obtain ⟨space₃, more, space₄, hspace₃, hmore, hspace₄, hall⟩ := hitems hothers
      refine ⟨space, _, space₄, hspace, .more hbody hspace₁ (hspace₂.append hspace₃) hmore,
        hspace₄, ?_⟩
      rw [hcomma, hrest₂, hall]
      simp
  · cases hnext

theorem membersSpelled_succ {steps : Nat} (hvalues : ValuesSpelled steps)
    (hmembers : MembersSpelled steps) : MembersSpelled (steps + 1) := by
  intro chars members rest h
  unfold readMembers at h
  split at h
  · cases h
  · next heq =>
    cases heq
    obtain ⟨⟨key, rest₁⟩, hkey, hnext⟩ := Result.bind_eq_ok_iff.mp h
    obtain ⟨spelled, rfl, hspelled⟩ := readString_spelled hkey
    obtain ⟨space₁, hspace₁, hrest₁⟩ := exists_space rest₁
    rw [hrest₁]
    simp only at hnext
    split at hnext
    · cases hnext
    · next hcolon =>
      obtain ⟨⟨value, rest₃⟩, hvalue, hlast⟩ := Result.bind_eq_ok_iff.mp hnext
      obtain ⟨space₂, body, hspace₂, hbody, rfl⟩ := hvalues hvalue
      have hentry := DenotesEntry.entry hspelled hspace₁ hspace₂ hbody
      obtain ⟨space₃, hspace₃, hrest₃⟩ := exists_space rest₃
      rw [hcolon, hrest₃]
      simp only at hlast
      split at hlast
      · cases hlast
      · next hclose =>
        cases hlast
        exact ⟨_, space₃, .one hentry, hspace₃, by rw [hclose]; simp⟩
      · next rest₄ hcomma =>
        obtain ⟨space₄, hspace₄, hrest₄⟩ := exists_space rest₄
        split at hlast
        · cases hlast
        · cases hlast
        · obtain ⟨⟨others, rest₅⟩, hothers, hlist⟩ := Result.bind_eq_ok_iff.mp hlast
          cases hlist
          obtain ⟨more, space₅, hmore, hspace₅, hall⟩ := hmembers hothers
          refine ⟨_, space₅, .more hentry hspace₃ hspace₄ hmore, hspace₅, ?_⟩
          rw [hcomma, hrest₄, hall]
          simp
      · cases hlast
    · cases hnext
  · cases h

theorem spelled_read (steps : Nat) :
    ValuesSpelled steps ∧ ItemsSpelled steps ∧ MembersSpelled steps := by
  induction steps with
  | zero =>
    refine ⟨?_, ?_, ?_⟩
    · intro chars v rest h
      rw [readValue] at h
      cases h
    · intro chars items rest h
      rw [readItems] at h
      cases h
    · intro chars members rest h
      rw [readMembers] at h
      cases h
  | succ steps ih =>
    obtain ⟨hvalues, hitems, hmembers⟩ := ih
    exact ⟨valuesSpelled_succ hitems hmembers, itemsSpelled_succ hvalues hitems,
      membersSpelled_succ hvalues hmembers⟩

/-! ### How a spelling starts -/

theorem Numeral.head {body : List Char} {n : Number} (h : Numeral body n) :
    ∃ c chars, body = c :: chars ∧ isSpace c = false ∧ c ≠ ']' := by
  obtain ⟨negative, digits, fraction, exponent⟩ := n
  cases h with
  | spelled hsign hwhole _ _ _ _ =>
    cases hsign with
    | minus => exact ⟨'-', _, rfl, by decide⟩
    | absent =>
      obtain ⟨c, chars, rfl, hc⟩ := hwhole.head
      exact ⟨c, _, rfl, isSpace_of_isDigit hc, ne_of_isDigit hc rfl⟩

/-- A value starts neither with space nor with what closes an array. -/
theorem Denotes.head {body : List Char} {v : Value} (h : Denotes body v) :
    ∃ c chars, body = c :: chars ∧ isSpace c = false ∧ c ≠ ']' := by
  cases h with
  | number hn => exact hn.head
  | _ => exact ⟨_, _, rfl, by decide⟩

theorem DenotesItems.head {body : List Char} {items : List Value} (h : DenotesItems body items) :
    ∃ c chars, body = c :: chars ∧ isSpace c = false ∧ c ≠ ']' := by
  cases h with
  | one hitem => exact hitem.head
  | more hitem _ _ _ =>
    obtain ⟨c, chars, rfl, hc⟩ := hitem.head
    exact ⟨c, _, rfl, hc⟩

theorem DenotesEntries.head {body : List Char} {entries : List (String × Value)}
    (h : DenotesEntries body entries) : ∃ chars, body = '"' :: chars := by
  have hentry : ∀ {body : List Char} {entry : String × Value}, DenotesEntry body entry →
      ∃ chars, body = '"' :: chars := by
    rintro body entry ⟨⟩
    exact ⟨_, rfl⟩
  cases h with
  | one hone => exact hentry hone
  | more hone _ _ _ =>
    obtain ⟨chars, rfl⟩ := hentry hone
    exact ⟨_, rfl⟩

/-! ### Every spelling is read -/

theorem readValue_behind {steps : Nat} {space chars rest : List Char} {v : Value}
    (hspace : Space space) (h : readValue steps chars = .ok (v, rest)) :
    readValue steps (space ++ chars) = .ok (v, rest) := by
  cases steps with
  | zero =>
    rw [readValue] at h
    cases h
  | succ steps =>
    rw [readValue] at h ⊢
    rw [skipSpace_append hspace]
    exact h

theorem delimited_behind {space : List Char} (hspace : Space space) (c : Char)
    (h : c.isDigit = false ∧ c ≠ '.' ∧ c ≠ 'e' ∧ c ≠ 'E') (rest : List Char) :
    Delimited (space ++ c :: rest) :=
  hspace.delimited (delimited_cons c h rest)

mutual

/-- **Every spelling of a value is read as that value**, and what follows is left. -/
theorem readValue_of_denotes : ∀ {body : List Char} {v : Value}, Denotes body v →
    ∀ (steps : Nat), body.length < steps → ∀ {rest : List Char}, Delimited rest →
      readValue steps (body ++ rest) = .ok (v, rest)
  | _, _, .null, steps + 1, _, rest, _ => by
    rw [List.cons_append, readValue, skipSpace_cons rfl]
    exact readWord_append Value.null ['u', 'l', 'l'] rest
  | _, _, .wordTrue, steps + 1, _, rest, _ => by
    rw [List.cons_append, readValue, skipSpace_cons rfl]
    exact readWord_append (Value.bool true) ['r', 'u', 'e'] rest
  | _, _, .wordFalse, steps + 1, _, rest, _ => by
    rw [List.cons_append, readValue, skipSpace_cons rfl]
    exact readWord_append (Value.bool false) ['a', 'l', 's', 'e'] rest
  | _, _, .number hn, steps + 1, _, rest, hrest => readValue_numeral hn steps hrest
  | _, _, .string htext, steps + 1, _, rest, _ => by
    rw [List.cons_append, List.append_assoc]
    exact readValue_string (readString_of_characters htext rest)
  | _, _, .emptyArray hspace, steps + 1, _, rest, _ => by
    rw [List.cons_append, List.append_assoc]
    exact readValue_array_nil (skipSpace_append_cons hspace rfl rest)
  | _, _, @Denotes.array space chars space' items hspace hitems hspace', steps + 1, hsteps, rest,
      _ => by
    simp only [List.length_cons, List.length_append] at hsteps
    have hread := readItems_of_denotes hitems steps (by omega) hspace' rest
    obtain ⟨c, first, rfl, hc, hclose⟩ := hitems.head
    simp only [List.cons_append, List.append_assoc, List.nil_append] at hread ⊢
    exact readValue_array (skipSpace_append_cons hspace hc _) hclose hread
  | _, _, .emptyObject hspace, steps + 1, _, rest, _ => by
    rw [List.cons_append, List.append_assoc]
    exact readValue_object_nil (skipSpace_append_cons hspace rfl rest)
  | _, _, @Denotes.object space chars space' entries members hspace hentries hspace' hsettled,
      steps + 1, hsteps, rest, _ => by
    simp only [List.length_cons, List.length_append] at hsteps
    have hread := readMembers_of_denotes hentries steps (by omega) hspace' rest
    obtain ⟨first, rfl⟩ := hentries.head
    simp only [List.cons_append, List.append_assoc, List.nil_append] at hread ⊢
    rw [hsettled.eq_ofList]
    exact readValue_object (skipSpace_append_cons hspace rfl _) hread

theorem readItems_of_denotes : ∀ {body : List Char} {items : List Value},
    DenotesItems body items → ∀ (steps : Nat), body.length + 1 < steps → ∀ {space : List Char},
      Space space → ∀ (rest : List Char),
        readItems steps (body ++ (space ++ ']' :: rest)) = .ok (items, rest)
  | _, _, .one hitem, steps + 1, hsteps, space, hspace, rest => by
    have hread := readValue_of_denotes hitem steps (by omega)
      (delimited_behind hspace ']' (by decide) rest)
    exact readItems_last hread (skipSpace_append_cons hspace rfl rest)
  | _, _, @DenotesItems.more chars space₁ space₂ more item items hitem hspace₁ hspace₂ hitems,
      steps + 1, hsteps, space, hspace, rest => by
    simp only [List.length_cons, List.length_append] at hsteps
    have hothers := readItems_of_denotes hitems steps (by omega) hspace rest
    obtain ⟨c, first, rfl, hc, hclose⟩ := hitems.head
    simp only [List.cons_append, List.append_assoc] at hothers ⊢
    have hdelimited := delimited_behind hspace₁ ',' (by decide)
    exact readItems_more (readValue_of_denotes hitem steps (by omega) (hdelimited _))
      (skipSpace_append_cons hspace₁ rfl _) (skipSpace_append_cons hspace₂ hc _) hclose hothers

/-- An entry is read in three parts: key, colon and value. -/
theorem readEntry_of_denotes : ∀ {body : List Char} {entry : String × Value},
    DenotesEntry body entry → ∀ (steps : Nat), body.length < steps → ∀ {rest : List Char},
      Delimited rest → ∃ chars key rest₁ rest₂ value, body ++ rest = '"' :: chars
        ∧ entry = (String.ofList key, value) ∧ readString chars = .ok (key, rest₁)
        ∧ skipSpace rest₁ = ':' :: rest₂ ∧ readValue steps rest₂ = .ok (value, rest)
  | _, _, @DenotesEntry.entry key text space space' chars value hkey hspace hspace' hvalue, steps,
      hsteps, rest, hrest => by
    simp only [List.length_cons, List.length_append] at hsteps
    have hread := readValue_of_denotes hvalue steps (by omega) hrest
    refine ⟨_, text, _, _, value, ?_, rfl, readString_of_characters hkey _,
      skipSpace_append_cons hspace rfl _, readValue_behind hspace' hread⟩
    simp only [List.cons_append, List.append_assoc]

theorem readMembers_of_denotes : ∀ {body : List Char} {entries : List (String × Value)},
    DenotesEntries body entries → ∀ (steps : Nat), body.length + 1 < steps →
      ∀ {space : List Char}, Space space → ∀ (rest : List Char),
        readMembers steps (body ++ (space ++ '\x7d' :: rest)) = .ok (entries, rest)
  | _, _, .one hentry, steps + 1, hsteps, space, hspace, rest => by
    obtain ⟨chars, key, rest₁, rest₂, value, hchars, rfl, hkey, hcolon, hvalue⟩ :=
      readEntry_of_denotes hentry steps (by omega) (delimited_behind hspace '\x7d' (by decide) rest)
    rw [hchars]
    exact readMembers_last hkey hcolon hvalue (skipSpace_append_cons hspace rfl rest)
  | _, _, @DenotesEntries.more chars space₁ space₂ more entry entries hentry hspace₁ hspace₂
      hentries, steps + 1, hsteps, space, hspace, rest => by
    simp only [List.length_cons, List.length_append] at hsteps
    have hothers := readMembers_of_denotes hentries steps (by omega) hspace rest
    obtain ⟨first, rfl⟩ := hentries.head
    simp only [List.cons_append, List.append_assoc] at hothers ⊢
    obtain ⟨chars', key, rest₁, rest₂, value, hchars, rfl, hkey, hcolon, hvalue⟩ :=
      readEntry_of_denotes hentry steps (by omega) (delimited_behind hspace₁ ',' (by decide) _)
    rw [hchars]
    exact readMembers_more hkey hcolon hvalue (skipSpace_append_cons hspace₁ rfl _)
      (skipSpace_append_cons hspace₂ rfl _) hothers

end

/-! ### Documents -/

theorem skipSpace_eq_nil_iff {chars : List Char} : skipSpace chars = [] ↔ Space chars := by
  constructor
  · intro h
    obtain ⟨space, hspace, hchars⟩ := exists_space chars
    rw [h, List.append_nil] at hchars
    rw [hchars]
    exact hspace
  · intro h
    rw [← List.append_nil chars, skipSpace_append h]
    rfl

theorem document_of_decode {text : String} {v : Value} (h : decode text = .ok v) :
    Document text.toList v := by
  obtain ⟨after, hafter, hread⟩ := decode_eq_ok_iff.mp h
  obtain ⟨before, body, hbefore, hbody, htext⟩ := (spelled_read _).1 hread
  exact ⟨before, body, after, htext, hbefore, hbody, skipSpace_eq_nil_iff.mp hafter⟩

theorem decode_of_document {text : String} {v : Value} (h : Document text.toList v) :
    decode text = .ok v := by
  obtain ⟨before, body, after, htext, hbefore, hbody, hafter⟩ := h
  rw [decode_eq_ok_iff]
  refine ⟨after, skipSpace_eq_nil_iff.mpr hafter, ?_⟩
  rw [htext]
  apply readValue_behind hbefore
  have hdelimited := hafter.delimited delimited_nil
  rw [List.append_nil] at hdelimited
  apply readValue_of_denotes hbody _ _ hdelimited
  simp only [List.length_append]
  omega

/-- **The texts that are decoded are the documents, each as the value it denotes.** -/
theorem decode_eq_ok_iff_document (text : String) (v : Value) :
    decode text = .ok v ↔ Document text.toList v :=
  ⟨document_of_decode, decode_of_document⟩

/-- **Every value that is read is in normal form.** -/
theorem normal_decode {text : String} {v : Value} (h : decode text = .ok v) : v.Normal :=
  (document_of_decode h).normal

end Transclude.Json
