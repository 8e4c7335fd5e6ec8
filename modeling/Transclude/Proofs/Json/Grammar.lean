/-
  Transclude/Proofs/Json/Grammar.lean
  ===================================
  **The grammar of JSON documents, and what they denote.**

  Each rule says how something is spelled and what it stands for.  Nothing is said
  about reading: the rules do not go from left to right, take no steps, and know no
  depth.

  Digits stand for themselves, and only the spelling of an exponent is settled.  In a
  string a character stands for itself unless it is a quote, a backslash or a control
  character; escapes stand for what they are short for, and the two halves of a
  surrogate pair for one character.  An object has each of its keys once, where the
  key comes first, with the value that comes last (`Settled`).  That is the object
  which is built by setting the keys one after the other (`Settled.eq_ofList`).
-/
import Mathlib.Data.List.Induction
import Transclude.Proofs.Json.Normal

namespace Transclude.Json

/-- Space, tabs, line feeds and carriage returns, as many as there may be. -/
def Space (chars : List Char) : Prop := ∀ c ∈ chars, c = ' ' ∨ c = '\t' ∨ c = '\n' ∨ c = '\r'

/-! ### Numbers -/

inductive SignPart : List Char → Bool → Prop
  | absent : SignPart [] false
  | minus : SignPart ['-'] true

/-- A zero alone, or digits of which the first is no zero. -/
def WholePart (chars : List Char) : Prop :=
  chars = ['0'] ∨ IsDigits chars ∧ chars.head? ≠ some '0'

inductive FractionPart : List Char → Option (List Char) → Prop
  | absent : FractionPart [] none
  | point {digits : List Char} (any : IsDigits digits) :
      FractionPart ('.' :: digits) (some digits)

/-- How an exponent is spelled, what it is, and how its spelling is settled. -/
inductive ExponentPart : List Char → Option Exponent → List Char → Prop
  | absent : ExponentPart [] none []
  | plain {mark : Char} {digits : List Char} (either : mark = 'e' ∨ mark = 'E')
      (any : IsDigits digits) :
      ExponentPart (mark :: digits) (some ⟨false, digits⟩) ('e' :: '+' :: digits)
  | plus {mark : Char} {digits : List Char} (either : mark = 'e' ∨ mark = 'E')
      (any : IsDigits digits) :
      ExponentPart (mark :: '+' :: digits) (some ⟨false, digits⟩) ('e' :: '+' :: digits)
  | minus {mark : Char} {digits : List Char} (either : mark = 'e' ∨ mark = 'E')
      (any : IsDigits digits) :
      ExponentPart (mark :: '-' :: digits) (some ⟨true, digits⟩) ('e' :: '-' :: digits)

/-- A number has the digits it is spelled with, and its own text is the spelling with the
    exponent settled. -/
inductive Numeral : List Char → Number → Prop
  | spelled {sign whole fraction exponent settled : List Char} {n : Number}
      (hsign : SignPart sign n.negative) (hwhole : WholePart whole) (same : n.whole = whole)
      (hfraction : FractionPart fraction n.fraction)
      (hexponent : ExponentPart exponent n.exponent settled)
      (text : n.chars = sign ++ (whole ++ (fraction ++ settled))) :
      Numeral (sign ++ (whole ++ (fraction ++ exponent))) n

/-! ### Strings -/

/-- A hexadecimal digit, in either case. -/
inductive HexDigit : Char → Nat → Prop
  | decimal {c : Char} {n : Nat} (below : n < 10) (place : c.toNat = '0'.toNat + n) : HexDigit c n
  | lower {c : Char} {n : Nat} (below : n < 6) (place : c.toNat = 'a'.toNat + n) :
      HexDigit c (10 + n)
  | upper {c : Char} {n : Nat} (below : n < 6) (place : c.toNat = 'A'.toNat + n) :
      HexDigit c (10 + n)

inductive HexUnit : List Char → Nat → Prop
  | four {a b c d : Char} {w x y z : Nat} (ha : HexDigit a w) (hb : HexDigit b x)
      (hc : HexDigit c y) (hd : HexDigit d z) :
      HexUnit [a, b, c, d] (w * 4096 + x * 256 + y * 16 + z)

/-- The letters and signs that are short for a character, behind a backslash. -/
def shortEscapes : List (Char × Char) :=
  [('"', '"'), ('\\', '\\'), ('/', '/'), ('b', '\x08'), ('f', '\x0c'), ('n', '\n'), ('r', '\r'),
    ('t', '\t')]

/-- What stands between the quotes of a string, and the text it stands for. -/
inductive Characters : List Char → List Char → Prop
  | nil : Characters [] []
  | plain {c : Char} {chars text : List Char} (noQuote : c ≠ '"') (noBackslash : c ≠ '\\')
      (noControl : 0x20 ≤ c.toNat) (rest : Characters chars text) :
      Characters (c :: chars) (c :: text)
  | short {e c : Char} {chars text : List Char} (escape : (e, c) ∈ shortEscapes)
      (rest : Characters chars text) : Characters ('\\' :: e :: chars) (c :: text)
  | unit {c : Char} {hex chars text : List Char} (hhex : HexUnit hex c.toNat)
      (rest : Characters chars text) : Characters ('\\' :: 'u' :: (hex ++ chars)) (c :: text)
  | pair {c : Char} {hex hex' chars text : List Char} {leading trailing : Nat}
      (hleading : HexUnit hex (0xD800 + leading)) (hleading_lt : leading < 0x400)
      (htrailing : HexUnit hex' (0xDC00 + trailing)) (htrailing_lt : trailing < 0x400)
      (joined : c.toNat = 0x10000 + leading * 0x400 + trailing) (rest : Characters chars text) :
      Characters ('\\' :: 'u' :: (hex ++ '\\' :: 'u' :: (hex' ++ chars))) (c :: text)

/-! ### Objects -/

/-- Each key stands once, in the order of first appearance, and has its last value. -/
structure Settled (entries : List (String × Value)) (members : Members) : Prop where
  keys : members.map Prod.fst = (entries.map Prod.fst).eraseDups
  values : ∀ key, members.lookup key = entries.reverse.lookup key

namespace Members

theorem lookup_cons (key : String) (value : Value) (members : Members) (k : String) :
    List.lookup k ((key, value) :: members) =
      if k = key then some value else members.lookup k := by
  rw [List.lookup_cons]
  by_cases hk : k = key
  · simp [hk]
  · rw [if_neg hk, beq_eq_false_iff_ne.mpr hk]

theorem lookup_insert (members : Members) (key k : String) (value : Value) :
    (members.insert key value).lookup k = if k = key then some value else members.lookup k := by
  induction members with
  | nil => rw [insert, lookup_cons]
  | cons entry members ih =>
    obtain ⟨first, v⟩ := entry
    by_cases hfirst : first = key
    · subst hfirst
      rw [insert, if_pos rfl, lookup_cons, lookup_cons]
      by_cases hk : k = first <;> simp [hk]
    · rw [insert, if_neg hfirst, lookup_cons, lookup_cons, ih]
      by_cases hk : k = first
      · simp [hk, hfirst]
      · simp [hk]

theorem keys_insert (members : Members) (key : String) (value : Value) :
    (members.insert key value).map Prod.fst =
      if key ∈ members.map Prod.fst then members.map Prod.fst
      else members.map Prod.fst ++ [key] := by
  split
  · next hmem => exact keys_insert_of_mem hmem value
  · next hmem => rw [insert_of_not_mem hmem, List.map_append, List.map_singleton]

theorem ofList_concat (entries : List (String × Value)) (entry : String × Value) :
    ofList (entries ++ [entry]) = (ofList entries).insert entry.1 entry.2 := by
  rw [ofList, List.foldl_append]
  rfl

/-- Members without a double key are determined by their keys and by what these have. -/
theorem ext_lookup {members members' : Members} (hkeys : (members.map Prod.fst).Nodup)
    (hsame : members.map Prod.fst = members'.map Prod.fst)
    (hlookup : ∀ key, members.lookup key = members'.lookup key) : members = members' := by
  induction members generalizing members' with
  | nil =>
    rw [List.map_nil] at hsame
    exact (List.map_eq_nil_iff.mp hsame.symm).symm
  | cons entry members ih =>
    obtain ⟨key, value⟩ := entry
    cases members' with
    | nil => cases hsame
    | cons entry' members' =>
      obtain ⟨key', value'⟩ := entry'
      simp only [List.map_cons, List.cons.injEq] at hsame
      obtain ⟨rfl, htail⟩ := hsame
      rw [List.map_cons, List.nodup_cons] at hkeys
      have hvalue : value = value' := by simpa using hlookup key
      have hnone : ∀ {rest : Members}, key ∉ rest.map Prod.fst → rest.lookup key = none := by
        intro rest hrest
        rw [List.lookup_eq_none_iff]
        intro p hp
        have hne : key ≠ p.1 := by
          rintro rfl
          exact hrest (List.mem_map_of_mem hp)
        simpa using hne
      rw [hvalue, ih hkeys.2 htail]
      intro k
      by_cases hk : k = key
      · rw [hk, hnone hkeys.1, hnone (htail ▸ hkeys.1)]
      · have hbehind := hlookup k
        rw [lookup_cons, lookup_cons] at hbehind
        simpa [hk] using hbehind

end Members

/-- Setting the keys one after the other settles them. -/
theorem settled_ofList (entries : List (String × Value)) :
    Settled entries (Members.ofList entries) := by
  induction entries using List.reverseRecOn with
  | nil => exact ⟨rfl, fun _ => rfl⟩
  | append_singleton entries entry ih =>
    obtain ⟨key, value⟩ := entry
    rw [Members.ofList_concat]
    constructor
    · rw [Members.keys_insert, ih.keys, List.map_append, List.eraseDups_append]
      by_cases hmem : key ∈ entries.map Prod.fst <;>
        simp [hmem, List.removeAll, List.eraseDups_cons]
    · intro k
      rw [Members.lookup_insert, List.reverse_append, List.reverse_singleton, List.singleton_append,
        Members.lookup_cons, ih.values]

theorem Settled.eq_ofList {entries : List (String × Value)} {members : Members}
    (h : Settled entries members) : members = Members.ofList entries := by
  have hofList := settled_ofList entries
  refine (Members.ext_lookup (Members.nodup_ofList entries) ?_ ?_).symm
  · rw [hofList.keys, h.keys]
  · intro key
    rw [hofList.values, h.values]

/-! ### Values -/

mutual

/-- What a spelling without space around it denotes. -/
inductive Denotes : List Char → Value → Prop
  | null : Denotes ['n', 'u', 'l', 'l'] .null
  | wordTrue : Denotes ['t', 'r', 'u', 'e'] (.bool true)
  | wordFalse : Denotes ['f', 'a', 'l', 's', 'e'] (.bool false)
  | number {chars : List Char} {n : Number} (hn : Numeral chars n) : Denotes chars (.number n)
  | string {chars text : List Char} (htext : Characters chars text) :
      Denotes ('"' :: (chars ++ ['"'])) (.string (String.ofList text))
  | emptyArray {space : List Char} (hspace : Space space) :
      Denotes ('[' :: (space ++ [']'])) (.array [])
  | array {space chars space' : List Char} {items : List Value} (hspace : Space space)
      (hitems : DenotesItems chars items) (hspace' : Space space') :
      Denotes ('[' :: (space ++ (chars ++ (space' ++ [']'])))) (.array items)
  | emptyObject {space : List Char} (hspace : Space space) :
      Denotes ('\x7b' :: (space ++ ['\x7d'])) (.object [])
  | object {space chars space' : List Char} {entries : List (String × Value)} {members : Members}
      (hspace : Space space) (hentries : DenotesEntries chars entries) (hspace' : Space space')
      (settled : Settled entries members) :
      Denotes ('\x7b' :: (space ++ (chars ++ (space' ++ ['\x7d'])))) (.object members)

/-- One item or more, with commas between them. -/
inductive DenotesItems : List Char → List Value → Prop
  | one {chars : List Char} {item : Value} (hitem : Denotes chars item) :
      DenotesItems chars [item]
  | more {chars space space' more : List Char} {item : Value} {items : List Value}
      (hitem : Denotes chars item) (hspace : Space space) (hspace' : Space space')
      (hitems : DenotesItems more items) :
      DenotesItems (chars ++ (space ++ ',' :: (space' ++ more))) (item :: items)

inductive DenotesEntry : List Char → String × Value → Prop
  | entry {key text space space' chars : List Char} {value : Value} (hkey : Characters key text)
      (hspace : Space space) (hspace' : Space space') (hvalue : Denotes chars value) :
      DenotesEntry ('"' :: (key ++ '"' :: (space ++ ':' :: (space' ++ chars))))
        (String.ofList text, value)

inductive DenotesEntries : List Char → List (String × Value) → Prop
  | one {chars : List Char} {entry : String × Value} (hentry : DenotesEntry chars entry) :
      DenotesEntries chars [entry]
  | more {chars space space' more : List Char} {entry : String × Value}
      {entries : List (String × Value)} (hentry : DenotesEntry chars entry) (hspace : Space space)
      (hspace' : Space space') (hentries : DenotesEntries more entries) :
      DenotesEntries (chars ++ (space ++ ',' :: (space' ++ more))) (entry :: entries)

end

/-! ### What is denoted is in normal form -/

theorem Numeral.normal {body : List Char} {n : Number} (h : Numeral body n) : n.Normal := by
  obtain ⟨negative, digits, fraction?, exponent?⟩ := n
  cases h with
  | spelled _ hwhole hsame hfraction hexponent _ =>
    refine ⟨hsame ▸ hwhole, ?_, ?_⟩
    · rintro digits rfl
      cases hfraction with
      | point hdigits => exact hdigits
    · rintro e rfl
      cases hexponent with
      | plain _ hdigits => exact hdigits
      | plus _ hdigits => exact hdigits
      | minus _ hdigits => exact hdigits

mutual

theorem Denotes.normal : ∀ {body : List Char} {v : Value}, Denotes body v → v.Normal
  | _, _, .null => .null
  | _, _, .wordTrue => .bool true
  | _, _, .wordFalse => .bool false
  | _, _, .number hn => .number hn.normal
  | _, _, .string _ => .string _
  | _, _, .emptyArray _ => .array (by simp)
  | _, _, .array _ hitems _ => .array hitems.normal
  | _, _, .emptyObject _ => .object (by simp) (by simp)
  | _, _, @Denotes.object _ _ _ entries _ _ hentries _ hsettled => by
    rw [hsettled.eq_ofList]
    exact .object (Members.nodup_ofList entries) (Members.forall_ofList hentries.normal)

theorem DenotesItems.normal : ∀ {body : List Char} {items : List Value},
    DenotesItems body items → ∀ item ∈ items, item.Normal
  | _, _, .one hitem => by simpa using hitem.normal
  | _, _, .more hitem _ _ hitems => List.forall_mem_cons.mpr ⟨hitem.normal, hitems.normal⟩

theorem DenotesEntry.normal : ∀ {body : List Char} {entry : String × Value},
    DenotesEntry body entry → entry.2.Normal
  | _, _, .entry _ _ _ hvalue => hvalue.normal

theorem DenotesEntries.normal : ∀ {body : List Char} {entries : List (String × Value)},
    DenotesEntries body entries → ∀ entry ∈ entries, entry.2.Normal
  | _, _, .one hentry => by simpa using hentry.normal
  | _, _, .more hentry _ _ hentries => List.forall_mem_cons.mpr ⟨hentry.normal, hentries.normal⟩

end

/-- A document is one value with nothing but space around it. -/
def Document (chars : List Char) (v : Value) : Prop :=
  ∃ before body after, chars = before ++ (body ++ after) ∧ Space before ∧ Denotes body v
    ∧ Space after

theorem Document.normal {chars : List Char} {v : Value} (h : Document chars v) : v.Normal := by
  obtain ⟨before, body, after, -, -, hbody, -⟩ := h
  exact hbody.normal

end Transclude.Json
