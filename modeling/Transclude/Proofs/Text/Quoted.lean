/-
  Transclude/Proofs/Text/Quoted.lean
  ==================================
  **A quoted text is a string of the grammar.**

  Whatever stands for a character between the quotes is a spelling of that character
  (`characters_escape`), and so the quoted text is a spelling of the text.
-/
import Transclude.Proofs.Json.Spelling
import Transclude.Text.Quoted

namespace Transclude.Json

theorem hexDigit_digit {n : Nat} (h : n < 16) : HexDigit (Hex.digit n) n := by
  have hvalue : ∀ n, n < 16 → Hex.value? (Hex.digit n) = some n := by decide
  exact value?_eq_some_iff.mp (hvalue n h)

theorem hexUnit_control {c : Char} (h : c.toNat < 0x20) :
    HexUnit ['0', '0', Hex.digit (c.toNat / 16), Hex.digit (c.toNat % 16)] c.toNat := by
  have hzero : HexDigit '0' 0 := .decimal (by decide) rfl
  have hhigh : HexDigit (Hex.digit (c.toNat / 16)) (c.toNat / 16) := hexDigit_digit (by omega)
  have hlow : HexDigit (Hex.digit (c.toNat % 16)) (c.toNat % 16) := hexDigit_digit (by omega)
  have hunit := HexUnit.four hzero hzero hhigh hlow
  rwa [show 0 * 4096 + 0 * 256 + c.toNat / 16 * 16 + c.toNat % 16 = c.toNat by omega] at hunit

/-- **What stands for a character between the quotes spells that character.** -/
theorem characters_escape (c : Char) {chars text : List Char} (h : Characters chars text) :
    Characters (Quoted.escape c ++ chars) (c :: text) := by
  unfold Quoted.escape
  split_ifs with hquote hbackslash hb hf hn hr ht hcontrol
  · subst hquote
    exact .short (by decide) h
  · subst hbackslash
    exact .short (by decide) h
  · subst hb
    exact .short (by decide) h
  · subst hf
    exact .short (by decide) h
  · subst hn
    exact .short (by decide) h
  · subst hr
    exact .short (by decide) h
  · subst ht
    exact .short (by decide) h
  · exact .unit (hexUnit_control hcontrol) h
  · exact .plain hquote hbackslash (by omega) h

theorem characters_quoted (text : List Char) :
    Characters (text.flatMap Quoted.escape) text := by
  induction text with
  | nil => exact .nil
  | cons c text ih =>
    rw [List.flatMap_cons]
    exact characters_escape c ih

end Transclude.Json
