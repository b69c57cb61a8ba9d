import StyleModule.Proofs.Json.Reading
import StyleModule.Proofs.Text.Scanning
import StyleModule.Text.Quoted

/-!
# Quoted strings are read back

A quoted string is read as the string that it was written for, and reading stops right behind it
(`Json.quotation_flatMap`). This goes character by character: each escape is read as the character
that it stands for.
-/

namespace StyleModule.Json

open Text.Quoted

/-! ### Escapes -/

theorem hexDigit?_digitChar {d : Nat} (h : d < 16) : hexDigit? (Nat.digitChar d) = some d := by
  have hall : ∀ d, d < 16 → hexDigit? (Nat.digitChar d) = some d := by decide
  exact hall d h

theorem fourHex_fourHexDigits {n : Nat} (h : n < 0x10000) (s : List Char) :
    fourHex (fourHexDigits n ++ s) = .ok (n, s) := by
  have hdigit : ∀ m, hexDigit? (Nat.digitChar (m % 16)) = some (m % 16) :=
    fun m => hexDigit?_digitChar (Nat.mod_lt _ (by decide))
  have hsum : ((n / 4096 % 16 * 16 + n / 256 % 16) * 16 + n / 16 % 16) * 16 + n % 16 = n := by omega
  simp [fourHexDigits, fourHex, fourHex?, hdigit, hsum]

/-- A character below the halves of pairs is read from its number. -/
theorem numberedChar_fourHexDigits {c : Char} (h : c.toNat < 0xd800) (s : List Char) :
    numberedChar (fourHexDigits c.toNat ++ s) = .ok (c, s) := by
  have hlow : isLowHalf c.toNat = false := by
    simp only [isLowHalf, Bool.and_eq_false_iff, decide_eq_false_iff_not]
    omega
  have hhigh : isHighHalf c.toNat = false := by
    simp only [isHighHalf, Bool.and_eq_false_iff, decide_eq_false_iff_not]
    omega
  have hfour := fourHex_fourHexDigits (by omega : c.toNat < 0x10000) s
  simp [numberedChar, hfour, hlow, hhigh, Char.ofNat_toNat]

theorem escapedChar_numberEscape {c : Char} (h : c.toNat < 0x20) (s : List Char) :
    escapedChar ('u' :: (fourHexDigits c.toNat ++ s)) = .ok (c, s) := by
  rw [escapedChar, if_pos rfl, numberedChar_fourHexDigits (by omega)]

theorem quotedChars_escape {bound : Nat} {c : Char} {cs s t r : List Char}
    (hc : escapedChar s = .ok (c, t)) (ht : quotedChars bound t = .ok (cs, r)) :
    quotedChars (bound + 1) ('\\' :: s) = .ok (c :: cs, r) := by
  simp [quotedChars, hc, ht]

theorem quotedChars_doubleEscape {bound : Nat} (c : Char) {cs s r : List Char}
    (h : quotedChars bound s = .ok (cs, r)) :
    quotedChars (bound + 1) (doubleEscape c ++ s) = .ok (c :: cs, r) := by
  -- One case for each escape. In the last one the character stands for itself.
  unfold doubleEscape
  split_ifs with hquote hbackslash hb hf hn hr ht hcontrol
  iterate 7
    subst c
    exact quotedChars_escape rfl h
  · exact quotedChars_escape (escapedChar_numberEscape hcontrol s) h
  · simp [quotedChars, hquote, hbackslash, Nat.not_lt.1 hcontrol, h]

/-! ### Strings -/

theorem quotedChars_flatMap {bound : Nat} {cs : List Char} (h : cs.length < bound) (r : List Char) :
    quotedChars bound (cs.flatMap doubleEscape ++ '"' :: r) = .ok (cs, r) := by
  induction cs generalizing bound with
  | nil =>
    obtain ⟨bound, rfl⟩ := Nat.exists_eq_add_one.2 (Nat.zero_lt_of_lt h)
    simp [quotedChars]
  | cons c cs ih =>
    obtain ⟨bound, rfl⟩ := Nat.exists_eq_add_one.2 (Nat.zero_lt_of_lt h)
    rw [List.flatMap_cons, List.append_assoc]
    exact quotedChars_doubleEscape c (ih (by simpa using h))

theorem doubleEscape_ne_nil (c : Char) : doubleEscape c ≠ [] := by
  unfold doubleEscape
  split_ifs <;> simp [numberEscape]

/-- A quoted string is read as the string, after its opening quote. -/
theorem quotation_flatMap (s : String) (r : List Char) :
    quotation (s.toList.flatMap doubleEscape ++ '"' :: r) = .ok (s, r) := by
  have hbound : s.toList.length < (s.toList.flatMap doubleEscape ++ '"' :: r).length := by
    have hlen :=
      Text.length_le_length_flatMap doubleEscape s.toList fun c _ => doubleEscape_ne_nil c
    simp only [List.length_append, List.length_cons]
    omega
  simp only [quotation, quotedChars_flatMap hbound, ok_bind, pure_eq_ok, String.ofList_toList]

theorem double_inj {s t : String} (h : double s = double t) : s = t := by
  have hs := quotation_flatMap s []
  rw [(List.cons.inj h).2, quotation_flatMap] at hs
  exact (Prod.mk.inj (Except.ok.inj hs)).1.symm

end StyleModule.Json
