import StyleModule.Json.Writer
import StyleModule.Proofs.Json.Reading
import StyleModule.Proofs.Text.Scanning

/-!
# Whole numbers are read back

A whole number of 64 bits is read as itself if what follows cannot belong to it
(`Json.number_intText`), and minus zero is read as itself too (`Json.number_minusZero`).
-/

namespace StyleModule.Json

/-- A text goes on with nothing that could belong to a number. -/
def EndsNumber (r : List Char) : Prop :=
  ∀ c ∈ r.head?, c.isDigit = false ∧ c ≠ '.' ∧ c ≠ 'e' ∧ c ≠ 'E'

theorem endsNumber_nil : EndsNumber [] := by
  intro c hc
  cases hc

theorem endsNumber_comma (r : List Char) : EndsNumber (',' :: r) := by
  intro c hc
  cases hc
  decide

theorem endsNumber_bracket (r : List Char) : EndsNumber (']' :: r) := by
  intro c hc
  cases hc
  decide

theorem endsNumber_brace (r : List Char) : EndsNumber ('\x7d' :: r) := by
  intro c hc
  cases hc
  decide

namespace Numeral

/-! ### Digits -/

theorem spanDigits_append {ds r : List Char} (hds : ∀ d ∈ ds, d.isDigit)
    (hr : ∀ c ∈ r.head?, c.isDigit = false) : spanDigits (ds ++ r) = (ds, r) := by
  obtain ⟨htake, hdrop⟩ := Text.span_append hds hr
  rw [spanDigits, htake, hdrop]

theorem isDigit_of_mem_toDigits {n : Nat} : ∀ d ∈ Nat.toDigits 10 n, d.isDigit :=
  fun _ hd => Nat.isDigit_of_mem_toDigits (by decide) (by decide) hd

/-- Only zero is written with a leading zero. -/
theorem head?_toDigits_ne_zero {n : Nat} (h : 0 < n) : (Nat.toDigits 10 n).head? ≠ some '0' := by
  induction n using Nat.strongRecOn with
  | ind n ih =>
    rw [Nat.toDigits_eq_if (by decide)]
    split_ifs with hn
    · have hall : ∀ d, d < 10 → 0 < d → [Nat.digitChar d].head? ≠ some '0' := by decide
      exact hall n hn h
    · have hfirst := ih (n / 10) (by omega) (by omega)
      cases hd : Nat.toDigits 10 (n / 10) with
      | nil => exact absurd hd Nat.toDigits_ne_nil
      | cons d ds => simpa [hd] using hfirst

theorem le_ofDigitChars (ds : List Char) (n : Nat) : n ≤ Nat.ofDigitChars 10 ds n := by
  induction ds generalizing n with
  | nil => simp
  | cons d ds ih =>
    rw [Nat.ofDigitChars_cons]
    have hrest := ih (10 * n + (d.toNat - '0'.toNat))
    omega

/-- Digits are all used if the number they spell is within the limit. -/
theorem gather_eq_ofDigitChars {limit n : Nat} {ds : List Char}
    (h : Nat.ofDigitChars 10 ds n ≤ limit) :
    gather limit n ds = (Nat.ofDigitChars 10 ds n, 0) := by
  induction ds generalizing n with
  | nil => simp [gather]
  | cons d ds ih =>
    rw [Nat.ofDigitChars_cons] at h ⊢
    have hstep : ¬limit < 10 * n + digitValue d :=
      Nat.not_lt.2 (Nat.le_trans (le_ofDigitChars ds _) h)
    rw [gather, if_neg hstep]
    exact ih h

theorem gather_toDigits {limit n : Nat} (h : n ≤ limit) :
    gather limit 0 (Nat.toDigits 10 n) = (n, 0) := by
  have hvalue : Nat.ofDigitChars 10 (Nat.toDigits 10 n) 0 = n := Nat.ofDigitChars_ten_toDigits
  rw [gather_eq_ofDigitChars (by rwa [hvalue]), hvalue]

/-! ### Spelling -/

variable {atEnd : Cause}

theorem scanWhole_toDigits (n : Nat) {r : List Char} (hr : ∀ c ∈ r.head?, c.isDigit = false) :
    scanWhole atEnd (Nat.toDigits 10 n ++ r) = .ok (Nat.toDigits 10 n, r) := by
  rcases Nat.eq_zero_or_pos n with rfl | hn
  · cases r with
    | nil => rfl
    | cons c r =>
      have hc : c.isDigit = false := hr c rfl
      simp [scanWhole, hc]
  · -- The first digit is none of a number with a leading zero.
    have hspan := spanDigits_append (isDigit_of_mem_toDigits (n := n)) hr
    have hzero := head?_toDigits_ne_zero hn
    have hdigit := isDigit_of_mem_toDigits (n := n)
    cases hd : Nat.toDigits 10 n with
    | nil => exact absurd hd Nat.toDigits_ne_nil
    | cons d ds =>
      rw [hd] at hspan hzero hdigit
      have hd' : d ≠ '0' := by simpa using hzero
      rw [List.cons_append] at hspan ⊢
      rw [scanWhole, if_pos (hdigit d (by simp)), hspan]
      exact hd'

theorem scanFraction_of_ends {r : List Char} (hr : EndsNumber r) :
    scanFraction atEnd r = .ok ([], r) := by
  unfold scanFraction
  split
  · exact absurd rfl (hr '.' rfl).2.1
  · rfl

theorem scanExponent_of_ends {r : List Char} (hr : EndsNumber r) :
    scanExponent atEnd r = .ok (none, r) := by
  unfold scanExponent
  split
  · next c r =>
    have hc := hr c rfl
    rw [if_neg (by simp [hc.2.2])]
  · rfl

theorem scan_toDigits (n : Nat) {r : List Char} (hr : EndsNumber r) :
    scan atEnd (Nat.toDigits 10 n ++ r) = .ok (⟨false, Nat.toDigits 10 n, [], none⟩, r) := by
  have hwhole : scanWhole atEnd (Nat.toDigits 10 n ++ r) = .ok (Nat.toDigits 10 n, r) :=
    scanWhole_toDigits n fun c hc => (hr c hc).1
  have hdigit := isDigit_of_mem_toDigits (n := n)
  cases hd : Nat.toDigits 10 n with
  | nil => exact absurd hd Nat.toDigits_ne_nil
  | cons d ds =>
    have hsign : d ≠ '-' := by
      rintro rfl
      exact absurd (hdigit '-' (by simp [hd])) (by decide)
    rw [hd, List.cons_append] at hwhole
    simp [scan, hsign, hwhole, scanFraction_of_ends hr, scanExponent_of_ends hr]

theorem scan_minus_toDigits (n : Nat) {r : List Char} (hr : EndsNumber r) :
    scan atEnd ('-' :: (Nat.toDigits 10 n ++ r)) =
      .ok (⟨true, Nat.toDigits 10 n, [], none⟩, r) := by
  simp [scan, scanWhole_toDigits n fun c hc => (hr c hc).1, scanFraction_of_ends hr,
    scanExponent_of_ends hr]

theorem scan_minusZero {r : List Char} (hr : EndsNumber r) :
    scan atEnd ('-' :: '0' :: '.' :: '0' :: r) = .ok (⟨true, ['0'], ['0'], none⟩, r) := by
  have hdigits : ∀ d ∈ ['0'], d.isDigit := by simp
  have hspan : spanDigits ('0' :: r) = (['0'], r) :=
    spanDigits_append hdigits fun c hc => (hr c hc).1
  simp [scan, scanWhole, scanFraction, hspan, scanExponent_of_ends hr]

/-! ### Value -/

theorem value_toDigits {n : Nat} (h : n ≤ maxUnsigned) (r : List Char) :
    value ⟨false, Nat.toDigits 10 n, [], none⟩ r = .ok (.int n) := by
  simp [value, isWhole, gather_toDigits h]

theorem value_minus_toDigits {n : Nat} (h : n + 1 ≤ 0x8000000000000000) (r : List Char) :
    value ⟨true, Nat.toDigits 10 (n + 1), [], none⟩ r = .ok (.int (.negSucc n)) := by
  have hbound : n + 1 ≤ maxUnsigned := Nat.le_trans h (by decide)
  have hwhole : isWhole ⟨true, Nat.toDigits 10 (n + 1), [], none⟩ = true := by
    simp [isWhole, gather_toDigits hbound]
  have hpositive : decide (0 < n + 1) = true := decide_eq_true (Nat.succ_pos n)
  have hlow : decide (n + 1 ≤ 0x8000000000000000) = true := decide_eq_true h
  simp only [value, hwhole, gather_toDigits hbound, hpositive, hlow, Bool.not_true, Bool.and_false,
    Bool.and_self, Bool.false_eq_true, ↓reduceIte]
  rfl

theorem value_minusZero (r : List Char) :
    value ⟨true, ['0'], ['0'], none⟩ r = .ok (.float (-0.0)) := by
  -- The digits are those of `0.0`, and the sign is put before what they stand for.
  have hscaled : scaled? (UInt64.toFloat 0) (-1) = some 0 := by decide +kernel
  have hminus : -(0 : Float) = -0.0 := rfl
  have hsignificand : significand ⟨true, ['0'], ['0'], none⟩ = (0, -1) := by decide
  simp [value, isWhole, magnitude, hsignificand, hscaled, hminus, Except.map]

end Numeral

/-! ### Numbers -/

/-- A whole number of 64 bits is read as itself. -/
theorem number_intText {n : Int} (hn : FitsWord n) {r : List Char} (hr : EndsNumber r) :
    number (intText n ++ r) = .ok (.int n, r) := by
  unfold number
  cases n with
  | ofNat n =>
    have hbound : n ≤ Numeral.maxUnsigned := by
      have hlt : (n : Int) < 0x10000000000000000 := hn.2
      simp only [Numeral.maxUnsigned]
      omega
    simp only [intText, Numeral.scan_toDigits n hr, ok_bind, Numeral.value_toDigits hbound]
    rfl
  | negSucc n =>
    have hbound : n + 1 ≤ 0x8000000000000000 := by
      have hle := hn.1
      omega
    simp only [intText, List.cons_append, Numeral.scan_minus_toDigits (n + 1) hr, ok_bind,
      Numeral.value_minus_toDigits hbound]
    rfl

theorem write_minusZero : floatNotation.write (-0.0) = ['-', '0', '.', '0'] := by decide +kernel

/-- Minus zero is read as itself. -/
theorem number_minusZero {r : List Char} (hr : EndsNumber r) :
    number (floatNotation.write (-0.0) ++ r) = .ok (.float (-0.0), r) := by
  unfold number
  simp only [write_minusZero, List.cons_append, List.nil_append, Numeral.scan_minusZero hr, ok_bind,
    Numeral.value_minusZero]
  rfl

end StyleModule.Json
