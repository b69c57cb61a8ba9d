import StyleModule.Text.Identifier

/-!
# The form of identifiers

An identifier is a text of the form `[A-Za-z_$][A-Za-z0-9_$]*` (`Text.isIdentifier_iff`), which can
be told without knowing what writes them (`Text.IsName`).
-/

namespace StyleModule.Text

/-- A letter of ASCII, an underscore or a dollar sign. -/
def StartsName (c : Char) : Prop := 'A' ≤ c ∧ c ≤ 'Z' ∨ 'a' ≤ c ∧ c ≤ 'z' ∨ c = '_' ∨ c = '$'

instance : DecidablePred StartsName := fun _ => inferInstanceAs (Decidable (_ ∨ _))

/-- One of these or a digit. -/
def ContinuesName (c : Char) : Prop := StartsName c ∨ '0' ≤ c ∧ c ≤ '9'

instance : DecidablePred ContinuesName := fun _ => inferInstanceAs (Decidable (_ ∨ _))

/-- A text of the form `[A-Za-z_$][A-Za-z0-9_$]*`. -/
def IsName (s : String) : Prop :=
  ∃ c cs, s.toList = c :: cs ∧ StartsName c ∧ ∀ d ∈ cs, ContinuesName d

theorem isName_iff_of_cons {s : String} {c : Char} {cs : List Char} (h : s.toList = c :: cs) :
    IsName s ↔ StartsName c ∧ ∀ d ∈ cs, ContinuesName d := by
  rw [IsName, h]
  constructor
  · rintro ⟨_, _, ⟨⟩, hc, hcs⟩
    exact ⟨hc, hcs⟩
  · rintro ⟨hc, hcs⟩
    exact ⟨c, cs, rfl, hc, hcs⟩

theorem not_isName_of_nil {s : String} (h : s.toList = []) : ¬IsName s := by
  simp [IsName, h]

theorem IsName.continuesName {s : String} (h : IsName s) : ∀ c ∈ s.toList, ContinuesName c := by
  obtain ⟨c, cs, hs, hc, hcs⟩ := h
  rw [hs]
  exact List.forall_mem_cons.2 ⟨.inl hc, hcs⟩

instance : DecidablePred IsName := fun s =>
  match h : s.toList with
  | [] => .isFalse (not_isName_of_nil h)
  | _ :: cs =>
    -- Only the characters of the text are looked at.
    letI : Decidable (∀ d ∈ cs, ContinuesName d) := List.decidableBAll _ cs
    decidable_of_iff _ (isName_iff_of_cons h).symm

theorem isIdentifierStart_iff {c : Char} : isIdentifierStart c = true ↔ StartsName c := by
  unfold isIdentifierStart Char.isAlpha Char.isUpper Char.isLower
  simp only [Bool.or_eq_true, Bool.and_eq_true, decide_eq_true_eq, beq_iff_eq, or_assoc]
  exact Iff.rfl

theorem isDigit_iff {c : Char} : c.isDigit = true ↔ '0' ≤ c ∧ c ≤ '9' := by
  simp only [Char.isDigit, Bool.and_eq_true, decide_eq_true_eq]
  exact Iff.rfl

theorem isIdentifierPart_iff {c : Char} : isIdentifierPart c = true ↔ ContinuesName c := by
  rw [ContinuesName, ← isIdentifierStart_iff, ← isDigit_iff]
  simp only [isIdentifierPart, isIdentifierStart, Char.isAlphanum, Bool.or_eq_true]
  grind

theorem isIdentifier_iff {s : String} : isIdentifier s = true ↔ IsName s := by
  unfold isIdentifier
  cases h : s.toList with
  | nil => simp [not_isName_of_nil h]
  | cons c cs =>
    simp only [isName_iff_of_cons h, Bool.and_eq_true, List.all_eq_true, isIdentifierStart_iff,
      isIdentifierPart_iff]

end StyleModule.Text
