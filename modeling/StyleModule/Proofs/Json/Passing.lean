import StyleModule.Proofs.Json.Simulation

/-!
# Passing over values

A value that is not needed is passed over by readers of their own, which check less and fail for
other reasons. Whatever can be read can be passed over, and both stop at the same place
(`Json.pass_of_value`). The converse fails: a value may be passed over that is nested too deep to be
read, or has numbers or escapes that stand for nothing.
-/

namespace StyleModule.Json

/-! ### Scalars -/

theorem scan_of_scan {c d : Cause} {s r : List Char} {n : Numeral}
    (h : Numeral.scan c s = .ok (n, r)) : Numeral.scan d s = .ok (n, r) := by
  have hwhole : ∀ {s x}, Numeral.scanWhole c s = .ok x → Numeral.scanWhole d s = .ok x := by
    unfold Numeral.scanWhole
    grind
  have hfraction : ∀ {s x}, Numeral.scanFraction c s = .ok x →
      Numeral.scanFraction d s = .ok x := by
    unfold Numeral.scanFraction
    grind
  have hexponent : ∀ {s x}, Numeral.scanExponent c s = .ok x →
      Numeral.scanExponent d s = .ok x := by
    unfold Numeral.scanExponent
    grind
  obtain ⟨s₀, s₁, s₂, hsign, h₀, h₁, h₂⟩ := Numeral.scan_eq_ok h
  cases n
  rcases hsign with ⟨rfl, hneg⟩ | ⟨hs, rfl, hneg⟩
  · simp_all [Numeral.scan, hwhole h₀, hfraction h₁, hexponent h₂]
  · simp_all [Numeral.scan, hwhole h₀, hfraction h₁, hexponent h₂]

/-- An escape is passed over at once, or it makes up a character with the escape that follows. -/
theorem passEscape_of_escapedChar {s r : List Char} {c : Char}
    (h : escapedChar s = .ok (c, r)) :
    passEscape s = .ok ((), r) ∨
      ∃ t n, passEscape s = .ok ((), '\\' :: 'u' :: t) ∧ t.length + 2 ≤ s.length ∧
        fourHex t = .ok (n, r) := by
  cases s with
  | nil => cases h
  | cons d s =>
    by_cases hu : d = 'u'
    · rw [escapedChar, if_pos hu, numberedChar] at h
      rw [passEscape, if_pos hu]
      obtain ⟨⟨n, s₁⟩, hn, h⟩ := bind_eq_ok.1 h
      simp only [hn, ok_bind, pure_eq_ok]
      have hlen := length_le_of_fourHex hn
      cases hlow : isLowHalf n with
      | true => simp [hlow] at h
      | false =>
        cases hhigh : isHighHalf n with
        | false =>
          simp only [hlow, hhigh, Bool.false_eq_true, ↓reduceIte, Except.ok.injEq,
            Prod.mk.injEq] at h
          exact .inl (by rw [h.2])
        | true =>
          -- Only the first half of a character needs the escape that follows.
          simp only [hlow, hhigh, Bool.false_eq_true, ↓reduceIte] at h
          unfold lowHalf at h
          split at h
          case h_1 t =>
            obtain ⟨⟨low, r'⟩, ht, h⟩ := bind_eq_ok.1 h
            have hr : r' = r := by
              cases hl : isLowHalf low with
              | true => simp only [hl, ↓reduceIte, Except.ok.injEq, Prod.mk.injEq] at h; exact h.2
              | false => simp [hl] at h
            exact .inr ⟨t, low, rfl, by simpa using Nat.le_succ_of_le hlen, hr ▸ ht⟩
          all_goals cases h
    · rw [escapedChar, if_neg hu] at h
      rw [passEscape, if_neg hu]
      cases hd : letterEscape? d with
      | none => simp [hd] at h
      | some e => simp_all

/-- The bound of the characters to pass over is the length of the text, since an escape may have to
be passed over in two steps where it was read in one. -/
theorem passQuotedChars_of_quotedChars {bound : Nat} {s r cs : List Char}
    (h : quotedChars bound s = .ok (cs, r)) {bound' : Nat} (hb : s.length ≤ bound') :
    passQuotedChars bound' s = .ok ((), r) := by
  induction bound generalizing s cs bound' with
  | zero => cases s <;> cases h
  | succ bound ih =>
    cases s with
    | nil => cases h
    | cons c s =>
      obtain ⟨bound', rfl⟩ := Nat.exists_eq_add_one.2 (Nat.zero_lt_of_lt hb)
      simp only [List.length_cons, Nat.add_le_add_iff_right] at hb
      rw [quotedChars] at h
      rw [passQuotedChars]
      split_ifs at h ⊢
      · cases h
        rfl
      · obtain ⟨⟨d, s₁⟩, hd, h⟩ := bind_eq_ok.1 h
        obtain ⟨⟨ds, s₂⟩, hds, h⟩ := bind_eq_ok.1 h
        cases h
        have hlen := length_le_of_escapedChar hd
        rcases passEscape_of_escapedChar hd with hpass | ⟨t, n, hpass, ht, hn⟩
        · rw [hpass, ok_bind]
          exact ih hds (by omega)
        · -- The second half is passed over in a step of its own.
          have hr := length_le_of_fourHex hn
          obtain ⟨bound', rfl⟩ := Nat.exists_eq_add_one.2 (by omega : 0 < bound')
          have hsecond : passEscape ('u' :: t) = .ok ((), s₁) := by
            simp [passEscape, hn]
          rw [hpass, ok_bind]
          show passQuotedChars (bound' + 1) ('\\' :: 'u' :: t) = _
          rw [passQuotedChars, if_neg (by decide), if_pos rfl, hsecond, ok_bind]
          exact ih hds (by omega)
      · obtain ⟨⟨ds, s₂⟩, hds, h⟩ := bind_eq_ok.1 h
        cases h
        exact ih hds hb

theorem passScalar_of_scalar {s r : List Char} {v : Json} (h : scalar s = .ok (v, r)) :
    passScalar s = .ok ((), r) := by
  obtain ⟨c, t, rfl, ⟨rfl, h, -⟩ | ⟨rfl, h, -⟩ | ⟨rfl, h, -⟩ | ⟨text, rfl, h, -⟩ |
    ⟨⟨hn, ht, hf, hq, hnum⟩, h⟩⟩ := scalar_eq_ok h
  · simp [passScalar, h]
  · simp [passScalar, h]
  · simp [passScalar, h]
  · obtain ⟨cs, hcs, -⟩ := quotation_eq_ok h
    simpa [passScalar, passQuotation] using passQuotedChars_of_quotedChars hcs (Nat.le_refl _)
  · obtain ⟨n, h, -⟩ := number_eq_ok h
    simp [passScalar, hn, ht, hf, hq, hnum, scan_of_scan h]

/-! ### Containers -/

theorem passMembers_simulates {α : Type} {T : List Char → Prop} (hT : Downward T)
    {item : Reader α} {passItem : Reader Unit} (h : Simulates T item passItem fun _ _ => True)
    (bound : Nat) (ms : List (String × α)) :
    Simulates T (members true quotation (keepMember item) bound true ms)
      (members false passQuotation (fun _ _ => .ok passItem) bound true ()) fun _ _ => True := by
  have hname : Simulates T quotation passQuotation fun _ _ => True := by
    intro s text r hs htext
    obtain ⟨cs, hcs, -⟩ := quotation_eq_ok htext
    have hpass := passQuotedChars_of_quotedChars hcs (Nat.le_refl _)
    exact ⟨hT hs (length_le_of_quotation htext), (), hpass, trivial⟩
  refine hname.members hT ?_ false bound true trivial
  intro ms u k u' reader _ _ hreader
  cases hreader
  exact ⟨passItem, rfl, h.map_left (f := fun a => (k, a) :: ms) fun _ _ _ => trivial⟩

/-- The bound on open containers is not reached in a text that is no longer. -/
theorem passNested_simulates (n bound : Nat) :
    Simulates (fun s => s.length ≤ bound) (value n) (passNested bound) fun _ _ => True := by
  induction n generalizing bound with
  | zero =>
    intro s v r hb h
    refine ⟨Nat.le_trans (length_le_of_value h) hb, (), ?_, trivial⟩
    rcases value_eq_ok h with ⟨m, -, -, hn, -⟩ | ⟨m, -, -, hn, -⟩ | ⟨c, t, hs, hlist, hobject, hv⟩
    · cases hn
    · cases hn
    · simp [passNested, hs, hlist, hobject, passScalar_of_scalar hv]
  | succ n ih =>
    intro s v r hb h
    refine ⟨Nat.le_trans (length_le_of_value h) hb, (), ?_, trivial⟩
    rcases value_eq_ok h with
        ⟨m, t, vs, hn, hs, hvs, -⟩ | ⟨m, t, ms, hn, hs, hms, -⟩ | ⟨c, t, hs, hlist, hobject, hv⟩
    · cases hn
      have ht := Nat.le_trans (length_of_dropBlanks hs) hb
      obtain ⟨bound, rfl⟩ := Nat.exists_eq_add_one.2 (Nat.zero_lt_of_lt ht)
      have hlist := (ih bound).listBody (downward_length_le bound) false
      obtain ⟨-, us, hpass, -⟩ := hlist (Nat.le_of_succ_le_succ ht) hvs
      simp [passNested, hs, hpass]
    · cases hn
      have ht := Nat.le_trans (length_of_dropBlanks hs) hb
      obtain ⟨bound, rfl⟩ := Nat.exists_eq_add_one.2 (Nat.zero_lt_of_lt ht)
      have hobject := passMembers_simulates (downward_length_le bound) (ih bound) (t.length + 1) []
      obtain ⟨-, u, hpass, -⟩ :=
        hobject (Nat.le_of_succ_le_succ ht) (membersFrom_eq_ok (objectBody_eq_ok hms))
      simp [passNested, hs, hpass, enclosed, Except.map]
    · simp [passNested, hs, hlist, hobject, passScalar_of_scalar hv]

/-- **Whatever can be read can be passed over**, with the same text left. -/
theorem pass_of_value {n : Nat} {s r : List Char} {v : Json} (h : value n s = .ok (v, r)) :
    pass s = .ok ((), r) := by
  obtain ⟨-, u, hpass, -⟩ := passNested_simulates n s.length (Nat.le_refl _) h
  exact hpass

end StyleModule.Json
