import Mathlib.Tactic.SplitIfs
import StyleModule.Json.Reader
import StyleModule.Proofs.Json.Tree

/-!
# Successful readers

What is known when a reader of JSON texts succeeds. Two forms are used: `reader s = .ok (a, r)` is
taken apart step by step (`bind_eq_ok` and the inversion lemmas of the loops over items and
members), and `(reader s).toOption` is what can be said of two readers that fail for different
reasons.

Every value takes something off the text that it is read from (`length_lt_of_value`).
-/

namespace StyleModule.Json

variable {ε α β κ σ : Type}

/-! ### Outcomes -/

@[simp] theorem ok_bind (a : α) (f : α → Except ε β) : (.ok a >>= f) = f a := rfl

@[simp] theorem error_bind (e : ε) (f : α → Except ε β) : (.error e >>= f) = .error e := rfl

@[simp] theorem pure_eq_ok (a : α) : (pure a : Except ε α) = .ok a := rfl

@[simp] theorem throw_eq_error (e : ε) : (throw e : Except ε α) = .error e := rfl

@[simp] theorem toOption_ok (a : α) : (Except.ok a : Except ε α).toOption = some a := rfl

@[simp] theorem toOption_error (e : ε) : (Except.error e : Except ε α).toOption = none := rfl

@[simp] theorem toOption_bind (x : Except ε α) (f : α → Except ε β) :
    (x >>= f).toOption = x.toOption.bind fun a => (f a).toOption := by
  cases x <;> rfl

@[simp] theorem toOption_map (f : α → β) (x : Except ε α) :
    (x.map f).toOption = x.toOption.map f := by
  cases x <;> rfl

theorem toOption_eq_some {x : Except ε α} {a : α} : x.toOption = some a ↔ x = .ok a := by
  cases x <;> simp

theorem exists_eq_ok_of_isSome {x : Except ε α} (h : x.toOption.isSome) : ∃ a, x = .ok a := by
  simpa only [Option.isSome_iff_exists, toOption_eq_some] using h

/-- What is equal to a value without floating point numbers is the value. -/
theorem eq_ok_of_any_beq {x : Except ε Json} {v : Json} (hv : v.HasNoFloats)
    (h : x.toOption.any v.beq) : x = .ok v := by
  cases x with
  | error e => cases h
  | ok w => rw [hv.eq_of_beq h]

theorem bind_eq_ok {x : Except ε α} {f : α → Except ε β} {b : β} :
    x >>= f = .ok b ↔ ∃ a, x = .ok a ∧ f a = .ok b := by
  cases x <;> simp

theorem map_eq_ok {x : Except ε α} {f : α → β} {b : β} :
    x.map f = .ok b ↔ ∃ a, x = .ok a ∧ f a = b := by
  cases x <;> simp [Except.map]

/-! ### Blanks -/

theorem dropBlanks_cons {c : Char} {r : List Char} (h : isBlank c = false) :
    dropBlanks (c :: r) = c :: r := by
  simp [dropBlanks, h]

theorem length_dropBlanks_le (s : List Char) : (dropBlanks s).length ≤ s.length :=
  (List.dropWhile_suffix _).length_le

theorem length_of_dropBlanks {s r : List Char} {c : Char} (h : dropBlanks s = c :: r) :
    r.length + 1 ≤ s.length := by
  simpa [h] using length_dropBlanks_le s

/-! ### Items -/

theorem length_le_of_nextItem {reportsComma isFirst isThere : Bool} {s r : List Char}
    (h : nextItem reportsComma isFirst s = .ok (isThere, r)) : r.length ≤ s.length := by
  unfold nextItem at h
  grind [length_of_dropBlanks, length_dropBlanks_le]

/-- Where a list ends there is its closing bracket. -/
theorem dropBlanks_of_nextItem_false {reportsComma isFirst : Bool} {s r : List Char}
    (h : nextItem reportsComma isFirst s = .ok (false, r)) :
    dropBlanks s = r ∧ ∃ t, r = ']' :: t := by
  unfold nextItem at h
  grind

/-- Where a list goes on there is a comma. -/
theorem dropBlanks_of_nextItem_true {reportsComma : Bool} {s r : List Char}
    (h : nextItem reportsComma false s = .ok (true, r)) : ∃ t, dropBlanks s = ',' :: t := by
  unfold nextItem at h
  grind

/-- The items of a list are read one after the other. -/
theorem items_succ_eq_ok {reportsComma isFirst : Bool} {item : Reader α} {bound : Nat}
    {s r : List Char} {as : List α}
    (h : items reportsComma item (bound + 1) isFirst s = .ok (as, r)) :
    as = [] ∧ nextItem reportsComma isFirst s = .ok (false, r) ∨
      ∃ s₁ a s₂ as', nextItem reportsComma isFirst s = .ok (true, s₁) ∧ item s₁ = .ok (a, s₂) ∧
        items reportsComma item bound false s₂ = .ok (as', r) ∧ as = a :: as' := by
  rw [items] at h
  obtain ⟨⟨isThere, s₁⟩, hnext, h⟩ := bind_eq_ok.1 h
  cases isThere with
  | false =>
    simp only [Bool.false_eq_true, ↓reduceIte, pure_eq_ok, Except.ok.injEq, Prod.mk.injEq] at h
    obtain ⟨rfl, rfl⟩ := h
    exact .inl ⟨rfl, hnext⟩
  | true =>
    simp only [↓reduceIte] at h
    obtain ⟨⟨a, s₂⟩, ha, h⟩ := bind_eq_ok.1 h
    obtain ⟨⟨as', s₃⟩, has, h⟩ := bind_eq_ok.1 h
    simp only [pure_eq_ok, Except.ok.injEq, Prod.mk.injEq] at h
    obtain ⟨rfl, rfl⟩ := h
    exact .inr ⟨s₁, a, s₂, as', hnext, ha, has, rfl⟩

theorem length_le_of_items {reportsComma : Bool} {item : Reader α}
    (hitem : ∀ {s a r}, item s = .ok (a, r) → r.length ≤ s.length) {bound : Nat} {isFirst : Bool}
    {s r : List Char} {as : List α}
    (h : items reportsComma item bound isFirst s = .ok (as, r)) : r.length ≤ s.length := by
  induction bound generalizing isFirst s as with
  | zero => cases h
  | succ bound ih =>
    rcases items_succ_eq_ok h with ⟨-, hnext⟩ | ⟨s₁, a, s₂, as', hnext, ha, has, -⟩
    · exact length_le_of_nextItem hnext
    · exact Nat.le_trans (ih has) (Nat.le_trans (hitem ha) (length_le_of_nextItem hnext))

/-- No bound is needed above the length of the text if each item takes something off it. -/
theorem items_of_length {reportsComma : Bool} {item : Reader α}
    (hitem : ∀ {s a r}, item s = .ok (a, r) → r.length < s.length) {bound bound' : Nat}
    {isFirst : Bool} {s r : List Char} {as : List α} (hb : s.length < bound')
    (h : items reportsComma item bound isFirst s = .ok (as, r)) :
    items reportsComma item bound' isFirst s = .ok (as, r) := by
  induction bound generalizing bound' isFirst s as with
  | zero => cases h
  | succ bound ih =>
    obtain ⟨bound', rfl⟩ := Nat.exists_eq_add_one.2 (Nat.zero_lt_of_lt hb)
    rcases items_succ_eq_ok h with ⟨rfl, hnext⟩ | ⟨s₁, a, s₂, as', hnext, ha, has, rfl⟩
    · simp [items, hnext]
    · have h₁ := length_le_of_nextItem hnext
      have h₂ := hitem ha
      have hrest : items reportsComma item bound' false s₂ = .ok (as', r) := ih (by omega) has
      simp [items, hnext, ha, hrest]

/-- A list that was read ends with its closing bracket. -/
theorem dropBlanks_of_items {reportsComma : Bool} {item : Reader α} {bound : Nat} {isFirst : Bool}
    {s r : List Char} {as : List α} (h : items reportsComma item bound isFirst s = .ok (as, r)) :
    ∃ t, r = ']' :: t := by
  induction bound generalizing isFirst s as with
  | zero => cases h
  | succ bound ih =>
    rcases items_succ_eq_ok h with ⟨-, hnext⟩ | ⟨s₁, a, s₂, as', -, -, has, -⟩
    · exact (dropBlanks_of_nextItem_false hnext).2
    · exact ih has

@[simp] theorem closeList_bracket (r : List Char) : closeList (']' :: r) = .ok r := rfl

@[simp] theorem closeObject_brace (r : List Char) : closeObject ('\x7d' :: r) = .ok r := rfl

theorem toOption_enclosed (close : List Char → Except Failure (List Char))
    (x : Except Failure (α × List Char)) :
    (enclosed close x).toOption =
      x.toOption.bind fun p => (close p.2).toOption.map fun r => (p.1, r) := by
  rcases x with (_ | _) | ⟨a, r⟩ <;> simp [enclosed]

theorem enclosed_eq_ok {close : List Char → Except Failure (List Char)}
    {x : Except Failure (α × List Char)} {a : α} {r : List Char}
    (h : enclosed close x = .ok (a, r)) : ∃ s, x = .ok (a, s) ∧ close s = .ok r := by
  rw [← toOption_eq_some, toOption_enclosed] at h
  obtain ⟨⟨a', s⟩, hx, h⟩ := Option.bind_eq_some_iff.1 h
  obtain ⟨r', hr, h⟩ := Option.map_eq_some_iff.1 h
  obtain ⟨rfl, rfl⟩ := Prod.mk.inj h
  exact ⟨s, toOption_eq_some.1 hx, toOption_eq_some.1 hr⟩

/-- The items of a list, up to its closing bracket. -/
theorem listBody_eq_ok {reportsComma : Bool} {item : Reader α} {s r : List Char} {as : List α}
    (h : listBody reportsComma item s = .ok (as, r)) :
    items reportsComma item (s.length + 1) true s = .ok (as, ']' :: r) := by
  obtain ⟨s', hitems, hclose⟩ := enclosed_eq_ok h
  obtain ⟨t, rfl⟩ := dropBlanks_of_items hitems
  rw [closeList_bracket, Except.ok.injEq] at hclose
  rw [hitems, hclose]

/-! ### Members -/

theorem length_le_of_nextName {reportsComma isFirst isThere : Bool} {s r : List Char}
    (h : nextName reportsComma isFirst s = .ok (isThere, r)) : r.length ≤ s.length := by
  unfold nextName at h
  grind [length_of_dropBlanks, length_dropBlanks_le]

/-- Where an object ends there is its closing brace. -/
theorem dropBlanks_of_nextName_false {reportsComma isFirst : Bool} {s r : List Char}
    (h : nextName reportsComma isFirst s = .ok (false, r)) :
    dropBlanks s = r ∧ ∃ t, r = '\x7d' :: t := by
  unfold nextName at h
  grind

theorem length_le_of_colon {s r : List Char} (h : colon s = .ok r) : r.length ≤ s.length := by
  unfold colon at h
  split at h
  · cases h
  case h_2 c t hs =>
    have hlen := length_of_dropBlanks hs
    split_ifs at h
    cases h
    omega

/-- The members of an object are read one after the other: the name, a colon, the value. -/
theorem members_succ_eq_ok {reportsComma isFirst : Bool} {name : Reader κ}
    {member : σ → κ → Except Cause (Reader σ)} {bound : Nat} {state last : σ} {s r : List Char}
    (h : members reportsComma name member (bound + 1) isFirst state s = .ok (last, r)) :
    last = state ∧ nextName reportsComma isFirst s = .ok (false, r) ∨
      ∃ s₁ k s₂ value s₃ state' s₄, nextName reportsComma isFirst s = .ok (true, s₁) ∧
        name s₁ = .ok (k, s₂) ∧ member state k = .ok value ∧ colon s₂ = .ok s₃ ∧
        value s₃ = .ok (state', s₄) ∧
        members reportsComma name member bound false state' s₄ = .ok (last, r) := by
  rw [members] at h
  obtain ⟨⟨isThere, s₁⟩, hnext, h⟩ := bind_eq_ok.1 h
  cases isThere with
  | false =>
    simp only [Bool.false_eq_true, ↓reduceIte, pure_eq_ok, Except.ok.injEq, Prod.mk.injEq] at h
    obtain ⟨rfl, rfl⟩ := h
    exact .inl ⟨rfl, hnext⟩
  | true =>
    simp only [↓reduceIte] at h
    obtain ⟨⟨k, s₂⟩, hk, h⟩ := bind_eq_ok.1 h
    -- The name may be refused before anything of its value is read.
    cases hmember : member state k with
    | error cause => simp [hmember] at h
    | ok value =>
      simp only [hmember] at h
      obtain ⟨s₃, hcolon, h⟩ := bind_eq_ok.1 h
      obtain ⟨⟨state', s₄⟩, hvalue, h⟩ := bind_eq_ok.1 h
      exact .inr ⟨s₁, k, s₂, value, s₃, state', s₄, hnext, hk, hmember, hcolon, hvalue, h⟩

theorem length_le_of_members {reportsComma : Bool} {name : Reader κ}
    (hname : ∀ {s k r}, name s = .ok (k, r) → r.length ≤ s.length)
    {member : σ → κ → Except Cause (Reader σ)}
    (hmember : ∀ {state k value s last r}, member state k = .ok value → value s = .ok (last, r) →
      r.length ≤ s.length) {bound : Nat} {isFirst : Bool} {state last : σ} {s r : List Char}
    (h : members reportsComma name member bound isFirst state s = .ok (last, r)) :
    r.length ≤ s.length := by
  induction bound generalizing isFirst state s with
  | zero => cases h
  | succ bound ih =>
    rcases members_succ_eq_ok h with
        ⟨-, hnext⟩ | ⟨s₁, k, s₂, value, s₃, state', s₄, hnext, hk, hm, hcolon, hvalue, hrest⟩
    · exact length_le_of_nextName hnext
    · have h₁ := length_le_of_nextName hnext
      have h₂ := hname hk
      have h₃ := length_le_of_colon hcolon
      have h₄ := hmember hm hvalue
      have h₅ := ih hrest
      omega

/-- An object that was read ends with its closing brace. -/
theorem brace_of_members {reportsComma : Bool} {name : Reader κ}
    {member : σ → κ → Except Cause (Reader σ)} {bound : Nat} {isFirst : Bool} {state last : σ}
    {s r : List Char}
    (h : members reportsComma name member bound isFirst state s = .ok (last, r)) :
    ∃ t, r = '\x7d' :: t := by
  induction bound generalizing isFirst state s with
  | zero => cases h
  | succ bound ih =>
    rcases members_succ_eq_ok h with
        ⟨-, hnext⟩ | ⟨s₁, k, s₂, value, s₃, state', s₄, -, -, -, -, -, hrest⟩
    · exact (dropBlanks_of_nextName_false hnext).2
    · exact ih hrest

/-- The members of an object, up to its closing brace. -/
theorem membersFrom_eq_ok {start last : σ} {member : σ → String → Except Cause (Reader σ)}
    {s r : List Char} (h : enclosed closeObject (membersFrom start member s) = .ok (last, r)) :
    members true quotation member (s.length + 1) true start s = .ok (last, '\x7d' :: r) := by
  obtain ⟨s', hmembers, hclose⟩ := enclosed_eq_ok h
  obtain ⟨t, rfl⟩ := brace_of_members hmembers
  rw [closeObject_brace, Except.ok.injEq] at hclose
  rw [← hclose]
  exact hmembers

theorem objectBody_eq_ok {item : Reader α} {s r : List Char} {ms : List (String × α)}
    (h : enclosed closeObject (objectBody item s) = .ok (ms, r)) :
    enclosed closeObject (membersFrom [] (keepMember item) s) = .ok (ms.reverse, r) := by
  obtain ⟨s', hbody, hclose⟩ := enclosed_eq_ok h
  obtain ⟨⟨last, s''⟩, hmembers, hlast⟩ := bind_eq_ok.1 hbody
  simp only [pure_eq_ok, Except.ok.injEq, Prod.mk.injEq] at hlast
  obtain ⟨rfl, rfl⟩ := hlast
  simp [hmembers, enclosed, hclose, Except.map]

/-! ### Scalars -/

theorem length_le_of_fourHex {s r : List Char} {n : Nat} (h : fourHex s = .ok (n, r)) :
    r.length ≤ s.length := by
  unfold fourHex at h
  grind

theorem length_le_of_escapedChar {s r : List Char} {c : Char} (h : escapedChar s = .ok (c, r)) :
    r.length ≤ s.length := by
  unfold escapedChar numberedChar lowHalf at h
  simp only [] at h
  split at h
  · cases h
  · split_ifs at h
    · obtain ⟨⟨n, r₁⟩, hn, h⟩ := bind_eq_ok.1 h
      have := length_le_of_fourHex hn
      simp only at h
      split_ifs at h
      · split at h
        · obtain ⟨⟨n, r₁⟩, hn, h⟩ := bind_eq_ok.1 h
          have := length_le_of_fourHex hn
          grind
        all_goals cases h
      · grind
    · grind

theorem length_le_of_quotedChars {bound : Nat} {s r : List Char} {cs : List Char}
    (h : quotedChars bound s = .ok (cs, r)) : r.length ≤ s.length := by
  induction bound generalizing s cs with
  | zero => cases s <;> cases h
  | succ bound ih =>
    cases s with
    | nil => cases h
    | cons c s =>
      rw [quotedChars] at h
      split_ifs at h
      · grind
      · obtain ⟨⟨d, s₁⟩, hd, h⟩ := bind_eq_ok.1 h
        obtain ⟨⟨ds, s₂⟩, hds, h⟩ := bind_eq_ok.1 h
        have := length_le_of_escapedChar hd
        cases h
        have := ih hds
        simp only [List.length_cons]
        omega
      · obtain ⟨⟨ds, s₂⟩, hds, h⟩ := bind_eq_ok.1 h
        cases h
        exact Nat.le_succ_of_le (ih hds)

theorem length_le_of_word {cs s r : List Char} (h : word cs s = .ok r) : r.length ≤ s.length := by
  induction cs generalizing s with
  | nil => cases h; exact Nat.le_refl _
  | cons c cs ih =>
    cases s with
    | nil => cases h
    | cons d s =>
      rw [word] at h
      split_ifs at h
      exact Nat.le_succ_of_le (ih h)

namespace Numeral

variable {c : Cause} {s ds r : List Char}

theorem length_le_of_spanDigits (h : spanDigits s = (ds, r)) : r.length ≤ s.length := by
  obtain ⟨-, rfl⟩ := Prod.mk.inj h
  exact (List.dropWhile_suffix _).length_le

theorem length_lt_of_scanWhole (h : scanWhole c s = .ok (ds, r)) : r.length < s.length := by
  unfold scanWhole at h
  split at h
  · cases h
  · grind
  case h_3 d t _ =>
    split_ifs at h with hd
    rw [spanDigits, List.dropWhile_cons_of_pos hd, Except.ok.injEq, Prod.mk.injEq] at h
    obtain ⟨-, rfl⟩ := h
    exact Nat.lt_succ_of_le (List.dropWhile_suffix _).length_le

theorem length_le_of_scanFraction (h : scanFraction c s = .ok (ds, r)) : r.length ≤ s.length := by
  unfold scanFraction at h
  grind [→ length_le_of_spanDigits]

theorem length_le_of_scanSign {b : Bool} (h : scanSign s = (b, r)) : r.length ≤ s.length := by
  unfold scanSign at h
  grind

theorem length_le_of_scanExponent {e : Option (Bool × List Char)}
    (h : scanExponent c s = .ok (e, r)) : r.length ≤ s.length := by
  unfold scanExponent at h
  grind [→ length_le_of_spanDigits, → length_le_of_scanSign]

/-- The parts of a number are read one after the other: the sign, the whole part, the fraction and
the exponent. -/
theorem scan_eq_ok {n : Numeral} (h : scan c s = .ok (n, r)) :
    ∃ s₀ s₁ s₂, (s = '-' :: s₀ ∧ n.isNegative = true ∨
        (∀ t, s ≠ '-' :: t) ∧ s = s₀ ∧ n.isNegative = false) ∧
      scanWhole c s₀ = .ok (n.whole, s₁) ∧
      scanFraction c s₁ = .ok (n.fraction, s₂) ∧
      scanExponent c s₂ = .ok (n.exponent, r) := by
  unfold scan at h
  simp only at h
  split at h
  case h_1 s₀ =>
    obtain ⟨⟨whole, s₁⟩, hwhole, h⟩ := bind_eq_ok.1 h
    obtain ⟨⟨fraction, s₂⟩, hfraction, h⟩ := bind_eq_ok.1 h
    obtain ⟨⟨exponent, s₃⟩, hexponent, h⟩ := bind_eq_ok.1 h
    cases h
    exact ⟨s₀, s₁, s₂, .inl ⟨rfl, rfl⟩, hwhole, hfraction, hexponent⟩
  case h_2 hsign =>
    obtain ⟨⟨whole, s₁⟩, hwhole, h⟩ := bind_eq_ok.1 h
    obtain ⟨⟨fraction, s₂⟩, hfraction, h⟩ := bind_eq_ok.1 h
    obtain ⟨⟨exponent, s₃⟩, hexponent, h⟩ := bind_eq_ok.1 h
    cases h
    exact ⟨s, s₁, s₂, .inr ⟨hsign, rfl, rfl⟩, hwhole, hfraction, hexponent⟩

theorem length_lt_of_scan {n : Numeral} (h : scan c s = .ok (n, r)) : r.length < s.length := by
  obtain ⟨s₀, s₁, s₂, hsign, hwhole, hfraction, hexponent⟩ := scan_eq_ok h
  have h₀ : s₀.length ≤ s.length := by
    rcases hsign with ⟨rfl, -⟩ | ⟨-, rfl, -⟩
    · exact Nat.le_succ _
    · exact Nat.le_refl _
  have h₁ := length_lt_of_scanWhole hwhole
  have h₂ := length_le_of_scanFraction hfraction
  have h₃ := length_le_of_scanExponent hexponent
  omega

end Numeral

theorem number_eq_ok {s r : List Char} {v : Json} (h : number s = .ok (v, r)) :
    ∃ n, Numeral.scan .endInValue s = .ok (n, r) ∧ n.value r = .ok v := by
  obtain ⟨⟨n, s₁⟩, hn, h⟩ := bind_eq_ok.1 h
  obtain ⟨w, hw, h⟩ := bind_eq_ok.1 h
  cases h
  exact ⟨n, hn, hw⟩

/-- A number stands for a whole number or a floating point number. -/
theorem isScalar_of_numeral {n : Numeral} {r : List Char} {v : Json} (h : n.value r = .ok v) :
    v.IsScalar := by
  unfold Numeral.value at h
  simp only at h
  split_ifs at h
  · cases h; trivial
  · cases h; trivial
  -- All others are floating point numbers, if they are within the range.
  all_goals
    obtain ⟨x, -, rfl⟩ := map_eq_ok.1 h
    trivial

/-- What a value that is not a container starts with decides how it is read. -/
theorem scalar_eq_ok {s r : List Char} {v : Json} (h : scalar s = .ok (v, r)) :
    ∃ c t, s = c :: t ∧
      (c = 'n' ∧ word ['u', 'l', 'l'] t = .ok r ∧ v = null ∨
        c = 't' ∧ word ['r', 'u', 'e'] t = .ok r ∧ v = bool true ∨
        c = 'f' ∧ word ['a', 'l', 's', 'e'] t = .ok r ∧ v = bool false ∨
        (∃ text, c = '"' ∧ quotation t = .ok (text, r) ∧ v = string text) ∨
        (c ≠ 'n' ∧ c ≠ 't' ∧ c ≠ 'f' ∧ c ≠ '"' ∧ (c = '-' ∨ c.isDigit)) ∧
          number (c :: t) = .ok (v, r)) := by
  cases s with
  | nil => cases h
  | cons c t =>
    refine ⟨c, t, rfl, ?_⟩
    rw [scalar] at h
    split_ifs at h with hn ht hf hq hnum
    · obtain ⟨r', hr, h⟩ := bind_eq_ok.1 h
      cases h
      exact .inl ⟨hn, hr, rfl⟩
    · obtain ⟨r', hr, h⟩ := bind_eq_ok.1 h
      cases h
      exact .inr (.inl ⟨ht, hr, rfl⟩)
    · obtain ⟨r', hr, h⟩ := bind_eq_ok.1 h
      cases h
      exact .inr (.inr (.inl ⟨hf, hr, rfl⟩))
    · obtain ⟨⟨text, r'⟩, htext, h⟩ := bind_eq_ok.1 h
      cases h
      exact .inr (.inr (.inr (.inl ⟨text, hq, htext, rfl⟩)))
    · exact .inr (.inr (.inr (.inr ⟨⟨hn, ht, hf, hq, hnum⟩, h⟩)))

theorem quotation_eq_ok {s r : List Char} {text : String} (h : quotation s = .ok (text, r)) :
    ∃ cs, quotedChars s.length s = .ok (cs, r) ∧ text = String.ofList cs := by
  obtain ⟨⟨cs, r'⟩, hcs, h⟩ := bind_eq_ok.1 h
  cases h
  exact ⟨cs, hcs, rfl⟩

theorem length_le_of_quotation {s r : List Char} {text : String}
    (h : quotation s = .ok (text, r)) : r.length ≤ s.length := by
  obtain ⟨cs, hcs, -⟩ := quotation_eq_ok h
  exact length_le_of_quotedChars hcs

theorem isScalar_of_scalar {s r : List Char} {v : Json} (h : scalar s = .ok (v, r)) :
    v.IsScalar := by
  obtain ⟨c, t, rfl, ⟨-, -, rfl⟩ | ⟨-, -, rfl⟩ | ⟨-, -, rfl⟩ | ⟨text, -, -, rfl⟩ | ⟨-, h⟩⟩ :=
    scalar_eq_ok h
  · trivial
  · trivial
  · trivial
  · trivial
  · obtain ⟨n, -, hv⟩ := number_eq_ok h
    exact isScalar_of_numeral hv

theorem length_lt_of_scalar {s r : List Char} {v : Json} (h : scalar s = .ok (v, r)) :
    r.length < s.length := by
  obtain ⟨c, t, rfl, ⟨-, h, -⟩ | ⟨-, h, -⟩ | ⟨-, h, -⟩ | ⟨text, -, h, -⟩ | ⟨-, h⟩⟩ :=
    scalar_eq_ok h
  · exact Nat.lt_succ_of_le (length_le_of_word h)
  · exact Nat.lt_succ_of_le (length_le_of_word h)
  · exact Nat.lt_succ_of_le (length_le_of_word h)
  · exact Nat.lt_succ_of_le (length_le_of_quotation h)
  · obtain ⟨n, h, -⟩ := number_eq_ok h
    exact Numeral.length_lt_of_scan h

/-! ### Values -/

/-- What a value starts with decides whether it is a list, an object or neither. -/
theorem value_eq_ok {n : Nat} {s r : List Char} {v : Json} (h : value n s = .ok (v, r)) :
    (∃ m t vs, n = m + 1 ∧ dropBlanks s = '[' :: t ∧ listBody true (value m) t = .ok (vs, r) ∧
        v = array vs) ∨
      (∃ m t ms, n = m + 1 ∧ dropBlanks s = '\x7b' :: t ∧
        enclosed closeObject (objectBody (value m) t) = .ok (ms, r) ∧ v = object ms) ∨
      ∃ c t, dropBlanks s = c :: t ∧ c ≠ '[' ∧ c ≠ '\x7b' ∧ scalar (c :: t) = .ok (v, r) := by
  unfold value at h
  split at h
  · cases h
  case h_2 c t hs =>
    split_ifs at h with hlist hobject
    -- A container is opened only if there is room for one more.
    · cases n with
      | zero => cases h
      | succ m =>
        obtain ⟨⟨vs, r'⟩, hvs, h⟩ := bind_eq_ok.1 h
        cases h
        exact .inl ⟨m, t, vs, rfl, hlist ▸ hs, hvs, rfl⟩
    · cases n with
      | zero => cases h
      | succ m =>
        obtain ⟨⟨ms, r'⟩, hms, h⟩ := bind_eq_ok.1 h
        cases h
        exact .inr (.inl ⟨m, t, ms, rfl, hobject ▸ hs, hms, rfl⟩)
    · exact .inr (.inr ⟨c, t, hs, hlist, hobject, h⟩)

theorem length_le_of_keepMember {item : Reader α}
    (hitem : ∀ {s a r}, item s = .ok (a, r) → r.length ≤ s.length) {ms : List (String × α)}
    {name : String} {value : Reader (List (String × α))} {s r : List Char} {last}
    (h : keepMember item ms name = .ok value) (hvalue : value s = .ok (last, r)) :
    r.length ≤ s.length := by
  cases h
  obtain ⟨⟨a, r'⟩, ha, h⟩ := bind_eq_ok.1 hvalue
  cases h
  exact hitem ha

/-- A value takes something off the text. -/
theorem length_lt_of_value {n : Nat} {s r : List Char} {v : Json} (h : value n s = .ok (v, r)) :
    r.length < s.length := by
  induction n generalizing s r v with
  | zero =>
    rcases value_eq_ok h with ⟨m, -, -, hn, -⟩ | ⟨m, -, -, hn, -⟩ | ⟨c, t, hs, -, -, hv⟩
    · cases hn
    · cases hn
    · exact Nat.lt_of_lt_of_le (hs ▸ length_lt_of_scalar hv) (length_dropBlanks_le s)
  | succ n ih =>
    -- What is in a container takes something off too, but the bracket or brace is enough.
    have hitem : ∀ {s v r}, value n s = .ok (v, r) → r.length ≤ s.length := fun h =>
      Nat.le_of_lt (ih h)
    rcases value_eq_ok h with
        ⟨m, t, vs, hn, hs, hvs, -⟩ | ⟨m, t, ms, hn, hs, hms, -⟩ | ⟨c, t, hs, -, -, hv⟩
    · cases hn
      have hrest := length_le_of_items hitem (listBody_eq_ok hvs)
      have hlist := length_of_dropBlanks hs
      simp only [List.length_cons] at hrest
      omega
    · cases hn
      have hrest := length_le_of_members length_le_of_quotation (length_le_of_keepMember hitem)
        (membersFrom_eq_ok (objectBody_eq_ok hms))
      have hobject := length_of_dropBlanks hs
      simp only [List.length_cons] at hrest
      omega
    · exact Nat.lt_of_lt_of_le (hs ▸ length_lt_of_scalar hv) (length_dropBlanks_le s)

theorem length_le_of_value {n : Nat} {s r : List Char} {v : Json} (h : value n s = .ok (v, r)) :
    r.length ≤ s.length :=
  Nat.le_of_lt (length_lt_of_value h)

/-! ### Whole texts -/

theorem run_eq_ok {reader : Reader α} {text : String} {a : α} :
    reader.run text = .ok a ↔ ∃ r, reader text.toList = .ok (a, r) ∧ dropBlanks r = [] := by
  unfold Reader.run
  cases reader text.toList with
  | error f => simp
  | ok p =>
    obtain ⟨b, s⟩ := p
    cases h : dropBlanks s <;> simp_all

end StyleModule.Json
