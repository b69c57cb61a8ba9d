import StyleModule.Proofs.Json.Reading

/-!
# What readers can give

`Json.Yields reader P` says that whatever a reader makes of any text has a property, also of a text
that says no JSON value as a whole. What holds of the items of a list holds of all of them, and what
each member of an object preserves holds after the last one (`Json.members_invariant`).

In particular no value is nested deeper than its reader allows (`Json.value_yields`), and all its
whole numbers have 64 bits (`Json.fitsWord_yields`).
-/

namespace StyleModule.Json

variable {α κ σ : Type}

/-- Everything that a reader gives has a property. -/
def Yields (reader : Reader α) (P : α → Prop) : Prop :=
  ∀ ⦃s a r⦄, reader s = .ok (a, r) → P a

theorem Yields.run {reader : Reader α} {P : α → Prop} (h : Yields reader P) {text : String} {a : α}
    (ha : reader.run text = .ok a) : P a := by
  obtain ⟨r, hread, -⟩ := run_eq_ok.1 ha
  exact h hread

theorem Yields.enclosed {reader : Reader α} {P : α → Prop} (h : Yields reader P)
    {close : List Char → Except Failure (List Char)} {s r : List Char} {a : α}
    (ha : Json.enclosed close (reader s) = .ok (a, r)) : P a := by
  obtain ⟨s', hs, -⟩ := enclosed_eq_ok ha
  exact h hs

/-! ### Lists -/

theorem Yields.items {item : Reader α} {P : α → Prop} (h : Yields item P) {reportsComma : Bool}
    {bound : Nat} {isFirst : Bool} {s r : List Char} {as : List α}
    (has : Json.items reportsComma item bound isFirst s = .ok (as, r)) : ∀ a ∈ as, P a := by
  induction bound generalizing isFirst s as with
  | zero => cases has
  | succ bound ih =>
    rcases items_succ_eq_ok has with ⟨rfl, -⟩ | ⟨s₁, a, s₂, as', -, ha, has', rfl⟩
    · exact List.forall_mem_nil _
    · exact List.forall_mem_cons.2 ⟨h ha, ih has'⟩

theorem Yields.listBody {item : Reader α} {P : α → Prop} (h : Yields item P) (reportsComma : Bool) :
    Yields (Json.listBody reportsComma item) fun as => ∀ a ∈ as, P a := by
  intro s as r has
  exact h.items (listBody_eq_ok has)

/-! ### Objects -/

/-- What each member preserves holds after the last one. -/
theorem members_invariant {reportsComma : Bool} {name : Reader κ}
    {member : σ → κ → Except Cause (Reader σ)} {P : σ → Prop}
    (hmember : ∀ state k reader, member state k = .ok reader → P state → Yields reader P)
    {bound : Nat} {isFirst : Bool} {state last : σ} {s r : List Char} (hstate : P state)
    (h : members reportsComma name member bound isFirst state s = .ok (last, r)) : P last := by
  induction bound generalizing isFirst state s with
  | zero => cases h
  | succ bound ih =>
    rcases members_succ_eq_ok h with
        ⟨rfl, -⟩ | ⟨s₁, k, s₂, reader, s₃, state', s₄, -, -, hreader, -, hstate', h⟩
    · exact hstate
    · exact ih (hmember state k reader hreader hstate hstate') h

theorem membersFrom_yields {member : σ → String → Except Cause (Reader σ)} {P : σ → Prop}
    (hmember : ∀ state k reader, member state k = .ok reader → P state → Yields reader P)
    {start : σ} (hstart : P start) : Yields (membersFrom start member) P :=
  fun _ _ _ h => members_invariant hmember hstart h

theorem Yields.objectBody {item : Reader α} {P : α → Prop} (h : Yields item P) :
    Yields (Json.objectBody item) fun ms => ∀ m ∈ ms, P m.2 := by
  have hmember : ∀ ms k reader, keepMember item ms k = .ok reader → (∀ m ∈ ms, P m.2) →
      Yields reader fun ms => ∀ m ∈ ms, P m.2 := by
    intro ms k reader hreader hms s ms' r hms'
    cases hreader
    obtain ⟨⟨a, r'⟩, ha, hms'⟩ := bind_eq_ok.1 hms'
    cases hms'
    exact List.forall_mem_cons.2 ⟨h ha, hms⟩
  intro s ms r hms
  obtain ⟨⟨last, s'⟩, hlast, hms⟩ := bind_eq_ok.1 hms
  cases hms
  intro m hm
  exact membersFrom_yields hmember (List.forall_mem_nil _) hlast m (List.mem_reverse.1 hm)

/-! ### Values -/

/-- No value is nested deeper than its reader allows. -/
theorem value_yields (n : Nat) : Yields (value n) fun v => v.depth ≤ n := by
  induction n with
  | zero =>
    intro s v r h
    rcases value_eq_ok h with ⟨m, -, -, hm, -⟩ | ⟨m, -, -, hm, -⟩ | ⟨c, t, -, -, -, hv⟩
    · cases hm
    · cases hm
    · exact Nat.le_of_eq (depth_scalar (isScalar_of_scalar hv))
  | succ n ih =>
    intro s v r h
    rcases value_eq_ok h with
        ⟨m, t, vs, hm, -, hvs, rfl⟩ | ⟨m, t, ms, hm, -, hms, rfl⟩ | ⟨c, t, -, -, -, hv⟩
    · cases hm
      exact depth_array_le_iff.2 (ih.listBody true hvs)
    · cases hm
      exact depth_object_le_iff.2 (ih.objectBody.enclosed hms)
    · rw [depth_scalar (isScalar_of_scalar hv)]
      exact Nat.zero_le _

/-- What holds of everything that is not a container, and of all containers, holds everywhere in a
value that is read. -/
theorem everywhere_yields {p : Json → Prop} (hscalar : Yields scalar p)
    (harray : ∀ vs, p (.array vs)) (hobject : ∀ ms, p (.object ms)) (n : Nat) :
    Yields (value n) fun v => v.Everywhere p := by
  have heverywhere : ∀ v : Json, v.IsScalar → p v → v.Everywhere p := by
    intro v hv hp
    cases hv using IsScalar.cases <;> exact hp
  induction n with
  | zero =>
    intro s v r h
    rcases value_eq_ok h with ⟨m, -, -, hm, -⟩ | ⟨m, -, -, hm, -⟩ | ⟨c, t, -, -, -, hv⟩
    · cases hm
    · cases hm
    · exact heverywhere v (isScalar_of_scalar hv) (hscalar hv)
  | succ n ih =>
    intro s v r h
    rcases value_eq_ok h with
        ⟨m, t, vs, hm, -, hvs, rfl⟩ | ⟨m, t, ms, hm, -, hms, rfl⟩ | ⟨c, t, -, -, -, hv⟩
    · cases hm
      exact everywhere_array.2 ⟨harray vs, ih.listBody true hvs⟩
    · cases hm
      exact everywhere_object.2 ⟨hobject ms, ih.objectBody.enclosed hms⟩
    · exact heverywhere v (isScalar_of_scalar hv) (hscalar hv)

/-! ### Whole numbers -/

theorem gather_le {limit : Nat} (ds : List Char) {n : Nat} (hn : n ≤ limit) :
    (Numeral.gather limit n ds).1 ≤ limit := by
  induction ds generalizing n with
  | nil => exact hn
  | cons d ds ih =>
    rw [Numeral.gather]
    split_ifs with h
    · exact hn
    · exact ih (Nat.not_lt.1 h)

theorem fitsWord_of_numeral {n : Numeral} {r : List Char} {k : Int} (h : n.value r = .ok (.int k)) :
    FitsWord k := by
  have hdigits : (Numeral.gather Numeral.maxUnsigned 0 n.whole).1 ≤ Numeral.maxUnsigned :=
    gather_le n.whole (Nat.zero_le _)
  unfold Numeral.value at h
  simp only at h
  split_ifs at h with hwhole hnegative
  · cases h
    simp only [FitsWord, Numeral.maxUnsigned] at hdigits ⊢
    omega
  · cases h
    simp only [Bool.and_eq_true, decide_eq_true_eq] at hnegative
    simp only [FitsWord]
    omega
  all_goals
    obtain ⟨x, -, hx⟩ := map_eq_ok.1 h
    cases hx

/-- Whole numbers are read only if they have 64 bits. -/
theorem fitsWord_yields (n : Nat) :
    Yields (value n) fun v => v.Everywhere fun w => ∀ k, w = .int k → FitsWord k := by
  refine everywhere_yields ?_ (fun _ _ h => by cases h) (fun _ _ h => by cases h) n
  intro s v r h k hk
  subst hk
  obtain ⟨c, t, rfl, ⟨-, -, hv⟩ | ⟨-, -, hv⟩ | ⟨-, -, hv⟩ | ⟨text, -, -, hv⟩ | ⟨-, h⟩⟩ :=
    scalar_eq_ok h
  · cases hv
  · cases hv
  · cases hv
  · cases hv
  · obtain ⟨n, -, hv⟩ := number_eq_ok h
    exact fitsWord_of_numeral hv

end StyleModule.Json
