import StyleModule.Proofs.Json.Reading

/-!
# Readers that succeed where others do

`Json.Simulates T reader reader' R` says that the second reader succeeds wherever the first one
does, that both leave the same rest, and that `R` relates what they give. It is enough to compare
two readers at the items of a list (`Json.Simulates.items`) or at the members of an object
(`Json.Simulates.members`), and the second one may check less between them.

Only texts with a property `T` are looked at, which has to hold of all shorter texts as well: the
second reader may have a bound that the text has to fit.
-/

namespace StyleModule.Json

variable {α α' β β' κ κ' σ τ : Type} {T : List Char → Prop}

/-- A property of texts that all shorter texts have as well. -/
def Downward (T : List Char → Prop) : Prop :=
  ∀ ⦃s r⦄, T s → r.length ≤ s.length → T r

theorem downward_true : Downward fun _ => True := fun _ _ _ _ => trivial

theorem downward_length_le (n : Nat) : Downward fun s => s.length ≤ n :=
  fun _ _ hs hr => Nat.le_trans hr hs

/-- Wherever a reader succeeds another one does, with the same rest and with a related result. -/
def Simulates (T : List Char → Prop) (reader : Reader α) (reader' : Reader β)
    (R : α → β → Prop) : Prop :=
  ∀ ⦃s a r⦄, T s → reader s = .ok (a, r) → T r ∧ ∃ b, reader' s = .ok (b, r) ∧ R a b

section

variable {reader : Reader α} {reader' : Reader β} {R : α → β → Prop}

theorem Simulates.map_left (h : Simulates T reader reader' R) {f : α → α'}
    {S : α' → β → Prop} (hS : ∀ a b, R a b → S (f a) b) :
    Simulates T (fun s => do let (a, r) ← reader s; return (f a, r)) reader' S := by
  intro s a' r hs ha
  obtain ⟨⟨a, r'⟩, ha, hr⟩ := bind_eq_ok.1 ha
  cases hr
  obtain ⟨hr, b, hb, hab⟩ := h hs ha
  exact ⟨hr, b, hb, hS a b hab⟩

theorem Simulates.map_right (h : Simulates T reader reader' R) {g : β → β'}
    {S : α → β' → Prop} (hS : ∀ a b, R a b → S a (g b)) :
    Simulates T reader (fun s => do let (b, r) ← reader' s; return (g b, r)) S := by
  intro s a r hs ha
  obtain ⟨hr, b, hb, hab⟩ := h hs ha
  exact ⟨hr, g b, by simp [hb], hS a b hab⟩

theorem Simulates.enclosed (h : Simulates T reader reader' R) (hT : Downward T)
    {close : List Char → Except Failure (List Char)}
    (hclose : ∀ {s r}, close s = .ok r → r.length ≤ s.length) :
    Simulates T (fun s => Json.enclosed close (reader s))
      (fun s => Json.enclosed close (reader' s)) R := by
  intro s a r hs ha
  obtain ⟨s', ha, hr⟩ := enclosed_eq_ok ha
  obtain ⟨hs', b, hb, hab⟩ := h hs ha
  exact ⟨hT hs' (hclose hr), b, by simp [hb, Json.enclosed, hr, Except.map], hab⟩

end

/-! ### Items -/

theorem nextItem_of_nextItem {isFirst : Bool} {s : List Char} {x : Bool × List Char}
    (h : nextItem true isFirst s = .ok x) (reportsComma : Bool) :
    nextItem reportsComma isFirst s = .ok x := by
  unfold nextItem at h ⊢
  grind

/-- Items are read one after the other by both readers. -/
theorem Simulates.items {item : Reader α} {item' : Reader β} {R : α → β → Prop}
    (h : Simulates T item item' R) (hT : Downward T) (reportsComma : Bool) (bound : Nat)
    (isFirst : Bool) :
    Simulates T (Json.items true item bound isFirst)
      (Json.items reportsComma item' bound isFirst) (List.Forall₂ R) := by
  induction bound generalizing isFirst with
  | zero =>
    intro s as r _ has
    cases has
  | succ bound ih =>
    intro s as r hs has
    rw [Json.items]
    rcases items_succ_eq_ok has with ⟨rfl, hnext⟩ | ⟨s₁, a, s₂, as', hnext, ha, has', rfl⟩
    · have hr := hT hs (length_le_of_nextItem hnext)
      exact ⟨hr, [], by simp [nextItem_of_nextItem hnext], .nil⟩
    · have hs₁ := hT hs (length_le_of_nextItem hnext)
      obtain ⟨hs₂, b, hb, hab⟩ := h hs₁ ha
      obtain ⟨hr, bs, hbs, hall⟩ := ih false hs₂ has'
      exact ⟨hr, b :: bs, by simp [nextItem_of_nextItem hnext, hb, hbs], .cons hab hall⟩

theorem dropBlanks_of_closeList {s r : List Char} (h : closeList s = .ok r) :
    dropBlanks s = ']' :: r := by
  unfold closeList at h
  split at h
  · cases h
  case h_2 c t hs =>
    simp only at h
    split_ifs at h with hc
    cases h
    rw [hs, hc]

theorem length_le_of_closeList {s r : List Char} (h : closeList s = .ok r) :
    r.length ≤ s.length :=
  Nat.le_of_succ_le (length_of_dropBlanks (dropBlanks_of_closeList h))

theorem Simulates.listBody {item : Reader α} {item' : Reader β} {R : α → β → Prop}
    (h : Simulates T item item' R) (hT : Downward T) (reportsComma : Bool) :
    Simulates T (Json.listBody true item) (Json.listBody reportsComma item') (List.Forall₂ R) := by
  intro s as r hs has
  have hitems := h.items hT reportsComma (s.length + 1) true
  exact hitems.enclosed hT length_le_of_closeList hs has

/-! ### Members -/

theorem nextName_of_nextName {isFirst : Bool} {s : List Char} {x : Bool × List Char}
    (h : nextName true isFirst s = .ok x) (reportsComma : Bool) :
    nextName reportsComma isFirst s = .ok x := by
  unfold nextName at h ⊢
  cases hs : dropBlanks s with
  | nil => simp [hs] at h
  | cons c r =>
    cases hr : dropBlanks r with
    | nil => simp only [hs, hr] at h ⊢; grind
    | cons d t => simp only [hs, hr] at h ⊢; grind

/-- Members are read one after the other by both readers, and with each of them their states stay
related. -/
theorem Simulates.members {name : Reader κ} {name' : Reader κ'} {K : κ → κ' → Prop}
    (hname : Simulates T name name' K) (hT : Downward T)
    {member : σ → κ → Except Cause (Reader σ)} {member' : τ → κ' → Except Cause (Reader τ)}
    {R : σ → τ → Prop}
    (hmember : ∀ state state' k k' reader, R state state' → K k k' → member state k = .ok reader →
      ∃ reader', member' state' k' = .ok reader' ∧ Simulates T reader reader' R)
    (reportsComma : Bool) (bound : Nat) (isFirst : Bool) {state : σ} {state' : τ}
    (hstate : R state state') :
    Simulates T (Json.members true name member bound isFirst state)
      (Json.members reportsComma name' member' bound isFirst state') R := by
  induction bound generalizing isFirst state state' with
  | zero =>
    intro s last r _ hlast
    cases hlast
  | succ bound ih =>
    intro s last r hs hlast
    rw [Json.members]
    rcases members_succ_eq_ok hlast with
        ⟨rfl, hnext⟩ | ⟨s₁, k, s₂, reader, s₃, next, s₄, hnext, hk, hm, hcolon, hvalue, hrest⟩
    · have hr := hT hs (length_le_of_nextName hnext)
      exact ⟨hr, state', by simp [nextName_of_nextName hnext], hstate⟩
    · -- The text gets shorter with each part of the member, so that it keeps its property.
      have hs₁ := hT hs (length_le_of_nextName hnext)
      obtain ⟨hs₂, k', hk', hkk'⟩ := hname hs₁ hk
      obtain ⟨reader', hm', hreader⟩ := hmember state state' k k' reader hstate hkk' hm
      have hs₃ := hT hs₂ (length_le_of_colon hcolon)
      obtain ⟨hs₄, next', hvalue', hnext'⟩ := hreader hs₃ hvalue
      obtain ⟨hr, last', hrest', hlast'⟩ := ih false hnext' hs₄ hrest
      refine ⟨hr, last', ?_, hlast'⟩
      simp [nextName_of_nextName hnext, hk', hm', hcolon, hvalue', hrest']

theorem dropBlanks_of_closeObject {s r : List Char} (h : closeObject s = .ok r) :
    dropBlanks s = '\x7d' :: r := by
  unfold closeObject at h
  split at h
  · cases h
  case h_2 c t hs =>
    split_ifs at h with hc
    cases h
    rw [hs, hc]

theorem length_le_of_closeObject {s r : List Char} (h : closeObject s = .ok r) :
    r.length ≤ s.length :=
  Nat.le_of_succ_le (length_of_dropBlanks (dropBlanks_of_closeObject h))

/-- The members of two objects with the same names. -/
theorem Simulates.membersFrom (hT : Downward T) {member : σ → String → Except Cause (Reader σ)}
    {member' : τ → String → Except Cause (Reader τ)} {R : σ → τ → Prop}
    (hmember : ∀ state state' k reader, R state state' → member state k = .ok reader →
      ∃ reader', member' state' k = .ok reader' ∧ Simulates T reader reader' R)
    {start : σ} {start' : τ} (hstart : R start start') :
    Simulates T (Json.membersFrom start member) (Json.membersFrom start' member') R := by
  intro s last r hs hlast
  have hname : Simulates T quotation quotation Eq := fun _ k _ hs hk =>
    ⟨hT hs (length_le_of_quotation hk), k, hk, rfl⟩
  refine hname.members hT ?_ true (s.length + 1) true hstart hs hlast
  rintro state state' k _ reader hstate rfl hreader
  exact hmember state state' k reader hstate hreader

end StyleModule.Json
