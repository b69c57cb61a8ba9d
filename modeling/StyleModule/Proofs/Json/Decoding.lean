import StyleModule.Json.Shape
import StyleModule.Proofs.Json.Passing

/-!
# Typed readers follow the reader of JSON values

A typed reader takes a text apart by itself. `Json.Follows n reader decode` says what it makes of a
text that says a JSON value: what `decode` makes of the value, and it fails where `decode` gives
nothing. Both leave the same rest. There is one such fact for each shape of
`StyleModule.Json.Shape`; a repeated name of a map is decoded like the insertion of its values one
after the other.

What a typed reader makes of a text that says no JSON value is left open here. It may still succeed,
if what cannot be read is passed over.
-/

namespace StyleModule.Json

variable {α σ : Type} {n : Nat}

/-- What a reader makes of a text is what a function makes of the value that the text says. -/
def Follows (n : Nat) (reader : Reader α) (decode : Json → Option α) : Prop :=
  ∀ ⦃s v r⦄, value n s = .ok (v, r) → (reader s).toOption = (decode v).map fun a => (a, r)

/-- A text says a value: it can be read as a whole, and this is what is read. -/
def Says (text : String) (v : Json) : Prop := Reader.run (value maxOpen) text = .ok v

/-- What is read is what is made of the value, and the rests are the same. -/
theorem Follows.eq_some {reader : Reader α} {decode : Json → Option α} (h : Follows n reader decode)
    {s r r' : List Char} {v : Json} {a : α} (hv : value n s = .ok (v, r))
    (ha : reader s = .ok (a, r')) : decode v = some a ∧ r' = r := by
  have hread := h hv
  rw [ha, toOption_ok, eq_comm, Option.map_eq_some_iff] at hread
  obtain ⟨b, hb, hab⟩ := hread
  cases hab
  exact ⟨hb, rfl⟩

theorem Follows.run {reader : Reader α} {decode : Json → Option α}
    (h : Follows maxOpen reader decode) {text : String} {v : Json} (hv : Says text v) :
    (reader.run text).toOption = decode v := by
  obtain ⟨s, hvalue, hs⟩ := run_eq_ok.1 hv
  cases hr : reader text.toList with
  | error f =>
    have hread := h hvalue
    have hnone : decode v = none := by simpa [hr] using hread.symm
    simp [Reader.run, hr, hnone]
  | ok p =>
    obtain ⟨a, r⟩ := p
    obtain ⟨ha, rfl⟩ := h.eq_some hvalue hr
    rw [ha, toOption_eq_some]
    exact run_eq_ok.2 ⟨r, hr, hs⟩

/-! ### Lists -/

theorem Follows.items {item : Reader α} {decode : Json → Option α} (h : Follows n item decode)
    {bound : Nat} {isFirst : Bool} {s r : List Char} {vs : List Json}
    (hs : items true (value n) bound isFirst s = .ok (vs, r)) :
    (items true item bound isFirst s).toOption = (vs.mapM decode).map fun as => (as, r) := by
  induction bound generalizing isFirst s vs with
  | zero => cases hs
  | succ bound ih =>
    rw [Json.items]
    rcases items_succ_eq_ok hs with ⟨rfl, hnext⟩ | ⟨s₁, v, s₂, vs', hnext, hv, hvs, rfl⟩
    · simp [hnext]
    · -- The reader and the decoding stop at the same item, if they stop.
      simp only [hnext, ok_bind, ↓reduceIte, toOption_bind, h hv, List.mapM_cons]
      cases decode v with
      | none => rfl
      | some a =>
        simp only [Option.map_some, Option.bind_some, ih hvs]
        cases vs'.mapM decode <;> rfl

/-- A list goes on with the given values up to its closing bracket. -/
def Ahead (n : Nat) (isFirst : Bool) (s : List Char) (vs : List Json) (r : List Char) : Prop :=
  ∃ bound, items true (value n) bound isFirst s = .ok (vs, ']' :: r)

/-- What is made of a value that may be missing. -/
def present? (decode : Json → Option α) : Option Json → Option (Option α)
  | none => some none
  | some v => (decode v).map some

theorem Ahead.item {item : Reader α} {decode : Json → Option α} (h : Follows n item decode)
    {isFirst : Bool} {s r : List Char} {vs : List Json} {k : Nat}
    (hs : Ahead n isFirst s (vs.drop k) r) :
    ∃ s', (item? isFirst item s).toOption = (present? decode vs[k]?).map (fun a => (a, s')) ∧
      Ahead n false s' (vs.drop (k + 1)) r := by
  obtain ⟨_ | bound, hs⟩ := hs
  · cases hs
  rw [← List.head?_drop, ← List.tail_drop]
  rcases items_succ_eq_ok hs with ⟨hvs, hnext⟩ | ⟨s₁, v, s₂, vs', hnext, hv, hvs', hvs⟩
  · refine ⟨']' :: r, by simp [item?, hnext, hvs, present?], 1, ?_⟩
    simp [hvs, Json.items, nextItem, dropBlanks_cons (c := ']') (r := r) (by decide)]
  · refine ⟨s₂, ?_, bound, by simpa [hvs] using hvs'⟩
    simp only [item?, hnext, ok_bind, ↓reduceIte, toOption_bind, h hv, hvs, List.head?_cons,
      present?]
    cases decode v <;> rfl

theorem Ahead.close {s r : List Char} {vs : List Json} (hs : Ahead n false s vs r) :
    (closeList s).toOption = if vs = [] then some r else none := by
  obtain ⟨_ | bound, hs⟩ := hs
  · cases hs
  rcases items_succ_eq_ok hs with ⟨rfl, hnext⟩ | ⟨s₁, v, s₂, vs', hnext, hv, hvs', rfl⟩
  · obtain ⟨hs, -⟩ := dropBlanks_of_nextItem_false hnext
    simp [closeList, hs]
  · obtain ⟨t, hs⟩ := dropBlanks_of_nextItem_true hnext
    simp [closeList, hs]

theorem ahead_of_listBody {s r : List Char} {vs : List Json}
    (h : listBody true (value n) s = .ok (vs, r)) : Ahead n true s vs r :=
  ⟨_, listBody_eq_ok h⟩

/-! ### Objects -/

/-- What is made of a member with the state before it. -/
def FollowsMember (n : Nat) (member : σ → String → Except Cause (Reader σ))
    (step : σ → String × Json → Option σ) : Prop :=
  ∀ ⦃state k s v r⦄, value n s = .ok (v, r) →
    ((member state k).toOption.bind fun reader => (reader s).toOption) =
      (step state (k, v)).map fun state => (state, r)

theorem FollowsMember.members {member : σ → String → Except Cause (Reader σ)}
    {step : σ → String × Json → Option σ} (h : FollowsMember n member step) {bound : Nat}
    {isFirst : Bool} {s r : List Char} {before last : List (String × Json)}
    (hs : members true quotation (keepMember (value n)) bound isFirst before s = .ok (last, r))
    (state : σ) :
    ∃ ms : List (String × Json), last = ms.reverse ++ before ∧
      (members true quotation member bound isFirst state s).toOption =
        (ms.foldlM step state).map fun state => (state, r) := by
  induction bound generalizing isFirst s before state with
  | zero => cases hs
  | succ bound ih =>
    rw [Json.members]
    rcases members_succ_eq_ok hs with
        ⟨rfl, hnext⟩ | ⟨s₁, k, s₂, value, s₃, before', s₄, hnext, hk, hm, hcolon, hvalue, hrest⟩
    · exact ⟨[], rfl, by simp [hnext]⟩
    cases hm
    obtain ⟨⟨v, s₅⟩, hv, hbefore⟩ := bind_eq_ok.1 hvalue
    cases hbefore
    have hstep := @h state k _ _ _ hv
    simp only [hnext, ok_bind, ↓reduceIte, hk]
    cases hmember : member state k with
    | error cause =>
      -- The name is refused, but the members are those of the object nevertheless.
      obtain ⟨ms, hms, -⟩ := ih hrest state
      refine ⟨(k, v) :: ms, by simp [hms], ?_⟩
      rw [hmember] at hstep
      have hnone : step state (k, v) = none := by simpa using hstep.symm
      simp [hnone]
    | ok reader =>
      simp only [hmember, toOption_ok, Option.bind_some] at hstep
      simp only [hcolon, ok_bind, toOption_bind, hstep]
      cases hnext : step state (k, v) with
      | none =>
        obtain ⟨ms, hms, -⟩ := ih hrest state
        exact ⟨(k, v) :: ms, by simp [hms], by simp [hnext]⟩
      | some state' =>
        obtain ⟨ms, hms, hmembers⟩ := ih hrest state'
        exact ⟨(k, v) :: ms, by simp [hms], by simp [hnext, hmembers]⟩

theorem FollowsMember.object {member : σ → String → Except Cause (Reader σ)}
    {step : σ → String × Json → Option σ} (h : FollowsMember n member step) {s r : List Char}
    {ms : List (String × Json)} (hs : enclosed closeObject (objectBody (value n) s) = .ok (ms, r))
    (start : σ) :
    (enclosed closeObject (membersFrom start member s)).toOption =
      (ms.foldlM step start).map fun state => (state, r) := by
  obtain ⟨ms', hms, hmembers⟩ := h.members (membersFrom_eq_ok (objectBody_eq_ok hs)) start
  obtain rfl : ms' = ms := by simpa using hms.symm
  rw [toOption_enclosed, membersFrom, hmembers]
  cases ms'.foldlM step start <;> simp

/-- What is made of the state after the last member may also fail, before the object is closed. -/
theorem toOption_enclosed_bind {β : Type} {close : List Char → Except Failure (List Char)}
    {x : Except Failure (α × List Char)} {f : α → Option β}
    {g : α × List Char → Except Failure (β × List Char)}
    (hg : ∀ a s, (g (a, s)).toOption = (f a).map fun b => (b, s)) :
    (enclosed close (x >>= g)).toOption =
      (enclosed close x).toOption.bind fun p => (f p.1).map fun b => (b, p.2) := by
  rcases x with _ | ⟨a, s⟩
  · simp [toOption_enclosed]
  · simp only [ok_bind, toOption_enclosed, hg, toOption_ok, Option.bind_some]
    cases hf : f a <;> cases hs : close s <;> simp [hf, hs]

/-! ### Shapes -/

/-- A shape is followed if its ways to read lists, objects and all other values are. -/
theorem Shape.read_follows {shape : Shape α} {decode : Json → Option α}
    (list : ∀ m s vs r, n = m + 1 → listBody true (value m) s = .ok (vs, r) →
      (shape.list?.bind fun body => (body s).toOption) =
        (decode (array vs)).map fun a => (a, r))
    (object : ∀ m s ms r, n = m + 1 → enclosed closeObject (objectBody (value m) s) = .ok (ms, r) →
      (shape.object?.bind fun body => (body s).toOption) =
        (decode (.object ms)).map fun a => (a, r))
    (scalar : ∀ v : Json, v.IsScalar → (shape.ofScalar v).toOption = decode v) :
    Follows n shape.read decode := by
  intro s v r h
  unfold read
  rcases value_eq_ok h with
      ⟨m, t, vs, hn, hs, hvs, rfl⟩ | ⟨m, t, ms, hn, hs, hms, rfl⟩ | ⟨c, t, hs, hlist, hobject, hv⟩
  · have := list m t vs r hn hvs
    cases hbody : shape.list? <;> simp_all
  · have := object m t ms r hn hms
    cases hbody : shape.object? <;> simp_all
  · have := scalar v (isScalar_of_scalar hv)
    simp only [hs, hlist, hobject, ↓reduceIte, hv, ok_bind, ← this]
    cases shape.ofScalar v <;> rfl

theorem Shape.string_follows : Follows n Shape.string.read string? := by
  refine Shape.read_follows (fun _ _ _ _ _ _ => rfl) (fun _ _ _ _ _ _ => rfl) fun v hv => ?_
  cases v <;> rfl

/-- A whole number of 64 bits without a sign. -/
def word? : Json → Option UInt64
  | int k => if 0 ≤ k then some k.toNat.toUInt64 else none
  | _ => none

theorem Shape.word_follows : Follows n Shape.word.read word? := by
  refine Shape.read_follows (fun _ _ _ _ _ _ => rfl) (fun _ _ _ _ _ _ => rfl) fun v hv => ?_
  cases v with
  | int k => simp only [Shape.word, word?]; split_ifs <;> rfl
  | _ => rfl

/-- A list of whatever its items are decoded to. -/
def listOf? (item : Json → Option α) : Json → Option (List α)
  | array vs => vs.mapM item
  | _ => none

theorem Shape.listOf_follows {item : Shape α} {decode : Json → Option α}
    (h : Follows n item.read decode) :
    Follows (n + 1) (Shape.listOf item).read (listOf? decode) := by
  refine Shape.read_follows (fun m s vs r hm hvs => ?_) (fun _ _ _ _ _ _ => rfl) fun v hv => ?_
  · cases hm
    simp only [Shape.listOf, Option.bind_some, listBody, toOption_enclosed,
      h.items (listBody_eq_ok hvs), listOf?]
    cases vs.mapM decode <;> simp
  · cases hv using IsScalar.cases <;> rfl

/-- A map of whatever its values are decoded to. A repeated name keeps its first place and gets its
last value. -/
def mapOf? (item : Json → Option α) : Json → Option (OrderedMap α)
  | object ms => (ms.mapM fun m => (item m.2).map fun a => (m.1, a)).map .ofList
  | _ => none

theorem foldlM_insert (decode : Json → Option α) (ms : List (String × Json)) (m : OrderedMap α) :
    ms.foldlM (fun m e => (decode e.2).map fun a => m.insert e.1 a) m =
      (ms.mapM fun e => (decode e.2).map fun a => (e.1, a)).map fun es =>
        es.foldl (fun m e => m.insert e.1 e.2) m := by
  induction ms generalizing m with
  | nil => rfl
  | cons e ms ih =>
    simp only [List.foldlM_cons, List.mapM_cons]
    cases decode e.2 with
    | none => rfl
    | some a =>
      simp only [Option.map_some, Option.bind_eq_bind, Option.bind_some, ih]
      cases ms.mapM fun e => (decode e.2).map fun a => (e.1, a) <;> rfl

theorem Shape.mapOf_follows {item : Reader α} {decode : Json → Option α}
    (h : Follows n item decode) : Follows (n + 1) (Shape.mapOf item).read (mapOf? decode) := by
  refine Shape.read_follows (fun _ _ _ _ _ _ => rfl) (fun m s ms r hm hms => ?_) fun v hv => ?_
  · cases hm
    show (enclosed closeObject (membersFrom ∅ _ s)).toOption = _
    rw [@FollowsMember.object _ n _ (fun m e => (decode e.2).map fun a => m.insert e.1 a) ?_ s r ms
      hms, foldlM_insert]
    · rfl
    · intro m k s v r hv
      simp only [toOption_ok, Option.bind_some, toOption_bind, h hv]
      cases decode v <;> rfl
  · cases hv using IsScalar.cases <;> rfl

/-! ### Fields -/

theorem uniqueField_follows {item : Reader α} {decode : Json → Option α} (h : Follows n item decode)
    (name : String) (isThere : Bool) (put : α → σ) {s r : List Char} {v : Json}
    (hv : value n s = .ok (v, r)) :
    ((uniqueField name isThere item put).toOption.bind fun reader => (reader s).toOption) =
      (if isThere then none else (decode v).map put).map fun state => (state, r) := by
  cases isThere with
  | true => rfl
  | false =>
    simp only [uniqueField, Bool.false_eq_true, ↓reduceIte, toOption_ok, Option.bind_some,
      toOption_bind, h hv]
    cases decode v <;> rfl

theorem passedField_follows (state : σ) {s r : List Char} {v : Json}
    (hv : value n s = .ok (v, r)) :
    ((passedField state).toOption.bind fun reader => (reader s).toOption) = some (state, r) := by
  simp [passedField, pass_of_value hv]

end StyleModule.Json
