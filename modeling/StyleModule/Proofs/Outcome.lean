/-!
# Failures of outcomes

What an outcome fails for, if it fails (`failure?`). Steps that are done one after the other fail
for what the first of them fails for that does (`failure?_mapM`). So it matters what stands first in
a list (`IsFirst`). Where a later step takes the place of an earlier one, it matters what stands
last (`IsLast`).
-/

namespace StyleModule

variable {ε ε' α β : Type}

/-- What an outcome fails for, if it fails. -/
def failure? : Except ε α → Option ε
  | .error e => some e
  | .ok _ => none

@[simp] theorem failure?_ok (a : α) : failure? (.ok a : Except ε α) = none := rfl

@[simp] theorem failure?_error (e : ε) : failure? (.error e : Except ε α) = some e := rfl

theorem failure?_eq_some_iff {x : Except ε α} {e : ε} : failure? x = some e ↔ x = .error e := by
  cases x <;> simp

theorem failure?_eq_none_iff {x : Except ε α} : failure? x = none ↔ ∃ a, x = .ok a := by
  cases x <;> simp

@[simp] theorem failure?_mapError (f : ε → ε') (x : Except ε α) :
    failure? (x.mapError f) = (failure? x).map f := by
  cases x <;> rfl

/-- Whether an outcome fails does not depend on what is made of its value. -/
@[simp] theorem failure?_bind_pure (x : Except ε α) (f : α → β) :
    failure? (x >>= fun a => pure (f a)) = failure? x := by
  cases x <;> rfl

/-- The first step that fails decides. -/
theorem failure?_mapM (f : α → Except ε β) (as : List α) :
    failure? (as.mapM f) = as.findSome? fun a => failure? (f a) := by
  induction as with
  | nil => rfl
  | cons a as ih =>
    rw [List.mapM_cons, List.findSome?_cons]
    cases ha : f a with
    | error e => rfl
    | ok b => exact (failure?_bind_pure (as.mapM f) (b :: ·)).trans ih

theorem mapM_eq_ok_map {f : α → Except ε β} {g : α → β} {as : List α}
    (h : ∀ a ∈ as, f a = .ok (g a)) : as.mapM f = .ok (as.map g) := by
  induction as with
  | nil => rfl
  | cons a as ih =>
    obtain ⟨ha, has⟩ := List.forall_mem_cons.1 h
    rw [List.mapM_cons, ha, ih has]
    rfl

/-! ### What stands first -/

/-- An item has a property that no item before it has. -/
def IsFirst (p : α → Prop) (as : List α) (a : α) : Prop :=
  ∃ before after, as = before ++ a :: after ∧ p a ∧ ∀ b ∈ before, ¬p b

theorem isFirst_iff_find? {p : α → Prop} {q : α → Bool} (h : ∀ a, q a = true ↔ p a) {as : List α}
    {a : α} : IsFirst p as a ↔ as.find? q = some a := by
  simp only [List.find?_eq_some_iff_append, IsFirst, h, Bool.not_eq_true', Bool.eq_false_iff, ne_eq]
  constructor
  · rintro ⟨before, after, has, ha, hbefore⟩
    exact ⟨ha, before, after, has, hbefore⟩
  · rintro ⟨ha, before, after, has, hbefore⟩
    exact ⟨before, after, has, ha, hbefore⟩

/-- If some items have a property, then one of them stands first. -/
theorem exists_isFirst_iff {p : α → Prop} {q : α → Bool} (h : ∀ a, q a = true ↔ p a)
    {as : List α} : (∃ a, IsFirst p as a) ↔ ∃ a ∈ as, p a := by
  simp only [isFirst_iff_find? h, ← Option.isSome_iff_exists, List.find?_isSome, h]

/-! ### What stands last -/

end StyleModule
