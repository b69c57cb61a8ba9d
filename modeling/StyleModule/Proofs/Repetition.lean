import Mathlib.Data.List.Induction
import Mathlib.Data.List.Nodup
import Mathlib.Tactic.SplitIfs

/-!
# Lists without their repetitions

What is left of a list if of equal items only the first one stays.
-/

namespace StyleModule

variable {α : Type} [BEq α] [LawfulBEq α]

/-- An item at the end is left out if it is there before. -/
theorem eraseDups_concat (as : List α) (a : α) :
    (as ++ [a]).eraseDups = if a ∈ as then as.eraseDups else as.eraseDups ++ [a] := by
  rw [List.eraseDups_append]
  split_ifs with ha
  · simp [List.removeAll, ha]
  · simp [List.removeAll, ha, List.eraseDups_cons]

theorem nodup_eraseDups (as : List α) : as.eraseDups.Nodup := by
  induction as using List.reverseRecOn with
  | nil => exact List.nodup_nil
  | append_singleton as a ih =>
    rw [eraseDups_concat]
    split_ifs with ha
    · exact ih
    · rw [← List.concat_eq_append]
      exact ih.concat fun h => ha (List.mem_eraseDups.1 h)

/-- What comes first stays, and what comes after it is neither that nor among those before. -/
theorem eraseDups_filter_cons {a : α} {seen as : List α} (ha : a ∉ seen) :
    ((a :: as).filter fun b => !decide (b ∈ seen)).eraseDups =
      a :: (as.filter fun b => !decide (b ∈ a :: seen)).eraseDups := by
  have hrest : ∀ b, (!b == a && !decide (b ∈ seen)) = !decide (b ∈ a :: seen) := by
    intro b
    by_cases hb : b = a
    · simp [hb]
    · simp [hb, beq_false_of_ne hb]
  simp only [List.filter_cons, ha, decide_false, Bool.not_false, if_true, List.eraseDups_cons,
    List.filter_filter, hrest]

end StyleModule
