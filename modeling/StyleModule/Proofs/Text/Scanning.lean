import StyleModule.Text.Separated

/-!
# Texts, read from the left

After the first part of a text with commas each part has a comma before it
(`Text.commaSeparated_cons`), and a word ends where the first other character stands
(`Text.span_append`).
-/

namespace StyleModule.Text

variable {α β : Type}

theorem commaSeparated_cons (t : List Char) (ts : List (List Char)) :
    commaSeparated (t :: ts) = t ++ ts.flatMap fun u => ',' :: u := by
  induction ts generalizing t with
  | nil => simp
  | cons u ts ih => rw [commaSeparated_cons_cons, ih, List.flatMap_cons, List.cons_append]

/-- There are no more parts than characters if no part is empty. -/
theorem length_le_length_flatMap (f : α → List β) (as : List α) (h : ∀ a ∈ as, f a ≠ []) :
    as.length ≤ (as.flatMap f).length := by
  induction as with
  | nil => simp
  | cons a as ih =>
    have hrest := ih fun b hb => h b (List.mem_cons_of_mem a hb)
    have hfirst := List.length_pos_iff.2 (h a List.mem_cons_self)
    simp only [List.flatMap_cons, List.length_append, List.length_cons]
    omega

theorem span_append {p : α → Bool} {as r : List α} (has : ∀ a ∈ as, p a)
    (hr : ∀ a ∈ r.head?, p a = false) :
    (as ++ r).takeWhile p = as ∧ (as ++ r).dropWhile p = r := by
  rw [List.takeWhile_append_of_pos has, List.dropWhile_append_of_pos has]
  cases r with
  | nil => simp
  | cons a r =>
    have ha : p a = false := hr a rfl
    simp [ha]

end StyleModule.Text
