/-!
# Texts with commas between them
-/

namespace StyleModule.Text

/-- The given texts with a comma between each two neighbours. -/
def commaSeparated : List (List Char) → List Char
  | [] => []
  | [t] => t
  | t :: ts => t ++ ',' :: commaSeparated ts

@[simp] theorem commaSeparated_nil : commaSeparated [] = [] := rfl

@[simp] theorem commaSeparated_singleton (t : List Char) : commaSeparated [t] = t := rfl

@[simp] theorem commaSeparated_cons_cons (t u : List Char) (ts : List (List Char)) :
    commaSeparated (t :: u :: ts) = t ++ ',' :: commaSeparated (u :: ts) := rfl

end StyleModule.Text
