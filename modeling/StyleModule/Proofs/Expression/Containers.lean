import StyleModule.Expression
import StyleModule.Proofs.Text.Scanning

/-!
# Lists and objects as expressions

A JSON value is written in one go: the items of a list and the members of an object follow each
other, with a comma before each but the first. It could as well be put together from the expressions
for its parts, by what writes lists and objects of anything else (`Expression.ofJson_array`,
`Expression.ofJson_object`).
-/

namespace StyleModule.Expression

open Text

@[simp] theorem separator_zero : separator 0 = [] := rfl

@[simp] theorem separator_succ (i : Nat) : separator (i + 1) = [','] := rfl

/-- After other items each one has a comma before it. -/
theorem ofItems_succ (i : Nat) (vs : List Json) :
    ofItems (i + 1) vs = (vs.map ofJson).flatMap fun t => ',' :: t := by
  induction vs generalizing i with
  | nil => rfl
  | cons v vs ih => simp [ofItems, ih]

/-- The items of a list have commas between them. -/
theorem ofItems_zero (vs : List Json) : ofItems 0 vs = commaSeparated (vs.map ofJson) := by
  cases vs with
  | nil => rfl
  | cons v vs => rw [ofItems, separator_zero, ofItems_succ, List.map_cons, commaSeparated_cons]; rfl

theorem ofJson_array (vs : List Json) : ofJson (.array vs) = arrayText (vs.map ofJson) := by
  rw [ofJson, ofItems_zero, arrayText]

/-- The name of a member and the expression for its value. -/
def memberText (m : String × Json) : List Char := keyText m.1 ++ ofJson m.2

/-- After other members each one has a comma before it. -/
theorem ofMembers_succ (i : Nat) (ms : List (String × Json)) :
    ofMembers (i + 1) ms = (ms.map memberText).flatMap fun t => ',' :: t := by
  induction ms generalizing i with
  | nil => rfl
  | cons m ms ih => simp [ofMembers, memberText, ih]

/-- The members of an object have commas between them. -/
theorem ofMembers_zero (ms : List (String × Json)) :
    ofMembers 0 ms = commaSeparated (ms.map memberText) := by
  cases ms with
  | nil => rfl
  | cons m ms =>
    rw [ofMembers, separator_zero, ofMembers_succ, List.map_cons, commaSeparated_cons, memberText,
      List.append_assoc]
    rfl

theorem ofJson_object (ms : List (String × Json)) :
    ofJson (.object ms) = objectText (ms.map fun m => (m.1, ofJson m.2)) := by
  rw [ofJson, ofMembers_zero, objectText, List.map_map]
  rfl

end StyleModule.Expression
