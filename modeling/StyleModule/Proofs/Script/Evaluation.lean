import Mathlib.Data.List.Nodup
import StyleModule.Proofs.Expression.RoundTrip
import StyleModule.Proofs.Script.Number

/-!
# What a script makes of expressions

The values of the expressions that are written for exports, by the rules of the language they are
written in (`Script.expression`). The members of an object literal are defined one after the other,
a later one in place of an earlier one of the same name. A member named `__proto__` is none of them,
bare or quoted: its value becomes the prototype of the object (`Script.objectOf?`). A number literal
stands for the nearest floating point number.

Of an object a value has the own members in the order in which they were defined. It has neither the
prototype nor the order in which a script lists the members.

That a text stands for a value (`Script.Evaluates`) is shown from the inside of the text to the
outside, like what it is read as.
-/

namespace StyleModule.Script

open Expression

/-! ### Values -/

/-- A number that is whole or infinite: its sign, and its distance from zero, if that is finite. -/
structure Number where
  /-- Whether the number has a minus sign. -/
  negative : Bool
  /-- The distance from zero; none if it is infinite. -/
  magnitude : Option Nat

namespace Number

/-- The whole number that a number is. Both zeros are zero. -/
def toInt? (x : Number) : Option Int :=
  x.magnitude.map fun n : Nat => if x.negative then -(n : Int) else n

/-- The number that the digits of a whole number stand for, with a minus sign if there is one. -/
def ofInt (k : Int) : Number := ⟨decide (k < 0), nearest k.natAbs⟩

/-- A whole number stands for itself just if it is a double. -/
theorem toInt?_ofInt_iff {k : Int} : (ofInt k).toInt? = some k ↔ IsDouble k.natAbs := by
  simp only [← nearest_eq_self_iff, toInt?, ofInt, Option.map_eq_some_iff, decide_eq_true_eq]
  constructor
  · rintro ⟨n, hn, hk⟩
    obtain rfl : n = k.natAbs := by split_ifs at hk <;> omega
    exact hn
  · intro h
    exact ⟨k.natAbs, h, by split_ifs <;> omega⟩

end Number

/-- A value that an expression for an export can have. -/
inductive Value where
  | null
  | bool (value : Bool)
  | number (value : Number)
  | string (value : String)
  | array (items : List Value)
  /-- An object with its own members. -/
  | object (own : List (String × Value))
  /-- What the `StyleSheet` has under a name. -/
  | runtime (name : String)

/-- The name that gives an object its prototype. -/
def prototypeName : String := "__proto__"

/-- The object of a literal with the given members. It is an error to give the prototype twice. -/
def objectOf? (members : List (String × Value)) : Option Value :=
  if 1 < (members.map Prod.fst).count prototypeName then none
  else some (.object (OrderedMap.ofList (members.filter fun m => m.1 ≠ prototypeName)).entries)

/-- Only the prototype is left out of an object if no name is repeated. -/
theorem objectOf?_of_nodup {ms : List (String × Value)} (h : (ms.map Prod.fst).Nodup) :
    objectOf? ms = some (.object (ms.filter fun m => m.1 ≠ prototypeName)) := by
  have hcount := List.nodup_iff_count_le_one.1 h prototypeName
  have hnodup := h.sublist ((List.filter_sublist (p := fun m => m.1 ≠ prototypeName)).map Prod.fst)
  rw [objectOf?, if_neg (Nat.not_lt.2 hcount), OrderedMap.entries_ofList hnodup]

/-! ### Evaluation -/

/-- Decimal digits without a leading zero. -/
def readDecimal : Scanner Nat
  | '0' :: c :: s => if c.isDigit then none else some (0, c :: s)
  | s => readNat s

/-- A number literal, after a minus sign or not. -/
def readNumber : Scanner Number
  | '-' :: s => (readDecimal s).map fun p => (⟨true, nearest p.1⟩, p.2)
  | s => (readDecimal s).map fun p => (⟨false, nearest p.1⟩, p.2)

/-- One of the constants. -/
def readConstant : Scanner Value := fun s =>
  [("null", Value.null), ("true", .bool true), ("false", .bool false)].findSome? fun (word, v) =>
    (readWord word.toList s).map fun p => (v, p.2)

/-- A member of the `StyleSheet`. -/
def readRuntime : Scanner Value := fun s => do
  let (_, s) ← readWord "StyleSheet.".toList s
  let (name, s) ← readName s
  return (.runtime name, s)

/-- The value of an expression with at most the given number of containers open in it. -/
def expression : Nat → Scanner Value
  | _, [] => none
  | bound, c :: s =>
    if c = '"' then (readString (c :: s)).map fun p => (.string p.1, p.2)
    else if c = '-' ∨ c.isDigit then (readNumber (c :: s)).map fun p => (.number p.1, p.2)
    else if c = '[' then
      match bound with
      | 0 => none
      | n + 1 => (readList (expression n) (c :: s)).map fun p => (.array p.1, p.2)
    else if c = '\x7b' then
      match bound with
      | 0 => none
      | n + 1 =>
        (readObject (expression n) (c :: s)).bind fun p => (objectOf? p.1).map fun v => (v, p.2)
    else (readConstant (c :: s)).or (readRuntime (c :: s))

/-- An expression at the front of a text. -/
def readExpression : Scanner Value := fun s => expression s.length s

/-! ### Texts that stand for values -/

/-- A text stands for a value, wherever it is if no letter and no digit follows it. -/
def Evaluates (t : List Char) (w : Value) : Prop :=
  ∀ n, t.length ≤ n → ReadsBack (expression n) t w

theorem Evaluates.readsBack {t : List Char} {w : Value} (h : Evaluates t w) :
    ReadsBack readExpression t w := by
  intro r hr
  have hlength : t.length ≤ (t ++ r).length := by simp
  exact h _ hlength r hr

/-- What is not a container is told by its first character. -/
theorem expression_cons (n : Nat) {c : Char} (hlist : c ≠ '[') (hobject : c ≠ '\x7b')
    (s : List Char) : expression n (c :: s) =
      if c = '"' then (readString (c :: s)).map fun p => (.string p.1, p.2)
      else if c = '-' ∨ c.isDigit then (readNumber (c :: s)).map fun p => (.number p.1, p.2)
      else (readConstant (c :: s)).or (readRuntime (c :: s)) := by
  cases n <;> simp [expression, hlist, hobject]

theorem expression_bracket (n : Nat) (s : List Char) : expression n (']' :: s) = none := by
  rw [expression_cons n (by decide) (by decide)]
  simp [readConstant, readRuntime, readWord]

theorem evaluates_null : Evaluates Json.nullText .null := by
  intro n _ r _
  have hread : readConstant (Json.nullText ++ r) = some (.null, r) := by
    simp [readConstant, Json.nullText, readWord]
  rw [Json.nullText, List.cons_append] at hread ⊢
  rw [expression_cons n (by decide) (by decide), hread]
  rfl

theorem evaluates_bool (b : Bool) : Evaluates (Json.boolText b) (.bool b) := by
  intro n _ r _
  have hread : readConstant (Json.boolText b ++ r) = some (.bool b, r) := by
    cases b <;> simp [readConstant, Json.boolText, readWord]
  cases b with
  | true | false =>
    rw [Json.boolText, List.cons_append] at hread ⊢
    rw [expression_cons n (by decide) (by decide), hread]
    rfl

theorem evaluates_double (s : String) : Evaluates (Text.Quoted.double s) (.string s) := by
  intro n _ r _
  have hread := readString_double s r
  rw [Text.Quoted.double, List.cons_append] at hread ⊢
  rw [expression_cons n (by decide) (by decide), if_pos rfl, hread]
  rfl

theorem readDecimal_toDigits (n : Nat) : ReadsBack readDecimal (Nat.toDigits 10 n) n := by
  intro r hr
  have hread := readNat_toDigits n r hr
  rcases Nat.eq_zero_or_pos n with rfl | hn
  · cases r with
    | nil => exact hread
    | cons c r =>
      have hc : c.isDigit = false := hr.isDigit c rfl
      simp [readDecimal, hc]
  · unfold readDecimal
    split
    · next c s hs =>
      -- The digits of a positive number do not start with a zero.
      have hzero := Json.Numeral.head?_toDigits_ne_zero hn
      cases hd : Nat.toDigits 10 n with
      | nil => exact absurd hd Nat.toDigits_ne_nil
      | cons d ds => simp_all
    · exact hread

theorem readNumber_intText (k : Int) : ReadsBack readNumber (Json.intText k) (.ofInt k) := by
  intro r hr
  cases k with
  | ofNat n =>
    have hn := readDecimal_toDigits n r hr
    rw [Json.intText]
    unfold readNumber
    split
    · next s hs =>
      -- A sign is no digit, and there is at least one digit.
      rw [hs] at hn
      cases hn
    · rw [hn]
      rfl
  | negSucc n =>
    simp [Json.intText, readNumber, readDecimal_toDigits (n + 1) r hr, Number.ofInt,
      Int.negSucc_lt_zero]

theorem evaluates_intText (k : Int) : Evaluates (Json.intText k) (.number (.ofInt k)) := by
  intro n _ r hr
  have hread := readNumber_intText k r hr
  obtain ⟨c, s, hs, hc⟩ := Json.intText_eq_cons k
  rw [hs, List.cons_append] at hread ⊢
  have hlist : c ≠ '[' := Json.ne_of_startsNumber hc (by decide)
  have hobject : c ≠ '\x7b' := Json.ne_of_startsNumber hc (by decide)
  have hquote : c ≠ '"' := Json.ne_of_startsNumber hc (by decide)
  rw [expression_cons n hlist hobject, if_neg hquote, if_pos hc, hread]
  rfl

theorem evaluates_member {name : String} (h : Text.isIdentifier name) :
    Evaluates ("StyleSheet.".toList ++ name.toList) (.runtime name) := by
  intro n _ r hr
  have hruntime : readRuntime ("StyleSheet.".toList ++ name.toList ++ r) =
      some (.runtime name, r) := by
    rw [readRuntime, List.append_assoc, readWord_append]
    simp [readName_append (Text.isIdentifier_iff.1 h) hr]
  have hconstant : ∀ s, readConstant ('S' :: s) = none := by
    intro s
    simp [readConstant, readWord]
  rw [show "StyleSheet.".toList = 'S' :: "tyleSheet.".toList from rfl, List.cons_append,
    List.cons_append] at hruntime ⊢
  rw [expression_cons n (by decide) (by decide), hconstant, hruntime]
  rfl

/-- A list has the values of its items. -/
theorem evaluates_arrayText {ts : List (List Char)} {ws : List Value}
    (h : List.Forall₂ Evaluates ts ws) : Evaluates (arrayText ts) (.array ws) := by
  intro n hn r _
  cases n with
  | zero => simp [arrayText] at hn
  | succ n =>
    have hitems : List.Forall₂ (ReadsBack (expression n)) ts ws := by
      refine ((List.forall₂_and_left _ _).2 ⟨fun t ht => ?_, h⟩).imp fun t w hw => hw.2 n hw.1
      have hlength := length_le_length_commaSeparated ht
      simp only [arrayText, List.length_cons, List.length_append, List.length_nil] at hn
      omega
    have hlist := readList_arrayText (expression_bracket n) hitems r
    simpa [expression, arrayText] using hlist

/-- An object is made of the values of its members. -/
theorem evaluates_objectText {ms : List (String × List Char)} {es : List (String × Value)}
    (h : List.Forall₂ (fun m e => m.1 = e.1 ∧ Evaluates m.2 e.2) ms es) {w : Value}
    (hw : objectOf? es = some w) : Evaluates (objectText ms) w := by
  intro n hn r _
  cases n with
  | zero => simp [objectText] at hn
  | succ n =>
    have hmembers : List.Forall₂ (fun m e => m.1 = e.1 ∧ ReadsBack (expression n) m.2 e.2)
        ms es := by
      refine ((List.forall₂_and_left _ _).2 ⟨fun m hm => ?_, h⟩).imp
        fun m e he => ⟨he.2.1, he.2.2 n he.1⟩
      have hmem : keyText m.1 ++ m.2 ∈ ms.map fun m => keyText m.1 ++ m.2 :=
        List.mem_map_of_mem hm
      have hlength := length_le_length_commaSeparated hmem
      simp only [objectText, List.length_cons, List.length_append, List.length_nil] at hn hlength
      omega
    have hobject := readObject_objectText hmembers r
    rw [objectText, List.cons_append] at hobject ⊢
    rw [expression, if_neg (by decide), if_neg (by decide), if_neg (by decide), if_pos rfl, hobject]
    simp [hw]

end StyleModule.Script
