import StyleModule.Proofs.Json.Quotation

/-!
# String literals are read back

A script reads a string literal up to the quote that closes it (`Quoted.Form.read`). There are two
forms, with different quotes and escapes. In both, a line feed or a carriage return may not stand
for itself, and all other characters may but the quote and the backslash.

What is written for a string is read as that string, and reading stops right behind it
(`Quoted.Form.read_single`, `Quoted.Form.read_double`). This follows from how each character is
written: each form undoes the escapes that are put for it (`Quoted.Form.Undoes`).
-/

namespace StyleModule.Text.Quoted

/-- A form of string literals. -/
structure Form where
  /-- The character at both ends. -/
  quote : Char
  /-- The character that one other character stands for after a backslash. -/
  letter? : Char → Option Char

namespace Form

/-- Literals between single quotes. -/
def single : Form where
  quote := '\''
  letter? c :=
    if c = '\\' ∨ c = '\'' then some c
    else if c = 'n' then some '\n'
    else if c = 'r' then some '\r'
    else none

/-- Literals between double quotes, with the escapes of JSON. -/
def double : Form := ⟨'"', Json.letterEscape?⟩

variable (f : Form)

/-- The character that an escape stands for, read after its backslash. -/
def readEscape : List Char → Option (Char × List Char)
  | [] => none
  | c :: r =>
    if c = 'u' then (Json.numberedChar r).toOption else (f.letter? c).map fun d => (d, r)

/-- The characters up to the closing quote, of which there are fewer than the bound. -/
def readChars : Nat → List Char → Option (List Char × List Char)
  | _, [] => none
  | 0, _ => none
  | bound + 1, c :: r =>
    if c = f.quote then some ([], r)
    else if c = '\\' then do
      let (d, r) ← f.readEscape r
      let (ds, r) ← readChars bound r
      return (d :: ds, r)
    else if c = '\n' ∨ c = '\r' then none
    else do
      let (ds, r) ← readChars bound r
      return (c :: ds, r)

/-- The literal at the front of a text, and what follows it. -/
def read : List Char → Option (String × List Char)
  | [] => none
  | c :: s =>
    if c = f.quote then (f.readChars s.length s).map fun p => (String.ofList p.1, p.2) else none

/-- What is written for a character is read as it, whatever is read after it. -/
def Undoes (escape : Char → List Char) : Prop :=
  ∀ bound c cs s r, f.readChars bound s = some (cs, r) →
    f.readChars (bound + 1) (escape c ++ s) = some (c :: cs, r)

variable {f}

/-! ### Strings -/

theorem readChars_flatMap {escape : Char → List Char} (h : f.Undoes escape) {bound : Nat}
    {cs : List Char} (hbound : cs.length < bound) (r : List Char) :
    f.readChars bound (cs.flatMap escape ++ f.quote :: r) = some (cs, r) := by
  induction cs generalizing bound with
  | nil =>
    obtain ⟨bound, rfl⟩ := Nat.exists_eq_add_one.2 (Nat.zero_lt_of_lt hbound)
    simp [readChars]
  | cons c cs ih =>
    obtain ⟨bound, rfl⟩ := Nat.exists_eq_add_one.2 (Nat.zero_lt_of_lt hbound)
    rw [List.flatMap_cons, List.append_assoc]
    exact h _ _ _ _ _ (ih (by simpa using hbound))

/-- A string is read back between quotes if its characters are. -/
theorem read_flatMap {escape : Char → List Char} (h : f.Undoes escape)
    (hescape : ∀ c, escape c ≠ []) (s : String) (r : List Char) :
    f.read (f.quote :: (s.toList.flatMap escape ++ [f.quote]) ++ r) = some (s, r) := by
  have hbound : s.toList.length < (s.toList.flatMap escape ++ f.quote :: r).length := by
    have hlen := length_le_length_flatMap escape s.toList fun c _ => hescape c
    simp only [List.length_append, List.length_cons]
    omega
  rw [List.cons_append, List.append_assoc, List.singleton_append, read, if_pos rfl,
    readChars_flatMap h hbound, Option.map_some, String.ofList_toList]

/-! ### Escapes -/

theorem readChars_escape {bound : Nat} {c : Char} {cs s t r : List Char}
    (hquote : f.quote ≠ '\\') (hc : f.readEscape s = some (c, t))
    (ht : f.readChars bound t = some (cs, r)) :
    f.readChars (bound + 1) ('\\' :: s) = some (c :: cs, r) := by
  simp [readChars, hquote.symm, hc, ht]

theorem readChars_self {bound : Nat} {c : Char} {cs s r : List Char} (hquote : c ≠ f.quote)
    (hbackslash : c ≠ '\\') (hn : c ≠ '\n') (hr : c ≠ '\r')
    (h : f.readChars bound s = some (cs, r)) :
    f.readChars (bound + 1) (c :: s) = some (c :: cs, r) := by
  simp [readChars, hquote, hbackslash, hn, hr, h]

theorem readEscape_numberEscape {c : Char} (h : c.toNat < 0xd800) (s : List Char) :
    f.readEscape ('u' :: (fourHexDigits c.toNat ++ s)) = some (c, s) := by
  simp [readEscape, Json.numberedChar_fourHexDigits h s, Except.toOption]

theorem singleEscape_ne_nil (c : Char) : singleEscape c ≠ [] := by
  unfold singleEscape
  split_ifs <;> simp [numberEscape]

theorem undoes_singleEscape : single.Undoes singleEscape := by
  intro bound c cs s r h
  -- One case for each escape. In the last one the character stands for itself.
  unfold singleEscape
  split_ifs with hbackslash hquote hn hr hcontrol
  iterate 4
    subst c
    exact readChars_escape (by decide) rfl h
  · exact readChars_escape (by decide) (readEscape_numberEscape (by omega) s) h
  · exact readChars_self hquote hbackslash hn hr h

theorem undoes_doubleEscape : double.Undoes doubleEscape := by
  intro bound c cs s r h
  unfold doubleEscape
  split_ifs with hquote hbackslash hb hf hn hr ht hcontrol
  iterate 7
    subst c
    exact readChars_escape (by decide) rfl h
  · exact readChars_escape (by decide) (readEscape_numberEscape (by omega) s) h
  · exact readChars_self hquote hbackslash hn hr h

theorem read_single (s : String) (r : List Char) :
    single.read (Quoted.single s ++ r) = some (s, r) :=
  read_flatMap undoes_singleEscape singleEscape_ne_nil s r

theorem read_double (s : String) (r : List Char) :
    double.read (Quoted.double s ++ r) = some (s, r) :=
  read_flatMap undoes_doubleEscape Json.doubleEscape_ne_nil s r

end Form

theorem single_inj {s t : String} (h : single s = single t) : s = t := by
  have hs := Form.read_single s []
  rw [h, Form.read_single] at hs
  exact (Prod.mk.inj (Option.some.inj hs)).1.symm

end StyleModule.Text.Quoted
