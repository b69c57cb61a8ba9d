import Mathlib.Tactic.SplitIfs
import StyleModule.Proofs.Text.Scanning
import StyleModule.Text.WhiteSpace

/-!
# Texts of several lines

Whether some characters stand in a text (`Text.IsFreeOf`) is told from its parts. A text without
line breaks stays on its line (`Text.IsLine`). Such texts can be told apart once each has a line
feed behind it (`Text.unlines_inj`), and splitting at any characters among which is the line feed
gives them back just if none of these characters stands in them (`Text.splitOnP_unlines_iff`).
-/

namespace StyleModule.Text

/-! ### Characters of a text -/

/-- None of some characters stands in a text. -/
def IsFreeOf (p : Char → Bool) (t : List Char) : Prop := ∀ c ∈ t, p c = false

/-- Whether a character is the space or a visible character of ASCII. -/
def isPrintable (c : Char) : Bool := 0x20 ≤ c.toNat && c.toNat < 0x7f

/-- No printable character is among some characters. -/
def SparesPrintable (p : Char → Bool) : Prop := ∀ c, isPrintable c → p c = false

variable {p : Char → Bool}

@[simp] theorem isFreeOf_nil : IsFreeOf p [] := by simp [IsFreeOf]

@[simp] theorem isFreeOf_cons {c : Char} {t : List Char} :
    IsFreeOf p (c :: t) ↔ p c = false ∧ IsFreeOf p t :=
  List.forall_mem_cons

@[simp] theorem isFreeOf_append {s t : List Char} :
    IsFreeOf p (s ++ t) ↔ IsFreeOf p s ∧ IsFreeOf p t :=
  List.forall_mem_append

theorem isFreeOf_flatMap {α : Type} {f : α → List Char} {as : List α} :
    IsFreeOf p (as.flatMap f) ↔ ∀ a ∈ as, IsFreeOf p (f a) := by
  simp only [IsFreeOf, List.mem_flatMap]
  exact ⟨fun h a ha c hc => h c ⟨a, ha, hc⟩, fun h c ⟨a, ha, hc⟩ => h a ha c hc⟩

theorem IsFreeOf.of_subset {s t : List Char} (ht : IsFreeOf p t) (h : s ⊆ t) : IsFreeOf p s :=
  fun c hc => ht c (h hc)

theorem isFreeOf_commaSeparated (hcomma : p ',' = false) {ts : List (List Char)} :
    IsFreeOf p (commaSeparated ts) ↔ ∀ t ∈ ts, IsFreeOf p t := by
  cases ts with
  | nil => simp
  | cons t ts => simp [commaSeparated_cons, isFreeOf_flatMap, hcomma]

theorem SparesPrintable.isFreeOf (hp : SparesPrintable p) {t : List Char} (ht : t.all isPrintable) :
    IsFreeOf p t :=
  fun c hc => hp c (List.all_eq_true.1 ht c hc)

/-- A text between two others on its line. -/
def framed (before : String) (t : List Char) (after : String) : List Char :=
  before.toList ++ (t ++ after.toList)

theorem framed_inj {before after : String} {s t : List Char} :
    framed before s after = framed before t after ↔ s = t := by
  simp [framed]

theorem isFreeOf_framed {before after : String} (hbefore : IsFreeOf p before.toList)
    (hafter : IsFreeOf p after.toList) {t : List Char} :
    IsFreeOf p (framed before t after) ↔ IsFreeOf p t := by
  simp [framed, hbefore, hafter]

/-! ### Lines -/

/-- A text stays on one line. -/
def IsLine (t : List Char) : Prop := ∀ c ∈ t, c ≠ '\n' ∧ c ≠ '\r'

theorem isLine_iff {t : List Char} : IsLine t ↔ IsFreeOf isLineBreak t := by
  simp [IsLine, IsFreeOf, isLineBreak]

theorem isLineBreak_eq_false {c : Char} (hc : 0x20 ≤ c.toNat) : isLineBreak c = false := by
  simp only [isLineBreak, Bool.or_eq_false_iff, beq_eq_false_iff_ne]
  constructor <;> rintro rfl <;> exact absurd hc (by decide)

theorem sparesPrintable_isLineBreak : SparesPrintable isLineBreak := by
  intro c hc
  simp only [isPrintable, Bool.and_eq_true, decide_eq_true_eq] at hc
  exact isLineBreak_eq_false hc.1

/-! ### Several lines -/

/-- Some lines, each with a line feed behind it. -/
def unlines (ts : List (List Char)) : List Char := ts.flatMap fun t => t ++ ['\n']

@[simp] theorem unlines_nil : unlines [] = [] := rfl

@[simp] theorem unlines_cons (t : List Char) (ts : List (List Char)) :
    unlines (t :: ts) = t ++ '\n' :: unlines ts := by
  simp [unlines]

@[simp] theorem unlines_append (ts us : List (List Char)) :
    unlines (ts ++ us) = unlines ts ++ unlines us := by
  simp [unlines]

theorem span_unlines {t : List Char} (ht : IsLine t) (r : List Char) :
    (t ++ '\n' :: r).takeWhile (· != '\n') = t ∧
      (t ++ '\n' :: r).dropWhile (· != '\n') = '\n' :: r := by
  refine span_append (fun c hc => by simp [(ht c hc).1]) fun c hc => ?_
  cases hc
  decide

/-- Lines can be told from their text. -/
theorem unlines_inj {ts us : List (List Char)} (hts : ∀ t ∈ ts, IsLine t)
    (hus : ∀ u ∈ us, IsLine u) (h : unlines ts = unlines us) : ts = us := by
  induction ts generalizing us with
  | nil => cases us with
    | nil => rfl
    | cons u us => simp at h
  | cons t ts ih => cases us with
    | nil => simp at h
    | cons u us =>
      rw [unlines_cons, unlines_cons] at h
      obtain ⟨ht, hts⟩ := List.forall_mem_cons.1 hts
      obtain ⟨hu, hus⟩ := List.forall_mem_cons.1 hus
      obtain ⟨htake, hdrop⟩ := span_unlines ht (unlines ts)
      obtain ⟨htake', hdrop'⟩ := span_unlines hu (unlines us)
      rw [h] at htake hdrop
      have hrest : unlines us = unlines ts := (List.cons.inj (hdrop'.symm.trans hdrop)).2
      rw [htake.symm.trans htake', ih hts hus hrest.symm]

/-! ### Splitting -/

/-- No piece of a split text has a character at which it was split. -/
theorem isFreeOf_of_mem_splitOnP {s : List Char} : ∀ t ∈ s.splitOnP p, IsFreeOf p t := by
  induction s with
  | nil => simp
  | cons c s ih =>
    rw [List.splitOnP_cons_eq_if_modifyHead]
    split_ifs with hc
    · exact List.forall_mem_cons.2 ⟨isFreeOf_nil, ih⟩
    · cases hpieces : s.splitOnP p with
      | nil => simp
      | cons t ts =>
        rw [hpieces, List.forall_mem_cons] at ih
        exact List.forall_mem_cons.2 ⟨isFreeOf_cons.2 ⟨by simpa using hc, ih.1⟩, ih.2⟩

theorem splitOnP_unlines (hfeed : p '\n') {ts : List (List Char)} (h : ∀ t ∈ ts, IsFreeOf p t) :
    (unlines ts).splitOnP p = ts ++ [[]] := by
  induction ts with
  | nil => simp
  | cons t ts ih =>
    obtain ⟨ht, hts⟩ := List.forall_mem_cons.1 h
    rw [unlines_cons, List.splitOnP_append_cons_of_forall_mem ht _ hfeed, ih hts, List.cons_append]

/-- Splitting gives the lines of a text back just if there is nothing else to split at. -/
theorem splitOnP_unlines_iff (hfeed : p '\n') {ts : List (List Char)} :
    (unlines ts).splitOnP p = ts ++ [[]] ↔ ∀ t ∈ ts, IsFreeOf p t := by
  refine ⟨fun h t ht => ?_, splitOnP_unlines hfeed⟩
  have hpieces := isFreeOf_of_mem_splitOnP (p := p) (s := unlines ts)
  rw [h] at hpieces
  exact hpieces t (List.mem_append_left _ ht)

end StyleModule.Text
