import StyleModule.Proofs.Expression.Characters
import StyleModule.Proofs.Generator.Layout

/-!
# The lines of a module

The parts of a module stand on lines (`Generator.lines`), each of which ends with a line feed. None
of them is broken by a line feed or a carriage return, so that a module has eight lines, and one
more for a platform.

Comments of scripts end at two more characters, the line and the paragraph separator
(`Generator.endsLine`). These may stand for themselves in string literals, as they do in JSON texts.
So splitting a module at them too gives its lines just if none of its strings has a separator
(`Generator.splitOnP_moduleText`).
-/

namespace StyleModule.Generator

open Text

/-- The line for a platform, if there is one. -/
def platformLines (platform : Option String) : List (List Char) :=
  match Platform.named? platform with
  | none => []
  | some p => [framed "  platform: " (Quoted.single p) ","]

/-- The lines of a module. -/
def lines (header : HeaderOptions) (x : Exports) (platform : Option String) : List (List Char) :=
  framed "// This file was generated by " header.toolName.toList ". Do not edit!" ::
  framed "const \x7b StyleSheet \x7d = require(" (Quoted.double header.uiFramework) ")" ::
  "module.exports = \x7b".toList ::
  (platformLines platform ++
    [framed "  styles: " x.styles.toList ",",
      framed "  atRules: " x.atRules.toList ",",
      framed "  masks: " x.masks.toList ",",
      framed "  topics: " x.topics.toList ",",
      "\x7d".toList])

theorem toList_platformLine (platform : Option String) :
    (platformLine platform).toList = unlines (platformLines platform) := by
  cases platform with
  | none => rfl
  | some p =>
    by_cases hp : p = ""
    · subst hp
      rfl
    · simp [platformLine, platformLines, named?_some hp, hp, framed]

theorem toList_layout (header : HeaderOptions) (x : Exports) (platform : Option String) :
    (layout header x platform).toList = unlines (lines header x platform) := by
  have hframework : (String.ofList (Quoted.double header.uiFramework)).toList =
      Quoted.double header.uiFramework := String.toList_ofList
  unfold layout lines framed
  simp only [String.toList_append, hframework, toList_platformLine, unlines_cons, unlines_append,
    List.append_assoc]
  rfl

variable {p : Char → Bool} {header : HeaderOptions} {x : Exports} {platform : Option String}

/-- The lines of a module are free of some characters if its parts are. -/
theorem isFreeOf_lines (hp : SparesPrintable p) :
    (∀ t ∈ lines header x platform, IsFreeOf p t) ↔
      IsFreeOf p header.toolName.toList ∧ IsFreeOf p (Quoted.double header.uiFramework) ∧
        (∀ q, Platform.named? platform = some q → IsFreeOf p (Quoted.single q)) ∧
        (IsFreeOf p x.styles.toList ∧ IsFreeOf p x.atRules.toList ∧ IsFreeOf p x.masks.toList ∧
          IsFreeOf p x.topics.toList) := by
  have hframed : ∀ {before after : String} {t : List Char}, before.toList.all isPrintable →
      after.toList.all isPrintable → (IsFreeOf p (framed before t after) ↔ IsFreeOf p t) :=
    fun hbefore hafter => isFreeOf_framed (hp.isFreeOf hbefore) (hp.isFreeOf hafter)
  have hplatform : (∀ t ∈ platformLines platform, IsFreeOf p t) ↔
      ∀ q, Platform.named? platform = some q → IsFreeOf p (Quoted.single q) := by
    unfold platformLines
    cases Platform.named? platform with
    | none => simp
    | some q =>
      simp only [List.forall_mem_singleton, Option.some.injEq, forall_eq']
      exact hframed (by decide) (by decide)
  have hopen : IsFreeOf p "module.exports = \x7b".toList := hp.isFreeOf (by decide)
  have hclose : IsFreeOf p "\x7d".toList := hp.isFreeOf (by decide)
  simp only [lines, List.forall_mem_cons, List.forall_mem_append, List.not_mem_nil, false_imp_iff,
    implies_true, hplatform, hopen, hclose, true_and, and_true]
  rw [hframed (by decide) (by decide), hframed (by decide) (by decide),
    hframed (by decide) (by decide), hframed (by decide) (by decide),
    hframed (by decide) (by decide), hframed (by decide) (by decide)]

/-! ### Line breaks -/

theorem isFreeOf_endsLine_toolName (h : header.toolName.toList.any endsLine = false) :
    IsFreeOf endsLine header.toolName.toList :=
  fun c hc => by simpa using List.any_eq_false.1 h c hc

/-- Every line of a module stays on its line. -/
theorem isFreeOf_isLineBreak_lines {o : Options} {e : Extraction}
    (htool : o.header.toolName.toList.any endsLine = false) (hx : e.exports o.exports = .ok x) :
    ∀ t ∈ lines o.header x platform, IsFreeOf isLineBreak t := by
  have hbreak : ∀ c, endsLine c = false → isLineBreak c = false := by
    intro c hc
    simp only [endsLine, isLineBreak, Bool.or_eq_false_iff] at hc ⊢
    exact hc.1.1
  have hexports := Extraction.isFreeOf_exports sparesPrintable_isLineBreak hx
  exact (isFreeOf_lines sparesPrintable_isLineBreak).2
    ⟨fun c hc => hbreak c (isFreeOf_endsLine_toolName htool c hc),
      Quoted.isFreeOf_isLineBreak_double _, fun q _ => Quoted.isFreeOf_isLineBreak_single q,
      hexports.2 (e.everyString_of_forall Quoted.isFreeOf_isLineBreak_double)⟩

/-! ### Separators -/

/-- A text has neither a line separator nor a paragraph separator. -/
def HasNoSeparator (s : String) : Prop := '\u2028' ∉ s.toList ∧ '\u2029' ∉ s.toList

instance : DecidablePred HasNoSeparator :=
  fun _ => inferInstanceAs (Decidable (_ ∧ _))

theorem endsLine_eq_false_iff {c : Char} (hc : 0x20 ≤ c.toNat) :
    endsLine c = false ↔ c ≠ '\u2028' ∧ c ≠ '\u2029' := by
  have hbreak := isLineBreak_eq_false hc
  simp only [isLineBreak, Bool.or_eq_false_iff] at hbreak
  simp only [endsLine, Bool.or_eq_false_iff, hbreak, true_and, beq_eq_false_iff_ne]

theorem sparesPrintable_endsLine : SparesPrintable endsLine := by
  intro c hc
  simp only [isPrintable, Bool.and_eq_true, decide_eq_true_eq] at hc
  refine (endsLine_eq_false_iff hc.1).2 ?_
  constructor <;> rintro rfl <;> exact absurd hc.2 (by decide)

/-- A literal is free of what ends lines if its string has no separator. -/
theorem hasNoSeparator_iff {escapes : Char → Prop} (hcontrol : ∀ c, c.toNat < 0x20 → escapes c)
    (hline : ¬escapes '\u2028') (hparagraph : ¬escapes '\u2029') {s : String} :
    (∀ c ∈ s.toList, ¬escapes c → endsLine c = false) ↔ HasNoSeparator s := by
  constructor
  · intro h
    exact ⟨fun hmem => absurd (h _ hmem hline) (by decide),
      fun hmem => absurd (h _ hmem hparagraph) (by decide)⟩
  · intro h c hc hescapes
    refine (endsLine_eq_false_iff (Nat.not_lt.1 fun hlow => hescapes (hcontrol c hlow))).2 ?_
    constructor <;> rintro rfl
    · exact h.1 hc
    · exact h.2 hc

theorem isFreeOf_endsLine_double (s : String) :
    IsFreeOf endsLine (Quoted.double s) ↔ HasNoSeparator s := by
  rw [Quoted.isFreeOf_double sparesPrintable_endsLine]
  simp only [← Nat.not_lt]
  exact hasNoSeparator_iff (fun _ hc => hc) (by decide) (by decide)

theorem isFreeOf_endsLine_single (s : String) :
    IsFreeOf endsLine (Quoted.single s) ↔ HasNoSeparator s := by
  rw [Quoted.isFreeOf_single sparesPrintable_endsLine]
  exact hasNoSeparator_iff (fun _ hc => .inl hc) (by decide) (by decide)

theorem isFreeOf_endsLine_lines {o : Options} {e : Extraction}
    (htool : o.header.toolName.toList.any endsLine = false) (hx : e.exports o.exports = .ok x) :
    (∀ t ∈ lines o.header x platform, IsFreeOf endsLine t) ↔
      HasNoSeparator o.header.uiFramework ∧ (∀ q, platform = some q → HasNoSeparator q) ∧
        e.EveryString HasNoSeparator := by
  have hstrings : (fun s => IsFreeOf endsLine (Quoted.double s)) = HasNoSeparator :=
    funext fun s => propext (isFreeOf_endsLine_double s)
  have hplatform : (∀ q, Platform.named? platform = some q → HasNoSeparator q) ↔
      ∀ q, platform = some q → HasNoSeparator q := by
    have hempty : HasNoSeparator "" := by simp [HasNoSeparator]
    cases platform with
    | none => simp [Platform.named?]
    | some q => by_cases hq : q = "" <;> simp [Platform.named?, hq, hempty]
  rw [isFreeOf_lines sparesPrintable_endsLine,
    Extraction.isFreeOf_exports sparesPrintable_endsLine hx, hstrings, isFreeOf_endsLine_double,
    and_iff_right (isFreeOf_endsLine_toolName htool)]
  simp only [isFreeOf_endsLine_single, hplatform]

/-! ### Splitting a module -/

theorem length_lines (header : HeaderOptions) (x : Exports) (platform : Option String) :
    (lines header x platform).length = if platform = none ∨ platform = some "" then 8 else 9 := by
  have hlength : (platformLines platform).length =
      if platform = none ∨ platform = some "" then 0 else 1 := by
    cases platform with
    | none => rfl
    | some q =>
      by_cases hq : q = ""
      · subst hq
        rfl
      · simp [platformLines, named?_some hq, hq]
  simp only [lines, List.length_cons, List.length_append, hlength]
  split_ifs <;> rfl

/-- **Splitting a module into lines.** At line feeds and carriage returns it is split into the eight
lines of its template, nine if there is a platform, and nothing after the last line feed. At all
that end comments it is split into the same lines just if neither the framework nor the platform nor
a string of the extraction has a separator. -/
theorem splitOnP_moduleText {o : Options} {g : Generator} {e : Extraction}
    (hg : ofOptions o = .ok g) (hx : e.exports o.exports = .ok x) (platform : Option String) :
    ∃ text, g.moduleText e platform = .ok text ∧
      text.toList.splitOnP isLineBreak = lines o.header x platform ++ [[]] ∧
      (lines o.header x platform).length =
        (if platform = none ∨ platform = some "" then 8 else 9) ∧
      (text.toList.splitOnP endsLine = lines o.header x platform ++ [[]] ↔
        HasNoSeparator o.header.uiFramework ∧ (∀ q, platform = some q → HasNoSeparator q) ∧
          e.EveryString HasNoSeparator) := by
  obtain ⟨htool, rfl⟩ := make_eq_ok_iff.1 hg
  refine ⟨_, moduleText_made hx platform, ?_, length_lines _ _ _, ?_⟩
  · rw [toList_layout]
    exact splitOnP_unlines rfl (isFreeOf_isLineBreak_lines htool hx)
  · rw [toList_layout, splitOnP_unlines_iff rfl]
    exact isFreeOf_endsLine_lines htool hx

theorem splitOnP_moduleText_escaped :
    ∃ g text x, ofOptions {} = .ok g ∧
      g.moduleText (Extraction.empty.subscribe "a" "\u0085\n") (some "ios") = .ok text ∧
      text.toList.splitOnP endsLine = lines {} x (some "ios") ++ [[]] ∧
      (lines {} x (some "ios")).length = 9 := by
  have hg : ofOptions {} = .ok _ := make_eq_ok_iff.2 ⟨by decide, rfl⟩
  have hx : (Extraction.empty.subscribe "a" "\u0085\n").exports {} = .ok
      ⟨"StyleSheet.create(\x7b\x7d)", "\x7b\x7d", "\x7b\x7d", "\x7ba:[\"\u0085\\n\"]\x7d"⟩ :=
    Json.toOption_eq_some.1 (by decide +kernel)
  obtain ⟨text, htext, -, hlength, hsplit⟩ := splitOnP_moduleText hg hx (some "ios")
  have hplatform : ∀ q, some "ios" = some q → HasNoSeparator q := by
    rintro q ⟨⟩
    decide
  have hstrings : (Extraction.empty.subscribe "a" "\u0085\n").EveryString HasNoSeparator := by
    refine ⟨?_, ?_, ?_, fun s hs => ?_⟩
    iterate 3
      exact fun s hs => absurd hs List.not_mem_nil
    obtain rfl : s = ("a", ["\u0085\n"]) := List.mem_singleton.1 hs
    decide
  exact ⟨_, text, _, hg, htext, hsplit.2 ⟨by decide, hplatform, hstrings⟩, hlength⟩

/-- A line separator stands for itself in the literal of a topic, and ends a line there. -/
theorem exists_splitOnP_endsLine_ne :
    ∃ g text, ofOptions {} = .ok g ∧
      g.moduleText (Extraction.empty.subscribe "a" "\u2028") none = .ok text ∧
      (text.toList.splitOnP endsLine).length = 8 + 2 := by
  have hg : ofOptions {} = .ok _ := make_eq_ok_iff.2 ⟨by decide, rfl⟩
  have hx : (Extraction.empty.subscribe "a" "\u2028").exports {} = .ok
      ⟨"StyleSheet.create(\x7b\x7d)", "\x7b\x7d", "\x7b\x7d", "\x7ba:[\"\u2028\"]\x7d"⟩ :=
    Json.toOption_eq_some.1 (by decide +kernel)
  refine ⟨_, _, hg, moduleText_made hx none, ?_⟩
  rw [toList_layout]
  decide +kernel

end StyleModule.Generator
