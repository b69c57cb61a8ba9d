import StyleModule.Template.Parser

/-!
# Texts and tags of a template

A template is taken apart from its front (`Template.TakenApart`): a text in which no tag and no
escape starts stands for itself (`Template.takenApart_text`), and after two braces comes a tag
(`Template.takenApart_tag`). Neither depends on what follows.
-/

namespace StyleModule.Template

/-- A text is taken apart into the given pieces, whatever the bound is that it fits. -/
def TakenApart (s : List Char) (ps : List Piece) : Prop :=
  ∀ bound, s.length < bound → pieces bound s = some ps

/-- A text adds pieces in front of those of whatever follows it. -/
def Adds (s : List Char) (f : List Piece → List Piece) : Prop :=
  ∀ r ps, TakenApart r ps → TakenApart (s ++ r) (f ps)

theorem Adds.append {s t : List Char} {f g : List Piece → List Piece} (hs : Adds s f)
    (ht : Adds t g) : Adds (s ++ t) (f ∘ g) := by
  intro r ps hr
  rw [List.append_assoc]
  exact hs _ _ (ht r ps hr)

theorem takenApart_nil : TakenApart [] [] := by
  intro bound _
  cases bound <;> rfl

theorem parse?_of_takenApart {text : String} {ps : List Piece} {template : Template}
    (hps : TakenApart text.toList ps) (hmargins : trim .none (settle true ps) = ps)
    (hblocks : build [] [] ps = some template) : parse? text = some template := by
  simp [parse?, layOut, hps _ (Nat.lt_add_one _), hmargins, hblocks]

/-! ### Texts -/

/-- No escape starts in a text, and no tag, whatever follows the text. -/
def isPlain : List Char → Bool
  | [] => true
  | [c] => c != '\\' && c != '\x7b'
  | c :: d :: r => c != '\\' && !(c == '\x7b' && d == '\x7b') && isPlain (d :: r)

theorem isPlain_cons {c : Char} {cs : List Char} (h : isPlain (c :: cs)) (r : List Char) :
    c ≠ '\\' ∧ startsTag (c :: (cs ++ r)) = false ∧ isPlain cs := by
  cases cs with
  | nil =>
    simp only [isPlain, Bool.and_eq_true, bne_iff_ne] at h
    exact ⟨h.1, by unfold startsTag; split <;> simp_all, rfl⟩
  | cons d cs =>
    simp only [isPlain, Bool.and_eq_true, bne_iff_ne] at h
    exact ⟨h.1.1, by unfold startsTag; split <;> simp_all, h.2⟩

/-- A text in which nothing starts stands for itself. -/
theorem adds_text {cs : List Char} (hcs : isPlain cs) : Adds cs (cs.foldr consChar) := by
  intro r ps hr
  induction cs with
  | nil => exact hr
  | cons c cs ih =>
    obtain ⟨hbackslash, htag, hrest⟩ := isPlain_cons hcs r
    intro bound hbound
    cases bound with
    | zero => cases hbound
    | succ bound =>
      have hescape : startsEscape (c :: (cs ++ r)) = false := by simp [startsEscape, hbackslash]
      have htext := ih hrest bound (Nat.lt_of_succ_lt_succ hbound)
      simp [pieces, htag, hescape, htext]

/-! ### Tags -/

theorem takenApart_tag {s r : List Char} {t : Piece} {ps : List Piece} (ht : tag s = some (t, r))
    (hlen : r.length ≤ s.length) (hr : TakenApart r ps) :
    TakenApart ('\x7b' :: '\x7b' :: s) (t :: ps) := by
  intro bound hbound
  cases bound with
  | zero => cases hbound
  | succ bound =>
    have hrest := hr bound (by simp only [List.length_cons] at hbound; omega)
    simp [pieces, startsTag, ht, hrest]

/-- What follows a tag: its two closing braces and the rest of the template. -/
def closing (r : List Char) : List Char := '\x7d' :: '\x7d' :: r

/-- A tag is read as what it says, whatever follows it, and takes nothing away around it. -/
def IsTag (w : List Char) (t : Tag) : Prop :=
  ∀ r, tag (w ++ closing r) = some (.tag t .none .none, r)

/-- A tag between two texts. -/
theorem adds_line {s : List Char} (before w after : String) {t : Tag}
    (hs : s = before.toList ++ '\x7b' :: '\x7b' :: (w.toList ++ closing after.toList))
    (hbefore : isPlain before.toList) (ht : IsTag w.toList t) (hafter : isPlain after.toList) :
    Adds s fun ps =>
      before.toList.foldr consChar (.tag t .none .none :: after.toList.foldr consChar ps) := by
  intro r ps hr
  have hsplit : s ++ r = before.toList ++
      '\x7b' :: '\x7b' :: (w.toList ++ closing (after.toList ++ r)) := by
    simp [hs, closing]
  rw [hsplit]
  refine adds_text hbefore _ _ (takenApart_tag (ht _) ?_ (adds_text hafter r ps hr))
  simp only [closing, List.length_append, List.length_cons]
  omega

/-! ### Values and helpers -/

/-- The way to a member of the data. -/
def memberPath (name : String) : Argument := .path name (.here 0 [name])

theorem taken_append (cs r : List Char) : taken (cs ++ r) r = cs := by
  simp [taken]

theorem reference_member {name : String} {r : List Char}
    (h : path (name.toList ++ r) = some (.here 0 [name], r)) :
    reference (name.toList ++ r) = some (memberPath name, r) := by
  simp [reference, h, taken_append, memberPath]

/-- What a tag says is followed by its end. -/
theorem closed_closing {scan : Scanner Tag} {s r : List Char} {t : Tag}
    (h : scan s = some (t, closing r)) : closed scan false s = some (.tag t .none .none, r) := by
  have hclose : close (closing r) = some (false, r) := rfl
  simp [closed, h, hclose, margin]

/-- A name that is called without arguments names a value. -/
theorem isTag_value {name : String}
    (htag : ∀ r,
      tag (name.toList ++ closing r) = closed expression false (name.toList ++ closing r))
    (hcall : ∀ r, helperCall (name.toList ++ closing r) = some (⟨name, [], [], []⟩, closing r))
    (hsubject : ∀ r, subject (name.toList ++ closing r) = reference (name.toList ++ closing r))
    (hpath : ∀ r, path (name.toList ++ closing r) = some (.here 0 [name], closing r)) :
    IsTag name.toList (.value (memberPath name)) := by
  intro r
  rw [htag]
  refine closed_closing ?_
  simp [expression, hcall, Call.isBare, value, hsubject, reference_member (hpath r)]

theorem arguments_closing (n bound : Nat) (r : List Char) :
    arguments (argument (n + 1)) bound (closing r) = (([], []), closing r) := by
  cases bound <;> rfl

/-- A helper and its only argument, which is a member of the data. -/
theorem helperCall_single (helper name : String) {r : List Char}
    (hstarts : Json.dropBlanks (helper.toList ++ ' ' :: (name.toList ++ closing r)) =
      helper.toList ++ ' ' :: (name.toList ++ closing r))
    (hhelper : identifier (helper.toList ++ ' ' :: (name.toList ++ closing r)) =
      some (helper, ' ' :: (name.toList ++ closing r)))
    (hblanks : Json.dropBlanks (' ' :: (name.toList ++ closing r)) = name.toList ++ closing r)
    (hnamed : ∀ n, namedArgument (argument (n + 1)) (name.toList ++ closing r) = none)
    (hargument : ∀ n,
      argument (n + 1) (name.toList ++ closing r) = reference (name.toList ++ closing r))
    (hpath : path (name.toList ++ closing r) = some (.here 0 [name], closing r)) :
    helperCall (helper.toList ++ ' ' :: (name.toList ++ closing r)) =
      some (⟨helper, [memberPath name], [], []⟩, closing r) := by
  rw [helperCall, hstarts, callWith, hhelper]
  simp only [Option.bind_eq_bind, Option.bind_some]
  rw [arguments]
  simp only [hblanks, hnamed, hargument, reference_member hpath, arguments_closing]
  rfl

/-- A helper with arguments gives its result. -/
theorem isTag_call {w : List Char} {call : Call}
    (htag : ∀ r, tag (w ++ closing r) = closed expression false (w ++ closing r))
    (hcall : ∀ r, helperCall (w ++ closing r) = some (call, closing r))
    (hbare : call.isBare = false) : IsTag w (.call call) := by
  intro r
  rw [htag]
  refine closed_closing ?_
  simp [expression, hcall, hbare]

theorem isTag_start {w : List Char} {call : Call}
    (hcall : ∀ r, helperCall (w ++ closing r) = some (call, closing r)) :
    IsTag ('#' :: w) (.start call) := by
  intro r
  have hnames : blockNames (closing r) = none := rfl
  change closed start false (w ++ closing r) = _
  refine closed_closing ?_
  simp [start, blockCall, hcall, hnames]

theorem isTag_finish {w : List Char} {helper : String}
    (hhelper : ∀ r, identifier (Json.dropBlanks (w ++ closing r)) = some (helper, closing r)) :
    IsTag ('/' :: w) (.finish helper) := by
  intro r
  change closed finish false (w ++ closing r) = _
  refine closed_closing ?_
  simp [finish, hhelper]


end StyleModule.Template
