import StyleModule.Proofs.Exports.Maps

/-!
# Entries as they stand in a text

What an object literal holds can be told from its text alone (`Expression.readEntries`): the name of
each member, and the texts of the name and of the value as they are written. So two texts can be
compared entry by entry, whatever the order (`Expression.SameMembers`).

A literal with a text for each of some keys has an entry for each of them
(`Expression.readEntries_keyedText`).
-/

namespace StyleModule.Expression

variable {α : Type}

/-- A member of an object literal as it stands in the text. -/
structure Entry where
  /-- The name. -/
  name : String
  /-- The text of the name, with its colon. -/
  key : List Char
  /-- The text of the value. -/
  value : List Char

/-- What there is of a text before its rest. -/
def textBefore (s r : List Char) : List Char := s.take (s.length - r.length)

theorem textBefore_append (t r : List Char) : textBefore (t ++ r) r = t := by
  simp [textBefore]

/-- A member of an object literal whose value can be read. -/
def readEntry (item : Scanner α) : Scanner Entry := fun s => do
  let (name, r) ← readKey s
  let (_, rest) ← item r
  return (⟨name, textBefore s r, textBefore r rest⟩, rest)

/-- The members of an object literal. -/
def readEntries (item : Scanner α) : Scanner (List Entry) :=
  readBracketed '\x7b' '\x7d' (readEntry item)

/-- Entries are the same up to their order, but for the texts of the values, which are related for
each name. -/
def Reordered (R : String → List Char → List Char → Prop) (es fs : List Entry) : Prop :=
  ∃ gs, es.Perm gs ∧ List.Forall₂ (fun g f => g.name = f.name ∧ g.key = f.key ∧
    R g.name g.value f.value) gs fs

/-- Two texts are read as the same entries up to their order. The names in each of them come in an
order of its own. -/
def SameMembers (scanner : Scanner (List Entry)) (R : String → List Char → List Char → Prop)
    (keys keys' : List String) (x y : List Char) : Prop :=
  ∃ es fs, scanner x = some (es, []) ∧ scanner y = some (fs, []) ∧
    es.map (·.name) = keys ∧ fs.map (·.name) = keys' ∧ Reordered R es fs

/-! ### Entries of what is written -/

/-- The entries for some keys. -/
def entriesOf (keys : List String) (text : String → List Char) : List Entry :=
  keys.map fun key => ⟨key, keyText key, text key⟩

theorem readEntry_keyText {item : Scanner α} {name : String} {t : List Char} {a : α}
    (ha : ReadsBack item t a) :
    ReadsBack (readEntry item) (keyText name ++ t) ⟨name, keyText name, t⟩ := by
  intro r hr
  simp [readEntry, List.append_assoc, readKey_keyText, ha r hr, textBefore_append]

/-- The entries of a literal are those that it was written for. -/
theorem readEntries_keyedText {item : Scanner α} {keys : List String} {text : String → List Char}
    (h : ∀ key ∈ keys, ∃ a, ReadsBack item (text key) a) :
    ReadsBack (readEntries item) (keyedText keys text) (entriesOf keys text) := by
  intro r hr
  rw [keyedText, objectText, List.map_map]
  refine readBracketed_commaSeparated (fun s => ?_) (by decide) (by decide) ?_ r
  · simp [readEntry, readKey_brace]
  · rw [entriesOf, List.forall₂_map_left_iff, List.forall₂_map_right_iff]
    refine List.forall₂_same.2 fun key hkey => ?_
    obtain ⟨a, ha⟩ := h key hkey
    exact readEntry_keyText ha

theorem reordered_entriesOf {R : String → List Char → List Char → Prop} {keys keys' : List String}
    {text text' : String → List Char} (h : keys.Perm keys')
    (hR : ∀ key ∈ keys, R key (text key) (text' key)) :
    Reordered R (entriesOf keys text) (entriesOf keys' text') := by
  refine ⟨entriesOf keys' text, h.map _, ?_⟩
  rw [entriesOf, entriesOf, List.forall₂_map_left_iff, List.forall₂_map_right_iff]
  exact List.forall₂_same.2 fun key hkey => ⟨rfl, rfl, hR key (h.mem_iff.2 hkey)⟩

theorem map_name_entriesOf (keys : List String) (text : String → List Char) :
    (entriesOf keys text).map (·.name) = keys := by
  rw [entriesOf, List.map_map]
  exact List.map_id keys

/-- Texts that are read as entries for the same keys have the same members. -/
theorem sameMembers_of_readsBack {scanner : Scanner (List Entry)}
    {R : String → List Char → List Char → Prop} {keys keys' : List String}
    {text text' : String → List Char} {x y : List Char} (h : keys.Perm keys')
    (hx : ReadsBack scanner x (entriesOf keys text))
    (hy : ReadsBack scanner y (entriesOf keys' text'))
    (hR : ∀ key ∈ keys, R key (text key) (text' key)) : SameMembers scanner R keys keys' x y := by
  have hx := hx [] ends_nil
  have hy := hy [] ends_nil
  rw [List.append_nil] at hx hy
  exact ⟨_, _, hx, hy, map_name_entriesOf keys text, map_name_entriesOf keys' text',
    reordered_entriesOf h hR⟩

end StyleModule.Expression
