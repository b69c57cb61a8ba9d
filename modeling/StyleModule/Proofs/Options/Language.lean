import StyleModule.Options.Reader
import StyleModule.Proofs.Json.Covering
import StyleModule.Proofs.Json.Members
import StyleModule.Proofs.Json.RoundTrip

/-!
# The language of options

Which texts are read as options, and as which (`Options.read_eq_ok_iff_hasShape`). The text says an
object in which each of the three names comes at most once, with a value of its type
(`Options.HasShape`); other members do not matter. An option is the value of its own name, and
without it the default: it is found as if there were no other (`HeaderOptions.toOption_ofMembers`).
-/

namespace StyleModule

/-! ### One field -/

namespace Json

/-- A truth value. -/
def bool? : Json → Option Bool
  | bool b => some b
  | _ => none

variable {α : Type} {decode : Json → Option α} {k name : String} {v : Json}
  {ms : List (String × Json)}

/-- A name comes at most once among members, and its value can be decoded. -/
structure HasField (decode : Json → Option α) (name : String) (ms : List (String × Json)) :
    Prop where
  once : (ms.map Prod.fst).count name ≤ 1
  value : ∀ v, (name, v) ∈ ms → (decode v).isSome

/-- What the value of a name is decoded to, if the name is among the members. -/
def field? (decode : Json → Option α) (name : String) (ms : List (String × Json)) : Option α :=
  (member? ms name).bind decode

theorem hasField_cons_self :
    HasField decode name ((name, v) :: ms) ↔ (decode v).isSome ∧ name ∉ ms.map Prod.fst := by
  constructor
  · rintro ⟨honce, hvalue⟩
    rw [List.map_cons, List.count_cons_self] at honce
    exact ⟨hvalue v List.mem_cons_self, List.count_eq_zero.1 (by omega)⟩
  · rintro ⟨hv, hnew⟩
    have hcount := List.count_eq_zero.2 hnew
    refine ⟨?_, fun w hw => ?_⟩
    · rw [List.map_cons, List.count_cons_self]
      omega
    · rcases List.mem_cons.1 hw with hw | hw
      · cases hw
        exact hv
      · exact absurd (List.mem_map_of_mem hw) hnew

theorem hasField_cons_of_ne (hk : k ≠ name) :
    HasField decode name ((k, v) :: ms) ↔ HasField decode name ms := by
  constructor
  · rintro ⟨honce, hvalue⟩
    rw [List.map_cons, List.count_cons_of_ne hk] at honce
    exact ⟨honce, fun w hw => hvalue w (List.mem_cons_of_mem _ hw)⟩
  · rintro ⟨honce, hvalue⟩
    refine ⟨by rwa [List.map_cons, List.count_cons_of_ne hk], fun w hw => ?_⟩
    rcases List.mem_cons.1 hw with hw | hw
    · cases hw
      exact absurd rfl hk
    · exact hvalue w hw

theorem field?_cons_self (hnew : name ∉ ms.map Prod.fst) :
    field? decode name ((name, v) :: ms) = decode v := by
  rw [field?, member?_cons, member?_eq_none_iff.2 hnew, Option.none_or, if_pos rfl,
    Option.bind_some]

theorem field?_cons_of_ne (hk : k ≠ name) :
    field? decode name ((k, v) :: ms) = field? decode name ms := by
  rw [field?, member?_cons, if_neg hk, Option.or_none, ← field?]

/-- A field is the value of any of its members, of which there is no other. -/
theorem HasField.field?_of_mem (h : HasField decode name ms) (hv : (name, v) ∈ ms) :
    field? decode name ms = decode v := by
  induction ms with
  | nil => cases hv
  | cons m ms ih =>
    obtain ⟨k, w⟩ := m
    by_cases hk : k = name
    · obtain rfl := hk
      obtain ⟨-, hnew⟩ := hasField_cons_self.1 h
      rw [field?_cons_self hnew]
      rcases List.mem_cons.1 hv with hv | hv
      · cases hv
        rfl
      · exact absurd (List.mem_map_of_mem hv) hnew
    · rw [field?_cons_of_ne hk]
      rcases List.mem_cons.1 hv with hv | hv
      · cases hv
        exact absurd rfl hk
      · exact ih ((hasField_cons_of_ne hk).1 h) hv

/-! ### Looking for a field -/

/-- What is found for a name once one more member is looked at. -/
def takeField (decode : Json → Option α) (name : String) (found : Option α)
    (m : String × Json) : Option (Option α) :=
  if m.1 = name then (if found.isSome then none else (decode m.2).map some) else some found

/-- After a name was found it must not come again. -/
theorem foldlM_takeField_some {a : α} {last : Option α} :
    ms.foldlM (takeField decode name) (some a) = some last ↔
      name ∉ ms.map Prod.fst ∧ last = some a := by
  induction ms with
  | nil => simp [eq_comm]
  | cons m ms ih =>
    rw [List.foldlM_cons, takeField]
    by_cases hk : m.1 = name
    · simp [hk]
    · simp [hk, ih, Ne.symm hk]

/-- A name is found if it comes once with a value of its type, or not at all. -/
theorem foldlM_takeField {last : Option α} :
    ms.foldlM (takeField decode name) none = some last ↔
      HasField decode name ms ∧ last = field? decode name ms := by
  induction ms with
  | nil =>
    have hnil : HasField decode name [] := ⟨Nat.zero_le _, fun _ hv => by cases hv⟩
    simp [hnil, field?, member?, eq_comm]
  | cons m ms ih =>
    obtain ⟨k, v⟩ := m
    rw [List.foldlM_cons, takeField]
    by_cases hk : k = name
    · obtain rfl := hk
      rw [hasField_cons_self, if_pos rfl]
      cases hv : decode v with
      | none => simp
      | some a =>
        -- The name must not come again, so this is also its last value.
        have hlast : k ∉ ms.map Prod.fst → field? decode k ((k, v) :: ms) = some a := fun hnew => by
          rw [field?_cons_self hnew, hv]
        simp only [Option.isSome_none, Bool.false_eq_true, ↓reduceIte, Option.map_some,
          Option.bind_eq_bind, Option.bind_some, Option.isSome_some, true_and]
        rw [foldlM_takeField_some]
        exact and_congr_right fun hnew => by rw [hlast hnew]
    · rw [if_neg hk, hasField_cons_of_ne hk, field?_cons_of_ne hk]
      exact ih

end Json

open Json

variable {ms : List (String × Json)}

/-! ### Members of options -/

theorem toOption_ofScalar_string (v : Json) : (Shape.string.ofScalar v).toOption = string? v := by
  cases v <;> rfl

theorem toOption_ofScalar_bool (v : Json) : (Shape.bool.ofScalar v).toOption = bool? v := by
  cases v <;> rfl

/-- Each of the options for the header is looked for by itself. -/
theorem HeaderOptions.toOption_ofMembers (p : Parts) (ms : List (String × Json)) :
    (ofMembers p ms).toOption =
      (ms.foldlM (takeField string? "toolName") p.toolName).bind fun toolName =>
        (ms.foldlM (takeField string? "uiFramework") p.uiFramework).map fun uiFramework =>
          ofParts ⟨toolName, uiFramework⟩ := by
  induction ms generalizing p with
  | nil => rfl
  | cons m ms ih =>
    obtain ⟨k, v⟩ := m
    rw [ofMembers, List.foldlM_cons, List.foldlM_cons, takeField, takeField]
    by_cases htool : k = "toolName"
    · obtain rfl := htool
      have hframework : "toolName" ≠ "uiFramework" := by decide
      rw [if_pos rfl, if_pos rfl, if_neg hframework]
      cases p.toolName with
      | some s => rfl
      | none =>
        simp only [Option.isSome_none, Bool.false_eq_true, ↓reduceIte, toOption_bind,
          toOption_ofScalar_string]
        cases string? v with
        | none => rfl
        | some s => exact ih _
    · rw [if_neg htool, if_neg htool]
      by_cases hframework : k = "uiFramework"
      · rw [if_pos hframework, if_pos hframework]
        cases p.uiFramework with
        | some s => simp
        | none =>
          simp only [Option.isSome_none, Bool.false_eq_true, ↓reduceIte, toOption_bind,
            toOption_ofScalar_string]
          cases string? v with
          | none => simp
          | some s => exact ih _
      · rw [if_neg hframework, if_neg hframework]
        exact ih p

/-- So is the option for the exports. -/
theorem ExportOptions.toOption_ofMembers (found : Option Bool) (ms : List (String × Json)) :
    (ofMembers found ms).toOption =
      (ms.foldlM (takeField bool? "stylesheetCreate") found).map ofPart := by
  induction ms generalizing found with
  | nil => rfl
  | cons m ms ih =>
    obtain ⟨k, v⟩ := m
    rw [ofMembers, List.foldlM_cons, takeField]
    by_cases hk : k = "stylesheetCreate"
    · rw [if_pos hk, if_pos hk]
      cases found with
      | some b => rfl
      | none =>
        simp only [Option.isSome_none, Bool.false_eq_true, ↓reduceIte, toOption_bind,
          toOption_ofScalar_bool]
        cases bool? v with
        | none => rfl
        | some b => exact ih _
    · rw [if_neg hk, if_neg hk]
      exact ih found

/-! ### All options -/

namespace Options

/-- Each of the three names comes at most once, with a value of its type. -/
structure HasShape (ms : List (String × Json)) : Prop where
  toolName : HasField string? "toolName" ms
  uiFramework : HasField string? "uiFramework" ms
  stylesheetCreate : HasField bool? "stylesheetCreate" ms

/-- The options that some members stand for. -/
def ofFields (ms : List (String × Json)) : Options where
  header := .ofParts ⟨field? string? "toolName" ms, field? string? "uiFramework" ms⟩
  exports := .ofPart (field? bool? "stylesheetCreate" ms)

theorem ofMembers_eq_ok_iff {o : Options} :
    ofMembers ms = .ok o ↔ HasShape ms ∧ o = ofFields ms := by
  rw [← toOption_eq_some, ofMembers, toOption_bind, HeaderOptions.toOption_ofMembers]
  simp only [toOption_bind, ExportOptions.toOption_ofMembers, Option.bind_eq_some_iff,
    Option.map_eq_some_iff, pure_eq_ok, toOption_ok, foldlM_takeField]
  constructor
  · rintro ⟨_, ⟨_, ⟨htool, rfl⟩, _, ⟨hframework, rfl⟩, rfl⟩, _, ⟨_, ⟨hcreate, rfl⟩, rfl⟩, ho⟩
    exact ⟨⟨htool, hframework, hcreate⟩, (Option.some.inj ho).symm⟩
  · rintro ⟨⟨htool, hframework, hcreate⟩, rfl⟩
    exact ⟨_, ⟨_, ⟨htool, rfl⟩, _, ⟨hframework, rfl⟩, rfl⟩, _, ⟨_, ⟨hcreate, rfl⟩, rfl⟩, rfl⟩

/-- The options that a value stands for. -/
def ofJson? : Json → Option Options
  | .object ms => (ofMembers ms).toOption
  | _ => none

theorem ofJson?_eq_some_iff {v : Json} {o : Options} :
    ofJson? v = some o ↔ ∃ ms, v = .object ms ∧ HasShape ms ∧ o = ofFields ms := by
  cases v with
  | object ms => simp [ofJson?, toOption_eq_some, ofMembers_eq_ok_iff]
  | _ => simp [ofJson?]

/-- All members are read before the options among them are looked at. -/
theorem toOption_object {body : Reader Options} (hbody : shape.object? = some body)
    (s : List Char) : (body s).toOption =
      (enclosed closeObject (objectBody (value (maxOpen - 1)) s)).toOption.bind fun p =>
        (ofMembers p.1).toOption.map fun o => (o, p.2) := by
  cases hbody
  refine toOption_enclosed_bind (f := fun ms => (ofMembers ms).toOption) fun ms s => ?_
  dsimp only
  cases ofMembers ms <;> rfl

theorem shape_follows : Follows maxOpen shape.read ofJson? := by
  refine Shape.read_follows (fun _ _ _ _ _ _ => rfl) (fun m s ms r hm hms => ?_) fun v hv => ?_
  · obtain rfl : m = maxOpen - 1 := by rw [hm, Nat.add_sub_cancel]
    refine (toOption_object rfl s).trans ?_
    rw [hms]
    rfl
  · cases hv using IsScalar.cases <;> rfl

theorem shape_covered : Covered maxOpen shape.read := by
  refine Shape.read_covered (fun _ _ _ _ h => by cases h) fun body s o r hbody ho => ?_
  have hobject := toOption_object hbody s
  rw [ho, toOption_ok, eq_comm, Option.bind_eq_some_iff] at hobject
  obtain ⟨⟨ms, r'⟩, hms, ho⟩ := hobject
  obtain ⟨o', -, ho⟩ := Option.map_eq_some_iff.1 ho
  cases ho
  exact ⟨_, ms, rfl, toOption_eq_some.1 hms⟩

/-- **The language of options.** A text is read as options if and only if it says an object with
each of the three names at most once, and with a value of its type. Then each option is the value of
its name, or the default. -/
theorem read_eq_ok_iff_hasShape {text : String} {o : Options} :
    read text = .ok o ↔ ∃ ms, Says text (.object ms) ∧ HasShape ms ∧ o = ofFields ms := by
  constructor
  · intro h
    obtain ⟨r, hread, hr⟩ := run_eq_ok.1 h
    obtain ⟨v, hv⟩ := shape_covered hread
    have hvalue : Says text v := run_eq_ok.2 ⟨r, hv, hr⟩
    have ho : ofJson? v = some o := by
      rw [← shape_follows.run hvalue, toOption_eq_some]
      exact h
    obtain ⟨ms, rfl, hms⟩ := ofJson?_eq_some_iff.1 ho
    exact ⟨ms, hvalue, hms⟩
  · rintro ⟨ms, hobject, hms⟩
    rw [read, ← toOption_eq_some, shape_follows.run hobject]
    exact ofJson?_eq_some_iff.2 ⟨ms, rfl, hms⟩

/-! ### Options that are spelled out -/

variable (o : Options)

theorem jsonMembers_eq : o.jsonMembers = [("toolName", .string o.header.toolName),
    ("uiFramework", .string o.header.uiFramework),
    ("stylesheetCreate", .bool o.exports.stylesheetCreate)] := rfl

theorem hasShape_jsonMembers : HasShape o.jsonMembers := by
  constructor <;> constructor <;> simp [jsonMembers_eq, string?, bool?]

/-- Members that spell out all options, among others, stand for these options. -/
theorem ofFields_eq_of_subset (h : HasShape ms) (hsubset : o.jsonMembers ⊆ ms) :
    ofFields ms = o := by
  rw [jsonMembers_eq, List.cons_subset, List.cons_subset, List.cons_subset] at hsubset
  obtain ⟨htool, hframework, hcreate, -⟩ := hsubset
  rw [ofFields, h.toolName.field?_of_mem htool, h.uiFramework.field?_of_mem hframework,
    h.stylesheetCreate.field?_of_mem hcreate]
  rfl

/-- The compact text of the members says them. -/
theorem says_jsonMembers : Says (Json.object o.jsonMembers).compact (.object o.jsonMembers) := by
  rw [jsonMembers_eq]
  refine says_compact ?_ ?_
  · simp [HasOnlyIntegers, Everywhere, MembersEverywhere]
  · simp [depth, membersDepth, maxOpen]

end Options

end StyleModule
