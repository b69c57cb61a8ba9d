import StyleModule.Proofs.Extraction.Decoding
import StyleModule.Proofs.Json.RoundTrip
import StyleModule.Proofs.OrderedMap

/-!
# Extractions are read back

What is written for an extraction can be read, and all that may change is that a literal of the form
of a member becomes that member (`Extraction.read_compact`). So an extraction is read back as it was
just if no literal has one of these forms.
-/

namespace StyleModule

open Json PropertyValue

variable {α β : Type}

/-! ### Maps and lists -/

namespace Json

theorem mapM_eq_some_map {f : α → Option β} {g : α → β} {as : List α}
    (h : ∀ a ∈ as, f a = some (g a)) : as.mapM f = some (as.map g) := by
  induction as with
  | nil => rfl
  | cons a as ih =>
    obtain ⟨ha, has⟩ := List.forall_mem_cons.1 h
    simp [ha, ih has]

theorem mapOf?_toJson {write : α → Json} {decode : Json → Option β} {g : α → β} {m : OrderedMap α}
    (h : ∀ e ∈ m.entries, decode (write e.2) = some (g e.2)) :
    mapOf? decode (m.toJson write) = some (m.map g) := by
  have hentries : (m.entries.map fun e => (e.1, write e.2)).mapM
      (fun m => (decode m.2).map fun a => (m.1, a)) = some (m.map g).entries := by
    rw [List.mapM_map]
    exact mapM_eq_some_map fun e he => by simp [h e he]
  simp only [mapOf?, OrderedMap.toJson, hentries, Option.map_some, OrderedMap.ofList_entries]

theorem mapOf?_toJson_self {write : α → Json} {decode : Json → Option α} (m : OrderedMap α)
    (h : ∀ a, decode (write a) = some a) : mapOf? decode (m.toJson write) = some m := by
  rw [mapOf?_toJson (g := id) fun e _ => h e.2, OrderedMap.map_eq_self_iff.2 fun _ _ => rfl]

theorem listOf?_array {write : α → Json} {decode : Json → Option α} (as : List α)
    (h : ∀ a, decode (write a) = some a) : listOf? decode (.array (as.map write)) = some as := by
  have hitems : as.mapM (decode ∘ write) = some (as.map id) := mapM_eq_some_map fun a _ => h a
  rw [listOf?, List.mapM_map, hitems, List.map_id]

end Json

namespace PropertyValue

/-- What a value is read back as: a literal of the form of a member becomes that member. -/
def settled (p : PropertyValue) : PropertyValue := .ofJson p.toJson

theorem settled_member (name : String) : settled (.member name) = .member name :=
  ofJson_eq_member.2 (.inl rfl)

theorem settled_literal (l : Literal) :
    settled (.literal l) = .literal l ↔ ∀ name, ¬NamesMember l.json name := by
  rw [settled, toJson, ofJson_eq_literal, and_iff_left l.ofJson_json]

end PropertyValue

namespace Extraction

/-- What an extraction is read back as. -/
def settled (e : Extraction) : Extraction :=
  { e with styles := e.styles.map fun record => record.map PropertyValue.settled }

/-- Every literal among the values of the properties has a property. -/
def EveryLiteral (e : Extraction) (p : Json → Prop) : Prop :=
  ∀ s ∈ e.styles.entries, ∀ d ∈ s.2.entries, ∀ l, d.2 = .literal l → p l.json

variable (e : Extraction)

theorem settled_eq_self_iff :
    e.settled = e ↔ e.EveryLiteral fun v => ∀ name, ¬NamesMember v name := by
  have hstyles : e.settled = e ↔
      (e.styles.map fun record => record.map PropertyValue.settled) = e.styles := by
    constructor
    · intro h
      exact congrArg styles h
    · intro h
      rw [settled, h]
  have hvalue : ∀ p : PropertyValue, p.settled = p ↔
      ∀ l, p = .literal l → ∀ name, ¬NamesMember l.json name := by
    intro p
    cases p with
    | member name => simp [settled_member]
    | literal l => simp [settled_literal]
  simp only [hstyles, OrderedMap.map_eq_self_iff, EveryLiteral, hvalue]

/-! ### What is written -/

theorem stylesOfJson?_stylesJson : stylesOfJson? e.stylesJson = some e.settled.styles :=
  mapOf?_toJson fun _ _ => mapOf?_toJson fun _ _ => rfl

theorem atRulesOfJson?_atRulesJson : atRulesOfJson? e.atRulesJson = some e.atRules :=
  mapOf?_toJson_self _ fun groups => listOf?_array groups fun group =>
    listOf?_array group fun _ => rfl

theorem masksOfJson?_masksJson : masksOfJson? e.masksJson = some e.masks :=
  mapOf?_toJson_self _ fun mask => by simp [word?]

theorem topicsOfJson?_topicsJson : topicsOfJson? e.topicsJson = some e.topics :=
  mapOf?_toJson_self _ fun topics => listOf?_array topics fun _ => rfl

theorem ofJson?_toJson : ofJson? e.toJson = some e.settled := by
  simp [ofJson?, toJson, Parts.add?, stylesOfJson?_stylesJson, atRulesOfJson?_atRulesJson,
    masksOfJson?_masksJson, topicsOfJson?_topicsJson, ofParts, settled]

/-! ### What the written value is like -/

section

variable {p : Json → Prop} {f : α → Json}

theorem everywhere_toJson {m : OrderedMap α} (hobject : ∀ ms, p (.object ms))
    (h : ∀ s ∈ m.entries, (f s.2).Everywhere p) : (m.toJson f).Everywhere p := by
  refine everywhere_object.2 ⟨hobject _, fun member hmember => ?_⟩
  obtain ⟨s, hs, rfl⟩ := List.mem_map.1 hmember
  exact h s hs

theorem everywhere_array_map {as : List α} (harray : ∀ vs, p (.array vs))
    (h : ∀ a ∈ as, (f a).Everywhere p) : (Json.array (as.map f)).Everywhere p := by
  refine everywhere_array.2 ⟨harray _, fun v hv => ?_⟩
  obtain ⟨a, ha, rfl⟩ := List.mem_map.1 hv
  exact h a ha

/-- What holds of all containers, strings and masks holds everywhere if it does in the literals. -/
theorem everywhere_extraction (hobject : ∀ ms, p (.object ms)) (harray : ∀ vs, p (.array vs))
    (hstring : ∀ s, p (.string s)) (hmask : ∀ mask : UInt64, p (.int mask.toNat))
    (h : e.EveryLiteral (Everywhere p)) : e.toJson.Everywhere p := by
  have hvalue : ∀ s ∈ e.styles.entries, ∀ d ∈ s.2.entries, d.2.toJson.Everywhere p := by
    intro s hs d hd
    cases hp : d.2 with
    | member name => exact ⟨hobject _, hstring name, trivial⟩
    | literal l => exact h s hs d hd l hp
  have hcondition : ∀ c : Condition, c.toJson.Everywhere p := by
    intro c
    exact ⟨harray _, hstring c.kind, hstring c.argument, trivial⟩
  have hstyles : e.stylesJson.Everywhere p := by
    refine everywhere_toJson hobject fun s hs => ?_
    exact everywhere_toJson hobject (hvalue s hs)
  have hatRules : e.atRulesJson.Everywhere p := by
    refine everywhere_toJson hobject fun s _ => ?_
    refine everywhere_array_map harray fun group _ => ?_
    exact everywhere_array_map harray fun c _ => hcondition c
  have hmasks : e.masksJson.Everywhere p := by
    refine everywhere_toJson hobject fun s _ => ?_
    exact hmask s.2
  have htopics : e.topicsJson.Everywhere p := by
    refine everywhere_toJson hobject fun s _ => ?_
    exact everywhere_array_map harray fun topic _ => hstring topic
  exact ⟨hobject _, hstyles, hatRules, hmasks, htopics, trivial⟩

end

theorem hasOnlyIntegers_toJson (h : e.EveryLiteral HasOnlyIntegers) : e.toJson.HasOnlyIntegers := by
  refine everywhere_extraction e (fun _ => trivial) (fun _ => trivial) (fun _ => trivial) ?_ h
  intro mask
  have hmask : mask.toNat < 0x10000000000000000 := mask.toNat_lt
  constructor <;> omega

theorem depth_toJson_le {f : α → Json} {m : OrderedMap α} {n : Nat}
    (h : ∀ s ∈ m.entries, (f s.2).depth ≤ n) : (m.toJson f).depth ≤ n + 1 := by
  refine depth_object_le_iff.2 fun member hmember => ?_
  obtain ⟨s, hs, rfl⟩ := List.mem_map.1 hmember
  exact h s hs

theorem depth_array_map_le {f : α → Json} {as : List α} {n : Nat} (h : ∀ a ∈ as, (f a).depth ≤ n) :
    (Json.array (as.map f)).depth ≤ n + 1 := by
  refine depth_array_le_iff.2 fun v hv => ?_
  obtain ⟨a, ha, rfl⟩ := List.mem_map.1 hv
  exact h a ha

/-- Around each literal three objects are open: the extraction, its styles and the record. -/
theorem depth_toJson_le_maxOpen (h : e.EveryLiteral fun v => v.depth ≤ maxOpen - 3) :
    e.toJson.depth ≤ maxOpen := by
  have hvalue : ∀ s ∈ e.styles.entries, ∀ d ∈ s.2.entries, d.2.toJson.depth ≤ maxOpen - 3 := by
    intro s hs d hd
    cases hp : d.2 with
    | member name => exact depth_object_le_iff.2 (by simp [depth])
    | literal l => exact h s hs d hd l hp
  have hstyles : e.stylesJson.depth ≤ maxOpen - 1 := by
    refine depth_toJson_le fun s hs => ?_
    exact depth_toJson_le (hvalue s hs)
  have hatRules : e.atRulesJson.depth ≤ maxOpen - 1 := by
    refine depth_toJson_le fun s _ => ?_
    refine depth_array_map_le fun group _ => ?_
    refine depth_array_map_le fun c _ => ?_
    exact depth_array_le_iff.2 (by simp [depth])
  have hmasks : e.masksJson.depth ≤ maxOpen - 1 := by
    refine depth_toJson_le fun s _ => ?_
    exact Nat.zero_le _
  have htopics : e.topicsJson.depth ≤ maxOpen - 1 := by
    refine depth_toJson_le fun s _ => ?_
    exact depth_array_map_le fun topic _ => Nat.zero_le _
  refine depth_object_le_iff.2 ?_
  simpa using ⟨hstyles, hatRules, hmasks, htopics⟩

/-- What is written for an extraction is read as the extraction, but for literals of the form of a
member. -/
theorem read_compact (hints : e.EveryLiteral HasOnlyIntegers)
    (hdepth : e.EveryLiteral fun v => v.depth ≤ maxOpen - 3) :
    read e.toJson.compact = .ok e.settled := by
  have hsays := says_compact (hasOnlyIntegers_toJson e hints) (depth_toJson_le_maxOpen e hdepth)
  rw [← toOption_eq_some, toOption_read hsays, ofJson?_toJson]

/-- **An extraction is read back just if no literal has the form of a member.** Its numbers are to
be whole, and its literals are to be nested no deeper than can be read. -/
theorem read_compact_eq_self_iff {e : Extraction} (hints : e.EveryLiteral HasOnlyIntegers)
    (hdepth : e.EveryLiteral fun v => v.depth ≤ 124) :
    read e.toJson.compact = .ok e ↔ e.EveryLiteral fun v =>
      ∀ name, v ≠ .object [(memberField, .string name)] ∧ v ≠ .array [.string name] := by
  have hforms : ∀ v name, ¬NamesMember v name ↔
      v ≠ .object [(memberField, .string name)] ∧ v ≠ .array [.string name] := by
    intro v name
    exact not_or
  simp only [read_compact e hints hdepth, Except.ok.injEq, settled_eq_self_iff, hforms]

/-- The extraction of one literal. -/
def ofLiteral (l : Literal) : Extraction :=
  empty.withRecord "box" (.ofList [("shadow", .literal l)])

theorem everyLiteral_ofLiteral {l : Literal} {p : Json → Prop} :
    (ofLiteral l).EveryLiteral p ↔ p l.json := by
  constructor
  · intro h
    exact h _ List.mem_cons_self _ List.mem_cons_self l rfl
  · intro h s hs d hd k hk
    obtain rfl := List.mem_singleton.1 hs
    obtain rfl := List.mem_singleton.1 hd
    cases hk
    exact h

/-- Two offsets are read back, the list of one name is not. -/
theorem read_compact_eq_self_iff_shadow :
    read (ofLiteral (.ofJson (.object [("offset", .array [.int (-1), .int 2])]))).toJson.compact =
        .ok (ofLiteral (.ofJson (.object [("offset", .array [.int (-1), .int 2])]))) ∧
      read (ofLiteral (.ofJson (.array [.string "tint"]))).toJson.compact ≠
        .ok (ofLiteral (.ofJson (.array [.string "tint"]))) := by
  have hoffset : (Literal.ofJson (.object [("offset", .array [.int (-1), .int 2])])).json =
      .object [("offset", .array [.int (-1), .int 2])] := rfl
  have htint : (Literal.ofJson (.array [.string "tint"])).json = .array [.string "tint"] := rfl
  constructor
  · refine (read_compact_eq_self_iff ?_ ?_).2 ?_ <;> rw [everyLiteral_ofLiteral, hoffset]
    · simp [HasOnlyIntegers, FitsWord, Everywhere, ItemsEverywhere, MembersEverywhere]
    · simp [depth, itemsDepth, membersDepth]
    · simp [memberField]
  · rw [Ne, read_compact_eq_self_iff ?_ ?_] <;> rw [everyLiteral_ofLiteral, htint]
    · exact fun h => (h "tint").2 rfl
    · simp [HasOnlyIntegers, Everywhere, ItemsEverywhere]
    · simp [depth, itemsDepth]

end Extraction

end StyleModule
