import StyleModule.Proofs.Command.Faults
import StyleModule.Proofs.Options.Language

/-!
# The options of a run

Each option of a run is decided by itself (`Session.resolved_eq`): what the arguments say comes
first, then what the file with the options says, then the default. But a file that does not hold
options ends the run, even if the arguments leave nothing to be asked of it.

A run reads the file once (`Session.readOptions_host`) and delivers what is generated
(`Session.run_eq`), and that only depends on what its options come to. It generates the same
modules, or fails in the same way, if they are all spelled out in a file.
-/

namespace StyleModule.Command

open Json

/-- The options that arguments and the members of a file come to. -/
def Arguments.resolve (a : Arguments) (ms : List (String × Json)) : Options where
  header := {
    toolName := (a.toolName.or (field? string? "toolName" ms)).getD ({} : HeaderOptions).toolName
    uiFramework :=
      (a.uiFramework.or (field? string? "uiFramework" ms)).getD ({} : HeaderOptions).uiFramework }
  exports := {
    stylesheetCreate :=
      if a.noStylesheetCreate then false
      else (field? bool? "stylesheetCreate" ms).getD ({} : ExportOptions).stylesheetCreate }

namespace Arguments

variable (a : Arguments)

theorem override_ofFields (ms : List (String × Json)) :
    a.override (Options.ofFields ms) = a.resolve ms := by
  have hor : ∀ (x y : Option String) (d : String), x.getD (y.getD d) = (x.or y).getD d := by
    intro x y d
    cases x <;> rfl
  have hand : ∀ x y : Bool, (x && !y) = if y then false else x := by decide
  simp only [override, resolve, Options.ofFields, HeaderOptions.ofParts, ExportOptions.ofPart, hor,
    hand]

/-- The arguments with all options left to a file. -/
def leftTo (path : String) : Arguments :=
  { a with config := some path, toolName := none, uiFramework := none, noStylesheetCreate := false }

end Arguments

namespace Session

variable (s : Session) (a : Arguments)

/-- The options of a run. -/
def resolved : Except Failure Options := (s.options a).map a.override

/-- What is generated depends on the options by what they come to. -/
theorem generated_eq : s.generated a = match s.extractionText a with
    | .error f => ([], .error f)
    | .ok json => match s.resolved a with
      | .error f => ([], .error f)
      | .ok c => produce c json a.platforms := by
  unfold generated resolved
  cases s.extractionText a with
  | error f => rfl
  | ok json => cases s.options a <;> rfl

variable {s a} {path text : String}

theorem resolved_of_config_eq_none (h : a.config = none) : s.resolved a = .ok (a.resolve []) := by
  rw [resolved, options, h, ← a.override_ofFields]
  rfl

theorem resolved_of_readText (hconfig : a.config = some path)
    (htext : s.disk.readText path = .ok text) :
    s.resolved a = ((Options.read text).mapError (.invalidConfig path)).map a.override := by
  simp only [resolved, options, hconfig, htext]

theorem resolved_eq_resolve (hconfig : a.config = some path)
    (htext : s.disk.readText path = .ok text) {ms : List (String × Json)}
    (hobject : Says text (.object ms)) (hshape : Options.HasShape ms) :
    s.resolved a = .ok (a.resolve ms) := by
  have hread : Options.read text = .ok (Options.ofFields ms) :=
    Options.read_eq_ok_iff_hasShape.2 ⟨ms, hobject, hshape, rfl⟩
  rw [resolved_of_readText hconfig htext, hread, ← a.override_ofFields]
  rfl

theorem resolved_eq_error (hconfig : a.config = some path)
    (htext : s.disk.readText path = .ok text)
    (hnot : ¬∃ ms, Says text (.object ms) ∧ Options.HasShape ms) :
    ∃ e, s.resolved a = .error (.invalidConfig path e) := by
  rw [resolved_of_readText hconfig htext]
  cases hread : Options.read text with
  | error e => exact ⟨e, rfl⟩
  | ok o =>
    obtain ⟨ms, hobject, hshape, -⟩ := Options.read_eq_ok_iff_hasShape.1 hread
    exact absurd ⟨ms, hobject, hshape⟩ hnot

/-- Without any options among the arguments, those of the file are the options. -/
theorem resolve_leftTo {c : Options} {ms : List (String × Json)} (hshape : Options.HasShape ms)
    (hc : c.jsonMembers ⊆ ms) : (a.leftTo path).resolve ms = c := by
  rw [← Arguments.override_ofFields, c.ofFields_eq_of_subset hshape hc]
  simp [Arguments.override, Arguments.leftTo]

/-- What is generated with some options is also generated if a file spells them out. -/
theorem generated_leftTo {c : Options} (hc : s.resolved a = .ok c) {s' : Session}
    (hextraction : s'.extractionText a = s.extractionText a)
    (htext : s'.disk.readText path = .ok text) {ms : List (String × Json)}
    (hobject : Says text (.object ms)) (hshape : Options.HasShape ms) (hms : c.jsonMembers ⊆ ms) :
    s'.generated (a.leftTo path) = s.generated a := by
  have hc' : s'.resolved (a.leftTo path) = .ok c := by
    rw [resolved_eq_resolve rfl htext hobject hshape, resolve_leftTo hshape hms]
  have hextraction' : s'.extractionText (a.leftTo path) = s.extractionText a := hextraction
  rw [generated_eq, generated_eq, hc, hc', hextraction']
  rfl

/-- **Options are resolved one by one.** Without a file, or with one that says an object in which
each of the three names comes at most once with a value of its type, each option is what the
arguments say, or else what the file says, or else the default. With a file of any other text the
run fails, whatever the arguments are. What is generated follows from the options alone, and it is
the same with a file that spells all of them out, in any order and among any other members. A run
delivers what is generated. -/
theorem resolved_eq (s : Session) (a : Arguments) :
    host.readOptions a s = (s.options a, s) ∧
    (s.run a = match (s.generated a).2 with
      | .error f => (.error f, s.prepared a)
      | .ok ms => host.deliver a ms (s.prepared a)) ∧
    (a.config = none → s.resolved a = .ok (a.resolve [])) ∧
    (∀ path text, a.config = some path → s.disk.readText path = .ok text →
      (∀ ms, Says text (.object ms) → Options.HasShape ms → s.resolved a = .ok (a.resolve ms)) ∧
      ((¬∃ ms, Says text (.object ms) ∧ Options.HasShape ms) →
        ∃ e, s.resolved a = .error (.invalidConfig path e))) ∧
    ∀ c, s.resolved a = .ok c →
      (∀ json, s.extractionText a = .ok json → s.generated a = produce c json a.platforms) ∧
      (Says (Json.object c.jsonMembers).compact (.object c.jsonMembers) ∧
        Options.HasShape c.jsonMembers) ∧
      ∀ (s' : Session) path text ms, s'.extractionText a = s.extractionText a →
        s'.disk.readText path = .ok text → Says text (.object ms) → Options.HasShape ms →
        c.jsonMembers ⊆ ms → s'.generated (a.leftTo path) = s.generated a := by
  refine ⟨readOptions_host s a, run_eq s a, resolved_of_config_eq_none,
    fun path text hconfig htext => ⟨?_, ?_⟩, fun c hc =>
    ⟨fun json hjson => ?_, ⟨c.says_jsonMembers, c.hasShape_jsonMembers⟩, ?_⟩⟩
  · exact fun ms => resolved_eq_resolve hconfig htext
  · exact resolved_eq_error hconfig htext
  · rw [generated_eq, hjson, hc]
  · intro s' path text ms hextraction htext hobject hshape hms
    exact generated_leftTo hc hextraction htext hobject hshape hms

/-- A session with an extraction of nothing on standard input and one file with options. -/
def withOptions (text : String) : Session :=
  { blank with disk := { current := [], entries := [("options.json", .file text.toUTF8)] } }

theorem readText_withOptions (text : String) :
    (withOptions text).disk.readText "options.json" = .ok text := by
  have hread : (withOptions text).disk.read "options.json" = .ok text.toUTF8 := by rfl
  rw [Disk.readText, hread]
  exact decodeText_toUTF8 text

/-- Two options and another member. -/
def twoOptions : String := "\x7b\"stylesheetCreate\":false,\"id\":[1],\"toolName\":\"a\"\x7d"

/-- A tool's name that is no string. -/
def wrongName : String := "\x7b\"toolName\":0\x7d"

/-- Arguments that name a tool. -/
def naming : Arguments := { config := some "options.json", toolName := some "b" }

/-- The tool's name is that of the arguments, the styles are left as the file says, and the
framework is the default one. The same is generated if a file says all this. A name that is no
string is not made up for by the arguments. -/
theorem resolved_eq_naming :
    (withOptions twoOptions).resolved naming = .ok ⟨⟨"b", "react-native"⟩, ⟨false⟩⟩ ∧
    (withOptions
        (Json.object (Options.mk ⟨"b", "react-native"⟩ ⟨false⟩).jsonMembers).compact).generated
        { config := some "options.json" } = (withOptions twoOptions).generated naming ∧
    ∃ e, (withOptions wrongName).resolved naming = .error (.invalidConfig "options.json" e) := by
  have hobject : Says twoOptions (.object [("stylesheetCreate", .bool false),
      ("id", .array [.int 1]), ("toolName", .string "a")]) :=
    eq_ok_of_any_beq (by simp [Json.HasNoFloats, Everywhere, ItemsEverywhere, MembersEverywhere])
      (by decide +kernel)
  have hshape : Options.HasShape [("stylesheetCreate", .bool false), ("id", .array [.int 1]),
      ("toolName", .string "a")] := by
    constructor <;> constructor <;> simp [string?, bool?]
  obtain ⟨-, -, -, hfile, hgenerated⟩ := resolved_eq (withOptions twoOptions) naming
  have hc := (hfile _ _ rfl (readText_withOptions _)).1 _ hobject hshape
  refine ⟨hc, ?_, ?_⟩
  · obtain ⟨-, ⟨hobject', hshape'⟩, hsame⟩ := hgenerated _ hc
    exact hsame (withOptions _) _ _ _ rfl (readText_withOptions _) hobject' hshape' fun _ => id
  · obtain ⟨-, -, -, hwrong, -⟩ := resolved_eq (withOptions wrongName) naming
    refine (hwrong _ _ rfl (readText_withOptions _)).2 ?_
    rintro ⟨ms, hms, hname⟩
    have hobject' : Says wrongName (.object [("toolName", .int 0)]) :=
      eq_ok_of_any_beq (by simp [Json.HasNoFloats, Everywhere, MembersEverywhere])
        (by decide +kernel)
    cases hms.symm.trans hobject'
    cases hname.toolName.value (.int 0) List.mem_cons_self

end Session

end StyleModule.Command
