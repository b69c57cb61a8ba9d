import StyleModule.Proofs.Exports.Members
import StyleModule.Proofs.Generator.Layout
import StyleModule.Proofs.Platform

/-!
# The modules for a list of platforms

Platforms are worked off one after the other, and no module fails to be laid out. So the first
platform that is not fit is refused, wherever it stands, and otherwise there is a module for each
platform that is named, in the order in which they are named first (`Generator.modulesOf_steps`).

The exports are written once for all platforms, but each module is the one that is made for its
platform alone (`Generator.modules_of_make`).
-/

namespace StyleModule.Generator

open Platform

theorem make_eq_error {header : HeaderOptions} {exporter : Exporter}
    (h : header.toolName.toList.any endsLine = true) :
    make header exporter = .error .brokenHeader := by
  rw [make, if_pos h]

theorem make_eq_made {header : HeaderOptions} {exporter : Exporter}
    (h : header.toolName.toList.any endsLine = false) :
    make header exporter = .ok (made header exporter) :=
  make_eq_ok_iff.2 ⟨h, rfl⟩

/-- The module for a platform with the given exports. -/
def layoutModule (header : HeaderOptions) (x : Exports) (platform : Option String) :
    PlatformModule :=
  ⟨platform, layout header x platform⟩

/-- What is done for platforms after others that were fit. -/
theorem modulesOf_stepsAfter {g : Generator} {x : Exports} {header : HeaderOptions}
    (hg : ∀ p, g.assemble x p = .ok (layout header x p)) (names : List String)
    {seen : List (Option String)} (hseen : ∀ p ∈ seen, p.all isFit) :
    g.modulesOf x (stepsAfter seen names) = match unfit? names with
      | some name => .error (.unfitPlatform name)
      | none => .ok (((names.map fun name => named? (some name)).filter
          (fun p => !decide (p ∈ seen))).eraseDups.map (layoutModule header x)) := by
  induction names generalizing seen with
  | nil => rfl
  | cons name names ih =>
    have hunfit : unfit? (name :: names) =
        if isFit name then unfit? names else some name := by
      cases hfit : isFit name <;> simp [unfit?, hfit]
    rw [stepsAfter, hunfit]
    by_cases hmem : named? (some name) ∈ seen
    · -- It came before, so it is fit.
      have hfit : isFit name = true := by
        rw [← all_isFit_named?]
        exact hseen _ hmem
      rw [if_pos hmem, if_pos hfit, modulesOf, ih hseen]
      simp [hmem]
    · rw [if_neg hmem, all_isFit_named?]
      by_cases hfit : isFit name
      · have hseen' : ∀ p ∈ named? (some name) :: seen, p.all isFit :=
          List.forall_mem_cons.2 ⟨(all_isFit_named? name).trans hfit, hseen⟩
        rw [if_pos hfit, if_pos hfit, modulesOf, hg, ih hseen']
        cases unfit? names with
        | some p => rfl
        | none =>
          rw [List.map_cons, eraseDups_filter_cons hmem]
          rfl
      · simp [hfit, modulesOf]

/-- **There is one module for each platform that is named, in the order in which they are named
first**, unless one of them is not fit. -/
theorem modulesOf_steps {g : Generator} {x : Exports} {header : HeaderOptions}
    (hg : ∀ p, g.assemble x p = .ok (layout header x p)) (names : List String) :
    g.modulesOf x (steps names) = match unfit? names with
      | some name => .error (.unfitPlatform name)
      | none => .ok ((targets names).map (layoutModule header x)) := by
  cases names with
  | nil =>
    rw [steps, List.isEmpty_nil, if_pos rfl, modulesOf, hg]
    rfl
  | cons name names =>
    have hsteps := modulesOf_stepsAfter hg (name :: names) (List.forall_mem_nil _)
    simpa [steps, targets] using hsteps

variable {header : HeaderOptions} {exporter : Exporter}

theorem modules_made_of_error {e : Extraction} {problem : Problem}
    (h : exporter e = .error problem) (names : List String) :
    (made header exporter).modules e names = .error problem := by
  have hexporter : (made header exporter).exporter e = .error problem := h
  rw [modules, hexporter]
  rfl

theorem modules_made_of_ok {e : Extraction} {x : Exports} (h : exporter e = .ok x)
    (names : List String) :
    (made header exporter).modules e names = match unfit? names with
      | some name => .error (.unfitPlatform name)
      | none => .ok ((targets names).map (layoutModule header x)) := by
  have hexporter : (made header exporter).exporter e = .ok x := h
  rw [modules, hexporter]
  exact modulesOf_steps (assemble_made header exporter x) names

/-- Modules fail just for a platform that is not fit. -/
theorem modules_made_eq_error_iff {e : Extraction} {x : Exports} (h : exporter e = .ok x)
    {names : List String} {problem : Problem} :
    (made header exporter).modules e names = .error problem ↔
      ∃ name, IsFirst IsUnfit names name ∧ problem = .unfitPlatform name := by
  rw [modules_made_of_ok h]
  simp only [isFirst_isUnfit_iff]
  cases unfit? names with
  | none => simp
  | some name => simp [eq_comm]

/-- Each of several modules is the one for its platform alone. -/
theorem modules_made_eq_ok {e : Extraction} {x : Exports} (h : exporter e = .ok x)
    {names : List String} {modules : List PlatformModule}
    (hmodules : (made header exporter).modules e names = .ok modules) :
    modules.map PlatformModule.platform = targets names ∧
      ∀ m ∈ modules, (made header exporter).moduleText e m.platform = .ok m.content := by
  rw [modules_made_of_ok h] at hmodules
  cases hunfit : unfit? names with
  | some name => simp [hunfit] at hmodules
  | none =>
    simp only [hunfit, Except.ok.injEq] at hmodules
    subst hmodules
    constructor
    · have hplatform : PlatformModule.platform ∘ layoutModule header x = id := rfl
      rw [List.map_map, hplatform, List.map_id]
    · intro m hm
      obtain ⟨p, -, rfl⟩ := List.mem_map.1 hm
      exact moduleText_made h p

theorem targets_of_ne_nil {names : List String} (h : names ≠ []) :
    targets names = (names.map fun name => if name = "" then none else some name).eraseDups := by
  have hnamed : ∀ name, named? (some name) = if name = "" then none else some name := by
    intro name
    by_cases hname : name = "" <;> simp [named?, hname]
  simp only [targets, List.isEmpty_iff, h, if_false, hnamed]

/-- **The modules for a list of platforms are those for each platform alone.** A failure to write
the exports comes before everything else. Then the first platform that is not fit is refused.
Otherwise there is one module without any platforms, and else one for each platform in the order in
which they are named first, where the empty name stands for none. -/
theorem modules_of_make {g : Generator} (hg : make header exporter = .ok g) (e : Extraction)
    (names : List String) :
    (∀ problem, exporter e = .error problem → g.modules e names = .error problem) ∧
    ∀ x, exporter e = .ok x →
      (∃ text, g.moduleText e none = .ok text ∧ g.modules e [] = .ok [⟨none, text⟩]) ∧
      ((∃ problem, g.modules e names = .error problem) ↔ ∃ name ∈ names, IsUnfit name) ∧
      (∀ problem, g.modules e names = .error problem ↔
        ∃ name, IsFirst IsUnfit names name ∧
          problem = .invalidValue name "platform" "not usable as part of a file name") ∧
      ∀ modules, names ≠ [] → g.modules e names = .ok modules →
        modules.map PlatformModule.platform =
          (names.map fun name => if name = "" then none else some name).eraseDups ∧
        ∀ m ∈ modules, g.moduleText e m.platform = .ok m.content := by
  obtain ⟨-, rfl⟩ := make_eq_ok_iff.1 hg
  refine ⟨fun problem h => modules_made_of_error h names, fun x hx => ?_⟩
  refine ⟨⟨_, moduleText_made hx none, modules_made_of_ok hx []⟩, ?_,
    fun problem => modules_made_eq_error_iff hx, fun modules hne h => ?_⟩
  · rw [← exists_isFirst_iff fun _ => not_isFit_iff]
    simp only [modules_made_eq_error_iff hx]
    exact ⟨fun ⟨_, name, hname, _⟩ => ⟨name, hname⟩, fun ⟨name, hname⟩ => ⟨_, name, hname, rfl⟩⟩
  · rw [← targets_of_ne_nil hne]
    exact modules_made_eq_ok hx h

/-- The empty name stands for none, and `..` is refused before a slash after it. -/
theorem modules_of_make_repeated :
    ∃ g modules, make {} (fun _ => .ok {}) = .ok g ∧
      g.modules .empty ["ios", "", "ios"] = .ok modules ∧
      modules.map PlatformModule.platform = [some "ios", none] ∧
      g.modules .empty ["ios", "..", "a/b"] =
        .error (.invalidValue ".." "platform" "not usable as part of a file name") := by
  have hg : make {} (fun _ => .ok {}) = .ok _ := make_eq_made (by decide)
  obtain ⟨-, hfit⟩ := modules_of_make hg .empty ["ios", "", "ios"]
  obtain ⟨-, hunfit⟩ := modules_of_make hg .empty ["ios", "..", "a/b"]
  obtain ⟨-, -, -, hplatforms⟩ := hfit {} rfl
  obtain ⟨-, -, hproblem, -⟩ := hunfit {} rfl
  have hmodules : (made {} fun _ => .ok {}).modules .empty ["ios", "", "ios"] = .ok _ :=
    modules_made_of_ok rfl _
  refine ⟨_, _, hg, hmodules, ?_, (hproblem _).2 ⟨"..", ?_, rfl⟩⟩
  · exact (hplatforms _ (by decide) hmodules).1
  · exact ⟨["ios"], ["a/b"], rfl, .inr (.inl rfl), by decide⟩

end StyleModule.Generator
