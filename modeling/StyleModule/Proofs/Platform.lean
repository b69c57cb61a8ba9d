import Mathlib.Data.List.Nodup
import Mathlib.Tactic.SplitIfs
import StyleModule.Platform
import StyleModule.Proofs.Outcome
import StyleModule.Proofs.Repetition

/-!
# The platforms that modules are made for

There is one module for each platform that is named in a list, in the order in which they are named
first (`Platform.targets`), unless one of them is not fit (`Platform.unfit?`, which is the first of
those with `Platform.IsUnfit`).

Modules for different platforms have different file names (`PlatformModule.fileName_inj`), and no
file name of a module for a fit platform is broken up by slashes
(`PlatformModule.slash_notMem_fileName`).
-/

namespace StyleModule

namespace Platform

/-- The platforms that modules are made for, none standing for all, in the order in which they are
named first. Without any names there is one module for all. -/
def targets (names : List String) : List (Option String) :=
  if names.isEmpty then [none] else (names.map fun name => named? (some name)).eraseDups

/-- The first of some platforms that cannot be a part of a file name. -/
def unfit? (names : List String) : Option String := names.find? fun name => !isFit name

/-- A platform would lead to another file: it stands for a directory, or what is before a slash or a
zero in it would be taken for a name of its own. -/
def IsUnfit (platform : String) : Prop :=
  platform = "." ∨ platform = ".." ∨
    ∃ c ∈ platform.toList, c = '/' ∨ c = '\\' ∨ c = '\x00'

theorem not_isFit_iff {platform : String} : (!isFit platform) = true ↔ IsUnfit platform := by
  simp only [isFit, Bool.not_and, Bool.not_not, Bool.or_eq_true, List.any_eq_true, beq_iff_eq,
    bne, or_assoc, IsUnfit]

instance : DecidablePred IsUnfit := fun _ => decidable_of_iff _ not_isFit_iff

theorem isFirst_isUnfit_iff {names : List String} {name : String} :
    IsFirst IsUnfit names name ↔ unfit? names = some name :=
  isFirst_iff_find? fun _ => not_isFit_iff

theorem all_isFit_named? (name : String) : (named? (some name)).all isFit = isFit name := by
  by_cases hname : name = ""
  · subst hname
    rfl
  · simp [named?, hname]

theorem targets_ne_nil (names : List String) : targets names ≠ [] := by
  unfold targets
  cases names with
  | nil => simp
  | cons name names => simp [List.eraseDups_cons]

theorem nodup_targets (names : List String) : (targets names).Nodup := by
  unfold targets
  split_ifs
  · exact List.nodup_singleton none
  · exact nodup_eraseDups _

theorem all_isFit_of_mem_targets {names : List String} (h : unfit? names = none)
    {p : Option String} (hp : p ∈ targets names) : p.all isFit := by
  unfold targets at hp
  split_ifs at hp
  · rw [List.mem_singleton.1 hp]
    rfl
  · obtain ⟨name, hname, rfl⟩ := List.mem_map.1 (List.mem_eraseDups.1 hp)
    have hfit := List.find?_eq_none.1 h name hname
    rw [all_isFit_named?]
    simpa using hfit

end Platform

namespace PlatformModule

theorem toList_fileName_none (content : String) :
    (fileName ⟨none, content⟩).toList = "styles.js".toList := rfl

theorem toList_fileName_some (platform content : String) :
    (fileName ⟨some platform, content⟩).toList =
      "styles.".toList ++ (platform.toList ++ ".js".toList) := by
  simp [fileName]

/-- A file name tells the platform of its module. -/
theorem fileName_inj {m n : PlatformModule} (h : m.fileName = n.fileName) :
    m.platform = n.platform := by
  have hlist := congrArg String.toList h
  obtain ⟨p, c⟩ := m
  obtain ⟨q, c'⟩ := n
  cases p with
  | none => cases q with
    | none => rfl
    | some q =>
      rw [toList_fileName_some] at hlist
      have hlength := congrArg List.length hlist
      simp [fileName] at hlength
  | some p => cases q with
    | none =>
      rw [toList_fileName_some] at hlist
      have hlength := congrArg List.length hlist
      simp [fileName] at hlength
    | some q =>
      rw [toList_fileName_some, toList_fileName_some] at hlist
      have hplatform := List.append_cancel_right (List.append_cancel_left hlist)
      rw [String.toList_inj.1 hplatform]

/-- The file name of a module for a fit platform is one name. -/
theorem slash_notMem_fileName {m : PlatformModule} (h : m.platform.all Platform.isFit) :
    '/' ∉ m.fileName.toList := by
  obtain ⟨platform, content⟩ := m
  cases platform with
  | none =>
    rw [toList_fileName_none]
    decide
  | some platform =>
    have hplatform : '/' ∉ platform.toList := by
      intro hslash
      simp only [Option.all_some, Platform.isFit, Bool.and_eq_true, Bool.not_eq_true'] at h
      have hc := List.any_eq_false.1 h.2 '/' hslash
      simp at hc
    rw [toList_fileName_some]
    simp only [List.mem_append, hplatform, false_or, not_or]
    exact ⟨by decide, by decide⟩

/-- A file name is longer than those that stand for directories. -/
theorem length_fileName_le (m : PlatformModule) : 9 ≤ m.fileName.toList.length := by
  obtain ⟨platform, content⟩ := m
  cases platform with
  | none =>
    rw [toList_fileName_none]
    decide
  | some platform =>
    rw [toList_fileName_some]
    simp

end PlatformModule

end StyleModule
