import Mathlib.Data.Nat.Dist
import Mathlib.Data.Nat.Size
import Mathlib.Tactic.Linarith
import Mathlib.Tactic.Ring
import Mathlib.Tactic.SplitIfs

/-!
# Numbers of a script

A script has floating point numbers only. A number literal stands for the nearest one
(`Script.nearest`), so a whole number is kept just if it has at most 53 bits before its trailing
zeros (`Script.nearest_eq_self_iff`).
-/

namespace StyleModule.Script

/-- A whole number that is a finite floating point number of 64 bits. -/
def IsDouble (n : Nat) : Prop := ∃ m e, m < 2 ^ 53 ∧ n = m * 2 ^ e ∧ n.size ≤ 1024

/-- How far apart floating point numbers are around a number, if it is not a small one. -/
def spacing (n : Nat) : Nat := 2 ^ (n.size - 53)

/-- The whole number of spacings that is nearest to a number, the even one of two. -/
def nearestCount (n : Nat) : Nat :=
  let count := n / spacing n
  let rest := n % spacing n
  if 2 * rest < spacing n ∨ 2 * rest = spacing n ∧ count % 2 = 0 then count else count + 1

/-- The floating point number that is nearest to a whole number; none if it is not finite. -/
def nearest (n : Nat) : Option Nat :=
  let d := nearestCount n * spacing n
  if d.size ≤ 1024 then some d else none

theorem spacing_pos (n : Nat) : 0 < spacing n := Nat.two_pow_pos _

/-- A number has at most 53 bits before the last ones that are smaller than the spacing. -/
theorem count_lt (n : Nat) : n / spacing n < 2 ^ 53 := by
  rw [Nat.div_lt_iff_lt_mul (spacing_pos n), spacing, ← Nat.pow_add]
  exact (Nat.lt_size_self n).trans_le (Nat.pow_le_pow_right (by decide) (by omega))

/-- Doubles from half a spacing times `2 ^ 53` on are multiples of the spacing. -/
theorem spacing_dvd {n c : Nat} (hc : IsDouble c) (hn : 2 ^ 52 * spacing n ≤ c) :
    spacing n ∣ c := by
  obtain ⟨m, e, hm, rfl, -⟩ := hc
  have hlt : 2 ^ 52 * spacing n < 2 ^ 53 * 2 ^ e :=
    hn.trans_lt (Nat.mul_lt_mul_of_pos_right hm (Nat.two_pow_pos e))
  rw [spacing, ← Nat.pow_add, ← Nat.pow_add] at hlt
  have hexp := (Nat.pow_lt_pow_iff_right (by decide : 1 < 2)).1 hlt
  exact Dvd.dvd.mul_left (Nat.pow_dvd_pow 2 (by omega)) m

/-- A number that is large enough for a spacing above one has all its 53 bits before it. -/
theorem le_count {n : Nat} (h : spacing n ≠ 1) : 2 ^ 52 ≤ n / spacing n := by
  have hsize : 53 < n.size := by
    by_contra hsize
    exact h (by rw [spacing, Nat.sub_eq_zero_of_le (by omega), Nat.pow_zero])
  rw [Nat.le_div_iff_mul_le (spacing_pos n), spacing, ← Nat.pow_add]
  exact Nat.lt_size.1 (by omega)

/-- There is no double strictly between two multiples of the spacing around a number. -/
theorem le_or_le_of_isDouble {n c : Nat} (hc : IsDouble c) :
    c ≤ n / spacing n * spacing n ∨ (n / spacing n + 1) * spacing n ≤ c := by
  by_cases hone : spacing n = 1
  · rw [hone]
    omega
  · by_contra hbetween
    rw [not_or, Nat.not_le, Nat.not_le] at hbetween
    have hlarge : 2 ^ 52 * spacing n ≤ c :=
      (Nat.mul_le_mul_right _ (le_count hone)).trans hbetween.1.le
    obtain ⟨k, rfl⟩ := spacing_dvd hc hlarge
    rw [Nat.mul_comm (spacing n)] at hbetween
    have hlow := Nat.lt_of_mul_lt_mul_right hbetween.1
    have hhigh := Nat.lt_of_mul_lt_mul_right hbetween.2
    omega

/-- The nearest multiple of the spacing is the one below or the one above, at most half a spacing
away. -/
theorem nearestCount_cases (n : Nat) :
    nearestCount n = n / spacing n ∧ 2 * (n % spacing n) ≤ spacing n ∨
      nearestCount n = n / spacing n + 1 ∧ spacing n ≤ 2 * (n % spacing n) := by
  simp only [nearestCount]
  split_ifs with h
  · exact .inl ⟨rfl, by omega⟩
  · exact .inr ⟨rfl, by omega⟩

theorem nearestCount_le (n : Nat) : nearestCount n ≤ 2 ^ 53 := by
  have hcount := count_lt n
  rcases nearestCount_cases n with ⟨hn, -⟩ | ⟨hn, -⟩ <;> omega

theorem nearest_eq_some_iff {n d : Nat} :
    nearest n = some d ↔ nearestCount n * spacing n = d ∧ d.size ≤ 1024 := by
  simp only [nearest]
  split_ifs with h
  · simp only [Option.some.injEq]
    exact ⟨fun hd => ⟨hd, hd ▸ h⟩, And.left⟩
  · simp only [false_iff, not_and]
    rintro rfl
    exact h

theorem isDouble_nearest {n d : Nat} (h : nearest n = some d) : IsDouble d := by
  obtain ⟨rfl, hfinite⟩ := nearest_eq_some_iff.1 h
  rcases (nearestCount_le n).lt_or_eq with hlt | heq
  · exact ⟨_, _, hlt, rfl, hfinite⟩
  · -- The number was rounded up to the next power of two.
    refine ⟨2 ^ 52, n.size - 53 + 1, by decide, ?_, hfinite⟩
    rw [heq, spacing, ← Nat.pow_add, ← Nat.pow_add]
    congr 1
    omega

/-- **A literal stands for the nearest number.** No double is nearer to what is written. -/
theorem dist_nearest_le {n d c : Nat} (h : nearest n = some d) (hc : IsDouble c) :
    Nat.dist n d ≤ Nat.dist n c := by
  obtain ⟨rfl, -⟩ := nearest_eq_some_iff.1 h
  have hn : n / spacing n * spacing n + n % spacing n = n := Nat.div_add_mod' n (spacing n)
  have hside := le_or_le_of_isDouble (n := n) hc
  have hrest := Nat.mod_lt n (spacing_pos n)
  rw [Nat.add_mul, Nat.one_mul] at hside
  rcases nearestCount_cases n with ⟨hcount, hnear⟩ | ⟨hcount, hnear⟩
  · rw [hcount]
    simp only [Nat.dist]
    omega
  · rw [hcount, Nat.add_mul, Nat.one_mul]
    simp only [Nat.dist]
    omega

/-- A double is a multiple of the spacing around it. -/
theorem spacing_dvd_self {n : Nat} (h : IsDouble n) : spacing n ∣ n := by
  by_cases hone : spacing n = 1
  · rw [hone]
    exact Nat.one_dvd n
  · refine spacing_dvd h ?_
    exact (Nat.mul_le_mul_right _ (le_count hone)).trans (Nat.div_mul_le_self n _)

/-- **What survives.** A whole number is kept just if it is a double. -/
theorem nearest_eq_self_iff {n : Nat} : nearest n = some n ↔ IsDouble n := by
  refine ⟨isDouble_nearest, fun h => ?_⟩
  have hdvd := spacing_dvd_self h
  obtain ⟨-, -, -, -, hfinite⟩ := h
  have hcount : nearestCount n = n / spacing n := by
    have hrest := Nat.mod_eq_zero_of_dvd hdvd
    have hpos := spacing_pos n
    rcases nearestCount_cases n with ⟨hn, -⟩ | ⟨-, hn⟩
    · exact hn
    · omega
  rw [nearest_eq_some_iff, hcount]
  exact ⟨Nat.div_mul_cancel hdvd, hfinite⟩

-- The first whole number that is not kept.
example : nearest 9007199254740993 = some 9007199254740992 := by decide

/-- Whole numbers of up to 53 bits are kept. -/
theorem isDouble_of_lt {n : Nat} (h : n < 2 ^ 53) : IsDouble n := by
  refine ⟨n, 0, h, by simp, ?_⟩
  exact (Nat.size_le.2 h).trans (by decide)

end StyleModule.Script
