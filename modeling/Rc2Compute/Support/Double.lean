import Mathlib.Data.Int.Log
import Mathlib.Data.NNRat.Floor
import Mathlib.Tactic.FieldSimp
import Mathlib.Tactic.Positivity
import Mathlib.Tactic.Linarith

/-!
# Doubles as rationals

The values of the 64-bit binary format, and rounding to them to the nearest,
with ties to even.  A value of the format is its own rounding, and every
natural number up to 2⁵³ is one.
-/

namespace Rc2Compute

/-- A double.  Zero has a sign. -/
inductive Double where
  | finite (negative : Bool) (magnitude : ℚ≥0)
  | infinite (negative : Bool)
  | nan
deriving DecidableEq

/-- The natural number nearest to a rational, and the even one of two. -/
def roundEven (q : ℚ≥0) : ℕ :=
  if 2 * q < 2 * ⌊q⌋₊ + 1 then ⌊q⌋₊
  else if 2 * ⌊q⌋₊ + 1 < 2 * q then ⌊q⌋₊ + 1
  else ⌊q⌋₊ + ⌊q⌋₊ % 2

@[simp] theorem roundEven_natCast (n : ℕ) : roundEven n = n := by
  rw [roundEven, Nat.floor_natCast, if_pos]
  exact lt_add_one _

theorem roundEven_le {q : ℚ≥0} {n : ℕ} (h : q ≤ n) : roundEven q ≤ n := by
  have hfloor : ⌊q⌋₊ ≤ n := Nat.floor_le_of_le h
  have hle : (⌊q⌋₊ : ℚ≥0) ≤ q := Nat.floor_le zero_le
  rcases hfloor.eq_or_lt with heq | hlt
  · rw [heq] at hle
    rw [le_antisymm h hle, roundEven_natCast]
  · rw [roundEven]
    split
    · exact hfloor
    · split
      · exact hlt
      · omega

namespace Double

/-- The exponent of the last place of a value. -/
def lastPlace (q : ℚ≥0) : ℤ :=
  max (Int.log 2 q - 52) (-1074)

/-- The double nearest to a value. -/
def round (negative : Bool) (q : ℚ≥0) : Double :=
  let magnitude : ℚ≥0 := roundEven (q / 2 ^ lastPlace q) * 2 ^ lastPlace q
  if magnitude < 2 ^ 1024 then .finite negative magnitude
  else .infinite negative

/-- The magnitudes of finite doubles. -/
def Representable (q : ℚ≥0) : Prop :=
  q < 2 ^ 1024 ∧ ∃ (m : ℕ) (e : ℤ), m < 2 ^ 53 ∧ -1074 ≤ e ∧ q = m * 2 ^ e

theorem two_zpow_pos (e : ℤ) : (0 : ℚ≥0) < 2 ^ e :=
  zpow_pos two_pos e

theorem lastPlace_le {m : ℕ} {e : ℤ} (hm : m < 2 ^ 53) (hpos : m ≠ 0)
    (he : -1074 ≤ e) : lastPlace (m * 2 ^ e) ≤ e := by
  have hq : (0 : ℚ≥0) < m * 2 ^ e :=
    mul_pos (by exact_mod_cast Nat.pos_of_ne_zero hpos) (two_zpow_pos e)
  have hlt : ((m : ℚ≥0) * 2 ^ e) < (2 : ℕ) ^ (e + 53) := by
    have hcast : (m : ℚ≥0) < 2 ^ (53 : ℤ) := by exact_mod_cast hm
    rw [zpow_add₀ (by norm_num), mul_comm]
    push_cast
    exact mul_lt_mul_of_pos_left hcast (two_zpow_pos e)
  have hlog := (Int.lt_zpow_iff_log_lt (by norm_num) hq).mp hlt
  rw [lastPlace]
  omega

/-- A value that is representable is its own rounding. -/
theorem round_of_representable {q : ℚ≥0} (h : Representable q)
    (negative : Bool) : round negative q = .finite negative q := by
  obtain ⟨hlt, m, e, hm, he, rfl⟩ := h
  by_cases hzero : m = 0
  · have hround : roundEven 0 = 0 := by
      simpa using roundEven_natCast 0
    simp [hzero, round, hround]
  have hplace := lastPlace_le hm hzero he
  generalize hk : lastPlace ((m : ℚ≥0) * 2 ^ e) = k at hplace
  obtain ⟨d, rfl⟩ := Int.le.dest hplace
  have hquot : (m : ℚ≥0) * 2 ^ (k + d) / 2 ^ k = ((m * 2 ^ d : ℕ) : ℚ≥0) := by
    rw [zpow_add₀ (by norm_num), zpow_natCast]
    push_cast
    field_simp
  have hback : ((m * 2 ^ d : ℕ) : ℚ≥0) * 2 ^ k = m * 2 ^ (k + d) := by
    rw [zpow_add₀ (by norm_num), zpow_natCast]
    push_cast
    ring
  rw [round, hk, hquot, roundEven_natCast, hback, if_pos hlt]

/-- The scaled value has at most 53 binary digits. -/
theorem scaled_lt (q : ℚ≥0) : q / 2 ^ lastPlace q < (2 ^ 53 : ℕ) := by
  have hlt := Int.lt_zpow_succ_log_self (R := ℚ≥0) (b := 2) (by norm_num) q
  have hle : Int.log 2 q + 1 ≤ lastPlace q + 53 := by
    rw [lastPlace]
    omega
  have hpow : ((2 : ℕ) : ℚ≥0) ^ (Int.log 2 q + 1) ≤ 2 ^ (lastPlace q + 53) := by
    push_cast
    gcongr
    norm_num
  rw [div_lt_iff₀ (two_zpow_pos _)]
  calc q < 2 ^ (lastPlace q + 53) := lt_of_lt_of_le hlt hpow
    _ = (2 ^ 53 : ℕ) * 2 ^ lastPlace q := by
      rw [zpow_add₀ (by norm_num), mul_comm]
      norm_num

/-- What rounding gives is representable. -/
theorem representable_of_round {negative negative' : Bool} {q r : ℚ≥0}
    (h : round negative q = .finite negative' r) : Representable r := by
  rw [round] at h
  split at h
  next hlt =>
    cases h
    refine ⟨hlt, ?_⟩
    have hplace : -1074 ≤ lastPlace q := le_max_right _ _
    rcases (roundEven_le (scaled_lt q).le).eq_or_lt with heq | hsmall
    · refine ⟨2 ^ 52, lastPlace q + 1, by norm_num, by omega, ?_⟩
      rw [heq, zpow_add₀ (by norm_num)]
      push_cast
      ring
    · exact ⟨_, lastPlace q, hsmall, hplace, rfl⟩
  next => cases h

/-- Rounding does not go beyond a power of two. -/
theorem round_le_two_pow {negative : Bool} {q : ℚ≥0} {k : ℕ} (h : q ≤ 2 ^ k)
    (hk : k < 1024) :
    ∃ r, round negative q = .finite negative r ∧ r ≤ 2 ^ k := by
  have hplace : lastPlace q ≤ k := by
    have hlog : Int.log 2 q ≤ k := by
      rcases (zero_le : 0 ≤ q).eq_or_lt with rfl | hpos
      · simp
      · have := Int.log_mono_right (b := 2) hpos h
        have hpow := Int.log_zpow (R := ℚ≥0) (b := 2) (by norm_num) (k : ℤ)
        rw [zpow_natCast] at hpow
        exact this.trans hpow.le
    rw [lastPlace]
    omega
  obtain ⟨d, hd⟩ := Int.le.dest hplace
  have hscaled : q / 2 ^ lastPlace q ≤ ((2 ^ d : ℕ) : ℚ≥0) := by
    rw [div_le_iff₀ (two_zpow_pos _)]
    calc q ≤ 2 ^ k := h
      _ = ((2 ^ d : ℕ) : ℚ≥0) * 2 ^ lastPlace q := by
        rw [← zpow_natCast (2 : ℚ≥0) k, ← hd, zpow_add₀ (by norm_num),
          zpow_natCast, mul_comm]
        push_cast
        rfl
  have hr : (roundEven (q / 2 ^ lastPlace q) : ℚ≥0) * 2 ^ lastPlace q ≤
      2 ^ k := by
    calc (roundEven (q / 2 ^ lastPlace q) : ℚ≥0) * 2 ^ lastPlace q
        ≤ ((2 ^ d : ℕ) : ℚ≥0) * 2 ^ lastPlace q := by
          gcongr
          exact roundEven_le hscaled
      _ = 2 ^ k := by
        rw [← zpow_natCast (2 : ℚ≥0) k, ← hd, zpow_add₀ (by norm_num),
          zpow_natCast, mul_comm]
        push_cast
        rfl
  refine ⟨_, ?_, hr⟩
  rw [round, if_pos]
  exact lt_of_le_of_lt hr (by gcongr; norm_num)

theorem representable_natCast {n : ℕ} (hn : n ≤ 2 ^ 53) :
    Representable n := by
  constructor
  · calc (n : ℚ≥0) ≤ 2 ^ 53 := by exact_mod_cast hn
      _ < 2 ^ 1024 := by gcongr <;> norm_num
  · rcases hn.eq_or_lt with rfl | hlt
    · exact ⟨2 ^ 52, 1, by norm_num, by norm_num, by norm_num⟩
    · exact ⟨n, 0, hlt, by norm_num, by simp⟩

end Double

end Rc2Compute
