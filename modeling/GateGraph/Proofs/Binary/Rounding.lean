import Mathlib.Tactic.Linarith
import Mathlib.Tactic.Ring
import GateGraph.Binary.Exact

/-!
# `GateGraph.Proofs.Binary.Rounding` — rounding to the nearest magnitude

`Format.nearest` takes a quotient apart: it finds out how many bits there are too many, and rounds the
quotient to a whole number of the last bit that is left. This module says what that comes to. A pattern is
the result for every quotient between the midpoints to its neighbours, and for the midpoints themselves when
the pattern is even (`nearest_of_roundsTo`); and where no bits are missing at the lower end, the result is
off by at most half of a last bit (`nearest_error`).

## Contents
- `units_shifted`, `units_of_le`: the magnitudes of a binade, its upper end included; `units_inner` and
  `units_first`: a magnitude between its neighbours.
- `halfEven_eq`, when a whole number is the nearest one; `halfEven_mem`.
- `nearest_of_unit` and `exists_unit`: rounding to a unit that the quotient has enough of.
- `RoundsTo` and `nearest_of_roundsTo`; `nearest_error`.
- `units_le_two_pow_mul_step_up`, `units_le_two_pow_mul_step_down` and `units_steps`: how far apart
  neighbours are.
-/

namespace GateGraph

-- powers of whole numbers are the built-in ones, whatever is imported beside this module
attribute [local instance (2000)] instPowNat

/-- A whole number is the nearest one when the quotient is off by no more than a half, and by less if the
    number is odd. -/
theorem halfEven_eq {num den n : Nat} (hden : 0 < den) (hlo : 2 * (n * den) ≤ 2 * num + den)
    (hhi : 2 * num ≤ 2 * (n * den) + den)
    (hodd : n % 2 = 1 → 2 * (n * den) < 2 * num + den ∧ 2 * num < 2 * (n * den) + den) :
    halfEven num den = n := by
  have hsplit := Nat.div_add_mod num den
  have hmod := Nat.mod_lt num hden
  rw [Nat.mul_comm] at hsplit
  unfold halfEven
  generalize num / den = q at *
  generalize num % den = r at *
  -- the quotient lies between `n - 1` and `n + 1`
  have hle : q ≤ n := by
    by_contra hgt
    have hmul : (n + 1) * den ≤ q * den := Nat.mul_le_mul_right den (by omega)
    rw [Nat.succ_mul n den] at hmul
    omega
  have hge : n ≤ q + 1 := by
    by_contra hlt
    have hmul : (q + 2) * den ≤ n * den := Nat.mul_le_mul_right den (by omega)
    rw [Nat.add_mul] at hmul
    omega
  rcases Nat.lt_or_ge q n with hqn | hqn
  · obtain rfl : n = q + 1 := by omega
    rw [Nat.succ_mul q den] at hlo hhi hodd
    simp only
    split
    · omega
    · split
      · rfl
      · split
        · have := hodd (by omega)
          omega
        · rfl
  · obtain rfl : q = n := by omega
    simp only
    split
    · rfl
    · split
      · omega
      · split
        · rfl
        · have := hodd (by omega)
          omega

/-- The whole number that is nearest to a quotient between two whole numbers lies between them too. -/
theorem halfEven_mem {num unit lo hi : Nat} (hpos : 0 < unit) (hlo : lo * unit ≤ num) (hhi : num < hi * unit) :
    lo ≤ halfEven num unit ∧ halfEven num unit ≤ hi := by
  obtain ⟨hdown, hup⟩ := @halfEven_error num unit hpos
  constructor
  · by_contra hlt
    have hmul : (halfEven num unit + 1) * unit ≤ lo * unit := Nat.mul_le_mul_right unit (by omega)
    linarith
  · by_contra hgt
    have hmul : (hi + 1) * unit ≤ halfEven num unit * unit := Nat.mul_le_mul_right unit (by omega)
    linarith

namespace Format

variable {f : Format}

/-! ## Magnitudes of a binade -/

/-- A binade with its upper end: the magnitude there is the first one of the next binade. -/
theorem units_shifted {k q : Nat} (hlo : 2 ^ f.fractionBits ≤ q) (hhi : q ≤ 2 * 2 ^ f.fractionBits) :
    f.units (k * 2 ^ f.fractionBits + q) = q * 2 ^ k := by
  rcases Nat.lt_or_eq_of_le hhi with hlt | rfl
  · exact units_succ hlo hlt
  · have hpos := Nat.two_pow_pos f.fractionBits
    have hp : k * 2 ^ f.fractionBits + 2 * 2 ^ f.fractionBits =
        (k + 1) * 2 ^ f.fractionBits + 2 ^ f.fractionBits := by ring
    rw [hp, units_succ (Nat.le_refl _) (by omega), Nat.pow_succ]
    ring

/-- The smallest magnitudes count units themselves. -/
theorem units_of_le {p : Nat} (h : p ≤ 2 * 2 ^ f.fractionBits) : f.units p = p := by
  rcases Nat.lt_or_ge p (2 ^ f.fractionBits) with hlt | hge
  · exact units_of_lt hlt
  · simpa using units_shifted (k := 0) hge h

/-- A pattern above the smallest ones: its binade and its place in it. -/
theorem exists_binade {p : Nat} (h : 2 * 2 ^ f.fractionBits ≤ p) :
    ∃ k q, 2 ^ f.fractionBits ≤ q ∧ q < 2 * 2 ^ f.fractionBits ∧
      p = (k + 1) * 2 ^ f.fractionBits + q := by
  rcases pattern_cases f p with hlt | ⟨k, q, hlo, hhi, hp⟩
  · omega
  · obtain _ | k := k
    · omega
    · exact ⟨k, q, hlo, hhi, hp⟩

/-! ## The two ways in which rounding goes -/

/-- Rounding where as many bits are lost as the quotient has too many. -/
theorem nearest_of_excess {num den e : Nat} (hden : 0 < den)
    (hlo : e = 0 ∨ 2 ^ f.fractionBits * 2 ^ e * den ≤ num)
    (hhi : num < 2 * 2 ^ f.fractionBits * 2 ^ e * den) :
    f.nearest num den = min f.infinity (e * 2 ^ f.fractionBits + halfEven num (den * 2 ^ e)) := by
  have hexcess : (num / den).log2 - f.fractionBits = e := by
    have hlt : num / den < 2 ^ (f.fractionBits + e + 1) := by
      rw [Nat.div_lt_iff_lt_mul hden, Nat.pow_succ, Nat.pow_add, Nat.mul_comm _ 2, ← Nat.mul_assoc]
      exact hhi
    rcases hlo with rfl | hlo
    · rcases Nat.eq_zero_or_pos (num / den) with hzero | hpos
      · simp [hzero]
      · have hlog := (Nat.log2_lt (Nat.ne_of_gt hpos)).mpr hlt
        omega
    · have hge : 2 ^ (f.fractionBits + e) ≤ num / den := by
        rw [Nat.le_div_iff_mul_le hden, Nat.pow_add]
        exact hlo
      have hne : num / den ≠ 0 := Nat.ne_of_gt (Nat.lt_of_lt_of_le (Nat.two_pow_pos _) hge)
      have hlog : (num / den).log2 = f.fractionBits + e := (Nat.log2_eq_iff hne).mpr ⟨hge, hlt⟩
      omega
  simp only [nearest, hexcess]

/-- Rounding to a unit that the quotient has as many of as the format keeps. -/
theorem nearest_of_unit {num den unit e : Nat} (hden : 0 < den) (hunit : unit = den * 2 ^ e)
    (hlo : 2 ^ f.fractionBits * unit ≤ num) (hhi : num < 2 * 2 ^ f.fractionBits * unit) :
    f.nearest num den = min f.infinity (e * 2 ^ f.fractionBits + halfEven num unit) := by
  have hscale (a : Nat) : a * 2 ^ e * den = a * unit := by
    rw [hunit]
    ring
  rw [← hscale] at hlo hhi
  rw [nearest_of_excess hden (Or.inr hlo) hhi, hunit]

/-- A quotient that is not too small has a unit of which it has as many as the format keeps. -/
theorem exists_unit {num den : Nat} (hden : 0 < den) (hlo : 2 ^ f.fractionBits * den ≤ num) :
    ∃ e, 2 ^ f.fractionBits * (den * 2 ^ e) ≤ num ∧ num < 2 * 2 ^ f.fractionBits * (den * 2 ^ e) := by
  have hscale (a e : Nat) : a * (den * 2 ^ e) = a * 2 ^ e * den := by ring
  have hge : 2 ^ f.fractionBits ≤ num / den := (Nat.le_div_iff_mul_le hden).mpr hlo
  have hne : num / den ≠ 0 := Nat.ne_of_gt (Nat.lt_of_lt_of_le (Nat.two_pow_pos _) hge)
  obtain ⟨hmin, hmax⟩ := (Nat.log2_eq_iff hne).mp rfl
  obtain ⟨e, he⟩ := Nat.exists_eq_add_of_le ((Nat.le_log2 hne).mpr hge)
  rw [he, Nat.le_div_iff_mul_le hden, Nat.pow_add] at hmin
  rw [he, Nat.div_lt_iff_lt_mul hden, Nat.pow_succ, Nat.pow_add, Nat.mul_comm _ 2, ← Nat.mul_assoc 2] at hmax
  exact ⟨e, by rw [hscale]; exact hmin, by rw [hscale]; exact hmax⟩

/-! ## Between the midpoints -/

/-- The quotient lies between the midpoints from a pattern to its neighbours. An even pattern takes the
    midpoints too. -/
def RoundsTo (f : Format) (p num den : Nat) : Prop :=
  if p % 2 = 0 then
    (f.units (p - 1) + f.units p) * den ≤ 2 * num ∧ 2 * num ≤ (f.units p + f.units (p + 1)) * den
  else (f.units (p - 1) + f.units p) * den < 2 * num ∧ 2 * num < (f.units p + f.units (p + 1)) * den

theorem RoundsTo.le {p num den : Nat} (h : f.RoundsTo p num den) :
    (f.units (p - 1) + f.units p) * den ≤ 2 * num ∧ 2 * num ≤ (f.units p + f.units (p + 1)) * den := by
  unfold RoundsTo at h
  split at h
  · exact h
  · exact ⟨Nat.le_of_lt h.1, Nat.le_of_lt h.2⟩

theorem RoundsTo.lt_of_odd {p num den : Nat} (h : f.RoundsTo p num den) (hodd : p % 2 = 1) :
    (f.units (p - 1) + f.units p) * den < 2 * num ∧ 2 * num < (f.units p + f.units (p + 1)) * den := by
  unfold RoundsTo at h
  rw [if_neg (by omega)] at h
  exact h

/-- Among the smallest patterns. -/
theorem nearest_of_roundsTo_small {p num den : Nat} (hden : 0 < den) (hp : p < f.infinity)
    (hsmall : p < 2 * 2 ^ f.fractionBits) (h : f.RoundsTo p num den) : f.nearest num den = p := by
  have hpred : f.units (p - 1) = p - 1 := units_of_le (by omega)
  have hself : f.units p = p := units_of_le (by omega)
  have hsucc : f.units (p + 1) = p + 1 := units_of_le (by omega)
  obtain ⟨hlo, hhi⟩ := h.le
  rw [hself, hsucc] at hhi
  rw [hpred, hself] at hlo
  have hwhole : halfEven num (den * 2 ^ 0) = p := by
    rw [Nat.pow_zero, Nat.mul_one]
    refine halfEven_eq hden ?_ ?_ ?_
    · rcases Nat.eq_zero_or_pos p with rfl | hpos
      · omega
      · obtain ⟨m, rfl⟩ := Nat.exists_eq_add_of_lt hpos
        simp only [Nat.zero_add, Nat.add_sub_cancel] at hlo
        linarith
    · linarith
    · intro hodd
      obtain ⟨hlo', hhi'⟩ := h.lt_of_odd hodd
      rw [hself, hsucc] at hhi'
      rw [hpred, hself] at hlo'
      obtain ⟨m, rfl⟩ : ∃ m, p = m + 1 := ⟨p - 1, by omega⟩
      rw [Nat.add_sub_cancel] at hlo'
      constructor <;> linarith
  have hbound : num < 2 * 2 ^ f.fractionBits * 2 ^ 0 * den := by
    have hmul : (p + (p + 1)) * den ≤ (2 * (2 * 2 ^ f.fractionBits) - 1) * den :=
      Nat.mul_le_mul_right den (by omega)
    rw [Nat.sub_mul] at hmul
    have hone : 1 * den ≤ 2 * 2 ^ f.fractionBits * den :=
      Nat.mul_le_mul_right den (by omega)
    rw [Nat.pow_zero, Nat.mul_one]
    have hassoc : 2 * (2 * 2 ^ f.fractionBits) * den = 2 * (2 * 2 ^ f.fractionBits * den) := by ring
    omega
  rw [nearest_of_excess hden (Or.inl rfl) hbound, hwhole, Nat.zero_mul, Nat.zero_add,
    Nat.min_eq_right (Nat.le_of_lt hp)]

/-- A magnitude between its neighbours, all of the same binade. -/
theorem units_inner {k m : Nat} (hlo : 2 ^ f.fractionBits ≤ m) (hhi : m + 1 < 2 * 2 ^ f.fractionBits) :
    f.units (k * 2 ^ f.fractionBits + (m + 1) - 1) = m * 2 ^ k ∧
      f.units (k * 2 ^ f.fractionBits + (m + 1)) = (m + 1) * 2 ^ k ∧
      f.units (k * 2 ^ f.fractionBits + (m + 1) + 1) = (m + 2) * 2 ^ k :=
  ⟨units_shifted (by omega) (by omega), units_shifted (by omega) (by omega),
    units_shifted (q := m + 2) (by omega) (by omega)⟩

/-- The first magnitude of a binade between its neighbours, in units of the binade below: the last magnitude
    there is one less, and the next magnitude is two more. -/
theorem units_first (f : Format) (k : Nat) : ∃ top, 2 * 2 ^ f.fractionBits = top + 1 ∧
    f.units ((k + 1) * 2 ^ f.fractionBits + 2 ^ f.fractionBits - 1) = top * 2 ^ k ∧
    f.units ((k + 1) * 2 ^ f.fractionBits + 2 ^ f.fractionBits) = (top + 1) * 2 ^ k ∧
    f.units ((k + 1) * 2 ^ f.fractionBits + 2 ^ f.fractionBits + 1) = (top + 3) * 2 ^ k := by
  have hpos := Nat.two_pow_pos f.fractionBits
  obtain ⟨top, htop⟩ : ∃ top, 2 * 2 ^ f.fractionBits = top + 1 := ⟨2 * 2 ^ f.fractionBits - 1, by omega⟩
  have hpred : (k + 1) * 2 ^ f.fractionBits + 2 ^ f.fractionBits - 1 = k * 2 ^ f.fractionBits + top := by
    rw [Nat.succ_mul]
    omega
  have hself : 2 ^ f.fractionBits * 2 ^ (k + 1) = (top + 1) * 2 ^ k := by
    rw [← htop, Nat.pow_succ]
    ring
  have hsucc : (2 ^ f.fractionBits + 1) * 2 ^ (k + 1) = (top + 3) * 2 ^ k := by
    rw [Nat.succ_mul, hself, Nat.pow_succ]
    ring
  refine ⟨top, htop, ?_, ?_, ?_⟩
  · rw [hpred, units_shifted (by omega) (by omega)]
  · rw [units_shifted (Nat.le_refl _) (by omega), hself]
  · rw [Nat.add_assoc, units_shifted (by omega) (by omega), hsucc]

/-- A pattern is odd when its place in the binade is. -/
theorem pattern_mod_two (hfb : 0 < f.fractionBits) (k q : Nat) :
    (k * 2 ^ f.fractionBits + q) % 2 = q % 2 := by
  obtain ⟨b, hb⟩ := Nat.exists_eq_add_of_lt hfb
  rw [hb, Nat.pow_succ, ← Nat.mul_assoc]
  omega

/-- Above the first magnitude of a binade. -/
theorem nearest_of_roundsTo_inner {k q num den : Nat} (hfb : 0 < f.fractionBits) (hden : 0 < den)
    (hlo : 2 ^ f.fractionBits < q) (hhi : q < 2 * 2 ^ f.fractionBits)
    (hp : k * 2 ^ f.fractionBits + q < f.infinity)
    (h : f.RoundsTo (k * 2 ^ f.fractionBits + q) num den) :
    f.nearest num den = k * 2 ^ f.fractionBits + q := by
  obtain ⟨r, rfl⟩ : ∃ r, q = r + 1 := ⟨q - 1, by omega⟩
  obtain ⟨hpred, hself, hsucc⟩ := units_inner (f := f) (k := k) (by omega) hhi
  -- everything is counted in units of the binade
  obtain ⟨unit, hunit⟩ : ∃ unit, unit = den * 2 ^ k := ⟨_, rfl⟩
  have hpos : 0 < unit := hunit ▸ Nat.mul_pos hden (Nat.two_pow_pos k)
  have hbelow : (f.units (k * 2 ^ f.fractionBits + (r + 1) - 1) +
      f.units (k * 2 ^ f.fractionBits + (r + 1))) * den = (2 * r + 1) * unit := by
    rw [hpred, hself, hunit]
    ring
  have habove : (f.units (k * 2 ^ f.fractionBits + (r + 1)) +
      f.units (k * 2 ^ f.fractionBits + (r + 1) + 1)) * den = (2 * r + 3) * unit := by
    rw [hself, hsucc, hunit]
    ring
  obtain ⟨hle, hge⟩ := h.le
  have hlt := h.lt_of_odd
  rw [pattern_mod_two hfb] at hlt
  rw [hbelow] at hle hlt
  rw [habove] at hge hlt
  have hwhole : halfEven num unit = r + 1 := by
    refine halfEven_eq hpos (by linarith) (by linarith) fun hodd => ?_
    obtain ⟨hlo', hhi'⟩ := hlt hodd
    constructor <;> linarith
  have hmin : 2 ^ f.fractionBits * unit ≤ num := by
    have hmul : (2 * 2 ^ f.fractionBits) * unit ≤ (2 * r + 1) * unit := Nat.mul_le_mul_right unit (by omega)
    linarith
  have hmax : num < 2 * 2 ^ f.fractionBits * unit := by
    have hmul : (2 * r + 4) * unit ≤ (4 * 2 ^ f.fractionBits) * unit :=
      Nat.mul_le_mul_right unit (by omega)
    linarith
  rw [nearest_of_unit hden hunit hmin hmax, hwhole, Nat.min_eq_right (Nat.le_of_lt hp)]

/-- At the first magnitude of a binade. The neighbour below is only half as far away as the one above, and
    what lies in between has a bit more than what lies above. -/
theorem nearest_of_roundsTo_first {k num den : Nat} (hfb : 0 < f.fractionBits) (hden : 0 < den)
    (hp : (k + 1) * 2 ^ f.fractionBits + 2 ^ f.fractionBits < f.infinity)
    (h : f.RoundsTo ((k + 1) * 2 ^ f.fractionBits + 2 ^ f.fractionBits) num den) :
    f.nearest num den = (k + 1) * 2 ^ f.fractionBits + 2 ^ f.fractionBits := by
  have hpos := Nat.two_pow_pos f.fractionBits
  obtain ⟨top, htop, hpred, hself, hsucc⟩ := units_first f k
  -- everything is counted in units of the binade below
  obtain ⟨unit, hunit⟩ : ∃ unit, unit = den * 2 ^ k := ⟨_, rfl⟩
  have hpos : 0 < unit := hunit ▸ Nat.mul_pos hden (Nat.two_pow_pos k)
  have hbelow : (f.units ((k + 1) * 2 ^ f.fractionBits + 2 ^ f.fractionBits - 1) +
      f.units ((k + 1) * 2 ^ f.fractionBits + 2 ^ f.fractionBits)) * den = (2 * top + 1) * unit := by
    rw [hpred, hself, hunit]
    ring
  have habove : (f.units ((k + 1) * 2 ^ f.fractionBits + 2 ^ f.fractionBits) +
      f.units ((k + 1) * 2 ^ f.fractionBits + 2 ^ f.fractionBits + 1)) * den = (2 * top + 4) * unit := by
    rw [hself, hsucc, hunit]
    ring
  obtain ⟨hle, hge⟩ := h.le
  rw [hbelow] at hle
  rw [habove] at hge
  have htopunit : unit ≤ top * unit := Nat.le_mul_of_pos_left unit (by omega)
  have hhalf : 2 ^ f.fractionBits * (2 * unit) = (top + 1) * unit := by
    rw [← htop]
    ring
  rcases Nat.lt_or_ge num ((top + 1) * unit) with hlt | hge'
  -- below the magnitude the quotient is rounded up to it, with a carry into the exponent
  · have hwhole : halfEven num unit = top + 1 := by
      refine halfEven_eq hpos (by linarith) (by linarith) fun hodd => ?_
      omega
    have hmin : 2 ^ f.fractionBits * unit ≤ num := by linarith
    have hmax : num < 2 * 2 ^ f.fractionBits * unit := by
      rw [htop]
      exact hlt
    have hsum : k * 2 ^ f.fractionBits + 2 * 2 ^ f.fractionBits =
        (k + 1) * 2 ^ f.fractionBits + 2 ^ f.fractionBits := by ring
    rw [nearest_of_unit hden hunit hmin hmax, hwhole, ← htop, hsum, Nat.min_eq_right (Nat.le_of_lt hp)]
  -- above it a unit is twice as large
  · have hunit' : 2 * unit = den * 2 ^ (k + 1) := by
      rw [hunit, Nat.pow_succ]
      ring
    have hwhole : halfEven num (2 * unit) = 2 ^ f.fractionBits := by
      refine halfEven_eq (by omega) (by linarith) (by linarith) fun hodd => ?_
      -- the first place of a binade is even
      have heven := pattern_mod_two (f := f) hfb 1 0
      rw [Nat.one_mul, Nat.add_zero] at heven
      omega
    have hmin : 2 ^ f.fractionBits * (2 * unit) ≤ num := by
      rw [hhalf]
      exact hge'
    have hmax : num < 2 * 2 ^ f.fractionBits * (2 * unit) := by linarith
    rw [nearest_of_unit hden hunit' hmin hmax, hwhole, Nat.min_eq_right (Nat.le_of_lt hp)]

/-- **Rounding finds the pattern between whose midpoints a quotient lies.** -/
theorem nearest_of_roundsTo {p num den : Nat} (hfb : 0 < f.fractionBits) (hden : 0 < den)
    (hp : p < f.infinity) (h : f.RoundsTo p num den) : f.nearest num den = p := by
  rcases Nat.lt_or_ge p (2 * 2 ^ f.fractionBits) with hsmall | hlarge
  · exact nearest_of_roundsTo_small hden hp hsmall h
  · obtain ⟨k, q, hlo, hhi, rfl⟩ := exists_binade hlarge
    rcases Nat.lt_or_eq_of_le hlo with hlt | rfl
    · exact nearest_of_roundsTo_inner hfb hden hlt hhi hp h
    · exact nearest_of_roundsTo_first hfb hden hp h

/-! ## The error of rounding -/

/-- **The error of rounding** is at most half of a last bit, where the quotient has as many bits as the
    format keeps. -/
theorem nearest_error {num den bound : Nat} (hden : 0 < den) (hlo : 2 ^ f.fractionBits * den ≤ num)
    (hhi : num < 2 ^ (f.fractionBits + bound) * den) (hbound : bound + 3 ≤ 2 ^ f.exponentBits) :
    f.nearest num den < f.infinity ∧
      2 * 2 ^ f.fractionBits * (f.units (f.nearest num den) * den) ≤
        (2 * 2 ^ f.fractionBits + 1) * num ∧
      2 * 2 ^ f.fractionBits * num ≤
        2 * 2 ^ f.fractionBits * (f.units (f.nearest num den) * den) + num := by
  obtain ⟨e, hmin, hmax⟩ := exists_unit hden hlo
  obtain ⟨unit, hunit⟩ : ∃ unit, unit = den * 2 ^ e := ⟨_, rfl⟩
  have hpos : 0 < unit := hunit ▸ Nat.mul_pos hden (Nat.two_pow_pos e)
  have hfew : e < bound := by
    have hlt : 2 ^ (f.fractionBits + e) * den < 2 ^ (f.fractionBits + bound) * den := by
      rw [Nat.pow_add, Nat.mul_assoc, Nat.mul_comm (2 ^ e)]
      exact Nat.lt_of_le_of_lt hmin hhi
    have hpow := (Nat.pow_lt_pow_iff_right (by decide)).mp (Nat.lt_of_mul_lt_mul_right hlt)
    omega
  rw [← hunit] at hmin hmax
  -- the rounded number of units keeps to the binade, its upper end included
  obtain ⟨hge, hle⟩ := halfEven_mem hpos hmin hmax
  have hfin : e * 2 ^ f.fractionBits + halfEven num unit < f.infinity := by
    have hsteps : (e + 3) * 2 ^ f.fractionBits ≤ f.infinity := Nat.mul_le_mul_right _ (by omega)
    have hone := Nat.two_pow_pos f.fractionBits
    linarith
  rw [nearest_of_unit hden hunit hmin hmax, Nat.min_eq_right (Nat.le_of_lt hfin), units_shifted hge hle]
  have hsame : halfEven num unit * 2 ^ e * den = halfEven num unit * unit := by
    rw [hunit]
    ring
  obtain ⟨hdown, hup⟩ := @halfEven_error num unit hpos
  have hdown' : 2 ^ f.fractionBits * (2 * (halfEven num unit * unit)) ≤
      2 ^ f.fractionBits * (2 * num + unit) := Nat.mul_le_mul_left _ hdown
  have hup' : 2 ^ f.fractionBits * (2 * num) ≤
      2 ^ f.fractionBits * (2 * (halfEven num unit * unit) + unit) := Nat.mul_le_mul_left _ hup
  rw [hsame]
  refine ⟨hfin, by linarith, by linarith⟩

/-! ## Neighbours -/

/-- The step to the next magnitude is not small: there are no more than `2 ^ precision` of its size below. -/
theorem units_le_two_pow_mul_step_up (p : Nat) :
    f.units p + 2 * 2 ^ f.fractionBits * f.units p ≤ 2 * 2 ^ f.fractionBits * f.units (p + 1) := by
  have hpos := Nat.two_pow_pos f.fractionBits
  rcases pattern_cases f p with hlt | ⟨k, q, hlo, hhi, rfl⟩
  · rw [units_of_lt hlt, units_of_le (by omega)]
    linarith
  · rw [units_shifted hlo (by omega), Nat.add_assoc, units_shifted (q := q + 1) (by omega) (by omega)]
    have hmul : q * 2 ^ k ≤ 2 * 2 ^ f.fractionBits * 2 ^ k := Nat.mul_le_mul_right _ (by omega)
    linarith

/-- So is the step from the magnitude before. -/
theorem units_le_two_pow_mul_step_down {p : Nat} (hp : 0 < p) :
    f.units p + 2 * 2 ^ f.fractionBits * f.units (p - 1) ≤ 2 * 2 ^ f.fractionBits * f.units p := by
  have hpos := Nat.two_pow_pos f.fractionBits
  rcases Nat.lt_or_ge p (2 * 2 ^ f.fractionBits) with hsmall | hlarge
  · obtain ⟨m, rfl⟩ : ∃ m, p = m + 1 := ⟨p - 1, by omega⟩
    rw [Nat.add_sub_cancel, units_of_le (by omega), units_of_le (by omega)]
    linarith
  · obtain ⟨k, q, hlo, hhi, rfl⟩ := exists_binade hlarge
    rcases Nat.lt_or_eq_of_le hlo with hlt | rfl
    · obtain ⟨m, rfl⟩ : ∃ m, q = m + 1 := ⟨q - 1, by omega⟩
      obtain ⟨hpred, hself, -⟩ := units_inner (f := f) (k := k + 1) (by omega) hhi
      rw [hpred, hself]
      have hmul : (m + 1) * 2 ^ (k + 1) ≤ 2 * 2 ^ f.fractionBits * 2 ^ (k + 1) :=
        Nat.mul_le_mul_right _ (by omega)
      linarith
    -- at the first magnitude of a binade the step down is half the step up
    · obtain ⟨top, htop, hpred, hself, -⟩ := units_first f k
      rw [hpred, hself, htop]
      linarith

/-- The steps between magnitudes get no smaller on the way up, and never more than twice as large. -/
theorem units_steps {p : Nat} (hp : 0 < p) :
    2 * f.units p ≤ f.units (p - 1) + f.units (p + 1) ∧
      f.units (p + 1) + 2 * f.units (p - 1) ≤ 3 * f.units p := by
  have hpos := Nat.two_pow_pos f.fractionBits
  rcases Nat.lt_or_ge p (2 * 2 ^ f.fractionBits) with hsmall | hlarge
  · rw [units_of_le (by omega : p - 1 ≤ _), units_of_le (by omega : p ≤ _), units_of_le (by omega)]
    omega
  · obtain ⟨k, q, hlo, hhi, rfl⟩ := exists_binade hlarge
    rcases Nat.lt_or_eq_of_le hlo with hlt | rfl
    · obtain ⟨m, rfl⟩ : ∃ m, q = m + 1 := ⟨q - 1, by omega⟩
      obtain ⟨hpred, hself, hsucc⟩ := units_inner (f := f) (k := k + 1) (by omega) hhi
      rw [hpred, hself, hsucc]
      have hone := Nat.two_pow_pos (k + 1)
      constructor <;> linarith
    · obtain ⟨top, -, hpred, hself, hsucc⟩ := units_first f k
      rw [hpred, hself, hsucc]
      have hone := Nat.two_pow_pos k
      constructor <;> linarith

end Format

end GateGraph
