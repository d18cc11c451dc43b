import Mathlib.Data.Nat.GCD.Basic
import GateGraph.Proofs.Binary.Magnitude

/-!
# `GateGraph.Proofs.Binary.Midpoints` — how near a short decimal comes to a midpoint

A number halfway between two neighbouring 32-bit numbers has 25 bits. This module shows that a decimal
`c * 10 ^ q` with `c < 2 ^ 25` either is such a midpoint, or keeps away from all midpoints by more than
`2 ^ -51` of itself, with eight exceptions. So an error of that size does not carry it past a midpoint.

The decimal is near the midpoint `m * 2 ^ k / 2 ^ 150` when `m / c` is near a ratio that depends on `q` and
`k` only. Two neighbouring fractions around that ratio are computed, so narrow that no fraction with a
denominator below `2 ^ 25` lies between them. If `m / c` is none of the two, it differs from them by more than
the error; and how far the two are from the ratio is a matter of computing.

## Contents
- `Enclosure`, two fractions around a ratio, and `Enclosure.around`, which narrows them.
- `Enclosure.Tight`: nothing with a small denominator lies between (`Tight.le_or_ge`), and a fraction that is
  near the ratio is one of the two (`Tight.lower_end`, `Tight.upper_end`).
- `Binary.checked`, the computation for all ratios, with the list `Binary.exceptions`.
- `Binary.near_above`: the statement on decimals and midpoints.
-/

namespace GateGraph

-- powers of whole numbers are the built-in ones, whatever is imported beside this module
attribute [local instance (2000)] instPowNat

/-! ## Fractions around a ratio -/

/-- Two fractions, one on each side of a ratio. -/
structure Enclosure where
  lowerNum : Nat
  lowerDen : Nat
  upperNum : Nat
  upperDen : Nat

namespace Enclosure

/-- Denominators stay below this bound. -/
def limit : Nat := 2 ^ 25

/-- How far the lower fraction is below the ratio, times both denominators. -/
def lowerGap (s : Enclosure) (num den : Nat) : Nat := num * s.lowerDen - s.lowerNum * den

/-- How far the upper fraction is above the ratio, times both denominators. -/
def upperGap (s : Enclosure) (num den : Nat) : Nat := s.upperNum * den - num * s.upperDen

/-- How often a fraction can be added to another one without going past the ratio or the limit. -/
def steps (gap towards den by' : Nat) : Nat :=
  let room := (limit - 1 - den) / by'
  if towards = 0 then room else min room (gap / towards)

/-- Moves the lower fraction towards the upper one. -/
def raise (num den : Nat) (s : Enclosure) : Enclosure :=
  let n := steps (s.lowerGap num den) (s.upperGap num den) s.lowerDen s.upperDen
  { s with lowerNum := s.lowerNum + n * s.upperNum, lowerDen := s.lowerDen + n * s.upperDen }

/-- Moves the upper fraction towards the lower one. -/
def drop (num den : Nat) (s : Enclosure) : Enclosure :=
  let n := steps (s.upperGap num den) (s.lowerGap num den) s.upperDen s.lowerDen
  { s with upperNum := s.upperNum + n * s.lowerNum, upperDen := s.upperDen + n * s.lowerDen }

/-- Starts with the whole numbers around the ratio and moves both ends in turn. -/
def around (num den : Nat) : Nat → Enclosure
  | 0 => ⟨num / den, 1, num / den + 1, 1⟩
  | n + 1 => ((around num den n).raise num den).drop num den

/-- The fractions are neighbours around the ratio, and no other denominator below the limit fits between
    them. -/
structure Tight (s : Enclosure) (num den : Nat) : Prop where
  neighbours : s.upperNum * s.lowerDen = s.lowerNum * s.upperDen + 1
  lower_le : s.lowerNum * den ≤ num * s.lowerDen
  le_upper : num * s.upperDen ≤ s.upperNum * den
  lower_lt : s.lowerDen < limit
  upper_lt : s.upperDen < limit
  limit_le : limit ≤ s.lowerDen + s.upperDen

instance (s : Enclosure) (num den : Nat) : Decidable (s.Tight num den) :=
  decidable_of_iff (s.upperNum * s.lowerDen = s.lowerNum * s.upperDen + 1 ∧
      s.lowerNum * den ≤ num * s.lowerDen ∧ num * s.upperDen ≤ s.upperNum * den ∧
      s.lowerDen < limit ∧ s.upperDen < limit ∧ limit ≤ s.lowerDen + s.upperDen)
    ⟨fun ⟨h1, h2, h3, h4, h5, h6⟩ => ⟨h1, h2, h3, h4, h5, h6⟩,
      fun ⟨h1, h2, h3, h4, h5, h6⟩ => ⟨h1, h2, h3, h4, h5, h6⟩⟩

variable {s : Enclosure} {num den m c : Nat}

/-- **Nothing lies between two neighbouring fractions** but fractions with large denominators. -/
theorem Tight.le_or_ge (h : s.Tight num den) (hc : c < limit) :
    m * s.lowerDen ≤ s.lowerNum * c ∨ s.upperNum * c ≤ m * s.upperDen := by
  by_contra hbetween
  push Not at hbetween
  obtain ⟨hlower, hupper⟩ := hbetween
  have hl : s.upperDen * (s.lowerNum * c + 1) ≤ s.upperDen * (m * s.lowerDen) :=
    Nat.mul_le_mul_left _ hlower
  have hu : s.lowerDen * (m * s.upperDen + 1) ≤ s.lowerDen * (s.upperNum * c) :=
    Nat.mul_le_mul_left _ hupper
  have hdet : s.upperNum * s.lowerDen * c = (s.lowerNum * s.upperDen + 1) * c := by rw [h.neighbours]
  have hlimit := h.limit_le
  linarith

/-- Neighbouring fractions are in lowest terms. -/
theorem coprime_of_neighbours {a b a' b' : Nat} (h : a' * b = a * b' + 1) :
    Nat.Coprime b a ∧ Nat.Coprime b' a' := by
  have hone : a' * b - a * b' = 1 := by
    rw [h]
    omega
  constructor <;> refine Nat.dvd_one.mp (hone ▸ Nat.dvd_sub ?_ ?_)
  · exact (Nat.gcd_dvd_left b a).mul_left a'
  · exact (Nat.gcd_dvd_right b a).mul_right b'
  · exact (Nat.gcd_dvd_right b' a').mul_right b
  · exact (Nat.gcd_dvd_left b' a').mul_left a

/-- A fraction with the value of one in lowest terms is a multiple of it. -/
theorem exists_multiple {a b : Nat} (hcoprime : Nat.Coprime b a) (hb : 0 < b) (h : m * b = a * c) :
    ∃ t, m = t * a ∧ c = t * b := by
  obtain ⟨t, rfl⟩ : b ∣ c := hcoprime.dvd_of_dvd_mul_left (Dvd.intro_left m h)
  refine ⟨t, ?_, Nat.mul_comm b t⟩
  refine Nat.eq_of_mul_eq_mul_right hb ?_
  rw [h]
  ring

theorem Tight.lowerDen_pos (h : s.Tight num den) : 0 < s.lowerDen := by
  refine Nat.pos_of_ne_zero fun hzero => ?_
  have := h.neighbours
  rw [hzero] at this
  omega

theorem Tight.upperDen_pos (h : s.Tight num den) : 0 < s.upperDen := by
  have := h.limit_le
  have := h.lower_lt
  omega

/-- A fraction that is near the ratio and not above the lower end is the lower end: any other one differs from
    it by at least one part of the product of the denominators. -/
theorem Tight.lower_end (h : s.Tight num den) (hden : 0 < den) (hm : m < limit)
    (hside : m * s.lowerDen ≤ s.lowerNum * c) (hnear : c * num * 2 ^ 51 ≤ m * den * 2 ^ 51 + c * num) :
    m * s.lowerDen = s.lowerNum * c := by
  by_contra hne
  have hgap : (m * s.lowerDen + 1) * den ≤ s.lowerNum * c * den := Nat.mul_le_mul_right den (by omega)
  have hratio : s.lowerNum * den * c ≤ num * s.lowerDen * c := Nat.mul_le_mul_right c h.lower_le
  have hscaled : s.lowerDen * (c * num * 2 ^ 51) ≤ s.lowerDen * (m * den * 2 ^ 51 + c * num) :=
    Nat.mul_le_mul_left _ hnear
  have hsmall : s.lowerDen * m ≤ 2 ^ 25 * 2 ^ 25 := Nat.mul_le_mul h.lower_lt.le hm.le
  have hproduct : s.lowerDen * m * den ≤ 2 ^ 25 * 2 ^ 25 * den := Nat.mul_le_mul_right den hsmall
  linarith

/-- A fraction that is near the ratio and not below the upper end is the upper end. -/
theorem Tight.upper_end (h : s.Tight num den) (hden : 0 < den) (hm : m < limit)
    (hside : s.upperNum * c ≤ m * s.upperDen) (hnear : m * den * 2 ^ 51 ≤ c * num * 2 ^ 51 + c * num) :
    m * s.upperDen = s.upperNum * c := by
  by_contra hne
  have hgap : (s.upperNum * c + 1) * den ≤ m * s.upperDen * den := Nat.mul_le_mul_right den (by omega)
  have hratio : num * s.upperDen * c ≤ s.upperNum * den * c := Nat.mul_le_mul_right c h.le_upper
  have hscaled : s.upperDen * (m * den * 2 ^ 51) ≤ s.upperDen * (c * num * 2 ^ 51 + c * num) :=
    Nat.mul_le_mul_left _ hnear
  have hsmall : s.upperDen * m ≤ 2 ^ 25 * 2 ^ 25 := Nat.mul_le_mul h.upper_lt.le hm.le
  have hproduct : s.upperDen * m * den ≤ 2 ^ 25 * 2 ^ 25 * den := Nat.mul_le_mul_right den hsmall
  linarith

/-- If a multiple of the lower end is near the ratio, the gap is small. -/
theorem Tight.lowerGap_le (h : s.Tight num den) {t : Nat} (ht : 0 < t)
    (hnear : t * s.lowerDen * num * 2 ^ 51 ≤ t * s.lowerNum * den * 2 ^ 51 + t * s.lowerDen * num) :
    s.lowerGap num den * 2 ^ 51 ≤ s.lowerDen * num := by
  obtain ⟨gap, hgap⟩ := Nat.exists_eq_add_of_le h.lower_le
  have heq : s.lowerGap num den = gap := by
    unfold lowerGap
    omega
  rw [heq]
  refine Nat.le_of_mul_le_mul_left ?_ ht
  have hprod : t * (num * s.lowerDen) = t * (s.lowerNum * den + gap) := by rw [hgap]
  linarith

/-- If a multiple of the upper end is near the ratio, the gap is small. -/
theorem Tight.upperGap_le (h : s.Tight num den) {t : Nat} (ht : 0 < t)
    (hnear : t * s.upperNum * den * 2 ^ 51 ≤ t * s.upperDen * num * 2 ^ 51 + t * s.upperDen * num) :
    s.upperGap num den * 2 ^ 51 ≤ s.upperDen * num := by
  obtain ⟨gap, hgap⟩ := Nat.exists_eq_add_of_le h.le_upper
  have heq : s.upperGap num den = gap := by
    unfold upperGap
    omega
  rw [heq]
  refine Nat.le_of_mul_le_mul_left ?_ ht
  have hprod : t * (s.upperNum * den) = t * (num * s.upperDen + gap) := by rw [hgap]
  linarith

end Enclosure

/-! ## All ratios -/

namespace Binary

open Enclosure (limit)

/-- The midpoints `m * 2 ^ k / 2 ^ 150`, as pairs `(k, m)`, that have a short decimal nearby that is not the
    midpoint itself. -/
def exceptions : List (Nat × Nat) :=
  [(27, 25511589), (42, 22841339), (43, 22841339), (44, 22841339), (94, 17448701), (100, 28874659),
    (200, 25645849), (206, 24214937)]

/-- A fraction whose numerator, when it is odd and of 25 bits, is a midpoint known as an exception; or that is
    not near the ratio, or is the ratio. -/
def settled (num k gap a b : Nat) : Bool :=
  gap == 0 || b * num < gap * 2 ^ 51 || a % 2 == 0 ||
    (limit ≤ 3 * a || limit ≤ 3 * b) &&
      (limit ≤ a || 0 < k && a < 2 ^ 24 || exceptions.contains (k, a))

/-- The ratio of a power of ten to a power of two; the exponents are shifted so that they are not negative. -/
def ratioNum (i : Nat) : Nat := 10 ^ i * 2 ^ 150

def ratioDen (k : Nat) : Nat := 10 ^ 60 * 2 ^ k

/-- The ratio is so large or so small that no decimal is near a midpoint. -/
def apart (i k : Nat) : Bool :=
  ratioNum i * 2 ^ 26 < ratioDen k * (if k = 0 then 1 else 2 ^ 24) || 20 * ratioDen k < ratioNum i

/-- Fourteen rounds are enough to make an enclosure tight. -/
def enclosure (i k : Nat) : Enclosure := .around (ratioNum i) (ratioDen k) 14

/-- Both ends of the enclosure are settled. -/
def closed (i k : Nat) : Bool :=
  let s := enclosure i k
  decide (s.Tight (ratioNum i) (ratioDen k)) &&
    settled (ratioNum i) k (s.lowerGap (ratioNum i) (ratioDen k)) s.lowerNum s.lowerDen &&
    settled (ratioNum i) k (s.upperGap (ratioNum i) (ratioDen k)) s.upperNum s.upperDen

/-- The computation for all powers of ten and all exponents of 32-bit numbers. -/
theorem checked :
    (List.range 99).all (fun i => (List.range 254).all fun k => apart i k || closed i k) = true := by
  decide +kernel

theorem apart_or_closed {i k : Nat} (hi : i < 99) (hk : k < 254) : apart i k = true ∨ closed i k = true := by
  have hrow := List.all_eq_true.mp checked i (List.mem_range.mpr hi)
  exact Bool.or_eq_true_iff.mp (List.all_eq_true.mp hrow k (List.mem_range.mpr hk))

variable {i k m c : Nat}

/-- Where decimals come near to midpoints, the ratio is not too large and not too small. -/
theorem apart_eq_false (hodd : m % 2 = 1) (hm : m < limit) (hk : k = 0 ∨ 2 ^ 24 ≤ m) (hc : c < limit)
    (hlong : limit ≤ 10 * c) (hlo : c * ratioNum i * 2 ^ 51 ≤ m * ratioDen k * 2 ^ 51 + c * ratioNum i)
    (hhi : m * ratioDen k * 2 ^ 51 ≤ c * ratioNum i * 2 ^ 51 + c * ratioNum i) : apart i k = false := by
  have hnum : 0 < ratioNum i := Nat.mul_pos (Nat.pow_pos (by decide)) (Nat.two_pow_pos _)
  have hmost : c * ratioNum i ≤ 2 ^ 25 * ratioNum i := Nat.mul_le_mul_right _ hc.le
  have hleast : 2 ^ 25 * ratioNum i ≤ 10 * c * ratioNum i := Nat.mul_le_mul_right _ hlong
  have hmid : m * ratioDen k ≤ 2 ^ 25 * ratioDen k := Nat.mul_le_mul_right _ hm.le
  have hbits : (if k = 0 then 1 else 2 ^ 24) * ratioDen k ≤ m * ratioDen k := by
    refine Nat.mul_le_mul_right _ ?_
    split <;> omega
  unfold apart
  rw [Bool.or_eq_false_iff]
  constructor <;> rw [decide_eq_false_iff_not] <;> intro hlt
  · rw [Nat.mul_comm (ratioDen k)] at hlt
    linarith
  · linarith

/-- What is settled is on the ratio, or away from it, or an exception. -/
theorem settled_cases {num gap a b t : Nat} (h : settled num k gap a b = true)
    (hgap : gap * 2 ^ 51 ≤ b * num) (hodd : t * a % 2 = 1) (hm : t * a < limit) (hc : t * b < limit)
    (hk : k = 0 ∨ 2 ^ 24 ≤ t * a) : gap = 0 ∨ (k, t * a) ∈ exceptions := by
  obtain ⟨htodd, haodd⟩ := Nat.odd_mul.mp (Nat.odd_iff.mpr hodd)
  have htodd := Nat.odd_iff.mp htodd
  have haodd := Nat.odd_iff.mp haodd
  simp only [settled, Bool.or_eq_true, Bool.and_eq_true, beq_iff_eq, decide_eq_true_eq,
    List.contains_iff_mem] at h
  rcases h with ((hzero | haway) | heven) | ⟨hlarge, hrest⟩
  · exact Or.inl hzero
  · omega
  · omega
  -- the fraction itself is meant: three times as much would be too large
  · have hone : t = 1 := by
      by_contra hne
      have ha : 3 * a ≤ t * a := Nat.mul_le_mul_right a (by omega)
      have hb : 3 * b ≤ t * b := Nat.mul_le_mul_right b (by omega)
      omega
    subst hone
    rw [Nat.one_mul] at *
    rcases hrest with (hlimit | ⟨hpos, hfew⟩) | hmem
    · omega
    · omega
    · exact Or.inr hmem

/-- A fraction that is near the ratio is one of the two ends; hence it is the ratio, or an exception. -/
theorem near_of_tight {s : Enclosure} {num den : Nat} (htight : s.Tight num den)
    (hlower : settled num k (s.lowerGap num den) s.lowerNum s.lowerDen = true)
    (hupper : settled num k (s.upperGap num den) s.upperNum s.upperDen = true) (hden : 0 < den)
    (hodd : m % 2 = 1) (hm : m < limit) (hbits : k = 0 ∨ 2 ^ 24 ≤ m) (hc : c < limit)
    (hlo : c * num * 2 ^ 51 ≤ m * den * 2 ^ 51 + c * num)
    (hhi : m * den * 2 ^ 51 ≤ c * num * 2 ^ 51 + c * num) : c * num = m * den ∨ (k, m) ∈ exceptions := by
  obtain ⟨hlowest, hlowest'⟩ := Enclosure.coprime_of_neighbours htight.neighbours
  have hm0 : 0 < m := by omega
  rcases htight.le_or_ge hc (m := m) with hside | hside
  · obtain ⟨t, rfl, rfl⟩ := Enclosure.exists_multiple hlowest htight.lowerDen_pos
      (htight.lower_end hden hm hside hlo)
    have hgap := htight.lowerGap_le (Nat.pos_of_mul_pos_right hm0) hlo
    refine (settled_cases hlower hgap hodd hm hc hbits).imp_left fun hzero => ?_
    have heq := Nat.le_antisymm (Nat.le_of_sub_eq_zero hzero) htight.lower_le
    rw [Nat.mul_assoc, Nat.mul_comm _ num, heq, ← Nat.mul_assoc]
  · obtain ⟨t, rfl, rfl⟩ := Enclosure.exists_multiple hlowest' htight.upperDen_pos
      (htight.upper_end hden hm hside hhi)
    have hgap := htight.upperGap_le (Nat.pos_of_mul_pos_right hm0) hhi
    refine (settled_cases hupper hgap hodd hm hc hbits).imp_left fun hzero => ?_
    have heq := Nat.le_antisymm htight.le_upper (Nat.le_of_sub_eq_zero hzero)
    rw [Nat.mul_assoc, Nat.mul_comm _ num, heq, ← Nat.mul_assoc]

/-- A decimal near a midpoint is that midpoint, or the midpoint is an exception. -/
theorem near_ratio (hi : i < 99) (hk : k < 254) (hodd : m % 2 = 1) (hm : m < limit)
    (hbits : k = 0 ∨ 2 ^ 24 ≤ m) (hc : c < limit) (hlong : limit ≤ 10 * c)
    (hlo : c * ratioNum i * 2 ^ 51 ≤ m * ratioDen k * 2 ^ 51 + c * ratioNum i)
    (hhi : m * ratioDen k * 2 ^ 51 ≤ c * ratioNum i * 2 ^ 51 + c * ratioNum i) :
    c * ratioNum i = m * ratioDen k ∨ (k, m) ∈ exceptions := by
  have hden : 0 < ratioDen k := Nat.mul_pos (Nat.pow_pos (by decide)) (Nat.two_pow_pos k)
  have hclosed : closed i k = true := by
    rcases apart_or_closed hi hk with hapart | hclosed
    · rw [apart_eq_false hodd hm hbits hc hlong hlo hhi] at hapart
      exact absurd hapart (by decide)
    · exact hclosed
  unfold closed at hclosed
  simp only [Bool.and_eq_true, decide_eq_true_eq] at hclosed
  obtain ⟨⟨htight, hlower⟩, hupper⟩ := hclosed
  exact near_of_tight htight hlower hupper hden hodd hm hbits hc hlo hhi

/-! ## Decimals and midpoints -/

/-- The midpoint above a finite 32-bit number: an odd number of at most 25 bits, shifted. -/
theorem exists_midpoint {p : Nat} (hp : p < Format.single.infinity) :
    ∃ k m, k < 254 ∧ m % 2 = 1 ∧ m < limit ∧ (k = 0 ∨ 2 ^ 24 ≤ m) ∧ p = k * 2 ^ 23 + m / 2 ∧
      Format.single.above p = m * 2 ^ k / 2 ^ 150 := by
  -- the place of the pattern in its binade; the first binade starts at zero
  obtain ⟨k, q, hk, hq, hbits, rfl, hself, hsucc⟩ : ∃ k q, k < 254 ∧ q < 2 ^ 24 ∧ (k = 0 ∨ 2 ^ 23 ≤ q) ∧
      p = k * 2 ^ 23 + q ∧ Format.single.units p = q * 2 ^ k ∧
      Format.single.units (p + 1) = (q + 1) * 2 ^ k := by
    rw [infinity_single] at hp
    rcases Format.pattern_cases .single p with hlt | ⟨k, q, hlo, hhi, rfl⟩
    · rw [fractionBits_single] at hlt
      refine ⟨0, p, by decide, by omega, Or.inl rfl, by omega, ?_, ?_⟩
      · rw [Format.units_of_le (by rw [fractionBits_single]; omega), Nat.pow_zero, Nat.mul_one]
      · rw [Format.units_of_le (by rw [fractionBits_single]; omega), Nat.pow_zero, Nat.mul_one]
    · have hself := Format.units_shifted (f := .single) (k := k) hlo hhi.le
      have hsucc := Format.units_shifted (f := .single) (k := k) (q := q + 1) (by omega) hhi
      rw [← Nat.add_assoc] at hsucc
      rw [fractionBits_single] at *
      exact ⟨k, q, by omega, by omega, Or.inr hlo, rfl, hself, hsucc⟩
  refine ⟨k, 2 * q + 1, hk, by omega, ?_, by omega, by omega, ?_⟩
  · show 2 * q + 1 < 2 ^ 25
    omega
  · unfold Format.above Format.magnitude
    rw [hself, hsucc]
    have hunit : (2 : ℚ) ^ Format.single.unitExponent = 2 ^ 149 := rfl
    rw [hunit]
    push_cast
    ring

/-- A decimal with digits added as zeros until there is no room for another one. -/
theorem exists_long {c : Nat} (hpos : 0 < c) (hc : c < limit) :
    ∃ t ≤ 7, c * 10 ^ t < limit ∧ limit ≤ 10 * (c * 10 ^ t) := by
  obtain ⟨t, ht, hlong⟩ : ∃ t, c * 10 ^ t < limit ∧ limit ≤ c * 10 ^ (t + 1) := by
    have hsome : ∃ t, limit ≤ c * 10 ^ (t + 1) :=
      ⟨7, Nat.le_trans (by decide) (Nat.le_mul_of_pos_left _ hpos)⟩
    refine ⟨Nat.find hsome, ?_, Nat.find_spec hsome⟩
    rcases Nat.eq_zero_or_pos (Nat.find hsome) with hzero | hsucc
    · rw [hzero, Nat.pow_zero, Nat.mul_one]
      exact hc
    · have := Nat.find_min hsome (Nat.sub_lt hsucc Nat.one_pos)
      rw [Nat.sub_add_cancel hsucc] at this
      exact Nat.not_le.mp this
  refine ⟨t, ?_, ht, ?_⟩
  · by_contra hlarge
    have h8 : 10 ^ 8 ≤ 10 ^ t := Nat.pow_le_pow_right (by decide) (Nat.not_le.mp hlarge)
    have hmul : 10 ^ t ≤ c * 10 ^ t := Nat.le_mul_of_pos_left _ hpos
    unfold Enclosure.limit at ht
    omega
  · rw [Nat.pow_succ] at hlong
    rw [Nat.mul_comm 10, Nat.mul_assoc]
    exact hlong

/-- **A short decimal near the midpoint above a number** is the midpoint, with the listed exceptions. -/
theorem near_above {p c : Nat} {q : Int} (hp : p < Format.single.infinity) (hpos : 0 < c)
    (hc : c < 2 ^ 25) (hleast : -53 ≤ q) (hmost : q ≤ 38)
    (hnear : |c * 10 ^ q - Format.single.above p| * 2 ^ 51 ≤ c * 10 ^ q) :
    c * 10 ^ q = Format.single.above p ∨ ∃ km ∈ exceptions, p = km.1 * 2 ^ 23 + km.2 / 2 := by
  obtain ⟨k, m, hk, hodd, hm, hbits, hp', habove⟩ := exists_midpoint hp
  obtain ⟨t, ht, hshort, hlong⟩ := exists_long hpos hc
  obtain ⟨i, hi⟩ : ∃ i : Nat, q - t + 60 = i := ⟨(q - t + 60).toNat, by omega⟩
  -- both numbers, in units that make them whole
  have hscale : (0 : ℚ) < 10 ^ 60 * 2 ^ 150 := by positivity
  have hdecimal : c * (10 : ℚ) ^ q * (10 ^ 60 * 2 ^ 150) = (c * 10 ^ t * ratioNum i : Nat) := by
    have hq : q = i + t - (60 : Nat) := by omega
    rw [hq, zpow_sub₀ (by norm_num), zpow_add₀ (by norm_num), zpow_natCast, zpow_natCast, zpow_natCast]
    unfold ratioNum
    simp only [Nat.cast_mul, Nat.cast_pow, Nat.cast_ofNat]
    field_simp
  have hmidpoint : Format.single.above p * (10 ^ 60 * 2 ^ 150) = (m * ratioDen k : Nat) := by
    rw [habove]
    unfold ratioDen
    simp only [Nat.cast_mul, Nat.cast_pow, Nat.cast_ofNat]
    field_simp
  obtain ⟨hge, hle⟩ : (c * 10 ^ t * ratioNum i : Nat) * (2 : ℚ) ^ 51 ≤
      (m * ratioDen k : Nat) * 2 ^ 51 + (c * 10 ^ t * ratioNum i : Nat) ∧
      (m * ratioDen k : Nat) * (2 : ℚ) ^ 51 ≤
        (c * 10 ^ t * ratioNum i : Nat) * 2 ^ 51 + (c * 10 ^ t * ratioNum i : Nat) := by
    rw [← hdecimal, ← hmidpoint]
    generalize c * (10 : ℚ) ^ q = d at *
    generalize Format.single.above p = edge at *
    generalize (10 ^ 60 * 2 ^ 150 : ℚ) = scale at *
    have hmax : (d - edge) * 2 ^ 51 * scale ≤ d * scale :=
      mul_le_mul_of_nonneg_right (le_trans (by gcongr; exact le_abs_self _) hnear) hscale.le
    have hmin : (edge - d) * 2 ^ 51 * scale ≤ d * scale := by
      rw [abs_sub_comm] at hnear
      exact mul_le_mul_of_nonneg_right (le_trans (by gcongr; exact le_abs_self _) hnear) hscale.le
    constructor <;> linarith
  have hnat := near_ratio (i := i) (c := c * 10 ^ t) (by omega) hk hodd hm hbits hshort hlong
    (by exact_mod_cast hge) (by exact_mod_cast hle)
  refine hnat.imp (fun heq => ?_) fun hmem => ⟨(k, m), hmem, hp'⟩
  refine mul_right_cancel₀ hscale.ne' ?_
  rw [hdecimal, hmidpoint, heq]

end Binary

end GateGraph
