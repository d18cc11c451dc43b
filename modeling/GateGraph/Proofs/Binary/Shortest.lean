import GateGraph.Binary.Shortest
import GateGraph.Proofs.Binary.Magnitude
import GateGraph.Proofs.Decimal.Numeral

/-!
# `GateGraph.Proofs.Binary.Shortest` — which decimal is written for a number

The search for a decimal goes from coarse grids `10 ^ q` to fine ones, and on each of them it looks at the two
points around the number. This module says what it finds: a decimal that lies between the midpoints around the
number, with at most nine digits or the next power of ten. It also says that a decimal very near a midpoint
has few digits: with many, the grid is so fine that a point nearer to the number would have been chosen.

## Contents
- `readsBack_iff`, the test of a decimal; `gridFloor`, the point of a grid below the number.
- `candidate?_eq_some` and `candidate?_isSome`: what is chosen on a grid, and when there is something.
- `leadingPower_bounds`: where the search begins.
- `Written`, all that is known of the decimal; `few_digits_of_near` and `exists_written`.
-/

namespace GateGraph

-- powers of whole numbers are the built-in ones, whatever is imported beside this module
attribute [local instance (2000)] instPowNat

namespace Binary

variable {f : Format} {tie : Tie} {x : Binary f} {q : Int} {c : Nat}

/-! ## One grid -/

/-- The quotient of `power` is a power of ten, counted in units. -/
theorem zpow_mul_power (f : Format) (q : Int) :
    (10 : ℚ) ^ q * (2 ^ f.unitExponent * (power f q).1) = (power f q).2 := by
  unfold power
  rcases le_total 0 q with hq | hq
  · obtain ⟨n, rfl⟩ := Int.eq_ofNat_of_zero_le hq
    simp
  · obtain ⟨n, rfl⟩ := Int.exists_eq_neg_ofNat hq
    simp only [zpow_neg, zpow_natCast, neg_neg, Int.toNat_natCast, Int.toNat_neg_natCast, pow_zero, one_mul]
    push_cast
    field_simp

theorem power_pos (f : Format) (q : Int) : 0 < (power f q).1 ∧ 0 < (power f q).2 :=
  ⟨Nat.pow_pos (by decide), Nat.mul_pos (Nat.pow_pos (by decide)) (Nat.two_pow_pos _)⟩

theorem quotient_power (f : Format) (q : Int) (c : Nat) :
    f.quotient (c * (power f q).2) (power f q).1 = c * 10 ^ q := by
  have hup : ((power f q).1 : ℚ) ≠ 0 := by exact_mod_cast Nat.ne_of_gt (power_pos f q).1
  unfold Format.quotient
  rw [Nat.cast_mul, ← zpow_mul_power f q]
  field_simp

/-- Reading back means lying between the midpoints. -/
theorem readsBack_iff : x.readsBack q c = true ↔ f.Encloses x.pattern (c * 10 ^ q) := by
  rw [← quotient_power, ← Format.roundsTo_iff (power_pos f q).1]
  unfold readsBack Format.RoundsTo units
  rw [← Nat.mul_assoc 2 c]
  split
  next heq =>
    simp only [heq]
    split <;> simp

/-- The number divided by the step of a grid, rounded down. -/
def gridFloor (x : Binary f) (q : Int) : Nat := x.units * (power f q).1 / (power f q).2

/-- The number in multiples of the step of a grid. -/
theorem magnitude_mul_power (x : Binary f) (q : Int) :
    x.magnitude * (2 ^ f.unitExponent * (power f q).1) = (x.units * (power f q).1 : Nat) := by
  unfold magnitude units
  rw [Nat.cast_mul, f.units_eq_magnitude_mul]
  ring

theorem gridFloor_bounds (x : Binary f) (q : Int) :
    x.gridFloor q * (10 : ℚ) ^ q ≤ x.magnitude ∧ x.magnitude < (x.gridFloor q + 1) * (10 : ℚ) ^ q := by
  obtain ⟨hup, hdown⟩ := power_pos f q
  have hscale : (0 : ℚ) < 2 ^ f.unitExponent * (power f q).1 := by positivity
  have hlo : x.gridFloor q * (power f q).2 ≤ x.units * (power f q).1 := Nat.div_mul_le_self _ _
  have hhi : x.units * (power f q).1 < (x.gridFloor q + 1) * (power f q).2 :=
    Nat.lt_mul_of_div_lt (Nat.lt_succ_self _) hdown
  constructor
  · refine le_of_mul_le_mul_right ?_ hscale
    rw [mul_assoc, zpow_mul_power, magnitude_mul_power]
    exact_mod_cast hlo
  · refine lt_of_mul_lt_mul_right ?_ hscale.le
    rw [mul_assoc, zpow_mul_power, magnitude_mul_power]
    exact_mod_cast hhi

/-- A number in the lower half of its cell of the grid is not farther from the lower end. -/
theorem sub_le_of_twice_le (h : 2 * (x.units * (power f q).1) ≤ (2 * c + 1) * (power f q).2) :
    x.magnitude - c * 10 ^ q ≤ (c + 1) * 10 ^ q - x.magnitude := by
  have hscale : (0 : ℚ) < 2 ^ f.unitExponent * (power f q).1 := by
    have := (power_pos f q).1
    positivity
  have hcast : 2 * ((x.units * (power f q).1 : Nat) : ℚ) ≤ (2 * c + 1) * ((power f q).2 : Nat) := by
    exact_mod_cast h
  rw [← magnitude_mul_power, ← zpow_mul_power f q, ← mul_assoc 2, ← mul_assoc (2 * (c : ℚ) + 1)] at hcast
  have := le_of_mul_le_mul_right hcast hscale
  linarith

/-- A number in the upper half of its cell of the grid is not farther from the upper end. -/
theorem sub_le_of_le_twice (h : (2 * c + 1) * (power f q).2 ≤ 2 * (x.units * (power f q).1)) :
    (c + 1) * 10 ^ q - x.magnitude ≤ x.magnitude - c * 10 ^ q := by
  have hscale : (0 : ℚ) < 2 ^ f.unitExponent * (power f q).1 := by
    have := (power_pos f q).1
    positivity
  have hcast : (2 * c + 1) * ((power f q).2 : Nat) ≤ 2 * ((x.units * (power f q).1 : Nat) : ℚ) := by
    exact_mod_cast h
  rw [← magnitude_mul_power, ← zpow_mul_power f q, ← mul_assoc 2, ← mul_assoc (2 * (c : ℚ) + 1)] at hcast
  have := le_of_mul_le_mul_right hcast hscale
  linarith

/-- The choice on a grid, with the lower end of the cell by its name. -/
theorem candidate?_eq (tie : Tie) (x : Binary f) (q : Int) :
    x.candidate? tie q =
      match x.readsBack q (x.gridFloor q), x.readsBack q (x.gridFloor q + 1) with
      | false, false => none
      | true, false => some (x.gridFloor q)
      | false, true => some (x.gridFloor q + 1)
      | true, true =>
          if 2 * (x.units * (power f q).1) < (2 * x.gridFloor q + 1) * (power f q).2 then
            some (x.gridFloor q)
          else if (2 * x.gridFloor q + 1) * (power f q).2 < 2 * (x.units * (power f q).1) then
            some (x.gridFloor q + 1)
          else match tie with
            | .up => some (x.gridFloor q + 1)
            | .toEven => some (if x.gridFloor q % 2 = 0 then x.gridFloor q else x.gridFloor q + 1) := rfl

/-- What is chosen on a grid: an end of the cell of the number that reads back, and not the end that is
    farther away, if both read back. -/
theorem candidate?_eq_some (h : x.candidate? tie q = some c) :
    f.Encloses x.pattern (c * 10 ^ q) ∧
      ((c = x.gridFloor q ∧ (f.Encloses x.pattern ((x.gridFloor q + 1) * 10 ^ q) →
          x.magnitude - x.gridFloor q * 10 ^ q ≤ (x.gridFloor q + 1) * 10 ^ q - x.magnitude)) ∨
        (c = x.gridFloor q + 1 ∧ (f.Encloses x.pattern (x.gridFloor q * 10 ^ q) →
          (x.gridFloor q + 1) * 10 ^ q - x.magnitude ≤ x.magnitude - x.gridFloor q * 10 ^ q))) := by
  have hlower : x.readsBack q (x.gridFloor q) = true ↔ f.Encloses x.pattern (x.gridFloor q * 10 ^ q) :=
    readsBack_iff
  have hupper : x.readsBack q (x.gridFloor q + 1) = true ↔
      f.Encloses x.pattern ((x.gridFloor q + 1) * 10 ^ q) := by
    rw [readsBack_iff, Nat.cast_succ]
  have hdown := sub_le_of_twice_le (x := x) (q := q) (c := x.gridFloor q)
  have hup := sub_le_of_le_twice (x := x) (q := q) (c := x.gridFloor q)
  rw [candidate?_eq] at h
  rw [← hlower, ← hupper, ← readsBack_iff]
  split at h
  · exact absurd h (by simp)
  · next hlo hhi =>
      obtain rfl := Option.some.inj h
      exact ⟨hlo, Or.inl ⟨rfl, fun h => absurd (hhi.symm.trans h) (by decide)⟩⟩
  · next hlo hhi =>
      obtain rfl := Option.some.inj h
      exact ⟨hhi, Or.inr ⟨rfl, fun h => absurd (hlo.symm.trans h) (by decide)⟩⟩
  · next hlo hhi =>
      -- both read back: the half of the cell decides, and in the middle both are equally far
      split at h
      · next hlt =>
          obtain rfl := Option.some.inj h
          exact ⟨hlo, Or.inl ⟨rfl, fun _ => hdown (Nat.le_of_lt hlt)⟩⟩
      · next hge =>
          split at h
          · obtain rfl := Option.some.inj h
            exact ⟨hhi, Or.inr ⟨rfl, fun _ => hup (Nat.not_lt.mp hge)⟩⟩
          · next hle =>
              split at h
              · obtain rfl := Option.some.inj h
                exact ⟨hhi, Or.inr ⟨rfl, fun _ => hup (Nat.not_lt.mp hge)⟩⟩
              · split at h
                · obtain rfl := Option.some.inj h
                  exact ⟨hlo, Or.inl ⟨rfl, fun _ => hdown (Nat.not_lt.mp hle)⟩⟩
                · obtain rfl := Option.some.inj h
                  exact ⟨hhi, Or.inr ⟨rfl, fun _ => hup (Nat.not_lt.mp hge)⟩⟩

/-- A grid that is finer than the distance of the midpoints has a point that reads back. -/
theorem candidate?_isSome (tie : Tie) (hx : 0 < x.pattern.val)
    (h : (10 : ℚ) ^ q < f.above x.pattern - f.below x.pattern) : (x.candidate? tie q).isSome = true := by
  obtain ⟨hlo, hhi⟩ := gridFloor_bounds x q
  have hone : f.Encloses x.pattern (x.gridFloor q * 10 ^ q) ∨
      f.Encloses x.pattern ((x.gridFloor q + 1 : Nat) * 10 ^ q) := by
    rw [Nat.cast_succ]
    rcases lt_or_ge (f.below x.pattern) (x.gridFloor q * 10 ^ q) with hin | hout
    · exact Or.inl (.of_lt hin (lt_of_le_of_lt hlo (Format.magnitude_lt_above hx)))
    · exact Or.inr (.of_lt (lt_trans (Format.below_lt_magnitude hx) hhi) (by linarith))
  rw [← readsBack_iff, ← readsBack_iff] at hone
  rw [candidate?_eq]
  split
  · next hlo hhi => exact absurd hone (by simp [hlo, hhi])
  · rfl
  · rfl
  · split
    · rfl
    · split
      · rfl
      · split <;> rfl

/-! ## The first digit -/

/-- The power of ten of the first digit is the greatest one that is not above the number. -/
theorem leadingPower_bounds (hx : 0 < x.pattern.val) :
    (10 : ℚ) ^ x.leadingPower ≤ x.magnitude ∧ x.magnitude < (10 : ℚ) ^ (x.leadingPower + 1) := by
  have htwo : 0 < 2 ^ f.unitExponent := Nat.two_pow_pos _
  obtain ⟨n, hn⟩ : ∃ n, n = x.units * 10 ^ f.unitExponent / 2 ^ f.unitExponent := ⟨_, rfl⟩
  have hpos : 0 < n := by
    rw [hn]
    refine Nat.div_pos ?_ htwo
    calc 2 ^ f.unitExponent ≤ 10 ^ f.unitExponent := Nat.pow_le_pow_left (by decide) _
      _ ≤ x.units * 10 ^ f.unitExponent := Nat.le_mul_of_pos_left _ (Format.units_pos hx)
  have hlen : 0 < (Decimal.digits n).length := List.length_pos_iff.mpr (Decimal.digits_ne_nil n)
  have hpower : x.leadingPower = (Decimal.digits n).length - 1 - (f.unitExponent : Int) := by
    rw [hn]
    rfl
  -- the number is shifted by so many places that all of it stands before the point
  have hshift : x.magnitude * 10 ^ f.unitExponent * 2 ^ f.unitExponent =
      (x.units * 10 ^ f.unitExponent : Nat) := by
    unfold magnitude units
    rw [Nat.cast_mul, f.units_eq_magnitude_mul]
    push_cast
    ring
  have hmin : (10 : ℚ) ^ ((Decimal.digits n).length - 1) ≤ x.magnitude * 10 ^ f.unitExponent := by
    have hle : 10 ^ ((Decimal.digits n).length - 1) * 2 ^ f.unitExponent ≤ x.units * 10 ^ f.unitExponent :=
      (Nat.mul_le_mul_right _ (Decimal.ten_pow_length_le hpos)).trans (hn ▸ Nat.div_mul_le_self _ _)
    refine le_of_mul_le_mul_right ?_ (by positivity : (0 : ℚ) < 2 ^ f.unitExponent)
    rw [hshift]
    exact_mod_cast hle
  have hmax : x.magnitude * 10 ^ f.unitExponent < (10 : ℚ) ^ (Decimal.digits n).length := by
    have hlt : x.units * 10 ^ f.unitExponent < 10 ^ (Decimal.digits n).length * 2 ^ f.unitExponent := by
      rw [← Nat.div_lt_iff_lt_mul htwo, ← hn]
      exact Decimal.lt_ten_pow_length n
    refine lt_of_mul_lt_mul_right ?_ (by positivity : (0 : ℚ) ≤ 2 ^ f.unitExponent)
    rw [hshift]
    exact_mod_cast hlt
  have hten : (0 : ℚ) < 10 ^ f.unitExponent := by positivity
  have hlower : (Decimal.digits n).length - 1 - (f.unitExponent : Int) =
      ((Decimal.digits n).length - 1 : Nat) - (f.unitExponent : Int) := by omega
  have hupper : (Decimal.digits n).length - 1 - (f.unitExponent : Int) + 1 =
      ((Decimal.digits n).length : Nat) - (f.unitExponent : Int) := by omega
  rw [hpower, hupper, hlower, zpow_sub₀ (by norm_num), zpow_sub₀ (by norm_num)]
  simp only [zpow_natCast]
  rw [div_le_iff₀ hten, lt_div_iff₀ hten]
  exact ⟨hmin, hmax⟩

/-- The range of 32-bit numbers, in powers of ten. -/
theorem magnitude_single {x : Binary32} (hfin : x.isFinite = true) (hx : 0 < x.pattern.val) :
    (10 : ℚ) ^ (-45 : Int) < x.magnitude ∧ x.magnitude < (10 : ℚ) ^ (39 : Int) := by
  have hmag : x.magnitude = x.units / 2 ^ 149 := rfl
  have hone : (1 : ℚ) ≤ x.units := by exact_mod_cast Format.units_pos hx
  have hmost : (x.units : ℚ) < 2 ^ 128 * 2 ^ 149 := by
    obtain ⟨k, q, hq, hk, hunits⟩ := units_single x hfin
    have hlt : x.units < 2 ^ 128 * 2 ^ 149 := by
      calc x.units = q * 2 ^ k := hunits
        _ < 2 ^ 24 * 2 ^ k := Nat.mul_lt_mul_of_pos_right hq (Nat.two_pow_pos k)
        _ ≤ 2 ^ 24 * (2 ^ 104 * 2 ^ 149) := Nat.mul_le_mul_left _
            ((Nat.pow_le_pow_right (by decide) (by omega)).trans_eq (Nat.pow_add 2 104 149))
        _ = 2 ^ 128 * 2 ^ 149 := (Nat.mul_assoc _ _ _).symm
    exact_mod_cast hlt
  rw [hmag, lt_div_iff₀ (by positivity), div_lt_iff₀ (by positivity)]
  constructor
  · refine lt_of_lt_of_le ?_ hone
    norm_num
  · refine hmost.trans (mul_lt_mul_of_pos_right ?_ (by positivity))
    norm_num

theorem leadingPower_single {x : Binary32} (hfin : x.isFinite = true) (hx : 0 < x.pattern.val) :
    -45 ≤ x.leadingPower ∧ x.leadingPower ≤ 38 := by
  obtain ⟨hlo, hhi⟩ := leadingPower_bounds hx
  obtain ⟨hmin, hmax⟩ := magnitude_single hfin hx
  have hleast := (zpow_lt_zpow_iff_right₀ (by norm_num : (1 : ℚ) < 10)).mp (hmin.trans hhi)
  have hmost := (zpow_lt_zpow_iff_right₀ (by norm_num : (1 : ℚ) < 10)).mp (hlo.trans_lt hmax)
  omega

/-! ## The digits that are written -/

/-- Nine digits are enough for 32-bit numbers. -/
theorem candidate?_isSome_single (tie : Tie) {x : Binary32} (hx : 0 < x.pattern.val) :
    (x.candidate? tie (x.leadingPower - (8 : Nat))).isSome = true := by
  refine candidate?_isSome tie hx ?_
  obtain ⟨hlo, -⟩ := leadingPower_bounds hx
  have hup : x.magnitude ≤ 2 ^ 25 * (Format.single.above x.pattern - x.magnitude) :=
    Format.le_mul_above_sub (f := .single) x.pattern
  have hdown : x.magnitude ≤ 2 ^ 25 * (x.magnitude - Format.single.below x.pattern) :=
    Format.le_mul_sub_below (f := .single) hx
  have hpos : 0 < x.magnitude := Format.magnitude_pos hx
  rw [zpow_sub₀ (by norm_num), zpow_natCast, div_lt_iff₀ (by positivity)]
  norm_num at hup hdown ⊢
  linarith

/-- What is known of the decimal `c * 10 ^ q` that is written for a 32-bit number. -/
structure Written (x : Binary32) (q : Int) (c : Nat) : Prop where
  encloses : Format.single.Encloses x.pattern (c * 10 ^ q)
  pos : 0 < c
  le : c ≤ 10 ^ 9
  least : -53 ≤ q
  most : q ≤ 38
  /-- Near a midpoint there are few digits. -/
  few_digits : ∀ edge, edge = Format.single.below x.pattern ∨ edge = Format.single.above x.pattern →
    |c * 10 ^ q - edge| * 2 ^ 51 ≤ c * 10 ^ q → c < 2 ^ 25

/-- The range of the decimals that are written for 32-bit numbers. -/
theorem Written.range {x : Binary32} (h : x.Written q c) :
    (1 : ℚ) ≤ c * 10 ^ q * 10 ^ 60 ∧ (c * 10 ^ q : ℚ) ≤ 10 ^ 60 := by
  have hpos : (1 : ℚ) ≤ c := by exact_mod_cast h.pos
  have hle : (c : ℚ) ≤ 10 ^ 9 := by exact_mod_cast h.le
  have hmin : (10 : ℚ) ^ (-53 : Int) ≤ 10 ^ q := zpow_le_zpow_right₀ (by norm_num) h.least
  have hmax : (10 : ℚ) ^ q ≤ 10 ^ (38 : Int) := zpow_le_zpow_right₀ (by norm_num) h.most
  constructor
  · calc (1 : ℚ) ≤ 1 * 10 ^ (-53 : Int) * 10 ^ 60 := by norm_num
      _ ≤ c * 10 ^ q * 10 ^ 60 := by gcongr
  · calc (c * 10 ^ q : ℚ) ≤ 10 ^ 9 * 10 ^ (38 : Int) := by gcongr
      _ ≤ 10 ^ 60 := by norm_num

/-- Near a midpoint there are few digits: the step of the grid must be about as long as the way from the
    number to the midpoint, or a point of the grid nearer to the number would have been chosen. -/
theorem few_digits_of_near {x : Binary32} (hx : 0 < x.pattern.val) (h : x.candidate? tie q = some c)
    {edge : ℚ} (hedge : edge = Format.single.below x.pattern ∨ edge = Format.single.above x.pattern)
    (hnear : |c * 10 ^ q - edge| * 2 ^ 51 ≤ c * 10 ^ q) : c < 2 ^ 25 := by
  by_contra hmany
  have hc : (2 ^ 25 : ℚ) ≤ c := by exact_mod_cast Nat.not_lt.mp hmany
  obtain ⟨henc, hcell⟩ := candidate?_eq_some h
  obtain ⟨hlo, hhi⟩ := gridFloor_bounds x q
  obtain ⟨hge, hle⟩ := henc.le
  obtain ⟨hshort, hlong⟩ := Format.sub_below_le (f := .single) hx
  have hup : Format.single.magnitude x.pattern ≤
      2 ^ 25 * (Format.single.above x.pattern - Format.single.magnitude x.pattern) :=
    Format.le_mul_above_sub (f := .single) x.pattern
  have hdown : Format.single.magnitude x.pattern ≤
      2 ^ 25 * (Format.single.magnitude x.pattern - Format.single.below x.pattern) :=
    Format.le_mul_sub_below (f := .single) hx
  have hpos := Format.magnitude_pos (f := .single) hx
  have hstep : 2 ^ 25 * (10 : ℚ) ^ q ≤ c * 10 ^ q := mul_le_mul_of_nonneg_right hc (by positivity)
  -- the end of the cell on the other side of the number reads back or lies beyond the midpoint there
  have hother : ∀ r, ¬Format.single.Encloses x.pattern r →
      r ≤ Format.single.below x.pattern ∨ Format.single.above x.pattern ≤ r := by
    intro r hr
    by_contra hin
    push Not at hin
    exact hr (.of_lt hin.1 hin.2)
  unfold magnitude at *
  generalize Format.single.magnitude x.pattern = v at *
  generalize Format.single.above x.pattern = above at *
  generalize Format.single.below x.pattern = below at *
  generalize (10 : ℚ) ^ q = step at *
  have hclose : edge - c * step ≤ |c * step - edge| ∧ c * step - edge ≤ |c * step - edge| :=
    ⟨abs_sub_comm edge (c * step) ▸ le_abs_self _, le_abs_self _⟩
  rcases hcell with ⟨rfl, hmiddle⟩ | ⟨rfl, hmiddle⟩
  · rcases hedge with rfl | rfl
    · have hhalf : v - x.gridFloor q * step ≤ (x.gridFloor q + 1) * step - v ∨
          above ≤ (x.gridFloor q + 1) * step := by
        by_cases henc' : Format.single.Encloses x.pattern ((x.gridFloor q + 1) * step)
        · exact Or.inl (hmiddle henc')
        · rcases hother _ henc' with hbelow | habove
          · linarith
          · exact Or.inr habove
      rcases hhalf with hhalf | hhalf <;> linarith
    · linarith
  · push_cast at *
    rcases hedge with rfl | rfl
    · linarith
    · have hhalf : (x.gridFloor q + 1) * step - v ≤ v - x.gridFloor q * step ∨
          x.gridFloor q * step ≤ below := by
        by_cases henc' : Format.single.Encloses x.pattern (x.gridFloor q * step)
        · exact Or.inl (hmiddle henc')
        · rcases hother _ henc' with hbelow | habove
          · exact Or.inr hbelow
          · linarith
      rcases hhalf with hhalf | hhalf <;> linarith

/-- **The decimal that is written** for a number other than zero. -/
theorem exists_written (tie : Tie) {x : Binary32} (hfin : x.isFinite = true) (hx : 0 < x.pattern.val) :
    ∃ q c, x.shortest tie = scientific c q ∧ x.Written q c := by
  obtain ⟨hmin, hmax⟩ := leadingPower_bounds hx
  obtain ⟨hleast, hmost⟩ := leadingPower_single hfin hx
  -- the search ends among the first nine grids
  obtain ⟨n, c, hn, hcandidate, hshortest⟩ : ∃ n c, n < 9 ∧
      x.candidate? tie (x.leadingPower - (n : Nat)) = some c ∧
      x.shortest tie = scientific c (x.leadingPower - (n : Nat)) := by
    have hzero : x.isZero = false := by simpa [isZero] using Nat.ne_of_gt hx
    obtain ⟨found, hfound⟩ : ∃ found, (List.range 9).findSome? (fun (n : Nat) =>
        (x.candidate? tie (x.leadingPower - n)).map fun c => scientific c (x.leadingPower - n)) =
          some found := by
      rw [← Option.isSome_iff_exists, List.findSome?_isSome_iff]
      refine ⟨8, by decide, ?_⟩
      rw [Option.isSome_map]
      exact candidate?_isSome_single tie hx
    have hshortest : x.shortest tie = found := by
      have hrange : List.range enoughDigits = List.range 9 ++ (List.range 8).map (9 + ·) := by decide
      unfold shortest
      rw [hzero, hrange]
      simp only [Bool.false_eq_true, if_false, List.findSome?_append, hfound, Option.some_or,
        Option.getD_some]
    obtain ⟨n, hn, hmap⟩ := List.exists_of_findSome?_eq_some hfound
    obtain ⟨c, hc, rfl⟩ := Option.map_eq_some_iff.mp hmap
    exact ⟨n, c, List.mem_range.mp hn, hc, hshortest⟩
  obtain ⟨henc, hcell⟩ := candidate?_eq_some hcandidate
  obtain ⟨hlo, hhi⟩ := gridFloor_bounds x (x.leadingPower - (n : Nat))
  have hstep : (0 : ℚ) < 10 ^ (x.leadingPower - (n : Nat)) := by positivity
  refine ⟨_, c, hshortest, henc, ?_, ?_, by omega, by omega,
    fun edge hedge hnear => few_digits_of_near hx hcandidate hedge hnear⟩
  · have hbelow := Format.below_pos (f := .single) hx
    have hpos := (pos_iff_pos_of_mul_pos (hbelow.trans_le henc.le.1)).mpr hstep
    exact_mod_cast hpos
  -- the number has fewer than `n + 1` digits before the point of the grid
  · have hsplit : (10 : ℚ) ^ (x.leadingPower + 1) = 10 ^ (n + 1) * 10 ^ (x.leadingPower - (n : Nat)) := by
      rw [← zpow_natCast, ← zpow_add₀ (by norm_num)]
      congr 1
      push_cast
      ring
    have hfloor : x.gridFloor (x.leadingPower - (n : Nat)) < 10 ^ (n + 1) := by
      have := lt_of_mul_lt_mul_right (hsplit ▸ hlo.trans_lt hmax) hstep.le
      exact_mod_cast this
    have hpow : 10 ^ (n + 1) ≤ 10 ^ 9 := Nat.pow_le_pow_right (by decide) (by omega)
    rcases hcell with ⟨rfl, -⟩ | ⟨rfl, -⟩ <;> omega

end Binary

end GateGraph
