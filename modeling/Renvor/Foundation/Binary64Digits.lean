import Mathlib.Tactic.Linarith
import Renvor.Foundation.Binary64

/-! # Digits are read back

What is close enough to a double is rounded to it (`Foundation.Binary64.nearest_close`),
seventeen digits are close enough, and so the digits that a double is written with are
read back (`Foundation.Binary64.shortest_reads`).
-/

namespace Foundation.Binary64

variable {units numerator denominator shift : Nat}

/-- The spacing of a number is told by the two powers of two that it lies between. -/
theorem spacing_of_bounds (low : 2 ^ (52 + shift) ≤ units) (high : units < 2 ^ (53 + shift)) :
    spacing units = shift := by
  have some_units : units ≠ 0 := Nat.ne_of_gt (lt_of_lt_of_le (Nat.two_pow_pos _) low)
  have log : units.log2 = 52 + shift := by
    refine Nat.le_antisymm ?_ ?_
    · have below := (Nat.log2_lt some_units).mpr high
      omega
    · exact (Nat.le_log2 some_units).mpr low
  rw [spacing, log, Nat.add_sub_cancel_left]

/-- The doubles of small numbers are as close as doubles come. -/
theorem spacing_small (small : units < 2 ^ 53) : spacing units = 0 := by
  rcases Nat.eq_zero_or_pos units with none_ | positive
  · rw [none_]
    rfl
  · have log := (Nat.log2_lt (Nat.ne_of_gt positive)).mpr small
    unfold spacing
    omega

/-- The spacing of a quotient is told by how many steps of it the numerator has room for. -/
theorem spacing_of_steps (some : 0 < denominator)
    (low : 2 ^ 52 * (denominator * 2 ^ shift) ≤ numerator)
    (high : numerator < 2 ^ 53 * (denominator * 2 ^ shift)) :
    spacing (numerator / denominator) = shift := by
  have power : ∀ width, 2 ^ (width + shift) * denominator =
      2 ^ width * (denominator * 2 ^ shift) := fun width => by
    rw [Nat.pow_add, Nat.mul_assoc, Nat.mul_comm (2 ^ shift)]
  refine spacing_of_bounds ((Nat.le_div_iff_mul_le some).mpr ?_)
    ((Nat.div_lt_iff_lt_mul some).mpr ?_)
  · rw [power]
    exact low
  · rw [power]
    exact high

/-- A number that is not much more is rounded down. -/
theorem nearest_down (significand : Nat) (space : spacing (numerator / denominator) = shift)
    (low : significand * (denominator * 2 ^ shift) ≤ numerator)
    (high : 2 * numerator <
      2 * (significand * (denominator * 2 ^ shift)) + denominator * 2 ^ shift) :
    nearest numerator denominator = significand * 2 ^ shift := by
  have quotient : numerator / (denominator * 2 ^ shift) = significand := by
    refine Nat.div_eq_of_lt_le low ?_
    rw [Nat.succ_mul]
    omega
  have rest : 2 * (numerator % (denominator * 2 ^ shift)) < denominator * 2 ^ shift := by
    have whole := Nat.div_add_mod' numerator (denominator * 2 ^ shift)
    rw [quotient] at whole
    omega
  unfold nearest
  simp only [space, quotient]
  rw [if_pos (.inl rest)]

/-- A number that is not much less is rounded up. -/
theorem nearest_up (significand : Nat) (space : spacing (numerator / denominator) = shift)
    (low : 2 * (significand * (denominator * 2 ^ shift)) + denominator * 2 ^ shift <
      2 * numerator)
    (high : numerator < significand * (denominator * 2 ^ shift) + denominator * 2 ^ shift) :
    nearest numerator denominator = (significand + 1) * 2 ^ shift := by
  have quotient : numerator / (denominator * 2 ^ shift) = significand := by
    refine Nat.div_eq_of_lt_le ?_ ?_
    · omega
    · rw [Nat.succ_mul]
      exact high
  have rest : denominator * 2 ^ shift < 2 * (numerator % (denominator * 2 ^ shift)) := by
    have whole := Nat.div_add_mod' numerator (denominator * 2 ^ shift)
    rw [quotient] at whole
    omega
  unfold nearest
  simp only [space, quotient]
  rw [if_neg (by omega)]

/-- A double as its significant bits, and how large they are. -/
theorem fits_significand (fit : fits units = true) :
    ∃ significand, units = significand * 2 ^ spacing units ∧ significand < 2 ^ 53 ∧
      (0 < spacing units → 2 ^ 52 ≤ significand) := by
  simp only [fits, Bool.and_eq_true, decide_eq_true_eq] at fit
  obtain ⟨significand, whole⟩ := Nat.dvd_of_mod_eq_zero fit.1
  refine ⟨significand, whole.trans (Nat.mul_comm _ _), ?_, ?_⟩
  · rcases Nat.eq_zero_or_pos units with none_ | positive
    · have product : 2 ^ spacing units * significand = 0 := whole.symm.trans none_
      rcases Nat.mul_eq_zero.mp product with power | zero
      · exact absurd power (Nat.ne_of_gt (Nat.two_pow_pos _))
      · rw [zero]
        exact Nat.two_pow_pos 53
    · have log : units < 2 ^ (units.log2 + 1) := Nat.lt_log2_self
      have wide : 2 ^ (units.log2 + 1) ≤ 2 ^ (spacing units + 53) :=
        Nat.pow_le_pow_right (by decide) (by unfold spacing; omega)
      rw [Nat.pow_add 2 (spacing units) 53] at wide
      refine Nat.lt_of_mul_lt_mul_left (a := 2 ^ spacing units) ?_
      rw [← whole]
      exact lt_of_lt_of_le log wide
  · intro spaced
    have some_units : units ≠ 0 := by
      intro none_
      rw [none_] at spaced
      exact absurd spaced (by decide)
    have log : 2 ^ units.log2 ≤ units := Nat.log2_self_le some_units
    have narrow : 2 ^ (spacing units + 52) ≤ 2 ^ units.log2 :=
      Nat.pow_le_pow_right (by decide) (by unfold spacing at spaced ⊢; omega)
    rw [Nat.pow_add 2 (spacing units) 52] at narrow
    refine Nat.le_of_mul_le_mul_left (c := 2 ^ spacing units) ?_ (Nat.two_pow_pos _)
    rw [← whole]
    exact le_trans narrow log

/-- **What is close to a double is rounded to it.** Below a power of two the doubles are
twice as close. -/
theorem nearest_close (fit : fits units = true) (positive : 0 < units) (some : 0 < denominator)
    (high : 2 * numerator < (2 * units + 2 ^ spacing units) * denominator)
    (low : 2 * units * denominator < 2 * numerator + 2 ^ spacing units * denominator)
    (power : units = 2 ^ (52 + spacing units) →
      4 * units * denominator < 4 * numerator + 2 ^ spacing units * denominator) :
    nearest numerator denominator = units := by
  obtain ⟨significand, whole, narrow, full⟩ := fits_significand fit
  generalize spacing units = shift at *
  have step : units * denominator = significand * (denominator * 2 ^ shift) := by
    rw [whole, Nat.mul_assoc, Nat.mul_comm (2 ^ shift)]
  have step_pos : 0 < denominator * 2 ^ shift := Nat.mul_pos some (Nat.two_pow_pos _)
  have narrow' : significand * (denominator * 2 ^ shift) + denominator * 2 ^ shift ≤
      2 ^ 53 * (denominator * 2 ^ shift) := by
    rw [← Nat.succ_mul]
    exact Nat.mul_le_mul_right _ narrow
  rw [Nat.add_mul, Nat.mul_assoc, step, Nat.mul_comm (2 ^ shift)] at high
  rw [Nat.mul_assoc, step, Nat.mul_comm (2 ^ shift)] at low
  rcases Nat.lt_or_ge numerator (units * denominator) with less | more
  · rw [step] at less
    obtain ⟨before, rfl⟩ : ∃ before, significand = before + 1 := by
      cases significand with
      | zero => exact absurd whole (by omega)
      | succ before => exact ⟨before, rfl⟩
    rw [Nat.add_one_mul before] at step narrow' low less
    rcases Nat.eq_zero_or_pos shift with zero | spaced
    · have space : spacing (numerator / denominator) = shift := by
        subst zero
        rw [Nat.pow_zero, Nat.mul_one] at narrow' less
        exact spacing_small ((Nat.div_lt_iff_lt_mul some).mpr (by omega))
      rw [nearest_up before space (by omega) (by omega), whole]
    by_cases least : before + 1 = 2 ^ 52
    -- Below a power of two the spacing is half as large.
    · obtain ⟨half, rfl⟩ : ∃ half, shift = half + 1 := ⟨shift - 1, by omega⟩
      have whole' : units = 2 ^ (52 + (half + 1)) := by
        rw [whole, least, ← Nat.pow_add]
      have doubled : denominator * 2 ^ (half + 1) = 2 * (denominator * 2 ^ half) := by
        rw [Nat.pow_succ, ← Nat.mul_assoc, Nat.mul_comm _ 2]
      have split : before * (denominator * 2 ^ (half + 1)) + denominator * 2 ^ (half + 1) =
          2 ^ 53 * (denominator * 2 ^ half) := by
        rw [← Nat.add_one_mul, least, doubled, ← Nat.mul_assoc, ← Nat.pow_succ]
      have close := power whole'
      rw [Nat.mul_assoc, step, split, Nat.mul_comm (2 ^ (half + 1)), doubled] at close
      rw [split] at less
      have space : spacing (numerator / denominator) = half :=
        spacing_of_steps some (by omega) less
      have up := nearest_up (2 ^ 53 - 1) space (by omega) (by omega)
      rw [up, Nat.sub_add_cancel Nat.one_le_two_pow, whole', ← Nat.pow_add]
      congr 1
      omega
    · have space : spacing (numerator / denominator) = shift := by
        have wide : 2 ^ 52 ≤ before := by
          have least' := full spaced
          omega
        have wide' := Nat.mul_le_mul_right (denominator * 2 ^ shift) wide
        exact spacing_of_steps some (by omega) (by omega)
      rw [nearest_up before space (by omega) (by omega), whole]
  · rw [step] at more
    have space : spacing (numerator / denominator) = shift := by
      rcases Nat.eq_zero_or_pos shift with zero | spaced
      · subst zero
        rw [Nat.pow_zero, Nat.mul_one] at narrow' high
        exact spacing_small ((Nat.div_lt_iff_lt_mul some).mpr (by omega))
      · have wide := Nat.mul_le_mul_right (denominator * 2 ^ shift) (full spaced)
        exact spacing_of_steps some (by omega) (by omega)
    rw [nearest_down significand space more high, whole]

/-- Nothing is nearest to nothing. -/
theorem nearest_zero (some : 0 < denominator) : nearest 0 denominator = 0 := by
  unfold nearest
  simp [spacing, some]

/-- A double is not changed. -/
theorem nearest_exact (fit : fits units = true) (some : 0 < denominator) :
    nearest (units * denominator) denominator = units := by
  rcases Nat.eq_zero_or_pos units with zero | positive
  · rw [zero, Nat.zero_mul, nearest_zero some]
  · have step : 0 < 2 ^ spacing units * denominator := Nat.mul_pos (Nat.two_pow_pos _) some
    refine nearest_close fit positive some ?_ ?_ fun _ => ?_
    · linarith
    · linarith
    · linarith

/-! ## Seventeen digits -/

/-- The seventeenth digit is worth less than what is between two doubles. -/
theorem step_small (positive : 0 < units) :
    10 ^ 16 * (one * 10 ^ (top units - 16)) ≤ units * 10 ^ places := by
  have some_scaled : units * 10 ^ places / one ≠ 0 :=
    Nat.ne_of_gt (lt_of_lt_of_le (Nat.pow_pos (by decide)) (scaled_large positive))
  have below : 10 ^ top units ≤ units * 10 ^ places / one := Nat.pow_log_le_self 10 some_scaled
  have power : 10 ^ 16 * 10 ^ (top units - 16) = 10 ^ top units := by
    rw [← Nat.pow_add, Nat.add_sub_cancel' (top_large positive)]
  calc 10 ^ 16 * (one * 10 ^ (top units - 16))
      = 10 ^ top units * one := by rw [Nat.mul_left_comm, power, Nat.mul_comm]
    _ ≤ units * 10 ^ places := (Nat.le_div_iff_mul_le one_pos).mp below

/-- Digits that are off by half of the seventeenth at most are read back. -/
theorem reads_of_close (fit : fits units = true) (positive : 0 < units) {digits : Nat}
    (above : 2 * (digits * (one * 10 ^ (top units - 16))) ≤
      2 * (units * 10 ^ places) + one * 10 ^ (top units - 16))
    (below : 2 * (units * 10 ^ places) ≤
      2 * (digits * (one * 10 ^ (top units - 16))) + one * 10 ^ (top units - 16)) :
    reads digits (top units - 16) units = true := by
  obtain ⟨significand, whole, narrow, _⟩ := fits_significand fit
  have small := step_small positive
  have some_scale : 0 < 10 ^ places := Nat.pow_pos (by decide)
  have same : digits * 10 ^ (top units - 16) * one = digits * (one * 10 ^ (top units - 16)) := by
    rw [Nat.mul_assoc, Nat.mul_comm (10 ^ _)]
  unfold reads
  rw [same, decide_eq_true_iff]
  generalize one * 10 ^ (top units - 16) = step at *
  generalize 10 ^ places = scale at *
  have wide : units * scale < 2 ^ 53 * (2 ^ spacing units * scale) := by
    calc units * scale = significand * (2 ^ spacing units * scale) := by
          rw [← Nat.mul_assoc, ← whole]
      _ < 2 ^ 53 * (2 ^ spacing units * scale) :=
          Nat.mul_lt_mul_of_pos_right narrow (Nat.mul_pos (Nat.two_pow_pos _) some_scale)
  refine nearest_close fit positive some_scale ?_ ?_ ?_
  · linarith
  · linarith
  · intro power
    have least : units * scale = 2 ^ 52 * (2 ^ spacing units * scale) := by
      rw [← Nat.mul_assoc, ← Nat.pow_add, ← power]
    have some_spacing : 0 < 2 ^ spacing units * scale :=
      Nat.mul_pos (Nat.two_pow_pos _) some_scale
    linarith

/-- Digits are a candidate only where they are read as the number. -/
theorem candidate_reads {count digits place : Nat}
    (found : candidate units count = some (digits, place)) : reads digits place units = true := by
  unfold candidate at found
  simp only at found
  split at found
  next first =>
    cases found
    exact (Bool.and_eq_true_iff.mp first).1
  next =>
    split at found
    next second =>
      cases found
      exact second
    next => cases found

/-- One of the two multiples next to a number is off by half a step at most. -/
theorem half_step (total : Nat) {step : Nat} (some : 0 < step) :
    (2 * (total % step) ≤ step → 2 * (total / step * step) ≤ 2 * total + step ∧
      2 * total ≤ 2 * (total / step * step) + step) ∧
    (¬2 * (total % step) ≤ step → 2 * ((total / step + 1) * step) ≤ 2 * total + step ∧
      2 * total ≤ 2 * ((total / step + 1) * step) + step) := by
  have whole := Nat.div_add_mod total step
  have small := Nat.mod_lt total some
  have next : (total / step + 1) * step = total / step * step + step := Nat.succ_mul _ _
  rw [Nat.mul_comm] at whole
  rw [next]
  generalize total / step * step = low at *
  omega

/-- Seventeen digits are enough. -/
theorem candidate_enough (fit : fits units = true) (positive : 0 < units) :
    candidate units maxDigits ≠ none := by
  intro missing
  have some_step : 0 < one * 10 ^ (top units - 16) :=
    Nat.mul_pos one_pos (Nat.pow_pos (by decide))
  obtain ⟨low, high⟩ := half_step (units * 10 ^ places) some_step
  have place : maxDigits - 1 = 16 := rfl
  unfold candidate at missing
  simp only [place] at missing
  split at missing
  next => cases missing
  next neither =>
    split at missing
    next => cases missing
    next failed =>
      by_cases near : 2 * (units * 10 ^ places % (one * 10 ^ (top units - 16))) ≤
          one * 10 ^ (top units - 16)
      · have read := reads_of_close fit positive (low near).1 (low near).2
        rw [read, Bool.eq_false_iff.mpr failed] at neither
        exact neither rfl
      · exact failed (reads_of_close fit positive (high near).1 (high near).2)

/-- Digits that end in zeros are read as before once these are carried into the place. -/
theorem carried_reads {count : Nat} {found : Nat × Nat}
    (read : reads found.1 found.2 units = true) :
    reads (carried count found).1 (carried count found).2 units = true := by
  obtain ⟨digits, place⟩ := found
  rw [carried]
  by_cases carry : digits = 10 ^ count
  · rw [if_pos carry]
    unfold reads at read ⊢
    rw [carry] at read
    rw [Nat.one_mul, Nat.pow_add, Nat.mul_comm (10 ^ place)]
    exact read
  · rw [if_neg carry]
    exact read

/-- The search for the fewest digits ends with digits that are read as the number, since so many
always are. -/
theorem shortestFrom_reads (fit : fits units = true) (positive : 0 < units) {more count : Nat}
    (few : count + more = maxDigits) :
    reads (shortestFrom units more count).1 (shortestFrom units more count).2 units = true := by
  induction more generalizing count with
  | zero =>
      cases is : candidate units count with
      | some found =>
          rw [shortestFrom, is, Option.map_some, Option.getD_some]
          exact carried_reads (candidate_reads is)
      | none =>
          rw [Nat.add_zero] at few
          rw [few] at is
          exact (candidate_enough fit positive is).elim
  | succ more ih =>
      cases is : candidate units count with
      | some found =>
          rw [shortestFrom, is, Option.map_some, Option.getD_some]
          exact carried_reads (candidate_reads is)
      | none =>
          rw [shortestFrom, is, Option.map_none, Option.getD_none]
          exact ih (by omega)

/-- **The digits that a double is written with are read back.** -/
theorem shortest_reads (fit : fits units = true) (positive : 0 < units) :
    nearest ((shortest units).1 * 10 ^ (shortest units).2 * one) (10 ^ places) = units :=
  decide_eq_true_iff.mp (shortestFrom_reads fit positive rfl)

/-! ## What is rounded fits -/

/-- A significand of at most fifty-three bits fits at every place in range. -/
theorem fits_scaled {significand bits : Nat} (narrow : significand ≤ 2 ^ 53) (small : bits < maxSpacing) :
    fits (significand * 2 ^ bits) = true := by
  have within : spacing (significand * 2 ^ bits) ≤ bits ∨
      significand = 2 ^ 53 ∧ spacing (significand * 2 ^ bits) = bits + 1 := by
    rcases Nat.lt_or_ge significand (2 ^ 53) with less | more
    · refine .inl ?_
      rcases Nat.eq_zero_or_pos (significand * 2 ^ bits) with zero | positive
      · rw [zero]
        exact Nat.zero_le _
      · have below : significand * 2 ^ bits < 2 ^ (53 + bits) := by
          rw [Nat.pow_add]
          exact Nat.mul_lt_mul_of_pos_right less (Nat.two_pow_pos _)
        have log := (Nat.log2_lt (Nat.ne_of_gt positive)).mpr below
        unfold spacing
        omega
    · have same : significand = 2 ^ 53 := Nat.le_antisymm narrow more
      refine .inr ⟨same, ?_⟩
      rw [same, ← Nat.pow_add, spacing, Nat.log2_two_pow]
      omega
  unfold fits
  rw [Bool.and_eq_true, decide_eq_true_iff, decide_eq_true_iff]
  rcases within with less | ⟨same, more⟩
  · exact ⟨Nat.mod_eq_zero_of_dvd (Dvd.dvd.mul_left (Nat.pow_dvd_pow 2 less) _),
      Nat.le_of_lt (lt_of_le_of_lt less small)⟩
  · refine ⟨Nat.mod_eq_zero_of_dvd ?_, by rw [more]; exact small⟩
    rw [more, same, ← Nat.pow_add]
    exact Nat.pow_dvd_pow 2 (by omega)

/-- A number that is not too large is rounded to a double. -/
theorem fits_nearest {bits : Nat} (small : numerator / denominator < 2 ^ (52 + bits))
    (room : bits < maxSpacing) : fits (nearest numerator denominator) = true := by
  have shift_small : spacing (numerator / denominator) ≤ bits := by
    rcases Nat.eq_zero_or_pos (numerator / denominator) with zero | positive
    · rw [zero]
      exact Nat.zero_le _
    · have log := (Nat.log2_lt (Nat.ne_of_gt positive)).mpr small
      unfold spacing
      omega
  have low : numerator / (denominator * 2 ^ spacing (numerator / denominator)) < 2 ^ 53 := by
    rw [← Nat.div_div_eq_div_mul, Nat.div_lt_iff_lt_mul (Nat.two_pow_pos _), ← Nat.pow_add]
    exact lt_of_lt_of_le Nat.lt_log2_self
      (Nat.pow_le_pow_right (by decide) (by unfold spacing; omega))
  have narrow : spacing (numerator / denominator) < maxSpacing := lt_of_le_of_lt shift_small room
  unfold nearest
  simp only
  split
  · exact fits_scaled (Nat.le_of_lt low) narrow
  · exact fits_scaled low narrow

/-- Rounding does not do more than double a number. -/
theorem nearest_le (numerator denominator : Nat) : nearest numerator denominator ≤ 2 * (numerator / denominator) + 1 := by
  have quotient : numerator / (denominator * 2 ^ spacing (numerator / denominator)) *
      2 ^ spacing (numerator / denominator) ≤ numerator / denominator := by
    rw [← Nat.div_div_eq_div_mul]
    exact Nat.div_mul_le_self _ _
  have power : 2 ^ spacing (numerator / denominator) ≤ numerator / denominator + 1 := by
    rcases Nat.eq_zero_or_pos (numerator / denominator) with zero | positive
    · rw [zero]
      decide
    · refine Nat.le_succ_of_le (le_trans ?_ (Nat.log2_self_le (Nat.ne_of_gt positive)))
      exact Nat.pow_le_pow_right (by decide) (Nat.sub_le _ _)
  unfold nearest
  simp only
  split
  · omega
  · rw [Nat.succ_mul]
    omega

end Foundation.Binary64
