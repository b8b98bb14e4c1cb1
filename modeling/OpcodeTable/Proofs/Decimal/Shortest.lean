import Mathlib
import OpcodeTable.Decimal.Shortest

/-!
# Seventeen digits are enough

Every finite floating point number has a decimal of at most seventeen digits that rounds to it. The
seventeenth digit counts in steps that are smaller than the gap between the numbers, so one of the
two neighbours of the number on this grid lies within its bounds. The search for the shortest
decimal therefore finds one; it rounds to the number, and no coarser grid has one that does.
-/

namespace OpcodeTable.Decimal

theorem scale_pos {base : Nat} (h : 0 < base) (exponent : Int) : 0 < scale base exponent :=
  Nat.pow_pos h

/-- Three binary digits hold less than a decimal one. -/
theorem scale_two_le {exponent places : Int} (h : exponent ≤ 3 * places) :
    scale 2 exponent ≤ scale 10 places :=
  calc scale 2 exponent ≤ 2 ^ (3 * places.toNat) := Nat.pow_le_pow_right (by decide) (by omega)
    _ = (2 ^ 3) ^ places.toNat := Nat.pow_mul 2 3 _
    _ ≤ 10 ^ places.toNat := Nat.pow_le_pow_left (by decide) _

/-- The two powers of opposite exponents, one of which is one. -/
theorem cast_scale_neg {base : Nat} (h : 0 < base) (exponent : Int) :
    (scale base (-exponent) : ℚ) = scale base exponent * (base : ℚ) ^ (-exponent) := by
  have hbase : (base : ℚ) ≠ 0 := by exact_mod_cast h.ne'
  rcases Int.le_total 0 exponent with hle | hle
  · obtain ⟨k, rfl⟩ := Int.eq_ofNat_of_zero_le hle
    simp [scale, hbase]
  · obtain ⟨k, hk⟩ := Int.eq_ofNat_of_zero_le (Int.neg_nonneg_of_nonpos hle)
    obtain rfl : exponent = -k := by omega
    simp [scale]

/-- A search through a range finds the first number that gives something. -/
theorem findSome?_range_eq_some {α : Type} {f : Nat → Option α} {k : Nat} {a : α}
    (h : (List.range k).findSome? f = some a) : ∃ i < k, f i = some a ∧ ∀ j < i, f j = none := by
  obtain ⟨front, i, rest, hrange, hi, hnone⟩ := List.findSome?_eq_some_iff.mp h
  have hmem : ∀ j, j < k ↔ j ∈ front ++ i :: rest := by simp [← hrange]
  have hsorted : (front ++ i :: rest).Pairwise (· < ·) := hrange ▸ List.pairwise_lt_range
  have hik : i < k := (hmem i).mpr (by simp)
  refine ⟨i, hik, hi, fun j hj => ?_⟩
  rcases List.mem_append.mp ((hmem j).mp (hj.trans hik)) with hfront | hrest
  · exact hnone j hfront
  · rcases List.mem_cons.mp hrest with rfl | hrest
    · exact absurd hj (Nat.lt_irrefl j)
    · have hlt := List.rel_of_pairwise_cons (List.pairwise_append.mp hsorted).2.1 hrest
      exact absurd hj hlt.not_gt

namespace Neighbourhood

variable {n : Neighbourhood} {digits : Nat} {places : Int}

/-- The real that a numerator stands for. -/
def ratio (n : Neighbourhood) (numerator : Nat) : ℚ :=
  numerator / n.denominator

/-- The real that a decimal stands for. -/
def denoted (digits : Nat) (places : Int) : ℚ :=
  digits * 10 ^ (-places)

/-- Reals and decimals are compared after they are multiplied by this factor. -/
theorem exists_factor (hden : 0 < n.denominator) (places : Int) :
    ∃ c : ℚ, 0 < c ∧ (∀ k : Nat, ((k * scale 10 places : Nat) : ℚ) = c * n.ratio k) ∧
      ∀ digits : Nat, ((digits * n.denominator * scale 10 (-places) : Nat) : ℚ) =
        c * denoted digits places := by
  have hden' : (0 : ℚ) < n.denominator := by exact_mod_cast hden
  have hscale : (0 : ℚ) < scale 10 places := by exact_mod_cast scale_pos (by decide) places
  refine ⟨n.denominator * scale 10 places, mul_pos hden' hscale, fun k => ?_, fun digits => ?_⟩
  · rw [ratio, Nat.cast_mul]
    field_simp
  · rw [denoted, Nat.cast_mul, Nat.cast_mul, cast_scale_neg (by decide)]
    push_cast
    ring

/-- A real rounds to the number when it lies between the bounds, or on one of them if they belong
to the number. -/
def Rounds (n : Neighbourhood) (x : ℚ) : Prop :=
  (n.ratio n.low < x ∧ x < n.ratio n.high) ∨
    n.closed = true ∧ (x = n.ratio n.low ∨ x = n.ratio n.high)

theorem holds_iff (hden : 0 < n.denominator) :
    n.holds digits places = true ↔ n.Rounds (denoted digits places) := by
  obtain ⟨c, hc, hratio, hdenoted⟩ := exists_factor hden places
  simp only [Rounds, holds, Bool.or_eq_true, Bool.and_eq_true, decide_eq_true_eq, beq_iff_eq,
    ← Nat.cast_lt (α := ℚ), ← Nat.cast_inj (R := ℚ), hratio, hdenoted, mul_lt_mul_iff_right₀ hc,
    mul_right_inj' hc.ne']

/-- A zero at the end of a decimal changes nothing. -/
theorem denoted_div_ten (h : digits % 10 = 0) :
    denoted (digits / 10) (places - 1) = denoted digits places := by
  obtain ⟨k, rfl⟩ := Nat.dvd_of_mod_eq_zero h
  rw [denoted, denoted, Nat.mul_div_cancel_left _ (by decide), neg_sub, sub_eq_neg_add,
    zpow_add₀ (by norm_num)]
  push_cast
  ring

theorem denoted_le_denoted {digits' : Nat} (h : digits ≤ digits') :
    denoted digits places ≤ denoted digits' places :=
  mul_le_mul_of_nonneg_right (by exact_mod_cast h) (by positivity)

/-- The number lies between its bounds. -/
structure Proper (n : Neighbourhood) : Prop where
  denominator_pos : 0 < n.denominator
  low_lt : n.low < n.value
  lt_high : n.value < n.high

theorem Proper.ratio_low_lt (h : n.Proper) : n.ratio n.low < n.ratio n.value :=
  div_lt_div_of_pos_right (by exact_mod_cast h.low_lt) (by exact_mod_cast h.denominator_pos)

theorem Proper.lt_ratio_high (h : n.Proper) : n.ratio n.value < n.ratio n.high :=
  div_lt_div_of_pos_right (by exact_mod_cast h.lt_high) (by exact_mod_cast h.denominator_pos)

/-- What lies between the number and a real that rounds to it rounds to it as well. -/
theorem Proper.rounds_of_between (h : n.Proper) {x y : ℚ} (hx : n.Rounds x)
    (hy : x ≤ y ∧ y ≤ n.ratio n.value ∨ n.ratio n.value ≤ y ∧ y ≤ x) : n.Rounds y := by
  have hlow := h.ratio_low_lt
  have hhigh := h.lt_ratio_high
  rcases hx with ⟨hx, hx'⟩ | ⟨hclosed, rfl | rfl⟩
  · left
    constructor <;> rcases hy with hy | hy <;> linarith
  · rcases hy with ⟨hle, hy⟩ | ⟨hy, hle⟩
    · rcases hle.eq_or_lt with rfl | hlt
      · exact .inr ⟨hclosed, .inl rfl⟩
      · exact .inl ⟨hlt, by linarith⟩
    · linarith
  · rcases hy with ⟨hle, hy⟩ | ⟨hy, hle⟩
    · linarith
    · rcases hle.eq_or_lt with rfl | hlt
      · exact .inr ⟨hclosed, .inr rfl⟩
      · exact .inl ⟨by linarith, hlt⟩

/-! ## The two neighbours on a grid -/

/-- The greatest decimal with this many places that is not above the number. -/
def below (n : Neighbourhood) (places : Int) : Nat :=
  n.value * scale 10 places / (n.denominator * scale 10 (-places))

theorem denoted_below_le (hden : 0 < n.denominator) :
    denoted (n.below places) places ≤ n.ratio n.value := by
  obtain ⟨c, hc, hratio, hdenoted⟩ := exists_factor hden places
  rw [← mul_le_mul_iff_right₀ hc, ← hratio, ← hdenoted, Nat.cast_le, Nat.mul_assoc]
  exact Nat.div_mul_le_self _ _

theorem lt_denoted_below_succ (hden : 0 < n.denominator) :
    n.ratio n.value < denoted (n.below places + 1) places := by
  obtain ⟨c, hc, hratio, hdenoted⟩ := exists_factor hden places
  have hunit : 0 < n.denominator * scale 10 (-places) :=
    Nat.mul_pos hden (scale_pos (by decide) _)
  rw [← mul_lt_mul_iff_right₀ hc, ← hratio, ← hdenoted, Nat.cast_lt, Nat.mul_assoc, Nat.mul_comm _
    (n.denominator * scale 10 (-places))]
  exact Nat.lt_mul_div_succ _ hunit

/-- One of the neighbours is between the bounds when these are further apart than the grid. -/
theorem Proper.holds_below (h : n.Proper) (hgap : 10 ^ (-places) < n.ratio n.high - n.ratio n.low) :
    n.holds (n.below places) places = true ∨ n.holds (n.below places + 1) places = true := by
  have hle : denoted (n.below places) places ≤ n.ratio n.value :=
    denoted_below_le h.denominator_pos
  have hlt : n.ratio n.value < denoted (n.below places + 1) places :=
    lt_denoted_below_succ h.denominator_pos
  have hlow := h.ratio_low_lt
  have hhigh := h.lt_ratio_high
  have hstep : denoted (n.below places + 1) places = denoted (n.below places) places +
      10 ^ (-places) := by
    rw [denoted, denoted]
    push_cast
    ring
  rw [holds_iff h.denominator_pos, holds_iff h.denominator_pos]
  by_cases hin : n.ratio n.low < denoted (n.below places) places
  · exact .inl (.inl ⟨hin, by linarith⟩)
  · exact .inr (.inl ⟨by linarith, by linarith⟩)

/-- One of the neighbours rounds to the number if any decimal of the grid does. -/
theorem Proper.holds_below_of_holds (h : n.Proper) (hholds : n.holds digits places = true) :
    n.holds (n.below places) places = true ∨ n.holds (n.below places + 1) places = true := by
  rw [holds_iff h.denominator_pos] at hholds
  rcases Nat.lt_or_ge (n.below places) digits with hdigits | hdigits
  · right
    rw [holds_iff h.denominator_pos]
    exact h.rounds_of_between hholds
      (.inr ⟨(lt_denoted_below_succ h.denominator_pos).le, denoted_le_denoted hdigits⟩)
  · left
    rw [holds_iff h.denominator_pos]
    exact h.rounds_of_between hholds
      (.inl ⟨denoted_le_denoted hdigits, denoted_below_le h.denominator_pos⟩)

theorem atPlaces?_eq_some {result : Nat × Int} (h : n.atPlaces? places = some result) :
    result.2 = places ∧ n.holds result.1 places = true := by
  unfold atPlaces? at h
  dsimp only at h
  split at h
  · obtain rfl := Option.some.inj h
    refine ⟨rfl, ?_⟩
    dsimp only
    split <;> assumption
  · obtain rfl := Option.some.inj h
    exact ⟨rfl, ‹_›⟩
  · obtain rfl := Option.some.inj h
    exact ⟨rfl, ‹_›⟩
  · cases h

theorem exists_atPlaces?_eq_some (h : n.holds (n.below places) places = true ∨
    n.holds (n.below places + 1) places = true) : ∃ result, n.atPlaces? places = some result := by
  unfold atPlaces?
  dsimp only
  rw [← below]
  rcases h with h | h
  · rw [h]
    cases n.holds (n.below places + 1) places <;> exact ⟨_, rfl⟩
  · rw [h]
    cases n.holds (n.below places) places <;> exact ⟨_, rfl⟩

/-! ## The search -/

/-- The power of ten is not above the number, unless the number is too small for the search. -/
theorem zpow_magnitude_le (hden : 0 < n.denominator)
    (hsmall : n.denominator ≤ n.value * scale 10 399) :
    (10 : ℚ) ^ n.magnitude ≤ n.ratio n.value := by
  have hden' : (0 : ℚ) < n.denominator := by exact_mod_cast hden
  rw [ratio, le_div_iff₀ hden', magnitude]
  split
  · next hle =>
    have hquotient : 0 < n.value / n.denominator := Nat.div_pos hle hden
    obtain ⟨k, hk⟩ : ∃ k, (Nat.toDigits 10 (n.value / n.denominator)).length = k + 1 :=
      Nat.exists_eq_succ_of_ne_zero (by simp [Nat.toDigits_ne_nil])
    have hpow : 10 ^ k ≤ n.value / n.denominator := by
      by_contra hlt
      rcases Nat.eq_zero_or_pos k with rfl | hpos
      · omega
      · have hlength := Nat.toDigits_length 10 _ k hpos (not_le.mp hlt)
        omega
    rw [hk]
    push_cast
    rw [add_sub_cancel_right, zpow_natCast]
    exact_mod_cast (Nat.le_div_iff_mul_le hden).mp hpow
  · obtain ⟨k, hk⟩ : ∃ k, (List.range 400).find?
        (fun k : Nat => n.denominator ≤ n.value * scale 10 k) = some k := by
      rw [← Option.isSome_iff_exists, List.find?_isSome]
      exact ⟨399, by simp, by simpa using hsmall⟩
    have hle : n.denominator ≤ n.value * scale 10 k := by simpa using List.find?_some hk
    rw [hk, Option.getD_some, zpow_neg, zpow_natCast, inv_mul_le_iff₀ (by positivity)]
    have hscale : scale 10 k = 10 ^ k := rfl
    rw [hscale, Nat.mul_comm] at hle
    exact_mod_cast hle

/-- What the search needs of a number: it is not too small, and the gap between its bounds is more
than a part in ten to the sixteenth. -/
structure Precise (n : Neighbourhood) : Prop extends Proper n where
  denominator_le : n.denominator ≤ n.value * scale 10 399
  value_lt_gap : n.value + 10 ^ 16 * n.low < 10 ^ 16 * n.high

/-- Seventeen digits are closer together than the bounds. -/
theorem Precise.zpow_lt_gap (h : n.Precise) :
    (10 : ℚ) ^ (-(16 - n.magnitude)) < n.ratio n.high - n.ratio n.low := by
  have hle := zpow_magnitude_le h.denominator_pos h.denominator_le
  have hgap : (n.value : ℚ) + 10 ^ 16 * n.low < 10 ^ 16 * n.high := by
    exact_mod_cast h.value_lt_gap
  have hlt : n.ratio n.value < (n.ratio n.high - n.ratio n.low) * 10 ^ 16 := by
    rw [ratio, ratio, ratio, ← sub_div, div_mul_eq_mul_div]
    exact div_lt_div_of_pos_right (by linarith) (by exact_mod_cast h.denominator_pos)
  rw [neg_sub, zpow_sub₀ (by norm_num), div_lt_iff₀ (by positivity)]
  exact hle.trans_lt (by exact_mod_cast hlt)

/-- One of the seventeen grids holds a decimal that rounds to the number. -/
theorem Precise.exists_findSome?_eq_some (h : n.Precise) : ∃ result,
    (List.range 17).findSome? (fun (i : Nat) => n.atPlaces? (i - n.magnitude)) = some result := by
  obtain ⟨result, hresult⟩ := exists_atPlaces?_eq_some (h.holds_below h.zpow_lt_gap)
  rw [← Option.isSome_iff_exists, List.findSome?_isSome_iff]
  exact ⟨16, by simp, by simp [hresult]⟩

/-- The search ends at the first grid that has such a decimal. -/
theorem Precise.exists_first_fit (h : n.Precise) : ∃ (i digits : Nat),
    n.holds digits (i - n.magnitude) = true ∧
    (∀ j < i, n.atPlaces? (j - n.magnitude) = none) ∧
    n.shortest = if digits % 10 = 0 then (digits / 10, i - n.magnitude - 1)
      else (digits, i - n.magnitude) := by
  obtain ⟨result, hresult⟩ := h.exists_findSome?_eq_some
  obtain ⟨i, -, hi, hnone⟩ := findSome?_range_eq_some hresult
  obtain ⟨hplaces, hholds⟩ := atPlaces?_eq_some hi
  refine ⟨i, result.1, hholds, hnone, ?_⟩
  rw [shortest, hresult, ← hplaces]
  rfl

/-- The decimal that is found rounds to the number. -/
theorem Precise.holds_shortest (h : n.Precise) :
    n.holds n.shortest.1 n.shortest.2 = true := by
  obtain ⟨i, digits, hholds, -, hshortest⟩ := h.exists_first_fit
  rw [hshortest]
  split
  · next hzero =>
    rwa [holds_iff h.denominator_pos, denoted_div_ten hzero, ← holds_iff h.denominator_pos]
  · exact hholds

/-- Down to the grid of the leading digit, no decimal with fewer places rounds to the number. -/
theorem Precise.shortest_places_le (h : n.Precise) (hplaces : -n.magnitude ≤ places)
    (hholds : n.holds digits places = true) : n.shortest.2 ≤ places := by
  obtain ⟨i, _, -, hnone, hshortest⟩ := h.exists_first_fit
  obtain ⟨j, rfl⟩ : ∃ j : Nat, places = j - n.magnitude :=
    ⟨(places + n.magnitude).toNat, by omega⟩
  have hij : i ≤ j := by
    by_contra hlt
    obtain ⟨result, hresult⟩ := exists_atPlaces?_eq_some (h.holds_below_of_holds hholds)
    cases hresult.symm.trans (hnone j (not_le.mp hlt))
  rw [hshortest]
  split <;> omega

/-! ## Floating point numbers -/

theorem ratio_mul_scale (mantissa : Nat) (exponent : Int) (narrow : Bool) (k : Nat) :
    (ofBinary mantissa exponent narrow).ratio (k * scale 2 (exponent - 2)) =
      k * 2 ^ (exponent - 2) := by
  have hscale : (scale 2 (exponent - 2) : ℚ) ≠ 0 := by
    exact_mod_cast (scale_pos (by decide) _).ne'
  have hden : ((ofBinary mantissa exponent narrow).denominator : ℚ) =
      scale 2 (exponent - 2) * 2 ^ (-(exponent - 2)) := by
    rw [ofBinary, ← neg_sub exponent 2, cast_scale_neg (by decide), Nat.cast_ofNat]
  rw [ratio, hden, Nat.cast_mul, zpow_neg]
  field_simp

/-- The value of the neighbourhood is the number itself. -/
theorem ratio_value (mantissa : Nat) (exponent : Int) (narrow : Bool) :
    (ofBinary mantissa exponent narrow).ratio (ofBinary mantissa exponent narrow).value =
      mantissa * 2 ^ exponent := by
  have hvalue : (ofBinary mantissa exponent narrow).value =
      4 * mantissa * scale 2 (exponent - 2) := rfl
  rw [hvalue, ratio_mul_scale, zpow_sub₀ (by norm_num)]
  push_cast
  ring

/-- A mantissa of 64-bit floating point numbers. The gap below it is narrow only if it is the least
one of full length. -/
structure IsMantissa (mantissa : Nat) (narrow : Bool) : Prop where
  pos : 0 < mantissa
  lt : mantissa < 2 ^ 53
  le_of_narrow : narrow = true → mantissa ≤ 2 ^ 52

theorem IsMantissa.lt_gap {mantissa : Nat} {narrow : Bool} (h : IsMantissa mantissa narrow) :
    4 * mantissa + 10 ^ 16 * (4 * mantissa - if narrow then 1 else 2) <
      10 ^ 16 * (4 * mantissa + 2) := by
  have hpos := h.pos
  have hlt := h.lt
  cases narrow with
  | false =>
    simp only [Bool.false_eq_true, if_false]
    omega
  | true =>
    have hle := h.le_of_narrow rfl
    simp only [if_true]
    omega

/-- The least exponent is that of the smallest positive number. -/
theorem precise_ofBinary {mantissa : Nat} {exponent : Int} {narrow : Bool}
    (h : IsMantissa mantissa narrow) (hleast : -1074 ≤ exponent) :
    (ofBinary mantissa exponent narrow).Precise := by
  have hscale : 0 < scale 2 (exponent - 2) := scale_pos (by decide) _
  have hpos := h.pos
  have hlow : (ofBinary mantissa exponent narrow).low <
      (ofBinary mantissa exponent narrow).value := by
    refine Nat.mul_lt_mul_of_pos_right ?_ hscale
    split <;> omega
  refine ⟨⟨scale_pos (by decide) _, hlow, ?_⟩, ?_, ?_⟩
  · exact Nat.mul_lt_mul_of_pos_right (by omega) hscale
  · calc scale 2 (2 - exponent) ≤ scale 10 399 := scale_two_le (by omega)
      _ = 1 * scale 10 399 := (Nat.one_mul _).symm
      _ ≤ _ := Nat.mul_le_mul_right _ (Nat.one_le_of_lt hlow)
  · calc _ = (4 * mantissa + 10 ^ 16 * (4 * mantissa - if narrow then 1 else 2)) *
          scale 2 (exponent - 2) := by simp only [ofBinary]; ring
      _ < 10 ^ 16 * (4 * mantissa + 2) * scale 2 (exponent - 2) :=
        Nat.mul_lt_mul_of_pos_right h.lt_gap hscale
      _ = _ := by simp only [ofBinary]; ring

/-- Subnormal and normal numbers alike, so their shortest decimals are found. -/
theorem precise_ofFields {field fraction : Nat} (hzero : ¬(field = 0 ∧ fraction = 0))
    (hlt : fraction < scale 2 52) : (ofFields field fraction).Precise := by
  have hscale : scale 2 52 = 2 ^ 52 := rfl
  rw [hscale] at hlt
  unfold ofFields
  split
  · next hfield => exact precise_ofBinary ⟨by omega, by omega, by simp⟩ (Int.le_refl _)
  · next hfield =>
    refine precise_ofBinary ⟨?_, ?_, fun hnarrow => ?_⟩ (by omega)
    · exact Nat.add_pos_left (scale_pos (by decide) _) _
    · rw [hscale]
      omega
    · obtain ⟨hfraction, -⟩ : fraction = 0 ∧ 1 < field := by simpa using hnarrow
      rw [hscale, hfraction, Nat.add_zero]

end Neighbourhood

end OpcodeTable.Decimal
