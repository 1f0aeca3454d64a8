import Mathlib
import SchemaDrift.Number.Binary64

/-!
Double precision numbers as the numbers nearest to others. A magnitude has one significand and exponent,
so nearness decides the double, a tie goes to the even significand, and what would need a greater
exponent is infinite. A quotient is rounded to the double nearest to it.
-/

namespace SchemaDrift.Binary64

/-! ### Significands and exponents -/

/-- The number with the significand `m` and the exponent `e`. -/
def scaled (m : ℕ) (e : ℤ) : ℚ := m * 2 ^ e

/-- A significand uses all its bits, unless its exponent is the least. Exponents have no bound above
here. -/
structure Normal (m : ℕ) (e : ℤ) : Prop where
  bits : m < 2 ^ 53
  least : minExponent ≤ e
  full : 2 ^ 52 ≤ m ∨ e = minExponent

section

variable {m m' : ℕ} {e e' : ℤ} {q : ℚ}

lemma scaled_nonneg (m : ℕ) (e : ℤ) : 0 ≤ scaled m e := by
  unfold scaled
  positivity

lemma scaled_eq_of_le (h : e ≤ e') (m' : ℕ) : scaled m' e' = scaled (m' * 2 ^ (e' - e).toNat) e := by
  have hpow : (2 : ℚ) ^ e' = 2 ^ (e' - e).toNat * 2 ^ e := by
    rw [← zpow_natCast, ← zpow_add₀ (by norm_num), Int.toNat_of_nonneg (by omega), sub_add_cancel]
  rw [scaled, scaled, hpow]
  push_cast
  ring

lemma scaled_lt_scaled : scaled m e < scaled m' e ↔ m < m' := by
  have hunit : (0 : ℚ) < 2 ^ e := by positivity
  rw [scaled, scaled, mul_lt_mul_iff_of_pos_right hunit, Nat.cast_lt]

lemma scaled_le_scaled : scaled m e ≤ scaled m' e ↔ m ≤ m' := by
  rw [← not_lt, scaled_lt_scaled, not_lt]

lemma Normal.scaled_lt (h : Normal m' e') (hlt : e' < e) : scaled m' e' < scaled (2 ^ 52) e := by
  have hle : e' ≤ e - 1 := by omega
  calc scaled m' e' < scaled (2 ^ 53) e' := scaled_lt_scaled.2 h.bits
    _ ≤ scaled (2 ^ 53) (e - 1) := by
      unfold scaled
      gcongr
      norm_num
    _ = scaled (2 ^ 52) e := by
      rw [scaled_eq_of_le (show e - 1 ≤ e by omega)]
      norm_num

lemma Normal.full_of_lt (h : Normal m e) (h' : Normal m' e') (hlt : e' < e) : 2 ^ 52 ≤ m := by
  have hleast := h'.least
  exact h.full.resolve_right (by omega)

lemma Normal.eq_of_scaled_eq (h : Normal m e) (h' : Normal m' e') (heq : scaled m e = scaled m' e') :
    m = m' ∧ e = e' := by
  have hless {m m' : ℕ} {e e' : ℤ} (h : Normal m e) (h' : Normal m' e') (hlt : e' < e) :
      scaled m' e' < scaled m e :=
    (h'.scaled_lt hlt).trans_le (scaled_le_scaled.2 (h.full_of_lt h' hlt))
  rcases lt_trichotomy e e' with hlt | rfl | hlt
  · exact absurd heq (hless h' h hlt).ne
  · refine ⟨?_, rfl⟩
    by_contra hne
    rcases lt_or_gt_of_ne hne with hlt | hlt
    · exact absurd heq (scaled_lt_scaled.2 hlt).ne
    · exact absurd heq (scaled_lt_scaled.2 hlt).ne'
  · exact absurd heq (hless h h' hlt).ne'

lemma Normal.succ_le (h : Normal m e) (h' : Normal m' e') (hlt : scaled m e < scaled m' e') :
    scaled (m + 1) e ≤ scaled m' e' := by
  rcases lt_or_ge e' e with hexponent | hexponent
  · have hfull : scaled (2 ^ 52) e ≤ scaled m e := scaled_le_scaled.2 (h.full_of_lt h' hexponent)
    exact absurd hlt (not_lt.2 ((h'.scaled_lt hexponent).le.trans hfull))
  · rw [scaled_eq_of_le hexponent] at hlt ⊢
    exact scaled_le_scaled.2 (scaled_lt_scaled.1 hlt)

/-! ### The nearest number -/

/-- No number is nearer to `q`, and if another one is as near, the significand is even. -/
structure Nearest (q : ℚ) (m : ℕ) (e : ℤ) : Prop extends Normal m e where
  nearest : ∀ m' e', Normal m' e' → |q - scaled m e| ≤ |q - scaled m' e'|
  even : ∀ m' e', Normal m' e' → scaled m' e' ≠ scaled m e →
    |q - scaled m' e'| = |q - scaled m e| → Even m

/-- **One number is the nearest.** Of two that are as near the next to an even significand is odd. -/
theorem Nearest.unique (h : Nearest q m e) (h' : Nearest q m' e') : m = m' ∧ e = e' := by
  have hdistance : |q - scaled m e| = |q - scaled m' e'| :=
    le_antisymm (h.nearest _ _ h'.toNormal) (h'.nearest _ _ h.toNormal)
  by_cases heq : scaled m e = scaled m' e'
  · exact h.toNormal.eq_of_scaled_eq h'.toNormal heq
  exfalso
  wlog hlt : scaled m e < scaled m' e' generalizing m m' e e'
  · exact this h' h hdistance.symm (Ne.symm heq) (lt_of_le_of_ne (not_lt.1 hlt) (Ne.symm heq))
  have heven : Even m := h.even _ _ h'.toNormal (Ne.symm heq) hdistance.symm
  have heven' : Even m' := h'.even _ _ h.toNormal heq hdistance
  have hnext : Normal (m + 1) e := by
    refine ⟨?_, h.least, h.full.imp_left fun hfull => hfull.trans (Nat.le_succ m)⟩
    have hbits := h.bits
    have htop : Even (2 ^ 53) := by decide
    obtain ⟨a, rfl⟩ := heven
    obtain ⟨b, hb⟩ := htop
    omega
  rcases (h.toNormal.succ_le h'.toNormal hlt).lt_or_eq with hbetween | hsame
  · -- The next significand would be nearer than both.
    have hstep : scaled m e < scaled (m + 1) e := scaled_lt_scaled.2 (Nat.lt_succ_self m)
    have hmiddle : q - scaled m e = scaled m' e' - q := by
      rcases abs_eq_abs.1 hdistance with heq | heq <;> linarith
    have hnearest := h.nearest _ _ hnext
    rw [abs_of_nonneg (a := q - scaled m e) (by linarith)] at hnearest
    rcases abs_cases (q - scaled (m + 1) e) with ⟨habs, -⟩ | ⟨habs, -⟩ <;> linarith
  · obtain ⟨rfl, -⟩ := hnext.eq_of_scaled_eq h'.toNormal hsame
    obtain ⟨a, ha⟩ := heven
    obtain ⟨b, hb⟩ := heven'
    omega

end

/-! ### Rounding -/

/-- `m` is the whole number nearest to `x`, or the even one of two that are as near. -/
structure RoundsTo (x : ℚ) (m : ℕ) : Prop where
  near : 2 * |x - m| ≤ 1
  even : 2 * |x - m| = 1 → Even m

lemma roundsTo_div_iff {n d m : ℕ} (hd : 0 < d) : RoundsTo (n / d) m ↔
    |2 * (n : ℤ) - 2 * (d * m : ℕ)| ≤ d ∧ (|2 * (n : ℤ) - 2 * (d * m : ℕ)| = d → Even m) := by
  have hpos : (0 : ℚ) < d := by exact_mod_cast hd
  have htwice : 2 * |(n : ℚ) / d - m| = (|2 * (n : ℤ) - 2 * (d * m : ℕ)| : ℤ) / (d : ℕ) := by
    have hsub : (n : ℚ) / d - m = (2 * n - 2 * (d * m)) / (2 * d) := by field_simp
    rw [hsub, abs_div, abs_of_pos (a := 2 * (d : ℚ)) (by positivity)]
    push_cast
    field_simp
  have hnear : 2 * |(n : ℚ) / d - m| ≤ 1 ↔ |2 * (n : ℤ) - 2 * (d * m : ℕ)| ≤ d := by
    rw [htwice, div_le_one hpos]
    exact_mod_cast Iff.rfl
  have htie : 2 * |(n : ℚ) / d - m| = 1 ↔ |2 * (n : ℤ) - 2 * (d * m : ℕ)| = d := by
    rw [htwice, div_eq_one_iff_eq hpos.ne']
    exact_mod_cast Iff.rfl
  constructor
  · rintro ⟨h, heven⟩
    exact ⟨hnear.1 h, fun heq => heven (htie.2 heq)⟩
  · rintro ⟨h, heven⟩
    exact ⟨hnear.2 h, fun heq => heven (htie.1 heq)⟩

lemma roundsTo_roundEven (n : ℕ) {d : ℕ} (hd : 0 < d) : RoundsTo (n / d) (roundEven n d) := by
  have hquotient := Nat.div_add_mod n d
  have hless := Nat.mod_lt n hd
  have hbelow : |2 * (n : ℤ) - 2 * (d * (n / d) : ℕ)| = 2 * (n % d : ℕ) := by
    rw [abs_of_nonneg] <;> omega
  have habove : |2 * (n : ℤ) - 2 * (d * (n / d + 1) : ℕ)| = 2 * (d - (n % d : ℕ)) := by
    have hsucc : d * (n / d + 1) = d * (n / d) + d := by ring
    rw [abs_of_nonpos] <;> omega
  rw [roundsTo_div_iff hd, roundEven]
  split_ifs with hlow hhigh
  · exact ⟨by omega, fun h => by omega⟩
  · exact ⟨by omega, fun h => by omega⟩
  · -- a tie: the even neighbour
    rcases Nat.mod_two_eq_zero_or_one (n / d) with heven | hodd
    · rw [heven, Nat.add_zero]
      exact ⟨by omega, fun _ => Nat.even_iff.2 heven⟩
    · rw [hodd]
      exact ⟨by omega, fun _ => Nat.even_iff.2 (by omega)⟩

section

variable {q : ℚ} {m m' : ℕ} {e e' : ℤ}

lemma RoundsTo.le (h : RoundsTo (q / 2 ^ e) m) (k : ℕ) :
    |q - scaled m e| ≤ |q - scaled k e| ∧
      (|q - scaled k e| = |q - scaled m e| → k ≠ m → Even m) := by
  have hunit : (0 : ℚ) < 2 ^ e := by positivity
  have hdistance (k : ℕ) : |q - scaled k e| = |q / 2 ^ e - k| * 2 ^ e := by
    rw [← abs_of_pos hunit, ← abs_mul, abs_of_pos hunit, sub_mul, div_mul_cancel₀ _ hunit.ne', scaled]
  rw [hdistance, hdistance, mul_le_mul_iff_of_pos_right hunit, mul_left_inj' hunit.ne']
  by_cases hk : k = m
  · rw [hk]
    exact ⟨le_rfl, fun _ hne => absurd rfl hne⟩
  -- Two whole numbers are one apart at least.
  have hapart : (1 : ℚ) ≤ |q / 2 ^ e - m| + |q / 2 ^ e - k| := by
    have hone : (1 : ℚ) ≤ |(k : ℚ) - m| := by
      exact_mod_cast Int.one_le_abs (z := (k : ℤ) - m) (by omega)
    calc (1 : ℚ) ≤ |(k : ℚ) - m| := hone
      _ = |(q / 2 ^ e - m) - (q / 2 ^ e - k)| := by ring_nf
      _ ≤ _ := abs_sub _ _
  have hnear := h.near
  exact ⟨by linarith, fun heq _ => h.even (by linarith)⟩

/-- The exponent `e` is the one under which `q` has all bits, or the least. -/
structure Scales (q : ℚ) (e : ℤ) : Prop where
  least : minExponent ≤ e
  bits : q < scaled (2 ^ 53) e
  full : scaled (2 ^ 52) e ≤ q ∨ e = minExponent

lemma Scales.le (hscales : Scales q e) (h : RoundsTo (q / 2 ^ e) m) (h' : Normal m' e') :
    |q - scaled m e| ≤ |q - scaled m' e'| ∧ (scaled m' e' ≠ scaled m e →
      |q - scaled m' e'| = |q - scaled m e| → Even m) := by
  -- Numbers under a smaller exponent lie below all of those under `e`; the others are among these.
  rcases lt_or_ge e' e with hexponent | hexponent
  · have hleast := h'.least
    have hfull := hscales.full.resolve_right (by omega)
    have hless := h'.scaled_lt hexponent
    have hnear := (h.le (2 ^ 52)).1
    rw [abs_of_nonneg (a := q - scaled (2 ^ 52) e) (by linarith)] at hnear
    rw [abs_of_nonneg (a := q - scaled m' e') (by linarith)]
    exact ⟨by linarith, fun _ heq => by linarith⟩
  · rw [scaled_eq_of_le hexponent]
    obtain ⟨hle, heven⟩ := h.le (m' * 2 ^ (e' - e).toNat)
    exact ⟨hle, fun hne heq => heven heq fun hsame => hne (by rw [hsame])⟩

/-- Rounding under the right exponent gives the nearest number, which may need one exponent more. -/
lemma nearest_of_roundsTo (hscales : Scales q e) (h : RoundsTo (q / 2 ^ e) m) :
    if m = 2 ^ 53 then Nearest q (2 ^ 52) (e + 1) else Nearest q m e := by
  have hunit : (0 : ℚ) < 2 ^ e := by positivity
  have hnear := h.near
  obtain ⟨habove, hbelow⟩ := abs_le.1 (show |q / 2 ^ e - m| ≤ 1 / 2 by linarith)
  have hbits : m ≤ 2 ^ 53 := by
    have hupper : q / 2 ^ e < (2 ^ 53 : ℕ) := (div_lt_iff₀ hunit).2 hscales.bits
    have hlt : (m : ℚ) < (2 ^ 53 + 1 : ℕ) := by
      push_cast at hupper ⊢
      linarith
    exact Nat.lt_succ_iff.1 (by exact_mod_cast hlt)
  have hfull : 2 ^ 52 ≤ m ∨ e = minExponent := by
    refine hscales.full.imp_left fun hlow => ?_
    have hlower : (2 ^ 52 : ℕ) ≤ q / 2 ^ e := (le_div_iff₀ hunit).2 hlow
    have hlt : ((2 ^ 52 : ℕ) : ℚ) < (m + 1 : ℕ) := by
      push_cast at hlower ⊢
      linarith
    exact Nat.lt_succ_iff.1 (by exact_mod_cast hlt)
  split_ifs with htop
  · have hsame : scaled (2 ^ 52) (e + 1) = scaled m e := by
      rw [scaled_eq_of_le (show e ≤ e + 1 by omega), htop]
      norm_num
    have hleast := hscales.least
    refine ⟨⟨by norm_num, by omega, .inl le_rfl⟩, fun m' e' h' => ?_, fun _ _ _ _ _ => by decide⟩
    rw [hsame]
    exact (hscales.le h h').1
  · exact ⟨⟨by omega, hscales.least, hfull⟩, fun m' e' h' => (hscales.le h h').1,
      fun m' e' h' => (hscales.le h h').2⟩

end

/-! ### Quotients -/

section

variable {q : ℚ} {n d : ℕ}

lemma div_zpow (n d : ℕ) (e : ℤ) : (n : ℚ) / d / 2 ^ e = if 0 ≤ e then
    (n : ℚ) / (d <<< e.toNat : ℕ) else ((n <<< (-e).toNat : ℕ) : ℚ) / d := by
  split_ifs with he
  · obtain ⟨k, rfl⟩ := Int.eq_ofNat_of_zero_le he
    simp [Nat.shiftLeft_eq, div_div]
  · obtain ⟨k, hk⟩ := Int.eq_ofNat_of_zero_le (show 0 ≤ -e by omega)
    obtain rfl : e = -k := by omega
    simp [Nat.shiftLeft_eq, div_eq_mul_inv, mul_right_comm]

lemma log_eq {k : ℤ} (hlow : 2 ^ k ≤ q) (hhigh : q < 2 ^ (k + 1)) : Int.log 2 q = k := by
  have hq : 0 < q := lt_of_lt_of_le (by positivity) hlow
  have hle : k ≤ Int.log 2 q := (Int.zpow_le_iff_le_log (by decide) hq).1 (by exact_mod_cast hlow)
  have hlt : Int.log 2 q < k + 1 :=
    (Int.lt_zpow_iff_log_lt (by decide) hq).1 (by exact_mod_cast hhigh)
  omega

/-- The logarithms of two numbers leave two choices for that of their quotient. -/
lemma div_bounds (hn : 0 < n) (hd : 0 < d) :
    2 ^ ((n.log2 : ℤ) - d.log2 - 1) ≤ (n : ℚ) / d ∧
      (n : ℚ) / d < 2 ^ ((n.log2 : ℤ) - d.log2 + 1) := by
  have hpos : (0 : ℚ) < d := by exact_mod_cast hd
  have hnlow : ((2 ^ n.log2 : ℕ) : ℚ) ≤ n := by exact_mod_cast Nat.log2_self_le hn.ne'
  have hdlow : ((2 ^ d.log2 : ℕ) : ℚ) ≤ d := by exact_mod_cast Nat.log2_self_le hd.ne'
  have hnhigh : (n : ℚ) < (2 ^ (n.log2 + 1) : ℕ) := by exact_mod_cast Nat.lt_log2_self
  have hdhigh : (d : ℚ) < (2 ^ (d.log2 + 1) : ℕ) := by exact_mod_cast Nat.lt_log2_self
  push_cast at hnlow hdlow hnhigh hdhigh
  have hpow {i : ℤ} {j k : ℕ} (h : i + j = k) : (2 : ℚ) ^ i * 2 ^ j = 2 ^ k := by
    rw [← zpow_natCast, ← zpow_natCast, ← zpow_add₀ (by norm_num), h]
  rw [le_div_iff₀ hpos, div_lt_iff₀ hpos]
  constructor
  · calc _ ≤ (2 : ℚ) ^ ((n.log2 : ℤ) - d.log2 - 1) * 2 ^ (d.log2 + 1) := by gcongr
      _ = 2 ^ n.log2 := hpow (by push_cast; ring)
      _ ≤ n := hnlow
  · calc (n : ℚ) < 2 ^ (n.log2 + 1) := hnhigh
      _ = 2 ^ ((n.log2 : ℤ) - d.log2 + 1) * 2 ^ d.log2 := (hpow (by push_cast; ring)).symm
      _ ≤ _ := by gcongr

lemma floorLog_eq (hn : 0 < n) (hd : 0 < d) : floorLog n d = Int.log 2 ((n : ℚ) / d) := by
  obtain ⟨hlow, hhigh⟩ := div_bounds hn hd
  rw [floorLog]
  set k : ℤ := (n.log2 : ℤ) - d.log2
  have hreached : (if 0 ≤ k then d <<< k.toNat ≤ n else d ≤ n <<< (-k).toNat) ↔
      2 ^ k ≤ (n : ℚ) / d := by
    have hunit : (0 : ℚ) < 2 ^ k := by positivity
    rw [← one_le_div hunit, div_zpow]
    have hpos : (0 : ℚ) < d := by exact_mod_cast hd
    split_ifs
    · have hshift : (0 : ℚ) < (d <<< k.toNat : ℕ) := by
        rw [Nat.shiftLeft_eq]
        positivity
      rw [one_le_div hshift, Nat.cast_le]
    · rw [one_le_div hpos, Nat.cast_le]
  simp only [hreached]
  by_cases hk : 2 ^ k ≤ (n : ℚ) / d
  · rw [if_pos hk, log_eq hk hhigh]
  · rw [if_neg hk, log_eq hlow]
    rw [sub_add_cancel]
    exact lt_of_not_ge hk

lemma scales_log (hq : 0 < q) : Scales q (max minExponent (Int.log 2 q - 52)) := by
  have hlow := Int.zpow_log_le_self (b := 2) (by decide) hq
  have hhigh := Int.lt_zpow_succ_log_self (b := 2) (by decide) q
  push_cast at hlow hhigh
  set e := max minExponent (Int.log 2 q - 52)
  have hscaled (k : ℕ) (e : ℤ) : scaled (2 ^ k) e = 2 ^ (k + e) := by
    rw [scaled, zpow_add₀ (by norm_num), zpow_natCast]
    push_cast
    rfl
  refine ⟨le_max_left _ _, ?_, ?_⟩
  · rw [hscaled]
    refine hhigh.trans_le (zpow_le_zpow_right₀ (by norm_num) ?_)
    have hmax := le_max_right minExponent (Int.log 2 q - 52)
    push_cast
    omega
  · rw [hscaled]
    rcases max_choice minExponent (Int.log 2 q - 52) with hmin | hlog
    · exact .inr hmin
    · refine .inl (le_trans (zpow_le_zpow_right₀ (by norm_num) ?_) hlow)
      push_cast
      omega

/-- The double of a sign, a significand and an exponent without bound above. -/
def ofParts (negative : Bool) (m : ℕ) (e : ℤ) : Binary64 :=
  if m = 0 then zero else if maxExponent < e then infinite negative else finite negative m e

lemma ofParts_ne_notANumber (negative : Bool) (m : ℕ) (e : ℤ) :
    ofParts negative m e ≠ notANumber := by
  unfold ofParts
  split_ifs <;> simp

lemma exists_nearest_ofQuotient (negative : Bool) (hn : 0 < n) (hd : 0 < d) :
    ∃ m e, Nearest ((n : ℚ) / d) m e ∧ Int.log 2 ((n : ℚ) / d) - 52 ≤ e ∧
      ofQuotient negative n d = ofParts negative m e := by
  have hpos : (0 : ℚ) < (n : ℚ) / d := div_pos (by exact_mod_cast hn) (by exact_mod_cast hd)
  have hscales := scales_log hpos
  have hexponent : max minExponent (floorLog n d - (precision - 1)) =
      max minExponent (Int.log 2 ((n : ℚ) / d) - 52) := by
    rw [floorLog_eq hn hd]
    rfl
  rw [ofQuotient]
  dsimp only
  rw [hexponent]
  set e := max minExponent (Int.log 2 ((n : ℚ) / d) - 52)
  have hle : Int.log 2 ((n : ℚ) / d) - 52 ≤ e := le_max_right _ _
  set m := if 0 ≤ e then roundEven n (d <<< e.toNat) else roundEven (n <<< (-e).toNat) d
  have hround : RoundsTo ((n : ℚ) / d / 2 ^ e) m := by
    rw [div_zpow]
    simp only [m]
    split_ifs
    · refine roundsTo_roundEven n ?_
      rw [Nat.shiftLeft_eq]
      positivity
    · exact roundsTo_roundEven _ hd
  have hnearest := nearest_of_roundsTo hscales hround
  have htop : 1 <<< precision = 2 ^ 53 := rfl
  have hfull : 1 <<< (precision - 1) = 2 ^ 52 := rfl
  rw [htop, hfull]
  -- Rounding up can carry into one bit more, which is the least significand of the next exponent.
  by_cases hm : m = 2 ^ 53
  · rw [if_pos hm] at hnearest ⊢
    exact ⟨_, _, hnearest, hle.trans (Int.le_add_one le_rfl), rfl⟩
  · rw [if_neg hm] at hnearest ⊢
    exact ⟨_, _, hnearest, hle, rfl⟩

end

/-! ### The nearest double -/

/-- The double nearest to `q`. -/
def IsNearest (q : ℚ) (b : Binary64) : Prop :=
  ∃ m e, Nearest |q| m e ∧ b = ofParts (decide (q < 0)) m e

section

variable {q : ℚ} {n d : ℕ}

theorem IsNearest.unique {a b : Binary64} (ha : IsNearest q a) (hb : IsNearest q b) : a = b := by
  obtain ⟨m, e, hnearest, rfl⟩ := ha
  obtain ⟨m', e', hnearest', rfl⟩ := hb
  obtain ⟨rfl, rfl⟩ := hnearest.unique hnearest'
  rfl

lemma IsNearest.same_iff {q' : ℚ} {a b : Binary64} (ha : IsNearest q a) (hb : IsNearest q' b) :
    a.same b = true ↔ a = b := by
  obtain ⟨m, e, -, rfl⟩ := ha
  obtain ⟨m', e', -, rfl⟩ := hb
  have hne := ofParts_ne_notANumber (decide (q < 0)) m e
  have hne' := ofParts_ne_notANumber (decide (q' < 0)) m' e'
  generalize ofParts (decide (q < 0)) m e = a at hne ⊢
  generalize ofParts (decide (q' < 0)) m' e' = b at hne' ⊢
  cases a <;> cases b <;> simp_all [Binary64.same]

lemma isNearest_ofQuotient (hn : 0 < n) (hd : 0 < d) (hq : |q| = n / d) :
    IsNearest q (ofQuotient (decide (q < 0)) n d) := by
  obtain ⟨m, e, hnearest, -, heq⟩ := exists_nearest_ofQuotient (decide (q < 0)) hn hd
  exact ⟨m, e, hq ▸ hnearest, heq⟩

lemma isNearest_infinite (hn : 0 < n) (hd : 0 < d) (hq : |q| = n / d) (hlarge : 2 ^ 1024 ≤ |q|) :
    IsNearest q (infinite (decide (q < 0))) := by
  obtain ⟨m, e, hnearest, hlog, -⟩ := exists_nearest_ofQuotient (decide (q < 0)) hn hd
  rw [← hq] at hnearest hlog
  have hpos : 0 < |q| := lt_of_lt_of_le (by positivity) hlarge
  have hexponent : 1024 ≤ Int.log 2 |q| :=
    (Int.zpow_le_iff_le_log (by decide) hpos).1 (by exact_mod_cast hlarge)
  have hover : maxExponent < e := by
    have hmax : maxExponent = 971 := rfl
    omega
  have hm : m ≠ 0 := by
    rintro rfl
    have hleast : minExponent < maxExponent := by decide
    have hfull := hnearest.full
    omega
  refine ⟨m, e, hnearest, ?_⟩
  rw [ofParts, if_neg hm, if_pos hover]

lemma isNearest_zero (hsmall : |q| ≤ scaled 1 (minExponent - 1)) : IsNearest q zero := by
  have hscales : Scales |q| minExponent := by
    refine ⟨le_rfl, hsmall.trans_lt ?_, .inr rfl⟩
    rw [scaled_eq_of_le (show minExponent - 1 ≤ minExponent by omega), scaled_lt_scaled]
    norm_num
  have hround : RoundsTo (|q| / 2 ^ minExponent) 0 := by
    have hunit : (0 : ℚ) < 2 ^ minExponent := by positivity
    have hhalf : |q| / 2 ^ minExponent ≤ 1 / 2 := by
      rw [div_le_iff₀ hunit]
      refine hsmall.trans_eq ?_
      rw [scaled, zpow_sub_one₀ (by norm_num)]
      ring
    refine ⟨?_, fun _ => by decide⟩
    rw [Nat.cast_zero, sub_zero, abs_of_nonneg (by positivity)]
    linarith
  have hnearest := nearest_of_roundsTo hscales hround
  rw [if_neg (by norm_num)] at hnearest
  exact ⟨0, minExponent, hnearest, rfl⟩

end

/-! ### Decimals -/

section

variable {m : ℕ} {exponent : ℤ}

lemma toDigits_bounds (hm : 0 < m) : 10 ^ ((Nat.toDigits 10 m).length - 1) ≤ m ∧
    m < 10 ^ (Nat.toDigits 10 m).length := by
  have hpos := Nat.length_toDigits_pos (b := 10) (n := m)
  refine ⟨?_, (Nat.length_toDigits_le_iff (by decide) hpos).1 le_rfl⟩
  by_contra hless
  rcases Nat.eq_zero_or_pos ((Nat.toDigits 10 m).length - 1) with hone | hmore
  · rw [hone] at hless
    omega
  · have hshort := (Nat.length_toDigits_le_iff (by decide) hmore).2 (not_le.1 hless)
    omega

lemma decimal_bounds (hm : 0 < m) (exponent : ℤ) :
    10 ^ (exponent + (Nat.toDigits 10 m).length - 1) ≤ (m : ℚ) * 10 ^ exponent ∧
      (m : ℚ) * 10 ^ exponent < 10 ^ (exponent + (Nat.toDigits 10 m).length) := by
  obtain ⟨hlow, hhigh⟩ := toDigits_bounds hm
  have hcount := Nat.length_toDigits_pos (b := 10) (n := m)
  generalize (Nat.toDigits 10 m).length = count at hlow hhigh hcount ⊢
  have hunit : (0 : ℚ) < 10 ^ exponent := by positivity
  have hpow {k : ℕ} {i : ℤ} (h : k + exponent = i) :
      (10 : ℚ) ^ i = (10 ^ k : ℕ) * 10 ^ exponent := by
    rw [← h, zpow_add₀ (by norm_num), zpow_natCast]
    push_cast
    rfl
  constructor
  · rw [hpow (show ((count - 1 : ℕ) : ℤ) + exponent = exponent + count - 1 by omega)]
    gcongr
  · rw [hpow (add_comm (count : ℤ) exponent)]
    gcongr

lemma exists_quotient (hm : 0 < m) (exponent : ℤ) (negative : Bool) : ∃ n d : ℕ, 0 < n ∧ 0 < d ∧
    (m : ℚ) * 10 ^ exponent = n / d ∧
      (if 0 ≤ exponent then ofQuotient negative (m * Nat.pow 10 exponent.toNat) 1
        else ofQuotient negative m (Nat.pow 10 (-exponent).toNat)) = ofQuotient negative n d := by
  by_cases hexponent : 0 ≤ exponent
  · obtain ⟨k, rfl⟩ := Int.eq_ofNat_of_zero_le hexponent
    refine ⟨m * 10 ^ k, 1, by positivity, one_pos, ?_, if_pos hexponent⟩
    simp
  · obtain ⟨k, hk⟩ := Int.eq_ofNat_of_zero_le (show 0 ≤ -exponent by omega)
    obtain rfl : exponent = -k := by omega
    refine ⟨m, 10 ^ k, hm, by positivity, ?_, ?_⟩
    · simp [div_eq_mul_inv]
    · rw [if_neg hexponent, neg_neg]
      rfl

lemma two_pow_le {k n : ℕ} (h : k ≤ 3 * n) : (2 : ℚ) ^ k ≤ 10 ^ n :=
  calc (2 : ℚ) ^ k ≤ 2 ^ (3 * n) := pow_le_pow_right₀ (by norm_num) h
    _ = (2 ^ 3) ^ n := pow_mul _ _ _
    _ ≤ 10 ^ n := pow_le_pow_left₀ (by norm_num) (by norm_num) n

/-- **A decimal is read as the double nearest to it.** The sign of zero does not matter. -/
theorem isNearest_ofDecimal {q : ℚ} {negative : Bool} {digits : List Char}
    (hq : |q| = Nat.ofDigitChars 10 digits 0 * 10 ^ exponent)
    (hsign : q ≠ 0 → negative = decide (q < 0)) :
    IsNearest q (ofDecimal negative digits exponent) := by
  rw [ofDecimal]
  generalize Nat.ofDigitChars 10 digits 0 = m at hq
  by_cases hm : m = 0
  · rw [if_pos hm]
    refine isNearest_zero ?_
    rw [hq, hm, Nat.cast_zero, zero_mul]
    exact scaled_nonneg _ _
  rw [if_neg hm]
  obtain rfl : negative = decide (q < 0) := by
    refine hsign fun hzero => ?_
    have hpos : (0 : ℚ) < m * 10 ^ exponent := by positivity
    rw [← hq, hzero, abs_zero] at hpos
    exact hpos.false
  have hpos := Nat.pos_of_ne_zero hm
  obtain ⟨hlower, hupper⟩ := decimal_bounds hpos exponent
  obtain ⟨n, d, hn, hd, hquotient, hround⟩ := exists_quotient hpos exponent (decide (q < 0))
  rw [← hq] at hlower hupper hquotient
  have hreach : decimalReach = 400 := rfl
  -- Past the reach no power of ten is formed: the size alone says infinite or zero.
  by_cases hlarge : decimalReach < exponent + (Nat.toDigits 10 m).length
  · rw [if_pos hlarge]
    refine isNearest_infinite hn hd hquotient (le_trans ?_ hlower)
    calc (2 : ℚ) ^ 1024 ≤ 10 ^ 400 := two_pow_le (by norm_num)
      _ = 10 ^ (400 : ℤ) := (zpow_natCast 10 400).symm
      _ ≤ 10 ^ (exponent + (Nat.toDigits 10 m).length - 1) :=
        zpow_le_zpow_right₀ (by norm_num) (by omega)
  rw [if_neg hlarge]
  by_cases hsmall : exponent + (Nat.toDigits 10 m).length < -decimalReach
  · rw [if_pos hsmall]
    refine isNearest_zero (hupper.le.trans ?_)
    calc (10 : ℚ) ^ (exponent + (Nat.toDigits 10 m).length) ≤ 10 ^ (-401 : ℤ) :=
        zpow_le_zpow_right₀ (by norm_num) (by omega)
      _ = (10 ^ 401)⁻¹ := rfl
      _ ≤ (2 ^ 1075)⁻¹ := inv_anti₀ (by positivity) (two_pow_le (by norm_num))
      _ = scaled 1 (minExponent - 1) := by
        rw [scaled, Nat.cast_one, one_mul]
        rfl
  rw [if_neg hsmall, hround]
  exact isNearest_ofQuotient hn hd hquotient

end

end SchemaDrift.Binary64
