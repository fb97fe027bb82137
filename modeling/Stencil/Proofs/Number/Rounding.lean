/-
# The difference of two doubles

A difference of doubles is rounded to the nearest double, a tie to the even
mantissa. In units this is a function of the exact difference (`nearest`), and
one that keeps the order (`nearest_mono`). So a difference grows with what is
subtracted from, although it is rounded.

Key definitions: `Binary64.roundNat`, `Binary64.nearest`.
Key theorems: `nearest_mono`, `roundedMantissa_shift`, `round_fits`,
`extentOf_pack`, `extentOf_sub`.
-/
import Stencil.Proofs.Number.Order

namespace Stencil
namespace Binary64

open Extent
open Float.Model (UnpackedFloat Format totalExponent)
open Float.Model.UnpackedFloat (Sign ExtendedMantissa Accuracy)

/-! ### Rounding -/

variable {n m d c : ℕ} {e : ℤ}

theorem le_roundDiv (n d : ℕ) : n / d ≤ roundDiv n d := by
  unfold roundDiv
  dsimp only
  split_ifs <;> omega

theorem roundDiv_le (n d : ℕ) : roundDiv n d ≤ n / d + 1 := by
  unfold roundDiv
  dsimp only
  split_ifs <;> omega

theorem roundDiv_mono (h : n ≤ m) (d : ℕ) : roundDiv n d ≤ roundDiv m d := by
  rcases (Nat.div_le_div_right h : n / d ≤ m / d).lt_or_eq with hq | hq
  · exact (roundDiv_le n d).trans ((Nat.succ_le_of_lt hq).trans (le_roundDiv m d))
  · -- the quotients agree, so the remainders are in order
    have hr : n % d ≤ m % d := by
      have hn := Nat.div_add_mod n d
      have hm := Nat.div_add_mod m d
      rw [hq] at hn
      omega
    unfold roundDiv
    dsimp only
    rw [hq]
    split_ifs <;> omega

theorem roundDiv_mul_right (n d : ℕ) (hc : 0 < c) : roundDiv (n * c) (d * c) = roundDiv n d := by
  unfold roundDiv
  dsimp only
  have hlt : ∀ a b : ℕ, a * c < b * c ↔ a < b := fun a b => Nat.mul_lt_mul_right hc
  rw [Nat.mul_div_mul_right n d hc, Nat.mul_mod_mul_right, ← mul_assoc]
  simp only [hlt]

theorem roundDiv_of_dvd (h : d ∣ n) (hd : 0 < d) : roundDiv n d = n / d := by
  unfold roundDiv
  rw [Nat.mod_eq_zero_of_dvd h]
  simp [hd]

/-- A number of units rounded to 53 binary places. -/
def roundNat (n : ℕ) : ℕ := roundDiv n (2 ^ (n.log2 - 52)) * 2 ^ (n.log2 - 52)

theorem roundNat_zero : roundNat 0 = 0 := rfl

/-- Rounding stays between the powers of two around a number. -/
theorem roundNat_bounds (hn : n ≠ 0) :
    2 ^ n.log2 ≤ roundNat n ∧ roundNat n ≤ 2 ^ (n.log2 + 1) := by
  have hpos : 0 < 2 ^ (n.log2 - 52) := by positivity
  have hsplit : 2 ^ n.log2 = 2 ^ (n.log2 - (n.log2 - 52)) * 2 ^ (n.log2 - 52) := by
    rw [← pow_add]
    congr 1
    omega
  have hlow : 2 ^ (n.log2 - (n.log2 - 52)) ≤ n / 2 ^ (n.log2 - 52) :=
    (Nat.le_div_iff_mul_le hpos).2 (hsplit ▸ Nat.log2_self_le hn)
  have hhigh : n / 2 ^ (n.log2 - 52) < 2 ^ (n.log2 - (n.log2 - 52)) * 2 := by
    rw [Nat.div_lt_iff_lt_mul hpos, mul_right_comm, ← hsplit, ← pow_succ]
    exact Nat.lt_log2_self
  unfold roundNat
  constructor
  · rw [hsplit]
    exact Nat.mul_le_mul_right _ (hlow.trans (le_roundDiv _ _))
  · rw [pow_succ, hsplit, mul_right_comm]
    exact Nat.mul_le_mul_right _ ((roundDiv_le _ _).trans hhigh)

theorem roundNat_mono (h : n ≤ m) : roundNat n ≤ roundNat m := by
  by_cases hn : n = 0
  · rw [hn, roundNat_zero]
    exact Nat.zero_le _
  have hm : m ≠ 0 := fun hm => hn (by omega)
  have hl : n.log2 ≤ m.log2 := (Nat.le_log2 hm).2 ((Nat.log2_self_le hn).trans h)
  rcases hl.lt_or_eq with hl | hl
  · exact (roundNat_bounds hn).2.trans
      ((Nat.pow_le_pow_right two_pos hl).trans (roundNat_bounds hm).1)
  · unfold roundNat
    rw [hl]
    exact Nat.mul_le_mul_right _ (roundDiv_mono h _)

theorem log2_mul_pow (hm : m ≠ 0) (k : ℕ) : (m * 2 ^ k).log2 = m.log2 + k := by
  induction k with
  | zero => rw [pow_zero, mul_one, Nat.add_zero]
  | succ k ih =>
    rw [pow_succ, ← mul_assoc, mul_comm, Nat.log2_two_mul (by positivity), ih, Nat.add_assoc]

/-- A number of at most 53 binary places is left as it is. -/
theorem roundNat_of_lt (hm : m < 2 ^ 53) (k : ℕ) : roundNat (m * 2 ^ k) = m * 2 ^ k := by
  rcases Nat.eq_zero_or_pos m with rfl | hpos
  · rw [Nat.zero_mul, roundNat_zero]
  have hl : m.log2 < 53 := (Nat.log2_lt hpos.ne').2 hm
  have hd : 2 ^ ((m * 2 ^ k).log2 - 52) ∣ m * 2 ^ k :=
    (Nat.pow_dvd_pow 2 (by rw [log2_mul_pow hpos.ne']; omega)).trans (Nat.dvd_mul_left _ _)
  unfold roundNat
  rw [roundDiv_of_dvd hd (by positivity), Nat.div_mul_cancel hd]

/-- From here on a number of units is beyond the doubles. -/
def limit : ℕ := units (2 ^ 53) 971

/-- What a sign and a number of units stand for. -/
def signed : Sign → ℕ → Extent
  | .positive, n => if n < limit then finite n else ⊤
  | .negative, n => if n < limit then finite (-n) else ⊥

theorem limit_pos : 0 < limit := units_pos (by positivity) 971

theorem signed_positive (n : ℕ) :
    signed .positive n = if n < limit then finite n else ⊤ := rfl

theorem signed_negative (n : ℕ) :
    signed .negative n = if n < limit then finite (-n) else ⊥ := rfl

/-- The double nearest to a number of units. -/
def roundUnits : ℤ → Extent
  | .ofNat n => signed .positive (roundNat n)
  | .negSucc n => signed .negative (roundNat (n + 1))

theorem roundUnits_ofNat (n : ℕ) : roundUnits (.ofNat n) = signed .positive (roundNat n) := rfl

theorem roundUnits_negSucc (n : ℕ) :
    roundUnits (.negSucc n) = signed .negative (roundNat (n + 1)) := rfl

theorem roundUnits_apply (s : Sign) (n : ℕ) : roundUnits (s.apply n) = signed s (roundNat n) := by
  cases s with
  | positive => rfl
  | negative =>
    cases n with
    | zero =>
      rw [roundNat_zero, signed_negative, if_pos limit_pos]
      exact (roundUnits_ofNat 0).trans ((signed_positive 0).trans (if_pos limit_pos))
    | succ n => rfl

theorem signed_positive_mono : Monotone (signed .positive) := by
  intro n m h
  rw [signed_positive, signed_positive]
  split_ifs with hn hm hm
  · exact finite_le.2 (Int.ofNat_le.2 h)
  · exact le_top
  · exact absurd (h.trans_lt hm) hn
  · exact le_rfl

theorem signed_negative_anti : Antitone (signed .negative) := by
  intro n m h
  rw [signed_negative, signed_negative]
  split_ifs with hm hn hn
  · exact finite_le.2 (neg_le_neg (Int.ofNat_le.2 h))
  · exact absurd (h.trans_lt hm) hn
  · exact bot_le
  · exact le_rfl

theorem signed_negative_le (n m : ℕ) : signed .negative n ≤ signed .positive m := by
  rw [signed_negative, signed_positive]
  split_ifs
  · exact finite_le.2 (by omega)
  · exact le_top
  · exact bot_le
  · exact bot_le

/-- Rounding keeps the order. -/
theorem roundUnits_mono : Monotone roundUnits := by
  intro i j h
  rcases i with n | n <;> rcases j with m | m
  · rw [roundUnits_ofNat, roundUnits_ofNat]
    exact signed_positive_mono (roundNat_mono (Int.ofNat_le.1 h))
  · exact absurd (Int.negSucc_lt_zero m) (Int.not_lt.2 ((Int.natCast_nonneg n).trans h))
  · rw [roundUnits_negSucc, roundUnits_ofNat]
    exact signed_negative_le _ _
  · rw [roundUnits_negSucc, roundUnits_negSucc]
    exact signed_negative_anti (roundNat_mono (by omega))

/-! ### Rounding as it is done -/

/-- A mantissa that is shifted keeps the quotient, the first place after it, and whether there is
anything else. -/
theorem shift_succ (m k : ℕ) :
    ExtendedMantissa.ofMantissaAndAccuracy m .exact >>> (k + 1) =
      ⟨m / 2 ^ (k + 1), m / 2 ^ k % 2 != 0, m % 2 ^ k != 0⟩ := by
  induction k with
  | zero =>
    change ExtendedMantissa.shiftRightOne ⟨m, false, false⟩ = _
    simp [ExtendedMantissa.shiftRightOne, Nat.mod_one]
  | succ k ih =>
    change ExtendedMantissa.shiftRightOne
      (ExtendedMantissa.ofMantissaAndAccuracy m .exact >>> (k + 1)) = _
    have hrest : (m / 2 ^ k % 2 != 0 || m % 2 ^ k != 0) = (m % 2 ^ (k + 1) != 0) := by
      have hpos : 2 ^ k ≠ 0 := by positivity
      rw [Nat.mod_pow_succ]
      rcases Nat.mod_two_eq_zero_or_one (m / 2 ^ k) with hb | hb <;> simp [hb]
    rw [ih]
    simp only [ExtendedMantissa.shiftRightOne, Nat.div_div_eq_div_mul, ← pow_succ, hrest]

/-- A mantissa that was shifted is rounded to the nearest one. -/
theorem roundedMantissa_shift (m k : ℕ) :
    (ExtendedMantissa.ofMantissaAndAccuracy m .exact >>> k).roundedMantissa =
      roundDiv m (2 ^ k) := by
  cases k with
  | zero =>
    rw [pow_zero, roundDiv_of_dvd (one_dvd m) one_pos, Nat.div_one]
    rfl
  | succ k =>
    have hr : m % 2 ^ k < 2 ^ k := Nat.mod_lt _ (by positivity)
    have hmod : m % 2 ^ (k + 1) = m % 2 ^ k + 2 ^ k * (m / 2 ^ k % 2) := Nat.mod_pow_succ
    rw [shift_succ]
    unfold roundDiv
    dsimp only
    rw [hmod, pow_succ]
    rcases Nat.mod_two_eq_zero_or_one (m / 2 ^ k) with hb | hb <;>
      by_cases hz : m % 2 ^ k = 0 <;> rw [hb]
    · rw [hz, if_pos (by omega)]
      rfl
    · rw [if_pos (by omega), bne_iff_ne.2 hz]
      rfl
    · rw [hz, if_neg (by omega), if_neg (by omega)]
      rfl
    · rw [if_neg (by omega), if_pos (by omega), bne_iff_ne.2 hz]
      rfl

/-- The exponent that a double has for a mantissa and an exponent. -/
def target (m : ℕ) (e : ℤ) : ℤ := Format.binary64.targetExponent (totalExponent m e)

theorem target_eq (m : ℕ) (e : ℤ) : target m e = max (m.log2 + e - 52) (-1074) := by
  have h : target m e = max (m.log2 + 1 + e - 53) (-1074) := rfl
  omega

theorem shift_of_lt (hm : m < 2 ^ 53) (he : -1074 ≤ e) :
    UnpackedFloat.shiftToTargetExponent Format.binary64 m e .exact = (⟨m, false, false⟩, e) := by
  have hl : m.log2 ≤ 52 := by
    rcases Nat.eq_zero_or_pos m with rfl | hpos
    · decide
    · exact Nat.lt_succ_iff.1 ((Nat.log2_lt hpos.ne').2 hm)
  have hk : (target m e - e).toNat = 0 := by
    rw [target_eq]
    omega
  change UnpackedFloat.shiftToExponent m e .exact (target m e) = _
  unfold UnpackedFloat.shiftToExponent
  rw [hk]
  exact Prod.ext rfl (add_zero e)

theorem shift_of_eq (he : -1074 ≤ e) :
    UnpackedFloat.shiftToTargetExponent Format.binary64 (2 ^ 53) e .exact =
      (⟨2 ^ 52, false, false⟩, e + 1) := by
  have hk : (target (2 ^ 53) e - e).toNat = 1 := by
    rw [target_eq, Nat.log2_two_pow]
    omega
  change UnpackedFloat.shiftToExponent (2 ^ 53) e .exact (target (2 ^ 53) e) = _
  unfold UnpackedFloat.shiftToExponent
  rw [hk]
  rfl

/-- Rounding gives a mantissa and an exponent that fit, and the rounded number of units. -/
theorem roundWithAccuracy_fits (s : Sign) (hm : 0 < m) (he : -1074 ≤ e) (ht : e ≤ target m e) :
    ∃ m' e' h, UnpackedFloat.roundWithAccuracy Format.binary64 s m e .exact =
      .finite s m' e' h ∧ IsFitting m' e' ∧ units m' e' = roundNat (units m e) := by
  have hN := roundNat_bounds (units_pos hm e).ne'
  have hlog : (units m e).log2 = m.log2 + (e + 1074).toNat := log2_mul_pow hm.ne' _
  have hT : (target m e + 1074).toNat = (units m e).log2 - 52 := by
    rw [target_eq, hlog]
    omega
  have hk : (target m e - e).toNat + (e + 1074).toNat = (units m e).log2 - 52 := by omega
  have hround : roundNat (units m e) =
      roundDiv m (2 ^ (target m e - e).toNat) * 2 ^ ((units m e).log2 - 52) := by
    unfold roundNat
    rw [← hk, pow_add 2 _ (e + 1074).toNat, units, roundDiv_mul_right _ _ (by positivity)]
  generalize hr : roundDiv m (2 ^ (target m e - e).toNat) = r at hround
  rw [hround] at hN ⊢
  generalize (units m e).log2 = l at *
  have hle : r ≤ 2 ^ 53 := by
    refine Nat.le_of_mul_le_mul_right (hN.2.trans ?_) (Nat.two_pow_pos (l - 52))
    rw [← pow_add]
    exact Nat.pow_le_pow_right two_pos (by omega)
  have hge : 2 ^ 52 ≤ r ∨ target m e = -1074 := by
    by_cases hl : 52 ≤ l
    · refine .inl (Nat.le_of_mul_le_mul_right (le_trans ?_ hN.1) (Nat.two_pow_pos (l - 52)))
      rw [← pow_add]
      exact Nat.pow_le_pow_right two_pos (by omega)
    · have := target_eq m e
      exact .inr (by omega)
  have hpos : 0 < r := Nat.pos_of_ne_zero fun h => by
    rw [h, Nat.zero_mul] at hN
    exact absurd hN.1 (Nat.not_le.2 (Nat.two_pow_pos l))
  have hmin : -1074 ≤ target m e := by
    rw [target_eq]
    exact le_max_right _ _
  have hfirst : UnpackedFloat.shiftToTargetExponent Format.binary64 m e .exact =
      (ExtendedMantissa.ofMantissaAndAccuracy m .exact >>> (target m e - e).toNat, target m e) :=
    Prod.ext rfl (show e + ((target m e - e).toNat : ℤ) = target m e by omega)
  rw [UnpackedFloat.roundWithAccuracy, hfirst]
  dsimp only
  rw [roundedMantissa_shift, hr]
  -- a mantissa that became too large is shifted once more
  rcases hle.lt_or_eq with hlt | rfl
  · rw [shift_of_lt hlt hmin]
    exact ⟨r, target m e, hpos, dif_neg hpos.ne', ⟨hlt, hmin, hge⟩, by rw [units, hT]⟩
  · rw [shift_of_eq hmin]
    refine ⟨2 ^ 52, target m e + 1, by positivity, dif_neg (Nat.two_pow_pos 52).ne',
      ⟨by decide, by omega, .inl le_rfl⟩, ?_⟩
    rw [units, show (target m e + 1 + 1074).toNat = (l - 52) + 1 by omega, pow_succ 2 (l - 52)]
    omega

/-- A number that is no double yet is rounded to one. -/
theorem round_fits (s : Sign) (hm : 0 < m) (he : -1074 ≤ e) :
    ∃ m' e' h, UnpackedFloat.round Format.binary64 s m e = .finite s m' e' h ∧
      IsFitting m' e' ∧ units m' e' = roundNat (units m e) := by
  have ht := target_eq m e
  set k := (e - target m e).toNat with hk
  have hm' : 0 < m * 2 ^ k := by positivity
  have htarget : target (m * 2 ^ k) (e - k) = target m e := by
    rw [target_eq, target_eq, log2_mul_pow hm.ne']
    push_cast
    omega
  have hunits : units (m * 2 ^ k) (e - k) = units m e := by
    rw [units, units, mul_assoc, ← pow_add]
    congr 3
    omega
  have h := roundWithAccuracy_fits s hm' (show -1074 ≤ e - k by omega) (by rw [htarget]; omega)
  rw [hunits] at h
  rw [← Nat.shiftLeft_eq] at h
  exact h

/-! ### Packing -/

theorem unpackSign_pack (s : Sign) (g : BitVec 11) (f : BitVec 52) :
    Sign.ofBitVec (UnpackedFloat.unpackSign
      (UnpackedFloat.packComponents Format.binary64 s g f)) = s := by
  have hbit : (s.toBitVec ++ g ++ f).getLsbD 63 = s.toBitVec.getLsbD 0 := by
    rw [BitVec.getLsbD_append, BitVec.getLsbD_append]
    rfl
  have h : UnpackedFloat.unpackSign (UnpackedFloat.packComponents Format.binary64 s g f) =
      s.toBitVec := by
    ext i hi
    obtain rfl : i = 0 := by omega
    unfold UnpackedFloat.unpackSign
    simp [UnpackedFloat.packComponents]
    exact hbit
  rw [h]
  cases s <;> rfl

theorem pack_eq (s : Sign) (m : ℕ) (e : ℤ) (h : 0 < m) :
    UnpackedFloat.pack Format.binary64 (.finite s m e h) =
      if 2 ^ 11 ≤ (e + 1075).toNat + 1 then UnpackedFloat.packedInfinity Format.binary64 s
      else if m.log2 + 1 = 53 then
        UnpackedFloat.packComponents Format.binary64 s (BitVec.ofNat 11 (e + 1075).toNat)
          (BitVec.ofNat 52 m)
      else UnpackedFloat.packComponents Format.binary64 s 0#11 (BitVec.ofNat 52 m) := by
  rw [show e + 1075 = e + (1023 : ℕ) + (52 : ℕ) by omega]
  rfl

/-- Packing keeps what fits. -/
theorem unpack_pack (s : Sign) (h : 0 < m) (hf : IsFitting m e) (he : e ≤ 971) :
    (Float.Model.pack (.finite s m e h)).unpack = .finite s m e h := by
  change UnpackedFloat.unpack Format.binary64 (UnpackedFloat.pack Format.binary64 _) = _
  have hl := hf.least
  have hm := hf.lt
  rw [pack_eq, if_neg (by omega)]
  by_cases hn : 2 ^ 52 ≤ m
  · have hg : (BitVec.ofNat 11 (e + 1075).toNat).toNat = (e + 1075).toNat := by
      rw [BitVec.toNat_ofNat]
      omega
    have hmax : BitVec.ofNat 11 (e + 1075).toNat ≠ -1#11 := fun hx => by
      have h2047 : (e + 1075).toNat = 2047 := hg.symm.trans (congrArg BitVec.toNat hx)
      omega
    have hmin : BitVec.ofNat 11 (e + 1075).toNat ≠ 0#11 := fun hx => by
      have h0 : (e + 1075).toNat = 0 := hg.symm.trans (congrArg BitVec.toNat hx)
      omega
    have hmant : (1#1 ++ BitVec.ofNat 52 m).toNat = m := by
      rw [append_toNat, BitVec.toNat_ofNat]
      omega
    rw [if_pos (by rw [(Nat.log2_eq_iff h.ne').2 ⟨hn, hm⟩])]
    have hexp : UnpackedFloat.unpackExponent (UnpackedFloat.packComponents Format.binary64 s
        (BitVec.ofNat 11 (e + 1075).toNat) (BitVec.ofNat 52 m)) =
          BitVec.ofNat 11 (e + 1075).toNat := UnpackedFloat.unpackExponent_packComponents
    unfold UnpackedFloat.unpack
    dsimp only
    rw [if_neg fun hx => hmax (hexp.symm.trans hx), if_neg fun hx => hmin (hexp.symm.trans hx),
      UnpackedFloat.finite.injEq]
    refine ⟨unpackSign_pack _ _ _, ?_, ?_⟩
    · rw [UnpackedFloat.unpackMantissa_packComponents, hmant]
    · rw [hexp, hg]
      exact show ((e + 1075).toNat : ℤ) - 1075 = e by omega
  · obtain rfl : e = -1074 := hf.full.resolve_left hn
    have hmant : (BitVec.ofNat 52 m).toNat = m := by
      rw [BitVec.toNat_ofNat]
      omega
    have hnone : BitVec.ofNat 52 m ≠ 0#52 := fun hx => by
      have h0 : m = 0 := hmant.symm.trans (congrArg BitVec.toNat hx)
      omega
    have hlog : m.log2 < 52 := (Nat.log2_lt h.ne').2 (by omega)
    rw [if_neg (by omega)]
    have hexp : UnpackedFloat.unpackExponent (UnpackedFloat.packComponents Format.binary64 s 0#11
        (BitVec.ofNat 52 m)) = 0#11 := UnpackedFloat.unpackExponent_packComponents
    have hfrac : UnpackedFloat.unpackMantissa (UnpackedFloat.packComponents Format.binary64 s 0#11
        (BitVec.ofNat 52 m)) = BitVec.ofNat 52 m := UnpackedFloat.unpackMantissa_packComponents
    unfold UnpackedFloat.unpack
    dsimp only
    have htop : (0#11 : BitVec 11) ≠ -1#11 := by decide
    rw [if_neg fun hx => htop (hexp.symm.trans hx), if_pos hexp,
      dif_neg fun hx => hnone (hfrac.symm.trans hx), UnpackedFloat.finite.injEq]
    refine ⟨unpackSign_pack _ _ _, ?_, ?_⟩
    · rw [hfrac, hmant]
    · rw [hexp]
      rfl

/-- What is too large becomes infinite. -/
theorem unpack_pack_over (s : Sign) (h : 0 < m) (he : 971 < e) :
    (Float.Model.pack (.finite s m e h)).unpack = .infinity s := by
  change UnpackedFloat.unpack Format.binary64 (UnpackedFloat.pack Format.binary64 _) = _
  rw [pack_eq, if_pos (by omega), UnpackedFloat.packedInfinity]
  unfold UnpackedFloat.unpack
  dsimp only
  rw [if_pos UnpackedFloat.unpackExponent_packComponents]
  refine (if_pos UnpackedFloat.unpackMantissa_packComponents).trans ?_
  exact congrArg UnpackedFloat.infinity (unpackSign_pack s _ _)

/-- Whether a number of units that fits is beyond the doubles can be told from the exponent. -/
theorem units_lt_limit_iff (hf : IsFitting m e) : units m e < limit ↔ e ≤ 971 := by
  have hk : e ≤ 971 ↔ (e + 1074).toNat ≤ (971 + 1074 : ℤ).toNat := by omega
  unfold limit units
  generalize (971 + 1074 : ℤ).toNat = t at hk
  constructor
  · intro h
    by_contra he
    have hm : 2 ^ 52 ≤ m := hf.full.resolve_right (by omega)
    refine absurd h (Nat.not_lt.2 ?_)
    calc
      2 ^ 53 * 2 ^ t = 2 ^ 52 * 2 ^ (t + 1) := by
        rw [← pow_add, ← pow_add]
        congr 1
        omega
      _ ≤ 2 ^ 52 * 2 ^ (e + 1074).toNat :=
        Nat.mul_le_mul_left _ (Nat.pow_le_pow_right two_pos (by omega))
      _ ≤ m * 2 ^ (e + 1074).toNat := Nat.mul_le_mul_right _ hm
  · intro he
    exact Nat.mul_lt_mul_of_lt_of_le hf.lt (Nat.pow_le_pow_right two_pos (hk.1 he)) (by positivity)

theorem extentOf_pack (s : Sign) (h : 0 < m) (hf : IsFitting m e) :
    extentOf (Float.Model.pack (.finite s m e h)).unpack = some (signed s (units m e)) := by
  by_cases he : e ≤ 971
  · have hu := (units_lt_limit_iff hf).2 he
    rw [unpack_pack s h hf he]
    cases s with
    | positive => rw [signed_positive, if_pos hu]; rfl
    | negative => rw [signed_negative, if_pos hu]; rfl
  · have hu := (units_lt_limit_iff hf).not.2 he
    rw [unpack_pack_over s h (not_le.1 he)]
    cases s with
    | positive => rw [signed_positive, if_neg hu]; rfl
    | negative => rw [signed_negative, if_neg hu]; rfl

theorem extentOf_pack_zero (s : Sign) :
    extentOf (Float.Model.pack (.zero s)).unpack = some (finite 0) := by
  cases s <;> rfl

/-! ### The difference -/

theorem roundUnits_zero : roundUnits 0 = finite 0 :=
  (roundUnits_ofNat 0).trans ((signed_positive 0).trans (if_pos limit_pos))

theorem extentOf_pack_round (s : Sign) (hm : 0 < m) (he : -1074 ≤ e) :
    extentOf (Float.Model.pack (UnpackedFloat.round Format.binary64 s m e)).unpack =
      some (roundUnits (s.apply (units m e))) := by
  obtain ⟨m', e', h, hr, hf, hu⟩ := round_fits s hm he
  rw [hr, extentOf_pack s h hf, hu, roundUnits_apply]

/-- A whole number of units is rounded, whatever its sign. -/
theorem extentOf_pack_normalize (i : ℤ) (he : -1074 ≤ e) (s : Sign) :
    extentOf (Float.Model.pack (UnpackedFloat.normalize Format.binary64 i e s)).unpack =
      some (roundUnits (i * 2 ^ (e + 1074).toNat)) := by
  unfold UnpackedFloat.normalize
  rcases lt_trichotomy i 0 with h | rfl | h
  · have hu : Sign.negative.apply (units (-i).toNat e : ℕ) = i * 2 ^ (e + 1074).toNat := by
      unfold units
      push_cast
      rw [Int.toNat_of_nonneg (by omega)]
      exact (neg_mul_eq_neg_mul _ _).trans (by rw [neg_neg])
    rw [compare_lt_iff_lt.2 h]
    dsimp only
    rw [extentOf_pack_round _ (by omega) he, hu]
  · rw [compare_eq_iff_eq.2 rfl, zero_mul, roundUnits_zero]
    exact extentOf_pack_zero s
  · have hu : Sign.positive.apply (units i.toNat e : ℕ) = i * 2 ^ (e + 1074).toNat := by
      unfold units
      push_cast
      rw [Int.toNat_of_nonneg h.le]
      rfl
    rw [compare_gt_iff_gt.2 h]
    dsimp only
    rw [extentOf_pack_round _ (by omega) he, hu]

theorem signed_units (s : Sign) (hf : IsFitting m e) :
    signed s (units m e) = roundUnits (s.apply (units m e)) := by
  rw [roundUnits_apply, units, roundNat_of_lt hf.lt]

theorem apply_neg (s : Sign) (i : ℤ) : (-s).apply i = -s.apply i := by
  cases s
  · exact (neg_neg i).symm
  · rfl

/-- A mantissa for a lesser exponent stands for the same. -/
theorem apply_shiftLeft (s : Sign) {t : ℤ} (ht : -1074 ≤ t) (he : t ≤ e) :
    s.apply ((m <<< (e - t).toNat : ℕ) : ℤ) * 2 ^ (t + 1074).toNat = s.apply (units m e) := by
  have hu : units m e = m <<< (e - t).toNat * 2 ^ (t + 1074).toNat := by
    rw [units, Nat.shiftLeft_eq, mul_assoc, ← pow_add]
    congr 2
    omega
  rw [hu]
  push_cast
  cases s
  · exact neg_mul _ _
  · rfl

/-- An unpacked double that stands for a number of units. -/
theorem extentOf_eq_finite {u : UnpackedFloat} {i : ℤ} (h : extentOf u = some (finite i)) :
    (∃ s, u = .zero s ∧ i = 0) ∨
      ∃ s m e hm, u = .finite s m e hm ∧ i = s.apply (units m e) := by
  have hinj : ∀ {a b : ℤ}, some (finite a) = some (finite b) → a = b := fun h =>
    WithTop.coe_injective (WithBot.coe_injective (Option.some.inj h))
  rcases u with (_ | _) | _ | s | ⟨s, m, e, hm⟩
  · exact absurd (Option.some.inj h) WithBot.bot_ne_coe
  · exact absurd (WithBot.coe_injective (Option.some.inj h)) WithTop.top_ne_coe
  · cases h
  · exact .inl ⟨s, rfl, (hinj h).symm⟩
  · exact .inr ⟨s, m, e, hm, rfl, (hinj h).symm⟩

/-- The difference of two doubles is the double nearest to their exact difference. -/
theorem extentOf_sub {x y : Float} {i j : ℤ} (hx : extentOf x.toModel.unpack = some (finite i))
    (hy : extentOf y.toModel.unpack = some (finite j)) :
    extentOf (x - y).toModel.unpack = some (roundUnits (i - j)) := by
  have hcx := isCanonical_unpack x
  have hcy := isCanonical_unpack y
  change extentOf (Float.Model.pack
    (UnpackedFloat.sub Format.binary64 x.toModel.unpack y.toModel.unpack)).unpack = _
  rcases extentOf_eq_finite hx with ⟨s₁, hu, rfl⟩ | ⟨s₁, m₁, e₁, h₁, hu, rfl⟩ <;>
    rcases extentOf_eq_finite hy with ⟨s₂, hv, rfl⟩ | ⟨s₂, m₂, e₂, h₂, hv, rfl⟩ <;>
    rw [hu] at hcx ⊢ <;> rw [hv] at hcy ⊢
  · rw [sub_zero, roundUnits_zero]
    cases s₁ <;> cases s₂ <;> exact extentOf_pack_zero _
  · rw [zero_sub, ← apply_neg, ← signed_units _ hcy]
    exact extentOf_pack _ h₂ hcy
  · rw [sub_zero, ← signed_units _ hcx]
    exact extentOf_pack _ h₁ hcx
  · -- both are taken to the lesser exponent
    have hmin : -1074 ≤ min e₁ e₂ := le_min hcx.least hcy.least
    rw [← apply_shiftLeft s₁ hmin (min_le_left e₁ e₂),
      ← apply_shiftLeft s₂ hmin (min_le_right e₁ e₂), ← sub_mul]
    exact extentOf_pack_normalize _ hmin .positive

end Binary64
end Stencil
