/-
# The order of the numbers

A finite double is a whole number of units, the unit being the least positive
double. So a number that is one stands for a whole number of units or for one of
the two infinities, and numbers are compared by what they stand for
(`compare?_eq`). What is put together here of the bits of a double is all that
the order depends on.

Key definitions: `Extent`, `Binary64.IsFitting`, `Binary64.units`,
`Number.extent?`.
Key theorems: `Binary64.compare_extentOf`, `Binary64.unpack_decode`,
`Number.compare?_eq`, `Number.le_iff`, `Number.lt_iff`.
-/
import Mathlib.Order.ConditionallyCompleteLattice.Basic
import Mathlib.Data.Int.ConditionallyCompleteOrder
import Mathlib.Tactic.NormNum
import Mathlib.Tactic.Positivity
import Stencil.Number

namespace Stencil

open Float.Model (UnpackedFloat Format)
open Float.Model.UnpackedFloat (Sign)

/-- A whole number of units, or something beyond all of them. -/
abbrev Extent := WithBot (WithTop ℤ)

namespace Extent

def finite (i : ℤ) : Extent := ((i : WithTop ℤ) : Extent)

theorem finite_lt {i j : ℤ} : finite i < finite j ↔ i < j :=
  WithBot.coe_lt_coe.trans WithTop.coe_lt_coe

theorem finite_le {i j : ℤ} : finite i ≤ finite j ↔ i ≤ j :=
  WithBot.coe_le_coe.trans WithTop.coe_le_coe

@[simp]
theorem compare_finite (i j : ℤ) : compare (finite i) (finite j) = compare i j := by
  rcases lt_trichotomy i j with h | rfl | h
  · rw [compare_lt_iff_lt.2 h, compare_lt_iff_lt.2 (finite_lt.2 h)]
  · rw [compare_eq_iff_eq.2 rfl, compare_eq_iff_eq.2 rfl]
  · rw [compare_gt_iff_gt.2 h, compare_gt_iff_gt.2 (finite_lt.2 h)]

@[simp]
theorem compare_top_finite (i : ℤ) : compare (⊤ : Extent) (finite i) = .gt :=
  compare_gt_iff_gt.2 (WithBot.coe_lt_coe.2 (WithTop.coe_lt_top i))

@[simp]
theorem compare_finite_top (i : ℤ) : compare (finite i) (⊤ : Extent) = .lt :=
  compare_lt_iff_lt.2 (WithBot.coe_lt_coe.2 (WithTop.coe_lt_top i))

@[simp]
theorem compare_bot_finite (i : ℤ) : compare (⊥ : Extent) (finite i) = .lt :=
  compare_lt_iff_lt.2 (WithBot.bot_lt_coe _)

@[simp]
theorem compare_finite_bot (i : ℤ) : compare (finite i) (⊥ : Extent) = .gt :=
  compare_gt_iff_gt.2 (WithBot.bot_lt_coe _)

end Extent

open Extent

namespace Binary64

/-! ### The units of a double -/

/-- The mantissa and the exponent are as a double has them: the mantissa is full, or the exponent
is the least one. -/
structure IsFitting (m : ℕ) (e : ℤ) : Prop where
  lt : m < 2 ^ 53
  least : -1074 ≤ e
  full : 2 ^ 52 ≤ m ∨ e = -1074

/-- How many units `m · 2 ^ e` is. -/
def units (m : ℕ) (e : ℤ) : ℕ := m * 2 ^ (e + 1074).toNat

variable {m m₁ m₂ : ℕ} {e e₁ e₂ : ℤ}

/-- How many units one is. -/
def unitsInOne : ℤ := 2 ^ 1074

theorem unitsInOne_pos : 0 < unitsInOne := by
  unfold unitsInOne
  positivity

theorem units_pos (h : 0 < m) (e : ℤ) : 0 < units m e := Nat.mul_pos h (by positivity)

theorem units_lt (h₁ : IsFitting m₁ e₁) (h₂ : IsFitting m₂ e₂) (h : e₁ < e₂) :
    units m₁ e₁ < units m₂ e₂ := by
  have hm : 2 ^ 52 ≤ m₂ := h₂.full.resolve_right (by have := h₁.least; omega)
  have he : 53 + (e₁ + 1074).toNat ≤ 52 + (e₂ + 1074).toNat := by have := h₁.least; omega
  calc
    units m₁ e₁ < 2 ^ 53 * 2 ^ (e₁ + 1074).toNat :=
      Nat.mul_lt_mul_of_pos_right h₁.lt (by positivity)
    _ = 2 ^ (53 + (e₁ + 1074).toNat) := (pow_add _ _ _).symm
    _ ≤ 2 ^ (52 + (e₂ + 1074).toNat) := Nat.pow_le_pow_right two_pos he
    _ = 2 ^ 52 * 2 ^ (e₂ + 1074).toNat := pow_add _ _ _
    _ ≤ units m₂ e₂ := Nat.mul_le_mul_right _ hm

/-- Of two doubles the one with the greater exponent is greater. -/
theorem compare_units (h₁ : IsFitting m₁ e₁) (h₂ : IsFitting m₂ e₂) :
    compare (units m₁ e₁ : ℤ) (units m₂ e₂) = (compare e₁ e₂).then (compare m₁ m₂) := by
  rcases lt_trichotomy e₁ e₂ with h | rfl | h
  · rw [compare_lt_iff_lt.2 h, compare_lt_iff_lt.2 (Int.ofNat_lt.2 (units_lt h₁ h₂ h))]
    rfl
  · have hm : StrictMono fun m : ℕ => (units m e₁ : ℤ) := fun m m' h =>
      Int.ofNat_lt.2 (Nat.mul_lt_mul_of_pos_right h (by positivity))
    rw [compare_eq_iff_eq.2 rfl, Ordering.eq_then]
    rcases lt_trichotomy m₁ m₂ with h | rfl | h
    · rw [compare_lt_iff_lt.2 h, compare_lt_iff_lt.2 (hm h)]
    · rw [compare_eq_iff_eq.2 rfl, compare_eq_iff_eq.2 rfl]
    · rw [compare_gt_iff_gt.2 h, compare_gt_iff_gt.2 (hm h)]
  · rw [compare_gt_iff_gt.2 h, compare_gt_iff_gt.2 (Int.ofNat_lt.2 (units_lt h₂ h₁ h))]
    rfl

theorem compare_neg (i j : ℤ) : compare (-i) (-j) = (compare i j).swap := by
  rcases lt_trichotomy i j with h | rfl | h
  · rw [compare_lt_iff_lt.2 h, compare_gt_iff_gt.2 (neg_lt_neg h)]
    rfl
  · rw [compare_eq_iff_eq.2 rfl, compare_eq_iff_eq.2 rfl]
    rfl
  · rw [compare_gt_iff_gt.2 h, compare_lt_iff_lt.2 (neg_lt_neg h)]
    rfl

theorem compare_mul (i j : ℤ) {n : ℤ} (hn : 0 < n) : compare (i * n) (j * n) = compare i j := by
  rcases lt_trichotomy i j with h | rfl | h
  · rw [compare_lt_iff_lt.2 h, compare_lt_iff_lt.2 (Int.mul_lt_mul_of_pos_right h hn)]
  · rw [compare_eq_iff_eq.2 rfl, compare_eq_iff_eq.2 rfl]
  · rw [compare_gt_iff_gt.2 h, compare_gt_iff_gt.2 (Int.mul_lt_mul_of_pos_right h hn)]

/-! ### Unpacked doubles -/

/-- What an unpacked double stands for. -/
def extentOf : UnpackedFloat → Option Extent
  | .notANumber => none
  | .infinity .positive => some ⊤
  | .infinity .negative => some ⊥
  | .zero _ => some (finite 0)
  | .finite s m e _ => some (finite (s.apply (units m e)))

/-- A finite one has a mantissa and an exponent that fit. -/
def IsCanonical : UnpackedFloat → Prop
  | .finite _ m e _ => IsFitting m e
  | _ => True

theorem compare_extentOf {a b : UnpackedFloat} (ha : IsCanonical a) (hb : IsCanonical b) :
    a.compare b = Option.map₂ compare (extentOf a) (extentOf b) := by
  have hinf : compare (⊥ : Extent) ⊤ = .lt ∧ compare (⊤ : Extent) ⊥ = .gt :=
    ⟨compare_lt_iff_lt.2 (WithBot.bot_lt_coe _), compare_gt_iff_gt.2 (WithBot.bot_lt_coe _)⟩
  have hpos : ∀ {m : ℕ}, 0 < m → ∀ e : ℤ, 0 < (units m e : ℤ) := fun h e =>
    Int.natCast_pos.2 (units_pos h e)
  rcases a with (_ | _) | _ | s₁ | ⟨_ | _, m₁, e₁, h₁⟩ <;>
    rcases b with (_ | _) | _ | s₂ | ⟨_ | _, m₂, e₂, h₂⟩ <;>
    dsimp only [UnpackedFloat.compare, extentOf, Sign.apply] <;>
    simp only [Option.map₂_some_some, Option.map₂_none_left, Option.map₂_none_right, compare_finite, compare_top_finite,
      compare_finite_top, compare_bot_finite, compare_finite_bot, hinf, compare_neg]
  -- two infinities
  case infinity.negative.infinity.negative => rfl
  case infinity.negative.infinity.positive => rfl
  case infinity.positive.infinity.negative => rfl
  case infinity.positive.infinity.positive => rfl
  -- two signs
  case zero.zero => rw [compare_eq_iff_eq.2 rfl]
  case zero.finite.negative => rw [compare_gt_iff_gt.2 (neg_neg_of_pos (hpos h₂ e₂))]
  case zero.finite.positive => rw [compare_lt_iff_lt.2 (hpos h₂ e₂)]
  case finite.negative.zero => rw [compare_lt_iff_lt.2 (neg_neg_of_pos (hpos h₁ e₁))]
  case finite.positive.zero => rw [compare_gt_iff_gt.2 (hpos h₁ e₁)]
  case finite.negative.finite.positive =>
    rw [compare_lt_iff_lt.2 ((neg_neg_of_pos (hpos h₁ e₁)).trans (hpos h₂ e₂))]
  case finite.positive.finite.negative =>
    rw [compare_gt_iff_gt.2 ((neg_neg_of_pos (hpos h₂ e₂)).trans (hpos h₁ e₁))]
  -- one sign
  case finite.negative.finite.negative => rw [compare_units ha hb]
  case finite.positive.finite.positive => rw [compare_units ha hb]

/-! ### The bits of a double -/

theorem unpackMantissa_toNat (b : UInt64) :
    (@UnpackedFloat.unpackMantissa Format.binary64 b.toBitVec).toNat =
      b.toNat % 2 ^ 52 := by
  simp [UnpackedFloat.unpackMantissa, BitVec.extractLsb]

theorem unpackExponent_toNat (b : UInt64) :
    (@UnpackedFloat.unpackExponent Format.binary64 b.toBitVec).toNat =
      b.toNat / 2 ^ 52 % 2 ^ 11 := by
  simp [UnpackedFloat.unpackExponent, BitVec.extractLsb, Nat.shiftRight_eq_div_pow]

theorem unpackSign_toNat (b : UInt64) :
    (@UnpackedFloat.unpackSign Format.binary64 b.toBitVec).toNat = b.toNat / 2 ^ 63 := by
  have h := b.toNat_lt
  unfold UnpackedFloat.unpackSign
  simp [BitVec.extractLsb, Nat.shiftRight_eq_div_pow]
  omega

/-- The bit before the others is that of a full mantissa. -/
theorem append_toNat (f : BitVec 52) : (1#1 ++ f).toNat = 2 ^ 52 + f.toNat := by
  rw [BitVec.toNat_append, ← Nat.shiftLeft_add_eq_or_of_lt f.isLt]
  rfl

def signOf : Bool → Sign
  | true => .negative
  | false => .positive

/-- How many units the parts of a double stand for. -/
def Parts.units (p : Parts) : ℤ := (signOf p.negative).apply (Binary64.units p.mantissa p.exponent)

/-- What the bits of a double are taken apart into. -/
inductive Decoded (x : Float) : Prop where
  | notANumber (hd : decode x = none) (hu : x.toModel.unpack = .notANumber)
  | infinity (s : Sign) (hd : decode x = none) (hu : x.toModel.unpack = .infinity s)
  | zero (p : Parts) (hp : p.mantissa = 0) (he : p.exponent = -1074) (hd : decode x = some p)
      (hu : x.toModel.unpack = .zero (signOf p.negative))
  | finite (p : Parts) (hp : 0 < p.mantissa) (hf : IsFitting p.mantissa p.exponent)
      (he : p.exponent ≤ 971) (hd : decode x = some p)
      (hu : x.toModel.unpack = .finite (signOf p.negative) p.mantissa p.exponent hp)

theorem decode_eq (x : Float) :
    decode x =
      if x.toBits.toNat / 2 ^ 52 % 2 ^ 11 = 2047 then none
      else if x.toBits.toNat / 2 ^ 52 % 2 ^ 11 = 0 then
        some ⟨x.toBits.toNat / 2 ^ 63 == 1, x.toBits.toNat % 2 ^ 52, -1074⟩
      else
        some ⟨x.toBits.toNat / 2 ^ 63 == 1, 2 ^ 52 + x.toBits.toNat % 2 ^ 52,
          (x.toBits.toNat / 2 ^ 52 % 2 ^ 11 : ℕ) - 1075⟩ := by
  simp only [decode, twoTo, Nat.pow_eq, beq_iff_eq]
  rfl

theorem decoded (x : Float) : Decoded x := by
  have hm := unpackMantissa_toNat x.toBits
  have he := unpackExponent_toNat x.toBits
  have hs := unpackSign_toNat x.toBits
  have hb := x.toBits.toNat_lt
  have hu : x.toModel.unpack = @UnpackedFloat.unpack Format.binary64 x.toBits.toBitVec := rfl
  unfold UnpackedFloat.unpack at hu
  dsimp only at hu
  have hd := decode_eq x
  generalize x.toBits.toNat = b at hm he hs hb hd
  have hsign : Sign.ofBitVec (@UnpackedFloat.unpackSign Format.binary64 x.toBits.toBitVec) =
      signOf (b / 2 ^ 63 == 1) := by
    unfold Sign.ofBitVec
    by_cases h0 : b / 2 ^ 63 = 0
    · rw [if_pos (BitVec.toNat_inj.1 (hs.trans (h0.trans (rfl : _ = (0#1).toNat)))), h0]
      rfl
    · have h1 : b / 2 ^ 63 = 1 := by omega
      rw [if_neg fun h => h0 (hs.symm.trans (BitVec.toNat_inj.2 h)), h1]
      rfl
  rw [hsign] at hu
  by_cases htop : b / 2 ^ 52 % 2 ^ 11 = 2047
  · have hg := BitVec.toNat_inj.1 (he.trans (htop.trans (rfl : _ = (-1#11).toNat)))
    rw [if_pos hg] at hu
    rw [if_pos htop] at hd
    split_ifs at hu
    · exact .infinity _ hd hu
    · exact .notANumber hd hu
  rw [if_neg fun h => htop (he.symm.trans (BitVec.toNat_inj.2 h))] at hu
  rw [if_neg htop] at hd
  by_cases hlow : b / 2 ^ 52 % 2 ^ 11 = 0
  · have hg := BitVec.toNat_inj.1 (he.trans (hlow.trans (rfl : _ = (0#11).toNat)))
    rw [if_pos hg] at hu
    rw [if_pos hlow] at hd
    by_cases hf : @UnpackedFloat.unpackMantissa Format.binary64 x.toBits.toBitVec = 0#52
    · rw [dif_pos hf] at hu
      exact .zero _ (hm.symm.trans (BitVec.toNat_inj.2 hf)) rfl hd hu
    · rw [dif_neg hf] at hu
      have hpos : b % 2 ^ 52 ≠ 0 := fun h =>
        hf (BitVec.toNat_inj.1 (hm.trans (h.trans (rfl : _ = (0#52).toNat))))
      refine .finite _ (Nat.pos_of_ne_zero hpos) ⟨?_, le_rfl, .inr rfl⟩ ?_ hd (hu.trans ?_)
      · dsimp only
        omega
      · dsimp only
        omega
      · rw [UnpackedFloat.finite.injEq]
        exact ⟨rfl, hm, by rw [he, hlow]; rfl⟩
  · rw [if_neg fun h => hlow (he.symm.trans (BitVec.toNat_inj.2 h))] at hu
    rw [if_neg hlow] at hd
    refine .finite _ (Nat.add_pos_left (by positivity) _) ⟨?_, ?_, .inl ?_⟩ ?_ hd (hu.trans ?_)
    · dsimp only
      omega
    · dsimp only
      omega
    · exact Nat.le_add_right _ _
    · dsimp only
      omega
    · rw [UnpackedFloat.finite.injEq]
      exact ⟨rfl, (append_toNat _).trans (by rw [hm]), by rw [he]; rfl⟩

theorem isCanonical_unpack (x : Float) : IsCanonical x.toModel.unpack := by
  cases decoded x with
  | notANumber _ hu | infinity _ _ hu | zero _ _ _ _ hu =>
    rw [hu]
    trivial
  | finite _ _ hf _ _ hu =>
    rw [hu]
    exact hf

theorem extentOf_of_decode {x : Float} {p : Parts} (h : decode x = some p) :
    -1074 ≤ p.exponent ∧ extentOf x.toModel.unpack = some (finite p.units) := by
  cases decoded x with
  | notANumber hd | infinity _ hd => cases hd.symm.trans h
  | zero p' hp he hd hu =>
    cases hd.symm.trans h
    have hz : p.units = 0 := by
      unfold Parts.units units
      rw [hp]
      cases p.negative <;> simp [signOf, Sign.apply]
    rw [hu, hz]
    exact ⟨he.ge, rfl⟩
  | finite p' hp hf he hd hu =>
    cases hd.symm.trans h
    rw [hu]
    exact ⟨hf.least, rfl⟩

/-- The exact order of the parts of a double and an integer is that of their units. -/
theorem compareInt_eq (p : Parts) (hp : -1074 ≤ p.exponent) (i : ℤ) :
    p.compareInt i = compare p.units (i * unitsInOne) := by
  have hm : (if p.negative = true then -(p.mantissa : ℤ) else p.mantissa) =
      (signOf p.negative).apply p.mantissa := by
    cases p.negative <;> rfl
  have hu : p.units = (signOf p.negative).apply p.mantissa * 2 ^ (p.exponent + 1074).toNat := by
    unfold Parts.units units signOf Sign.apply
    push_cast
    cases p.negative
    · rfl
    · exact (neg_mul _ _).symm
  unfold Parts.compareInt twoTo
  simp only [hm, hu, Nat.pow_eq, Nat.cast_pow, Nat.cast_ofNat]
  split_ifs with he
  · rw [← compare_mul _ i unitsInOne_pos, unitsInOne, mul_assoc, ← pow_add]
    congr 4
    omega
  · have hn : (0 : ℤ) < 2 ^ (p.exponent + 1074).toNat := by positivity
    rw [← compare_mul _ _ hn, unitsInOne, mul_assoc i, ← pow_add]
    congr 4
    omega

end Binary64

namespace Number

open Binary64

/-- What a number stands for. -/
def extent? : Number → Option Extent
  | int i => some (finite (i * unitsInOne))
  | float x => extentOf x.toModel.unpack

@[simp]
theorem extent?_int (i : ℤ) : (int i).extent? = some (finite (i * unitsInOne)) := rfl

@[simp]
theorem extent?_float (x : Float) : (float x).extent? = extentOf x.toModel.unpack := rfl

/-- Every number stands for something, but for a double that is none. -/
theorem extent?_eq_none_iff (a : Number) :
    a.extent? = none ↔ ∃ x : Float, a = .float x ∧ x.isNaN = true := by
  cases a with
  | int i => simp
  | float x =>
    have hx : x.isNaN = true ↔ extentOf x.toModel.unpack = none := by
      change x.toModel.unpack.isNaN = true ↔ _
      cases x.toModel.unpack with
      | notANumber => exact iff_of_true rfl rfl
      | infinity s => cases s <;> exact iff_of_false nofun nofun
      | zero | finite => exact iff_of_false nofun nofun
    rw [extent?_float, ← hx]
    constructor
    · intro h
      exact ⟨x, rfl, h⟩
    · rintro ⟨y, hy, h⟩
      cases hy
      exact h

theorem float_lt_iff (x y : Float) :
    x < y ↔ x.toModel.unpack.compare y.toModel.unpack = some .lt :=
  decide_eq_true_iff.trans beq_iff_eq

theorem float_beq_iff (x y : Float) :
    (x == y) = true ↔ x.toModel.unpack.compare y.toModel.unpack = some .eq :=
  (beq_iff_eq : (x.toModel.unpack.compare y.toModel.unpack == some .eq) = true ↔ _)

/-- The order of a double and an integer. -/
theorem side_eq (x : Float) (i : ℤ) :
    compare?.side x i = Option.map₂ compare (float x).extent? (int i).extent? := by
  rw [extent?_float, extent?_int]
  unfold compare?.side
  have hzero : (0 : Float).toModel.unpack = .zero .positive := rfl
  cases hp : decode x with
  | some p =>
    obtain ⟨he, hx⟩ := extentOf_of_decode hp
    rw [hx, Option.map₂_some_some, compare_finite]
    exact congrArg some (compareInt_eq p he i)
  | none =>
    cases decoded x with
    | notANumber _ hu =>
      have hn : x.isNaN = true := (congrArg UnpackedFloat.isNaN hu :)
      rw [hu]
      exact if_pos hn
    | infinity s _ hu =>
      have hn : x.isNaN = false := (congrArg UnpackedFloat.isNaN hu :)
      have hlt := float_lt_iff x 0
      rw [hu, hzero] at hlt
      rw [hu]
      refine (if_neg (Bool.eq_false_iff.1 hn)).trans ?_
      cases s with
      | negative =>
        rw [if_pos (hlt.2 rfl)]
        exact congrArg some (compare_bot_finite _).symm
      | positive =>
        rw [if_neg fun h => by cases hlt.1 h]
        exact congrArg some (compare_top_finite _).symm
    | zero _ _ _ hd | finite _ _ _ _ hd => cases hd.symm.trans hp

/-- Numbers are compared by what they stand for. -/
theorem compare?_eq (a b : Number) : compare? a b = Option.map₂ compare a.extent? b.extent? := by
  rcases a with i | x <;> rcases b with j | y
  · rw [extent?_int, extent?_int, Option.map₂_some_some, compare_finite,
      compare_mul i j unitsInOne_pos]
    rfl
  · change (compare?.side y i).map Ordering.swap = _
    rw [side_eq]
    cases (float y).extent? with
    | none => rfl
    | some u => exact congrArg some Std.OrientedCmp.eq_swap.symm
  · exact side_eq x j
  · have hc := compare_extentOf (isCanonical_unpack x) (isCanonical_unpack y)
    have hc' := compare_extentOf (isCanonical_unpack y) (isCanonical_unpack x)
    have hlt := float_lt_iff x y
    have hgt := float_lt_iff y x
    have heq := float_beq_iff x y
    rw [extent?_float, extent?_float]
    unfold compare?
    rw [hc] at hlt heq
    rw [hc'] at hgt
    simp only [hlt, hgt, heq]
    rcases extentOf x.toModel.unpack with _ | u <;> rcases extentOf y.toModel.unpack with _ | v
    · rfl
    · rfl
    · rfl
    · simp only [Option.map₂_some_some, Option.some.injEq, compare_lt_iff_lt, compare_eq_iff_eq]
      rcases lt_trichotomy u v with h | rfl | h
      · rw [if_pos h, compare_lt_iff_lt.2 h]
      · simp
      · rw [if_neg h.not_gt, if_pos h, compare_gt_iff_gt.2 h]

/-- A number is within another one where both are numbers and what it stands for is. -/
theorem le_iff (a b : Number) : a.le b = true ↔ ∃ u ∈ a.extent?, ∃ v ∈ b.extent?, u ≤ v := by
  unfold le lt
  rw [compare?_eq]
  rcases a.extent? with _ | u <;> rcases b.extent? with _ | v
  · simp
  · simp
  · simp
  · simp [compare_lt_iff_lt, le_iff_lt_or_eq]

theorem lt_iff (a b : Number) : a.lt b = true ↔ ∃ u ∈ a.extent?, ∃ v ∈ b.extent?, u < v := by
  unfold lt
  rw [compare?_eq]
  rcases a.extent? with _ | u <;> rcases b.extent? with _ | v
  · simp
  · simp
  · simp
  · simp [compare_lt_iff_lt]

variable {a b c : Number}

theorem le_trans (hab : a.le b = true) (hbc : b.le c = true) : a.le c = true := by
  obtain ⟨u, hu, v, hv, huv⟩ := (le_iff a b).1 hab
  obtain ⟨v', hv', w, hw, hvw⟩ := (le_iff b c).1 hbc
  cases hv.symm.trans hv'
  exact (le_iff a c).2 ⟨u, hu, w, hw, huv.trans hvw⟩

theorem not_le_of_lt (h : a.lt b = true) : ¬ b.le a = true := by
  intro hba
  obtain ⟨u, hu, v, hv, huv⟩ := (lt_iff a b).1 h
  obtain ⟨v', hv', u', hu', hvu⟩ := (le_iff b a).1 hba
  cases hu.symm.trans hu'
  cases hv.symm.trans hv'
  exact absurd huv hvu.not_gt

/-- Of two that are numbers one is within the other or less. -/
theorem le_or_lt {u v : Extent} (ha : a.extent? = some u) (hb : b.extent? = some v) :
    a.le b = true ∨ b.lt a = true := by
  rcases le_or_gt u v with h | h
  · exact .inl ((le_iff a b).2 ⟨u, ha, v, hb, h⟩)
  · exact .inr ((lt_iff b a).2 ⟨v, hb, u, ha, h⟩)

/-! ### Whole numbers -/

theorem int_le_int (i j : ℤ) : (int i).le (.int j) = decide (i ≤ j) := by
  rw [Bool.eq_iff_iff, le_iff, decide_eq_true_iff]
  simp [finite_le, Int.mul_le_mul_right unitsInOne_pos]

theorem int_lt_int (i j : ℤ) : (int i).lt (.int j) = decide (i < j) := by
  rw [Bool.eq_iff_iff, lt_iff, decide_eq_true_iff]
  simp [finite_lt, Int.mul_lt_mul_right unitsInOne_pos]

/-- Below a bound there is no gap. -/
theorem int_le_of_le {i j : ℤ} (h : (int i).le b = true) (hij : j ≤ i) : (int j).le b = true :=
  le_trans (by rw [int_le_int, decide_eq_true hij]) h

/-- What is not above a bound is within it, if anything is. -/
theorem int_le_of_not_lt {i j : ℤ} (h : (int i).le b = true) (hj : ¬ b.lt (int j) = true) :
    (int j).le b = true := by
  obtain ⟨-, -, v, hv, -⟩ := (le_iff _ _).1 h
  exact (le_or_lt (extent?_int j) hv).resolve_right hj

end Number
end Stencil
