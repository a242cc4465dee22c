import Mathlib
import Polarity.Model.Numerics

/-!
# Values within the margins

An activated value compares neither below the lower margin nor above the upper one.
That asks next to nothing of the comparison, so it holds of doubles too, among which
a value that is no number compares with nothing.  Of two doubles that are numbers,
one is below the other or not above it, so an activated double is no number or lies
between the margins.  The numbers among them are in the order of their ranks.
-/

namespace Polarity

/-! ## Comparisons of doubles -/

namespace Double

open Float.Model

private theorem map_swap_compare (a b : UnpackedFloat) :
    (a.compare b).map Ordering.swap = b.compare a := by
  cases a with
  | notANumber => cases b <;> rfl
  | infinity sign =>
      cases sign <;> cases b with
      | infinity other => cases other <;> rfl
      | _ => rfl
  | zero sign =>
      cases b with
      | infinity other => cases other <;> rfl
      | finite other mantissa exponent hpos => cases other <;> rfl
      | _ => rfl
  | finite sign mantissa exponent hpos =>
      cases sign <;> cases b with
      | infinity other => cases other <;> rfl
      | finite other mantissa exponent hpos =>
          cases other <;>
            simp [UnpackedFloat.compare, Ordering.swap_then, Int.compare_swap, Nat.compare_swap]
      | _ => rfl

private theorem isNaN_of_compare {a b : UnpackedFloat} (hcompare : a.compare b = none) :
    a.isNaN ∨ b.isNaN := by
  unfold UnpackedFloat.compare at hcompare
  split at hcompare <;> simp_all [UnpackedFloat.isNaN]

theorem lt_iff_compare {a b : Float} :
    a < b ↔ a.toModel.unpack.compare b.toModel.unpack = some .lt := by
  change decide (a.toModel.unpack.lt b.toModel.unpack = true) = true ↔ _
  rw [decide_eq_true_iff, UnpackedFloat.lt, beq_iff_eq]

private theorem le_iff_compare {a b : Float} :
    a ≤ b ↔ (a.toModel.unpack.compare b.toModel.unpack).any Ordering.isLE := by
  change decide (a.toModel.unpack.le b.toModel.unpack = true) = true ↔ _
  rw [decide_eq_true_iff, UnpackedFloat.le]

theorem le_of_not_lt {a b : Float} (ha : a.isNaN = false) (hb : b.isNaN = false)
    (hlt : ¬a < b) : b ≤ a := by
  rw [lt_iff_compare] at hlt
  rw [le_iff_compare, ← map_swap_compare]
  cases hcompare : a.toModel.unpack.compare b.toModel.unpack with
  | none =>
      rcases isNaN_of_compare hcompare with hnan | hnan
      · exact absurd (ha.symm.trans hnan) Bool.false_ne_true
      · exact absurd (hb.symm.trans hnan) Bool.false_ne_true
  | some order =>
      rw [hcompare] at hlt
      cases order with
      | lt => exact absurd rfl hlt
      | eq => rfl
      | gt => rfl

/-- Where a double that is a number stands among the others; the two zeros stand together. -/
def rank : UnpackedFloat → ℤ ×ₗ ℤ ×ₗ ℤ
  | .infinity .negative => toLex (-2, toLex (0, 0))
  | .finite .negative mantissa exponent _ => toLex (-1, toLex (-exponent, -mantissa))
  | .finite .positive mantissa exponent _ => toLex (1, toLex (exponent, mantissa))
  | .infinity .positive => toLex (2, toLex (0, 0))
  | .zero _ | .notANumber => toLex (0, toLex (0, 0))

private theorem compare_eq_lt_iff (a b : UnpackedFloat) :
    a.compare b = some .lt ↔ a.isNaN = false ∧ b.isNaN = false ∧ rank a < rank b := by
  have hsigns : compare UnpackedFloat.Sign.negative .positive = .lt ∧
      compare UnpackedFloat.Sign.positive .negative = .gt := by decide
  rcases a with ⟨_ | _⟩ | _ | _ | ⟨_ | _, mantissa, exponent, _⟩ <;>
    rcases b with ⟨_ | _⟩ | _ | _ | ⟨_ | _, other, power, _⟩ <;>
    simp [UnpackedFloat.compare, UnpackedFloat.isNaN, rank, Prod.Lex.toLex_lt_toLex,
      Ordering.then_eq_lt, Ordering.swap_then, Int.compare_swap, Nat.compare_swap,
      Int.compare_eq_lt, Nat.compare_eq_lt, hsigns]
  -- Two negative numbers are left, whose exponents compare the other way round.
  exact or_congr_right (and_congr_left fun _ => eq_comm)

/-- Doubles that are numbers are ordered by their ranks, and all others compare with nothing. -/
theorem lt_iff_rank {a b : Float} :
    a < b ↔ a.isNaN = false ∧ b.isNaN = false ∧ rank a.toModel.unpack < rank b.toModel.unpack :=
  lt_iff_compare.trans (compare_eq_lt_iff _ _)

theorem not_lt_self (a : Float) : ¬a < a := fun hlt => lt_irrefl _ (lt_iff_rank.mp hlt).2.2

theorem not_lt_of_isNaN {a : Float} (ha : a.isNaN = true) (b : Float) : ¬a < b := by
  intro hlt
  exact Bool.false_ne_true ((lt_iff_rank.mp hlt).1.symm.trans ha)

protected theorem lt_trans {a b c : Float} (hab : a < b) (hbc : b < c) : a < c := by
  obtain ⟨ha, -, hfirst⟩ := lt_iff_rank.mp hab
  obtain ⟨-, hc, hsecond⟩ := lt_iff_rank.mp hbc
  exact lt_iff_rank.mpr ⟨ha, hc, hfirst.trans hsecond⟩

/-- What is not below `b` is above all that is, if it is a number. -/
theorem lt_of_lt_of_not_lt {a b c : Float} (hab : a < b) (hcb : ¬c < b) :
    c.isNaN = true ∨ a < c := by
  obtain ⟨ha, hb, hrank⟩ := lt_iff_rank.mp hab
  cases hc : c.isNaN with
  | true => exact .inl rfl
  | false =>
      rw [lt_iff_rank, not_and, not_and] at hcb
      exact .inr (lt_iff_rank.mpr ⟨ha, hc, hrank.trans_le (not_lt.mp (hcb hc hb))⟩)

private theorem eq_of_unpack {a b : Float} (hunpack : a.toModel.unpack = b.toModel.unpack) :
    a = b := by
  have hbits := (UnpackedFloat.unpack_inj_of_valid a.toModel.valid b.toModel.valid).mp hunpack
  obtain ⟨⟨⟨bits⟩, hvalid⟩⟩ := a
  obtain ⟨⟨⟨others⟩, hothers⟩⟩ := b
  cases hbits
  rfl

private theorem unpack_infinity :
    Numerics.double.infinity.toModel.unpack = .infinity .positive := rfl

theorem not_lt_infinity_iff {a : Float} :
    ¬a < Numerics.double.infinity ↔ a.isNaN = true ∨ a = Numerics.double.infinity := by
  constructor
  · intro hlt
    rw [lt_iff_compare, unpack_infinity] at hlt
    cases hunpack : a.toModel.unpack with
    | notANumber => exact .inl (congrArg UnpackedFloat.isNaN hunpack)
    | infinity sign =>
        cases sign with
        | positive => exact .inr (eq_of_unpack (hunpack.trans unpack_infinity.symm))
        | negative => exact absurd (hunpack ▸ rfl) hlt
    | zero sign => exact absurd (hunpack ▸ rfl) hlt
    | finite sign mantissa exponent hpos => exact absurd (hunpack ▸ rfl) hlt
  · rintro (hnan | rfl)
    · exact not_lt_of_isNaN hnan _
    · exact not_lt_self _

end Double

/-! ## Margins -/

namespace Numerics

variable {α : Type} [One α] [Sub α] [LT α] (numerics : Numerics α)

/-- The value compares neither below the lower margin nor above the upper one. -/
structure Within (value : α) : Prop where
  not_below : ¬value < numerics.margin
  not_above : ¬1 - numerics.margin < value

structure HasMargins : Prop where
  low : numerics.Within numerics.margin
  high : numerics.Within (1 - numerics.margin)

variable {numerics}

theorem HasMargins.within_activate [DecidableLT α] (hmargins : numerics.HasMargins) (z : α) :
    numerics.Within (numerics.activate z) := by
  unfold activate clamp
  split
  · exact hmargins.low
  · next hlow =>
      split
      · exact hmargins.high
      · next hhigh => exact ⟨hlow, hhigh⟩

theorem hasMargins_double : double.HasMargins where
  low := ⟨by decide +kernel, by decide +kernel⟩
  high := ⟨by decide +kernel, by decide +kernel⟩

theorem isNaN_or_of_within {a : Float} (hwithin : double.Within a) :
    a.isNaN ∨ double.margin ≤ a ∧ a ≤ 1 - double.margin := by
  cases ha : a.isNaN with
  | true => exact .inl rfl
  | false =>
      exact .inr ⟨Double.le_of_not_lt ha (by decide +kernel) hwithin.not_below,
        Double.le_of_not_lt (by decide +kernel) ha hwithin.not_above⟩

end Numerics

/-! ## Exact arithmetic -/

namespace Numerics

variable {α : Type} [Field α] [LinearOrder α] [IsStrictOrderedRing α] {numerics : Numerics α}

theorem hasMargins_of_lt_half (hmargin : numerics.margin < 1 / 2) : numerics.HasMargins where
  low := ⟨lt_irrefl _, by linarith⟩
  high := ⟨by linarith, lt_irrefl _⟩

/-- The product `a (1 - a)` is least at the margins. -/
theorem Within.le_mul {a : α} (hwithin : numerics.Within a) :
    numerics.margin * (1 - numerics.margin) ≤ a * (1 - a) := by
  have hlow : 0 ≤ a - numerics.margin := sub_nonneg.mpr (not_lt.mp hwithin.not_below)
  have hhigh : 0 ≤ 1 - numerics.margin - a := sub_nonneg.mpr (not_lt.mp hwithin.not_above)
  have hgap : a * (1 - a) - numerics.margin * (1 - numerics.margin) =
      (a - numerics.margin) * (1 - numerics.margin - a) := by ring
  exact sub_nonneg.mp (hgap ▸ mul_nonneg hlow hhigh)

end Numerics

end Polarity
