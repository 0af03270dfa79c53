import SpringLayout.Scalar

/-!
Binary64 floating point as a scalar. Every operation rounds on its own, to nearest with ties to
even; no product is fused with a sum.
-/

namespace SpringLayout

instance : PolarScalar Float where
  natCast := Float.ofNat
  decidableLe a b := inferInstanceAs (Decidable (a ≤ b))
  decidableLt a b := inferInstanceAs (Decidable (a < b))
  isFinite := Float.isFinite
  sqrt := Float.sqrt
  cos := Float.cos
  sin := Float.sin

end SpringLayout
