/-! Instances of the standard library by names of this library. Where several equal instances could
stand in a definition, these do, whatever else is imported where the definition is read.
-/

namespace CaseGrouping

/-- Powers of natural numbers. -/
@[default_instance high]
instance (priority := high) powNat : Pow Nat Nat :=
  instPowNat

/-- No text comes before itself. -/
instance irreflString : Std.Irrefl (α := String) (· < ·) where
  irrefl := String.lt_irrefl

/-- Texts are ordered transitively. -/
instance transString : Trans (α := String) (β := String) (γ := String) (· < ·) (· < ·) (· < ·) where
  trans := String.lt_trans

/-- Two texts of which neither comes first are the same. -/
instance trichotomousString : Std.Trichotomous (α := String) (· < ·) where
  trichotomous _ _ notLess notGreater :=
    String.le_antisymm (String.not_lt.mp notGreater) (String.not_lt.mp notLess)

end CaseGrouping
