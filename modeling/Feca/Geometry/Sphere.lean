import Mathlib.Analysis.SpecialFunctions.Trigonometric.Inverse

/-! # Angles on the sphere

The angle between two points of a sphere, from their latitudes `φ` and longitudes
`θ`, by the law of cosines. The haversine formula computes it; along a meridian and
along the equator it is the difference of the coordinates.
-/

namespace Geometry

open Real

noncomputable def centralAngle (φ₁ θ₁ φ₂ θ₂ : ℝ) : ℝ :=
  arccos (sin φ₁ * sin φ₂ + cos φ₁ * cos φ₂ * cos (θ₂ - θ₁))

variable {φ φ₁ φ₂ θ θ₁ θ₂ : ℝ}

/-! ## The haversine formula -/

/-- Also where rounding has left the range of a haversine. -/
theorem two_mul_arcsin_sqrt (h : ℝ) : 2 * arcsin √h = arccos (1 - 2 * h) := by
  rcases le_or_gt h 0 with hneg | hpos
  · rw [sqrt_eq_zero'.mpr hneg, arcsin_zero, mul_zero, eq_comm, arccos_eq_zero]
    linarith
  rcases le_or_gt 1 h with hbig | hsmall
  · rw [arcsin_of_one_le (one_le_sqrt.mpr hbig), arccos_of_le_neg_one (by linarith)]
    ring
  have hroot : √h ≤ 1 := sqrt_le_one.mpr hsmall.le
  have hcos : cos (2 * arcsin √h) = 1 - 2 * h := by
    rw [cos_two_mul', cos_sq', sin_arcsin (by linarith [sqrt_nonneg h]) hroot, sq_sqrt hpos.le]
    ring
  have harcsin := arcsin_nonneg.mpr (sqrt_nonneg h)
  rw [← hcos, arccos_cos (by linarith) (by linarith [arcsin_le_pi_div_two √h])]

theorem haversine_formula (φ₁ θ₁ φ₂ θ₂ : ℝ) :
    2 * arcsin √(sin ((φ₂ - φ₁) / 2) ^ 2 + cos φ₁ * cos φ₂ * sin ((θ₂ - θ₁) / 2) ^ 2) =
      centralAngle φ₁ θ₁ φ₂ θ₂ := by
  have hhalf : ∀ x : ℝ, sin (x / 2) ^ 2 = (1 - cos x) / 2 := by
    intro x
    rw [sin_sq_eq_half_sub]
    ring_nf
  rw [two_mul_arcsin_sqrt, centralAngle, hhalf, hhalf, cos_sub φ₂ φ₁]
  ring_nf

/-! ## Along the circles -/

theorem arccos_cos_abs {x : ℝ} (h : |x| ≤ π) : arccos (cos x) = |x| := by
  rw [← cos_abs, arccos_cos (abs_nonneg x) h]

theorem centralAngle_meridian (h : |φ₂ - φ₁| ≤ π) : centralAngle φ₁ θ φ₂ θ = |φ₂ - φ₁| := by
  rw [← arccos_cos_abs h, centralAngle, sub_self, cos_zero, cos_sub]
  ring_nf

theorem centralAngle_equator (h : |θ₂ - θ₁| ≤ π) : centralAngle 0 θ₁ 0 θ₂ = |θ₂ - θ₁| := by
  rw [← arccos_cos_abs h, centralAngle, sin_zero, cos_zero]
  ring_nf

/-! ## One point -/

theorem cos_pos_of_abs_lt (h : |φ| < π / 2) : 0 < cos φ := cos_pos_of_mem_Ioo (abs_lt.mp h)

theorem cos_nonneg_of_abs_le (h : |φ| ≤ π / 2) : 0 ≤ cos φ := cos_nonneg_of_mem_Icc (abs_le.mp h)

/-- Away from the poles, no angle is between two points that differ by full turns only. -/
theorem centralAngle_nonpos_iff (h₁ : |φ₁| < π / 2) (h₂ : |φ₂| ≤ π / 2) :
    centralAngle φ₁ θ₁ φ₂ θ₂ ≤ 0 ↔ φ₂ = φ₁ ∧ ∃ n : ℤ, n * (2 * π) = θ₂ - θ₁ := by
  have hcos₁ : 0 < cos φ₁ := cos_pos_of_abs_lt h₁
  have hcos₂ : 0 ≤ cos φ₂ := cos_nonneg_of_abs_le h₂
  have hsum : sin φ₁ * sin φ₂ + cos φ₁ * cos φ₂ * cos (θ₂ - θ₁) =
      cos (φ₂ - φ₁) - cos φ₁ * cos φ₂ * (1 - cos (θ₂ - θ₁)) := by
    rw [cos_sub φ₂ φ₁]
    ring
  have hzero : ∀ x, arccos x ≤ 0 ↔ arccos x = 0 :=
    fun x => ⟨fun h => le_antisymm h (arccos_nonneg x), Eq.le⟩
  rw [centralAngle, hzero, arccos_eq_zero, hsum, ← cos_eq_one_iff]
  constructor
  · intro h
    have hlng : 0 ≤ cos φ₁ * cos φ₂ * (1 - cos (θ₂ - θ₁)) :=
      mul_nonneg (mul_nonneg hcos₁.le hcos₂) (sub_nonneg.mpr (cos_le_one _))
    have hlat : cos (φ₂ - φ₁) = 1 := le_antisymm (cos_le_one _) (by linarith)
    have hlt := abs_lt.mp h₁
    have hle := abs_le.mp h₂
    have hφ : φ₂ = φ₁ := by
      have := (cos_eq_one_iff_of_lt_of_lt (by linarith) (by linarith)).mp hlat
      linarith
    subst hφ
    rw [hlat] at h
    have hprod : cos φ₂ * cos φ₂ * (1 - cos (θ₂ - θ₁)) = 0 := by linarith
    rcases mul_eq_zero.mp hprod with hc | hs
    · exact absurd hc (mul_pos hcos₁ hcos₁).ne'
    · exact ⟨rfl, by linarith⟩
  · rintro ⟨rfl, hturn⟩
    rw [hturn, sub_self, cos_zero]
    linarith

end Geometry
