import AtomicRules.Binary64.Shortest
import AtomicRules.Proofs.NearestEven

/-!
# Facts on shortest decimals

The search for the shortest decimal always finds one, at the latest on the finest grid
(`onGrid?_finest`), and never on a finer grid than one that is known to have a hit
(`readsBack_shortestFrom`). What it finds is not zero and lies between the midpoints to the two
neighbours of the magnitude (`near_shortest`).
-/

namespace AtomicRules

namespace Binary64

/-! ## The search for the shortest decimal -/

/-- A hit on a grid is read back. -/
theorem readsBack_of_onGrid? {magnitude grid coefficient : Nat}
    (h : onGrid? magnitude grid = some coefficient) :
    readsBack magnitude coefficient grid = true := by
  unfold onGrid? at h
  dsimp only at h
  split at h
  · next hbelow habove =>
      cases h
      split
      · exact hbelow
      · exact habove
  · next hbelow _ =>
      cases h
      exact hbelow
  · next _ habove =>
      cases h
      exact habove
  · contradiction

theorem gridPoint_eq_mul (coefficient grid : Nat) :
    gridPoint coefficient grid = coefficient * gridPoint 1 grid := by
  have hshift (power places : Nat) :
      (coefficient * power) <<< places = coefficient * (1 * power) <<< places := by
    rw [Nat.shiftLeft_eq, Nat.shiftLeft_eq]
    ring
  exact hshift _ 1075

theorem comparable_add (a b : Nat) : comparable (a + b) = comparable a + comparable b :=
  Nat.add_mul _ _ _

theorem comparable_one : comparable 1 = Nat.pow 10 finest :=
  Nat.one_mul _

theorem comparable_le {a b : Nat} (h : a ≤ b) : comparable a ≤ comparable b :=
  Nat.mul_le_mul_right _ h

/-- Half a unit above the midpoint before a magnitude and half a unit below the one after it, there
is still its size. -/
theorem comparable_midpoints {magnitude : Nat} (hpos : 0 < magnitude) :
    comparable (units (magnitude - 1) + units magnitude) + comparable 1 ≤
        comparable (2 * units magnitude) ∧
      comparable (2 * units magnitude) + comparable 1 ≤
        comparable (units magnitude + units (magnitude + 1)) := by
  have hbefore := units_lt_units (by omega : magnitude - 1 < magnitude)
  have hafter := units_lt_units (Nat.lt_add_one magnitude)
  rw [← comparable_add, ← comparable_add]
  exact ⟨comparable_le (by omega), comparable_le (by omega)⟩

/-- A point between the midpoints is read back. -/
theorem readsBack_of_lt {magnitude coefficient grid : Nat}
    (hbefore : comparable (units (magnitude - 1) + units magnitude) < gridPoint coefficient grid)
    (hafter : gridPoint coefficient grid < comparable (units magnitude + units (magnitude + 1))) :
    readsBack magnitude coefficient grid = true := by
  unfold readsBack
  dsimp only
  split <;> simp only [Bool.and_eq_true, decide_eq_true_eq] <;> omega

/-- A grid has a hit where its point below a size is less than half a unit away. -/
theorem exists_onGrid? {magnitude grid : Nat} (hpos : 0 < magnitude)
    (hnear : comparable (2 * units magnitude) % gridPoint 1 grid < comparable 1) :
    ∃ coefficient, onGrid? magnitude grid = some coefficient := by
  obtain ⟨hbefore, hafter⟩ := comparable_midpoints hpos
  have hhit : readsBack magnitude (comparable (2 * units magnitude) / gridPoint 1 grid) grid =
      true := by
    have hsplit := Nat.div_add_mod (comparable (2 * units magnitude)) (gridPoint 1 grid)
    apply readsBack_of_lt
    all_goals
      rw [gridPoint_eq_mul, Nat.mul_comm]
      omega
  unfold onGrid?
  dsimp only
  rw [hhit]
  cases readsBack magnitude (comparable (2 * units magnitude) / gridPoint 1 grid + 1) grid with
  | true => exact ⟨_, rfl⟩
  | false => exact ⟨_, rfl⟩

/-- The finest grid has a hit. -/
theorem onGrid?_finest {magnitude : Nat} (hpos : 0 < magnitude) :
    ∃ coefficient, onGrid? magnitude 0 = some coefficient := by
  have hfine : gridPoint 1 0 < comparable 1 := by decide +kernel
  have hunit : 0 < gridPoint 1 0 := by decide +kernel
  exact exists_onGrid? hpos (Nat.lt_trans (Nat.mod_lt _ hunit) hfine)

/-- From a grid on that is not finer than one with a hit, the search ends on such a grid and at a
decimal that is read back. -/
theorem readsBack_shortestFrom {magnitude floor : Nat}
    (hfloor : ∃ coefficient, onGrid? magnitude floor = some coefficient) {grid : Nat}
    (hle : floor ≤ grid) :
    ∃ coefficient hit : ℕ, floor ≤ hit ∧ shortestFrom magnitude grid = ⟨coefficient, hit - finest⟩ ∧
      readsBack magnitude coefficient hit = true := by
  induction grid with
  | zero =>
      obtain rfl := Nat.le_zero.1 hle
      obtain ⟨coefficient, hhit⟩ := hfloor
      refine ⟨coefficient, 0, le_rfl, ?_, readsBack_of_onGrid? hhit⟩
      rw [shortestFrom, hhit, Option.getD_some, Nat.cast_zero, zero_sub]
  | succ grid ih =>
      rw [shortestFrom]
      split
      · next coefficient hhit => exact ⟨coefficient, grid + 1, hle, rfl, readsBack_of_onGrid? hhit⟩
      · next hnone =>
          obtain ⟨coefficient, hhit⟩ := hfloor
          have hne : floor ≠ grid + 1 := by
            rintro rfl
            rw [hnone] at hhit
            contradiction
          exact ih (by omega)

/-! ## The value of the shortest decimal -/

/-- A decimal on a grid that is read back, in units, is near the magnitude. -/
theorem near_of_readsBack {magnitude coefficient grid : Nat}
    (h : readsBack magnitude coefficient grid = true) :
    Near (((coefficient * Nat.pow 10 grid) <<< 1074 : Nat) / (comparable 1 : Nat)) magnitude := by
  have hone (halfUnits : Nat) : halfUnits * comparable 1 = comparable halfUnits := by
    rw [comparable_one, comparable]
  have hshift (n places : Nat) : 2 * n <<< places = n <<< (places + 1) :=
    (Nat.shiftLeft_succ n places).symm
  have hpoint : 2 * (coefficient * Nat.pow 10 grid) <<< 1074 = gridPoint coefficient grid :=
    hshift _ 1074
  unfold readsBack at h
  dsimp only at h
  refine near_div (by decide +kernel) ?_ (fun _ => ?_) (fun hodd => ?_)
  · rw [hone, hpoint]
    split at h <;> simp only [Bool.and_eq_true, decide_eq_true_eq] at h <;> omega
  · rw [hone, hpoint]
    split at h <;> simp only [Bool.and_eq_true, decide_eq_true_eq] at h <;> omega
  · rw [hone, hone, hpoint]
    rw [if_neg (by omega)] at h
    simpa only [Bool.and_eq_true, decide_eq_true_eq] using h

/-- The size of a decimal on a grid. -/
theorem mul_zpow_sub (coefficient grid : Nat) :
    (coefficient * 10 ^ ((grid : ℤ) - finest) : ℚ) =
      ((coefficient * Nat.pow 10 grid) <<< 1074 : Nat) / (comparable 1 : Nat) / 2 ^ 1074 := by
  have hscale (places depth : Nat) : (coefficient * 10 ^ ((grid : ℤ) - depth) : ℚ) =
      ((coefficient * Nat.pow 10 grid) <<< places : Nat) / (Nat.pow 10 depth : Nat) /
        2 ^ places := by
    rw [zpow_sub₀ (by norm_num), zpow_natCast, zpow_natCast, Nat.shiftLeft_eq, Nat.pow_eq,
      Nat.pow_eq]
    push_cast
    field_simp
  rw [comparable_one]
  exact hscale 1074 finest

/-- The shortest decimal of a magnitude is near it. -/
theorem near_shortest {magnitude : Nat} (hpos : 0 < magnitude) :
    ∃ size : ℚ, Near size magnitude ∧ 0 < (shortest magnitude).coefficient ∧
      (shortest magnitude).coefficient * (10 : ℚ) ^ (shortest magnitude).exponent =
        size / 2 ^ 1074 := by
  obtain ⟨coefficient, grid, -, heq, hread⟩ :=
    readsBack_shortestFrom (onGrid?_finest hpos) (Nat.zero_le (coarsest magnitude))
  have hnear := near_of_readsBack hread
  rw [← shortest] at heq
  refine ⟨_, hnear, ?_, ?_⟩
  · rw [heq]
    rcases Nat.eq_zero_or_pos coefficient with rfl | hcoefficient
    · have hsize := hnear.pos hpos
      rw [Nat.zero_mul, Nat.zero_shiftLeft, Nat.cast_zero, zero_div] at hsize
      exact absurd hsize (lt_irrefl 0)
    · exact hcoefficient
  · rw [heq]
    exact mul_zpow_sub coefficient grid

end Binary64

end AtomicRules
