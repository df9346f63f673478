/-!
# Alignment

Stack frames, code and data all start at multiples of sixteen.
-/

namespace CallBridge

/-- The least multiple of 16 that is not below `n`. -/
def align16 (n : Nat) : Nat :=
  (n + 15) / 16 * 16

theorem dvd_align16 (n : Nat) : 16 ∣ align16 n :=
  Nat.dvd_mul_left 16 _

theorem le_align16 (n : Nat) : n ≤ align16 n := by
  unfold align16
  omega

theorem align16_le {n m : Nat} (hm : 16 ∣ m) (h : n ≤ m) : align16 n ≤ m := by
  unfold align16
  omega

end CallBridge
