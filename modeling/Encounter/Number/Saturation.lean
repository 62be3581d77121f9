/-!
# Saturation

Counters, coordinates and hit points are fixed-width integers whose sums stop at the limits of
their width instead of wrapping. Each function here takes the exact whole number and gives the
nearest one that the width holds.
-/

set_option autoImplicit false

namespace Encounter

/-- The signed 64-bit integer nearest to `i`. -/
def saturate64 (i : Int) : Int64 :=
  Int64.ofInt (max (-0x8000000000000000) (min i 0x7fffffffffffffff))

/-- The signed 32-bit integer nearest to `i`. -/
def saturate32 (i : Int) : Int32 :=
  Int32.ofInt (max (-0x80000000) (min i 0x7fffffff))

/-- The unsigned 64-bit integer nearest to `n`. -/
def saturateU64 (n : Nat) : UInt64 :=
  UInt64.ofNat (min n 0xffffffffffffffff)

/-- The unsigned 32-bit integer nearest to `n`. -/
def saturateU32 (n : Nat) : UInt32 :=
  UInt32.ofNat (min n 0xffffffff)

theorem toInt_saturate64 (i : Int) :
    (saturate64 i).toInt = max (-0x8000000000000000) (min i 0x7fffffffffffffff) :=
  Int64.toInt_ofInt_of_le (by omega) (by omega)

theorem toNat_saturateU64 (n : Nat) : (saturateU64 n).toNat = min n 0xffffffffffffffff := by
  simp only [saturateU64, UInt64.toNat_ofNat']
  omega

theorem toNat_saturateU32 (n : Nat) : (saturateU32 n).toNat = min n 0xffffffff := by
  simp only [saturateU32, UInt32.toNat_ofNat']
  omega

/-! ## Order -/

theorem eq_maxValue_iff {i : Int64} : i = Int64.maxValue ↔ i.toInt = 0x7fffffffffffffff :=
  Int64.toInt_inj.symm

theorem saturate64_mono {i j : Int} (h : i ≤ j) : saturate64 i ≤ saturate64 j := by
  rw [Int64.le_iff_toInt_le, toInt_saturate64, toInt_saturate64]
  omega

theorem toInt_max (a b : Int64) : (max a b).toInt = max a.toInt b.toInt := by
  have hmax : max a b = if a ≤ b then b else a := rfl
  rw [hmax]
  split
  next h => exact (Int.max_eq_right (Int64.le_iff_toInt_le.1 h)).symm
  next h => exact (Int.max_eq_left (Int.le_of_not_le (mt Int64.le_iff_toInt_le.2 h))).symm

theorem toInt_min (a b : Int64) : (min a b).toInt = min a.toInt b.toInt := by
  have hmin : min a b = if a ≤ b then a else b := rfl
  rw [hmin]
  split
  next h => exact (Int.min_eq_left (Int64.le_iff_toInt_le.1 h)).symm
  next h => exact (Int.min_eq_right (Int.le_of_not_le (mt Int64.le_iff_toInt_le.2 h))).symm

end Encounter
