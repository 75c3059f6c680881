/-
Numbers as they are printed in decimal.
-/
import Mathlib.Data.Nat.Digits.Lemmas
import FlightSafety.Lib.Octets

namespace Octets

/-- The digits of a number, the first one first; zero has one. -/
def decimal (n : Nat) : Bytes :=
  if n = 0 then [48] else (Nat.digits 10 n).reverse.map fun d => 48 + d.toUInt8

/-- A number with a minus sign in front if it is negative. -/
def decimalInt (v : Int) : Bytes :=
  if v < 0 then 45 :: decimal v.natAbs else decimal v.natAbs

theorem toNat_digit {d : Nat} (h : d < 10) :
    (48 + d.toUInt8).toNat = 48 + d := by
  change (48 + d % 256) % 256 = 48 + d
  omega

/-- The digits of a printed number. -/
theorem digits_eq (n : Nat) :
    ((decimal n).map fun byte => byte.toNat - 48).reverse =
      if n = 0 then [0] else Nat.digits 10 n := by
  rw [decimal]
  split_ifs with hzero
  · rfl
  · rw [List.map_map, ← List.map_reverse, List.reverse_reverse]
    nth_rewrite 2 [← List.map_id (Nat.digits 10 n)]
    apply List.map_congr_left
    intro d hd
    have hlt := Nat.digits_lt_base (by decide : 1 < 10) hd
    rw [Function.comp_apply, toNat_digit hlt, Nat.add_sub_cancel_left, id]

theorem decimal_injective : Function.Injective decimal := by
  intro n n' h
  have hdigits := congrArg
    (fun bytes : Bytes => (bytes.map fun byte => byte.toNat - 48).reverse) h
  simp only [digits_eq] at hdigits
  split_ifs at hdigits with hn hn' hn'
  · rw [hn, hn']
  · have hvalue := congrArg (Nat.ofDigits 10) hdigits
    rw [Nat.ofDigits_digits] at hvalue
    exact absurd hvalue.symm hn'
  · have hvalue := congrArg (Nat.ofDigits 10) hdigits
    rw [Nat.ofDigits_digits] at hvalue
    exact absurd hvalue hn
  · exact Nat.digits.injective 10 hdigits

theorem length_decimal_le {n count : Nat} (h : n < 10 ^ count)
    (hcount : 0 < count) : (decimal n).length ≤ count := by
  rw [decimal]
  split_ifs
  · exact hcount
  · rw [List.length_map, List.length_reverse]
    exact (Nat.digits_length_le_iff (by decide) n).mpr h

/-- No digit is a minus sign. -/
theorem minus_not_mem_decimal (n : Nat) : 45 ∉ decimal n := by
  intro hmem
  rw [decimal] at hmem
  split_ifs at hmem with hzero
  · simp at hmem
  · obtain ⟨d, hd, hbyte⟩ := List.mem_map.mp hmem
    have hlt := Nat.digits_lt_base (by decide : 1 < 10) (List.mem_reverse.mp hd)
    have hnat := congrArg UInt8.toNat hbyte
    rw [toNat_digit hlt] at hnat
    change 48 + d = 45 at hnat
    omega

theorem decimalInt_injective : Function.Injective decimalInt := by
  intro v v' h
  unfold decimalInt at h
  split_ifs at h with hv hv' hv'
  · have habs := decimal_injective (List.cons.inj h).2
    omega
  · refine absurd ?_ (minus_not_mem_decimal v'.natAbs)
    rw [← h]
    exact List.mem_cons_self
  · refine absurd ?_ (minus_not_mem_decimal v.natAbs)
    rw [h]
    exact List.mem_cons_self
  · have habs := decimal_injective h
    omega

end Octets
