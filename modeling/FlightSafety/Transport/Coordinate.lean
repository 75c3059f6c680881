/-
What becomes of a coordinate on the wire.  One hop truncates it to a multiple
of the quantum; a second hop changes nothing more.  Behind a float, multiples
of many digits are lost.
-/
import FlightSafety.Lib.FixedPoint
import FlightSafety.Transport.RoundTrip

namespace FlightSafety

open ExactDouble

theorem fltToInt_pos : 0 < fltToInt := by
  unfold fltToInt fltDigits
  norm_num

/-- A coordinate's multiple of the quantum fits the field it is sent in. -/
def Sendable (v : ℚ) : Prop := FitsInt32 (v / fltToInt)

instance (v : ℚ) : Decidable (Sendable v) :=
  inferInstanceAs (Decidable (FitsInt32 _))

theorem unpackCoordinate_inj {raw raw' : Nat} (h : raw < 2 ^ 32)
    (h' : raw' < 2 ^ 32) :
    unpackCoordinate raw = unpackCoordinate raw' ↔ raw = raw' := by
  constructor
  · intro heq
    simp only [unpackCoordinate, Double.finite.injEq] at heq
    have hint := mul_right_cancel₀ (ne_of_gt fltToInt_pos) heq
    rw [Int.cast_inj, Int32.toInt_inj] at hint
    have hword := congrArg (fun n => (Int32.toUInt32 n).toNat) hint
    rwa [UInt32.toUInt32_toInt32, UInt32.toUInt32_toInt32,
      UInt32.toNat_ofNat_of_lt' h, UInt32.toNat_ofNat_of_lt' h'] at hword
  · intro heq
    rw [heq]

variable [Target]

theorem ofNat_packCoordinate (v : Double) :
    (UInt32.ofNat (packCoordinate v)).toInt32 = (v.div fltToInt).toInt32 := by
  rw [packCoordinate, UInt32.ofNat_toNat, Int32.toInt32_toUInt32]

theorem unpackCoordinate_packCoordinate (v : Double) :
    unpackCoordinate (packCoordinate v) =
      .finite ((v.div fltToInt).toInt32.toInt * fltToInt) := by
  rw [unpackCoordinate, ofNat_packCoordinate]

theorem unpackCoordinateFloat_packCoordinate (v : Double) :
    unpackCoordinateFloat (packCoordinate v) =
      .finite (floatProduct (v.div fltToInt).toInt32.toInt fltDigits /
        2 ^ 43) := by
  rw [unpackCoordinateFloat, ofNat_packCoordinate]

/-- A coordinate that was received is sent on as it is. -/
theorem packCoordinate_received (v : Double) :
    packCoordinate (unpackCoordinate (packCoordinate v)) =
      packCoordinate v := by
  rw [unpackCoordinate_packCoordinate, packCoordinate,
    toInt32_mul_div fltToInt_pos, packCoordinate]

/-- A received coordinate is less than a quantum from the one sent. -/
def Near (v : ℚ) (received : Double) : Prop :=
  ∃ w, received = .finite w ∧ |v - w| < fltToInt

theorem near_iff (v : ℚ) :
    Near v (unpackCoordinate (packCoordinate (.finite v))) ↔ Sendable v := by
  rw [unpackCoordinate_packCoordinate]
  refine Iff.trans ?_ (abs_sub_coded_lt_iff fltToInt_pos v)
  constructor
  · rintro ⟨w, hw, hnear⟩
    cases hw
    exact hnear
  · intro hnear
    exact ⟨_, rfl, hnear⟩

end FlightSafety
