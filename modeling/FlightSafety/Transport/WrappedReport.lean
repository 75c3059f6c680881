/-
A position report that is longer than its length field can say.  The peer is
told the remainder of the length, and decodes what that leaves of the fields
in front of the callsign.
-/
import FlightSafety.Transport.CutReport

namespace FlightSafety

open Octets ExactDouble

section Wrapped

variable [Target] {r : PositionReport} {id : UInt64}

/-- The end of the callsign is aligned, so few remainders are left. -/
theorem wrapped_cases
    (hlong : 65536 ≤ (fssMessagePositionReport r).unpaddedLength) :
    ∃ k, (fssMessagePositionReport r).unpaddedLength % 65536 =
        8 * k + 4 ∧ k ≤ 6 ∧ 65478 ≤ r.callsign.length % 65536 := by
  have hcut := Nat.mod_lt r.callsign.length (by decide : 0 < 65536)
  rw [unpaddedLength_report] at hlong ⊢
  unfold alignSkip at hlong ⊢
  refine ⟨(50 + r.callsign.length % 65536 +
    (8 - (46 + r.callsign.length % 65536) % 8)) % 65536 / 8, ?_, ?_, ?_⟩
  · omega
  · omega
  · omega

/-- What arrives of a report that is too long. -/
theorem onWire_wrapped
    (hmore : 2 < (fssMessagePositionReport r).unpaddedLength % 65536) :
    ((fssMessagePositionReport r).setId id).onWire = (reportFrame r id).take
      ((fssMessagePositionReport r).unpaddedLength % 65536) := by
  rw [← FssMessage.unpaddedLength_setId _ id] at hmore ⊢
  rw [FssMessage.onWire, FssMessage.lengthField_getPacked_mod _ hmore]
  rfl

/-- The peer decodes the fields that arrive whole. -/
theorem decode_upTo {j : Nat} (hj : j ≤ 4)
    (hreach : (fssMessagePositionReport r).unpaddedLength % 65536 =
      headerLength + 8 * j) :
    decode ((fssMessagePositionReport r).setId id).onWire =
      .ok (some ⟨id, .positionReport,
        .positionReport (r.upTo (headerLength + 8 * j))⟩) := by
  have hend := le_callsignEnd r
  have hheader : headerLength ≤ headerLength + 8 * j := Nat.le_add_right ..
  have hcut : headerLength + 8 * j < 46 := by
    unfold headerLength
    omega
  have hlength := @length_take_reportFrame _ r id (headerLength + 8 * j)
    (by omega)
  have haligned :
      ((reportFrame r id).take (headerLength + 8 * j)).length % 8 = 4 := by
    rw [hlength, headerLength]
    omega
  rw [onWire_wrapped (by rw [hreach, headerLength]; omega), hreach,
    decode_take hheader, decodePositionReport,
    PositionReport.unpackData_cut (hlength.symm ▸ hheader) (hlength.symm ▸ hcut),
    PositionReport.cut_of_aligned haligned, whole_take hcut]
  rfl

/-- Without the whole header, or with the length of a callsign that is not
there, the decoder leaves the frame. -/
theorem not_inside_wrapped
    (hlong : 65536 ≤ (fssMessagePositionReport r).unpaddedLength)
    (hreach : ∀ j ≤ 4,
      (fssMessagePositionReport r).unpaddedLength % 65536 ≠
        headerLength + 8 * j) :
    ¬ Inside (decode ((fssMessagePositionReport r).setId id).onWire) := by
  obtain ⟨k, hk, hbound, hcallsign⟩ := wrapped_cases hlong
  have hfew : k = 0 ∨ k = 6 := by
    by_contra hother
    have hmany := hreach (k - 1) (by omega)
    unfold headerLength at hmany
    omega
  rw [onWire_wrapped (by omega), hk]
  rcases hfew with rfl | rfl
  · apply not_inside_decode
    exact Nat.lt_of_le_of_lt (List.length_take_le ..) (by decide)
  · apply not_inside_take (by decide)
    unfold callsignEnd
    omega

end Wrapped

end FlightSafety
