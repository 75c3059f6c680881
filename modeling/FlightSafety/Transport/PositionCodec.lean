/-
The codec of position reports.  A report that is decoded and packed again
gives the bytes it came from, so a report changes at its first hop only.
-/
import FlightSafety.Transport.Coordinate
import FlightSafety.Transport.Send

namespace FlightSafety

open Octets ExactDouble

/-- A whole multiple of the quantum, no further from zero than the coordinate
that was sent and on its side of it, less than a quantum away. -/
def RoundedTowardZero (v : ℚ) (received : Double) : Prop :=
  ∃ n : ℤ, received = .finite (n * fltToInt) ∧ |n * fltToInt| ≤ |v| ∧
    0 ≤ v * (n * fltToInt) ∧ |v - n * fltToInt| < fltToInt

/-- Every field that is written comes back as it was, but for the rounding of
the coordinates.  The time since last contact is not written. -/
def PositionReport.Received (r : PositionReport) (lat lng : ℚ)
    (r' : PositionReport) : Prop :=
  RoundedTowardZero lat r'.latitude ∧ RoundedTowardZero lng r'.longitude ∧
    r' = { r with
      latitude := r'.latitude, longitude := r'.longitude, tslc := 0 }

/-- A message on its way from program to program: each packs it under an id
of its own, and the next decodes the frame. -/
def hops [Target] :
    List UInt64 → FssMessage → Except OutOfBounds (Option FssMessage)
  | [], m => .ok (some m)
  | id :: ids, m => do
      match ← decode (m.setId id).onWire with
      | none => pure none
      | some m' => hops ids m'

/-! The rounding of a coordinate. -/

theorem sendable_of_abs_lt {v : ℚ} (h : |v / fltToInt| < 2 ^ 31) :
    Sendable v := by
  have htruncated := lt_of_le_of_lt (abs_truncate_le (v / fltToInt)) h
  rw [abs_lt] at htruncated
  constructor
  · exact_mod_cast le_of_lt htruncated.1
  · exact_mod_cast htruncated.2

theorem roundedTowardZero [Target] {v : ℚ} (h : Sendable v) :
    RoundedTowardZero v (unpackCoordinate (packCoordinate (.finite v))) := by
  refine ⟨truncate (v / fltToInt), ?_, ?_, ?_, ?_⟩
  · rw [unpackCoordinate_packCoordinate, Double.div, toInt_toInt32 h]
  · calc |truncate (v / fltToInt) * fltToInt|
        = |(truncate (v / fltToInt) : ℚ)| * |fltToInt| := abs_mul _ _
      _ ≤ |v / fltToInt| * |fltToInt| :=
          mul_le_mul_of_nonneg_right (abs_truncate_le _) (abs_nonneg _)
      _ = |v| := by
          rw [← abs_mul, div_mul_cancel₀ v (ne_of_gt fltToInt_pos)]
  · have hside := mul_truncate_nonneg (v / fltToInt)
    have hscaled := mul_nonneg hside (mul_self_nonneg fltToInt)
    have hquantum : v / fltToInt * fltToInt = v :=
      div_mul_cancel₀ v (ne_of_gt fltToInt_pos)
    calc (0 : ℚ)
        ≤ v / fltToInt * truncate (v / fltToInt) * (fltToInt * fltToInt) :=
          hscaled
      _ = v / fltToInt * fltToInt * (truncate (v / fltToInt) * fltToInt) := by
          ring
      _ = v * (truncate (v / fltToInt) * fltToInt) := by rw [hquantum]
  · have hnear := (abs_sub_coded_lt_iff fltToInt_pos v).mpr h
    rw [Double.div, toInt_toInt32 h] at hnear
    exact hnear

/-! What is packed depends on the tag, the id and the payload only. -/

theorem FssMessage.getPacked_congr [Target] {m m' : FssMessage}
    (hid : m.id = m'.id) (htype : m.type = m'.type)
    (hpayload : m.body.payload cut16 headerLength =
      m'.body.payload cut16 headerLength) : m.getPacked = m'.getPacked := by
  have hheader : m.createHeader [] = m'.createHeader [] := by
    rw [createHeader_eq, createHeader_eq, hid, htype]
  have hlength : (m'.createHeader []).length = headerLength := by
    rw [createHeader_eq]
    simp [headerLength]
  rw [getPacked, getPacked, FssMessageBody.packData_eq,
    FssMessageBody.packData_eq, hheader, hlength, hpayload]

section Report

variable [Target] {r : PositionReport}

theorem length_callsign_lt
    (hfits : (fssMessagePositionReport r).trueLength ≤ 65535) :
    r.callsign.length < 65536 := by
  have hpayload := Nat.le_trans (Nat.le_add_left _ _) hfits
  simp only [fssMessagePositionReport, FssMessageBody.payload,
    PositionReport.payload, List.length_append, length_stringField, uncut]
    at hpayload
  omega

/-- A report that was received is as long as it was. -/
theorem trueLength_received
    (hfits : (fssMessagePositionReport r).trueLength ≤ 65535) :
    (fssMessagePositionReport r.received).trueLength =
      (fssMessagePositionReport r).trueLength := by
  simp only [FssMessage.trueLength, fssMessagePositionReport,
    FssMessageBody.payload, PositionReport.payload, PositionReport.received,
    cut16_of_lt (length_callsign_lt hfits), List.length_append,
    length_bigEndian]

/-- What is made of a report whose length fits the length field. -/
theorem decode_report_of_lt
    (hlt : (fssMessagePositionReport r).unpaddedLength < 65536) (id : UInt64) :
    decode ((fssMessagePositionReport r).setId id).onWire =
      .ok (some ⟨id, .positionReport, .positionReport r.received⟩) := by
  rw [← FssMessage.unpaddedLength_setId _ id] at hlt
  rw [FssMessage.onWire_eq _ hlt,
    FssMessage.decode_frame (.setId id (.positionReport r)) hlt]
  rfl

/-- What is made of a report that fits a frame. -/
theorem decode_report (hfits : (fssMessagePositionReport r).trueLength ≤ 65535)
    (id : UInt64) :
    decode ((fssMessagePositionReport r).setId id).onWire =
      .ok (some ⟨id, .positionReport, .positionReport r.received⟩) :=
  decode_report_of_lt (FssMessage.unpaddedLength_lt hfits) id

/-- What a report is after two hops, it was after one. -/
theorem received_received
    (hfits : (fssMessagePositionReport r).trueLength ≤ 65535) :
    r.received.received = r.received := by
  simp only [PositionReport.received, packCoordinate_received,
    cut16_of_lt (length_callsign_lt hfits)]

theorem payload_received
    (hfits : (fssMessagePositionReport r).trueLength ≤ 65535) (start : Nat) :
    r.received.payload cut16 start = r.payload cut16 start := by
  rw [PositionReport.received, cut16_of_lt (length_callsign_lt hfits)]
  simp only [PositionReport.payload, packCoordinate_received]

theorem getPacked_received
    (hfits : (fssMessagePositionReport r).trueLength ≤ 65535) (id : UInt64) :
    ((fssMessagePositionReport r.received).setId id).getPacked =
      ((fssMessagePositionReport r).setId id).getPacked := by
  have hpayload := payload_received hfits headerLength
  exact FssMessage.getPacked_congr rfl rfl hpayload

omit [Target] in
theorem FssMessage.setId_setId (m : FssMessage) (first second : UInt64) :
    (m.setId first).setId second = m.setId second :=
  rfl

theorem hops_cons {id : UInt64} {ids : List UInt64} {m m' : FssMessage}
    (h : decode (m.setId id).onWire = .ok (some m')) :
    hops (id :: ids) m = hops ids m' := by
  rw [hops, h, ok_bind]

/-- Whatever id it had before, a report leaves its last hop as it left its
first, under the id of the last. -/
theorem hops_report (hfits : (fssMessagePositionReport r).trueLength ≤ 65535)
    (ids : List UInt64) (start id : UInt64) :
    hops (ids ++ [id]) ((fssMessagePositionReport r).setId start) =
      .ok (some ⟨id, .positionReport, .positionReport r.received⟩) := by
  have hfirst (next : UInt64) :
      decode (((fssMessagePositionReport r).setId start).setId next).onWire =
        .ok (some ((fssMessagePositionReport r.received).setId next)) := by
    rw [FssMessage.setId_setId, decode_report hfits]
    rfl
  induction ids generalizing r start with
  | nil =>
      rw [List.nil_append, hops_cons (hfirst id)]
      rfl
  | cons first rest ih =>
      have hkept := trueLength_received hfits
      rw [List.cons_append, hops_cons (hfirst first), ih (hkept ▸ hfits) first,
        received_received hfits]
      intro next
      rw [FssMessage.setId_setId, decode_report (hkept ▸ hfits)]
      rfl

end Report

/-- A report that fits a frame is decoded with every written field as it was
and its coordinates rounded toward zero; packed again under the same id it
gives the same bytes, so no number of hops changes it further. -/
theorem positionReport_codec [Target] {r : PositionReport} {lat lng : ℚ}
    (hlat : r.latitude = .finite lat) (hlng : r.longitude = .finite lng)
    (hlatFits : |lat / fltToInt| < 2 ^ 31)
    (hlngFits : |lng / fltToInt| < 2 ^ 31)
    (hfits : (fssMessagePositionReport r).trueLength ≤ 65535) :
    ∃ r', r.Received lat lng r' ∧
      (∀ id, decode ((fssMessagePositionReport r).setId id).onWire =
        .ok (some ⟨id, .positionReport, .positionReport r'⟩)) ∧
      (∀ id, ((fssMessagePositionReport r').setId id).getPacked =
        ((fssMessagePositionReport r).setId id).getPacked) ∧
      ∀ ids id, hops (ids ++ [id]) (fssMessagePositionReport r) =
        .ok (some ⟨id, .positionReport, .positionReport r'⟩) := by
  refine ⟨r.received, ⟨?_, ?_, ?_⟩, decode_report hfits,
    getPacked_received hfits, fun ids id => hops_report hfits ids 0 id⟩
  · rw [PositionReport.received, hlat]
    exact roundedTowardZero (sendable_of_abs_lt hlatFits)
  · rw [PositionReport.received, hlng]
    exact roundedTowardZero (sendable_of_abs_lt hlngFits)
  · rw [PositionReport.received, cut16_of_lt (length_callsign_lt hfits)]

/-- A report from Christchurch. -/
def christchurchReport : PositionReport :=
  { latitude := .finite (-87 / 2), longitude := .finite 172
    altitude := 1200, verticalVelocity := -3
    callsign := [90, 75, 45, 65, 66, 67], squawk := 640 }

theorem positionReport_codec_christchurch :
    ∃ r', christchurchReport.Received (-87 / 2) 172 r' ∧
      (∀ id, decode (@FssMessage.onWire Target.indefinite
        ((fssMessagePositionReport christchurchReport).setId id)) =
          .ok (some ⟨id, .positionReport, .positionReport r'⟩)) ∧
      (∀ id, @FssMessage.getPacked Target.indefinite
        ((fssMessagePositionReport r').setId id) =
          @FssMessage.getPacked Target.indefinite
            ((fssMessagePositionReport christchurchReport).setId id)) ∧
      ∀ ids id, @hops Target.indefinite (ids ++ [id])
        (fssMessagePositionReport christchurchReport) =
          .ok (some ⟨id, .positionReport, .positionReport r'⟩) :=
  @positionReport_codec Target.indefinite christchurchReport _ _ rfl rfl
    (by norm_num [fltToInt, fltDigits]) (by norm_num [fltToInt, fltDigits]) (by decide)

end FlightSafety
