/-
The codec of system statuses.  The voltage is packed as a signed number and
comes back through an unsigned one, so it comes back unless it is below zero
by a quantum or more.
-/
import FlightSafety.Transport.PaddedDecode
import FlightSafety.Transport.PositionCodec

namespace FlightSafety

open Octets ExactDouble

/-- Both decoders, with the padding and without it, return a message. -/
def DecodesTo [Target] (m m' : FssMessage) : Prop :=
  decode m.getPacked = .ok (some m') ∧ decode m.onWire = .ok (some m')

theorem decodesTo_iff [Target] {m m' m'' : FssMessage} (h : DecodesTo m m') :
    DecodesTo m m'' ↔ m' = m'' := by
  constructor
  · intro h'
    have hsame := h.1.symm.trans h'.1
    simpa using hsame
  · rintro rfl
    exact h

theorem decodesTo_received [Target] {m m' : FssMessage} (hm : Constructed m)
    (hfits : m.unpaddedLength < 65536) (hbody : m.body ≠ .serverList [])
    (hreceived : m.received = some m') : DecodesTo m m' := by
  constructor
  · rw [decode_getPacked hm hfits hbody, hreceived]
  · rw [m.onWire_eq hfits, FssMessage.decode_frame hm hfits, hreceived]

/-- Less than a quantum from the voltage that was sent, between it and zero. -/
def VoltageKept (v : ℚ) (received : Double) : Prop :=
  ∃ w, received = .finite w ∧ |v - w| < fltToInt ∧
    ((0 ≤ w ∧ w ≤ v) ∨ (v ≤ w ∧ w ≤ 0))

/-- Percentage and charge come back as they were, and the voltage rounded
toward zero. -/
def StatusKept [Target] (batPercent : UInt8) (mahUsed : UInt32) (v : ℚ)
    (id : UInt64) : Prop :=
  ∃ s, DecodesTo
      ((fssMessageSystemStatus ⟨batPercent, mahUsed, .finite v⟩).setId id)
      ⟨id, .systemStatus, .systemStatus s⟩ ∧
    s.batPercent = batPercent ∧ s.mahUsed = mahUsed ∧ VoltageKept v s.voltage

section Voltage

variable [Target] {v : ℚ}

theorem unpackVoltage_packCoordinate (v : Double) :
    unpackVoltage (packCoordinate v) =
      .finite ((v.div fltToInt).toInt32.toUInt32.toNat * fltToInt) := by
  rw [unpackVoltage, packCoordinate, UInt32.ofNat_toNat]

omit [Target] in
theorem truncate_quantum_neg_iff (v : ℚ) :
    truncate (v / fltToInt) < 0 ↔ v ≤ -fltToInt := by
  rw [truncate_neg_iff, div_le_iff₀ fltToInt_pos, neg_one_mul]

/-- Above minus one quantum the sign makes no difference. -/
theorem unpackVoltage_of_lt (hv : Sendable v) (h : -fltToInt < v) :
    unpackVoltage (packCoordinate (.finite v)) =
      unpackCoordinate (packCoordinate (.finite v)) := by
  have hnonneg : 0 ≤ (Double.finite (v / fltToInt)).toInt32.toInt := by
    rw [toInt_toInt32 hv]
    exact not_lt.mp (mt (truncate_quantum_neg_iff v).mp (not_le.mpr h))
  have hvalue := congrArg (Int.cast (R := ℚ)) (toNat_toUInt32_of_nonneg hnonneg)
  rw [Int.cast_natCast] at hvalue
  rw [unpackVoltage_packCoordinate, unpackCoordinate_packCoordinate, Double.div,
    hvalue]

omit [Target] in
/-- Rounded toward zero, a voltage is kept. -/
theorem voltageKept_of_roundedTowardZero {received : Double}
    (h : RoundedTowardZero v received) : VoltageKept v received := by
  obtain ⟨n, hreceived, hle, hside, hnear⟩ := h
  refine ⟨n * fltToInt, hreceived, hnear, ?_⟩
  rcases lt_trichotomy v 0 with hneg | rfl | hpos
  · have hbelow := nonpos_of_mul_nonneg_right hside hneg
    rw [abs_of_nonpos hbelow, abs_of_neg hneg, neg_le_neg_iff] at hle
    exact .inr ⟨hle, hbelow⟩
  · rw [abs_zero] at hle
    have hzero := abs_nonpos_iff.mp hle
    exact .inl ⟨le_of_eq hzero.symm, le_of_eq hzero⟩
  · have habove := nonneg_of_mul_nonneg_right hside hpos
    rw [abs_of_nonneg habove, abs_of_pos hpos] at hle
    exact .inl ⟨habove, hle⟩

/-- A voltage that comes back at most a quantum below zero. -/
theorem voltageKept_iff (hv : Sendable v) :
    VoltageKept v (unpackVoltage (packCoordinate (.finite v))) ↔
      -fltToInt < v := by
  constructor
  · intro hkept
    by_contra hlow
    have hbelow := not_lt.mp hlow
    have hneg : v < 0 := lt_of_le_of_lt hbelow (neg_neg_of_pos fltToInt_pos)
    have htruncated := (truncate_quantum_neg_iff v).mpr hbelow
    have hpos := @toNat_toUInt32_pos (Double.finite (v / fltToInt)).toInt32 (by
      rw [toInt_toInt32 hv]
      exact ne_of_lt htruncated)
    obtain ⟨w, hw, -, hbetween⟩ := hkept
    rw [unpackVoltage_packCoordinate, Double.div, Double.finite.injEq] at hw
    have hwpos : 0 < w := by
      rw [← hw]
      exact mul_pos (Nat.cast_pos.mpr hpos) fltToInt_pos
    rcases hbetween with ⟨-, hle⟩ | ⟨-, hle⟩
    · linarith
    · linarith
  · intro habove
    rw [unpackVoltage_of_lt hv habove]
    exact voltageKept_of_roundedTowardZero (roundedTowardZero hv)

theorem decodesTo_systemStatus (s : SystemStatus) (id : UInt64) :
    DecodesTo ((fssMessageSystemStatus s).setId id)
      ⟨id, .systemStatus, .systemStatus s.received⟩ := by
  apply decodesTo_received (.setId id (.systemStatus s))
  · rw [FssMessage.unpaddedLength_setId, FssMessage.unpaddedLength_eq]
    simp [fssMessageSystemStatus, FssMessageBody.payload, headerLength]
  · exact FssMessageBody.noConfusion
  · rfl

end Voltage

/-- A status is kept by its codec if and only if its voltage is less than a
quantum below zero. -/
theorem statusKept_iff [Target] (batPercent : UInt8) (mahUsed : UInt32) {v : ℚ}
    (id : UInt64) (hv : |v / fltToInt| < 2 ^ 31) :
    StatusKept batPercent mahUsed v id ↔ -fltToInt < v := by
  have hdecodes :=
    decodesTo_systemStatus ⟨batPercent, mahUsed, .finite v⟩ id
  rw [← voltageKept_iff (sendable_of_abs_lt hv)]
  constructor
  · rintro ⟨s, hs, -, -, hkept⟩
    rw [decodesTo_iff hdecodes] at hs
    cases hs
    exact hkept
  · intro hkept
    exact ⟨_, hdecodes, rfl, rfl, hkept⟩

theorem statusKept_iff_battery :
    |12.6 / fltToInt| < 2 ^ 31 ∧
      (@StatusKept Target.indefinite 87 1500 12.6 7 ↔ -fltToInt < 12.6) :=
  have hv : |12.6 / fltToInt| < 2 ^ 31 := by norm_num [fltToInt, fltDigits]
  ⟨hv, @statusKept_iff Target.indefinite 87 1500 12.6 7 hv⟩

/-- A volt below zero comes back as more than four thousand. -/
theorem not_statusKept_negative :
    |(-1) / fltToInt| < 2 ^ 31 ∧ ¬ @StatusKept Target.indefinite 87 1500 (-1) 7 := by
  have hv : |(-1) / fltToInt| < 2 ^ 31 := by norm_num [fltToInt, fltDigits]
  refine ⟨hv, ?_⟩
  rintro ⟨s, hs, -, -, hkept⟩
  rw [@decodesTo_iff Target.indefinite _ _ _
    (@decodesTo_systemStatus Target.indefinite _ 7)] at hs
  cases hs
  have habove := (@voltageKept_iff Target.indefinite (-1)
    (sendable_of_abs_lt hv)).mp hkept
  revert habove
  norm_num [fltToInt, fltDigits]

end FlightSafety
