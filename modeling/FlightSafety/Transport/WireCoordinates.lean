/-
The two decoders of coordinates.  The one of position reports widens what it
reads to a double before it multiplies; the one of commands multiplies by a
float, which first rounds what it reads to a float as well.  Here both products
are exact: what is lost is lost by that conversion alone.
-/
import FlightSafety.Transport.TruncatedReport

namespace FlightSafety

open Octets ExactDouble

/-- A latitude and a longitude as they are sent. -/
structure WirePosition where
  latitude : Int32
  longitude : Int32
deriving Repr, DecidableEq

/-- A buffer has the coordinates where both formats have them. -/
structure HasCoordinates (bl : BufLen) (w : WirePosition) : Prop where
  size : bl.length < 2 ^ 64
  covered : 28 ≤ bl.length
  latitude : numberAt bl 20 4 = w.latitude.toUInt32.toNat
  longitude : numberAt bl 24 4 = w.longitude.toUInt32.toNat

/-- The float that a coordinate is made, multiplied exactly. -/
def unpackCoordinateUnrounded (raw : Nat) : Double :=
  .finite (roundToFloat (UInt32.ofNat raw).toInt32.toInt * fltToInt)

/-- A command with the coordinates can be decoded to a latitude and a
longitude.  A command that is shorter than its fields is not read at all. -/
def CommandDecodes (w : WirePosition) (position : Double × Double) : Prop :=
  ∃ bl c, HasCoordinates bl w ∧ 33 ≤ bl.length ∧
    AssetCommand.unpackDataBy unpackCoordinateUnrounded bl = .ok c ∧
    (c.latitude, c.longitude) = position

def ReportDecodes (w : WirePosition) (position : Double × Double) : Prop :=
  ∃ bl r, HasCoordinates bl w ∧ PositionReport.unpackData bl = .ok r ∧
    (r.latitude, r.longitude) = position

/-- Both decoders give the same for the one position and for the other, and
neither gives the same for both. -/
structure DecodersAgree (w w' : WirePosition) : Prop where
  same : ∀ position, CommandDecodes w position ↔ ReportDecodes w position
  same' : ∀ position, CommandDecodes w' position ↔ ReportDecodes w' position
  distinct : w ≠ w' → ∀ position,
    ¬ (CommandDecodes w position ∧ CommandDecodes w' position) ∧
    ¬ (ReportDecodes w position ∧ ReportDecodes w' position)

/-- The coordinates have at most 24 significant bits. -/
def WirePosition.IsFloat (w : WirePosition) : Prop :=
  ExactDouble.IsFloat w.latitude.toInt ∧ ExactDouble.IsFloat w.longitude.toInt

/-- What the decoder of commands makes of the coordinates. -/
def WirePosition.asCommand (w : WirePosition) : Double × Double :=
  (.finite (roundToFloat w.latitude.toInt * fltToInt),
    .finite (roundToFloat w.longitude.toInt * fltToInt))

/-- What the decoder of reports makes of them. -/
def WirePosition.asReport (w : WirePosition) : Double × Double :=
  (.finite (w.latitude.toInt * fltToInt),
    .finite (w.longitude.toInt * fltToInt))

theorem ofNat_toNat_toInt32 (n : Int32) :
    (UInt32.ofNat n.toUInt32.toNat).toInt32 = n := by
  rw [UInt32.ofNat_toNat, Int32.toInt32_toUInt32]

section Decoders

variable {bl : BufLen} {w : WirePosition} {r r' : PositionReport} {o : Nat}

theorem AssetCommand.unpackDataBy_position {unpack : Nat → Double}
    {c : AssetCommand} (h : HasCoordinates bl w) (hlong : 33 ≤ bl.length)
    (hdata : AssetCommand.unpackDataBy unpack bl = .ok c) :
    (c.latitude, c.longitude) =
      (unpack w.latitude.toUInt32.toNat, unpack w.longitude.toUInt32.toNat) := by
  have hsize := h.size
  have hroom : 21 ≤ bl.remaining headerLength := by
    unfold BufLen.remaining BufLen.getLength headerLength
    omega
  unfold AssetCommand.unpackDataBy headerLength at hdata
  unfold headerLength at hroom
  rw [if_pos hroom, readNat_eq_numberAt (by omega), ok_bind,
    readNat_eq_numberAt (by omega), ok_bind, readNat_eq_numberAt (by omega),
    ok_bind, readNat_eq_numberAt (by omega), ok_bind,
    readNat_eq_numberAt (by omega), ok_bind] at hdata
  cases hdata
  simp only [Nat.reduceAdd, h.latitude, h.longitude]

/-- Behind the coordinates nothing changes them. -/
theorem PositionReport.unpackTail_position
    (h : PositionReport.unpackTail bl r o = .ok r') :
    (r'.latitude, r'.longitude) = (r.latitude, r.longitude) := by
  obtain ⟨_, _, h⟩ := bind_eq_ok h
  obtain ⟨_, _, h⟩ := bind_eq_ok h
  obtain ⟨_, _, h⟩ := bind_eq_ok h
  cases h
  rfl

theorem PositionReport.unpackNarrow_position
    (h : PositionReport.unpackNarrow bl r o = .ok r') :
    (r'.latitude, r'.longitude) = (r.latitude, r.longitude) := by
  obtain ⟨_, _, h⟩ := bind_eq_ok h
  obtain ⟨_, _, h⟩ := bind_eq_ok h
  obtain ⟨_, _, h⟩ := bind_eq_ok h
  obtain ⟨_, _, h⟩ := bind_eq_ok h
  obtain ⟨_, _, h⟩ := bind_eq_ok h
  have hsame := unpackTail_position h
  exact hsame

theorem PositionReport.unpackData_position (h : HasCoordinates bl w)
    (hdata : PositionReport.unpackData bl = .ok r) :
    (r.latitude, r.longitude) = w.asReport := by
  have hcovered := h.covered
  rw [unpackData_eq, headerLength, fetch_bind_at h.size (by omega)] at hdata
  dsimp only [unpackWide] at hdata
  rw [fetch_bind_at h.size (by omega)] at hdata
  dsimp only at hdata
  rw [fetch_bind_at h.size (by omega)] at hdata
  obtain ⟨_, _, hdata⟩ := bind_eq_ok hdata
  obtain ⟨_, _, hdata⟩ := bind_eq_ok hdata
  have hsame := unpackNarrow_position hdata
  rw [hsame]
  simp only [Nat.reduceAdd, h.latitude, h.longitude, unpackCoordinate,
    ofNat_toNat_toInt32]
  rfl

end Decoders

/-- A buffer of zeros with some coordinates. -/
def WirePosition.buffer (w : WirePosition) : BufLen :=
  zeros 20 ++ (bigEndian 4 w.latitude.toUInt32.toNat ++
    (bigEndian 4 w.longitude.toUInt32.toNat ++
    (zeros 16 ++ (bigEndian 2 0 ++ zeros 18))))

namespace WirePosition

variable {w : WirePosition} {position : Double × Double}

theorem length_buffer (w : WirePosition) : w.buffer.length = 64 := by
  simp [buffer, zeros]

theorem holds_buffer (w : WirePosition) :
    Holds w.buffer 20 (bigEndian 4 w.latitude.toUInt32.toNat ++
      (bigEndian 4 w.longitude.toUInt32.toNat ++
      (zeros 16 ++ (bigEndian 2 0 ++ zeros 18)))) :=
  .append (zeros 20) _

theorem hasCoordinates_buffer (w : WirePosition) : HasCoordinates w.buffer w where
  size := by
    rw [length_buffer]
    decide
  covered := by
    rw [length_buffer]
    decide
  latitude := w.holds_buffer.numberAt_of_lt w.latitude.toUInt32.toNat_lt
  longitude :=
    (w.holds_buffer.skip (length_bigEndian 4 _)).numberAt_of_lt
      w.longitude.toUInt32.toNat_lt

/-- Its callsign is empty. -/
theorem inside_buffer (w : WirePosition) :
    Inside (PositionReport.unpackData w.buffer) := by
  have hcallsign : Holds w.buffer 44 (bigEndian 2 0 ++ zeros 18) :=
    ((w.holds_buffer.skip (length_bigEndian 4 _)).skip
      (length_bigEndian 4 _)).skip rfl
  have hlength : stringLength w.buffer 44 = 0 :=
    hcallsign.numberAt_of_lt (by decide)
  rw [PositionReport.unpackData_inside_iff (by rw [length_buffer]; decide)]
  intro _
  rw [fieldEnd, stringEnd, hlength, length_buffer]
  decide

theorem asCommand_eq : w.asCommand =
    (unpackCoordinateUnrounded w.latitude.toUInt32.toNat,
      unpackCoordinateUnrounded w.longitude.toUInt32.toNat) := by
  simp only [asCommand, unpackCoordinateUnrounded, ofNat_toNat_toInt32]

theorem commandDecodes_iff : CommandDecodes w position ↔ w.asCommand = position := by
  constructor
  · rintro ⟨bl, c, hcoordinates, hlong, hdata, rfl⟩
    rw [asCommand_eq]
    exact (AssetCommand.unpackDataBy_position hcoordinates hlong hdata).symm
  · rintro rfl
    have hlong : 33 ≤ w.buffer.length := by
      rw [length_buffer]
      decide
    obtain ⟨c, hdata⟩ := AssetCommand.unpackDataBy_inside
      unpackCoordinateUnrounded
      (Nat.le_trans (by decide : headerLength ≤ 33) hlong)
    refine ⟨w.buffer, c, w.hasCoordinates_buffer, hlong, hdata, ?_⟩
    rw [asCommand_eq]
    exact AssetCommand.unpackDataBy_position w.hasCoordinates_buffer hlong hdata

theorem reportDecodes_iff : ReportDecodes w position ↔ w.asReport = position := by
  constructor
  · rintro ⟨bl, r, hcoordinates, hdata, rfl⟩
    exact (PositionReport.unpackData_position hcoordinates hdata).symm
  · rintro rfl
    obtain ⟨r, hdata⟩ := w.inside_buffer
    exact ⟨w.buffer, r, w.hasCoordinates_buffer, hdata,
      PositionReport.unpackData_position w.hasCoordinates_buffer hdata⟩

theorem finite_mul_inj {n m : ℤ} :
    Double.finite (n * fltToInt) = .finite (m * fltToInt) ↔ n = m := by
  rw [Double.finite.injEq, mul_left_inj' (ne_of_gt fltToInt_pos), Int.cast_inj]

theorem asCommand_eq_asReport_iff : w.asCommand = w.asReport ↔ w.IsFloat := by
  rw [asCommand, asReport, Prod.mk.injEq, finite_mul_inj, finite_mul_inj,
    roundToFloat_eq_self_iff, roundToFloat_eq_self_iff, IsFloat]

theorem asReport_inj {w' : WirePosition} : w.asReport = w'.asReport ↔ w = w' := by
  constructor
  · intro h
    rw [asReport, asReport, Prod.mk.injEq, finite_mul_inj, finite_mul_inj,
      Int32.toInt_inj, Int32.toInt_inj] at h
    exact congrArg₂ WirePosition.mk h.1 h.2
  · intro h
    rw [h]

/-- The decoders agree on a position exactly if it has no bits to lose. -/
theorem same_iff :
    (∀ position, CommandDecodes w position ↔ ReportDecodes w position) ↔
      w.IsFloat := by
  rw [← asCommand_eq_asReport_iff]
  constructor
  · intro h
    exact (reportDecodes_iff.mp ((h w.asCommand).mp (commandDecodes_iff.mpr rfl))).symm
  · intro h position
    rw [commandDecodes_iff, reportDecodes_iff, h]

end WirePosition

/-- Two positions are decoded alike by both decoders and apart from each other
if and only if none of their coordinates has more than 24 significant bits. -/
theorem decodersAgree_iff (w w' : WirePosition) :
    DecodersAgree w w' ↔ w.IsFloat ∧ w'.IsFloat := by
  constructor
  · intro h
    exact ⟨WirePosition.same_iff.mp h.same, WirePosition.same_iff.mp h.same'⟩
  · rintro ⟨hw, hw'⟩
    have hsame := WirePosition.asCommand_eq_asReport_iff.mpr hw
    have hsame' := WirePosition.asCommand_eq_asReport_iff.mpr hw'
    refine ⟨WirePosition.same_iff.mpr hw, WirePosition.same_iff.mpr hw', ?_⟩
    intro hne position
    have hapart : ¬ (w.asReport = position ∧ w'.asReport = position) :=
      fun h => hne (WirePosition.asReport_inj.mp (h.1.trans h.2.symm))
    rw [WirePosition.commandDecodes_iff, WirePosition.commandDecodes_iff,
      WirePosition.reportDecodes_iff, WirePosition.reportDecodes_iff, hsame,
      hsame']
    exact ⟨hapart, hapart⟩

/-- A latitude of 43.5 degrees and its neighbour: the first is decoded
differently, and to the decoder of commands the two are one. -/
theorem not_decodersAgree_christchurch :
    ¬ DecodersAgree ⟨-43500001, 172000000⟩ ⟨-43500000, 172000000⟩ ∧
      ∃ position, CommandDecodes ⟨-43500001, 172000000⟩ position ∧
        CommandDecodes ⟨-43500000, 172000000⟩ position := by
  constructor
  · intro h
    have hfloat := WirePosition.same_iff.mp h.same
    exact absurd hfloat.1 (by decide +kernel)
  · refine ⟨_, WirePosition.commandDecodes_iff.mpr rfl,
      WirePosition.commandDecodes_iff.mpr ?_⟩
    decide +kernel

end FlightSafety
