/-
Position reports of which only the first bytes arrive.  What the decoder takes
the bytes of a field for that is cut decides whether it mixes fields.
-/
import FlightSafety.Transport.CutReport

namespace FlightSafety

open Octets ExactDouble

/-- Every field has the value that it has in another report or the one that a
decoded report starts from. -/
structure PositionReport.DrawnFrom (r' carried : PositionReport) : Prop where
  latitude : r'.latitude = carried.latitude ∨ r'.latitude = .nan
  longitude : r'.longitude = carried.longitude ∨ r'.longitude = .nan
  altitude : r'.altitude = carried.altitude ∨ r'.altitude = 0
  heading : r'.heading = carried.heading ∨ r'.heading = 0
  horizontalVelocity :
    r'.horizontalVelocity = carried.horizontalVelocity ∨
      r'.horizontalVelocity = 0
  verticalVelocity :
    r'.verticalVelocity = carried.verticalVelocity ∨ r'.verticalVelocity = 0
  callsign : r'.callsign = carried.callsign ∨ r'.callsign = []
  icaoAddress : r'.icaoAddress = carried.icaoAddress ∨ r'.icaoAddress = 0
  squawk : r'.squawk = carried.squawk ∨ r'.squawk = 0
  timestamp : r'.timestamp = carried.timestamp ∨ r'.timestamp = 0
  tslc : r'.tslc = carried.tslc ∨ r'.tslc = 0
  flags : r'.flags = carried.flags ∨ r'.flags = 0
  altitudeType : r'.altitudeType = carried.altitudeType ∨ r'.altitudeType = 0
  emitterType : r'.emitterType = carried.emitterType ∨ r'.emitterType = 0

/-- The first `p` bytes of a frame are decoded without a read outside them,
and no field of the result has bytes of another field. -/
def Unmixed [Target] (r : PositionReport) (id : UInt64) (p : Nat) : Prop :=
  ∃ carried r',
    decode (reportFrame r id) =
      .ok (some ⟨id, .positionReport, .positionReport carried⟩) ∧
    decode ((reportFrame r id).take p) =
      .ok (some ⟨id, .positionReport, .positionReport r'⟩) ∧
    r'.DrawnFrom carried

/-- No callsign is cut, and bytes that are left of a field happen to be those
of the field that they are taken for. -/
structure CutApart [Target] (r : PositionReport) (id : UInt64) (p : Nat) :
    Prop where
  callsign : p < 46 ∨ callsignEnd r ≤ p
  latitude : 16 ≤ p → p < 20 →
    numberAt (reportFrame r id) 12 4 = packCoordinate r.latitude
  heading : p < 36 → 2 ≤ p % 4 →
    numberAt (reportFrame r id) (p - p % 4) 2 = r.heading.toNat ∨
      numberAt (reportFrame r id) (p - p % 4) 2 = 0
  altitudeType : p % 2 = 1 → (p < 46 ∨ p = callsignEnd r + 1) →
    numberAt (reportFrame r id) (p - 1) 1 = r.altitudeType.toNat ∨
      numberAt (reportFrame r id) (p - 1) 1 = 0

namespace PositionReport

variable {carried r' : PositionReport} {bl : BufLen}

theorem drawnFrom_heading_iff (h : r'.heading = 0) (heading : UInt16) :
    DrawnFrom { r' with heading } carried ↔
      r'.DrawnFrom carried ∧ (heading = carried.heading ∨ heading = 0) := by
  constructor
  · intro hdrawn
    exact ⟨{ hdrawn with heading := .inr h }, hdrawn.heading⟩
  · rintro ⟨hdrawn, hheading⟩
    exact { hdrawn with heading := hheading }

theorem drawnFrom_altitudeType_iff (h : r'.altitudeType = 0)
    (altitudeType : UInt8) :
    DrawnFrom { r' with altitudeType } carried ↔
      r'.DrawnFrom carried ∧
        (altitudeType = carried.altitudeType ∨ altitudeType = 0) := by
  constructor
  · intro hdrawn
    exact ⟨{ hdrawn with altitudeType := .inr h }, hdrawn.altitudeType⟩
  · rintro ⟨hdrawn, htype⟩
    exact { hdrawn with altitudeType := htype }

theorem ofNat_numberAt_two {offset : Nat} {value : UInt16} :
    UInt16.ofNat (numberAt bl offset 2) = value ↔
      numberAt bl offset 2 = value.toNat := by
  have hlt : numberAt bl offset 2 < 2 ^ 16 := numberAt_lt bl offset 2
  rw [← UInt16.toNat_inj, UInt16.toNat_ofNat', Nat.mod_eq_of_lt hlt]

theorem ofNat_numberAt_one {offset : Nat} {value : UInt8} :
    UInt8.ofNat (numberAt bl offset 1) = value ↔
      numberAt bl offset 1 = value.toNat := by
  have hlt : numberAt bl offset 1 < 2 ^ 8 := numberAt_lt bl offset 1
  rw [← UInt8.toNat_inj, UInt8.toNat_ofNat', Nat.mod_eq_of_lt hlt]

theorem drawnFrom_withOddByte_iff (h : r'.altitudeType = 0) :
    (withOddByte bl r').DrawnFrom carried ↔ r'.DrawnFrom carried ∧
      (bl.length % 2 = 1 →
        numberAt bl (bl.length - 1) 1 = carried.altitudeType.toNat ∨
          numberAt bl (bl.length - 1) 1 = 0) := by
  unfold withOddByte
  split
  next hodd =>
      rw [drawnFrom_altitudeType_iff h, ofNat_numberAt_one, ofNat_numberAt_one]
      simp only [hodd, forall_const]
      rfl
  next heven => simp only [heven, false_implies, and_true]

theorem drawnFrom_withLeftover_iff (h : r'.heading = 0)
    (htype : r'.altitudeType = 0) :
    (withLeftover bl r').DrawnFrom carried ↔ r'.DrawnFrom carried ∧
      (2 ≤ bl.length % 4 →
        numberAt bl (bl.length - bl.length % 4) 2 = carried.heading.toNat ∨
          numberAt bl (bl.length - bl.length % 4) 2 = 0) ∧
      (bl.length % 2 = 1 →
        numberAt bl (bl.length - 1) 1 = carried.altitudeType.toNat ∨
          numberAt bl (bl.length - 1) 1 = 0) := by
  unfold withLeftover
  split
  next htwo =>
      refine Iff.trans (drawnFrom_withOddByte_iff htype) ?_
      rw [drawnFrom_heading_iff h, ofNat_numberAt_two, ofNat_numberAt_two,
        and_assoc]
      simp only [htwo, forall_const]
      rfl
  next hfew =>
      rw [drawnFrom_withOddByte_iff htype]
      simp only [hfew, false_implies, true_and]

theorem drawnFrom_latitude_iff (latitude : Double) :
    DrawnFrom { latitude } carried ↔
      latitude = carried.latitude ∨ latitude = .nan := by
  constructor
  · exact DrawnFrom.latitude
  · intro h
    constructor
    case latitude => exact h
    all_goals exact .inr rfl

theorem drawnFrom_start : DrawnFrom {} carried :=
  (drawnFrom_latitude_iff .nan).mpr (.inr rfl)

/-- A field that is read at its own place when it is there. -/
theorem drawn_of_ite {α : Type} {c : Prop} [Decidable c] {value own start : α}
    (h : c → value = own) :
    (if c then value else start) = own ∨ (if c then value else start) = start := by
  split
  next hc => exact .inl (h hc)
  next => exact .inr rfl

end PositionReport

section Truncated

variable [Target] {r : PositionReport} {id : UInt64} {p : Nat}

theorem drawnFrom_upTo (r : PositionReport) (reach : Nat) :
    (r.upTo reach).DrawnFrom r.received := by
  unfold PositionReport.upTo
  constructor
  case latitude => exact PositionReport.drawn_of_ite fun _ => rfl
  case longitude => exact PositionReport.drawn_of_ite fun _ => rfl
  case altitude => exact PositionReport.drawn_of_ite fun _ => rfl
  case heading => exact PositionReport.drawn_of_ite fun _ => rfl
  case horizontalVelocity => exact PositionReport.drawn_of_ite fun _ => rfl
  case verticalVelocity => exact PositionReport.drawn_of_ite fun _ => rfl
  case icaoAddress => exact PositionReport.drawn_of_ite fun _ => rfl
  case squawk => exact PositionReport.drawn_of_ite fun _ => rfl
  case timestamp => exact PositionReport.drawn_of_ite fun _ => rfl
  all_goals exact .inr rfl

theorem unmixed_iff_drawnFrom {r' : PositionReport} (hp : headerLength ≤ p)
    (h : PositionReport.unpackData ((reportFrame r id).take p) = .ok r') :
    Unmixed r id p ↔ r'.DrawnFrom r.received := by
  have hdecode : decode ((reportFrame r id).take p) =
      .ok (some ⟨id, .positionReport, .positionReport r'⟩) := by
    rw [decode_take hp, decodePositionReport, h]
    rfl
  constructor
  · rintro ⟨carried, cut, hcarried, hcut, hdrawn⟩
    rw [decode_reportFrame] at hcarried
    rw [hdecode] at hcut
    cases hcarried
    cases hcut
    exact hdrawn
  · intro hdrawn
    exact ⟨r.received, r', decode_reportFrame r id, hdecode, hdrawn⟩

/-- What the bytes that are left have to be in front of the callsign. -/
theorem cutApart_front_iff (hcut : p < 46) :
    CutApart r id p ↔
      (16 ≤ p → p < 20 →
        numberAt (reportFrame r id) 12 4 = packCoordinate r.latitude) ∧
      (p < 36 → 2 ≤ p % 4 →
        numberAt ((reportFrame r id).take p) (p - p % 4) 2 = r.heading.toNat ∨
          numberAt ((reportFrame r id).take p) (p - p % 4) 2 = 0) ∧
      (p % 2 = 1 →
        numberAt ((reportFrame r id).take p) (p - 1) 1 = r.altitudeType.toNat ∨
          numberAt ((reportFrame r id).take p) (p - 1) 1 = 0) := by
  have htwo : 2 ≤ p % 4 →
      numberAt ((reportFrame r id).take p) (p - p % 4) 2 =
        numberAt (reportFrame r id) (p - p % 4) 2 :=
    fun h => numberAt_take _ (by omega)
  have hone : p % 2 = 1 →
      numberAt ((reportFrame r id).take p) (p - 1) 1 =
        numberAt (reportFrame r id) (p - 1) 1 :=
    fun h => numberAt_take _ (by omega)
  constructor
  · intro h
    refine ⟨h.latitude, fun hwide hleft => ?_, fun hodd => ?_⟩
    · rw [htwo hleft]
      exact h.heading hwide hleft
    · rw [hone hodd]
      exact h.altitudeType hodd (.inl hcut)
  · rintro ⟨hlatitude, hheading, htype⟩
    refine ⟨.inl hcut, hlatitude, fun hwide hleft => ?_, fun hodd _ => ?_⟩
    · rw [← htwo hleft]
      exact hheading hwide hleft
    · rw [← hone hodd]
      exact htype hodd

/-- A cut in front of the length of the callsign. -/
theorem unmixed_front_iff (hp : headerLength ≤ p) (hcut : p < 46) :
    Unmixed r id p ↔ CutApart r id p := by
  have hend := le_callsignEnd r
  have hlength := @length_take_reportFrame _ r id p (by omega)
  have hdata := PositionReport.unpackData_cut (hlength.symm ▸ hp)
    (hlength.symm ▸ hcut)
  have hwhole : (PositionReport.whole
      ((reportFrame r id).take p)).DrawnFrom r.received := by
    rw [whole_take hcut]
    exact drawnFrom_upTo r p
  rw [unmixed_iff_drawnFrom hp hdata, cutApart_front_iff hcut,
    PositionReport.cut, hlength]
  split
  next hnone =>
      have hquarter : ¬ 16 ≤ p := Nat.not_le.mpr hnone
      rw [PositionReport.drawnFrom_withLeftover_iff rfl rfl, hlength]
      simp only [PositionReport.drawnFrom_start, hquarter, false_implies,
        true_and, (by omega : p < 36), forall_const]
      rfl
  next hquarter =>
      split
      next hhalf =>
          have hread := @numberAt_take (reportFrame r id) 12 4 p (by omega)
          have hlatitude : unpackCoordinate (numberAt (reportFrame r id) 12 4) =
              r.received.latitude ↔ numberAt (reportFrame r id) 12 4 =
                packCoordinate r.latitude :=
            unpackCoordinate_inj (numberAt_lt _ 12 4) (packCoordinate_lt _)
          rw [PositionReport.drawnFrom_withLeftover_iff rfl rfl, hlength,
            PositionReport.drawnFrom_latitude_iff, hread, hlatitude]
          simp only [unpackCoordinate, reduceCtorEq, or_false,
            Nat.le_of_not_lt hquarter, hhalf, (by omega : p < 36), forall_const]
          rfl
      next hpast =>
          have hwhere : ¬ p < 20 := hpast
          split
          next hwide =>
              have hheading : ¬ 38 ≤ p := by omega
              rw [PositionReport.drawnFrom_withLeftover_iff _ rfl, hlength]
              · simp only [hwhole, hwhere, false_implies, implies_true,
                  true_and, hwide, forall_const]
                rfl
              · rw [PositionReport.whole, hlength]
                exact if_neg hheading
          next hnarrow =>
              rw [PositionReport.drawnFrom_withOddByte_iff rfl, hlength]
              simp only [hwhole, hwhere, hnarrow, false_implies, implies_true,
                true_and]
              rfl

/-- A cut into the callsign or its alignment. -/
theorem not_unmixed_callsign (hp : 46 ≤ p) (hcut : p < callsignEnd r) :
    ¬ Unmixed r id p := by
  rintro ⟨carried, r', -, hdecode, -⟩
  exact not_inside_take hp hcut ⟨_, hdecode⟩

/-- Behind the callsign only the last three fields are left to be decoded. -/
theorem unpackData_take (hp : callsignEnd r ≤ p) :
    PositionReport.unpackData ((reportFrame r id).take p) =
      PositionReport.unpackTail ((reportFrame r id).take p)
        { r.received with flags := 0, altitudeType := 0, emitterType := 0 }
        (callsignEnd r) := by
  have hcount : headerLength + r.front.length ≤ p := by
    rw [PositionReport.length_front, ← callsignEnd_eq]
    exact hp
  have hholds := reportFrame_holds r id
  rw [PositionReport.payload_eq_front, List.append_assoc] at hholds
  have hdata :=
    (r.unpackData_front (hholds.take hcount) (size_take_reportFrame r id p)).1
  rwa [← callsignEnd_eq] at hdata

omit [Target] in
theorem drawnFrom_tail (r' : PositionReport) (flags : UInt16)
    (altitudeType emitterType : UInt8)
    (hflags : flags = r'.flags ∨ flags = 0)
    (htype : altitudeType = r'.altitudeType ∨ altitudeType = 0)
    (hemitter : emitterType = r'.emitterType ∨ emitterType = 0) :
    PositionReport.DrawnFrom { r' with flags, altitudeType, emitterType } r' := by
  constructor
  case flags => exact hflags
  case altitudeType => exact htype
  case emitterType => exact hemitter
  all_goals exact .inl rfl

/-- A cut into the flags. -/
theorem unmixed_flags_iff (hp : callsignEnd r ≤ p)
    (hcut : p < callsignEnd r + 2) : Unmixed r id p ↔ CutApart r id p := by
  have hend := le_callsignEnd r
  have haligned := callsignEnd_mod r
  have hlength := @length_take_reportFrame _ r id p (by omega)
  have hdata := @unpackData_take _ r id p hp
  rw [PositionReport.unpackTail_few (by omega) (by omega) (by omega)
    (size_take_reportFrame r id p)] at hdata
  rw [unmixed_iff_drawnFrom (Nat.le_trans (by decide) (Nat.le_trans hend hp)) hdata,
    PositionReport.drawnFrom_withOddByte_iff rfl, hlength]
  have hfront := drawnFrom_tail r.received 0 0 0 (.inr rfl) (.inr rfl) (.inr rfl)
  have hone : p % 2 = 1 →
      numberAt ((reportFrame r id).take p) (p - 1) 1 =
        numberAt (reportFrame r id) (p - 1) 1 :=
    fun h => numberAt_take _ (by omega)
  constructor
  · rintro ⟨-, htype⟩
    refine ⟨.inr hp, fun _ h => by omega, fun h _ => by omega, fun hodd _ => ?_⟩
    rw [← hone hodd]
    exact htype hodd
  · intro hapart
    refine ⟨hfront, fun hodd => ?_⟩
    rw [hone hodd]
    exact hapart.altitudeType hodd (.inr (by omega))

/-- A cut behind the flags, or none. -/
theorem unmixed_behind (hp : callsignEnd r + 2 ≤ p) : Unmixed r id p := by
  have hend := le_callsignEnd r
  have hfields := reportFrame_numbers r id
  have hlength : ((reportFrame r id).take p).length =
      min p (callsignEnd r + 8) := by
    rw [List.length_take, length_reportFrame]
  have hdata := @unpackData_take _ r id p (Nat.le_of_add_right_le hp)
  rw [PositionReport.unpackTail_cut (by omega) (size_take_reportFrame r id p),
    numberAt_take _ hp] at hdata
  rw [unmixed_iff_drawnFrom (Nat.le_trans (by decide)
    (Nat.le_trans hend (Nat.le_of_add_right_le hp))) hdata]
  apply drawnFrom_tail r.received
  · left
    rw [hfields.flags, UInt16.ofNat_toNat]
    rfl
  · apply PositionReport.drawn_of_ite
    intro hthere
    rw [numberAt_take _ (by omega), hfields.altitudeType, UInt8.ofNat_toNat]
    rfl
  · apply PositionReport.drawn_of_ite
    intro hthere
    rw [numberAt_take _ (by omega), hfields.emitterType, UInt8.ofNat_toNat]
    rfl

theorem cutApart_behind (hp : callsignEnd r + 2 ≤ p) : CutApart r id p := by
  have hend := le_callsignEnd r
  exact ⟨.inr (by omega), fun _ h => by omega, fun h _ => by omega,
    fun _ h => by omega⟩

/-- The first bytes of a report are decoded without mixing fields if and only
if they are cut apart from the callsign and, where a field is not whole, its
bytes happen to be those of what is read from them. -/
theorem unmixed_iff (r : PositionReport) (id : UInt64) (hp : headerLength ≤ p) :
    Unmixed r id p ↔ CutApart r id p := by
  rcases (by omega : p < 46 ∨ (46 ≤ p ∧ p < callsignEnd r) ∨
    (callsignEnd r ≤ p ∧ p < callsignEnd r + 2) ∨ callsignEnd r + 2 ≤ p) with
      hfront | hcallsign | hflags | hbehind
  · exact unmixed_front_iff hp hfront
  · apply iff_of_false (not_unmixed_callsign hcallsign.1 hcallsign.2)
    intro hapart
    have hplace := hapart.callsign
    omega
  · exact unmixed_flags_iff hflags.1 hflags.2
  · exact iff_of_true (unmixed_behind hbehind) (cutApart_behind hbehind)

end Truncated

/-- A report cut behind its timestamp, inside it, where the two bytes that are
left are zero, and inside the latitude, where they are no heading. -/
theorem unmixed_iff_christchurch :
    @Unmixed Target.indefinite christchurchReport 7 20 ∧
      @Unmixed Target.indefinite christchurchReport 7 14 ∧
      ¬ @Unmixed Target.indefinite christchurchReport 7 22 := by
  refine ⟨?_, ?_, fun h => ?_⟩
  · rw [@unmixed_iff Target.indefinite 20 _ _ (by decide)]
    exact @CutApart.mk Target.indefinite _ _ _ (Or.inl (by decide)) (by decide)
      (by decide) (by decide)
  · rw [@unmixed_iff Target.indefinite 14 _ _ (by decide)]
    exact @CutApart.mk Target.indefinite _ _ _ (Or.inl (by decide)) (by decide)
      (by decide +kernel) (by decide)
  · rw [@unmixed_iff Target.indefinite 22 _ _ (by decide)] at h
    have hheading := @CutApart.heading Target.indefinite _ _ _ h
      (by decide) (by decide)
    revert hheading
    decide +kernel

/-- Half of a timestamp of today is decoded as a latitude near the equator. -/
theorem not_unmixed_timestamp :
    ¬ @Unmixed Target.indefinite
      { christchurchReport with timestamp := 1700000000000 } 7 16 := by
  rw [@unmixed_front_iff Target.indefinite _ _ _ (by decide) (by decide)]
  intro hapart
  have hlatitude := @CutApart.latitude Target.indefinite _ _ _ hapart
    (by decide) (by decide)
  revert hlatitude
  decide +kernel

end FlightSafety
