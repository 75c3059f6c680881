/-
Packed position reports of which only the first bytes are there.  A field that
is not there whole is skipped, and what is left of its bytes is then read as
the next fields that are narrow enough.
-/
import FlightSafety.Transport.DecodeSafety
import FlightSafety.Transport.PositionCodec

namespace FlightSafety

open Octets ExactDouble

section Cut

variable {bl : BufLen} {r : PositionReport} {o : Nat}

/-- A field keeps its value when fewer bytes are left than it has. -/
theorem fetch_bind_few {α β : Type} {offset width : Nat}
    (h : offset ≤ bl.length) (hfew : bl.length < offset + width) (current : α)
    (ofNet : Nat → α) (k : α × Nat → Except OutOfBounds β) :
    (bl.fetch offset width current ofNet >>= k) = k (current, offset) := by
  have hbound := remaining_le h
  have hshort : ¬ width ≤ bl.remaining offset := by omega
  rw [BufLen.fetch, if_neg hshort]
  rfl

theorem fetchString_bind_few {β : Type} {offset : Nat}
    (h : offset ≤ bl.length) (hfew : bl.length < offset + 2) (current : Bytes)
    (k : Bytes × Nat → Except OutOfBounds β) :
    (bl.fetchString offset current >>= k) = k (current, offset) := by
  have hbound := remaining_le h
  rw [fetchString_of_short (by omega), ok_bind]

/-- A field whose bytes are there. -/
theorem fetch_bind_at {α β : Type} {width : Nat}
    (hsize : bl.length < 2 ^ 64) (h : o + width ≤ bl.length) (current : α)
    (ofNet : Nat → α) (k : α × Nat → Except OutOfBounds β) :
    (bl.fetch o width current ofNet >>= k) =
      k (ofNet (numberAt bl o width), o + width) := by
  have hroom : width ≤ bl.remaining o := by
    unfold BufLen.remaining BufLen.getLength
    omega
  rw [BufLen.fetch, if_pos hroom, readNat_eq_numberAt h]
  rfl

namespace PositionReport

/-- An odd byte that is left becomes the altitude type. -/
def withOddByte (bl : BufLen) (r : PositionReport) : PositionReport :=
  if bl.length % 2 = 1 then
    { r with altitudeType := .ofNat (numberAt bl (bl.length - 1) 1) }
  else r

/-- Of up to three bytes that are left, two become the heading. -/
def withLeftover (bl : BufLen) (r : PositionReport) : PositionReport :=
  withOddByte bl
    (if 2 ≤ bl.length % 4 then
      { r with
        heading := .ofNat (numberAt bl (bl.length - bl.length % 4) 2) }
    else r)

theorem unpackTail_few (h : o ≤ bl.length) (hfew : bl.length < o + 2)
    (heven : o % 2 = 0) (hsize : bl.length < 2 ^ 64) :
    unpackTail bl r o = .ok (withOddByte bl r) := by
  unfold unpackTail withOddByte
  rw [fetch_bind_few h hfew]
  rcases Nat.eq_or_lt_of_le h with hend | hmore
  · have hnone : ¬ bl.length % 2 = 1 := by omega
    simp (disch := omega) only [fetch_bind_few, if_neg hnone]
    rfl
  · have hodd : bl.length % 2 = 1 := by omega
    have hlast : bl.length - 1 = o := by omega
    simp (disch := omega) only [fetch_bind_at hsize, fetch_bind_few,
      if_pos hodd, hlast]
    rfl

theorem unpackNarrow_few (h : o ≤ bl.length) (hfew : bl.length < o + 2)
    (heven : o % 2 = 0) (hsize : bl.length < 2 ^ 64) :
    unpackNarrow bl r o = .ok (withOddByte bl r) := by
  unfold unpackNarrow
  simp (disch := omega) only [fetch_bind_few, fetchString_bind_few]
  exact unpackTail_few h hfew heven hsize

theorem unpackNarrow_short (h : o ≤ bl.length) (hfew : bl.length < o + 4)
    (haligned : o % 4 = 0) (hsize : bl.length < 2 ^ 64) :
    unpackNarrow bl r o = .ok (withLeftover bl r) := by
  unfold withLeftover
  by_cases htwo : o + 2 ≤ bl.length
  · have hleft : 2 ≤ bl.length % 4 := by omega
    have hplace : bl.length - bl.length % 4 = o := by omega
    rw [if_pos hleft, hplace]
    unfold unpackNarrow
    rw [fetch_bind_at hsize htwo]
    simp (disch := omega) only [fetch_bind_few, fetchString_bind_few]
    exact unpackTail_few htwo (by omega) (by omega) hsize
  · have hleft : ¬ 2 ≤ bl.length % 4 := by omega
    rw [if_neg hleft]
    exact unpackNarrow_few h (by omega) (by omega) hsize

theorem unpackWide_short (h : o ≤ bl.length) (hfew : bl.length < o + 4)
    (haligned : o % 4 = 0) (hsize : bl.length < 2 ^ 64) :
    unpackWide bl r o = .ok (withLeftover bl r) := by
  unfold unpackWide
  simp (disch := omega) only [fetch_bind_few]
  exact unpackNarrow_short h hfew haligned hsize

/-- The fields in front of the callsign that are there whole. -/
def whole (bl : BufLen) : PositionReport where
  timestamp := if 20 ≤ bl.length then .ofNat (numberAt bl 12 8) else 0
  latitude := if 24 ≤ bl.length then unpackCoordinate (numberAt bl 20 4) else .nan
  longitude := if 28 ≤ bl.length then unpackCoordinate (numberAt bl 24 4) else .nan
  altitude := if 32 ≤ bl.length then .ofNat (numberAt bl 28 4) else 0
  icaoAddress := if 36 ≤ bl.length then .ofNat (numberAt bl 32 4) else 0
  heading := if 38 ≤ bl.length then .ofNat (numberAt bl 36 2) else 0
  horizontalVelocity := if 40 ≤ bl.length then .ofNat (numberAt bl 38 2) else 0
  verticalVelocity :=
    if 42 ≤ bl.length then (UInt16.ofNat (numberAt bl 40 2)).toInt16 else 0
  squawk := if 44 ≤ bl.length then .ofNat (numberAt bl 42 2) else 0

/-- What is decoded of a report that ends before its callsign has a length.
Half of a timestamp or more is a latitude to the decoder. -/
def cut (bl : BufLen) : PositionReport :=
  if bl.length < 16 then withLeftover bl {}
  else if bl.length < 20 then
    withLeftover bl { latitude := unpackCoordinate (numberAt bl 12 4) }
  else if bl.length < 36 then withLeftover bl (whole bl)
  else withOddByte bl (whole bl)

theorem unpackData_timestamp (h : headerLength ≤ bl.length)
    (hcut : bl.length < 20) : PositionReport.unpackData bl = .ok (cut bl) := by
  unfold headerLength at h
  have hsize : bl.length < 2 ^ 64 := by omega
  rw [unpackData_eq, headerLength, fetch_bind_few h hcut, cut]
  by_cases hhalf : bl.length < 16
  · rw [if_pos hhalf]
    exact unpackWide_short h hhalf rfl hsize
  · have hlatitude := Nat.le_of_not_lt hhalf
    rw [if_neg hhalf, if_pos hcut]
    dsimp only
    unfold unpackWide
    simp (disch := omega) only [fetch_bind_at hsize, fetch_bind_few,
      Nat.reduceAdd]
    exact unpackNarrow_short hlatitude hcut rfl hsize

theorem unpackData_wide (h : 20 ≤ bl.length) (hcut : bl.length < 36) :
    PositionReport.unpackData bl = .ok (cut bl) := by
  have hsize : bl.length < 2 ^ 64 := by omega
  have htimestamp : headerLength + 8 ≤ bl.length := h
  rw [unpackData_eq, fetch_bind_at hsize htimestamp, cut, if_neg (by omega),
    if_neg (by omega), if_pos hcut, headerLength]
  unfold whole
  rcases (by omega : bl.length < 24 ∨ (24 ≤ bl.length ∧ bl.length < 28) ∨
    (28 ≤ bl.length ∧ bl.length < 32) ∨ 32 ≤ bl.length) with
      hnone | hone | htwo | hthree
  · simp (disch := omega) only [if_pos, if_neg]
    exact unpackWide_short h hnone rfl hsize
  · unfold unpackWide
    simp (disch := omega) only [if_pos, if_neg, fetch_bind_at hsize,
      fetch_bind_few, Nat.reduceAdd]
    exact unpackNarrow_short hone.1 hone.2 rfl hsize
  · unfold unpackWide
    simp (disch := omega) only [if_pos, if_neg, fetch_bind_at hsize,
      fetch_bind_few, Nat.reduceAdd]
    exact unpackNarrow_short htwo.1 htwo.2 rfl hsize
  · unfold unpackWide
    simp (disch := omega) only [if_pos, if_neg, fetch_bind_at hsize,
      fetch_bind_few, Nat.reduceAdd]
    exact unpackNarrow_short hthree hcut rfl hsize

theorem unpackData_narrow (h : 36 ≤ bl.length) (hcut : bl.length < 46) :
    PositionReport.unpackData bl = .ok (cut bl) := by
  have hsize : bl.length < 2 ^ 64 := by omega
  rw [unpackData_eq, cut, if_neg (by omega), if_neg (by omega),
    if_neg (by omega), headerLength]
  unfold whole unpackWide
  simp (disch := omega) only [fetch_bind_at hsize, Nat.reduceAdd]
  rcases (by omega : bl.length < 38 ∨ (38 ≤ bl.length ∧ bl.length < 40) ∨
    (40 ≤ bl.length ∧ bl.length < 42) ∨ (42 ≤ bl.length ∧ bl.length < 44) ∨
    44 ≤ bl.length) with hnone | hone | htwo | hthree | hfour
  · simp (disch := omega) only [if_pos, if_neg]
    exact unpackNarrow_few h hnone rfl hsize
  · unfold unpackNarrow
    simp (disch := omega) only [if_pos, if_neg, fetch_bind_at hsize,
      fetch_bind_few, fetchString_bind_few, Nat.reduceAdd]
    exact unpackTail_few hone.1 hone.2 rfl hsize
  · unfold unpackNarrow
    simp (disch := omega) only [if_pos, if_neg, fetch_bind_at hsize,
      fetch_bind_few, fetchString_bind_few, Nat.reduceAdd]
    exact unpackTail_few htwo.1 htwo.2 rfl hsize
  · unfold unpackNarrow
    simp (disch := omega) only [if_pos, if_neg, fetch_bind_at hsize,
      fetch_bind_few, fetchString_bind_few, Nat.reduceAdd]
    exact unpackTail_few hthree.1 hthree.2 rfl hsize
  · unfold unpackNarrow
    simp (disch := omega) only [if_pos, fetch_bind_at hsize,
      fetchString_bind_few, Nat.reduceAdd]
    exact unpackTail_few hfour hcut rfl hsize

/-- A buffer that ends before its callsign has a length. -/
theorem unpackData_cut (h : headerLength ≤ bl.length)
    (hcut : bl.length < 46) : PositionReport.unpackData bl = .ok (cut bl) := by
  rcases (by omega : bl.length < 20 ∨ (20 ≤ bl.length ∧ bl.length < 36) ∨
    36 ≤ bl.length) with htimestamp | hwide | hnarrow
  · exact unpackData_timestamp h htimestamp
  · exact unpackData_wide hwide.1 hwide.2
  · exact unpackData_narrow hnarrow hcut

/-- A buffer that ends between two fields of the format. -/
theorem cut_of_aligned (h : bl.length % 8 = 4) : cut bl = whole bl := by
  have hleftover : ∀ r, withLeftover bl r = r := by
    intro r
    rw [withLeftover, if_neg (by omega), withOddByte, if_neg (by omega)]
  unfold cut
  split
  next hshort =>
      rw [hleftover, whole]
      simp (disch := omega) only [if_neg]
  next =>
      split
      next => omega
      next =>
          split
          next => exact hleftover _
          next => exact if_neg (by omega)

/-- The fields behind the callsign when the flags are there. -/
theorem unpackTail_cut (h : o + 2 ≤ bl.length) (hsize : bl.length < 2 ^ 64) :
    unpackTail bl r o = .ok
      { r with
        flags := .ofNat (numberAt bl o 2)
        altitudeType :=
          if o + 3 ≤ bl.length then .ofNat (numberAt bl (o + 2) 1)
          else r.altitudeType
        emitterType :=
          if o + 4 ≤ bl.length then .ofNat (numberAt bl (o + 3) 1)
          else r.emitterType } := by
  unfold unpackTail
  rcases (by omega : bl.length < o + 3 ∨ (o + 3 ≤ bl.length ∧
    bl.length < o + 4) ∨ o + 4 ≤ bl.length) with hnone | hone | hboth
  · simp (disch := omega) only [if_neg, fetch_bind_at hsize, fetch_bind_few]
    rfl
  · simp (disch := omega) only [if_pos, if_neg, fetch_bind_at hsize,
      fetch_bind_few]
    rfl
  · simp (disch := omega) only [if_pos, fetch_bind_at hsize]
    rfl

end PositionReport

end Cut

section Frame

variable [Target] {r : PositionReport} {id : UInt64} {p : Nat}

/-- What is decoded of a report whose first `reach` bytes arrive, none of the
callsign among them. -/
def PositionReport.upTo (r : PositionReport) (reach : Nat) : PositionReport where
  timestamp := if 20 ≤ reach then r.timestamp else 0
  latitude :=
    if 24 ≤ reach then unpackCoordinate (packCoordinate r.latitude) else .nan
  longitude :=
    if 28 ≤ reach then unpackCoordinate (packCoordinate r.longitude) else .nan
  altitude := if 32 ≤ reach then r.altitude else 0
  icaoAddress := if 36 ≤ reach then r.icaoAddress else 0
  heading := if 38 ≤ reach then r.heading else 0
  horizontalVelocity := if 40 ≤ reach then r.horizontalVelocity else 0
  verticalVelocity := if 42 ≤ reach then r.verticalVelocity else 0
  squawk := if 44 ≤ reach then r.squawk else 0

theorem unpaddedLength_report :
    (fssMessagePositionReport r).unpaddedLength =
      50 + r.callsign.length % 65536 +
        alignSkip (46 + r.callsign.length % 65536) := by
  rw [FssMessage.unpaddedLength_eq]
  simp only [fssMessagePositionReport, FssMessageBody.payload,
    PositionReport.payload, List.length_append, length_bigEndian,
    length_stringField, length_cut16, headerLength, Nat.reduceAdd]
  omega

/-- A report as it is packed under some id. -/
def reportFrame (r : PositionReport) (id : UInt64) : BufLen :=
  ((fssMessagePositionReport r).setId id).getPacked

/-- Where the alignment of the callsign ends. -/
def callsignEnd (r : PositionReport) : Nat :=
  46 + r.callsign.length % 65536 + alignSkip (46 + r.callsign.length % 65536)

omit [Target] in
theorem callsignEnd_eq (r : PositionReport) :
    callsignEnd r = 44 + (stringField cut16 44 r.callsign).length := by
  rw [callsignEnd, length_stringField, length_cut16, Nat.add_assoc 44 2,
    ← Nat.add_assoc 44]
  omega

omit [Target] in
theorem callsignEnd_mod (r : PositionReport) : callsignEnd r % 8 = 0 := by
  unfold callsignEnd alignSkip
  omega

/-- Every report is padded with four zeros. -/
theorem reportFrame_eq (r : PositionReport) (id : UInt64) :
    reportFrame r id = ((fssMessagePositionReport r).setId id).header ++
      (r.payload cut16 headerLength ++ zeros 4) := by
  have hlength : ((fssMessagePositionReport r).setId id).unpaddedLength =
      callsignEnd r + 4 := by
    rw [FssMessage.unpaddedLength_setId, unpaddedLength_report, callsignEnd]
    omega
  have haligned := callsignEnd_mod r
  have hpadding : framePadding (((fssMessagePositionReport r).setId
      id).unpaddedLength % 65536) = 4 := by
    rw [hlength, framePadding, if_pos (by omega)]
    omega
  rw [reportFrame, FssMessage.getPacked_eq_of_lt _ (by rw [hlength]; omega),
    hpadding, FssMessage.frame_eq, List.append_assoc]
  rfl

theorem reportFrame_holds (r : PositionReport) (id : UInt64) :
    Holds (reportFrame r id) headerLength
      (r.payload cut16 headerLength ++ zeros 4) := by
  rw [reportFrame_eq]
  exact FssMessage.header_holds _ _

/-- The numbers of a report where the format has them. -/
structure Numbers (bytes : Bytes) (r : PositionReport) : Prop where
  timestamp : numberAt bytes 12 8 = r.timestamp.toNat
  latitude : numberAt bytes 20 4 = packCoordinate r.latitude
  longitude : numberAt bytes 24 4 = packCoordinate r.longitude
  altitude : numberAt bytes 28 4 = r.altitude.toNat
  icaoAddress : numberAt bytes 32 4 = r.icaoAddress.toNat
  heading : numberAt bytes 36 2 = r.heading.toNat
  horizontalVelocity : numberAt bytes 38 2 = r.horizontalVelocity.toNat
  verticalVelocity : numberAt bytes 40 2 = r.verticalVelocity.toUInt16.toNat
  squawk : numberAt bytes 42 2 = r.squawk.toNat
  callsign : numberAt bytes 44 2 = r.callsign.length % 65536
  flags : numberAt bytes (callsignEnd r) 2 = r.flags.toNat
  altitudeType : numberAt bytes (callsignEnd r + 2) 1 = r.altitudeType.toNat
  emitterType : numberAt bytes (callsignEnd r + 3) 1 = r.emitterType.toNat

theorem reportFrame_numbers (r : PositionReport) (id : UInt64) :
    Numbers (reportFrame r id) r := by
  have h := reportFrame_holds r id
  simp only [PositionReport.payload, List.append_assoc, headerLength,
    Nat.reduceAdd] at h
  have h₁ : Holds _ 20 _ := h.skip (length_bigEndian 8 _)
  have h₂ : Holds _ 24 _ := h₁.skip (length_bigEndian 4 _)
  have h₃ : Holds _ 28 _ := h₂.skip (length_bigEndian 4 _)
  have h₄ : Holds _ 32 _ := h₃.skip (length_bigEndian 4 _)
  have h₅ : Holds _ 36 _ := h₄.skip (length_bigEndian 4 _)
  have h₆ : Holds _ 38 _ := h₅.skip (length_bigEndian 2 _)
  have h₇ : Holds _ 40 _ := h₆.skip (length_bigEndian 2 _)
  have h₈ : Holds _ 42 _ := h₇.skip (length_bigEndian 2 _)
  have h₉ : Holds _ 44 _ := h₈.skip (length_bigEndian 2 _)
  have h₁₀ : Holds _ (callsignEnd r) _ := callsignEnd_eq r ▸ h₉.skip rfl
  have h₁₁ := h₁₀.skip (length_bigEndian 2 _)
  have h₁₂ := h₁₁.skip (length_bigEndian 1 _)
  rw [stringField, List.append_assoc, List.append_assoc] at h₉
  exact
    { timestamp := h.numberAt_of_lt r.timestamp.toNat_lt
      latitude := h₁.numberAt_of_lt (packCoordinate_lt _)
      longitude := h₂.numberAt_of_lt (packCoordinate_lt _)
      altitude := h₃.numberAt_of_lt r.altitude.toNat_lt
      icaoAddress := h₄.numberAt_of_lt r.icaoAddress.toNat_lt
      heading := h₅.numberAt_of_lt r.heading.toNat_lt
      horizontalVelocity := h₆.numberAt_of_lt r.horizontalVelocity.toNat_lt
      verticalVelocity :=
        h₇.numberAt_of_lt r.verticalVelocity.toUInt16.toNat_lt
      squawk := h₈.numberAt_of_lt r.squawk.toNat_lt
      callsign := h₉.numberAt
      flags := h₁₀.numberAt_of_lt r.flags.toNat_lt
      altitudeType := h₁₁.numberAt_of_lt r.altitudeType.toNat_lt
      emitterType := h₁₂.numberAt_of_lt r.emitterType.toNat_lt }

theorem length_reportFrame (r : PositionReport) (id : UInt64) :
    (reportFrame r id).length = callsignEnd r + 8 := by
  have h := (reportFrame_holds r id).length_eq
  rw [h, callsignEnd_eq]
  simp only [PositionReport.payload, List.length_append, length_bigEndian,
    headerLength, Nat.reduceAdd, length_stringField, zeros,
    List.length_replicate]
  omega

/-- The decoder of the whole frame or of a prefix with a header. -/
theorem decode_take {p : Nat} (hp : headerLength ≤ p) :
    decode ((reportFrame r id).take p) =
      (decodePositionReport id ((reportFrame r id).take p)).map some := by
  have htake : (reportFrame r id).take p =
      ((fssMessagePositionReport r).setId id).header ++
        (r.payload cut16 headerLength ++ zeros 4).take (p - headerLength) := by
    rw [reportFrame_eq, List.take_append, FssMessage.length_header,
      List.take_of_length_le (by rw [FssMessage.length_header]; exact hp)]
  rw [htake, FssMessage.decode_header]
  rfl

theorem decode_reportFrame (r : PositionReport) (id : UInt64) :
    decode (reportFrame r id) =
      .ok (some ⟨id, .positionReport, .positionReport r.received⟩) := by
  have hlength := length_reportFrame r id
  have hsize : (reportFrame r id).length < 2 ^ 64 := by
    unfold callsignEnd alignSkip at hlength
    omega
  have hwhole := @decode_take _ r id (reportFrame r id).length (by
    rw [hlength, callsignEnd, headerLength]
    omega)
  rw [List.take_length] at hwhole
  rw [hwhole, decodePositionReport,
    PositionReport.unpackData_holds r (reportFrame_holds r id) hsize]
  rfl

theorem length_take_reportFrame (hp : p ≤ callsignEnd r + 8) :
    ((reportFrame r id).take p).length = p := by
  rw [List.length_take, length_reportFrame, Nat.min_eq_left hp]

omit [Target] in
theorem le_callsignEnd (r : PositionReport) : 46 ≤ callsignEnd r := by
  unfold callsignEnd
  omega

theorem size_take_reportFrame (r : PositionReport) (id : UInt64) (p : Nat) :
    ((reportFrame r id).take p).length < 2 ^ 64 := by
  have hlength := length_reportFrame r id
  have hle := List.length_take_le p (reportFrame r id)
  have htake := List.length_take_le' p (reportFrame r id)
  unfold callsignEnd alignSkip at hlength
  omega

omit [Target] in
theorem ite_numberAt_take {α : Type} {bytes : Bytes} {o width n : Nat}
    (ofNet : Nat → α) (start : α) (h : numberAt bytes o width = n) :
    (if o + width ≤ p then ofNet (numberAt (bytes.take p) o width) else start) =
      if o + width ≤ p then ofNet n else start := by
  split
  next hthere => rw [numberAt_take _ hthere, h]
  next => rfl

/-- The fields that are there whole are those of the report. -/
theorem whole_take (hp : p < 46) :
    PositionReport.whole ((reportFrame r id).take p) = r.upTo p := by
  have hend := le_callsignEnd r
  have hlength := @length_take_reportFrame _ r id p (by omega)
  have hfields := reportFrame_numbers r id
  unfold PositionReport.whole PositionReport.upTo
  rw [hlength, ite_numberAt_take UInt64.ofNat 0 hfields.timestamp,
    ite_numberAt_take unpackCoordinate .nan hfields.latitude,
    ite_numberAt_take unpackCoordinate .nan hfields.longitude,
    ite_numberAt_take UInt32.ofNat 0 hfields.altitude,
    ite_numberAt_take UInt32.ofNat 0 hfields.icaoAddress,
    ite_numberAt_take UInt16.ofNat 0 hfields.heading,
    ite_numberAt_take UInt16.ofNat 0 hfields.horizontalVelocity,
    ite_numberAt_take (fun raw => (UInt16.ofNat raw).toInt16) 0
      hfields.verticalVelocity,
    ite_numberAt_take UInt16.ofNat 0 hfields.squawk]
  simp only [UInt64.ofNat_toNat, UInt32.ofNat_toNat, UInt16.ofNat_toNat]
  rfl

/-- The decoder leaves a report that is cut in its callsign. -/
theorem not_inside_take (hp : 46 ≤ p) (hcut : p < callsignEnd r) :
    ¬ Inside (decode ((reportFrame r id).take p)) := by
  have hlength := @length_take_reportFrame _ r id p (by omega)
  have hheader : headerLength ≤ p := Nat.le_trans (by decide) hp
  have hstring : stringLength ((reportFrame r id).take p) 44 =
      r.callsign.length % 65536 := by
    rw [← (reportFrame_numbers r id).callsign, ← numberAt_take _ hp]
    rfl
  rw [decode_take hheader, inside_map, decodePositionReport, inside_bind_pure,
    PositionReport.unpackData_inside_iff (hlength.symm ▸ hheader)]
  intro hinside
  have hroom : 34 ≤
      BufLen.remaining ((reportFrame r id).take p) headerLength := by
    unfold BufLen.remaining BufLen.getLength headerLength
    unfold callsignEnd alignSkip at hcut
    omega
  have hfits := hinside hroom
  rw [hlength, fieldEnd, stringEnd, hstring] at hfits
  exact Nat.not_le.mpr hcut hfits

end Frame

end FlightSafety
