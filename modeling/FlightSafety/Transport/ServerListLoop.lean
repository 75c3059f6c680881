/-
The loop over the entries of a server list as the machine runs it: offsets and
lengths are `size_t`, and a read outside the buffer finds what lies there.
Inside the buffer it computes what the checked decoder computes; how often it
goes round once it has left the buffer is up to the memory behind it.
-/
import FlightSafety.Transport.PaddedDecode

namespace FlightSafety

open Octets ExactDouble

/-- The bytes around a buffer, by their distance from its start. -/
abbrev Memory := UInt64 → UInt8

/-- The memory holds a buffer where it starts. -/
def Shows (mem : Memory) (bl : BufLen) : Prop :=
  ∀ i, i < bl.length → bl[i]? = some (mem (UInt64.ofNat i))

/-- `assign` of `width` bytes. -/
def copyBytes (mem : Memory) (offset : UInt64) (width : Nat) : Bytes :=
  (List.range width).map fun i => mem (offset + UInt64.ofNat i)

/-- `ntohs` of the two bytes at an offset. -/
def loadShort (mem : Memory) (offset : UInt64) : UInt16 :=
  UInt16.ofNat (ofBigEndian (copyBytes mem offset 2))

/-- The body of the loop: an entry, and the offset behind its alignment. -/
def takeServer (mem : Memory) (offset : UInt64) :
    (Bytes × UInt16) × UInt64 :=
  let port := loadShort mem offset
  let offset := offset + 2
  let len := loadShort mem offset
  let offset := offset + 2
  let serverAddr := copyBytes mem offset len.toNat
  let offset := offset + len.toUInt64
  ((serverAddr, port), offset + (8 - offset % 8))

/-- The loop of `fss_message_server_list::unpackData`, if it ends within
`fuel` iterations. -/
def serverLoop (mem : Memory) (length : UInt64) (fuel : Nat)
    (offset : UInt64) : Option (List (Bytes × UInt16)) :=
  if 4 ≤ length - offset then
    match fuel with
    | 0 => none
    | fuel + 1 =>
        let (server, offset) := takeServer mem offset
        (serverLoop mem length fuel offset).map (server :: ·)
  else some []

/-- The loop over a buffer, from the end of its header. -/
def unpackServerList (mem : Memory) (bl : BufLen) (fuel : Nat) :
    Option (List (Bytes × UInt16)) :=
  serverLoop mem (UInt64.ofNat bl.getLength) fuel (UInt64.ofNat headerLength)

/-- The loop ends after exactly as many iterations as it finds entries. -/
def StopsAfter {α : Type} (loop : Nat → Option (List α)) (found : List α) :
    Prop :=
  ∀ fuel, loop fuel = if found.length ≤ fuel then some found else none

/-- Whatever lies behind the buffer, the loop ends after at most a quarter as
many iterations as there are bytes behind the header, and finds no more
entries than that. -/
def EndsInTime (bl : BufLen) : Prop :=
  ∀ mem, Shows mem bl → ∃ servers,
    unpackServerList mem bl ((bl.length - headerLength) / 4) = some servers ∧
      servers.length ≤ (bl.length - headerLength) / 4

theorem StopsAfter.cons {α : Type} {loop rest : Nat → Option (List α)}
    {first : α} {found : List α} (h : StopsAfter rest found)
    (hzero : loop 0 = none)
    (hsucc : ∀ fuel, loop (fuel + 1) = (rest fuel).map (first :: ·)) :
    StopsAfter loop (first :: found) := by
  intro fuel
  cases fuel with
  | zero => exact hzero
  | succ fuel =>
      rw [hsucc, h fuel, List.length_cons]
      by_cases hfuel : found.length ≤ fuel
      · rw [if_pos hfuel, if_pos (Nat.add_le_add_right hfuel 1)]
        rfl
      · rw [if_neg hfuel, if_neg fun hle => hfuel (Nat.le_of_add_le_add_right hle)]
        rfl

/-! The machine's arithmetic is that of the checked decoder. -/

section Inside

variable {mem : Memory} {bl : BufLen} {offset : Nat}

theorem copyBytes_eq (hmem : Shows mem bl) {width : Nat}
    (hfits : offset + width ≤ bl.length) :
    copyBytes mem (UInt64.ofNat offset) width =
      (bl.drop offset).take width := by
  apply List.ext_getElem?
  intro i
  by_cases hi : i < width
  · have hbyte := hmem (offset + i) (by omega)
    rw [copyBytes, List.getElem?_map, List.getElem?_range hi,
      List.getElem?_take_of_lt hi, List.getElem?_drop, hbyte,
      UInt64.ofNat_add]
    rfl
  · rw [copyBytes, List.getElem?_eq_none (by simp; omega),
      List.getElem?_eq_none (by simp; omega)]

theorem loadShort_eq (hmem : Shows mem bl) (hfits : offset + 2 ≤ bl.length) :
    loadShort mem (UInt64.ofNat offset) =
      UInt16.ofNat (stringLength bl offset) := by
  rw [loadShort, copyBytes_eq hmem hfits, stringLength]

theorem stringLength_lt (bl : BufLen) (offset : Nat) :
    stringLength bl offset < 65536 :=
  lengthField_lt (bl.drop offset)

theorem toUInt64_ofNat {n : Nat} (h : n < 65536) :
    (UInt16.ofNat n).toUInt64 = UInt64.ofNat n := by
  apply UInt64.toNat_inj.mp
  rw [UInt16.toNat_toUInt64, UInt16.toNat_ofNat', UInt64.toNat_ofNat',
    Nat.mod_eq_of_lt h, Nat.mod_eq_of_lt (by omega)]

/-- The alignment skip is the same in `size_t` as in the natural numbers. -/
theorem align_ofNat (n : Nat) :
    UInt64.ofNat n + (8 - UInt64.ofNat n % 8) =
      UInt64.ofNat (n + alignSkip n) := by
  have hskip : UInt64.ofNat n % 8 ≤ 8 := by
    rw [UInt64.le_iff_toNat_le, UInt64.toNat_mod]
    exact Nat.le_of_lt (Nat.mod_lt _ (by decide))
  apply UInt64.toNat_inj.mp
  rw [UInt64.toNat_add, UInt64.toNat_sub_of_le _ _ hskip, UInt64.toNat_mod,
    UInt64.toNat_ofNat', UInt64.toNat_ofNat', alignSkip]
  have height : (8 : UInt64).toNat = 8 := rfl
  rw [height]
  omega

/-- Where the port and the length lie inside the buffer, the next offset is
the checked decoder's, even if it lies outside. -/
theorem takeServer_next (hmem : Shows mem bl)
    (hroom : offset + 4 ≤ bl.length) :
    (takeServer mem (UInt64.ofNat offset)).2 =
      UInt64.ofNat (fieldEnd bl (offset + 2)) := by
  have hlen := loadShort_eq hmem (by omega : offset + 2 + 2 ≤ bl.length)
  rw [UInt64.ofNat_add] at hlen
  have hend : UInt64.ofNat offset + 2 + 2 +
      UInt64.ofNat (stringLength bl (offset + 2)) =
        UInt64.ofNat (stringEnd bl (offset + 2)) := by
    rw [stringEnd, UInt64.ofNat_add, UInt64.ofNat_add, UInt64.ofNat_add]
    rfl
  rw [fieldEnd, ← align_ofNat, ← hend, ← toUInt64_ofNat (stringLength_lt _ _),
    ← hlen]
  rfl

/-- Where the string does too, so is the entry. -/
theorem takeServer_eq (hmem : Shows mem bl) (hroom : offset + 4 ≤ bl.length)
    (hfits : stringEnd bl (offset + 2) ≤ bl.length) :
    takeServer mem (UInt64.ofNat offset) =
      (serverAt bl offset, UInt64.ofNat (fieldEnd bl (offset + 2))) := by
  have hport := loadShort_eq hmem (by omega : offset + 2 ≤ bl.length)
  have hlen := loadShort_eq hmem (by omega : offset + 2 + 2 ≤ bl.length)
  have haddr := copyBytes_eq hmem hfits
  rw [UInt64.ofNat_add] at hlen
  rw [UInt64.ofNat_add, UInt64.ofNat_add] at haddr
  have hwidth : (UInt16.ofNat (stringLength bl (offset + 2))).toNat =
      stringLength bl (offset + 2) := by
    rw [UInt16.toNat_ofNat', Nat.mod_eq_of_lt (stringLength_lt _ _)]
  refine Prod.ext (Prod.ext ?_ hport) (takeServer_next hmem hroom)
  change copyBytes mem (UInt64.ofNat offset + 2 + 2)
    (loadShort mem (UInt64.ofNat offset + 2)).toNat = _
  change loadShort mem (UInt64.ofNat offset + 2) = _ at hlen
  rw [hlen, hwidth]
  exact haddr

/-- The test of the loop is the one on the length that remains. -/
theorem room_iff (hsize : bl.length < 2 ^ 64) (hoffset : offset < 2 ^ 64) :
    4 ≤ UInt64.ofNat bl.getLength - UInt64.ofNat offset ↔
      4 ≤ bl.remaining offset := by
  have hfour : (4 : UInt64).toNat = 4 := rfl
  rw [UInt64.le_iff_toNat_le, UInt64.toNat_sub, UInt64.toNat_ofNat',
    UInt64.toNat_ofNat', hfour]
  unfold BufLen.remaining BufLen.getLength
  omega

theorem serverLoop_of_few (hsize : bl.length < 2 ^ 64)
    (hoffset : offset < 2 ^ 64) (hfew : bl.remaining offset < 4) (fuel : Nat) :
    serverLoop mem (UInt64.ofNat bl.getLength) fuel (UInt64.ofNat offset) =
      some [] := by
  have hstop := (room_iff hsize hoffset).not.mpr (Nat.not_le.mpr hfew)
  unfold serverLoop
  rw [if_neg hstop]

theorem serverLoop_zero (hsize : bl.length < 2 ^ 64)
    (hoffset : offset < 2 ^ 64) (hroom : 4 ≤ bl.remaining offset) :
    serverLoop mem (UInt64.ofNat bl.getLength) 0 (UInt64.ofNat offset) =
      none := by
  unfold serverLoop
  rw [if_pos ((room_iff hsize hoffset).mpr hroom)]

theorem serverLoop_succ (hsize : bl.length < 2 ^ 64)
    (hoffset : offset < 2 ^ 64) (hroom : 4 ≤ bl.remaining offset)
    (fuel : Nat) :
    serverLoop mem (UInt64.ofNat bl.getLength) (fuel + 1)
        (UInt64.ofNat offset) =
      (serverLoop mem (UInt64.ofNat bl.getLength) fuel
        (takeServer mem (UInt64.ofNat offset)).2).map
          ((takeServer mem (UInt64.ofNat offset)).1 :: ·) := by
  rw [serverLoop, if_pos ((room_iff hsize hoffset).mpr hroom)]

/-- Inside the buffer the loop finds the entries of the checked decoder, one
an iteration, each of at least four bytes. -/
theorem serverLoop_of_fits (hmem : Shows mem bl) (hsize : bl.length < 2 ^ 64)
    (hfits : ServersFit bl offset) (h : offset ≤ bl.length) :
    ∃ servers, unpackServers bl offset = .ok servers ∧
      4 * servers.length ≤ bl.length - offset ∧
      StopsAfter (fun fuel => serverLoop mem (UInt64.ofNat bl.getLength) fuel
        (UInt64.ofNat offset)) servers := by
  induction hfits with
  | stop few =>
      refine ⟨[], unpackServers_of_few few, Nat.zero_le _, fun fuel => ?_⟩
      exact serverLoop_of_few hsize (by omega) few fuel
  | @entry offset room fits rest ih =>
      obtain ⟨servers, hservers, hcount, hstops⟩ := ih fits
      have hbound := remaining_le h
      have hend := stringEnd_lt_fieldEnd bl (offset + 2)
      have hstring : stringEnd bl (offset + 2) ≤ bl.length := by omega
      have hbody := takeServer_eq hmem (by omega) hstring
      refine ⟨serverAt bl offset :: servers, ?_, ?_, ?_⟩
      · rw [unpackServers_of_room h room hstring, hservers]
        rfl
      · unfold stringEnd at hend
        rw [List.length_cons]
        omega
      · refine hstops.cons (serverLoop_zero hsize (by omega) room)
          fun fuel => ?_
        rw [serverLoop_succ hsize (by omega) room, hbody]

end Inside

/-! What the loop does once it has left the buffer, where only zeros lie. -/

/-- Nothing but zeros around a buffer. -/
def zerosAround (bl : BufLen) : Memory :=
  fun i => bl[i.toNat]?.getD 0

theorem shows_zerosAround {bl : BufLen} (hsize : bl.length < 2 ^ 64) :
    Shows (zerosAround bl) bl := by
  intro i hi
  rw [zerosAround, UInt64.toNat_ofNat', Nat.mod_eq_of_lt (by omega),
    List.getElem?_eq_getElem hi, Option.getD_some]

theorem zerosAround_outside {bl : BufLen} {i : Nat} (hi : bl.length ≤ i)
    (hsize : i < 2 ^ 64) : zerosAround bl (UInt64.ofNat i) = 0 := by
  rw [zerosAround, UInt64.toNat_ofNat', Nat.mod_eq_of_lt hsize,
    List.getElem?_eq_none hi]
  rfl

section Outside

variable {bl : BufLen} {offset : Nat}

theorem loadShort_zeros (hpast : bl.length ≤ offset)
    (hsize : offset + 1 < 2 ^ 64) :
    loadShort (zerosAround bl) (UInt64.ofNat offset) = 0 := by
  have hfirst := zerosAround_outside hpast (by omega)
  have hsecond := zerosAround_outside (Nat.le_succ_of_le hpast) hsize
  have hbytes : copyBytes (zerosAround bl) (UInt64.ofNat offset) 2 =
      [0, 0] := by
    change [zerosAround bl (UInt64.ofNat offset + UInt64.ofNat 0),
      zerosAround bl (UInt64.ofNat offset + UInt64.ofNat 1)] = _
    rw [← UInt64.ofNat_add, ← UInt64.ofNat_add, Nat.add_zero, hfirst, hsecond]
  rw [loadShort, hbytes]
  rfl

/-- An entry of zeros is an empty string, and its alignment ends eight bytes
on. -/
theorem takeServer_zeros (hpast : bl.length ≤ offset)
    (hsize : offset + 8 < 2 ^ 64) (haligned : offset % 8 = 0) :
    (takeServer (zerosAround bl) (UInt64.ofNat offset)).2 =
      UInt64.ofNat (offset + 8) := by
  have hlen : loadShort (zerosAround bl) (UInt64.ofNat offset + 2) = 0 := by
    have hload := loadShort_zeros (Nat.le_add_right_of_le hpast)
      (by omega : offset + 2 + 1 < 2 ^ 64)
    rwa [UInt64.ofNat_add] at hload
  have hskip : offset + 4 + alignSkip (offset + 4) = offset + 8 := by
    unfold alignSkip
    omega
  have hend : UInt64.ofNat offset + 2 + 2 + (0 : UInt16).toUInt64 =
      UInt64.ofNat (offset + 4) := by
    rw [UInt64.ofNat_add, UInt64.add_assoc, UInt64.add_assoc]
    rfl
  rw [← hskip, ← align_ofNat, ← hend, ← hlen]
  rfl

/-- The loop takes zeros for entries as long as the offset does not wrap. -/
theorem serverLoop_zeros (hlong : headerLength ≤ bl.length)
    (hpast : bl.length < offset) (haligned : offset % 8 = 0) (fuel : Nat)
    (hsize : offset + 8 * fuel + 8 < 2 ^ 64) :
    serverLoop (zerosAround bl) (UInt64.ofNat bl.getLength) fuel
      (UInt64.ofNat offset) = none := by
  have hroom : 4 ≤ bl.remaining offset := by
    unfold BufLen.remaining BufLen.getLength
    unfold headerLength at hlong
    omega
  induction fuel generalizing offset with
  | zero => exact serverLoop_zero (by omega) (by omega) hroom
  | succ fuel ih =>
      rw [serverLoop_succ (by omega) (by omega) hroom,
        takeServer_zeros (Nat.le_of_lt hpast) (by omega) haligned,
        ih (by omega) (by omega) (by omega) ?_]
      · rfl
      · unfold BufLen.remaining BufLen.getLength
        unfold headerLength at hlong
        omega

theorem fieldEnd_aligned (bl : BufLen) (offset : Nat) :
    fieldEnd bl offset % 8 = 0 := by
  unfold fieldEnd alignSkip
  omega

/-- Once an entry does not fit, the loop has gone round as often as it may
before the offset wraps. -/
theorem serverLoop_of_not_fits (hlong : headerLength ≤ bl.length)
    (h : offset ≤ bl.length) (hfits : ¬ ServersFit bl offset) (fuel : Nat)
    (hsize : bl.length + 8 * fuel + 2 ^ 17 < 2 ^ 64) :
    serverLoop (zerosAround bl) (UInt64.ofNat bl.getLength) fuel
      (UInt64.ofNat offset) = none := by
  induction fuel generalizing offset with
  | zero =>
      have hroom : 4 ≤ bl.remaining offset := by
        by_contra hfew
        exact hfits (.stop (Nat.not_le.mp hfew))
      exact serverLoop_zero (by omega) (by omega) hroom
  | succ fuel ih =>
      have hroom : 4 ≤ bl.remaining offset := by
        by_contra hfew
        exact hfits (.stop (Nat.not_le.mp hfew))
      have hbound := remaining_le h
      rw [serverLoop_succ (by omega) (by omega) hroom,
        takeServer_next (shows_zerosAround (by omega)) (by omega)]
      by_cases hinside : fieldEnd bl (offset + 2) ≤ bl.length
      · rw [ih hinside (fun rest => hfits (.entry hroom hinside rest))
          (by omega)]
        rfl
      · have hnear := fieldEnd_le_stringEnd_add bl (offset + 2)
        have hstring := stringLength_lt bl (offset + 2)
        unfold stringEnd at hnear
        rw [serverLoop_zeros hlong (Nat.not_le.mp hinside)
          (fieldEnd_aligned bl _) fuel (by omega)]
        rfl

end Outside

/-! Every buffer with a header. -/

theorem endsInTime_of_fits {bl : BufLen} (hlong : headerLength ≤ bl.length)
    (hsize : bl.length < 2 ^ 64) (hfits : ServersFit bl headerLength) :
    EndsInTime bl := by
  intro mem hmem
  obtain ⟨servers, _, hcount, hstops⟩ :=
    serverLoop_of_fits hmem hsize hfits hlong
  have hbound : servers.length ≤ (bl.length - headerLength) / 4 := by omega
  exact ⟨servers, (hstops _).trans (if_pos hbound), hbound⟩

theorem not_endsInTime {bl : BufLen} (hlong : headerLength ≤ bl.length)
    (hsize : bl.length < 2 ^ 62) (hfits : ¬ ServersFit bl headerLength) :
    ¬ EndsInTime bl := by
  intro hends
  obtain ⟨servers, hloop, _⟩ :=
    hends (zerosAround bl) (shows_zerosAround (by omega))
  rw [unpackServerList, serverLoop_of_not_fits hlong hlong hfits _ (by omega)]
    at hloop
  cases hloop

/-- The loop ends in time, for every buffer with a header that a string can
hold, exactly if each entry it meets ends inside the buffer. -/
theorem endsInTime_iff {bl : BufLen} (hlong : headerLength ≤ bl.length)
    (hsize : bl.length < 2 ^ 62) :
    EndsInTime bl ↔ ServersFit bl headerLength := by
  constructor
  · intro hends
    by_contra hfits
    exact not_endsInTime hlong hsize hfits hends
  · exact endsInTime_of_fits hlong (by omega)

/-- The frame of a list with one entry. -/
theorem endsInTime_oneServer :
    EndsInTime [0, 24, 0, 9, 0, 0, 0, 0, 0, 0, 0, 1,
      78, 234, 0, 1, 49, 0, 0, 0, 0, 0, 0, 0] ↔
    ServersFit [0, 24, 0, 9, 0, 0, 0, 0, 0, 0, 0, 1,
      78, 234, 0, 1, 49, 0, 0, 0, 0, 0, 0, 0] headerLength :=
  endsInTime_iff (by decide) (by decide)

/-- Four zero bytes behind a header are an entry whose alignment ends eight
bytes behind the buffer. -/
theorem not_endsInTime_zeros :
    ¬ EndsInTime [0, 16, 0, 9, 0, 0, 0, 0, 0, 0, 0, 1, 0, 0, 0, 0] :=
  not_endsInTime (by decide) (by decide)
    (not_serversFit_zeros ⟨by decide, by decide⟩)

/-! Every list that fits a frame. -/

theorem serverFields_received {start : Nat} {servers : List (Bytes × UInt16)}
    (h : (serverFields uncut start servers).length < 65536) :
    servers.map (fun server => (cut16 server.1, server.2)) = servers := by
  induction servers generalizing start with
  | nil => rfl
  | cons server rest ih =>
      simp only [serverFields, List.length_append, length_bigEndian] at h
      have haddr := length_lt_of_stringField
        (by omega : (stringField uncut (start + 2) server.1).length < 65536)
      have hrest := ih (Nat.lt_of_le_of_lt (Nat.le_add_left _ _) h)
      rw [List.map_cons, hrest, cut16_of_lt haddr]

theorem unpackServers_onWire [Target] {servers : List (Bytes × UInt16)}
    (hfits : (fssMessageServerList servers).trueLength ≤ 65535)
    (id : UInt64) :
    unpackServers ((fssMessageServerList servers).setId id).onWire
      headerLength = .ok servers := by
  have hlength : ((fssMessageServerList servers).setId id).unpaddedLength =
      (fssMessageServerList servers).trueLength :=
    FssMessage.unpaddedLength_of_fits hfits
  have hframe := ((fssMessageServerList servers).setId id).frame_holds []
  rw [List.append_nil] at hframe
  have hsize := FssMessage.length_frame
    ((fssMessageServerList servers).setId id)
  have hservers := unpackServers_holds servers hframe (by decide) (by omega)
  rw [FssMessage.onWire_eq _ (by omega), hservers, serverFields_received]
  exact Nat.lt_succ_of_le (Nat.le_trans (Nat.le_add_left _ _) hfits)

/-- A list of any entries that fits a frame comes back as it was, from inside
the frame and after one iteration for each entry. -/
theorem serverList_codec [Target] {servers : List (Bytes × UInt16)}
    (hfits : (fssMessageServerList servers).trueLength ≤ 65535)
    (id : UInt64) :
    let m := (fssMessageServerList servers).setId id
    decode m.onWire = .ok (some m) ∧
      unpackServers m.onWire headerLength = .ok servers ∧
      ∀ mem, Shows mem m.onWire →
        StopsAfter (unpackServerList mem m.onWire) servers := by
  intro m
  have hlength : m.unpaddedLength = (fssMessageServerList servers).trueLength :=
    FssMessage.unpaddedLength_of_fits hfits
  have hlt : m.unpaddedLength < 65536 := by omega
  have hframe : m.onWire = m.frame := m.onWire_eq hlt
  have hsize := m.length_frame
  have hheader := m.headerLength_le_unpaddedLength
  have hservers := unpackServers_onWire hfits id
  refine ⟨?_, hservers, fun mem hmem => ?_⟩
  · have hsame : servers.map (fun server => (cut16 server.1, server.2)) =
        servers :=
      serverFields_received
        (Nat.lt_succ_of_le (Nat.le_trans (Nat.le_add_left _ _) hfits))
    rw [hframe,
      FssMessage.decode_frame (.setId id (.serverList servers)) hlt]
    simp only [m, FssMessage.received, FssMessage.setId, fssMessageServerList,
      FssMessageBody.received, FssMessageBody.decodedType,
      FssMessageBody.sentType, hsame]
  · have hinside : headerLength ≤ m.onWire.length := by
      rw [hframe]
      omega
    obtain ⟨found, hfound, _, hstops⟩ := serverLoop_of_fits hmem
      (by rw [hframe]; omega) (serversFit_of_inside hinside ⟨_, hservers⟩)
      hinside
    cases hservers.symm.trans hfound
    exact hstops

/-- A list of two entries, the first without an address. -/
theorem serverList_codec_two :
    let m := (fssMessageServerList [([], 0), ([49, 0], 20202)]).setId 7
    let bl := @FssMessage.onWire Target.indefinite m
    decode bl = .ok (some m) ∧
      unpackServers bl headerLength = .ok [([], 0), ([49, 0], 20202)] ∧
      ∀ mem, Shows mem bl →
        StopsAfter (unpackServerList mem bl) [([], 0), ([49, 0], 20202)] :=
  @serverList_codec Target.indefinite _ (by decide) 7

end FlightSafety
