/-
Packing a message into the buffer that is sent.  The functions follow the
source call by call; `payload` then says in one place what `packData` appends,
and `getPacked_eq` what the finished buffer is made of.
-/
import FlightSafety.Transport.Message

namespace FlightSafety

open Octets ExactDouble

/-- `buf_len` keeps its bytes in a string and only ever appends to it. -/
abbrev BufLen := Bytes

def BufLen.getLength (bl : BufLen) : Nat := bl.length

def BufLen.isValid (bl : BufLen) : Bool := bl.getLength != 0

/-- The length parameter has 16 bits, whatever the block's own length is. -/
def BufLen.addData (bl : BufLen) (newData : Bytes) (len : UInt16) : BufLen :=
  bl ++ newData.take len.toNat

/-- Append a machine integer of `width` bytes in network order. -/
def BufLen.addInt (bl : BufLen) (width value : Nat) : BufLen :=
  bl.addData (bigEndian width value) (UInt16.ofNat width)

def zeros (count : Nat) : Bytes := List.replicate count 0

/-- The bytes a string's padding adds after `length` bytes: 1 to 8. -/
def alignSkip (length : Nat) : Nat := 8 - length % 8

def packString (bl : BufLen) (val : Bytes) : BufLen :=
  let strLen := val.length
  let bl := bl.addInt 2 strLen
  let bl := bl.addData val (UInt16.ofNat strLen)
  bl.addData (zeros 8) (UInt16.ofNat (alignSkip bl.getLength))

/-- The significand of `flt_to_int`, whose last place is worth `2 ^ -43`. -/
def fltDigits : ℕ := 8796093

/-- `flt_to_int`, the float nearest to one millionth: the quantum of every
coordinate on the wire. -/
def fltToInt : ℚ := fltDigits / 2 ^ 43

/-- A coordinate as the 32 bits that are sent for it. -/
def packCoordinate [Target] (v : Double) : Nat :=
  (v.div fltToInt).toInt32.toUInt32.toNat

def PositionReport.packData [Target] (r : PositionReport) (bl : BufLen) :
    BufLen :=
  let bl := bl.addInt 8 r.timestamp.toNat
  let bl := bl.addInt 4 (packCoordinate r.latitude)
  let bl := bl.addInt 4 (packCoordinate r.longitude)
  let bl := bl.addInt 4 r.altitude.toNat
  let bl := bl.addInt 4 r.icaoAddress.toNat
  let bl := bl.addInt 2 r.heading.toNat
  let bl := bl.addInt 2 r.horizontalVelocity.toNat
  let bl := bl.addInt 2 r.verticalVelocity.toUInt16.toNat
  let bl := bl.addInt 2 r.squawk.toNat
  let bl := packString bl r.callsign
  let bl := bl.addInt 2 r.flags.toNat
  let bl := bl.addInt 1 r.altitudeType.toNat
  bl.addInt 1 r.emitterType.toNat

def SystemStatus.packData [Target] (s : SystemStatus) (bl : BufLen) : BufLen :=
  let bl := bl.addInt 1 s.batPercent.toNat
  let bl := bl.addInt 4 s.mahUsed.toNat
  bl.addInt 4 (packCoordinate s.voltage)

def SearchStatus.packData (s : SearchStatus) (bl : BufLen) : BufLen :=
  let bl := bl.addInt 8 s.searchId.toNat
  let bl := bl.addInt 8 s.pointCompleted.toNat
  bl.addInt 8 s.pointsTotal.toNat

def AssetCommand.packData [Target] (c : AssetCommand) (bl : BufLen) : BufLen :=
  let bl := bl.addInt 8 c.timestamp.toNat
  let bl := bl.addInt 4 (packCoordinate c.latitude)
  let bl := bl.addInt 4 (packCoordinate c.longitude)
  let bl := bl.addInt 4 c.altitude.toNat
  bl.addInt 1 c.command.toCode.toNat

def SmmSettings.packData (s : SmmSettings) (bl : BufLen) : BufLen :=
  let bl := packString bl s.serverUrl
  let bl := packString bl s.username
  packString bl s.password

def packServer (bl : BufLen) (server : Bytes × UInt16) : BufLen :=
  packString (bl.addInt 2 server.2.toNat) server.1

def FssMessageBody.packData [Target] (bl : BufLen) : FssMessageBody → BufLen
  | .closed => bl
  | .identity name => bl.addData name (UInt16.ofNat name.length)
  | .rttRequest => bl
  | .rttResponse requestId => bl.addInt 8 requestId.toNat
  | .positionReport report => report.packData bl
  | .systemStatus status => status.packData bl
  | .searchStatus status => status.packData bl
  | .assetCommand command => command.packData bl
  | .smmSettings settings => settings.packData bl
  | .serverList servers => servers.foldl packServer bl
  | .identityNonAircraft capabilities => bl.addInt 8 capabilities.toNat
  | .identityRequired => bl

/-- Length, type and id. -/
def headerLength : Nat := 12

/-- The two length bytes hold the character `0` until `updateSize`. -/
def FssMessage.createHeader (m : FssMessage) (bl : BufLen) : BufLen :=
  bl.addData ([48, 48] ++ bigEndian 2 m.type.toCode ++ bigEndian 8 m.id.toNat)
    (UInt16.ofNat headerLength)

/-- The local copy of the length has 16 bits; the buffer's own has not. -/
def updateSize (bl : BufLen) : BufLen :=
  let length := UInt16.ofNat bl.getLength
  if length > 2 then
    let bl :=
      if length.toNat % 8 ≠ 0 then
        bl.addData (zeros 8) (UInt16.ofNat (8 - length.toNat % 8))
      else bl
    bigEndian 2 length.toNat ++ bl.drop 2
  else bl

def FssMessage.getPacked [Target] (m : FssMessage) : BufLen :=
  updateSize (m.body.packData (m.createHeader []))

/-! What `packData` appends. -/

/-- What is left of a block whose length passed through 16 bits. -/
def cut16 (block : Bytes) : Bytes := block.take (block.length % 65536)

/-- A block of which nothing is lost. -/
@[reducible] def uncut (block : Bytes) : Bytes := block

/-- A string on the wire, starting at offset `start`; `keep` is what becomes
of its bytes. -/
def stringField (keep : Bytes → Bytes) (start : Nat) (val : Bytes) : Bytes :=
  bigEndian 2 val.length ++ keep val ++
    zeros (alignSkip (start + 2 + (keep val).length))

/-- The entries of a server list, each behind the end of the one before. -/
def serverFields (keep : Bytes → Bytes) :
    Nat → List (Bytes × UInt16) → Bytes
  | _, [] => []
  | start, server :: rest =>
      let entry := bigEndian 2 server.2.toNat ++
        stringField keep (start + 2) server.1
      entry ++ serverFields keep (start + entry.length) rest

def PositionReport.payload [Target] (keep : Bytes → Bytes) (start : Nat)
    (r : PositionReport) : Bytes :=
  bigEndian 8 r.timestamp.toNat ++
  (bigEndian 4 (packCoordinate r.latitude) ++
  (bigEndian 4 (packCoordinate r.longitude) ++
  (bigEndian 4 r.altitude.toNat ++
  (bigEndian 4 r.icaoAddress.toNat ++
  (bigEndian 2 r.heading.toNat ++
  (bigEndian 2 r.horizontalVelocity.toNat ++
  (bigEndian 2 r.verticalVelocity.toUInt16.toNat ++
  (bigEndian 2 r.squawk.toNat ++
  (stringField keep (start + 32) r.callsign ++
  (bigEndian 2 r.flags.toNat ++
  (bigEndian 1 r.altitudeType.toNat ++
  bigEndian 1 r.emitterType.toNat)))))))))))

def SmmSettings.payload (keep : Bytes → Bytes) (start : Nat)
    (s : SmmSettings) : Bytes :=
  let url := stringField keep start s.serverUrl
  let user := stringField keep (start + url.length) s.username
  url ++ (user ++
    stringField keep (start + url.length + user.length) s.password)

/-- The fields of a message behind its header.  With `cut16` for `keep` these
are the bytes the code appends, with `uncut` those it is asked to append. -/
def FssMessageBody.payload [Target] (keep : Bytes → Bytes) (start : Nat) :
    FssMessageBody → Bytes
  | .closed => []
  | .identity name => keep name
  | .rttRequest => []
  | .rttResponse requestId => bigEndian 8 requestId.toNat
  | .positionReport report => report.payload keep start
  | .systemStatus s =>
      bigEndian 1 s.batPercent.toNat ++ (bigEndian 4 s.mahUsed.toNat ++
      bigEndian 4 (packCoordinate s.voltage))
  | .searchStatus s =>
      bigEndian 8 s.searchId.toNat ++ (bigEndian 8 s.pointCompleted.toNat ++
      bigEndian 8 s.pointsTotal.toNat)
  | .assetCommand c =>
      bigEndian 8 c.timestamp.toNat ++
      (bigEndian 4 (packCoordinate c.latitude) ++
      (bigEndian 4 (packCoordinate c.longitude) ++
      (bigEndian 4 c.altitude.toNat ++ bigEndian 1 c.command.toCode.toNat)))
  | .smmSettings settings => settings.payload keep start
  | .serverList servers => serverFields keep start servers
  | .identityNonAircraft capabilities => bigEndian 8 capabilities.toNat
  | .identityRequired => []

theorem BufLen.addData_cut16 (bl : BufLen) (val : Bytes) :
    bl.addData val (UInt16.ofNat val.length) = bl ++ cut16 val := by
  simp [BufLen.addData, cut16]

theorem BufLen.addInt_eq (bl : BufLen) {width : Nat} (value : Nat)
    (h : width < 65536) :
    bl.addInt width value = bl ++ bigEndian width value := by
  have hwidth : (UInt16.ofNat width).toNat = width := by
    simp [Nat.mod_eq_of_lt h]
  rw [addInt, addData, hwidth, List.take_of_length_le (by simp)]

/-- Padding shorter than the eight zero bytes it is taken from. -/
theorem BufLen.addData_zeros (bl : BufLen) {count : Nat} (h : count ≤ 8) :
    bl.addData (zeros 8) (UInt16.ofNat count) = bl ++ zeros count := by
  have hcount : (UInt16.ofNat count).toNat = count := by
    simp only [UInt16.toNat_ofNat']
    omega
  rw [addData, hcount, zeros, List.take_replicate, Nat.min_eq_left h, zeros]

theorem alignSkip_le (length : Nat) : alignSkip length ≤ 8 := by
  unfold alignSkip
  omega

theorem alignSkip_pos (length : Nat) : 0 < alignSkip length := by
  unfold alignSkip
  omega

theorem packString_eq (bl : BufLen) (val : Bytes) :
    packString bl val = bl ++ stringField cut16 bl.length val := by
  simp only [packString, BufLen.addInt_eq _ _ (by decide : 2 < 65536),
    BufLen.addData_cut16, BufLen.addData_zeros _ (alignSkip_le _)]
  simp [stringField, BufLen.getLength, Nat.add_assoc]

theorem packServer_eq (bl : BufLen) (server : Bytes × UInt16) :
    packServer bl server =
      bl ++ (bigEndian 2 server.2.toNat ++
        stringField cut16 (bl.length + 2) server.1) := by
  rw [packServer, packString_eq,
    BufLen.addInt_eq _ _ (by decide : 2 < 65536)]
  simp

theorem foldl_packServer_eq (bl : BufLen) (servers : List (Bytes × UInt16)) :
    servers.foldl packServer bl =
      bl ++ serverFields cut16 bl.length servers := by
  induction servers generalizing bl with
  | nil => simp [serverFields]
  | cons server rest ih =>
      rw [List.foldl_cons, ih, packServer_eq, serverFields]
      simp

/-- `packData` appends the payload, cut where a length passed through 16
bits. -/
theorem FssMessageBody.packData_eq [Target] (bl : BufLen)
    (body : FssMessageBody) :
    body.packData bl = bl ++ body.payload cut16 bl.length := by
  cases body with
  | identity name => exact BufLen.addData_cut16 bl name
  | serverList servers => exact foldl_packServer_eq bl servers
  | positionReport report =>
      simp [packData, payload, PositionReport.packData,
        PositionReport.payload, BufLen.addInt_eq, packString_eq]
  | smmSettings settings =>
      simp [packData, payload, SmmSettings.packData, SmmSettings.payload,
        packString_eq, Nat.add_assoc]
  | systemStatus status =>
      simp [packData, payload, SystemStatus.packData, BufLen.addInt_eq]
  | searchStatus status =>
      simp [packData, payload, SearchStatus.packData, BufLen.addInt_eq]
  | assetCommand command =>
      simp [packData, payload, AssetCommand.packData, BufLen.addInt_eq]
  | closed | rttRequest | identityRequired => simp [packData, payload]
  | rttResponse requestId => exact BufLen.addInt_eq bl _ (by decide)
  | identityNonAircraft capabilities =>
      exact BufLen.addInt_eq bl _ (by decide)

theorem FssMessage.createHeader_eq (m : FssMessage) :
    m.createHeader [] =
      [48, 48] ++ bigEndian 2 m.type.toCode ++ bigEndian 8 m.id.toNat := by
  have hlength : (UInt16.ofNat headerLength).toNat = 12 := by decide
  rw [createHeader, BufLen.addData, hlength]
  exact List.take_of_length_le (by simp)

/-- The bytes of a message before its padding. -/
def FssMessage.unpaddedLength [Target] (m : FssMessage) : Nat :=
  (m.body.packData (m.createHeader [])).getLength

theorem FssMessage.unpaddedLength_eq [Target] (m : FssMessage) :
    m.unpaddedLength =
      headerLength + (m.body.payload cut16 headerLength).length := by
  rw [unpaddedLength, FssMessageBody.packData_eq, createHeader_eq]
  simp [BufLen.getLength, headerLength]
  omega

/-- The id is as long as any other. -/
theorem FssMessage.unpaddedLength_setId [Target] (m : FssMessage)
    (id : UInt64) : (m.setId id).unpaddedLength = m.unpaddedLength := by
  rw [unpaddedLength_eq, unpaddedLength_eq]
  rfl

/-- The bytes that bring a frame to a multiple of eight. -/
def framePadding (length : Nat) : Nat :=
  if length % 8 ≠ 0 then 8 - length % 8 else 0

/-- A message as its frame reaches the other side: the length that was
measured, the tag, the id and the payload. -/
def FssMessage.frame [Target] (m : FssMessage) : Bytes :=
  bigEndian 2 m.unpaddedLength ++ bigEndian 2 m.type.toCode ++
    bigEndian 8 m.id.toNat ++ m.body.payload cut16 headerLength

/-- The part of a frame in front of its payload. -/
def FssMessage.header [Target] (m : FssMessage) : Bytes :=
  bigEndian 2 m.unpaddedLength ++ bigEndian 2 m.type.toCode ++
    bigEndian 8 m.id.toNat

@[simp] theorem FssMessage.length_header [Target] (m : FssMessage) :
    m.header.length = headerLength := by
  simp [header, headerLength]

theorem FssMessage.frame_eq [Target] (m : FssMessage) :
    m.frame = m.header ++ m.body.payload cut16 headerLength :=
  rfl

theorem FssMessage.length_frame [Target] (m : FssMessage) :
    m.frame.length = m.unpaddedLength := by
  rw [unpaddedLength_eq]
  simp [frame, headerLength]
  omega

theorem FssMessage.headerLength_le_unpaddedLength [Target] (m : FssMessage) :
    headerLength ≤ m.unpaddedLength := by
  rw [unpaddedLength_eq]
  exact Nat.le_add_right _ _

/-- A message is sent as its frame and the padding of what the 16 bits of its
measured length hold. -/
theorem FssMessage.getPacked_eq_of_lt [Target] (m : FssMessage)
    (hmore : 2 < m.unpaddedLength % 65536) :
    m.getPacked =
      m.frame ++ zeros (framePadding (m.unpaddedLength % 65536)) := by
  have hlength :
      (UInt16.ofNat (m.body.packData (m.createHeader [])).getLength).toNat =
        m.unpaddedLength % 65536 := by
    rw [UInt16.toNat_ofNat', ← unpaddedLength]
  have hbig :
      UInt16.ofNat (m.body.packData (m.createHeader [])).getLength > 2 := by
    rw [gt_iff_lt, UInt16.lt_iff_toNat_lt, hlength]
    exact hmore
  have hfield := bigEndian_mod 2 m.unpaddedLength
  simp only [Nat.reducePow] at hfield
  simp only [getPacked, updateSize, hbig, ↓reduceIte, hlength, hfield]
  rw [FssMessageBody.packData_eq, createHeader_eq]
  unfold framePadding
  split
  · rw [BufLen.addData_zeros _ (by omega)]
    simp [frame, headerLength]
  · simp [frame, headerLength, zeros]

theorem FssMessage.two_lt_unpaddedLength_mod [Target] {m : FssMessage}
    (hfits : m.unpaddedLength < 65536) : 2 < m.unpaddedLength % 65536 := by
  rw [Nat.mod_eq_of_lt hfits]
  exact Nat.lt_of_lt_of_le (by decide : 2 < headerLength)
    m.headerLength_le_unpaddedLength

/-- A message whose length fits the length field is sent as its frame and the
padding of that length. -/
theorem FssMessage.getPacked_eq [Target] (m : FssMessage)
    (hfits : m.unpaddedLength < 65536) :
    m.getPacked = m.frame ++ zeros (framePadding m.unpaddedLength) := by
  rw [m.getPacked_eq_of_lt (two_lt_unpaddedLength_mod hfits),
    Nat.mod_eq_of_lt hfits]

/-- Cutting the packed buffer to its length field leaves the frame. -/
theorem FssMessage.take_getPacked [Target] (m : FssMessage)
    (hfits : m.unpaddedLength < 65536) :
    m.getPacked.take m.unpaddedLength = m.frame := by
  rw [getPacked_eq m hfits, ← length_frame, List.take_left]

end FlightSafety
