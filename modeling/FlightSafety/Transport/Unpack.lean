/-
Decoding a received buffer.  Every access goes through a read that fails
outside the buffer, so a decoder that succeeds has touched only bytes of its
input.  Offsets stay close to the buffer's end and do not wrap; the length
that remains is a difference of two `size_t` values and does.
-/
import FlightSafety.Transport.Pack

namespace FlightSafety

open Octets ExactDouble

/-- `length - offset` in `size_t` arithmetic. -/
def BufLen.remaining (bl : BufLen) (offset : Nat) : Nat :=
  (bl.getLength + 2 ^ 64 - offset) % 2 ^ 64

/-- `if (length - offset >= width) { field = ...; offset += width; }`: a
field keeps its current value when too few bytes remain. -/
def BufLen.fetch {α : Type} (bl : BufLen) (offset width : Nat) (current : α)
    (ofNet : Nat → α) : Except OutOfBounds (α × Nat) :=
  if width ≤ bl.remaining offset then do
    let raw ← readNat bl offset width
    pure (ofNet raw, offset + width)
  else pure (current, offset)

/-- A string with the `len` that `offset` points behind, and the offset
behind its alignment. -/
def BufLen.assign (bl : BufLen) (offset len : Nat) :
    Except OutOfBounds (Bytes × Nat) := do
  let val ← read bl offset len
  let offset := offset + len
  pure (val, offset + alignSkip offset)

def BufLen.fetchString (bl : BufLen) (offset : Nat) (current : Bytes) :
    Except OutOfBounds (Bytes × Nat) :=
  if 2 ≤ bl.remaining offset then do
    let len ← readNat bl offset 2
    bl.assign (offset + 2) len
  else pure (current, offset)

/-- A wire coordinate widened to double before the multiplication. -/
def unpackCoordinate (raw : Nat) : Double :=
  .finite ((UInt32.ofNat raw).toInt32.toInt * fltToInt)

/-- A wire coordinate multiplied by a float directly: `flt_to_int`, with its
24 significant bits in units of their last place.  The coordinate is rounded
to a float first and the product once more. -/
def unpackCoordinateFloat (raw : Nat) : Double :=
  .finite (floatProduct (UInt32.ofNat raw).toInt32.toInt fltDigits / 2 ^ 43)

/-- A voltage passes through an unsigned variable. -/
def unpackVoltage (raw : Nat) : Double :=
  .finite ((UInt32.ofNat raw).toNat * fltToInt)

/-- The copy of the rest of the buffer ends at its first NUL byte. -/
def unpackName (bl : BufLen) : Except OutOfBounds Bytes := do
  let name ← read bl headerLength (bl.remaining headerLength)
  pure (name.takeWhile (· ≠ 0))

def unpackRequestId (bl : BufLen) : Except OutOfBounds UInt64 := do
  let (requestId, _) ← bl.fetch headerLength 8 0 UInt64.ofNat
  pure requestId

def PositionReport.unpackData (bl : BufLen) :
    Except OutOfBounds PositionReport := do
  let start : PositionReport := {}
  let (timestamp, o) ← bl.fetch headerLength 8 0 UInt64.ofNat
  let (latitude, o) ← bl.fetch o 4 start.latitude unpackCoordinate
  let (longitude, o) ← bl.fetch o 4 start.longitude unpackCoordinate
  let (altitude, o) ← bl.fetch o 4 0 UInt32.ofNat
  let (icaoAddress, o) ← bl.fetch o 4 start.icaoAddress UInt32.ofNat
  let (heading, o) ← bl.fetch o 2 start.heading UInt16.ofNat
  let (horizontalVelocity, o) ←
    bl.fetch o 2 start.horizontalVelocity UInt16.ofNat
  let (verticalVelocity, o) ←
    bl.fetch o 2 start.verticalVelocity (fun raw => (UInt16.ofNat raw).toInt16)
  let (squawk, o) ← bl.fetch o 2 start.squawk UInt16.ofNat
  let (callsign, o) ← bl.fetchString o start.callsign
  let (flags, o) ← bl.fetch o 2 start.flags UInt16.ofNat
  let (altitudeType, o) ← bl.fetch o 1 start.altitudeType UInt8.ofNat
  let (emitterType, _) ← bl.fetch o 1 start.emitterType UInt8.ofNat
  pure
    { start with
      timestamp, latitude, longitude, altitude, icaoAddress, heading,
      horizontalVelocity, verticalVelocity, squawk, callsign, flags,
      altitudeType, emitterType }

/-- Percentage and charge share one length test. -/
def SystemStatus.unpackData (bl : BufLen) :
    Except OutOfBounds SystemStatus := do
  let start : SystemStatus := {}
  let (batPercent, mahUsed, o) ←
    if 5 ≤ bl.remaining headerLength then do
      let batPercent ← readNat bl headerLength 1
      let mahUsed ← readNat bl (headerLength + 1) 4
      pure (UInt8.ofNat batPercent, UInt32.ofNat mahUsed, headerLength + 5)
    else pure (0, 0, headerLength)
  let (voltage, _) ← bl.fetch o 4 start.voltage unpackVoltage
  pure { batPercent, mahUsed, voltage }

def SearchStatus.unpackData (bl : BufLen) :
    Except OutOfBounds SearchStatus :=
  if 24 ≤ bl.remaining headerLength then do
    let searchId ← readNat bl headerLength 8
    let pointCompleted ← readNat bl (headerLength + 8) 8
    let pointsTotal ← readNat bl (headerLength + 16) 8
    pure ⟨UInt64.ofNat searchId, UInt64.ofNat pointCompleted,
      UInt64.ofNat pointsTotal⟩
  else pure {}

/-- The coordinates are assigned whether or not they were read; `unpack` is
the multiplication they are assigned by. -/
def AssetCommand.unpackDataBy (unpack : Nat → Double) (bl : BufLen) :
    Except OutOfBounds AssetCommand :=
  if 21 ≤ bl.remaining headerLength then do
    let timestamp ← readNat bl headerLength 8
    let lat ← readNat bl (headerLength + 8) 4
    let lng ← readNat bl (headerLength + 12) 4
    let altitude ← readNat bl (headerLength + 16) 4
    let command ← readNat bl (headerLength + 20) 1
    pure
      { command := FssAssetCommand.ofCode (UInt8.ofNat command)
        latitude := unpack lat
        longitude := unpack lng
        altitude := UInt32.ofNat altitude
        timestamp := UInt64.ofNat timestamp }
  else
    pure
      { latitude := unpack 0
        longitude := unpack 0 }

def AssetCommand.unpackData (bl : BufLen) : Except OutOfBounds AssetCommand :=
  AssetCommand.unpackDataBy unpackCoordinateFloat bl

def SmmSettings.unpackData (bl : BufLen) :
    Except OutOfBounds SmmSettings := do
  let (serverUrl, o) ← bl.fetchString headerLength []
  let (username, o) ← bl.fetchString o []
  let (password, _) ← bl.fetchString o []
  pure { serverUrl, username, password }

/-- One entry of a server list and the offset of the next. -/
def fetchServer (bl : BufLen) (offset : Nat) :
    Except OutOfBounds ((Bytes × UInt16) × Nat) := do
  let port ← readNat bl offset 2
  let len ← readNat bl (offset + 2) 2
  let (serverAddr, next) ← bl.assign (offset + 4) len
  pure ((serverAddr, UInt16.ofNat port), next)

theorem BufLen.assign_eq_ok {bl : BufLen} {offset len next : Nat}
    {val : Bytes} (h : bl.assign offset len = .ok (val, next)) :
    offset + len ≤ bl.length ∧ val = (bl.drop offset).take len ∧
      next = offset + len + alignSkip (offset + len) := by
  by_cases hfits : offset + len ≤ bl.length
  · simp only [assign, read_of_le hfits, bind, Except.bind, pure, Except.pure,
      Except.ok.injEq, Prod.mk.injEq] at h
    exact ⟨hfits, h.1.symm, h.2.symm⟩
  · simp only [assign, read_of_lt (Nat.not_le.mp hfits), bind,
      Except.bind] at h
    cases h

theorem fetchServer_eq_ok {bl : BufLen} {offset next : Nat}
    {server : Bytes × UInt16} (h : fetchServer bl offset = .ok (server, next)) :
    offset + 4 ≤ bl.length ∧ offset < next := by
  cases hport : readNat bl offset 2 with
  | error e => simp [fetchServer, hport, bind, Except.bind] at h
  | ok port =>
      cases hlen : readNat bl (offset + 2) 2 with
      | error e => simp [fetchServer, hport, hlen, bind, Except.bind] at h
      | ok len =>
          cases hval : bl.assign (offset + 4) len with
          | error e =>
              simp [fetchServer, hport, hlen, hval, bind, Except.bind] at h
          | ok result =>
              obtain ⟨val, after⟩ := result
              simp [fetchServer, hport, hlen, hval, bind, Except.bind, pure,
                Except.pure] at h
              have hbound := le_of_readNat_eq_ok hlen
              obtain ⟨_, _, hafter⟩ := BufLen.assign_eq_ok hval
              omega

/-- The loop over the entries of a server list, from `offset` on. -/
def unpackServers (bl : BufLen) (offset : Nat) :
    Except OutOfBounds (List (Bytes × UInt16)) :=
  if 4 ≤ bl.remaining offset then
    match _hentry : fetchServer bl offset with
    | .error e => .error e
    | .ok (server, next) =>
        (unpackServers bl next).map (server :: ·)
  else .ok []
termination_by bl.length - offset
decreasing_by
  have hbound := fetchServer_eq_ok _hentry
  omega

def unpackCapabilities (bl : BufLen) : Except OutOfBounds UInt64 := do
  let (capabilities, _) ← bl.fetch headerLength 8 0 UInt64.ofNat
  pure capabilities

/-- The decoding constructors.  The one of `fss_message_identity_required`
sets the tag of an identity message. -/
def decodeIdentity (id : UInt64) (bl : BufLen) :
    Except OutOfBounds FssMessage := do
  let name ← unpackName bl
  pure ⟨id, .identity, .identity name⟩

def decodeRttRequest (id : UInt64) (_ : BufLen) :
    Except OutOfBounds FssMessage :=
  pure ⟨id, .rttRequest, .rttRequest⟩

def decodeRttResponse (id : UInt64) (bl : BufLen) :
    Except OutOfBounds FssMessage := do
  let requestId ← unpackRequestId bl
  pure ⟨id, .rttResponse, .rttResponse requestId⟩

def decodePositionReport (id : UInt64) (bl : BufLen) :
    Except OutOfBounds FssMessage := do
  let report ← PositionReport.unpackData bl
  pure ⟨id, .positionReport, .positionReport report⟩

def decodeSystemStatus (id : UInt64) (bl : BufLen) :
    Except OutOfBounds FssMessage := do
  let status ← SystemStatus.unpackData bl
  pure ⟨id, .systemStatus, .systemStatus status⟩

def decodeSearchStatus (id : UInt64) (bl : BufLen) :
    Except OutOfBounds FssMessage := do
  let status ← SearchStatus.unpackData bl
  pure ⟨id, .searchStatus, .searchStatus status⟩

def decodeAssetCommand (id : UInt64) (bl : BufLen) :
    Except OutOfBounds FssMessage := do
  let command ← AssetCommand.unpackData bl
  pure ⟨id, .command, .assetCommand command⟩

def decodeServerList (id : UInt64) (bl : BufLen) :
    Except OutOfBounds FssMessage := do
  let servers ← unpackServers bl headerLength
  pure ⟨id, .serverList, .serverList servers⟩

def decodeSmmSettings (id : UInt64) (bl : BufLen) :
    Except OutOfBounds FssMessage := do
  let settings ← SmmSettings.unpackData bl
  pure ⟨id, .smmSettings, .smmSettings settings⟩

def decodeIdentityNonAircraft (id : UInt64) (bl : BufLen) :
    Except OutOfBounds FssMessage := do
  let capabilities ← unpackCapabilities bl
  pure ⟨id, .identityNonAircraft, .identityNonAircraft capabilities⟩

def decodeIdentityRequired (id : UInt64) (_ : BufLen) :
    Except OutOfBounds FssMessage :=
  pure ⟨id, .identity, .identityRequired⟩

/-- The switch of `fss_message::decode`. -/
def decodeAs (type : Option FssMessageType) (id : UInt64) (bl : BufLen) :
    Except OutOfBounds (Option FssMessage) :=
  match type with
  | none | some .unknown | some .closed => .ok none
  | some .identity => (decodeIdentity id bl).map some
  | some .rttRequest => (decodeRttRequest id bl).map some
  | some .rttResponse => (decodeRttResponse id bl).map some
  | some .positionReport => (decodePositionReport id bl).map some
  | some .systemStatus => (decodeSystemStatus id bl).map some
  | some .searchStatus => (decodeSearchStatus id bl).map some
  | some .command => (decodeAssetCommand id bl).map some
  | some .serverList => (decodeServerList id bl).map some
  | some .smmSettings => (decodeSmmSettings id bl).map some
  | some .identityNonAircraft => (decodeIdentityNonAircraft id bl).map some
  | some .identityRequired => (decodeIdentityRequired id bl).map some

/-- `fss_message::decode`: type and id are read whatever the length is, and
`none` is the null pointer. -/
def decode (bl : BufLen) : Except OutOfBounds (Option FssMessage) := do
  let type ← readNat bl 2 2
  let id ← readNat bl 4 8
  decodeAs (FssMessageType.ofCode? type) (UInt64.ofNat id) bl

end FlightSafety
