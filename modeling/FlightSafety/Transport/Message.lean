/-
The messages of the wire protocol.  Every class shares an id and a type tag;
the tag is set by the constructor that built the message and is stored apart
from the class, so the two can disagree.
-/
import FlightSafety.Lib.ExactDouble
import FlightSafety.Lib.Octets

namespace FlightSafety

open Octets ExactDouble

/-- `fss_message_type`, in the order of the enumeration. -/
inductive FssMessageType where
  | unknown
  | closed
  | identity
  | rttRequest
  | rttResponse
  | positionReport
  | systemStatus
  | searchStatus
  | command
  | serverList
  | smmSettings
  | identityNonAircraft
  | identityRequired
deriving Repr, DecidableEq

def FssMessageType.toCode : FssMessageType → Nat
  | .unknown => 0
  | .closed => 1
  | .identity => 2
  | .rttRequest => 3
  | .rttResponse => 4
  | .positionReport => 5
  | .systemStatus => 6
  | .searchStatus => 7
  | .command => 8
  | .serverList => 9
  | .smmSettings => 10
  | .identityNonAircraft => 11
  | .identityRequired => 12

/-- The enumerator of a type field; every other value matches no case of the
decoder's switch. -/
def FssMessageType.ofCode? : Nat → Option FssMessageType
  | 0 => some .unknown
  | 1 => some .closed
  | 2 => some .identity
  | 3 => some .rttRequest
  | 4 => some .rttResponse
  | 5 => some .positionReport
  | 6 => some .systemStatus
  | 7 => some .searchStatus
  | 8 => some .command
  | 9 => some .serverList
  | 10 => some .smmSettings
  | 11 => some .identityNonAircraft
  | 12 => some .identityRequired
  | _ => none

@[simp] theorem FssMessageType.ofCode?_toCode (type : FssMessageType) :
    FssMessageType.ofCode? type.toCode = some type := by
  cases type <;> rfl

theorem FssMessageType.toCode_lt (type : FssMessageType) :
    type.toCode < 13 := by
  cases type <;> decide

/-- `fss_asset_command`.  A decoder casts any byte to this type, so the bytes
beyond the last enumerator are values of it too. -/
inductive FssAssetCommand where
  | unknown
  | rtl
  | hold
  | goto
  | resume
  | terminate
  | disarm
  | altitude
  | manual
  | unlisted (code : UInt8) (beyond : 8 < code)
deriving Repr, DecidableEq

def FssAssetCommand.toCode : FssAssetCommand → UInt8
  | .unknown => 0
  | .rtl => 1
  | .hold => 2
  | .goto => 3
  | .resume => 4
  | .terminate => 5
  | .disarm => 6
  | .altitude => 7
  | .manual => 8
  | .unlisted code _ => code

def FssAssetCommand.ofCode (code : UInt8) : FssAssetCommand :=
  if h : 8 < code then .unlisted code h
  else match code with
    | 1 => .rtl
    | 2 => .hold
    | 3 => .goto
    | 4 => .resume
    | 5 => .terminate
    | 6 => .disarm
    | 7 => .altitude
    | 8 => .manual
    | _ => .unknown

@[simp] theorem FssAssetCommand.ofCode_toCode (command : FssAssetCommand) :
    FssAssetCommand.ofCode command.toCode = command := by
  cases command with
  | unlisted code beyond => simp [ofCode, toCode, beyond]
  | _ => rfl

/-- The fields of `fss_message_position_report`, with the values a decoded
report starts from. -/
structure PositionReport where
  latitude : Double := .nan
  longitude : Double := .nan
  altitude : UInt32 := 0
  heading : UInt16 := 0
  horizontalVelocity : UInt16 := 0
  verticalVelocity : Int16 := 0
  callsign : Bytes := []
  icaoAddress : UInt32 := 0
  squawk : UInt16 := 0
  timestamp : UInt64 := 0
  tslc : UInt8 := 0
  flags : UInt16 := 0
  altitudeType : UInt8 := 0
  emitterType : UInt8 := 0
deriving Repr, DecidableEq

/-- The fields of `fss_message_system_status`. -/
structure SystemStatus where
  batPercent : UInt8 := 0
  mahUsed : UInt32 := 0
  voltage : Double := .finite 0
deriving Repr, DecidableEq

/-- The fields of `fss_message_search_status`. -/
structure SearchStatus where
  searchId : UInt64 := 0
  pointCompleted : UInt64 := 0
  pointsTotal : UInt64 := 0
deriving Repr, DecidableEq

/-- The fields of `fss_message_asset_command`, with the values the decoding
constructor starts from. -/
structure AssetCommand where
  command : FssAssetCommand := .unknown
  latitude : Double := .nan
  longitude : Double := .nan
  altitude : UInt32 := 0
  timestamp : UInt64 := 0
deriving Repr, DecidableEq

/-- The fields of `fss_message_smm_settings`. -/
structure SmmSettings where
  serverUrl : Bytes := []
  username : Bytes := []
  password : Bytes := []
deriving Repr, DecidableEq

/-- The class of a message with the fields it adds to `fss_message`. -/
inductive FssMessageBody where
  | closed
  | identity (name : Bytes)
  | rttRequest
  | rttResponse (requestId : UInt64)
  | positionReport (report : PositionReport)
  | systemStatus (status : SystemStatus)
  | searchStatus (status : SearchStatus)
  | assetCommand (command : AssetCommand)
  | smmSettings (settings : SmmSettings)
  | serverList (servers : List (Bytes × UInt16))
  | identityNonAircraft (capabilities : UInt64)
  | identityRequired
deriving Repr, DecidableEq

/-- The class without its fields. -/
inductive FssMessageClass where
  | closed
  | identity
  | rttRequest
  | rttResponse
  | positionReport
  | systemStatus
  | searchStatus
  | assetCommand
  | smmSettings
  | serverList
  | identityNonAircraft
  | identityRequired
deriving Repr, DecidableEq

def FssMessageBody.class : FssMessageBody → FssMessageClass
  | .closed => .closed
  | .identity _ => .identity
  | .rttRequest => .rttRequest
  | .rttResponse _ => .rttResponse
  | .positionReport _ => .positionReport
  | .systemStatus _ => .systemStatus
  | .searchStatus _ => .searchStatus
  | .assetCommand _ => .assetCommand
  | .smmSettings _ => .smmSettings
  | .serverList _ => .serverList
  | .identityNonAircraft _ => .identityNonAircraft
  | .identityRequired => .identityRequired

structure FssMessage where
  id : UInt64
  type : FssMessageType
  body : FssMessageBody
deriving Repr, DecidableEq

namespace FssMessage

def setId (m : FssMessage) (id : UInt64) : FssMessage :=
  { m with id := id }

def getLatitude (m : FssMessage) : Double :=
  match m.body with
  | .positionReport report => report.latitude
  | .assetCommand command => command.latitude
  | _ => .nan

def getLongitude (m : FssMessage) : Double :=
  match m.body with
  | .positionReport report => report.longitude
  | .assetCommand command => command.longitude
  | _ => .nan

def getAltitude (m : FssMessage) : UInt32 :=
  match m.body with
  | .positionReport report => report.altitude
  | .assetCommand command => command.altitude
  | _ => 0

end FssMessage

/-! The constructors a sender uses.  Each leaves the id at 0 until
`fss_connection::sendMsg` assigns one. -/

def fssMessageClosed : FssMessage :=
  ⟨0, .closed, .closed⟩

def fssMessageIdentity (name : Bytes) : FssMessage :=
  ⟨0, .identity, .identity name⟩

def fssMessageRttRequest : FssMessage :=
  ⟨0, .rttRequest, .rttRequest⟩

def fssMessageRttResponse (requestId : UInt64) : FssMessage :=
  ⟨0, .rttResponse, .rttResponse requestId⟩

def fssMessagePositionReport (report : PositionReport) : FssMessage :=
  ⟨0, .positionReport, .positionReport report⟩

def fssMessageSystemStatus (status : SystemStatus) : FssMessage :=
  ⟨0, .systemStatus, .systemStatus status⟩

def fssMessageSearchStatus (status : SearchStatus) : FssMessage :=
  ⟨0, .searchStatus, .searchStatus status⟩

def fssMessageAssetCommand (command : FssAssetCommand) (timestamp : UInt64) :
    FssMessage :=
  ⟨0, .command, .assetCommand { command := command, timestamp := timestamp }⟩

def fssMessageAssetCommandPosition (command : FssAssetCommand)
    (timestamp : UInt64) (latitude longitude : Double) : FssMessage :=
  ⟨0, .command, .assetCommand
    { command := command
      latitude := latitude
      longitude := longitude
      timestamp := timestamp }⟩

def fssMessageAssetCommandAltitude (command : FssAssetCommand)
    (timestamp : UInt64) (altitude : UInt32) : FssMessage :=
  ⟨0, .command, .assetCommand
    { command := command, altitude := altitude, timestamp := timestamp }⟩

def fssMessageSmmSettings (serverUrl username password : Bytes) : FssMessage :=
  ⟨0, .smmSettings, .smmSettings ⟨serverUrl, username, password⟩⟩

/-- An empty server list followed by one `addServer` for each entry. -/
def fssMessageServerList (servers : List (Bytes × UInt16)) : FssMessage :=
  ⟨0, .serverList, .serverList servers⟩

def fssMessageIdentityNonAircraft (capabilities : UInt64) : FssMessage :=
  ⟨0, .identityNonAircraft, .identityNonAircraft capabilities⟩

def fssMessageIdentityRequired : FssMessage :=
  ⟨0, .identityRequired, .identityRequired⟩

/-- The tag the sending constructor of a class sets. -/
def FssMessageBody.sentType : FssMessageBody → FssMessageType
  | .closed => .closed
  | .identity _ => .identity
  | .rttRequest => .rttRequest
  | .rttResponse _ => .rttResponse
  | .positionReport _ => .positionReport
  | .systemStatus _ => .systemStatus
  | .searchStatus _ => .searchStatus
  | .assetCommand _ => .command
  | .smmSettings _ => .smmSettings
  | .serverList _ => .serverList
  | .identityNonAircraft _ => .identityNonAircraft
  | .identityRequired => .identityRequired

end FlightSafety
