/-
A command on its way from the database to an aircraft: the row, the C
structure it is fetched into, the class made of that, the message that is
sent, and what the aircraft decodes.  Each has its own width for an altitude.
-/
import FlightSafety.Server.Client
import FlightSafety.Transport.Coordinate

namespace FlightSafety.Server

open Octets ExactDouble

/-- A row of the command table, none of whose columns is null.  The altitude
is a C `int`. -/
structure CommandRow where
  id : UInt64
  command : String
  timestamp : UInt64
  latitude : Double
  longitude : Double
  altitude : Int32
deriving Repr, DecidableEq

/-- `struct asset_command_s`. -/
structure AssetCommandS where
  command : String
  timestamp : UInt64
  dbid : UInt64
  latitude : Double
  longitude : Double
  altitude : UInt16
deriving Repr, DecidableEq

/-- `COMMAND_LEN`, which counts the NUL at the end. -/
def commandLen : Nat := 7

/-- The altitude goes from an `int` to an `unsigned short`. -/
def dbAssetCommandGet (row : CommandRow) : AssetCommandS :=
  { command := String.ofList (row.command.toList.take (commandLen - 1))
    timestamp := row.timestamp
    dbid := row.id
    latitude := row.latitude
    longitude := row.longitude
    altitude := row.altitude.toUInt32.toUInt16 }

/-- The comparisons of the constructor of `asset_command`; another string
leaves the command unknown. -/
def AssetCommand.commandOf (cmd : String) : FssAssetCommand :=
  if cmd = "RTL" then .rtl
  else if cmd = "HOLD" then .hold
  else if cmd = "GOTO" then .goto
  else if cmd = "RON" then .resume
  else if cmd = "DISARM" then .disarm
  else if cmd = "ALT" then .altitude
  else if cmd = "TERM" then .terminate
  else if cmd = "MAN" then .manual
  else .unknown

/-- The constructor of `asset_command`, on the fetched structure. -/
def AssetCommand.ofDb (s : AssetCommandS) : AssetCommand :=
  { dbid := s.dbid
    timestamp := s.timestamp
    command := commandOf s.command
    latitude := s.latitude
    longitude := s.longitude
    altitude := s.altitude }

/-- `asset_get_command`, where `latest` is the latest command row of an
asset. -/
def assetGetCommand (latest : Bytes → Option CommandRow) (name : Bytes) :
    Option AssetCommand :=
  (latest name).map fun row => .ofDb (dbAssetCommandGet row)

/-- The commands an operator gives. -/
inductive Order where
  | returnToLaunch
  | hold
  | goto
  | resume
  | disarm
  | altitude
  | terminate
  | manual
deriving Repr, DecidableEq

/-- How the database spells an order. -/
def Order.text : Order → String
  | .returnToLaunch => "RTL"
  | .hold => "HOLD"
  | .goto => "GOTO"
  | .resume => "RON"
  | .disarm => "DISARM"
  | .altitude => "ALT"
  | .terminate => "TERM"
  | .manual => "MAN"

/-- What an aircraft takes an order to be. -/
def Order.code : Order → FssAssetCommand
  | .returnToLaunch => .rtl
  | .hold => .hold
  | .goto => .goto
  | .resume => .resume
  | .disarm => .disarm
  | .altitude => .altitude
  | .terminate => .terminate
  | .manual => .manual

/-- A received coordinate is at most a quantum from the one in the row. -/
def WithinQuantum (v : ℚ) (received : Double) : Prop :=
  ∃ w, received = .finite w ∧ |v - w| ≤ fltToInt

/-- A coordinate keeps its place, to within a quantum, when its whole multiple
of the quantum is multiplied by the quantum as a float. -/
def SurvivesFloat (v : ℚ) : Prop := KeptByProduct fltDigits (v / fltToInt)

instance (v : ℚ) : Decidable (SurvivesFloat v) :=
  inferInstanceAs (Decidable (KeptByProduct _ _))

/-- A multiple that is a float may be lost in the product, and one that is
none may be kept. -/
example : ¬ SurvivesFloat 137.119408 ∧ SurvivesFloat 49.324906 := by
  decide +kernel

/-- A decoded message says what the row says: a goto its position, an altitude
command its altitude. -/
def Conveys (order : Order) (row : CommandRow) (lat lng : ℚ) (m : FssMessage) :
    Prop :=
  m.type = .command ∧ ∃ c, m.body = .assetCommand c ∧
    c.command = order.code ∧ c.timestamp = row.timestamp ∧
    (order = .goto → WithinQuantum lat c.latitude ∧
      WithinQuantum lng c.longitude) ∧
    (order = .altitude → (c.altitude.toNat : ℤ) = row.altitude.toInt)

/-- Every spelling fits the C string and is recognised. -/
theorem commandOf_text (order : Order) :
    AssetCommand.commandOf
      (String.ofList (order.text.toList.take (commandLen - 1))) =
        order.code := by
  cases order <;> decide

/-- The fields of the message for a command. -/
def commandFields (ac : AssetCommand) : FlightSafety.AssetCommand :=
  match ac.command with
  | .goto =>
      { command := ac.command
        latitude := ac.latitude
        longitude := ac.longitude
        timestamp := ac.timestamp }
  | .altitude =>
      { command := ac.command
        altitude := ac.altitude.toUInt32
        timestamp := ac.timestamp }
  | _ => { command := ac.command, timestamp := ac.timestamp }

theorem commandMsg_eq (ac : AssetCommand) :
    FssClient.commandMsg ac =
      ⟨0, .command, .assetCommand (commandFields ac)⟩ := by
  unfold FssClient.commandMsg commandFields
  cases ac.command <;> rfl

theorem constructed_commandMsg (ac : AssetCommand) :
    Constructed (FssClient.commandMsg ac) := by
  unfold FssClient.commandMsg
  cases ac.command with
  | goto => exact .assetCommandPosition _ _ _ _
  | altitude => exact .assetCommandAltitude _ _ _
  | _ => exact .assetCommand _ _

section Wire

variable [Target]

theorem unpaddedLength_command_lt {m : FssMessage}
    {c : FlightSafety.AssetCommand} (hbody : m.body = .assetCommand c) :
    m.unpaddedLength < 65536 := by
  rw [FssMessage.unpaddedLength_eq, hbody]
  simp [FssMessageBody.payload, headerLength]

/-- What the aircraft decodes of a command, under whatever id it is sent. -/
theorem decode_commandMsg (ac : AssetCommand) (id : UInt64) :
    decode ((FssClient.commandMsg ac).setId id).onWire =
      .ok (some ⟨id, .command, .assetCommand (commandFields ac).received⟩) := by
  have hbody : ((FssClient.commandMsg ac).setId id).body =
      .assetCommand (commandFields ac) := by
    rw [commandMsg_eq]
    rfl
  have hfits := unpaddedLength_command_lt hbody
  rw [FssMessage.onWire_eq _ hfits,
    FssMessage.decode_frame (.setId id (constructed_commandMsg ac)) hfits,
    commandMsg_eq]
  rfl

theorem withinQuantum_iff {v : ℚ} (hv : Sendable v) :
    WithinQuantum v (unpackCoordinateFloat (packCoordinate (.finite v))) ↔
      SurvivesFloat v := by
  have hplace : (0 : ℚ) < 1 / 2 ^ 43 := by norm_num
  have hquantum : fltToInt = fltDigits * (1 / 2 ^ 43) := div_eq_mul_one_div _ _
  rw [unpackCoordinateFloat_packCoordinate, div_eq_mul_one_div]
  refine Iff.trans ?_
    (abs_sub_multiplied_le_iff hplace hquantum fltToInt_pos hv)
  constructor
  · rintro ⟨w, hw, hnear⟩
    cases hw
    exact hnear
  · intro hnear
    exact ⟨_, rfl, hnear⟩

end Wire

/-- An altitude that is not negative passes through 16 bits exactly if it has
no more. -/
theorem altitude_eq_iff {altitude : Int32} (h : 0 ≤ altitude) :
    ((altitude.toUInt32.toUInt16.toUInt32.toNat : ℤ) = altitude.toInt) ↔
      altitude.toInt ≤ 65535 := by
  have hnonneg : 0 ≤ altitude.toInt := Int32.le_iff_toInt_le.mp h
  have hvalue := toNat_toUInt32_of_nonneg hnonneg
  rw [UInt16.toNat_toUInt32, UInt32.toNat_toUInt16, ← hvalue]
  omega

/-- A due command is sent for the name of the client, with the fields that the
fetched row gives it. -/
theorem sendCommand_of_row {latest : Bytes → Option CommandRow} {env : Env}
    {c : FssClient} {row : CommandRow}
    (hdb : env.db.assetGetCommand = assetGetCommand latest)
    (hrow : latest c.name = some row)
    (hdue : row.id ≠ c.lastCommandDbid ∨
      env.now > c.lastCommandSendTs + FssClient.timeoutTime) :
    (c.sendCommand env).2 = [.sendLookup c.name
      ((FssClient.commandMsg (.ofDb (dbAssetCommandGet row))).setId
        (c.lastMsgId + 1))] := by
  have hfetched : env.db.assetGetCommand c.name =
      some (.ofDb (dbAssetCommandGet row)) := by
    rw [hdb, assetGetCommand, hrow]
    rfl
  have hdue' : (AssetCommand.ofDb (dbAssetCommandGet row)).dbid ≠
      c.lastCommandDbid ∨
        env.now > c.lastCommandSendTs + FssClient.timeoutTime := hdue
  simp only [FssClient.sendCommand, hfetched, hdue', ↓reduceIte]
  rfl

/-- The fields of the message for a row: the command and the time always, the
position and the altitude where the order has one. -/
theorem commandFields_of_row {order : Order} {row : CommandRow}
    (hcommand : row.command = order.text) :
    let fields := commandFields (.ofDb (dbAssetCommandGet row))
    fields.command = order.code ∧ fields.timestamp = row.timestamp ∧
      (order = .goto → fields.latitude = row.latitude ∧
        fields.longitude = row.longitude) ∧
      (order = .altitude →
        fields.altitude = row.altitude.toUInt32.toUInt16.toUInt32) := by
  have hcode : (AssetCommand.ofDb (dbAssetCommandGet row)).command =
      order.code := by
    rw [AssetCommand.ofDb, dbAssetCommandGet, hcommand]
    exact commandOf_text order
  cases order <;> simp [commandFields, hcode, Order.code] <;>
    simp [AssetCommand.ofDb, dbAssetCommandGet]

/-- What is decoded conveys the row exactly if an altitude fits 16 bits and
the multiplication keeps a position. -/
theorem conveys_iff [Target] {order : Order} {row : CommandRow} {lat lng : ℚ}
    (hcommand : row.command = order.text)
    (hlat : row.latitude = .finite lat) (hlng : row.longitude = .finite lng)
    (haltitude : 0 ≤ row.altitude) (hlatFits : Sendable lat)
    (hlngFits : Sendable lng) (id : UInt64) :
    Conveys order row lat lng ⟨id, .command, .assetCommand
      (commandFields (.ofDb (dbAssetCommandGet row))).received⟩ ↔
      (order = .altitude → row.altitude.toInt ≤ 65535) ∧
      (order = .goto → SurvivesFloat lat ∧ SurvivesFloat lng) := by
  obtain ⟨hcode, htimestamp, hposition, hheight⟩ :=
    commandFields_of_row hcommand
  have hgoto : order = .goto →
      ((WithinQuantum lat
          (commandFields (.ofDb (dbAssetCommandGet row))).received.latitude ∧
        WithinQuantum lng
          (commandFields (.ofDb (dbAssetCommandGet row))).received.longitude) ↔
        SurvivesFloat lat ∧ SurvivesFloat lng) := by
    intro horder
    simp only [FlightSafety.AssetCommand.received, (hposition horder).1,
      (hposition horder).2, hlat, hlng]
    exact and_congr (withinQuantum_iff hlatFits) (withinQuantum_iff hlngFits)
  have hfly : order = .altitude →
      (((commandFields (.ofDb (dbAssetCommandGet row))).received.altitude.toNat
          : ℤ) = row.altitude.toInt ↔ row.altitude.toInt ≤ 65535) := by
    intro horder
    simp only [FlightSafety.AssetCommand.received, hheight horder]
    exact altitude_eq_iff haltitude
  constructor
  · rintro ⟨_, c, hc, _, _, hpos, halt⟩
    cases hc
    exact ⟨fun horder => (hfly horder).mp (halt horder),
      fun horder => (hgoto horder).mp (hpos horder)⟩
  · rintro ⟨halt, hpos⟩
    exact ⟨rfl, _, rfl, hcode, htimestamp,
      fun horder => (hgoto horder).mpr (hpos horder),
      fun horder => (hfly horder).mpr (halt horder)⟩

/-- A due command row reaches the aircraft as it is exactly if an altitude to
fly at fits 16 bits and the coordinates to go to survive the multiplication by
a float. -/
theorem command_conveyed_iff [Target] {latest : Bytes → Option CommandRow}
    {env : Env} {c : FssClient} {order : Order} {row : CommandRow} {lat lng : ℚ}
    (hdb : env.db.assetGetCommand = assetGetCommand latest)
    (hrow : latest c.name = some row)
    (hdue : row.id ≠ c.lastCommandDbid ∨
      env.now > c.lastCommandSendTs + FssClient.timeoutTime)
    (hcommand : row.command = order.text)
    (hlat : row.latitude = .finite lat) (hlng : row.longitude = .finite lng)
    (haltitude : 0 ≤ row.altitude) (hlatFits : Sendable lat)
    (hlngFits : Sendable lng) :
    (∃ msg m, (c.sendCommand env).2 = [.sendLookup c.name msg] ∧
      decode msg.onWire = .ok (some m) ∧ Conveys order row lat lng m) ↔
      (order = .altitude → row.altitude.toInt ≤ 65535) ∧
      (order = .goto → SurvivesFloat lat ∧ SurvivesFloat lng) := by
  rw [sendCommand_of_row hdb hrow hdue]
  refine Iff.trans ?_ (conveys_iff hcommand hlat hlng haltitude hlatFits
    hlngFits (c.lastMsgId + 1))
  constructor
  · rintro ⟨msg, m, hsent, hdecoded, hconveys⟩
    cases hsent
    rw [decode_commandMsg] at hdecoded
    cases hdecoded
    exact hconveys
  · intro hconveys
    exact ⟨_, _, rfl, decode_commandMsg _ _, hconveys⟩

/-- A row that orders an aircraft to 70000 feet. -/
def highRow : CommandRow :=
  { id := 1
    command := "ALT"
    timestamp := 5
    latitude := .finite 0
    longitude := .finite 0
    altitude := 70000 }

/-- A database whose latest row is the same for every asset. -/
def dbOf (row : CommandRow) : Env :=
  { db :=
      { assetGetCommand := assetGetCommand fun _ => some row
        assetGetSmmSettings := fun _ => none
        getActiveFssServers := [] }
    now := 0 }

/-- A goto on the equator, a millionth of a degree east. -/
theorem command_conveyed_goto :
    let row : CommandRow :=
      { id := 1
        command := "GOTO"
        timestamp := 5
        latitude := .finite 0
        longitude := .finite fltToInt
        altitude := 0 }
    (∃ msg m,
      (FssClient.sendCommand (dbOf row) { clientNames := [] }).2 =
        [.sendLookup [] msg] ∧
      decode (@FssMessage.onWire Target.indefinite msg) = .ok (some m) ∧
      Conveys .goto row 0 fltToInt m) ↔
      (Order.goto = .altitude → (0 : Int32).toInt ≤ 65535) ∧
      (Order.goto = .goto → SurvivesFloat 0 ∧ SurvivesFloat fltToInt) :=
  @command_conveyed_iff Target.indefinite (fun _ => some _) _ _ _ _ _ _ rfl rfl
    (Or.inl (by decide)) rfl rfl rfl (by decide) (by decide +kernel)
    (by decide +kernel)

/-- The aircraft is sent to 4464 instead of 70000. -/
theorem not_conveyed_highRow :
    ¬ ∃ msg m,
      (FssClient.sendCommand (dbOf highRow) { clientNames := [] }).2 =
        [.sendLookup [] msg] ∧
      decode (@FssMessage.onWire Target.indefinite msg) = .ok (some m) ∧
      Conveys .altitude highRow 0 0 m := by
  rintro ⟨msg, m, hsent, hdecoded, hconveys⟩
  cases hsent
  rw [@decode_commandMsg Target.indefinite] at hdecoded
  cases hdecoded
  have hkept := (@conveys_iff Target.indefinite .altitude highRow 0 0 rfl rfl
    rfl (by decide) (by decide +kernel) (by decide +kernel) 1).mp hconveys
  exact absurd (hkept.1 rfl) (by decide)

end FlightSafety.Server
