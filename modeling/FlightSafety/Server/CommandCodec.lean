/-
The codec of asset commands.  Every command is sent with a position, whether
it has one or not, and every command is decoded with one.
-/
import FlightSafety.Server.CommandRow
import FlightSafety.Transport.StatusCodec

namespace FlightSafety.Server

open Octets ExactDouble

/-- What the constructors of a command that is to be sent are given besides
its code and time. -/
inductive CommandArgument where
  | none
  | position (latitude longitude : ℚ)
  | altitude (height : UInt32)
deriving Repr, DecidableEq

namespace CommandArgument

/-- The three constructors. -/
def message (command : FssAssetCommand) (timestamp : UInt64) :
    CommandArgument → FssMessage
  | .none => fssMessageAssetCommand command timestamp
  | .position latitude longitude =>
      fssMessageAssetCommandPosition command timestamp (.finite latitude)
        (.finite longitude)
  | .altitude height => fssMessageAssetCommandAltitude command timestamp height

/-- The fields that a constructor sets. -/
def fields (command : FssAssetCommand) (timestamp : UInt64) :
    CommandArgument → FlightSafety.AssetCommand
  | .none => { command, timestamp }
  | .position latitude longitude =>
      { command, timestamp
        latitude := .finite latitude
        longitude := .finite longitude }
  | .altitude height => { command, timestamp, altitude := height }

/-- The coordinates of a position are multiples of the quantum that fit. -/
def Sendable : CommandArgument → Prop
  | .position latitude longitude =>
      FlightSafety.Sendable latitude ∧ FlightSafety.Sendable longitude
  | _ => True

/-- A position that was set comes back to within a quantum, and none comes
back as none. -/
def PositionKept : CommandArgument → FlightSafety.AssetCommand → Prop
  | .position latitude longitude, c =>
      WithinQuantum latitude c.latitude ∧ WithinQuantum longitude c.longitude
  | _, c => c.latitude = .nan ∧ c.longitude = .nan

/-- The conversions of `packData` are of numbers that `int32_t` has. -/
def ConversionsDefined (c : FlightSafety.AssetCommand) : Prop :=
  (c.latitude.div fltToInt).toInt32?.isSome ∧
    (c.longitude.div fltToInt).toInt32?.isSome

/-- There is a position, and its coordinates survive the multiplication. -/
def SurvivesFloat : CommandArgument → Prop
  | .position latitude longitude =>
      Server.SurvivesFloat latitude ∧ Server.SurvivesFloat longitude
  | _ => False

theorem message_eq (command : FssAssetCommand) (timestamp : UInt64)
    (argument : CommandArgument) :
    argument.message command timestamp =
      ⟨0, .command, .assetCommand (argument.fields command timestamp)⟩ := by
  cases argument with
  | none => rfl
  | position latitude longitude => rfl
  | altitude height => rfl

theorem constructed_message (command : FssAssetCommand) (timestamp : UInt64)
    (argument : CommandArgument) :
    Constructed (argument.message command timestamp) := by
  cases argument with
  | none => exact .assetCommand _ _
  | position latitude longitude => exact .assetCommandPosition _ _ _ _
  | altitude height => exact .assetCommandAltitude _ _ _

end CommandArgument

/-- A command comes back as it was, and its packing is defined. -/
def CommandKept [Target] (command : FssAssetCommand) (timestamp : UInt64)
    (argument : CommandArgument) (id : UInt64) : Prop :=
  let sent := argument.fields command timestamp
  (∃ c, DecodesTo ((argument.message command timestamp).setId id)
      ⟨id, .command, .assetCommand c⟩ ∧
    c.command = command ∧ c.timestamp = timestamp ∧ c.altitude = sent.altitude ∧
    argument.PositionKept c) ∧
  CommandArgument.ConversionsDefined sent

section Codec

variable [Target] {command : FssAssetCommand} {timestamp : UInt64}

theorem decodesTo_command (command : FssAssetCommand) (timestamp : UInt64)
    (argument : CommandArgument) (id : UInt64) :
    DecodesTo ((argument.message command timestamp).setId id)
      ⟨id, .command, .assetCommand (argument.fields command timestamp).received⟩ := by
  have hbody : ((argument.message command timestamp).setId id).body =
      .assetCommand (argument.fields command timestamp) := by
    rw [CommandArgument.message_eq]
    rfl
  apply decodesTo_received (.setId id (argument.constructed_message command timestamp))
  · exact unpaddedLength_command_lt hbody
  · rw [hbody]
    exact FssMessageBody.noConfusion
  · rw [CommandArgument.message_eq]
    rfl

omit [Target] in
theorem conversion_defined {v : ℚ} (hv : Sendable v) :
    ((Double.finite v).div fltToInt).toInt32?.isSome := by
  have hdefined : (Double.finite (v / fltToInt)).toInt32? =
      some (Int32.ofInt (truncate (v / fltToInt))) := if_pos hv
  rw [Double.div, hdefined]
  rfl

omit [Target] in
/-- There is no number to convert where no position was set. -/
theorem not_conversionsDefined {c : FlightSafety.AssetCommand}
    (h : c.latitude = .nan) : ¬ CommandArgument.ConversionsDefined c := by
  rintro ⟨hlatitude, -⟩
  rw [h] at hlatitude
  cases hlatitude

/-- Whatever was sent, a position is decoded. -/
theorem latitude_received_ne_nan (c : FlightSafety.AssetCommand) :
    c.received.latitude ≠ .nan :=
  Double.noConfusion

theorem positionKept_received_iff {argument : CommandArgument}
    (hsendable : argument.Sendable) :
    argument.PositionKept (argument.fields command timestamp).received ↔
      argument.SurvivesFloat := by
  cases argument with
  | none => exact iff_of_false (fun h => latitude_received_ne_nan _ h.1) not_false
  | position latitude longitude =>
      exact and_congr (withinQuantum_iff hsendable.1)
        (withinQuantum_iff hsendable.2)
  | altitude height =>
      exact iff_of_false (fun h => latitude_received_ne_nan _ h.1) not_false

omit [Target] in
theorem conversionsDefined_of_survives {argument : CommandArgument}
    (hsendable : argument.Sendable) (h : argument.SurvivesFloat) :
    CommandArgument.ConversionsDefined (argument.fields command timestamp) := by
  cases argument with
  | none => exact h.elim
  | position latitude longitude =>
      exact ⟨conversion_defined hsendable.1, conversion_defined hsendable.2⟩
  | altitude height => exact h.elim

end Codec

/-- A command is kept by its codec, which converts only what can be converted,
if and only if it was built with a position whose coordinates survive the
multiplication by a float. -/
theorem commandKept_iff [Target] (command : FssAssetCommand)
    (timestamp : UInt64) {argument : CommandArgument} (id : UInt64)
    (hsendable : argument.Sendable) :
    CommandKept command timestamp argument id ↔ argument.SurvivesFloat := by
  have hdecodes := decodesTo_command command timestamp argument id
  have hkept :=
    @positionKept_received_iff _ command timestamp argument hsendable
  constructor
  · rintro ⟨⟨c, hc, -, -, -, hposition⟩, -⟩
    rw [decodesTo_iff hdecodes] at hc
    cases hc
    exact hkept.mp hposition
  · intro hsurvives
    refine ⟨⟨_, hdecodes, ?_, ?_, rfl, hkept.mpr hsurvives⟩,
      conversionsDefined_of_survives hsendable hsurvives⟩
    · cases argument <;> rfl
    · cases argument <;> rfl

theorem commandKept_iff_goto :
    (CommandArgument.position 0 fltToInt).Sendable ∧
      (@CommandKept Target.indefinite .goto 5 (.position 0 fltToInt) 7 ↔
        (CommandArgument.position 0 fltToInt).SurvivesFloat) :=
  have h : (CommandArgument.position 0 fltToInt).Sendable :=
    ⟨by decide +kernel, by decide +kernel⟩
  ⟨h, @commandKept_iff Target.indefinite .goto 5 _ 7 h⟩

/-- What the machine makes of a coordinate that is no number. -/
theorem unpackCoordinateFloat_nan :
    unpackCoordinateFloat (@packCoordinate Target.indefinite .nan) =
      .finite (-2 ^ 31 * fltToInt) := by
  decide +kernel

/-- An order to return to launch is packed by converting no number, and is
decoded with a position far in the south-west. -/
theorem not_commandKept_rtl :
    (¬ CommandArgument.ConversionsDefined
      (CommandArgument.none.fields .rtl 5)) ∧
    @DecodesTo Target.indefinite
      ((CommandArgument.none.message .rtl 5).setId 7)
      ⟨7, .command, .assetCommand
        { command := .rtl, timestamp := 5
          latitude := .finite (-2 ^ 31 * fltToInt)
          longitude := .finite (-2 ^ 31 * fltToInt) }⟩ ∧
    ¬ @CommandKept Target.indefinite .rtl 5 .none 7 := by
  refine ⟨not_conversionsDefined rfl, ?_, fun h => ?_⟩
  · rw [← unpackCoordinateFloat_nan]
    exact @decodesTo_command Target.indefinite .rtl 5 .none 7
  · exact not_conversionsDefined rfl h.2

end FlightSafety.Server
