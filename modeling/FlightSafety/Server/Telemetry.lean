/-
Telemetry on its way from an aircraft into the database.  Every value is
packed, decoded, read through a getter and passed on to a wrapper and from
there to a C function; the wrapper of positions has 16 bits for an altitude of
32.
-/
import FlightSafety.Server.Relay
import FlightSafety.Transport.WrappedReport

namespace FlightSafety.Server

open Octets ExactDouble

/-- The C functions that write a row. -/
inductive DbCall where
  | rttCreateEntry (assetId delta : UInt64)
  | statusCreateEntry (assetId : UInt64) (batPercent : UInt16)
      (batMahUsed : UInt32) (batVoltage : Double)
  | searchStatusCreateEntry (assetId searchId searchCompleted
      searchTotal : UInt64)
  | positionCreateEntry (assetId : UInt64) (latitude longitude : Double)
      (altitude : Int32)
deriving Repr, DecidableEq

/-- `db_connection`, which finds the id of an asset by its name; 0 is the id
of none. -/
structure DbConnection where
  dbGetAssetId : Bytes → UInt64

namespace DbConnection

/-- The name passes as a C string, which ends at its first NUL byte. -/
def assetId (dbc : DbConnection) (assetName : Bytes) : UInt64 :=
  dbc.dbGetAssetId (assetName.takeWhile (· ≠ 0))

/-- Nothing is written without an asset. -/
def create (dbc : DbConnection) (assetName : Bytes) (entry : UInt64 → DbCall) :
    List DbCall :=
  if dbc.assetId assetName ≠ 0 then [entry (dbc.assetId assetName)] else []

def assetAddRtt (dbc : DbConnection) (assetName : Bytes) (delta : UInt64) :
    List DbCall :=
  dbc.create assetName fun assetId => .rttCreateEntry assetId delta

def assetAddStatus (dbc : DbConnection) (assetName : Bytes)
    (batPercent : UInt8) (batMahUsed : UInt32) (batVoltage : Double) :
    List DbCall :=
  dbc.create assetName fun assetId =>
    .statusCreateEntry assetId batPercent.toUInt16 batMahUsed batVoltage

def assetAddSearchStatus (dbc : DbConnection) (assetName : Bytes)
    (searchId searchCompleted searchTotal : UInt64) : List DbCall :=
  dbc.create assetName fun assetId =>
    .searchStatusCreateEntry assetId searchId searchCompleted searchTotal

/-- The altitude becomes an `int` of the same value. -/
def assetAddPosition (dbc : DbConnection) (assetName : Bytes)
    (latitude longitude : Double) (altitude : UInt16) : List DbCall :=
  dbc.create assetName fun assetId =>
    .positionCreateEntry assetId latitude longitude altitude.toUInt32.toInt32

/-- The writes of an effect. -/
def calls (dbc : DbConnection) : Effect → List DbCall
  | .assetAddRtt name rtt => dbc.assetAddRtt name rtt
  | .assetAddStatus name batPercent batMahUsed batVoltage =>
      dbc.assetAddStatus name batPercent batMahUsed batVoltage
  | .assetAddSearchStatus name searchId completed total =>
      dbc.assetAddSearchStatus name searchId completed total
  | .assetAddPosition name latitude longitude altitude =>
      dbc.assetAddPosition name latitude longitude altitude
  | .send _ | .sendLookup _ _ | .clientDisconnected | .relay _ => []

def callsOf (dbc : DbConnection) (outs : List Output) : List DbCall :=
  outs.flatMap fun o => dbc.calls o.effect

/-- What is written when the client of a connection processes a message, one
that was just received or one out of the queue. -/
def handle (dbc : DbConnection) (s : ServerState) (id : Nat)
    (conn : Connection) (env : Env) (msg : Option FssMessage) : List DbCall :=
  dbc.callsOf (s.work id conn fun c => c.processMessage env msg).2

theorem create_of_asset {dbc : DbConnection} {assetName : Bytes}
    (h : dbc.assetId assetName ≠ 0) (entry : UInt64 → DbCall) :
    dbc.create assetName entry = [entry (dbc.assetId assetName)] :=
  if_pos h

/-! Sending writes nothing, so what is written is what the client caused. -/

theorem callsOf_sendMsg (dbc : DbConnection) (msg : FssMessage) (except : Nat)
    (ids : List Nat) (s : ServerState) :
    dbc.callsOf (ServerState.sendMsg msg except ids s).2 = [] := by
  induction ids generalizing s with
  | nil => rfl
  | cons id rest ih =>
      unfold ServerState.sendMsg
      split
      · have hsend : dbc.callsOf (s.sendTo id msg).2 = [] := by
          unfold ServerState.sendTo
          split <;> rfl
        unfold callsOf at ih hsend ⊢
        rw [List.flatMap_append, hsend, ih, List.append_nil]
      · exact ih s

theorem callsOf_performAll (dbc : DbConnection) (id : Nat)
    (clientNames : List Bytes) (effects : List Effect) (s : ServerState) :
    dbc.callsOf (ServerState.performAll id clientNames effects s).2 =
      effects.flatMap dbc.calls := by
  induction effects generalizing s with
  | nil => rfl
  | cons e rest ih =>
      have hfirst : dbc.callsOf (s.perform id clientNames e).2 =
          dbc.calls e := by
        cases e with
        | relay msg => exact dbc.callsOf_sendMsg msg id _ s
        | _ => exact List.append_nil _
      rw [ServerState.performAll, List.flatMap_cons, ← hfirst, ← ih]
      exact List.flatMap_append

theorem handle_eq (dbc : DbConnection) (s : ServerState) (id : Nat)
    (conn : Connection) (env : Env) (msg : Option FssMessage) :
    dbc.handle s id conn env msg =
      (conn.client.processMessage env msg).2.flatMap dbc.calls :=
  dbc.callsOf_performAll id conn.client.clientNames _ _

end DbConnection

/-- What arrives of a report reaches the C function: one row, for the asset of
the client, with the altitude and the coordinates of the report. -/
def PositionStored [Target] (dbc : DbConnection) (s : ServerState) (id : Nat)
    (conn : Connection) (env : Env) (reportId : UInt64) (r : PositionReport)
    (lat lng : ℚ) : Prop :=
  ∃ msg latitude longitude altitude,
    decode ((fssMessagePositionReport r).setId reportId).onWire = .ok msg ∧
    dbc.handle s id conn env msg =
      [.positionCreateEntry (dbc.assetId conn.client.name) latitude longitude
        altitude] ∧
    Near lat latitude ∧ Near lng longitude ∧
    altitude.toInt = r.altitude.toNat

def SearchStatusStored [Target] (dbc : DbConnection) (s : ServerState)
    (id : Nat) (conn : Connection) (env : Env) (statusId : UInt64)
    (status : SearchStatus) : Prop :=
  ∃ msg,
    decode ((fssMessageSearchStatus status).setId statusId).onWire = .ok msg ∧
    dbc.handle s id conn env msg =
      [.searchStatusCreateEntry (dbc.assetId conn.client.name) status.searchId
        status.pointCompleted status.pointsTotal]

/-- The fields that are stored arrive.  They do with a report that fits a
frame, and with a longer one if the remainder of its length ends behind them
and in front of the callsign; where it ends in front of the altitude, zero is
decoded. -/
def Arrives [Target] (r : PositionReport) : Prop :=
  let length := (fssMessagePositionReport r).unpaddedLength
  length < 65536 ∨ 28 ≤ length % 65536 ∧ length % 65536 < 46 ∧
    (32 ≤ length % 65536 ∨ r.altitude = 0)

instance [Target] (r : PositionReport) : Decidable (Arrives r) :=
  inferInstanceAs (Decidable (_ ∨ _))

section Written

variable {dbc : DbConnection} {s : ServerState} {id : Nat}
  {conn : Connection} {env : Env} {messageId : UInt64}

/-- The wrapper keeps 16 bits of an altitude. -/
theorem toInt_storedAltitude (altitude : UInt32) :
    altitude.toUInt16.toUInt32.toInt32.toInt = altitude.toNat % 65536 := by
  have hcut : altitude.toUInt16.toUInt32.toNat = altitude.toNat % 65536 := by
    simp
  have hsmall : altitude.toUInt16.toUInt32.toNat < 2 ^ 31 := by omega
  have hint : altitude.toUInt16.toUInt32.toInt32 =
      Int32.ofNat altitude.toUInt16.toUInt32.toNat := by
    rw [← UInt32.toInt32_ofNat', UInt32.ofNat_toNat]
  rw [hint, Int32.toInt_ofNat_of_lt hsmall, hcut]
  rfl

/-- What is written of a report that was decoded. -/
theorem handle_report (hidentified : conn.client.identified = true)
    (haircraft : conn.client.aircraft = true)
    (hexists : dbc.assetId conn.client.name ≠ 0) (r : PositionReport) :
    dbc.handle s id conn env
        (some ⟨messageId, .positionReport, .positionReport r⟩) =
      [.positionCreateEntry (dbc.assetId conn.client.name) r.latitude
        r.longitude r.altitude.toUInt16.toUInt32.toInt32] := by
  rw [dbc.handle_eq, processMessage_report hidentified rfl, if_pos haircraft]
  simp only [List.flatMap_append, List.flatMap_cons, List.flatMap_nil,
    List.append_nil, DbConnection.calls, DbConnection.assetAddPosition,
    DbConnection.create_of_asset hexists]
  rfl

/-- What is written of a search status, whoever is identified. -/
theorem handle_searchStatus (hidentified : conn.client.identified = true)
    (hexists : dbc.assetId conn.client.name ≠ 0) (status : SearchStatus) :
    dbc.handle s id conn env
        (some ⟨messageId, .searchStatus, .searchStatus status⟩) =
      [.searchStatusCreateEntry (dbc.assetId conn.client.name) status.searchId
        status.pointCompleted status.pointsTotal] := by
  have hopen : FssMessageType.searchStatus ≠ .closed := by decide
  rw [dbc.handle_eq, FssClient.processMessage, if_neg hopen,
    if_pos hidentified]
  simp only [FssClient.processIdentified, List.flatMap_cons, List.flatMap_nil,
    List.append_nil, DbConnection.calls, DbConnection.assetAddSearchStatus,
    DbConnection.create_of_asset hexists]

end Written

theorem not_near_nan (v : ℚ) : ¬ Near v .nan := by
  rintro ⟨w, hw, _⟩
  cases hw

theorem near_ite_iff {v : ℚ} {coordinate : Double} (h : Near v coordinate)
    (bound reach : Nat) :
    Near v (if bound ≤ reach then coordinate else .nan) ↔ bound ≤ reach := by
  split
  · next hreach => exact iff_of_true h hreach
  · next hreach => exact iff_of_false (not_near_nan v) hreach

/-- The altitude is stored if 16 bits hold it. -/
theorem storedAltitude_iff (altitude : UInt32) :
    altitude.toNat % 65536 = altitude.toNat ↔ altitude.toNat ≤ 65535 := by
  omega

theorem near_received [Target] {v : ℚ} {coordinate : Double}
    (hv : coordinate = .finite v) (hfits : Sendable v) :
    Near v (unpackCoordinate (packCoordinate coordinate)) := by
  rw [hv]
  exact (near_iff v).mpr hfits

section Stored

variable [Target] {dbc : DbConnection} {s : ServerState} {id : Nat}
  {conn : Connection} {env : Env} {r : PositionReport} {lat lng : ℚ}
  {reportId : UInt64} (hidentified : conn.client.identified = true)
  (haircraft : conn.client.aircraft = true)
  (hexists : dbc.assetId conn.client.name ≠ 0)

include hidentified haircraft hexists

theorem positionStored_iff_of_decode {r' : PositionReport}
    (hdecode :
      decode ((fssMessagePositionReport r).setId reportId).onWire =
        .ok (some ⟨reportId, .positionReport, .positionReport r'⟩)) :
    PositionStored dbc s id conn env reportId r lat lng ↔
      Near lat r'.latitude ∧ Near lng r'.longitude ∧
        r'.altitude.toNat % 65536 = r.altitude.toNat := by
  have hhandle := @handle_report dbc s id conn env reportId hidentified
    haircraft hexists r'
  constructor
  · rintro ⟨msg, latitude, longitude, altitude, hmsg, hcalls, hlat, hlng, halt⟩
    rw [hdecode] at hmsg
    cases hmsg
    rw [hhandle] at hcalls
    cases hcalls
    rw [toInt_storedAltitude] at halt
    exact ⟨hlat, hlng, by exact_mod_cast halt⟩
  · rintro ⟨hlat, hlng, halt⟩
    refine ⟨_, _, _, _, hdecode, hhandle, hlat, hlng, ?_⟩
    rw [toInt_storedAltitude]
    exact_mod_cast halt

variable (hlat : r.latitude = .finite lat) (hlng : r.longitude = .finite lng)
  (hlatFits : Sendable lat) (hlngFits : Sendable lng)

include hlat hlng hlatFits hlngFits

/-- A report that fits a frame. -/
theorem positionStored_iff_of_fits
    (hfits : (fssMessagePositionReport r).unpaddedLength < 65536) :
    PositionStored dbc s id conn env reportId r lat lng ↔
      r.altitude.toNat ≤ 65535 := by
  rw [positionStored_iff_of_decode hidentified haircraft hexists
    (decode_report_of_lt hfits reportId)]
  constructor
  · rintro ⟨_, _, halt⟩
    exact (storedAltitude_iff r.altitude).mp halt
  · intro halt
    exact ⟨near_received hlat hlatFits, near_received hlng hlngFits,
      (storedAltitude_iff r.altitude).mpr halt⟩

/-- A report of which so many bytes arrive, none of the callsign among
them. -/
theorem positionStored_iff_upTo {reach : Nat}
    (hdecode :
      decode ((fssMessagePositionReport r).setId reportId).onWire = .ok (some
        ⟨reportId, .positionReport, .positionReport (r.upTo reach)⟩)) :
    PositionStored dbc s id conn env reportId r lat lng ↔
      r.altitude.toNat ≤ 65535 ∧ 28 ≤ reach ∧
        (32 ≤ reach ∨ r.altitude = 0) := by
  have hlatitude := near_ite_iff (near_received hlat hlatFits) 24 reach
  have hlongitude := near_ite_iff (near_received hlng hlngFits) 28 reach
  rw [positionStored_iff_of_decode hidentified haircraft hexists hdecode]
  simp only [PositionReport.upTo]
  rw [hlatitude, hlongitude]
  by_cases haltitude : 32 ≤ reach
  · rw [if_pos haltitude, storedAltitude_iff]
    constructor
    · rintro ⟨_, hreach, halt⟩
      exact ⟨halt, hreach, .inl haltitude⟩
    · rintro ⟨halt, hreach, _⟩
      exact ⟨by omega, hreach, halt⟩
  · rw [if_neg haltitude]
    constructor
    · rintro ⟨_, hreach, halt⟩
      have hzero : r.altitude = 0 := UInt32.toNat_inj.mp halt.symm
      exact ⟨by rw [hzero]; decide, hreach, .inr hzero⟩
    · rintro ⟨_, hreach, halt | hzero⟩
      · exact absurd halt haltitude
      · exact ⟨by omega, hreach, by rw [hzero]; rfl⟩

/-- A report whose length wraps. -/
theorem positionStored_iff_of_long
    (hlong : 65536 ≤ (fssMessagePositionReport r).unpaddedLength) :
    PositionStored dbc s id conn env reportId r lat lng ↔
      r.altitude.toNat ≤ 65535 ∧ Arrives r := by
  obtain ⟨k, hk, hbound, _⟩ := wrapped_cases hlong
  have harrives : Arrives r ↔
      28 ≤ (fssMessagePositionReport r).unpaddedLength % 65536 ∧
        (fssMessagePositionReport r).unpaddedLength % 65536 < 46 ∧
        (32 ≤ (fssMessagePositionReport r).unpaddedLength % 65536 ∨
          r.altitude = 0) :=
    or_iff_right (Nat.not_lt.mpr hlong)
  rw [harrives]
  by_cases hreach : ∃ j ≤ 4,
      (fssMessagePositionReport r).unpaddedLength % 65536 =
        headerLength + 8 * j
  · obtain ⟨j, hj, hreach⟩ := hreach
    have hshort : headerLength + 8 * j < 46 := by
      unfold headerLength
      omega
    rw [positionStored_iff_upTo hidentified haircraft hexists hlat hlng hlatFits
      hlngFits (decode_upTo hj hreach), hreach]
    simp only [hshort, true_and]
  · have hoverrun := @not_inside_wrapped _ r reportId hlong
      fun j hj heq => hreach ⟨j, hj, heq⟩
    constructor
    · rintro ⟨msg, _, _, _, hmsg, _⟩
      exact absurd ⟨msg, hmsg⟩ hoverrun
    · rintro ⟨_, hcoordinates, hcallsign, _⟩
      have hwhole : (fssMessagePositionReport r).unpaddedLength % 65536 =
          headerLength + 8 * (k - 1) := by
        unfold headerLength
        omega
      exact absurd ⟨k - 1, by omega, hwhole⟩ hreach

theorem positionStored_iff :
    PositionStored dbc s id conn env reportId r lat lng ↔
      r.altitude.toNat ≤ 65535 ∧ Arrives r := by
  by_cases hfits : (fssMessagePositionReport r).unpaddedLength < 65536
  · have harrives : Arrives r := .inl hfits
    rw [positionStored_iff_of_fits hidentified haircraft hexists hlat hlng
      hlatFits hlngFits hfits]
    exact (and_iff_left harrives).symm
  · exact positionStored_iff_of_long hidentified haircraft hexists hlat hlng
      hlatFits hlngFits (Nat.not_lt.mp hfits)

end Stored

theorem searchStatusStored [Target] {dbc : DbConnection} {s : ServerState}
    {id : Nat} {conn : Connection} {env : Env}
    (hidentified : conn.client.identified = true)
    (hexists : dbc.assetId conn.client.name ≠ 0) (status : SearchStatus)
    (statusId : UInt64) :
    SearchStatusStored dbc s id conn env statusId status := by
  have hfits :
      ((fssMessageSearchStatus status).setId statusId).unpaddedLength <
        65536 := by
    rw [FssMessage.unpaddedLength_setId, FssMessage.unpaddedLength_eq]
    simp [fssMessageSearchStatus, FssMessageBody.payload, headerLength]
  refine ⟨some ⟨statusId, .searchStatus, .searchStatus status⟩, ?_,
    handle_searchStatus hidentified hexists status⟩
  rw [FssMessage.onWire_eq _ hfits,
    FssMessage.decode_frame (.setId statusId (.searchStatus status)) hfits]
  rfl

/-- Whatever an identified aircraft with an asset puts into a search status is
written, and into a position report, with coordinates that fit their fields,
exactly if its altitude has 16 bits and its fields arrive. -/
theorem telemetry_stored_iff [Target] {dbc : DbConnection} {s : ServerState}
    {id : Nat} {conn : Connection} {env : Env}
    (hidentified : conn.client.identified = true)
    (haircraft : conn.client.aircraft = true)
    (hexists : dbc.assetId conn.client.name ≠ 0) :
    (∀ reportId r lat lng, r.latitude = .finite lat →
      r.longitude = .finite lng → Sendable lat → Sendable lng →
        (PositionStored dbc s id conn env reportId r lat lng ↔
          r.altitude.toNat ≤ 65535 ∧ Arrives r)) ∧
    ∀ statusId status,
      SearchStatusStored dbc s id conn env statusId status :=
  ⟨fun _ _ _ _ hlat hlng hlatFits hlngFits =>
      positionStored_iff hidentified haircraft hexists hlat hlng hlatFits
        hlngFits,
    fun statusId status =>
      searchStatusStored hidentified hexists status statusId⟩

/-- An asset for every name. -/
def oneAsset : DbConnection where
  dbGetAssetId _ := 1

/-- The connection of an aircraft that has identified itself. -/
def aircraftConnection : Connection where
  stage := .running
  messages := []
  client := { clientNames := [[65]], identified := true, aircraft := true,
              name := [65] }

/-- A report from the crossing of the equator and the prime meridian. -/
def reportAt (altitude : UInt32) : PositionReport :=
  { latitude := .finite 0, longitude := .finite 0, altitude := altitude }

theorem sendable_zero : Sendable 0 :=
  sendable_of_abs_lt (by norm_num [fltToInt, fltDigits])

theorem telemetry_stored_iff_origin :
    (@PositionStored Target.indefinite oneAsset .start 0 aircraftConnection
        ⟨emptyDb, 0⟩ 9 (reportAt 70000) 0 0 ↔
      (reportAt 70000).altitude.toNat ≤ 65535 ∧
        @Arrives Target.indefinite (reportAt 70000)) ∧
    @SearchStatusStored Target.indefinite oneAsset .start 0 aircraftConnection
      ⟨emptyDb, 0⟩ 9 ⟨1, 2, 3⟩ :=
  ⟨(@telemetry_stored_iff Target.indefinite oneAsset .start 0
      aircraftConnection ⟨emptyDb, 0⟩ rfl rfl (by decide)).1 9
      (reportAt 70000) 0 0 rfl rfl sendable_zero sendable_zero,
    (@telemetry_stored_iff Target.indefinite oneAsset .start 0
      aircraftConnection ⟨emptyDb, 0⟩ rfl rfl (by decide)).2 9 ⟨1, 2, 3⟩⟩

/-- An altitude of 70000 is written as 4464. -/
theorem not_positionStored_70000 :
    ¬ @PositionStored Target.indefinite oneAsset .start 0 aircraftConnection
        ⟨emptyDb, 0⟩ 9 (reportAt 70000) 0 0 := by
  intro hstored
  have halt := ((@positionStored_iff Target.indefinite oneAsset .start 0
    aircraftConnection ⟨emptyDb, 0⟩ (reportAt 70000) 0 0 9 rfl rfl (by decide)
    rfl rfl sendable_zero sendable_zero).mp hstored).1
  exact absurd halt (by decide)

end FlightSafety.Server
