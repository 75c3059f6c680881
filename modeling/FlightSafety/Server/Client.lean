/-
The server's side of one client.  A message is processed in one step, which
changes the client and causes effects; the database and the clock are what the
step finds them to be.  An effect that depends on a lookup says which name was
looked up.
-/
import FlightSafety.Transport.Send

namespace FlightSafety.Server

open Octets ExactDouble

/-- `asset_command`: a row of the command table. -/
structure AssetCommand where
  dbid : UInt64
  timestamp : UInt64
  command : FssAssetCommand
  latitude : Double
  longitude : Double
  altitude : UInt16
deriving Repr, DecidableEq

/-- `smm_settings`: the credentials of an asset. -/
structure SmmSettings where
  address : Bytes
  username : Bytes
  password : Bytes
deriving Repr, DecidableEq

/-- What the database answers. -/
structure Db where
  assetGetCommand : Bytes → Option AssetCommand
  assetGetSmmSettings : Bytes → Option SmmSettings
  getActiveFssServers : List (Bytes × UInt16)

/-- What a step finds around it: the database, and the time as
`fss_current_timestamp` gives it. -/
structure Env where
  db : Db
  now : UInt64

/-- A database without commands, settings and servers. -/
def emptyDb : Db where
  assetGetCommand _ := none
  assetGetSmmSettings _ := none
  getActiveFssServers := []

structure FssClientRtt where
  timestamp : UInt64
  reqid : UInt64
deriving Repr, DecidableEq

/-- `fss_client`, with the names in the certificate of its connection and the
connection's last message id. -/
structure FssClient where
  clientNames : List Bytes
  identified : Bool := false
  aircraft : Bool := false
  name : Bytes := []
  outstandingRttRequests : List FssClientRtt := []
  lastCommandSendTs : UInt64 := 0
  lastCommandDbid : UInt64 := 0
  lastMsgId : UInt64 := 0
deriving Repr, DecidableEq

/-- What processing a message does outside the client. -/
inductive Effect where
  | send (msg : FssMessage)
  | sendLookup (name : Bytes) (msg : FssMessage)
  | clientDisconnected
  | relay (msg : FssMessage)
  | assetAddRtt (name : Bytes) (rtt : UInt64)
  | assetAddStatus (name : Bytes) (batPercent : UInt8) (batMahUsed : UInt32)
      (batVoltage : Double)
  | assetAddSearchStatus (name : Bytes) (searchId completed total : UInt64)
  | assetAddPosition (name : Bytes) (latitude longitude : Double)
      (altitude : UInt16)
deriving Repr, DecidableEq

/-- The asset a telemetry write is made for. -/
def Effect.telemetryName : Effect → Option Bytes
  | .assetAddRtt name _ => some name
  | .assetAddStatus name _ _ _ => some name
  | .assetAddSearchStatus name _ _ _ => some name
  | .assetAddPosition name _ _ _ => some name
  | _ => none

/-- The asset whose command or settings are sent. -/
def Effect.lookupName : Effect → Option Bytes
  | .sendLookup name _ => some name
  | _ => none

/-- The message an effect sends. -/
def Effect.sent? : Effect → Option FssMessage
  | .send msg | .sendLookup _ msg => some msg
  | _ => none

namespace FssClient

/-- Take the next id of the connection for a message that is sent on it. -/
def sendMsg (c : FssClient) (msg : FssMessage) : FssClient × FssMessage :=
  ({ c with lastMsgId := c.lastMsgId + 1 }, msg.setId (c.lastMsgId + 1))

/-- The message for a command: only a goto has a position, and only an
altitude command has an altitude. -/
def commandMsg (ac : AssetCommand) : FssMessage :=
  match ac.command with
  | .goto => fssMessageAssetCommandPosition ac.command ac.timestamp
      ac.latitude ac.longitude
  | .altitude => fssMessageAssetCommandAltitude ac.command ac.timestamp
      ac.altitude.toUInt32
  | _ => fssMessageAssetCommand ac.command ac.timestamp

/-- Ten seconds, after which a command is sent again. -/
def timeoutTime : UInt64 := 10000

def sendCommand (env : Env) (c : FssClient) : FssClient × List Effect :=
  match env.db.assetGetCommand c.name with
  | none => (c, [])
  | some ac =>
      if ac.dbid ≠ c.lastCommandDbid ∨
          env.now > c.lastCommandSendTs + timeoutTime then
        let c := { c with
          lastCommandSendTs := env.now
          lastCommandDbid := ac.dbid }
        let (c, msg) := c.sendMsg (commandMsg ac)
        (c, [.sendLookup c.name msg])
      else (c, [])

def sendSmmSettings (env : Env) (c : FssClient) : FssClient × List Effect :=
  match env.db.assetGetSmmSettings c.name with
  | none => (c, [])
  | some smm =>
      let (c, msg) := c.sendMsg
        (fssMessageSmmSettings smm.address smm.username smm.password)
      (c, [.sendLookup c.name msg])

def getServersListMsg (env : Env) : FssMessage :=
  fssMessageServerList env.db.getActiveFssServers

def sendRttRequest (env : Env) (c : FssClient) : FssClient × List Effect :=
  let (c, msg) := c.sendMsg fssMessageRttRequest
  ({ c with
    outstandingRttRequests := c.outstandingRttRequests ++ [⟨env.now, msg.id⟩] },
    [.send msg])

/-- The last outstanding request with an id, and the requests without it. -/
def takeRequest (reqid : UInt64) :
    List FssClientRtt → Option (FssClientRtt × List FssClientRtt)
  | [] => none
  | req :: rest =>
      match takeRequest reqid rest with
      | some (found, others) => some (found, req :: others)
      | none => if req.reqid = reqid then some (req, rest) else none

/-- The name is stored before it is looked for in the certificate. -/
def processIdentity (env : Env) (c : FssClient) (name : Bytes) :
    FssClient × List Effect :=
  let c := { c with name := name }
  if c.clientNames = [] ∨ name ∈ c.clientNames then
    let c := { c with identified := true, aircraft := true }
    let (c, command) := c.sendCommand env
    let (c, settings) := c.sendSmmSettings env
    let (c, servers) := c.sendMsg (getServersListMsg env)
    (c, command ++ settings ++ [.send servers])
  else (c, [.clientDisconnected])

/-- A message of a client that is not identified yet. -/
def processUnidentified (env : Env) (c : FssClient) (msg : FssMessage) :
    FssClient × List Effect :=
  match msg.type with
  | .identity =>
      match msg.body with
      | .identity name => c.processIdentity env name
      | _ => (c, [])
  | .identityNonAircraft =>
      ({ c with identified := true, aircraft := false }, [])
  | _ =>
      let (c, required) := c.sendMsg fssMessageIdentityRequired
      (c, [.send required])

/-- A message of an identified client.  The identification messages and those
only a server sends are ignored. -/
def processIdentified (env : Env) (c : FssClient) (msg : FssMessage) :
    FssClient × List Effect :=
  match msg.type with
  | .rttRequest =>
      let (c, reply) := c.sendMsg (fssMessageRttResponse msg.id)
      (c, [.send reply])
  | .rttResponse =>
      match msg.body with
      | .rttResponse requestId =>
          match takeRequest requestId c.outstandingRttRequests with
          | some (req, others) =>
              ({ c with outstandingRttRequests := others },
                [.assetAddRtt c.name (env.now - req.timestamp)])
          | none => (c, [])
      | _ => (c, [])
  | .positionReport =>
      let stored :=
        if c.aircraft then
          [.assetAddPosition c.name msg.getLatitude msg.getLongitude
            msg.getAltitude.toUInt16]
        else []
      (c, stored ++ [.relay msg])
  | .systemStatus =>
      match msg.body with
      | .systemStatus status =>
          (c, [.assetAddStatus c.name status.batPercent status.mahUsed
            status.voltage])
      | _ => (c, [])
  | .searchStatus =>
      match msg.body with
      | .searchStatus status =>
          (c, [.assetAddSearchStatus c.name status.searchId
            status.pointCompleted status.pointsTotal])
      | _ => (c, [])
  | _ => (c, [])

def processMessage (env : Env) (c : FssClient) :
    Option FssMessage → FssClient × List Effect
  | none => (c, [])
  | some msg =>
      if msg.type = .closed then (c, [.clientDisconnected])
      else if c.identified then c.processIdentified env msg
      else c.processUnidentified env msg

end FssClient

/-! What a client sends is what its connection transmits. -/

section Connection

variable {σ : Type} [Target] {t : Sender σ} {fuel : Nat}
  {conn : FssConnection σ} {c : FssClient}

/-- A client and its connection give out the same ids. -/
theorem lastMsgId_sendMsg (hid : conn.lastMsgId = c.lastMsgId)
    (msg : FssMessage) :
    (sendMsg t fuel conn msg).rest.lastMsgId =
      (c.sendMsg msg).1.lastMsgId := by
  rw [sendMsg_eq, hid]
  rfl

theorem transmitted_sendMsg (hid : conn.lastMsgId = c.lastMsgId)
    {msg : FssMessage} (hsent : (sendMsg t fuel conn msg).result = some true) :
    (sendMsg t fuel conn msg).transmitted = (c.sendMsg msg).2.getPacked := by
  rw [sendMsg_eq, hid] at hsent ⊢
  exact sendBytes_of_true hsent

end Connection

/-- The name a client may act under: the empty one it starts with, or one of
its certificate. -/
def Permitted (clientNames : List Bytes) (name : Bytes) : Prop :=
  name = [] ∨ name ∈ clientNames

instance (clientNames : List Bytes) (name : Bytes) :
    Decidable (Permitted clientNames name) :=
  inferInstanceAs (Decidable (_ ∨ _))

/-! What the parts of a step change. -/

section Frame

variable {env : Env} {c : FssClient}

/-- Nothing that identifies a client has changed. -/
structure FssClient.SameIdentity (c c' : FssClient) : Prop where
  clientNames : c'.clientNames = c.clientNames
  identified : c'.identified = c.identified
  aircraft : c'.aircraft = c.aircraft
  name : c'.name = c.name

theorem FssClient.SameIdentity.refl (c : FssClient) : c.SameIdentity c :=
  ⟨rfl, rfl, rfl, rfl⟩

theorem FssClient.SameIdentity.trans {c₁ c₂ c₃ : FssClient}
    (h : c₁.SameIdentity c₂) (h' : c₂.SameIdentity c₃) :
    c₁.SameIdentity c₃ :=
  ⟨h'.clientNames.trans h.clientNames, h'.identified.trans h.identified,
    h'.aircraft.trans h.aircraft, h'.name.trans h.name⟩

theorem sameIdentity_sendMsg (c : FssClient) (msg : FssMessage) :
    c.SameIdentity (c.sendMsg msg).1 :=
  ⟨rfl, rfl, rfl, rfl⟩

theorem type_commandMsg (ac : AssetCommand) :
    (FssClient.commandMsg ac).type = .command := by
  unfold FssClient.commandMsg
  split <;> rfl

/-- A command is sent for the client's own name or not at all. -/
theorem sendCommand_spec (env : Env) (c : FssClient) :
    c.SameIdentity (c.sendCommand env).1 ∧
      ∀ e ∈ (c.sendCommand env).2, ∃ msg, e = .sendLookup c.name msg := by
  unfold FssClient.sendCommand
  split
  · exact ⟨.refl c, by simp⟩
  · split
    · refine ⟨⟨rfl, rfl, rfl, rfl⟩, fun e he => ?_⟩
      exact ⟨_, List.mem_singleton.mp he⟩
    · exact ⟨.refl c, by simp⟩

theorem sendSmmSettings_spec (env : Env) (c : FssClient) :
    c.SameIdentity (c.sendSmmSettings env).1 ∧
      ∀ e ∈ (c.sendSmmSettings env).2, ∃ msg, e = .sendLookup c.name msg := by
  unfold FssClient.sendSmmSettings
  split
  · exact ⟨.refl c, by simp⟩
  · refine ⟨⟨rfl, rfl, rfl, rfl⟩, fun e he => ?_⟩
    exact ⟨_, List.mem_singleton.mp he⟩

theorem sendRttRequest_spec (env : Env) (c : FssClient) :
    c.SameIdentity (c.sendRttRequest env).1 ∧
      ∀ e ∈ (c.sendRttRequest env).2, ∃ msg, e = .send msg := by
  refine ⟨⟨rfl, rfl, rfl, rfl⟩, fun e he => ?_⟩
  exact ⟨_, List.mem_singleton.mp he⟩

/-- All that processing a message can do to the identification of a client,
with the names that telemetry is then written for and that are looked up. -/
inductive Processed (c : FssClient) (msg : Option FssMessage) :
    FssClient × List Effect → Prop where
  | kept {c' : FssClient} {effects : List Effect} (same : c.SameIdentity c')
      (writes : ∀ e ∈ effects, ∀ name, e.telemetryName = some name →
        c.identified = true ∧ name = c.name)
      (lookups : ∀ e ∈ effects, e.lookupName = none) :
      Processed c msg (c', effects)
  | accepted {c' : FssClient} {effects : List Effect} {name : Bytes}
      (unidentified : c.identified = false)
      (listed : c.clientNames = [] ∨ name ∈ c.clientNames)
      (same : FssClient.SameIdentity
        { c with name := name, identified := true, aircraft := true } c')
      (writes : ∀ e ∈ effects, e.telemetryName = none)
      (lookups : ∀ e ∈ effects, ∀ name', e.lookupName = some name' →
        name' = name) :
      Processed c msg (c', effects)
  | refused {name : Bytes} (unidentified : c.identified = false)
      (unlisted : ¬ (c.clientNames = [] ∨ name ∈ c.clientNames)) :
      Processed c msg ({ c with name := name }, [.clientDisconnected])
  | nonAircraft {m : FssMessage} (unidentified : c.identified = false)
      (received : msg = some m) (type : m.type = .identityNonAircraft) :
      Processed c msg ({ c with identified := true, aircraft := false }, [])

/-- Effects that are no telemetry and no lookup. -/
theorem Processed.kept_of_quiet {msg : Option FssMessage} {c' : FssClient}
    {effects : List Effect} (same : c.SameIdentity c')
    (hquiet : ∀ e ∈ effects, e.telemetryName = none ∧ e.lookupName = none) :
    Processed c msg (c', effects) := by
  refine .kept same (fun e he name hname => ?_) fun e he => (hquiet e he).2
  rw [(hquiet e he).1] at hname
  cases hname

theorem processIdentity_cases (env : Env) (c : FssClient) (name : Bytes)
    (msg : Option FssMessage) (hc : c.identified = false) :
    Processed c msg (c.processIdentity env name) := by
  by_cases hlisted : c.clientNames = [] ∨ name ∈ c.clientNames
  · have hcommand := sendCommand_spec env
      { c with name := name, identified := true, aircraft := true }
    have hsettings := sendSmmSettings_spec env (FssClient.sendCommand env
      { c with name := name, identified := true, aircraft := true }).1
    simp only [FssClient.processIdentity, hlisted, ↓reduceIte]
    apply Processed.accepted hc hlisted
    · exact hcommand.1.trans (hsettings.1.trans (sameIdentity_sendMsg _ _))
    · intro e he
      rcases List.mem_append.mp he with he | he
      · rcases List.mem_append.mp he with he | he
        · obtain ⟨msg, rfl⟩ := hcommand.2 e he
          rfl
        · obtain ⟨msg, rfl⟩ := hsettings.2 e he
          rfl
      · cases List.mem_singleton.mp he
        rfl
    · intro e he name' hname'
      rcases List.mem_append.mp he with he | he
      · rcases List.mem_append.mp he with he | he
        · obtain ⟨msg, rfl⟩ := hcommand.2 e he
          cases hname'
          rfl
        · obtain ⟨msg, rfl⟩ := hsettings.2 e he
          cases hname'
          exact hcommand.1.name
      · cases List.mem_singleton.mp he
        cases hname'
  · simp only [FssClient.processIdentity, hlisted, ↓reduceIte]
    exact .refused hc hlisted

theorem processUnidentified_cases (env : Env) (c : FssClient)
    (m : FssMessage) (hc : c.identified = false) :
    Processed c (some m) (c.processUnidentified env m) := by
  unfold FssClient.processUnidentified
  cases htype : m.type with
  | identity =>
      cases m.body with
      | identity name => exact processIdentity_cases env c name (some m) hc
      | _ => exact .kept_of_quiet (.refl c) (by simp)
  | identityNonAircraft => exact .nonAircraft hc rfl htype
  | _ =>
      refine .kept_of_quiet ⟨rfl, rfl, rfl, rfl⟩ fun e he => ?_
      cases List.mem_singleton.mp he
      exact ⟨rfl, rfl⟩

/-- An identified client writes under its own name and looks nothing up. -/
theorem processIdentified_cases (env : Env) (c : FssClient) (m : FssMessage)
    (hc : c.identified = true) :
    Processed c (some m) (c.processIdentified env m) := by
  have hown : ∀ {c' : FssClient} {e : Effect}, c.SameIdentity c' →
      e.telemetryName = some c.name → e.lookupName = none →
      Processed c (some m) (c', [e]) := by
    intro c' e hsame hname hlookup
    refine .kept hsame (fun e' he' name hname' => ?_) fun e' he' => ?_
    · cases List.mem_singleton.mp he'
      rw [hname] at hname'
      cases hname'
      exact ⟨hc, rfl⟩
    · cases List.mem_singleton.mp he'
      exact hlookup
  unfold FssClient.processIdentified
  cases m.type with
  | rttRequest =>
      refine .kept_of_quiet ⟨rfl, rfl, rfl, rfl⟩ fun e he => ?_
      cases List.mem_singleton.mp he
      exact ⟨rfl, rfl⟩
  | rttResponse =>
      cases m.body with
      | rttResponse requestId =>
          dsimp only
          split
          · exact hown ⟨rfl, rfl, rfl, rfl⟩ rfl rfl
          · exact .kept_of_quiet (.refl c) (by simp)
      | _ => exact .kept_of_quiet (.refl c) (by simp)
  | positionReport =>
      by_cases haircraft : c.aircraft
      · simp only [haircraft, ↓reduceIte]
        refine .kept (.refl c) (fun e he name hname => ?_) fun e he => ?_
        · rcases List.mem_cons.mp he with rfl | he
          · cases hname
            exact ⟨hc, rfl⟩
          · cases List.mem_singleton.mp he
            cases hname
        · rcases List.mem_cons.mp he with rfl | he
          · rfl
          · cases List.mem_singleton.mp he
            rfl
      · simp only [haircraft]
        refine .kept_of_quiet (.refl c) fun e he => ?_
        cases List.mem_singleton.mp he
        exact ⟨rfl, rfl⟩
  | systemStatus =>
      cases m.body with
      | systemStatus status => exact hown (.refl c) rfl rfl
      | _ => exact .kept_of_quiet (.refl c) (by simp)
  | searchStatus =>
      cases m.body with
      | searchStatus status => exact hown (.refl c) rfl rfl
      | _ => exact .kept_of_quiet (.refl c) (by simp)
  | _ => exact .kept_of_quiet (.refl c) (by simp)

theorem processMessage_cases (env : Env) (c : FssClient)
    (msg : Option FssMessage) :
    Processed c msg (c.processMessage env msg) := by
  cases msg with
  | none => exact .kept_of_quiet (.refl c) (by simp)
  | some m =>
      unfold FssClient.processMessage
      by_cases hclosed : m.type = .closed
      · simp only [hclosed, ↓reduceIte]
        refine .kept_of_quiet (.refl c) fun e he => ?_
        cases List.mem_singleton.mp he
        exact ⟨rfl, rfl⟩
      · simp only [hclosed, ↓reduceIte]
        cases hc : c.identified with
        | true => exact processIdentified_cases env c m hc
        | false => exact processUnidentified_cases env c m hc

end Frame

end FlightSafety.Server
