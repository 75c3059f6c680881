/-
The asset's side of one connection to a server.  The receive loop hands what
it gets to `fss_server::processMessage`; the thread that connects sets the
handler and then identifies the asset, and only after that does the rest of
the program send on the connection.
-/
import FlightSafety.Transport.RoundTrip

namespace FlightSafety.Client

open Octets ExactDouble

/-- How far `reconnect` is with a connection that has been made: its messages
wait for a handler, are handled, or are handled and the asset has said who it
is. -/
inductive AssetStage where
  | connected
  | handled
  | identified
deriving Repr, DecidableEq

/-- An asset and one connection of it. -/
structure Asset where
  assetName : Bytes
  lastMsgId : UInt64 := 0
  stage : AssetStage := .connected
deriving Repr, DecidableEq

/-- What processing a message does.  The handlers are those the client's
subclass overrides. -/
inductive AssetEffect where
  | send (msg : FssMessage)
  | serverRequiresReconnect
  | handlePositionReport (msg : FssMessage)
  | updateServers (servers : List (Bytes × UInt16))
  | handleCommand (msg : FssMessage)
  | handleSmmSettings (msg : FssMessage)
deriving Repr, DecidableEq

def AssetEffect.sent? : AssetEffect → Option FssMessage
  | .send msg => some msg
  | _ => none

namespace Asset

/-- Take the next id of the connection for a message that is sent on it. -/
def sendMsg (a : Asset) (msg : FssMessage) : Asset × List AssetEffect :=
  ({ a with lastMsgId := a.lastMsgId + 1 },
    [.send (msg.setId (a.lastMsgId + 1))])

def sendIdentify (a : Asset) : Asset × List AssetEffect :=
  a.sendMsg (fssMessageIdentity a.assetName)

/-- `fss_server::processMessage`.  A server sends no status and no response,
and an asset needs no identity. -/
def processMessage (a : Asset) : Option FssMessage → Asset × List AssetEffect
  | none => (a, [])
  | some msg =>
      match msg.type with
      | .closed => (a, [.serverRequiresReconnect])
      | .rttRequest => a.sendMsg (fssMessageRttResponse msg.id)
      | .positionReport =>
          match msg.body with
          | .positionReport _ => (a, [.handlePositionReport msg])
          | _ => (a, [])
      | .command =>
          match msg.body with
          | .assetCommand _ => (a, [.handleCommand msg])
          | _ => (a, [])
      | .serverList =>
          match msg.body with
          | .serverList servers => (a, [.updateServers servers])
          | _ => (a, [])
      | .smmSettings =>
          match msg.body with
          | .smmSettings _ => (a, [.handleSmmSettings msg])
          | _ => (a, [])
      | _ => (a, [])

end Asset

/-- What a message of a server is for an asset, apart from the response to a
request. -/
def handling : Option FssMessage → List AssetEffect
  | none => []
  | some msg =>
      match msg.type, msg.body with
      | .closed, _ => [.serverRequiresReconnect]
      | .positionReport, .positionReport _ => [.handlePositionReport msg]
      | .command, .assetCommand _ => [.handleCommand msg]
      | .serverList, .serverList servers => [.updateServers servers]
      | .smmSettings, .smmSettings _ => [.handleSmmSettings msg]
      | _, _ => []

/-- The id of the request that a message is. -/
def asked (msg : Option FssMessage) : Option UInt64 :=
  match msg with
  | none => none
  | some msg => if msg.type = .rttRequest then some msg.id else none

/-- All that processing a message can be. -/
inductive AssetProcessed (a : Asset) (msg : Option FssMessage) :
    Asset × List AssetEffect → Prop where
  | handled (unasked : asked msg = none) :
      AssetProcessed a msg (a, handling msg)
  | replied (id : UInt64) (request : asked msg = some id)
      (unhandled : handling msg = []) :
      AssetProcessed a msg (a.sendMsg (fssMessageRttResponse id))

theorem processMessage_cases (a : Asset) (msg : Option FssMessage) :
    AssetProcessed a msg (a.processMessage msg) := by
  cases msg with
  | none => exact .handled rfl
  | some msg =>
      rcases msg with ⟨id, type, body⟩
      cases type with
      | rttRequest => exact .replied id rfl rfl
      | positionReport | command | serverList | smmSettings =>
          cases body <;> exact .handled rfl
      | _ => exact .handled rfl

/-- What is handled is not sent. -/
theorem sent?_handling {msg : Option FssMessage} {e : AssetEffect}
    (he : e ∈ handling msg) : e.sent? = none := by
  cases msg with
  | none => exact absurd he List.not_mem_nil
  | some msg =>
      simp only [handling] at he
      split at he
      case h_6 => exact absurd he List.not_mem_nil
      all_goals
        rw [List.mem_singleton.mp he]
        rfl

end FlightSafety.Client
