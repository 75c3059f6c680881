/-
The servers of a client.  A server is in `servers` while it is thought to be
connected and in `reconnect_servers` while it is to be tried again.  The
client does one operation after the other, statement by statement; between any
two statements the receive loop of any connection can deliver that the
connection has been closed.
-/
import FlightSafety.Lib.Machine
import FlightSafety.Lib.Octets

namespace FlightSafety.Client

open Octets Machine

/-- How far the connection of a server has come: constructed, connected with
no handler yet, the same with a closed message queued, connected with a
handler, and closed with the message delivered. -/
inductive ConnectionStage where
  | constructed
  | connected
  | closedQueued
  | handled
  | closed
deriving Repr, DecidableEq

def retryDelayStart : UInt64 := 1000

def retryDelayCap : UInt64 := 30000

/-- `fss_server`, with the stage of its connection if it has one. -/
structure FssServer where
  address : Bytes := []
  port : UInt16 := 0
  connection : Option ConnectionStage := none
  lastTried : UInt64 := 0
  retryCount : UInt64 := 0
  retryDelay : UInt64 := retryDelayStart
deriving Repr, DecidableEq

namespace FssServer

def connected (s : FssServer) : Bool :=
  s.connection.isSome

def setConnection (s : FssServer) (stage : ConnectionStage) : FssServer :=
  { s with connection := some stage }

def clearConnection (s : FssServer) : FssServer :=
  { s with connection := none }

/-- The bookkeeping of an attempt to reconnect. -/
def tried (s : FssServer) (ts : UInt64) : FssServer :=
  { s with
    retryCount := s.retryCount + 1
    retryDelay :=
      if s.retryDelay < retryDelayCap then s.retryDelay + s.retryDelay
      else s.retryDelay
    lastTried := ts }

/-- The bookkeeping of an attempt that has succeeded. -/
def succeeded (s : FssServer) : FssServer :=
  { s with retryCount := 0, lastTried := 0, retryDelay := retryDelayStart }

/-- `processMessage` for a closed message, apart from what the client does. -/
def processClosed (s : FssServer) : FssServer :=
  { s with connection := some .closed, lastTried := 0, retryCount := 0 }

end FssServer

inductive ConnectionStatus where
  | disconnected
  | connected1Server
  | connected2OrMore
deriving Repr, DecidableEq

/-- `fss_client`: the servers it has created, by number, and its two lists. -/
structure FssClient where
  server : Nat → FssServer := fun _ => {}
  created : Nat := 0
  servers : List Nat := []
  reconnectServers : List Nat := []

namespace FssClient

/-- Change one server. -/
def modify (c : FssClient) (id : Nat) (f : FssServer → FssServer) :
    FssClient :=
  { c with server := fun id' => if id' = id then f (c.server id') else c.server id' }

/-- A new server without a connection. -/
def create (c : FssClient) (address : Bytes) (port : UInt16) : FssClient :=
  { c.modify c.created fun _ => { address := address, port := port } with
    created := c.created + 1 }

def connectionStatus (c : FssClient) : ConnectionStatus :=
  match c.servers.length with
  | 0 => .disconnected
  | 1 => .connected1Server
  | _ => .connected2OrMore

def serverListMatches (c : FssClient) (ids : List Nat)
    (entry : Bytes × UInt16) : Bool :=
  ids.any fun id =>
    (c.server id).address = entry.1 ∧ (c.server id).port = entry.2

/-- Only a server that is found in `servers` is moved. -/
def serverRequiresReconnect (c : FssClient) (id : Nat) : FssClient :=
  if id ∈ c.servers then
    { c with
      servers := c.servers.filter (· ≠ id)
      reconnectServers := c.reconnectServers ++ [id] }
  else c

/-- A server gets the closed message of its connection. -/
def processClosed (c : FssClient) (id : Nat) : FssClient :=
  (c.serverRequiresReconnect id).modify id FssServer.processClosed

/-- A connection gets its handler and empties its queue to it. -/
def setHandler (c : FssClient) (id : Nat) :
    FssClient × List ConnectionStatus :=
  match (c.server id).connection with
  | some .closedQueued =>
      (c.processClosed id, [(c.serverRequiresReconnect id).connectionStatus])
  | _ => (c.modify id (·.setConnection .handled), [])

/-- A receive loop delivers that its connection has been closed, or queues it
when there is no handler yet. -/
def closed (c : FssClient) (id : Nat) :
    Option (FssClient × List ConnectionStatus) :=
  match (c.server id).connection with
  | some .connected => some (c.modify id (·.setConnection .closedQueued), [])
  | some .handled =>
      some (c.processClosed id, [(c.serverRequiresReconnect id).connectionStatus])
  | _ => none

end FssClient

/-- Where `fss_server::reconnect` is. -/
inductive ReconnectAt where
  | start
  | checkElapsed (ts elapsed : UInt64)
  | setConnection
  | connectTo
  | clearConnection
  | setHandler
  | succeed
deriving Repr, DecidableEq

/-- What a statement of `reconnect` leads to: another one or the end. -/
inductive Progress where
  | next (place : ReconnectAt)
  | returned (result : Bool)
deriving Repr, DecidableEq

/-- One statement of `reconnect`.  The time and the outcome of the attempt are
what the statement finds them to be. -/
def FssClient.reconnect (c : FssClient) (id : Nat) (now : UInt64)
    (connects : Bool) :
    ReconnectAt → FssClient × Progress × List ConnectionStatus
  | .start =>
      (c.modify id (·.clearConnection),
        .next (.checkElapsed now (now - (c.server id).lastTried)), [])
  | .checkElapsed ts elapsed =>
      if elapsed > (c.server id).retryDelay then
        (c.modify id (·.tried ts), .next .setConnection, [])
      else (c, .returned false, [])
  | .setConnection =>
      (c.modify id (·.setConnection .constructed), .next .connectTo, [])
  | .connectTo =>
      if connects then
        (c.modify id (·.setConnection .connected), .next .setHandler, [])
      else (c, .next .clearConnection, [])
  | .clearConnection => (c.modify id (·.clearConnection), .returned false, [])
  | .setHandler =>
      let (c, statuses) := c.setHandler id
      (c, .next .succeed, statuses)
  | .succeed => (c.modify id (·.succeeded), .returned true, [])

/-- Who called `reconnect`: `connectTo` for its new server, or
`attemptReconnect`, with its place in `reconnect_servers` and the servers it
has reconnected so far. -/
inductive Caller where
  | connectTo
  | attemptReconnect (index : Nat) (reconnected : List Nat)
deriving Repr, DecidableEq

/-- Where the operation in progress is.  `updateServers` has the entries that
are still to be looked at, and a single `connectTo` has none. -/
inductive ClientAt where
  | idle
  | reconnect (caller : Caller) (id : Nat) (place : ReconnectAt)
  | addServer (id : Nat) (entries : List (Bytes × UInt16))
  | fileServer (id : Nat) (connected : Bool) (entries : List (Bytes × UInt16))
  | matchServers (entries : List (Bytes × UInt16))
  | matchReconnect (entry : Bytes × UInt16) (entries : List (Bytes × UInt16))
  | scan (index : Nat) (reconnected : List Nat)
  | move (reconnected : List Nat)
  | remove (id : Nat) (reconnected : List Nat)
  | pushBack (id : Nat) (reconnected : List Nat)
deriving Repr, DecidableEq

/-- Where the caller of `reconnect` goes on. -/
def Caller.goesOn (id : Nat) (result : Bool) : Caller → ClientAt
  | .connectTo => .addServer id []
  | .attemptReconnect index reconnected =>
      .scan (index + 1) (if result then reconnected ++ [id] else reconnected)

structure ClientState where
  client : FssClient := {}
  place : ClientAt := .idle

inductive ClientEvent where
  | connectTo (address : Bytes) (port : UInt16) (connect : Bool)
  | updateServers (entries : List (Bytes × UInt16))
  | attemptReconnect
  | advance (now : UInt64) (connects : Bool)
  | closed (id : Nat)
deriving Repr, DecidableEq

/-- The next statement of the operation in progress. -/
def FssClient.advance (c : FssClient) (now : UInt64) (connects : Bool) :
    ClientAt → Option (ClientState × List ConnectionStatus)
  | .idle => none
  | .reconnect caller id place =>
      match c.reconnect id now connects place with
      | (c, .next place, statuses) =>
          some (⟨c, .reconnect caller id place⟩, statuses)
      | (c, .returned result, statuses) =>
          some (⟨c, caller.goesOn id result⟩, statuses)
  | .addServer id entries =>
      some (⟨c, .fileServer id (c.server id).connected entries⟩, [])
  | .fileServer id connected entries =>
      if connected then
        some (⟨{ c with servers := c.servers ++ [id] },
          .matchServers entries⟩, [])
      else
        some (⟨{ c with reconnectServers := c.reconnectServers ++ [id] },
          .matchServers entries⟩, [])
  | .matchServers [] => some (⟨c, .idle⟩, [])
  | .matchServers (entry :: entries) =>
      if c.serverListMatches c.servers entry then
        some (⟨c, .matchServers entries⟩, [])
      else some (⟨c, .matchReconnect entry entries⟩, [])
  | .matchReconnect entry entries =>
      if c.serverListMatches c.reconnectServers entry then
        some (⟨c, .matchServers entries⟩, [])
      else
        some (⟨c.create entry.1 entry.2, .addServer c.created entries⟩, [])
  | .scan index reconnected =>
      match c.reconnectServers[index]? with
      | some id =>
          some (⟨c, .reconnect (.attemptReconnect index reconnected) id
            .start⟩, [])
      | none =>
          -- `any_connected` is whether anything has been reconnected.
          if reconnected = [] then some (⟨c, .idle⟩, [])
          else some (⟨c, .move reconnected⟩, [])
  | .move [] => some (⟨c, .idle⟩, [c.connectionStatus])
  | .move (id :: reconnected) => some (⟨c, .remove id reconnected⟩, [])
  | .remove id reconnected =>
      some (⟨{ c with
        reconnectServers := c.reconnectServers.filter (· ≠ id) },
        .pushBack id reconnected⟩, [])
  | .pushBack id reconnected =>
      some (⟨{ c with servers := c.servers ++ [id] }, .move reconnected⟩, [])

namespace ClientState

/-- An operation starts when none is in progress. -/
def starts (s : ClientState) (next : ClientState) :
    Option (ClientState × List ConnectionStatus) :=
  if s.place = .idle then some (next, []) else none

def step : Step ClientState ClientEvent ConnectionStatus
  | s, .connectTo address port connect =>
      s.starts ⟨s.client.create address port,
        if connect then .reconnect .connectTo s.client.created .start
        else .addServer s.client.created []⟩
  | s, .updateServers entries => s.starts ⟨s.client, .matchServers entries⟩
  | s, .attemptReconnect => s.starts ⟨s.client, .scan 0 []⟩
  | s, .advance now connects => s.client.advance now connects s.place
  | s, .closed id =>
      match s.client.closed id with
      | some (c, statuses) => some (⟨c, s.place⟩, statuses)
      | none => none

end ClientState

end FlightSafety.Client
