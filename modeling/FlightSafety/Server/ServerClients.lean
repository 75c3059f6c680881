/-
The clients of a server, from the connection that is accepted to the client
that is dropped.  A step is one of the pieces of work that the threads of the
server do: the receive loop of a connection, the constructor of its client,
and the main loop, which works on the registered clients one by one.
-/
import FlightSafety.Lib.Machine
import FlightSafety.Server.Client

namespace FlightSafety.Server

open Octets Machine

/-- `server_clients`: the registered clients and those that wait to be
dropped. -/
structure ServerClients (α : Type) where
  clients : List α := []
  disconnected : List α := []
  totalClients : UInt32 := 0
  shuttingDown : Bool := false
deriving Repr, DecidableEq

namespace ServerClients

variable {α : Type}

def cleanupRemovableClients (r : ServerClients α) : ServerClients α :=
  { r with
    disconnected := []
    totalClients := r.disconnected.foldl (fun total _ => total - 1)
      r.totalClients }

def clientConnected (r : ServerClients α) (client : α) : ServerClients α :=
  { r with
    clients := r.clients ++ [client]
    totalClients := r.totalClients + 1 }

/-- Only a client that is registered is queued to be dropped. -/
def clientDisconnected [DecidableEq α] (r : ServerClients α) (client : α) :
    ServerClients α :=
  if r.shuttingDown then r
  else if client ∈ r.clients then
    { r with
      disconnected := r.disconnected ++ [client]
      clients := r.clients.filter (· ≠ client) }
  else r

theorem sublist_clientDisconnected [DecidableEq α] (r : ServerClients α)
    (client : α) :
    (r.clientDisconnected client).clients.Sublist r.clients := by
  unfold clientDisconnected
  split
  · exact .refl _
  · split
    · exact List.filter_sublist
    · exact .refl _

/-- Unless the server is shutting down, a disconnected client is not
registered any more. -/
theorem not_mem_clientDisconnected [DecidableEq α] {r : ServerClients α}
    (hrunning : r.shuttingDown = false) (client : α) :
    client ∉ (r.clientDisconnected client).clients := by
  intro h
  unfold clientDisconnected at h
  rw [hrunning] at h
  by_cases hmem : client ∈ r.clients
  · simp [hmem] at h
  · simp [hmem] at h

theorem clientDisconnected_of_mem [DecidableEq α] {r : ServerClients α}
    (hrunning : r.shuttingDown = false) {client : α}
    (h : client ∈ r.clients) :
    r.clientDisconnected client =
      { r with
        disconnected := r.disconnected ++ [client]
        clients := r.clients.filter (· ≠ client) } := by
  simp [clientDisconnected, hrunning, h]

theorem clientDisconnected_of_not_mem [DecidableEq α] {r : ServerClients α}
    {client : α} (h : client ∉ r.clients) :
    r.clientDisconnected client = r := by
  simp [clientDisconnected, h]

@[simp] theorem shuttingDown_clientDisconnected [DecidableEq α]
    (r : ServerClients α) (client : α) :
    (r.clientDisconnected client).shuttingDown = r.shuttingDown := by
  unfold clientDisconnected
  split
  · rfl
  · split <;> rfl

end ServerClients

/-- How far a connection has come: accepted without a handler, with a client
that is being constructed and drains its messages, with one that has been
handed to the registry, and without its client again. -/
inductive Stage where
  | accepted
  | constructing
  | running
  | dropped
deriving Repr, DecidableEq

/-- A connection, the messages queued on it and its client. -/
structure Connection where
  stage : Stage
  messages : List (Option FssMessage)
  client : FssClient
deriving Repr, DecidableEq

/-- The connections a server has accepted, by number, and the registry. -/
structure ServerState where
  connections : Nat → Option Connection
  registry : ServerClients Nat

/-- An effect, with the connection it happens on and the names in that
connection's certificate. -/
structure Output where
  id : Nat
  clientNames : List Bytes
  effect : Effect
deriving Repr, DecidableEq

inductive ServerEvent where
  | accept (id : Nat) (clientNames : List Bytes)
  | push (id : Nat) (msg : Option FssMessage)
  | setHandler (id : Nat)
  | drain (id : Nat) (env : Env)
  | receive (id : Nat) (env : Env) (msg : Option FssMessage)
  | clientConnected (id : Nat)
  | cleanupRemovableClients
  | sendRttRequest (id : Nat) (env : Env)
  | sendCommand (id : Nat) (env : Env)
  | sendSmmSettings (id : Nat) (env : Env)
  | sendServersList (id : Nat) (env : Env)

namespace ServerState

/-- A server that has just been started. -/
def start : ServerState where
  connections _ := none
  registry := {}

def setConnection (s : ServerState) (id : Nat) (conn : Connection) : ServerState :=
  { s with connections := Function.update s.connections id (some conn) }

@[simp] theorem connections_setConnection (s : ServerState) (id : Nat)
    (conn : Connection) : (s.setConnection id conn).connections id =
      some conn :=
  Function.update_self ..

theorem connections_setConnection_of_ne (s : ServerState) {id other : Nat}
    (h : other ≠ id) (conn : Connection) :
    (s.setConnection id conn).connections other = s.connections other :=
  Function.update_of_ne h ..

theorem connections_setConnection_eq_some {s : ServerState} {id other : Nat}
    {conn found : Connection}
    (h : (s.setConnection id conn).connections other = some found) :
    (other = id ∧ found = conn) ∨
      (other ≠ id ∧ s.connections other = some found) := by
  by_cases hother : other = id
  · subst hother
    rw [connections_setConnection] at h
    cases h
    exact Or.inl ⟨rfl, rfl⟩
  · rw [connections_setConnection_of_ne s hother] at h
    exact Or.inr ⟨hother, h⟩

/-- Send a message on the connection of one client. -/
def sendTo (s : ServerState) (id : Nat) (msg : FssMessage) : ServerState × List Output :=
  match s.connections id with
  | none => (s, [])
  | some conn =>
      let (client, msg) := conn.client.sendMsg msg
      (s.setConnection id { conn with client := client },
        [⟨id, conn.client.clientNames, .send msg⟩])

def isAircraft (s : ServerState) (id : Nat) : Bool :=
  match s.connections id with
  | none => false
  | some conn => conn.client.aircraft

/-- `server_clients::sendMsg` over a list of clients: the message goes to the
aircraft among them, but for one. -/
def sendMsg (msg : FssMessage) (except : Nat) :
    List Nat → ServerState → ServerState × List Output
  | [], s => (s, [])
  | id :: rest, s =>
      if s.isAircraft id ∧ id ≠ except then
        let (s, out) := s.sendTo id msg
        let (s, outs) := sendMsg msg except rest s
        (s, out ++ outs)
      else sendMsg msg except rest s

/-- What an effect of a client does to the server. -/
def perform (id : Nat) (clientNames : List Bytes) (s : ServerState) :
    Effect → ServerState × List Output
  | .clientDisconnected =>
      ({ s with registry := s.registry.clientDisconnected id },
        [⟨id, clientNames, .clientDisconnected⟩])
  | .relay msg => sendMsg msg id s.registry.clients s
  | effect => (s, [⟨id, clientNames, effect⟩])

def performAll (id : Nat) (clientNames : List Bytes) :
    List Effect → ServerState → ServerState × List Output
  | [], s => (s, [])
  | effect :: rest, s =>
      let (s, out) := s.perform id clientNames effect
      let (s, outs) := performAll id clientNames rest s
      (s, out ++ outs)

/-- The client of a connection works, and then its effects happen. -/
def work (s : ServerState) (id : Nat) (conn : Connection)
    (todo : FssClient → FssClient × List Effect) :
    ServerState × List Output :=
  let (client, effects) := todo conn.client
  performAll id conn.client.clientNames effects
    (s.setConnection id { conn with client := client })

/-- Dropping the last reference to a client destroys it. -/
def drop (s : ServerState) (id : Nat) : ServerState :=
  match s.connections id with
  | none => s
  | some conn => s.setConnection id { conn with stage := .dropped }

/-- The main loop's work on a registered client. -/
def mainLoop (s : ServerState) (id : Nat)
    (todo : FssClient → FssClient × List Effect) :
    Option (ServerState × List Output) :=
  match s.connections id with
  | none => none
  | some conn =>
      if id ∈ s.registry.clients then some (s.work id conn todo) else none

def step : Step ServerState ServerEvent Output
  | s, .accept id clientNames =>
      match s.connections id with
      | some _ => none
      | none =>
          some (s.setConnection id
            ⟨.accepted, [], { clientNames := clientNames }⟩, [])
  | s, .push id msg =>
      match s.connections id with
      | some ⟨.accepted, messages, client⟩ =>
          some (s.setConnection id ⟨.accepted, messages ++ [msg], client⟩, [])
      | _ => none
  | s, .setHandler id =>
      match s.connections id with
      | some ⟨.accepted, messages, client⟩ =>
          some (s.setConnection id ⟨.constructing, messages, client⟩, [])
      | _ => none
  | s, .drain id env =>
      match s.connections id with
      | some ⟨.constructing, msg :: messages, client⟩ =>
          some (s.work id ⟨.constructing, messages, client⟩
            fun c => c.processMessage env msg)
      | _ => none
  | s, .receive id env msg =>
      match s.connections id with
      | some ⟨.constructing, messages, client⟩ =>
          some (s.work id ⟨.constructing, messages, client⟩
            fun c => c.processMessage env msg)
      | some ⟨.running, messages, client⟩ =>
          some (s.work id ⟨.running, messages, client⟩
            fun c => c.processMessage env msg)
      | _ => none
  | s, .clientConnected id =>
      match s.connections id with
      | some ⟨.constructing, [], client⟩ =>
          let s := s.setConnection id ⟨.running, [], client⟩
          some ({ s with registry := s.registry.clientConnected id }, [])
      | _ => none
  | s, .cleanupRemovableClients =>
      let s' := s.registry.disconnected.foldl drop s
      some ({ s' with
        registry := s'.registry.cleanupRemovableClients }, [])
  | s, .sendRttRequest id env => s.mainLoop id fun c => c.sendRttRequest env
  | s, .sendCommand id env => s.mainLoop id fun c => c.sendCommand env
  | s, .sendSmmSettings id env => s.mainLoop id fun c => c.sendSmmSettings env
  | s, .sendServersList id env =>
      s.mainLoop id fun c =>
        if c.aircraft then
          let (c, msg) := c.sendMsg (FssClient.getServersListMsg env)
          (c, [.send msg])
        else (c, [])

/-! When the steps of a connection can be taken, and what they lead to. -/

variable {s next : ServerState} {out : List Output} {id : Nat} {env : Env}
  {msg : Option FssMessage}

/-- A connection is only accepted under a new number. -/
theorem of_step_accept {clientNames : List Bytes}
    (h : step s (.accept id clientNames) = some (next, out)) :
    s.connections id = none ∧
      next = s.setConnection id
        ⟨.accepted, [], { clientNames := clientNames }⟩ ∧ out = [] := by
  simp only [step] at h
  split at h
  · cases h
  · next hfresh =>
      cases h
      exact ⟨hfresh, rfl, rfl⟩

/-- The main loop works on a registered client. -/
theorem of_mainLoop {todo : FssClient → FssClient × List Effect}
    (h : s.mainLoop id todo = some (next, out)) :
    ∃ conn, s.connections id = some conn ∧ id ∈ s.registry.clients ∧
      s.work id conn todo = (next, out) := by
  unfold mainLoop at h
  split at h
  · cases h
  · next conn hconn =>
      split at h
      · next hid => exact ⟨conn, hconn, hid, Option.some.inj h⟩
      · cases h

theorem of_step_push (h : step s (.push id msg) = some (next, out)) :
    ∃ messages client, s.connections id = some ⟨.accepted, messages, client⟩ ∧
      next = s.setConnection id ⟨.accepted, messages ++ [msg], client⟩ ∧
      out = [] := by
  simp only [step] at h
  split at h
  · next messages client hconn =>
      cases h
      exact ⟨messages, client, hconn, rfl, rfl⟩
  · cases h

theorem of_step_setHandler (h : step s (.setHandler id) = some (next, out)) :
    ∃ messages client, s.connections id = some ⟨.accepted, messages, client⟩ ∧
      next = s.setConnection id ⟨.constructing, messages, client⟩ ∧
      out = [] := by
  simp only [step] at h
  split at h
  · next messages client hconn =>
      cases h
      exact ⟨messages, client, hconn, rfl, rfl⟩
  · cases h

theorem of_step_drain (h : step s (.drain id env) = some (next, out)) :
    ∃ msg messages client,
      s.connections id = some ⟨.constructing, msg :: messages, client⟩ ∧
      (s.work id ⟨.constructing, messages, client⟩ fun c =>
        c.processMessage env msg) = (next, out) := by
  simp only [step] at h
  split at h
  · next msg messages client hconn =>
      exact ⟨msg, messages, client, hconn, Option.some.inj h⟩
  · cases h

theorem of_step_receive (h : step s (.receive id env msg) = some (next, out)) :
    ∃ conn, s.connections id = some conn ∧
      (s.work id conn fun c => c.processMessage env msg) = (next, out) := by
  simp only [step] at h
  split at h
  · next messages client hconn => exact ⟨_, hconn, Option.some.inj h⟩
  · next messages client hconn => exact ⟨_, hconn, Option.some.inj h⟩
  · cases h

theorem of_step_clientConnected
    (h : step s (.clientConnected id) = some (next, out)) :
    ∃ client, s.connections id = some ⟨.constructing, [], client⟩ ∧
      next = { s.setConnection id ⟨.running, [], client⟩ with
        registry := s.registry.clientConnected id } ∧
      out = [] := by
  simp only [step] at h
  split at h
  · next client hconn =>
      cases h
      exact ⟨client, hconn, rfl, rfl⟩
  · cases h

end ServerState

end FlightSafety.Server
