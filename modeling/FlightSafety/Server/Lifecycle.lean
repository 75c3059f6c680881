/-
From accepting a connection to destroying its client, with the lock of the
registry.  The listen thread constructs and registers clients, each receive
loop processes what it receives, and the main loop drops clients while it holds
the lock.  Taking and releasing the lock, reading and storing the handler and
joining a receive loop are steps of their own.  Sends and the database do not
matter here, so that the main loop's other work is left out.
-/
import FlightSafety.Server.ServerClients
import FlightSafety.Transport.Receive

namespace FlightSafety.Server

open Octets Machine

/-- A message that makes a client leave: the closed message, or an identity
that is refused. -/
def FssClient.leaves (c : FssClient) : Option FssMessage → Bool
  | none => false
  | some ⟨_, .closed, _⟩ => true
  | some ⟨_, .identity, .identity name⟩ =>
      !c.identified && !decide (c.clientNames = [] ∨ name ∈ c.clientNames)
  | some _ => false

/-- Where a receive loop is.  It has a message to test the handler for, to
queue, to process, or to disconnect its client for. -/
inductive ReceiveAt where
  | receive
  | test (msg : Option FssMessage)
  | push (msg : Option FssMessage)
  | process (msg : Option FssMessage)
  | lock (msg : Option FssMessage)
  | unlock (msg : Option FssMessage)
  | ended
deriving Repr, DecidableEq

/-- After a closed message the loop ends. -/
def ReceiveAt.afterwards (msg : Option FssMessage) : ReceiveAt :=
  if isClosed msg then .ended else .receive

/-- Where the listen thread is: accepting, in the constructor of a client, or
registering it. -/
inductive ListenAt where
  | accept
  | storeHandler (id : Nat)
  | testEmpty (id : Nat)
  | pop (id : Nat)
  | process (id : Nat) (msg : Option FssMessage)
  | lockDisconnected (id : Nat)
  | unlockDisconnected (id : Nat)
  | lockConnected (id : Nat)
  | unlockConnected (id : Nat)
deriving Repr, DecidableEq

/-- Where `cleanupRemovableClients` is. -/
inductive CleanupAt where
  | idle
  | lock
  | test
  | clearHandler (id : Nat)
  | disconnect (id : Nat)
  | join (id : Nat)
deriving Repr, DecidableEq

/-- Who holds the lock of the registry. -/
inductive LockHolder where
  | listen
  | receive (id : Nat)
  | cleanup
deriving Repr, DecidableEq

/-- A connection with its receive loop and its client. -/
structure Served where
  usable : Bool
  receiving : ReceiveAt
  handler : Bool := false
  messages : List (Option FssMessage) := []
  client : FssClient
deriving Repr, DecidableEq

structure Lifecycle where
  connections : Nat → Option Served := fun _ => none
  registry : ServerClients Nat := {}
  lock : Option LockHolder := none
  listening : ListenAt := .accept
  cleanup : CleanupAt := .idle

/-- A connection is accepted, with a receive loop if its TLS setup succeeds; a
receive loop receives something; or a thread takes its next step. -/
inductive LifecycleEvent where
  | accept (id : Nat) (clientNames : List Bytes) (usable : Bool)
  | receive (id : Nat) (msg : Option FssMessage)
  | loop (id : Nat) (env : Env)
  | listen (env : Env)
  | cleanup

namespace Lifecycle

def setConnection (s : Lifecycle) (id : Nat) (conn : Served) : Lifecycle :=
  { s with connections := Function.update s.connections id (some conn) }

/-- A receive loop is somewhere else. -/
def receiveAt (s : Lifecycle) (id : Nat) (conn : Served) (place : ReceiveAt) :
    Lifecycle :=
  s.setConnection id { conn with receiving := place }

/-- The next step of a receive loop. -/
def loop (s : Lifecycle) (id : Nat) (conn : Served) (env : Env) :
    Option (Lifecycle × List Effect) :=
  match conn.receiving with
  | .receive | .ended => none
  | .test msg =>
      if conn.handler then some (s.receiveAt id conn (.process msg), [])
      else some (s.receiveAt id conn (.push msg), [])
  | .push msg =>
      let conn := { conn with messages := conn.messages ++ [msg] }
      some (s.receiveAt id conn (.afterwards msg), [])
  | .process msg =>
      let (client, effects) := conn.client.processMessage env msg
      let conn := { conn with client := client }
      if .clientDisconnected ∈ effects then
        some (s.receiveAt id conn (.lock msg), effects)
      else some (s.receiveAt id conn (.afterwards msg), effects)
  | .lock msg =>
      if s.lock = none then
        some ({ s.receiveAt id conn (.unlock msg) with
          lock := some (.receive id) }, [])
      else none
  | .unlock msg =>
      some ({ s.receiveAt id conn (.afterwards msg) with
        registry := s.registry.clientDisconnected id
        lock := none }, [])

/-- The next step of the listen thread with a connection it has accepted. -/
def listen (s : Lifecycle) (env : Env) : Option (Lifecycle × List Effect) :=
  match s.listening with
  | .accept => none
  | .storeHandler id =>
      match s.connections id with
      | none => none
      | some conn =>
          some ({ s.setConnection id { conn with handler := true } with
            listening := .testEmpty id }, [])
  | .testEmpty id =>
      match s.connections id with
      | none => none
      | some conn =>
          if conn.messages = [] then
            some ({ s with listening := .lockConnected id }, [])
          else some ({ s with listening := .pop id }, [])
  | .pop id =>
      match s.connections id with
      | some ⟨usable, place, handler, msg :: messages, client⟩ =>
          some ({ s.setConnection id
              ⟨usable, place, handler, messages, client⟩ with
            listening := .process id msg }, [])
      | _ => none
  | .process id msg =>
      match s.connections id with
      | none => none
      | some conn =>
          let (client, effects) := conn.client.processMessage env msg
          let s := s.setConnection id { conn with client := client }
          if .clientDisconnected ∈ effects then
            some ({ s with listening := .lockDisconnected id }, effects)
          else some ({ s with listening := .testEmpty id }, effects)
  | .lockDisconnected id =>
      if s.lock = none then
        some ({ s with
          lock := some .listen
          listening := .unlockDisconnected id }, [])
      else none
  | .unlockDisconnected id =>
      some ({ s with
        registry := s.registry.clientDisconnected id
        lock := none
        listening := .testEmpty id }, [])
  | .lockConnected id =>
      if s.lock = none then
        some ({ s with
          lock := some .listen
          listening := .unlockConnected id }, [])
      else none
  | .unlockConnected id =>
      some ({ s with
        registry := s.registry.clientConnected id
        lock := none
        listening := .accept }, [])

/-- The next step of `cleanupRemovableClients`.  The queue has the last
reference to a client, so that the client is destroyed as soon as it is
dropped. -/
def cleanUp (s : Lifecycle) : Option (Lifecycle × List Effect) :=
  match s.cleanup with
  | .idle => some ({ s with cleanup := .lock }, [])
  | .lock =>
      if s.lock = none then
        some ({ s with lock := some .cleanup, cleanup := .test }, [])
      else none
  | .test =>
      match s.registry.disconnected with
      | [] => some ({ s with lock := none, cleanup := .idle }, [])
      | id :: disconnected =>
          let registry := { s.registry with
            disconnected := disconnected
            totalClients := s.registry.totalClients - 1 }
          some ({ s with
            registry := registry
            cleanup := .clearHandler id }, [])
  | .clearHandler id =>
      match s.connections id with
      | none => none
      | some conn =>
          some ({ s.setConnection id { conn with handler := false } with
            cleanup := .disconnect id }, [])
  | .disconnect id =>
      match s.connections id with
      | none => none
      | some conn =>
          some ({ s.setConnection id { conn with usable := false } with
            cleanup := .join id }, [])
  | .join id =>
      match s.connections id with
      | none => none
      | some conn =>
          if conn.receiving = .ended then
            some ({ s with cleanup := .test }, [])
          else none

def step : Step Lifecycle LifecycleEvent Effect
  | s, .accept id clientNames usable =>
      match s.listening, s.connections id with
      | .accept, none =>
          let conn : Served :=
            { usable := usable
              receiving := if usable then .receive else .ended
              client := { clientNames := clientNames } }
          some ({ s.setConnection id conn with
            listening := .storeHandler id }, [])
      | _, _ => none
  | s, .receive id msg =>
      match s.connections id with
      | none => none
      | some conn =>
          if conn.receiving = .receive then
            some (s.receiveAt id conn (.test msg), [])
          else none
  | s, .loop id env =>
      match s.connections id with
      | none => none
      | some conn => s.loop id conn env
  | s, .listen env => s.listen env
  | s, .cleanup => s.cleanUp

/-! What a step changes. -/

@[simp] theorem connections_setConnection (s : Lifecycle) (id : Nat)
    (conn : Served) : (s.setConnection id conn).connections id = some conn :=
  Function.update_self ..

theorem connections_setConnection_of_ne (s : Lifecycle) {id other : Nat}
    (h : other ≠ id) (conn : Served) :
    (s.setConnection id conn).connections other = s.connections other :=
  Function.update_of_ne h ..

theorem connections_setConnection_ne_none {s : Lifecycle} {id other : Nat}
    (conn : Served) (h : s.connections other ≠ none) :
    (s.setConnection id conn).connections other ≠ none := by
  by_cases hother : other = id
  · rw [hother, connections_setConnection]
    exact Option.some_ne_none conn
  · rwa [connections_setConnection_of_ne s hother]

end Lifecycle

/-- The connection the listen thread works on. -/
def ListenAt.id? : ListenAt → Option Nat
  | .accept => none
  | .storeHandler id | .testEmpty id | .pop id | .process id _
  | .lockDisconnected id | .unlockDisconnected id | .lockConnected id
  | .unlockConnected id => some id

/-- The listen thread has stored the handler. -/
def ListenAt.Stored : ListenAt → Prop
  | .accept | .storeHandler _ => False
  | _ => True

/-- The client that is being destroyed. -/
def CleanupAt.dropped : CleanupAt → List Nat
  | .clearHandler id | .disconnect id | .join id => [id]
  | _ => []

/-- The clients that have been taken off the list and are not destroyed. -/
def Lifecycle.leaving (s : Lifecycle) : List Nat :=
  s.registry.disconnected ++ s.cleanup.dropped

/-- A client is on the list, leaving, or with the listen thread. -/
structure Consistent (s : Lifecycle) : Prop where
  running : s.registry.shuttingDown = false
  known : ∀ id ∈ s.registry.clients ++ s.leaving, s.connections id ≠ none
  apart : ∀ id ∈ s.leaving, id ∉ s.registry.clients
  accepted : ∀ id, s.listening.id? = some id → s.connections id ≠ none ∧
    id ∉ s.registry.clients ++ s.leaving

theorem consistent_start : Consistent {} where
  running := rfl
  known _ h := absurd h List.not_mem_nil
  apart _ h := absurd h List.not_mem_nil
  accepted _ h := by cases h

namespace Consistent

variable {s next : Lifecycle}

/-- A step that leaves the registry alone. -/
theorem congr (h : Consistent s) (hregistry : next.registry = s.registry)
    (hdropped : next.cleanup.dropped ⊆ s.cleanup.dropped)
    (hconnections : ∀ id, s.connections id ≠ none →
      next.connections id ≠ none)
    (hlistening : ∀ id, next.listening.id? = some id →
      s.listening.id? = some id) : Consistent next := by
  have hleaving : next.leaving ⊆ s.leaving := by
    rw [Lifecycle.leaving, hregistry]
    exact List.append_subset.mpr ⟨List.subset_append_left _ _,
      List.Subset.trans hdropped (List.subset_append_right _ _)⟩
  have hall : next.registry.clients ++ next.leaving ⊆
      s.registry.clients ++ s.leaving := by
    rw [hregistry]
    exact List.append_subset.mpr ⟨List.subset_append_left _ _,
      List.Subset.trans hleaving (List.subset_append_right _ _)⟩
  constructor
  case running =>
    rw [hregistry]
    exact h.running
  case known => exact fun id hid => hconnections id (h.known id (hall hid))
  case apart =>
    rw [hregistry]
    exact fun id hid => h.apart id (hleaving hid)
  case accepted =>
    intro id hid
    obtain ⟨hknown, hout⟩ := h.accepted id (hlistening id hid)
    exact ⟨hconnections id hknown, fun hin => hout (hall hin)⟩

/-- `clientDisconnected` makes a client of the list leave. -/
theorem disconnected {id : Nat} (h : Consistent s)
    (hregistry : next.registry = s.registry.clientDisconnected id)
    (hdropped : next.cleanup.dropped = s.cleanup.dropped)
    (hconnections : ∀ id, s.connections id ≠ none →
      next.connections id ≠ none)
    (hlistening : ∀ id, next.listening.id? = some id →
      s.listening.id? = some id) : Consistent next := by
  by_cases hmem : id ∈ s.registry.clients
  · have hmoved := ServerClients.clientDisconnected_of_mem h.running hmem
    have hleaving : ∀ other, other ∈ next.leaving →
        other ∈ s.leaving ∨ other = id := by
      intro other hother
      rw [Lifecycle.leaving, hregistry, hdropped, hmoved] at hother
      rcases List.mem_append.mp hother with hother | hother
      · rcases List.mem_append.mp hother with hother | hother
        · exact .inl (List.mem_append_left _ hother)
        · exact .inr (List.mem_singleton.mp hother)
      · exact .inl (List.mem_append_right _ hother)
    have hclients : ∀ other, other ∈ next.registry.clients ↔
        other ∈ s.registry.clients ∧ other ≠ id := by
      intro other
      rw [hregistry, hmoved]
      simp
    have hall : ∀ other, other ∈ next.registry.clients ++ next.leaving →
        other ∈ s.registry.clients ++ s.leaving := by
      intro other hother
      rcases List.mem_append.mp hother with hother | hother
      · exact List.mem_append_left _ ((hclients other).mp hother).1
      · rcases hleaving other hother with hother | rfl
        · exact List.mem_append_right _ hother
        · exact List.mem_append_left _ hmem
    constructor
    case running =>
      rw [hregistry, ServerClients.shuttingDown_clientDisconnected]
      exact h.running
    case known =>
      exact fun other hother => hconnections other
        (h.known other (hall other hother))
    case apart =>
      intro other hother hclient
      obtain ⟨hclient, hne⟩ := (hclients other).mp hclient
      rcases hleaving other hother with hother | rfl
      · exact h.apart other hother hclient
      · exact hne rfl
    case accepted =>
      intro other hother
      obtain ⟨hknown, hout⟩ := h.accepted other (hlistening other hother)
      exact ⟨hconnections other hknown, fun hin => hout (hall other hin)⟩
  · have hsame := ServerClients.clientDisconnected_of_not_mem hmem
    exact h.congr (hregistry.trans hsame) (hdropped ▸ List.Subset.refl _)
      hconnections hlistening

/-- `clientConnected` puts the client of the listen thread on the list. -/
theorem connected {id : Nat} (h : Consistent s)
    (hid : s.listening.id? = some id)
    (hregistry : next.registry = s.registry.clientConnected id)
    (hdropped : next.cleanup.dropped = s.cleanup.dropped)
    (hconnections : next.connections = s.connections)
    (hlistening : next.listening.id? = none) : Consistent next := by
  obtain ⟨hknown, hout⟩ := h.accepted id hid
  rw [List.mem_append, not_or] at hout
  have hleaving : next.leaving = s.leaving := by
    rw [Lifecycle.leaving, hregistry, hdropped]
    rfl
  have hclients : next.registry.clients = s.registry.clients ++ [id] := by
    rw [hregistry]
    rfl
  constructor
  case running =>
    rw [hregistry]
    exact h.running
  case known =>
    intro other hother
    rw [hconnections]
    rw [hclients, hleaving] at hother
    rcases List.mem_append.mp hother with hother | hother
    · rcases List.mem_append.mp hother with hother | hother
      · exact h.known other (List.mem_append_left _ hother)
      · rw [List.mem_singleton.mp hother]
        exact hknown
    · exact h.known other (List.mem_append_right _ hother)
  case apart =>
    intro other hother hclient
    rw [hleaving] at hother
    rw [hclients] at hclient
    rcases List.mem_append.mp hclient with hclient | hclient
    · exact h.apart other hother hclient
    · rw [List.mem_singleton.mp hclient] at hother
      exact hout.2 hother
  case accepted =>
    intro other hother
    rw [hlistening] at hother
    cases hother

/-- The next client is dropped from the queue. -/
theorem popped {id : Nat} {disconnected : List Nat} (h : Consistent s)
    (hcleanup : s.cleanup = .test)
    (hqueue : s.registry.disconnected = id :: disconnected)
    (hregistry : next.registry = { s.registry with
      disconnected := disconnected
      totalClients := s.registry.totalClients - 1 })
    (hdropped : next.cleanup.dropped = [id])
    (hconnections : next.connections = s.connections)
    (hlistening : next.listening = s.listening) : Consistent next := by
  have hleaving : ∀ other, other ∈ next.leaving ↔ other ∈ s.leaving := by
    intro other
    rw [Lifecycle.leaving, Lifecycle.leaving, hregistry, hdropped, hcleanup,
      hqueue, List.mem_append, List.mem_append]
    simp [CleanupAt.dropped, or_comm]
  have hclients : next.registry.clients = s.registry.clients := by
    rw [hregistry]
  have hall : ∀ other, other ∈ next.registry.clients ++ next.leaving ↔
      other ∈ s.registry.clients ++ s.leaving := by
    intro other
    rw [List.mem_append, List.mem_append, hleaving, hclients]
  constructor
  case running =>
    rw [hregistry]
    exact h.running
  case known =>
    intro other hother
    rw [hconnections]
    exact h.known other ((hall other).mp hother)
  case apart =>
    intro other hother
    rw [hclients]
    exact h.apart other ((hleaving other).mp hother)
  case accepted =>
    intro other hother
    rw [hlistening] at hother
    obtain ⟨hknown, hout⟩ := h.accepted other hother
    rw [hconnections]
    exact ⟨hknown, fun hin => hout ((hall other).mp hin)⟩

end Consistent

/-- What is looked up for a client and sent does not make it leave. -/
theorem clientDisconnected_not_mem_of_lookups {name : Bytes}
    {effects : List Effect} (h : ∀ e ∈ effects, ∃ msg, e = .sendLookup name msg) :
    .clientDisconnected ∉ effects := by
  intro hmem
  obtain ⟨msg, heq⟩ := h _ hmem
  cases heq

theorem clientDisconnected_mem_processIdentity (env : Env) (c : FssClient)
    (name : Bytes) :
    .clientDisconnected ∈ (c.processIdentity env name).2 ↔
      ¬ (c.clientNames = [] ∨ name ∈ c.clientNames) := by
  by_cases hlisted : c.clientNames = [] ∨ name ∈ c.clientNames
  · have hcommand := (sendCommand_spec env
      { c with name := name, identified := true, aircraft := true }).2
    have hsettings := (sendSmmSettings_spec env (FssClient.sendCommand env
      { c with name := name, identified := true, aircraft := true }).1).2
    simp only [FssClient.processIdentity, hlisted, ↓reduceIte, List.mem_append,
      List.mem_singleton, reduceCtorEq, or_false, not_true_eq_false, iff_false]
    rintro (hmem | hmem)
    · exact clientDisconnected_not_mem_of_lookups hcommand hmem
    · exact clientDisconnected_not_mem_of_lookups hsettings hmem
  · simp [FssClient.processIdentity, hlisted]

theorem clientDisconnected_not_mem_processIdentified (env : Env)
    (c : FssClient) (m : FssMessage) :
    .clientDisconnected ∉ (c.processIdentified env m).2 := by
  unfold FssClient.processIdentified
  split
  · simp
  · split
    · split <;> simp
    · simp
  · split <;> simp
  · split <;> simp
  · split <;> simp
  · simp

/-- A message makes a client leave if and only if it says so. -/
theorem clientDisconnected_mem_iff (env : Env) (c : FssClient)
    (msg : Option FssMessage) :
    .clientDisconnected ∈ (c.processMessage env msg).2 ↔
      c.leaves msg = true := by
  cases msg with
  | none => simp [FssClient.processMessage, FssClient.leaves]
  | some m =>
      obtain ⟨id, type, body⟩ := m
      cases hc : c.identified with
      | true =>
          cases type with
          | closed => simp [FssClient.processMessage, FssClient.leaves]
          | identity =>
              cases body <;> simp [FssClient.processMessage, FssClient.leaves,
                FssClient.processIdentified, hc]
          | _ =>
              simp [FssClient.processMessage, FssClient.leaves, hc,
                clientDisconnected_not_mem_processIdentified]
      | false =>
          cases type with
          | closed => simp [FssClient.processMessage, FssClient.leaves]
          | identity =>
              cases body with
              | identity name =>
                  simp [FssClient.processMessage, FssClient.processUnidentified,
                    FssClient.leaves, hc,
                    clientDisconnected_mem_processIdentity]
              | _ =>
                  simp [FssClient.processMessage, FssClient.processUnidentified,
                    FssClient.leaves, hc]
          | _ =>
              simp [FssClient.processMessage, FssClient.processUnidentified,
                FssClient.leaves, hc]

/-- Where a receive loop goes. -/
inductive LoopGoes (conn : Served) : ReceiveAt → Prop where
  | handled {msg : Option FssMessage} (test : conn.receiving = .test msg)
      (handler : conn.handler = true) : LoopGoes conn (.process msg)
  | unhandled {msg : Option FssMessage} (test : conn.receiving = .test msg)
      (handler : conn.handler = false) : LoopGoes conn (.push msg)
  | pushed {msg : Option FssMessage} (push : conn.receiving = .push msg) :
      LoopGoes conn (.afterwards msg)
  | leaving {msg : Option FssMessage} (process : conn.receiving = .process msg)
      (leaves : conn.client.leaves msg = true) : LoopGoes conn (.lock msg)
  | processed {msg : Option FssMessage}
      (process : conn.receiving = .process msg)
      (stays : conn.client.leaves msg = false) :
      LoopGoes conn (.afterwards msg)
  | locked {msg : Option FssMessage} (lock : conn.receiving = .lock msg) :
      LoopGoes conn (.unlock msg)
  | unlocked {msg : Option FssMessage} (unlock : conn.receiving = .unlock msg) :
      LoopGoes conn (.afterwards msg)

/-- What a step of a receive loop changes. -/
structure LoopTaken (s next : Lifecycle) (id : Nat) (conn conn' : Served) :
    Prop where
  connections : next.connections = (s.setConnection id conn').connections
  usable : conn'.usable = conn.usable
  handler : conn'.handler = conn.handler
  goes : LoopGoes conn conn'.receiving
  listening : next.listening = s.listening
  cleanup : next.cleanup = s.cleanup
  registry : next.registry = s.registry ∧ (∀ msg, conn.receiving ≠ .unlock msg) ∨
    next.registry = s.registry.clientDisconnected id

theorem taken_of_loop {s next : Lifecycle} {id : Nat} {conn : Served}
    {env : Env} {out : List Effect}
    (h : s.loop id conn env = some (next, out)) :
    ∃ conn', LoopTaken s next id conn conn' := by
  unfold Lifecycle.loop at h
  split at h
  · cases h
  · cases h
  · next msg htest =>
      split at h
      · next hhandler =>
          cases h
          exact ⟨_, rfl, rfl, rfl, .handled htest hhandler, rfl, rfl,
            .inl ⟨rfl, by simp [htest]⟩⟩
      · next hhandler =>
          cases h
          exact ⟨_, rfl, rfl, rfl, .unhandled htest (by simpa using hhandler),
            rfl, rfl, .inl ⟨rfl, by simp [htest]⟩⟩
  · next msg hpush =>
      cases h
      exact ⟨_, rfl, rfl, rfl, .pushed hpush, rfl, rfl,
        .inl ⟨rfl, by simp [hpush]⟩⟩
  · next msg hprocess =>
      split at h
      next client effects hwork =>
        have hleaves := clientDisconnected_mem_iff env conn.client msg
        rw [hwork] at hleaves
        split at h
        · next hmem =>
            cases h
            exact ⟨_, rfl, rfl, rfl, .leaving hprocess (hleaves.mp hmem), rfl,
              rfl, .inl ⟨rfl, by simp [hprocess]⟩⟩
        · next hmem =>
            cases h
            rw [hleaves, Bool.not_eq_true] at hmem
            exact ⟨_, rfl, rfl, rfl, .processed hprocess hmem, rfl, rfl,
              .inl ⟨rfl, by simp [hprocess]⟩⟩
  · next msg hlock =>
      split at h
      · cases h
        exact ⟨_, rfl, rfl, rfl, .locked hlock, rfl, rfl,
          .inl ⟨rfl, by simp [hlock]⟩⟩
      · cases h
  · next msg hunlock =>
      cases h
      exact ⟨_, rfl, rfl, rfl, .unlocked hunlock, rfl, rfl, .inr rfl⟩

/-- A connection is only accepted under a new number. -/
theorem of_step_accept {s next : Lifecycle} {id : Nat}
    {clientNames : List Bytes} {usable : Bool} {out : List Effect}
    (h : s.step (.accept id clientNames usable) = some (next, out)) :
    s.connections id = none ∧ ∃ conn,
      next = { s.setConnection id conn with listening := .storeHandler id } := by
  rw [Lifecycle.step] at h
  split at h
  · next hlistening hfresh =>
      cases h
      exact ⟨hfresh, _, rfl⟩
  · cases h

theorem of_step_receive {s next : Lifecycle} {id : Nat}
    {msg : Option FssMessage} {out : List Effect}
    (h : s.step (.receive id msg) = some (next, out)) :
    ∃ conn, s.connections id = some conn ∧ conn.receiving = .receive ∧
      next = s.receiveAt id conn (.test msg) := by
  rw [Lifecycle.step] at h
  split at h
  · cases h
  · next conn hfound =>
      split at h
      · next hreceive =>
          cases h
          exact ⟨conn, hfound, hreceive, rfl⟩
      · cases h

theorem of_step_loop {s next : Lifecycle} {id : Nat} {env : Env}
    {out : List Effect} (h : s.step (.loop id env) = some (next, out)) :
    ∃ conn conn', s.connections id = some conn ∧
      LoopTaken s next id conn conn' := by
  rw [Lifecycle.step] at h
  split at h
  · cases h
  · next conn hfound =>
      obtain ⟨conn', htaken⟩ := taken_of_loop h
      exact ⟨conn, conn', hfound, htaken⟩

/-- What a step of the listen thread changes: the connection it works on, the
registry, or only how far it is. -/
inductive ListenTaken (s next : Lifecycle) : Prop where
  | works {id : Nat} {conn conn' : Served} (place : s.listening.id? = some id)
      (found : s.connections id = some conn)
      (connections : next.connections = (s.setConnection id conn').connections)
      (usable : conn'.usable = conn.usable)
      (receiving : conn'.receiving = conn.receiving)
      (handler : conn'.handler = true ∨
        s.listening.Stored ∧ conn'.handler = conn.handler)
      (listening : next.listening.id? = some id)
      (registry : next.registry = s.registry)
      (cleanup : next.cleanup = s.cleanup)
  | goesOn {id : Nat} (place : s.listening.id? = some id)
      (stored : s.listening.Stored)
      (connections : next.connections = s.connections)
      (listening : next.listening.id? = some id)
      (registry : next.registry = s.registry ∨
        next.registry = s.registry.clientDisconnected id)
      (cleanup : next.cleanup = s.cleanup)
  | registers {id : Nat} (place : s.listening = .unlockConnected id)
      (connections : next.connections = s.connections)
      (listening : next.listening = .accept)
      (registry : next.registry = s.registry.clientConnected id)
      (cleanup : next.cleanup = s.cleanup)

theorem taken_of_listen {s next : Lifecycle} {env : Env} {out : List Effect}
    (h : s.listen env = some (next, out)) : ListenTaken s next := by
  unfold Lifecycle.listen at h
  split at h
  · cases h
  · next id hplace =>
      split at h
      · cases h
      · next conn hfound =>
          cases h
          exact .works (by rw [hplace]; rfl) hfound rfl rfl rfl (.inl rfl) rfl
            rfl rfl
  · next id hplace =>
      have hid : s.listening.id? = some id := by rw [hplace]; rfl
      have hstored : s.listening.Stored := by rw [hplace]; trivial
      split at h
      · cases h
      · split at h
        · cases h
          exact .goesOn hid hstored rfl rfl (.inl rfl) rfl
        · cases h
          exact .goesOn hid hstored rfl rfl (.inl rfl) rfl
  · next id hplace =>
      have hstored : s.listening.Stored := by rw [hplace]; trivial
      split at h
      · next hfound =>
          cases h
          exact .works (by rw [hplace]; rfl) hfound rfl rfl rfl
            (.inr ⟨hstored, rfl⟩) rfl rfl rfl
      · cases h
  · next id msg hplace =>
      have hid : s.listening.id? = some id := by rw [hplace]; rfl
      have hstored : s.listening.Stored := by rw [hplace]; trivial
      split at h
      · cases h
      · next conn hfound =>
          dsimp only at h
          split at h
          · cases h
            exact .works hid hfound rfl rfl rfl (.inr ⟨hstored, rfl⟩) rfl rfl rfl
          · cases h
            exact .works hid hfound rfl rfl rfl (.inr ⟨hstored, rfl⟩) rfl rfl rfl
  · next id hplace =>
      have hid : s.listening.id? = some id := by rw [hplace]; rfl
      have hstored : s.listening.Stored := by rw [hplace]; trivial
      split at h
      · cases h
        exact .goesOn hid hstored rfl rfl (.inl rfl) rfl
      · cases h
  · next id hplace =>
      have hid : s.listening.id? = some id := by rw [hplace]; rfl
      have hstored : s.listening.Stored := by rw [hplace]; trivial
      cases h
      exact .goesOn hid hstored rfl rfl (.inr rfl) rfl
  · next id hplace =>
      have hid : s.listening.id? = some id := by rw [hplace]; rfl
      have hstored : s.listening.Stored := by rw [hplace]; trivial
      split at h
      · cases h
        exact .goesOn hid hstored rfl rfl (.inl rfl) rfl
      · cases h
  · next id hplace =>
      cases h
      exact .registers hplace rfl rfl rfl rfl

/-- What a step of the clean-up changes: the connection of the client that is
dropped, the queue, or only how far it is. -/
inductive CleanupTaken (s next : Lifecycle) : Prop where
  | works {id : Nat} {conn conn' : Served}
      (place : s.cleanup = .clearHandler id ∧ conn'.handler = false ∧
          next.cleanup = .disconnect id ∨
        s.cleanup = .disconnect id ∧ conn'.handler = conn.handler ∧
          next.cleanup = .join id)
      (found : s.connections id = some conn)
      (connections : next.connections = (s.setConnection id conn').connections)
      (receiving : conn'.receiving = conn.receiving)
      (client : conn'.client = conn.client)
      (registry : next.registry = s.registry)
      (listening : next.listening = s.listening)
  | pops {id : Nat} {disconnected : List Nat} (place : s.cleanup = .test)
      (queue : s.registry.disconnected = id :: disconnected)
      (connections : next.connections = s.connections)
      (cleanup : next.cleanup = .clearHandler id)
      (registry : next.registry = { s.registry with
        disconnected := disconnected
        totalClients := s.registry.totalClients - 1 })
      (listening : next.listening = s.listening)
  | goesOn (connections : next.connections = s.connections)
      (before : s.cleanup.dropped = [] ∨ ∃ id conn, s.cleanup = .join id ∧
        s.connections id = some conn ∧ conn.receiving = .ended)
      (after : next.cleanup.dropped = [])
      (registry : next.registry = s.registry)
      (listening : next.listening = s.listening)

theorem taken_of_cleanUp {s next : Lifecycle} {out : List Effect}
    (h : s.cleanUp = some (next, out)) : CleanupTaken s next := by
  unfold Lifecycle.cleanUp at h
  split at h
  · next hplace =>
      cases h
      exact .goesOn rfl (.inl (by rw [hplace]; rfl)) rfl rfl rfl
  · next hplace =>
      split at h
      · cases h
        exact .goesOn rfl (.inl (by rw [hplace]; rfl)) rfl rfl rfl
      · cases h
  · next hplace =>
      split at h
      · cases h
        exact .goesOn rfl (.inl (by rw [hplace]; rfl)) rfl rfl rfl
      · next id disconnected hqueue =>
          cases h
          exact .pops hplace hqueue rfl rfl rfl rfl
  · next id hplace =>
      split at h
      · cases h
      · next conn hfound =>
          cases h
          exact .works (.inl ⟨hplace, rfl, rfl⟩) hfound rfl rfl rfl rfl rfl
  · next id hplace =>
      split at h
      · cases h
      · next conn hfound =>
          cases h
          exact @CleanupTaken.works s _ id conn { conn with usable := false }
            (.inr ⟨hplace, rfl, rfl⟩) hfound rfl rfl rfl rfl rfl
  · next id hplace =>
      split at h
      · cases h
      · next conn hfound =>
          split at h
          · next hended =>
              cases h
              exact .goesOn rfl (.inr ⟨id, conn, hplace, hfound, hended⟩) rfl
                rfl rfl
          · cases h

theorem Consistent.kept {s next : Lifecycle} {e : LifecycleEvent}
    {out : List Effect} (h : Consistent s)
    (hstep : s.step e = some (next, out)) : Consistent next := by
  have hset : ∀ {id : Nat} {conn : Served},
      next.connections = (s.setConnection id conn).connections →
        ∀ other, s.connections other ≠ none → next.connections other ≠ none := by
    intro id conn hnext other hother
    rw [hnext]
    exact Lifecycle.connections_setConnection_ne_none conn hother
  cases e with
  | accept id clientNames usable =>
      obtain ⟨hfresh, conn, rfl⟩ := of_step_accept hstep
      constructor
      case running => exact h.running
      case known => exact fun other hother => hset rfl other (h.known other hother)
      case apart => exact h.apart
      case accepted =>
        intro other hother
        cases hother
        refine ⟨?_, fun hin => h.known id hin hfresh⟩
        change (s.setConnection id conn).connections id ≠ none
        rw [Lifecycle.connections_setConnection]
        exact Option.some_ne_none conn
  | receive id msg =>
      obtain ⟨conn, -, -, rfl⟩ := of_step_receive hstep
      exact h.congr rfl (List.Subset.refl _) (hset rfl) fun _ hid => hid
  | loop id env =>
      obtain ⟨conn, conn', -, htaken⟩ := of_step_loop hstep
      have hlistening : ∀ other, next.listening.id? = some other →
          s.listening.id? = some other := by
        rw [htaken.listening]
        exact fun _ hid => hid
      rcases htaken.registry with ⟨hregistry, -⟩ | hregistry
      · exact h.congr hregistry (htaken.cleanup ▸ List.Subset.refl _)
          (hset htaken.connections) hlistening
      · exact h.disconnected hregistry (htaken.cleanup ▸ rfl)
          (hset htaken.connections) hlistening
  | listen env =>
      cases taken_of_listen hstep with
      | works place found connections usable receiving handler listening
          registry cleanup =>
          exact h.congr registry (cleanup ▸ List.Subset.refl _)
            (hset connections) fun other hother => by
              rw [place, ← listening, hother]
      | goesOn place stored connections listening registry cleanup =>
          have hsame : ∀ other, s.connections other ≠ none →
              next.connections other ≠ none := by
            rw [connections]
            exact fun _ hother => hother
          have hlistening : ∀ other, next.listening.id? = some other →
              s.listening.id? = some other := by
            rw [listening, place]
            exact fun _ hother => hother
          rcases registry with registry | registry
          · exact h.congr registry (cleanup ▸ List.Subset.refl _) hsame
              hlistening
          · exact h.disconnected registry (cleanup ▸ rfl) hsame hlistening
      | registers place connections listening registry cleanup =>
          exact h.connected (by rw [place]; rfl) registry (cleanup ▸ rfl)
            connections (by rw [listening]; rfl)
  | cleanup =>
      cases taken_of_cleanUp hstep with
      | works place found connections receiving client registry listening =>
          refine h.congr registry ?_ (hset connections) fun other hother => by
            rw [← listening, hother]
          rcases place with ⟨before, -, after⟩ | ⟨before, -, after⟩
          · rw [before, after]
            exact List.Subset.refl _
          · rw [before, after]
            exact List.Subset.refl _
      | pops place queue connections cleanup registry listening =>
          exact h.popped place queue registry (by rw [cleanup]; rfl)
            connections listening
      | goesOn connections before after registry listening =>
          refine h.congr registry (by rw [after]; exact List.nil_subset _) ?_
            fun other hother => by rw [← listening, hother]
          rw [connections]
          exact fun _ hother => hother

end FlightSafety.Server
