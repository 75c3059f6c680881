/-
The operations of a client as a whole, each done without anything in between.
They are runs of the statements that make them up.
-/
import FlightSafety.Client.Bookkeeping

namespace FlightSafety.Client

open Octets Machine

/-- An attempt to connect: the time at which it is considered, and whether it
succeeds if it is made. -/
structure Attempt where
  ts : UInt64
  connects : Bool
deriving Repr, DecidableEq

namespace FssServer

/-- The elapsed time asks for an attempt. -/
def due (s : FssServer) (ts : UInt64) : Bool :=
  ts - s.lastTried > s.retryDelay

/-- `fss_server::reconnect`.  A connection is dropped whether or not an attempt
is due. -/
def reconnect (s : FssServer) (attempt : Attempt) : FssServer × Bool :=
  let due := s.due attempt.ts
  let s := s.clearConnection
  if due then
    let s := (s.tried attempt.ts).setConnection .constructed
    if attempt.connects then
      let s := (s.setConnection .connected).setConnection .handled
      (s.succeeded, true)
    else (s.clearConnection, false)
  else (s, false)

variable {s : FssServer} {attempt : Attempt}

theorem reconnect_of_due (h : s.due attempt.ts = true) :
    s.reconnect attempt =
      if attempt.connects then
        (((s.tried attempt.ts).setConnection .handled).succeeded, true)
      else ((s.tried attempt.ts).clearConnection, false) := by
  simp only [reconnect, h, ↓reduceIte]
  rfl

theorem reconnect_of_not_due (h : s.due attempt.ts = false) :
    s.reconnect attempt = (s.clearConnection, false) := by
  simp only [reconnect, h, Bool.false_eq_true, ↓reduceIte]

/-- An attempt succeeds when it is made and connects. -/
theorem reconnect_result :
    (s.reconnect attempt).2 = (s.due attempt.ts && attempt.connects) := by
  cases hdue : s.due attempt.ts with
  | true =>
      rw [reconnect_of_due hdue]
      cases attempt.connects with
      | true => rfl
      | false => rfl
  | false =>
      rw [reconnect_of_not_due hdue]
      rfl

theorem reconnect_returns :
    (s.reconnect attempt).2 = true ↔
      (s.reconnect attempt).1.connected = true := by
  cases hdue : s.due attempt.ts with
  | true =>
      rw [reconnect_of_due hdue]
      cases attempt.connects with
      | true => exact iff_of_true rfl rfl
      | false => exact iff_of_false Bool.false_ne_true Bool.false_ne_true
  | false =>
      rw [reconnect_of_not_due hdue]
      exact iff_of_false Bool.false_ne_true Bool.false_ne_true

theorem reconnect_restores (h : (s.reconnect attempt).2 = true) :
    (s.reconnect attempt).1.retryDelay = retryDelayStart := by
  cases hdue : s.due attempt.ts with
  | true =>
      rw [reconnect_of_due hdue] at h ⊢
      cases hconnects : attempt.connects with
      | true => rfl
      | false =>
          rw [hconnects] at h
          cases h
  | false =>
      rw [reconnect_of_not_due hdue] at h
      cases h

end FssServer

namespace FssClient

def addServer (c : FssClient) (id : Nat) : FssClient :=
  if (c.server id).connected then { c with servers := c.servers ++ [id] }
  else { c with reconnectServers := c.reconnectServers ++ [id] }

/-- `connect` asks for an attempt of the new server. -/
def connectTo (c : FssClient) (address : Bytes) (port : UInt16)
    (connect : Option Attempt) : FssClient :=
  let id := c.created
  let c := c.create address port
  let c :=
    match connect with
    | none => c
    | some attempt => c.modify id fun s => (s.reconnect attempt).1
  c.addServer id

def updateServer (c : FssClient) (entry : Bytes × UInt16) : FssClient :=
  if c.serverListMatches c.servers entry then c
  else if c.serverListMatches c.reconnectServers entry then c
  else c.connectTo entry.1 entry.2 none

def updateServers (c : FssClient) (entries : List (Bytes × UInt16)) :
    FssClient :=
  entries.foldl updateServer c

/-- The first loop of `attemptReconnect`, with the servers it reconnects. -/
def reconnectAll (c : FssClient) (attempts : Nat → Attempt) :
    List Nat → FssClient × List Nat
  | [] => (c, [])
  | id :: ids =>
      let connected := ((c.server id).reconnect (attempts id)).2
      let c := c.modify id fun s => (s.reconnect (attempts id)).1
      let (c, reconnected) := c.reconnectAll attempts ids
      (c, if connected then id :: reconnected else reconnected)

/-- The second loop moves the servers that were reconnected. -/
def moveServers (c : FssClient) (reconnected : List Nat) : FssClient :=
  reconnected.foldl (fun c id =>
    { c with
      reconnectServers := c.reconnectServers.filter (· ≠ id)
      servers := c.servers ++ [id] }) c

/-- The status is announced if any server was reconnected. -/
def attemptReconnect (c : FssClient) (attempts : Nat → Attempt) :
    FssClient × List ConnectionStatus :=
  let (c, reconnected) := c.reconnectAll attempts c.reconnectServers
  let c := c.moveServers reconnected
  (c, if reconnected = [] then [] else [c.connectionStatus])

end FssClient

inductive Operation where
  | connectTo (address : Bytes) (port : UInt16) (connect : Option Attempt)
  | attemptReconnect (attempts : Nat → Attempt)
  | updateServers (entries : List (Bytes × UInt16))
  | closed (id : Nat)

/-- One operation, with the statuses it announces. -/
def FssClient.operate : Step FssClient Operation ConnectionStatus
  | c, .connectTo address port connect => some (c.connectTo address port connect, [])
  | c, .attemptReconnect attempts => some (c.attemptReconnect attempts)
  | c, .updateServers entries => some (c.updateServers entries, [])
  | c, .closed id => c.closed id

/-! Each operation is a run of its statements. -/

section Statements

variable {c : FssClient}

@[simp] theorem FssClient.modify_modify (id : Nat) (f g : FssServer → FssServer) :
    (c.modify id f).modify id g = c.modify id fun s => g (f s) := by
  unfold modify
  congr 1
  funext id'
  by_cases hid : id' = id
  · simp [hid]
  · simp [hid]

theorem FssClient.modify_congr {id : Nat} {f g : FssServer → FssServer}
    (h : f (c.server id) = g (c.server id)) : c.modify id f = c.modify id g := by
  unfold modify
  congr 1
  funext id'
  by_cases hid : id' = id
  · simp only [hid, ↓reduceIte, h]
  · simp only [hid, ↓reduceIte]

/-- A way to a state in which one server has become what `reconnect` makes of
it. -/
theorem leads_of_reconnect {s : ClientState} {caller : Caller} {id : Nat}
    {attempt : Attempt} {f : FssServer → FssServer} {result : Bool}
    (h : Leads ClientState.step s [] ⟨c.modify id f, caller.goesOn id result⟩)
    (hresult : (c.server id).reconnect attempt = (f (c.server id), result)) :
    Leads ClientState.step s []
      ⟨c.modify id fun s => (s.reconnect attempt).1,
        caller.goesOn id ((c.server id).reconnect attempt).2⟩ := by
  have hsame : (c.modify id fun s => (s.reconnect attempt).1) = c.modify id f :=
    FssClient.modify_congr (congrArg Prod.fst hresult)
  rw [hsame, hresult]
  exact h

/-- The statements of an attempt that is due, from the one that connects. -/
theorem leads_attempt (caller : Caller) (id : Nat) (attempt : Attempt) :
    Leads ClientState.step ⟨c, .reconnect caller id .connectTo⟩ []
      ⟨c.modify id fun s =>
          if attempt.connects then (s.setConnection .handled).succeeded
          else s.clearConnection,
        caller.goesOn id attempt.connects⟩ := by
  have hconnectTo : ClientState.step ⟨c, .reconnect caller id .connectTo⟩
      (.advance attempt.ts attempt.connects) = _ := rfl
  cases hconnects : attempt.connects with
  | false =>
      rw [hconnects] at hconnectTo
      apply Leads.quiet _ hconnectTo
      exact .quiet (.advance 0 false) rfl (.refl _)
  | true =>
      rw [hconnects] at hconnectTo
      have hhandler : ClientState.step
          ⟨c.modify id (·.setConnection .connected),
            .reconnect caller id .setHandler⟩ (.advance 0 true) =
          some (⟨c.modify id (·.setConnection .handled),
            .reconnect caller id .succeed⟩, []) := by
        simp only [ClientState.step, FssClient.advance, FssClient.reconnect,
          FssClient.setHandler, FssClient.server_modify_self,
          FssServer.setConnection, FssClient.modify_modify]
      apply Leads.quiet _ hconnectTo
      apply Leads.quiet _ hhandler
      apply Leads.quiet (.advance 0 true) rfl
      rw [FssClient.modify_modify]
      exact .refl _

/-- The statements of `reconnect`, for whoever called it. -/
theorem leads_reconnect (caller : Caller) (id : Nat) (attempt : Attempt) :
    Leads ClientState.step ⟨c, .reconnect caller id .start⟩ []
      ⟨c.modify id fun s => (s.reconnect attempt).1,
        caller.goesOn id ((c.server id).reconnect attempt).2⟩ := by
  apply Leads.quiet (.advance attempt.ts attempt.connects) rfl
  cases hdue : (c.server id).due attempt.ts with
  | true =>
      have helapsed : attempt.ts - (c.server id).lastTried >
          ((c.modify id (·.clearConnection)).server id).retryDelay := by
        rw [FssClient.server_modify_self]
        exact of_decide_eq_true hdue
      have hcheck : ClientState.step ⟨c.modify id (·.clearConnection),
          .reconnect caller id (.checkElapsed attempt.ts
            (attempt.ts - (c.server id).lastTried))⟩ (.advance 0 true) =
          some (⟨c.modify id fun s => s.clearConnection.tried attempt.ts,
            .reconnect caller id .setConnection⟩, []) := by
        simp only [ClientState.step, FssClient.advance, FssClient.reconnect,
          helapsed, ↓reduceIte, FssClient.modify_modify]
      have hattempt := @leads_attempt (c.modify id fun s =>
        (s.clearConnection.tried attempt.ts).setConnection .constructed)
        caller id attempt
      have hresult := FssServer.reconnect_of_due hdue
      apply Leads.quiet _ hcheck
      apply Leads.quiet (.advance 0 true) rfl
      rw [FssClient.modify_modify] at hattempt ⊢
      cases hconnects : attempt.connects with
      | false =>
          simp only [hconnects, Bool.false_eq_true, ↓reduceIte] at hattempt hresult
          exact leads_of_reconnect hattempt hresult
      | true =>
          simp only [hconnects, ↓reduceIte] at hattempt hresult
          exact leads_of_reconnect hattempt hresult
  | false =>
      have helapsed : ¬ attempt.ts - (c.server id).lastTried >
          ((c.modify id (·.clearConnection)).server id).retryDelay := by
        rw [FssClient.server_modify_self]
        exact of_decide_eq_false hdue
      have hcheck : ClientState.step ⟨c.modify id (·.clearConnection),
          .reconnect caller id (.checkElapsed attempt.ts
            (attempt.ts - (c.server id).lastTried))⟩ (.advance 0 true) =
          some (⟨c.modify id (·.clearConnection),
            caller.goesOn id false⟩, []) := by
        simp only [ClientState.step, FssClient.advance, FssClient.reconnect,
          helapsed, ↓reduceIte]
      have hresult := FssServer.reconnect_of_not_due hdue
      exact leads_of_reconnect (.quiet _ hcheck (.refl _)) hresult

theorem leads_addServer (id : Nat) (entries : List (Bytes × UInt16)) :
    Leads ClientState.step ⟨c, .addServer id entries⟩ []
      ⟨c.addServer id, .matchServers entries⟩ := by
  apply Leads.quiet (.advance 0 true) rfl
  rw [FssClient.addServer]
  cases (c.server id).connected with
  | true => exact .quiet (.advance 0 true) rfl (.refl _)
  | false => exact .quiet (.advance 0 true) rfl (.refl _)

theorem leads_updateServer (entry : Bytes × UInt16)
    (entries : List (Bytes × UInt16)) :
    Leads ClientState.step ⟨c, .matchServers (entry :: entries)⟩ []
      ⟨c.updateServer entry, .matchServers entries⟩ := by
  unfold FssClient.updateServer
  split
  next hknown =>
      apply Leads.quiet (.advance 0 true) (if_pos hknown)
      exact .refl _
  next hunconnected =>
      apply Leads.quiet (.advance 0 true) (if_neg hunconnected)
      split
      next hknown =>
          apply Leads.quiet (.advance 0 true) (if_pos hknown)
          exact .refl _
      next hnew =>
          apply Leads.quiet (.advance 0 true) (if_neg hnew)
          exact leads_addServer c.created entries

theorem leads_updateServers (entries : List (Bytes × UInt16)) :
    Leads ClientState.step ⟨c, .matchServers entries⟩ []
      ⟨c.updateServers entries, .idle⟩ := by
  induction entries generalizing c with
  | nil => exact .quiet (.advance 0 true) rfl (.refl _)
  | cons entry entries ih => exact (leads_updateServer entry entries).trans ih

theorem leads_connectTo (address : Bytes) (port : UInt16)
    (connect : Option Attempt) :
    Leads ClientState.step ⟨c, .idle⟩ []
      ⟨c.connectTo address port connect, .idle⟩ := by
  have hstart := fun asked => @Leads.quiet _ _ _ ClientState.step ⟨c, .idle⟩
    _ ⟨c.connectTo address port connect, .idle⟩
    (.connectTo address port asked) [] rfl
  cases connect with
  | none =>
      apply hstart false
      exact (leads_addServer c.created []).trans (leads_updateServers [])
  | some attempt =>
      apply hstart true
      apply (leads_reconnect .connectTo c.created attempt).trans
      exact (leads_addServer c.created []).trans (leads_updateServers [])

/-- The first loop leaves both lists alone. -/
theorem FssClient.lists_reconnectAll (attempts : Nat → Attempt) (ids : List Nat) :
    (c.reconnectAll attempts ids).1.servers = c.servers ∧
      (c.reconnectAll attempts ids).1.reconnectServers = c.reconnectServers := by
  induction ids generalizing c with
  | nil => exact ⟨rfl, rfl⟩
  | cons id ids ih => exact @ih (c.modify id fun s => (s.reconnect (attempts id)).1)

/-- The first loop of `attemptReconnect` from the servers that it has not
looked at yet. -/
theorem leads_scan (attempts : Nat → Attempt) {done ids : List Nat}
    (h : c.reconnectServers = done ++ ids) (reconnected : List Nat) :
    Leads ClientState.step ⟨c, .scan done.length reconnected⟩ []
      ⟨(c.reconnectAll attempts ids).1,
        .scan c.reconnectServers.length
          (reconnected ++ (c.reconnectAll attempts ids).2)⟩ := by
  induction ids generalizing c done reconnected with
  | nil =>
      rw [List.append_nil] at h
      rw [h, FssClient.reconnectAll, List.append_nil]
      exact .refl _
  | cons id ids ih =>
      have hindex : c.reconnectServers[done.length]? = some id := by
        rw [h, List.getElem?_append_right (Nat.le_refl _), Nat.sub_self]
        rfl
      have hfound : ClientState.step ⟨c, .scan done.length reconnected⟩
          (.advance 0 true) = some (⟨c, .reconnect
            (.attemptReconnect done.length reconnected) id .start⟩, []) := by
        simp only [ClientState.step, FssClient.advance, hindex]
      have hrest := @ih (c.modify id fun s => (s.reconnect (attempts id)).1)
        (done ++ [id]) (h.trans (List.append_cons done id ids)) (if ((c.server id).reconnect (attempts id)).2 then
          reconnected ++ [id] else reconnected)
      apply Leads.quiet _ hfound
      apply (leads_reconnect _ id (attempts id)).trans
      rw [List.length_append] at hrest
      rw [FssClient.reconnectAll]
      cases hconnected : ((c.server id).reconnect (attempts id)).2 with
      | false =>
          rw [hconnected] at hrest
          exact hrest
      | true =>
          rw [hconnected, if_pos rfl, List.append_assoc] at hrest
          exact hrest

/-- The second loop. -/
theorem leads_move (reconnected : List Nat) :
    Leads ClientState.step ⟨c, .move reconnected⟩
      [(c.moveServers reconnected).connectionStatus]
      ⟨c.moveServers reconnected, .idle⟩ := by
  induction reconnected generalizing c with
  | nil =>
      have hend : ClientState.step ⟨c, .move []⟩ (.advance 0 true) =
          some (⟨c, .idle⟩, [c.connectionStatus]) := rfl
      exact .cons _ hend (.refl _)
  | cons id reconnected ih =>
      apply Leads.quiet (.advance 0 true) rfl
      apply Leads.quiet (.advance 0 true) rfl
      exact .quiet (.advance 0 true) rfl ih

theorem leads_attemptReconnect (attempts : Nat → Attempt) :
    Leads ClientState.step ⟨c, .idle⟩ (c.attemptReconnect attempts).2
      ⟨(c.attemptReconnect attempts).1, .idle⟩ := by
  apply Leads.quiet .attemptReconnect rfl
  have hscan := leads_scan attempts (List.nil_append c.reconnectServers).symm
  apply (hscan []).trans
  obtain ⟨_, hlists⟩ := c.lists_reconnectAll attempts c.reconnectServers
  rw [List.nil_append, FssClient.attemptReconnect]
  generalize c.reconnectAll attempts c.reconnectServers = after at hlists ⊢
  rw [← hlists]
  have hend : ClientState.step
      ⟨after.1, .scan after.1.reconnectServers.length after.2⟩
      (.advance 0 true) =
      if after.2 = [] then some (⟨after.1, .idle⟩, [])
      else some (⟨after.1, .move after.2⟩, []) := by
    simp only [ClientState.step, FssClient.advance, List.getElem?_length]
  change Leads ClientState.step _ (if after.2 = [] then []
    else [(after.1.moveServers after.2).connectionStatus])
    ⟨after.1.moveServers after.2, .idle⟩
  split
  next hnone =>
      rw [if_pos hnone] at hend
      rw [hnone]
      rw [hnone] at hend
      exact .quiet _ hend (.refl _)
  next hsome =>
      rw [if_neg hsome] at hend
      exact .quiet _ hend (leads_move after.2)

end Statements

/-- An operation is a run of its statements from idle to idle, with the same
statuses announced. -/
theorem leads_operate {c c' : FssClient} {op : Operation}
    {outs : List ConnectionStatus} (h : c.operate op = some (c', outs)) :
    Leads ClientState.step ⟨c, .idle⟩ outs ⟨c', .idle⟩ := by
  cases op with
  | connectTo address port connect =>
      cases h
      exact leads_connectTo address port connect
  | attemptReconnect attempts =>
      cases h
      exact leads_attemptReconnect attempts
  | updateServers entries =>
      cases h
      exact .quiet (.updateServers entries) rfl (leads_updateServers entries)
  | closed id =>
      have hclosed : ClientState.step ⟨c, .idle⟩ (.closed id) =
          some (⟨c', .idle⟩, outs) := by
        simp only [ClientState.step, show c.closed id = some (c', outs) from h]
      have hend := Leads.cons _ hclosed (.refl _)
      rwa [List.append_nil] at hend

end FlightSafety.Client
