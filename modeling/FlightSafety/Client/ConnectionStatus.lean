/-
The connection status that a client has announced last and the one it has.
Whoever changes `servers` has to announce the status; `connectTo` with an
immediate attempt does not.
-/
import FlightSafety.Client.LearnServers
import Mathlib.Tactic.IntervalCases

namespace FlightSafety.Client

open Octets Machine

/-- The status announced last.  Before any it is taken to be disconnected. -/
def announced (past : List ConnectionStatus) : ConnectionStatus :=
  past.getLast?.getD .disconnected

/-- The status announced last is the one that the number of servers gives. -/
def StatusFresh (c : FssClient) (past : List ConnectionStatus) : Prop :=
  announced past = c.connectionStatus

instance (c : FssClient) (past : List ConnectionStatus) :
    Decidable (StatusFresh c past) :=
  inferInstanceAs (Decidable (announced past = c.connectionStatus))

/-- A new server is connected at once while fewer than two are. -/
def ConnectsSilently (c : FssClient) : Operation → Prop
  | .connectTo _ _ (some attempt) =>
      retryDelayStart < attempt.ts ∧ attempt.connects = true ∧
        c.servers.length < 2
  | _ => False

instance (c : FssClient) : (op : Operation) → Decidable (ConnectsSilently c op)
  | .connectTo _ _ (some attempt) =>
      inferInstanceAs (Decidable (retryDelayStart < attempt.ts ∧
        attempt.connects = true ∧ c.servers.length < 2))
  | .connectTo _ _ none => .isFalse id
  | .attemptReconnect _ => .isFalse id
  | .updateServers _ => .isFalse id
  | .closed _ => .isFalse id

@[simp] theorem announced_concat (past : List ConnectionStatus)
    (status : ConnectionStatus) : announced (past ++ [status]) = status := by
  rw [announced, List.getLast?_concat]
  rfl

namespace FssClient

variable {c c' : FssClient}

theorem connectionStatus_congr (h : c'.servers = c.servers) :
    c'.connectionStatus = c.connectionStatus := by
  rw [connectionStatus, h, connectionStatus]

@[simp] theorem servers_updateServers (entries : List (Bytes × UInt16)) :
    (c.updateServers entries).servers = c.servers := by
  induction entries generalizing c with
  | nil => rfl
  | cons entry entries ih =>
      change ((c.updateServer entry).updateServers entries).servers = c.servers
      by_cases hmem : entry ∈ c.known
      · rw [updateServer_of_mem hmem, ih]
      · rw [updateServer_of_not_mem hmem, ih]
        rfl

/-- What a server that has just been created does at its first attempt. -/
theorem due_ofEntry (entry : Bytes × UInt16) (ts : UInt64) :
    (FssServer.ofEntry entry).due ts = decide (retryDelayStart < ts) := by
  have hsince : ts - (FssServer.ofEntry entry).lastTried = ts :=
    UInt64.sub_zero ts
  rw [FssServer.due, hsince]
  rfl

theorem servers_connectTo_some (address : Bytes) (port : UInt16)
    (attempt : Attempt) :
    (c.connectTo address port (some attempt)).servers =
      if retryDelayStart < attempt.ts ∧ attempt.connects = true then
        c.servers ++ [c.created]
      else c.servers := by
  have hserver : ((c.create address port).modify c.created fun s =>
      (s.reconnect attempt).1).server c.created =
        ((FssServer.ofEntry (address, port)).reconnect attempt).1 := by
    rw [server_modify_self, server_create_self c (address, port)]
  have hconnected := @FssServer.reconnect_returns
    (.ofEntry (address, port)) attempt
  rw [FssServer.reconnect_result, due_ofEntry, Bool.and_eq_true,
    decide_eq_true_iff, ← hserver] at hconnected
  rw [connectTo, addServer]
  split
  next hyes =>
      rw [if_pos (hconnected.mpr hyes)]
      rfl
  next hno =>
      rw [if_neg (hno ∘ hconnected.mp)]
      rfl

theorem connectionStatus_of_two_le (h : 2 ≤ c.servers.length) :
    c.connectionStatus = .connected2OrMore := by
  obtain ⟨first, second, rest, hservers⟩ : ∃ first second rest,
      c.servers = first :: second :: rest := by
    match hservers : c.servers, h with
    | first :: second :: rest, _ => exact ⟨first, second, rest, rfl⟩
  rw [connectionStatus, hservers]
  rfl

/-- A server more is another status as long as there are fewer than two. -/
theorem connectionStatus_ne_of_lt_two {id : Nat}
    (h : c.servers.length < 2) (hmore : c'.servers = c.servers ++ [id]) :
    c.connectionStatus ≠ c'.connectionStatus := by
  rw [connectionStatus, connectionStatus, hmore, List.length_append,
    List.length_singleton]
  generalize c.servers.length = count at h
  interval_cases count
  · decide
  · decide

/-- The second loop leaves a client without reconnected servers alone. -/
theorem attemptReconnect_fresh (attempts : Nat → Attempt)
    (past : List ConnectionStatus) (h : StatusFresh c past) :
    StatusFresh (c.attemptReconnect attempts).1
      (past ++ (c.attemptReconnect attempts).2) := by
  have hlists := (c.lists_reconnectAll attempts c.reconnectServers).1
  rw [attemptReconnect]
  generalize c.reconnectAll attempts c.reconnectServers = after at hlists ⊢
  obtain ⟨after, reconnected⟩ := after
  dsimp only
  split
  next hnone =>
      rw [hnone, List.append_nil, StatusFresh, h]
      exact (connectionStatus_congr hlists).symm
  next => exact announced_concat past _

theorem closed_fresh {id : Nat} {past out : List ConnectionStatus}
    (h : StatusFresh c past) (hclosed : c.closed id = some (c', out)) :
    StatusFresh c' (past ++ out) := by
  unfold closed at hclosed
  split at hclosed
  next =>
      cases hclosed
      rw [List.append_nil]
      exact h
  next =>
      cases hclosed
      exact announced_concat past _
  next => cases hclosed

end FssClient

section Steps

variable {c c' : FssClient} {op : Operation} {past out : List ConnectionStatus}

theorem StatusFresh.step (h : StatusFresh c past)
    (hguard : ¬ ConnectsSilently c op) (hstep : c.operate op = some (c', out)) :
    StatusFresh c' (past ++ out) := by
  cases op with
  | connectTo address port connect =>
      cases hstep
      rw [List.append_nil, StatusFresh, h]
      cases connect with
      | none =>
          rw [FssClient.connectTo_none c (address, port)]
          rfl
      | some attempt =>
          have hservers := c.servers_connectTo_some address port attempt
          split at hservers
          next hconnects =>
              have hmany : 2 ≤ c.servers.length := by
                by_contra hfew
                exact hguard ⟨hconnects.1, hconnects.2, Nat.lt_of_not_le hfew⟩
              rw [FssClient.connectionStatus_of_two_le hmany,
                FssClient.connectionStatus_of_two_le]
              rw [hservers, List.length_append]
              exact Nat.le_add_right_of_le hmany
          next => exact (FssClient.connectionStatus_congr hservers).symm
  | attemptReconnect attempts =>
      cases hstep
      exact FssClient.attemptReconnect_fresh attempts past h
  | updateServers entries =>
      cases hstep
      rw [List.append_nil, StatusFresh, h]
      exact (FssClient.connectionStatus_congr (c.servers_updateServers entries)).symm
  | closed id => exact FssClient.closed_fresh h hstep

/-- A server that is connected silently makes the status stale. -/
theorem StatusFresh.broken (h : StatusFresh c past)
    (hguard : ¬ ¬ ConnectsSilently c op)
    (hstep : c.operate op = some (c', out)) : ¬ StatusFresh c' (past ++ out) := by
  have hsilent := not_not.mp hguard
  cases op with
  | connectTo address port connect =>
      cases hstep
      cases connect with
      | none => exact hsilent.elim
      | some attempt =>
          obtain ⟨hts, hconnects, hfew⟩ := hsilent
          have hservers := c.servers_connectTo_some address port attempt
          rw [if_pos ⟨hts, hconnects⟩] at hservers
          rw [List.append_nil, StatusFresh, h]
          exact FssClient.connectionStatus_ne_of_lt_two hfew hservers
  | attemptReconnect attempts => exact hsilent.elim
  | updateServers entries => exact hsilent.elim
  | closed id => exact hsilent.elim

end Steps

/-- The status announced last is fresh after every operation of a run if and
only if no operation connects a new server at once while fewer than two are
connected. -/
theorem status_fresh_iff {ops : List Operation} {final : FssClient}
    {outs : List ConnectionStatus}
    (hrun : run FssClient.operate {} ops = some (final, outs)) :
    Throughout FssClient.operate StatusFresh {} ops ↔
      AllSteps FssClient.operate (fun c op => ¬ ConnectsSilently c op) {} ops :=
  throughout_iff StatusFresh hrun rfl StatusFresh.step StatusFresh.broken

/-- The client of a reachable state connects to a second server at once, and
then loses it. -/
def secondServer : List Operation :=
  [.updateServers [([65], 1)], .attemptReconnect fun _ => ⟨2000, true⟩,
    .connectTo [66] 1 (some ⟨3000, true⟩), .closed 1]

theorem status_fresh_iff_secondServer :
    ∃ final outs, run FssClient.operate {} secondServer = some (final, outs) ∧
      (Throughout FssClient.operate StatusFresh {} secondServer ↔
        AllSteps FssClient.operate (fun c op => ¬ ConnectsSilently c op) {}
          secondServer) :=
  ⟨_, _, rfl, @status_fresh_iff secondServer _ _ rfl⟩

/-- A client whose first server is connected at once still takes itself to be
disconnected. -/
theorem not_status_fresh_connectTo :
    ∃ final, run FssClient.operate {}
        [.connectTo [65] 1 (some ⟨2000, true⟩)] = some (final, []) ∧
      final.servers.length = 1 ∧ ¬ StatusFresh final [] :=
  ⟨_, rfl, rfl, by decide⟩

end FlightSafety.Client
