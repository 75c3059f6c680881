/-
The accounts of the registry of clients.  A client that is disconnected moves
from the list to the queue, and the main loop drops what is queued; the number
of clients is kept apart from both, in 32 bits, and changes when a client is
connected and when it is dropped.
-/
import Mathlib.Data.List.Nodup
import FlightSafety.Server.ServerClients

namespace FlightSafety.Server

open Machine
open scoped List

inductive RegistryEvent (α : Type) where
  | clientConnected (client : α)
  | clientDisconnected (client : α)
  | cleanupRemovableClients
deriving Repr, DecidableEq

/-- What happens to a client: it is registered, queued to be dropped, and
dropped. -/
inductive RegistryOutput (α : Type) where
  | connected (client : α)
  | queued (client : α)
  | dropped (client : α)
deriving Repr, DecidableEq

/-- The clients a list of events connects. -/
def connects {α : Type} (events : List (RegistryEvent α)) : List α :=
  events.filterMap fun
    | .clientConnected client => some client
    | _ => none

section Outputs

variable {α : Type}

def connectedIn (outs : List (RegistryOutput α)) : List α :=
  outs.filterMap fun
    | .connected client => some client
    | _ => none

def queuedIn (outs : List (RegistryOutput α)) : List α :=
  outs.filterMap fun
    | .queued client => some client
    | _ => none

def droppedIn (outs : List (RegistryOutput α)) : List α :=
  outs.filterMap fun
    | .dropped client => some client
    | _ => none

@[simp] theorem connectedIn_append (outs later : List (RegistryOutput α)) :
    connectedIn (outs ++ later) = connectedIn outs ++ connectedIn later :=
  List.filterMap_append

@[simp] theorem queuedIn_append (outs later : List (RegistryOutput α)) :
    queuedIn (outs ++ later) = queuedIn outs ++ queuedIn later :=
  List.filterMap_append

@[simp] theorem droppedIn_append (outs later : List (RegistryOutput α)) :
    droppedIn (outs ++ later) = droppedIn outs ++ droppedIn later :=
  List.filterMap_append

/-- A cleanup only drops clients. -/
theorem only_dropped (clients : List α) :
    connectedIn (clients.map .dropped) = [] ∧
      queuedIn (clients.map .dropped) = [] ∧
      droppedIn (clients.map .dropped) = clients := by
  induction clients with
  | nil => exact ⟨rfl, rfl, rfl⟩
  | cons client rest ih =>
      refine ⟨ih.1, ih.2.1, ?_⟩
      exact congrArg (client :: ·) ih.2.2

end Outputs

namespace ServerClients

variable {α : Type}

/-- What is new in the queue has been queued, and a cleanup drops all that is
in it. -/
def step [DecidableEq α] :
    Step (ServerClients α) (RegistryEvent α) (RegistryOutput α)
  | r, .clientConnected client =>
      some (r.clientConnected client, [.connected client])
  | r, .clientDisconnected client =>
      some (r.clientDisconnected client,
        ((r.clientDisconnected client).disconnected.drop
          r.disconnected.length).map .queued)
  | r, .cleanupRemovableClients =>
      some (r.cleanupRemovableClients, r.disconnected.map .dropped)

/-- The number of clients that are registered or queued. -/
def size (r : ServerClients α) : Nat :=
  r.clients.length + r.disconnected.length

/-- Each step down of a cleanup, one for each queued client, finds a number
above zero. -/
def CountsDown (r : ServerClients α) : Prop :=
  r.disconnected.length ≤ r.totalClients.toNat

/-- The accounts after a run with the given outputs. -/
structure Accounts (r : ServerClients α) (past : List (RegistryOutput α)) :
    Prop where
  running : r.shuttingDown = false
  members : (connectedIn past).Perm (r.clients ++ queuedIn past)
  queue : queuedIn past = droppedIn past ++ r.disconnected
  total : r.totalClients = UInt32.ofNat r.size

theorem accounts_start : Accounts ({} : ServerClients α) [] where
  running := rfl
  members := .refl _
  queue := rfl
  total := rfl

theorem totalClients_cleanupRemovableClients (r : ServerClients α) :
    r.cleanupRemovableClients.totalClients =
      r.totalClients - UInt32.ofNat r.disconnected.length := by
  unfold cleanupRemovableClients
  dsimp only
  generalize r.totalClients = total
  induction r.disconnected generalizing total with
  | nil => simp
  | cons client rest ih =>
      rw [List.foldl_cons, ih, List.length_cons, UInt32.ofNat_add]
      grind

section Step

variable {r next : ServerClients α} {past out : List (RegistryOutput α)}

theorem Accounts.clientConnected (h : Accounts r past) (client : α) :
    Accounts (r.clientConnected client) (past ++ [.connected client]) where
  running := h.running
  members := by
    have hsame : queuedIn [RegistryOutput.connected client] = [] := rfl
    rw [connectedIn_append, queuedIn_append, hsame, List.append_nil]
    calc connectedIn past ++ [client]
        ~ r.clients ++ queuedIn past ++ [client] := h.members.append_right _
      _ ~ r.clients ++ ([client] ++ queuedIn past) := by
          rw [List.append_assoc]
          exact .append_left _ List.perm_append_comm
      _ = r.clients ++ [client] ++ queuedIn past := by
          rw [List.append_assoc]
  queue := by
    have hsame : queuedIn [RegistryOutput.connected client] = [] ∧
        droppedIn [RegistryOutput.connected client] = [] := ⟨rfl, rfl⟩
    rw [queuedIn_append, droppedIn_append, hsame.1, hsame.2, List.append_nil,
      List.append_nil]
    exact h.queue
  total := by
    change r.totalClients + 1 = UInt32.ofNat
      ((r.clients ++ [client]).length + r.disconnected.length)
    rw [h.total, size, List.length_append, List.length_singleton,
      Nat.add_right_comm, UInt32.ofNat_add _ 1]
    rfl

theorem Accounts.cleanupRemovableClients (h : Accounts r past) :
    Accounts r.cleanupRemovableClients
      (past ++ r.disconnected.map .dropped) where
  running := h.running
  members := by
    obtain ⟨hconnected, hqueued, _⟩ := only_dropped r.disconnected
    rw [connectedIn_append, queuedIn_append, hconnected, hqueued,
      List.append_nil, List.append_nil]
    exact h.members
  queue := by
    obtain ⟨_, hqueued, hdropped⟩ := only_dropped r.disconnected
    rw [queuedIn_append, droppedIn_append, hqueued, hdropped, h.queue]
    rfl
  total := by
    rw [totalClients_cleanupRemovableClients, h.total, size,
      UInt32.ofNat_add, UInt32.add_sub_cancel]
    rfl

variable [DecidableEq α]

theorem Accounts.clientDisconnected (h : Accounts r past) (client : α)
    (hnodup : (connectedIn past).Nodup) :
    Accounts (r.clientDisconnected client)
      (past ++ ((r.clientDisconnected client).disconnected.drop
        r.disconnected.length).map .queued) := by
  by_cases hmem : client ∈ r.clients
  · have hclients : r.clients.Nodup :=
      (List.nodup_append.mp (h.members.nodup_iff.mp hnodup)).1
    have hfilter : r.clients.filter (· ≠ client) = r.clients.erase client := by
      rw [hclients.erase_eq_filter]
      exact List.filter_congr fun x _ => by rw [Bool.eq_iff_iff]; simp
    have hlength := List.length_erase_of_mem hmem
    have hpos := List.length_pos_of_mem hmem
    rw [clientDisconnected_of_mem h.running hmem, hfilter]
    dsimp only
    rw [List.drop_left]
    refine ⟨h.running, ?_, ?_, ?_⟩
    · rw [connectedIn_append, queuedIn_append]
      calc connectedIn past ++ []
          = connectedIn past := List.append_nil _
        _ ~ r.clients ++ queuedIn past := h.members
        _ ~ (client :: r.clients.erase client) ++ queuedIn past :=
            (List.perm_cons_erase hmem).append_right _
        _ ~ r.clients.erase client ++ (queuedIn past ++ [client]) := by
            rw [← List.append_assoc]
            exact (List.perm_append_singleton client _).symm
    · have hnew : queuedIn [RegistryOutput.queued client] = [client] ∧
          droppedIn [RegistryOutput.queued client] = [] := ⟨rfl, rfl⟩
      rw [List.map_singleton, queuedIn_append, droppedIn_append, hnew.1,
        hnew.2, List.append_nil, h.queue, List.append_assoc]
    · change r.totalClients = UInt32.ofNat ((r.clients.erase client).length +
        (r.disconnected ++ [client]).length)
      rw [h.total, size, hlength, List.length_append, List.length_singleton]
      congr 1
      omega
  · rw [clientDisconnected_of_not_mem hmem, List.drop_length, List.map_nil,
      List.append_nil]
    exact h

theorem Accounts.step {e : RegistryEvent α}
    (h : (connectedIn past).Nodup → Accounts r past)
    (hstep : ServerClients.step r e = some (next, out))
    (hnodup : (connectedIn (past ++ out)).Nodup) :
    Accounts next (past ++ out) := by
  have hbefore : (connectedIn past).Nodup := by
    rw [connectedIn_append] at hnodup
    exact (List.nodup_append.mp hnodup).1
  cases e with
  | clientConnected client =>
      cases hstep
      exact (h hbefore).clientConnected client
  | clientDisconnected client =>
      cases hstep
      exact (h hbefore).clientDisconnected client hbefore
  | cleanupRemovableClients =>
      cases hstep
      exact (h hbefore).cleanupRemovableClients

end Step

section Run

variable [DecidableEq α] {r s : ServerClients α}
  {events : List (RegistryEvent α)} {outs : List (RegistryOutput α)}

theorem accounts_of_run (hrun : run step {} events = some (r, outs))
    (hnodup : (connectedIn outs).Nodup) : Accounts r outs :=
  run_invariant_always (fun r past => (connectedIn past).Nodup → Accounts r past)
    hrun (fun _ => accounts_start) Accounts.step hnodup

/-- The outputs say which clients the events have connected. -/
theorem connectedIn_of_run (hrun : run step s events = some (r, outs)) :
    connectedIn outs = connects events := by
  induction events generalizing s outs with
  | nil =>
      cases hrun
      rfl
  | cons e events ih =>
      obtain ⟨next, out, later, hstep, hlater, rfl⟩ := run_cons_eq_some.mp hrun
      rw [connectedIn_append, ih hlater]
      cases e with
      | clientConnected client =>
          cases hstep
          rfl
      | clientDisconnected client =>
          cases hstep
          have hnone (clients : List α) :
              connectedIn (clients.map .queued) = [] := by
            induction clients with
            | nil => rfl
            | cons client rest ih => exact ih
          rw [hnone]
          rfl
      | cleanupRemovableClients =>
          cases hstep
          rw [(only_dropped _).1]
          rfl

end Run

end ServerClients

open ServerClients in
/-- In every run in which a client is connected at most once: a client is in
one place, once; what has been queued is what has been dropped and then what
is still queued, so a client that has left the list has been queued once; the
number of clients is what 32 bits hold of it, and while they hold all of it a
cleanup does not count below zero; and a disconnected client leaves all others
as they are. -/
theorem registry_accounts {α : Type} [DecidableEq α]
    {events : List (RegistryEvent α)} {r : ServerClients α}
    {outs : List (RegistryOutput α)} (honce : (connects events).Nodup)
    (hrun : run step {} events = some (r, outs)) :
    (r.clients ++ r.disconnected).Nodup ∧
      r.totalClients.toNat = r.size % 2 ^ 32 ∧
      (r.size < 2 ^ 32 → r.CountsDown) ∧
      (queuedIn outs = droppedIn outs ++ r.disconnected ∧
        (queuedIn outs).Nodup ∧
        ∀ client ∈ connects events,
          client ∉ r.clients ↔ client ∈ queuedIn outs) ∧
      ∀ client,
        (r.clientDisconnected client).clients = r.clients.filter (· ≠ client) ∧
        (r.clientDisconnected client).disconnected =
          r.disconnected ++ if client ∈ r.clients then [client] else [] := by
  rw [← connectedIn_of_run hrun] at honce ⊢
  have haccounts := accounts_of_run hrun honce
  have hplaces := haccounts.members.nodup_iff.mp honce
  obtain ⟨_, hqueued, hapart⟩ := List.nodup_append.mp hplaces
  have htotal : r.totalClients.toNat = r.size % 2 ^ 32 := by
    rw [haccounts.total, UInt32.toNat_ofNat']
  refine ⟨?_, htotal, fun hfits => ?_, ⟨haccounts.queue, hqueued,
    fun client hclient => ?_⟩, fun client => ?_⟩
  · rw [haccounts.queue] at hplaces
    exact hplaces.sublist
      ((List.sublist_append_right _ _).append_left r.clients)
  · rw [CountsDown, htotal, Nat.mod_eq_of_lt hfits]
    exact Nat.le_add_left _ _
  · have hsplit := List.mem_append.mp (haccounts.members.mem_iff.mp hclient)
    constructor
    · exact fun hgone => hsplit.resolve_left hgone
    · exact fun hmem hstays => hapart client hstays client hmem rfl
  · by_cases hmem : client ∈ r.clients
    · rw [clientDisconnected_of_mem haccounts.running hmem, if_pos hmem]
      exact ⟨rfl, rfl⟩
    · rw [clientDisconnected_of_not_mem hmem, if_neg hmem, List.append_nil]
      refine ⟨(List.filter_eq_self.mpr fun other hother => ?_).symm, rfl⟩
      exact decide_eq_true fun hsame => hmem (hsame ▸ hother)

/-- Three clients of which the first is dropped and disconnected again, the
second is queued and the third stays, and a stranger. -/
def threeClients : List (RegistryEvent Nat) :=
  [.clientConnected 1, .clientConnected 2, .clientConnected 3,
    .clientDisconnected 1, .clientDisconnected 7, .cleanupRemovableClients,
    .clientDisconnected 1, .clientDisconnected 2]

open ServerClients in
theorem registry_accounts_threeClients :
    ∃ r outs, run step {} threeClients = some (r, outs) ∧
      r.clients = [3] ∧ r.disconnected = [2] ∧ droppedIn outs = [1] ∧
      (r.clients ++ r.disconnected).Nodup ∧
      r.totalClients.toNat = r.size % 2 ^ 32 ∧
      r.CountsDown ∧ queuedIn outs = [1, 2] := by
  obtain ⟨hplaces, htotal, hdown, hqueue, _⟩ :=
    registry_accounts (by decide : (connects threeClients).Nodup)
      (rfl : run step {} threeClients = some _)
  exact ⟨_, _, rfl, rfl, rfl, rfl, hplaces, htotal, hdown (by decide),
    hqueue.1⟩

open ServerClients in
/-- Every client of a list is connected. -/
theorem run_clientConnected {α : Type} [DecidableEq α] (clients : List α)
    (r : ServerClients α) :
    run step r (clients.map .clientConnected) =
      some ({ r with
        clients := r.clients ++ clients
        totalClients := r.totalClients + UInt32.ofNat clients.length },
        clients.map .connected) := by
  induction clients generalizing r with
  | nil => simp [run]
  | cons client rest ih =>
      have hlater := ih (r.clientConnected client)
      have hcount : r.totalClients + 1 + UInt32.ofNat rest.length =
          r.totalClients + UInt32.ofNat (rest.length + 1) := by
        rw [UInt32.ofNat_add]
        grind
      simp only [clientConnected, List.append_assoc, hcount] at hlater
      exact run_cons_eq_some.mpr ⟨_, _, _, rfl, hlater, rfl⟩

theorem connects_map {α : Type} (clients : List α) :
    connects (clients.map .clientConnected) = clients := by
  induction clients with
  | nil => rfl
  | cons client rest ih => exact congrArg (client :: ·) ih

open ServerClients in
/-- 2³² clients are connected and the first is disconnected: the number is 0,
and the cleanup counts below it. -/
theorem not_counted_overfull :
    ∃ events : List (RegistryEvent Nat), (connects events).Nodup ∧
      ∃ r outs, run step {} events = some (r, outs) ∧
        r.totalClients.toNat ≠ r.size ∧ ¬ r.CountsDown := by
  have hmem : 0 ∈ List.range (2 ^ 32) := List.mem_range.mpr (by decide)
  have hnodup : (List.range (2 ^ 32)).Nodup := List.nodup_range
  have hlength : (List.range (2 ^ 32)).length = 2 ^ 32 := List.length_range
  generalize List.range (2 ^ 32) = clients at hmem hnodup hlength
  have honce : connects (clients.map .clientConnected ++
      [.clientDisconnected 0]) = clients := by
    rw [connects, List.filterMap_append]
    exact (List.append_nil _).trans (connects_map clients)
  have hconnected := run_clientConnected clients {}
  have hfull : (0 : UInt32) + UInt32.ofNat (2 ^ 32) = 0 := by decide
  rw [hlength, hfull, List.nil_append] at hconnected
  let full : ServerClients Nat := { clients := clients }
  have hdisconnected : full.clientDisconnected 0 = _ :=
    clientDisconnected_of_mem rfl hmem
  have hlast : run step full [.clientDisconnected 0] = some (_, _) :=
    run_cons_eq_some.mpr ⟨_, _, [], rfl, rfl, rfl⟩
  rw [hdisconnected] at hlast
  refine ⟨_, honce.symm ▸ hnodup, _, _,
    run_append_eq_some.mpr ⟨_, _, _, hconnected, hlast, rfl⟩, ?_, ?_⟩
  · exact (Nat.succ_pos _).ne
  · exact Nat.not_succ_le_zero 0

end FlightSafety.Server
