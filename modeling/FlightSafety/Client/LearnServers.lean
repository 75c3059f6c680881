/-
What a client learns from a list of servers.  `updateServers` searches the
lists that it extends, so what is known grows while the entries are gone
through, and an entry is new when it is in neither list and has not come
before.
-/
import FlightSafety.Client.Operations

namespace FlightSafety.Client

open Octets Machine

/-- A server that has not been connected yet. -/
def FssServer.ofEntry (entry : Bytes × UInt16) : FssServer :=
  { address := entry.1, port := entry.2 }

def FssServer.entry (s : FssServer) : Bytes × UInt16 :=
  (s.address, s.port)

namespace FssClient

/-- The addresses and ports of the servers in the two lists. -/
def known (c : FssClient) : List (Bytes × UInt16) :=
  (c.servers ++ c.reconnectServers).map fun id => (c.server id).entry

/-- The first occurrences of the entries that are not known. -/
def unknown (c : FssClient) (entries : List (Bytes × UInt16)) :
    List (Bytes × UInt16) :=
  (entries.filter fun entry => entry ∉ c.known).eraseDups

/-- Servers that are yet to be created are in no list.  Servers are numbered
where the source has a new object for each, which no list can hold before. -/
def Allocated (c : FssClient) : Prop :=
  ∀ id ∈ c.servers ++ c.reconnectServers, id < c.created

instance (c : FssClient) : Decidable c.Allocated :=
  List.decidableBAll _ _

/-- One client has become another by learning some servers in their order. -/
structure Learned (c c' : FssClient) (entries : List (Bytes × UInt16)) :
    Prop where
  created : c'.created = c.created + entries.length
  servers : c'.servers = c.servers
  reconnectServers : c'.reconnectServers =
    c.reconnectServers ++ List.range' c.created entries.length
  learned : (List.range' c.created entries.length).map c'.server =
    entries.map .ofEntry
  existing : ∀ id < c.created, c'.server id = c.server id

/-- What an entry that is not known adds. -/
def learn (c : FssClient) (entry : Bytes × UInt16) : FssClient :=
  { c.create entry.1 entry.2 with
    reconnectServers := c.reconnectServers ++ [c.created] }

variable {c : FssClient} {entry : Bytes × UInt16}
  {entries : List (Bytes × UInt16)}

theorem serverListMatches_iff {ids : List Nat} :
    c.serverListMatches ids entry = true ↔
      entry ∈ ids.map fun id => (c.server id).entry := by
  simp only [serverListMatches, List.any_eq_true, decide_eq_true_eq,
    List.mem_map, FssServer.entry, Prod.ext_iff]

theorem mem_known_iff :
    entry ∈ c.known ↔ c.serverListMatches c.servers entry = true ∨
      c.serverListMatches c.reconnectServers entry = true := by
  rw [serverListMatches_iff, serverListMatches_iff, known, List.map_append,
    List.mem_append]

theorem server_create_self (c : FssClient) (entry : Bytes × UInt16) :
    (c.create entry.1 entry.2).server c.created = .ofEntry entry :=
  if_pos rfl

theorem connectTo_none (c : FssClient) (entry : Bytes × UInt16) :
    c.connectTo entry.1 entry.2 none = c.learn entry := by
  have hunconnected : ¬ ((c.create entry.1 entry.2).server
      c.created).connected = true := by
    rw [server_create_self]
    exact Bool.false_ne_true
  exact if_neg hunconnected

theorem updateServer_of_mem (h : entry ∈ c.known) : c.updateServer entry = c := by
  rw [mem_known_iff] at h
  unfold updateServer
  split
  next => rfl
  next hservers => exact if_pos (h.resolve_left hservers)

theorem updateServer_of_not_mem (h : entry ∉ c.known) :
    c.updateServer entry = c.learn entry := by
  rw [mem_known_iff, not_or] at h
  rw [updateServer, if_neg h.1, if_neg h.2, connectTo_none]

/-- Servers that were created before are not changed. -/
theorem server_learn_of_lt {id : Nat} (h : id < c.created) :
    (c.learn entry).server id = c.server id :=
  if_neg (Nat.ne_of_lt h)

theorem Allocated.learn (h : c.Allocated) (entry : Bytes × UInt16) :
    (c.learn entry).Allocated := by
  intro id hid
  change id ∈ c.servers ++ (c.reconnectServers ++ [c.created]) at hid
  rw [← List.append_assoc, List.mem_append, List.mem_singleton] at hid
  rcases hid with hold | rfl
  · exact Nat.lt_succ_of_lt (h id hold)
  · exact Nat.lt_succ_self _

theorem known_learn (h : c.Allocated) (entry : Bytes × UInt16) :
    (c.learn entry).known = c.known ++ [entry] := by
  have hlists : (c.learn entry).servers ++ (c.learn entry).reconnectServers =
      (c.servers ++ c.reconnectServers) ++ [c.created] :=
    (List.append_assoc _ _ _).symm
  have hold : (c.servers ++ c.reconnectServers).map
      (fun id => ((c.learn entry).server id).entry) = c.known := by
    apply List.map_congr_left
    intro id hid
    rw [server_learn_of_lt (h id hid)]
  rw [known, hlists, List.map_append, hold]
  exact congrArg (fun s => c.known ++ [FssServer.entry s])
    (server_create_self c entry)

/-- The entries after a new one are new if they differ from it as well. -/
theorem unknown_cons_of_not_mem (h : c.Allocated) (hnew : entry ∉ c.known) :
    c.unknown (entry :: entries) = entry :: (c.learn entry).unknown entries := by
  rw [unknown, List.filter_cons_of_pos (by simpa using hnew),
    List.eraseDups_cons, List.filter_filter, unknown, known_learn h]
  congr 3
  funext other
  rw [Bool.eq_iff_iff]
  simp [and_comm]

theorem unknown_cons_of_mem (h : entry ∈ c.known) :
    c.unknown (entry :: entries) = c.unknown entries := by
  rw [unknown, List.filter_cons_of_neg (by simpa using h), unknown]

theorem Learned.refl (c : FssClient) : Learned c c [] where
  created := rfl
  servers := rfl
  reconnectServers := (List.append_nil _).symm
  learned := rfl
  existing _ _ := rfl

theorem Learned.of_learn {c' : FssClient}
    (h : Learned (c.learn entry) c' entries) : Learned c c' (entry :: entries) where
  created := by
    rw [h.created, List.length_cons, Nat.add_comm entries.length, ← Nat.add_assoc]
    rfl
  servers := h.servers
  reconnectServers := by
    rw [h.reconnectServers, List.length_cons, List.range'_succ]
    exact List.append_assoc _ [c.created] _
  learned := by
    have hfirst : c'.server c.created = .ofEntry entry := by
      rw [h.existing c.created (Nat.lt_succ_self _)]
      exact server_create_self c entry
    rw [List.length_cons, List.range'_succ, List.map_cons, List.map_cons, hfirst]
    exact congrArg (List.cons _) h.learned
  existing id hid := by
    rw [h.existing id (Nat.lt_succ_of_lt hid), server_learn_of_lt hid]

theorem learned_updateServers (h : c.Allocated)
    (entries : List (Bytes × UInt16)) :
    Learned c (c.updateServers entries) (c.unknown entries) := by
  induction entries generalizing c with
  | nil => exact .refl c
  | cons entry entries ih =>
      change Learned c ((c.updateServer entry).updateServers entries) _
      by_cases hmem : entry ∈ c.known
      · rw [updateServer_of_mem hmem, unknown_cons_of_mem hmem]
        exact ih h
      · rw [updateServer_of_not_mem hmem, unknown_cons_of_not_mem h hmem]
        exact .of_learn (ih (h.learn entry))

theorem updateServers_of_subset (h : entries ⊆ c.known) :
    c.updateServers entries = c := by
  induction entries with
  | nil => rfl
  | cons entry entries ih =>
      rw [List.cons_subset] at h
      change (c.updateServer entry).updateServers entries = c
      rw [updateServer_of_mem h.1]
      exact ih h.2

/-- What is known afterwards. -/
theorem Learned.known {c' : FssClient} (h : Learned c c' entries)
    (hc : c.Allocated) : c'.known = c.known ++ entries := by
  have hold : (c.servers ++ c.reconnectServers).map
      (fun id => (c'.server id).entry) = c.known := by
    apply List.map_congr_left
    intro id hid
    rw [h.existing id (hc id hid)]
  have hnew : (List.range' c.created entries.length).map
      (fun id => (c'.server id).entry) = entries := by
    have hentries := congrArg (List.map FssServer.entry) h.learned
    rw [List.map_map, List.map_map] at hentries
    exact hentries.trans (List.map_id _)
  rw [FssClient.known, h.servers, h.reconnectServers, ← List.append_assoc,
    List.map_append, hold, hnew]

end FssClient

/-- Every entry of a list that is new becomes a server to be tried, once and
in the order of first occurrence, and nothing else changes.  The same list
again changes nothing at all. -/
theorem updateServers_learns {c : FssClient} (h : c.Allocated)
    (entries : List (Bytes × UInt16)) :
    FssClient.Learned c (c.updateServers entries) (c.unknown entries) ∧
      (c.updateServers entries).updateServers entries =
        c.updateServers entries := by
  have hlearned := FssClient.learned_updateServers h entries
  refine ⟨hlearned, ?_⟩
  apply FssClient.updateServers_of_subset
  intro entry hentry
  rw [hlearned.known h, List.mem_append]
  by_cases hmem : entry ∈ c.known
  · exact .inl hmem
  · right
    rw [FssClient.unknown, List.mem_eraseDups, List.mem_filter]
    exact ⟨hentry, by simpa using hmem⟩

/-- A client in a reachable state has numbers left for new servers. -/
theorem allocated_of_run {events : List ClientEvent} {final : ClientState}
    {outs : List ConnectionStatus}
    (hrun : run ClientState.step {} events = some (final, outs)) :
    final.client.Allocated :=
  fun _ hid => (filed_of_run hrun).lt_created (List.mem_append_left _ hid)

/-- A client that knows one server. -/
def knowsOne : FssClient :=
  FssClient.learn {} ([65], 1)

theorem updateServers_learns_knowsOne :
    knowsOne.Allocated ∧
      knowsOne.unknown [([66], 1), ([65], 1), ([66], 1)] = [([66], 1)] ∧
      FssClient.Learned knowsOne
        (knowsOne.updateServers [([66], 1), ([65], 1), ([66], 1)])
        (knowsOne.unknown [([66], 1), ([65], 1), ([66], 1)]) ∧
      (knowsOne.updateServers [([66], 1), ([65], 1), ([66], 1)]).updateServers
          [([66], 1), ([65], 1), ([66], 1)] =
        knowsOne.updateServers [([66], 1), ([65], 1), ([66], 1)] :=
  have h : knowsOne.Allocated := by decide
  ⟨h, by decide, updateServers_learns h _⟩

end FlightSafety.Client
