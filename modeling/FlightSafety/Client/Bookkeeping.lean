/-
Every server that a client has created is in one of its two lists, once.  In
the middle of an operation a server can be in neither, when it is in the hands
of the operation itself.
-/
import FlightSafety.Client.Servers
import Mathlib.Data.List.Perm.Lattice

namespace FlightSafety.Client

open Octets Machine

namespace FssClient

variable {c c' : FssClient} {id : Nat}

@[simp] theorem created_modify (f : FssServer → FssServer) :
    (c.modify id f).created = c.created := rfl

@[simp] theorem servers_modify (f : FssServer → FssServer) :
    (c.modify id f).servers = c.servers := rfl

@[simp] theorem reconnectServers_modify (f : FssServer → FssServer) :
    (c.modify id f).reconnectServers = c.reconnectServers := rfl

@[simp] theorem server_modify_self (f : FssServer → FssServer) :
    (c.modify id f).server id = f (c.server id) :=
  if_pos rfl

theorem server_modify_of_ne {other : Nat} (h : other ≠ id)
    (f : FssServer → FssServer) :
    (c.modify id f).server other = c.server other :=
  if_neg h

/-- Only one server may have changed, and the lists have not. -/
structure OnlyServer (id : Nat) (c c' : FssClient) : Prop where
  created : c'.created = c.created
  servers : c'.servers = c.servers
  reconnectServers : c'.reconnectServers = c.reconnectServers
  others : ∀ other, other ≠ id → c'.server other = c.server other

theorem OnlyServer.refl (id : Nat) (c : FssClient) : OnlyServer id c c :=
  ⟨rfl, rfl, rfl, fun _ _ => rfl⟩

theorem onlyServer_modify (c : FssClient) (id : Nat)
    (f : FssServer → FssServer) : OnlyServer id c (c.modify id f) :=
  ⟨rfl, rfl, rfl, fun _ h => server_modify_of_ne h f⟩

theorem serverRequiresReconnect_of_not_mem (h : id ∉ c.servers) :
    c.serverRequiresReconnect id = c :=
  if_neg h

theorem onlyServer_processClosed (h : id ∉ c.servers) :
    OnlyServer id c (c.processClosed id) := by
  rw [processClosed, serverRequiresReconnect_of_not_mem h]
  exact onlyServer_modify c id _

theorem onlyServer_setHandler (h : id ∉ c.servers) :
    OnlyServer id c (c.setHandler id).1 := by
  unfold setHandler
  split
  · exact onlyServer_processClosed h
  · exact onlyServer_modify c id (·.setConnection .handled)

theorem connected_processClosed (c : FssClient) (id : Nat) :
    ((c.processClosed id).server id).connected = true := by
  rw [processClosed, server_modify_self]
  rfl

theorem connected_setHandler (c : FssClient) (id : Nat) :
    ((c.setHandler id).1.server id).connected = true := by
  unfold setHandler
  split
  · exact connected_processClosed c id
  · rw [server_modify_self]
    rfl

/-- The server has a connection by the time `reconnect` is that far. -/
def Underway (c : FssClient) (id : Nat) : ReconnectAt → Prop
  | .setHandler | .succeed => (c.server id).connected = true
  | _ => True

/-- What one statement of `reconnect` is followed by. -/
def Follows (c : FssClient) (id : Nat) : Progress → Prop
  | .next place => c.Underway id place
  | .returned result => result = true → (c.server id).connected = true

/-- A statement of `reconnect` for a server that is not filed as connected. -/
theorem reconnect_spec (h : id ∉ c.servers) (now : UInt64) (connects : Bool)
    {place : ReconnectAt} (hplace : c.Underway id place) :
    OnlyServer id c (c.reconnect id now connects place).1 ∧
      (c.reconnect id now connects place).1.Follows id
        (c.reconnect id now connects place).2.1 := by
  cases place with
  | start => exact ⟨onlyServer_modify c id _, trivial⟩
  | checkElapsed ts elapsed =>
      rw [reconnect]
      split
      · exact ⟨onlyServer_modify c id (·.tried ts), trivial⟩
      · exact ⟨.refl id c, fun h => absurd h Bool.false_ne_true⟩
  | setConnection =>
      exact ⟨onlyServer_modify c id (·.setConnection .constructed), trivial⟩
  | connectTo =>
      rw [reconnect]
      split
      · refine ⟨onlyServer_modify c id (·.setConnection .connected), ?_⟩
        rw [Follows, Underway, server_modify_self]
        rfl
      · exact ⟨.refl id c, trivial⟩
  | clearConnection =>
      exact ⟨onlyServer_modify c id _, fun h => absurd h Bool.false_ne_true⟩
  | setHandler => exact ⟨onlyServer_setHandler h, connected_setHandler c id⟩
  | succeed =>
      refine ⟨onlyServer_modify c id _, fun _ => ?_⟩
      rw [reconnect, server_modify_self]
      exact hplace

/-- What the delivery of a closed message does: no server loses its
connection, and only one that is in `servers` is moved. -/
structure ClosedTaken (id : Nat) (c c' : FssClient) : Prop where
  created : c'.created = c.created
  connected : ∀ other,
    (c'.server other).connected = (c.server other).connected
  lists : (c'.servers = c.servers ∧
      c'.reconnectServers = c.reconnectServers) ∨
    (id ∈ c.servers ∧ c'.servers = c.servers.filter (· ≠ id) ∧
      c'.reconnectServers = c.reconnectServers ++ [id])

theorem closedTaken_processClosed
    (h : (c.server id).connected = true) :
    ClosedTaken id c (c.processClosed id) := by
  rw [processClosed, serverRequiresReconnect]
  split
  · next hmem =>
      refine ⟨rfl, fun other => ?_, .inr ⟨hmem, rfl, rfl⟩⟩
      by_cases hother : other = id
      · rw [hother, server_modify_self, h]
        rfl
      · rw [server_modify_of_ne hother]
  · refine ⟨rfl, fun other => ?_, .inl ⟨rfl, rfl⟩⟩
    by_cases hother : other = id
    · rw [hother, server_modify_self, h]
      rfl
    · rw [server_modify_of_ne hother]

theorem closedTaken_of_closed {out : List ConnectionStatus}
    (h : c.closed id = some (c', out)) : ClosedTaken id c c' := by
  unfold closed at h
  split at h
  · next hconnection =>
      have hconnected : (c.server id).connected = true := by
        rw [FssServer.connected, hconnection]
        rfl
      cases h
      refine ⟨rfl, fun other => ?_, .inl ⟨rfl, rfl⟩⟩
      by_cases hother : other = id
      · rw [hother, server_modify_self, hconnected]
        rfl
      · rw [server_modify_of_ne hother]
  · next hconnection =>
      cases h
      apply closedTaken_processClosed
      rw [FssServer.connected, hconnection]
      rfl
  · cases h

end FssClient

/-- The server that is in neither list. -/
def ClientAt.inHand : ClientAt → List Nat
  | .reconnect .connectTo id _ | .addServer id _ | .fileServer id _ _
  | .pushBack id _ => [id]
  | _ => []

/-- The servers that `reconnect` has succeeded for and that are not in
`servers` yet. -/
def ClientAt.ready : ClientAt → List Nat
  | .reconnect (.attemptReconnect _ reconnected) _ _ | .scan _ reconnected
  | .move reconnected => reconnected
  | .remove id reconnected | .pushBack id reconnected => id :: reconnected
  | .fileServer id true _ => [id]
  | _ => []

/-- What holds where an operation is. -/
def FssClient.At (c : FssClient) : ClientAt → Prop
  | .reconnect .connectTo id place => c.Underway id place
  | .reconnect (.attemptReconnect index reconnected) id place =>
      c.Underway id place ∧ c.reconnectServers[index]? = some id ∧
        reconnected.Sublist (c.reconnectServers.take index)
  | .scan index reconnected =>
      reconnected.Sublist (c.reconnectServers.take index)
  | .move reconnected => reconnected.Nodup ∧ reconnected ⊆ c.reconnectServers
  | .remove id reconnected =>
      (id :: reconnected).Nodup ∧ id :: reconnected ⊆ c.reconnectServers
  | .pushBack id reconnected =>
      (id :: reconnected).Nodup ∧ reconnected ⊆ c.reconnectServers
  | .fileServer id connected _ => connected = (c.server id).connected
  | _ => True

/-- Every server is in one place, and those in `servers` or on their way there
have a connection. -/
structure Filed (s : ClientState) : Prop where
  partition : (s.client.servers ++ s.client.reconnectServers ++
    s.place.inHand).Perm (List.range s.client.created)
  connected : ∀ id ∈ s.client.servers ++ s.place.ready,
    (s.client.server id).connected = true
  place : s.client.At s.place

theorem filed_start : Filed {} where
  partition := .nil
  connected _ h := absurd h List.not_mem_nil
  place := trivial

/-- Taking out an element that occurs once. -/
theorem cons_filter_ne_perm {xs : List Nat} {id : Nat} (hnodup : xs.Nodup)
    (hmem : id ∈ xs) : (id :: xs.filter (· ≠ id)).Perm xs := by
  have herase : xs.filter (· ≠ id) = xs.erase id := by
    rw [hnodup.erase_eq_filter]
    exact List.filter_congr fun x _ => by rw [Bool.eq_iff_iff]; simp
  rw [herase]
  exact (List.perm_cons_erase hmem).symm

namespace Filed

variable {c c' : FssClient} {id : Nat} {place : ClientAt}

theorem nodup {s : ClientState} (h : Filed s) : (s.client.servers ++
    s.client.reconnectServers ++ s.place.inHand).Nodup :=
  h.partition.nodup_iff.mpr List.nodup_range

theorem lt_created {s : ClientState} (h : Filed s)
    (hmem : id ∈ s.client.servers ++ s.client.reconnectServers ++
      s.place.inHand) : id < s.client.created :=
  List.mem_range.mp (h.partition.subset hmem)

/-- A server that is reconnected is not in `servers`, and has not succeeded. -/
theorem not_mem_of_reconnect {caller : Caller} {point : ReconnectAt}
    (h : Filed ⟨c, .reconnect caller id point⟩) :
    id ∉ c.servers ++ (ClientAt.reconnect caller id point).ready := by
  have hnodup := h.nodup
  rw [List.mem_append, not_or]
  cases caller with
  | connectTo =>
      have hapart := (List.nodup_append.mp hnodup).2.2
      refine ⟨fun hmem => ?_, List.not_mem_nil⟩
      exact hapart id (List.mem_append_left _ hmem) id List.mem_cons_self rfl
  | attemptReconnect index reconnected =>
      obtain ⟨-, hindex, hsub⟩ := h.place
      have hlists := (List.nodup_append.mp hnodup).1
      obtain ⟨-, hreconnect, hapart⟩ := List.nodup_append.mp hlists
      refine ⟨fun hmem => ?_, fun hmem => ?_⟩
      · exact hapart id hmem id (List.mem_of_getElem? hindex) rfl
      · obtain ⟨hlt, hget⟩ := List.getElem?_eq_some_iff.mp hindex
        have hdisjoint : id ∉ c.reconnectServers.take index := by
          rw [← List.take_append_drop index c.reconnectServers,
            List.drop_eq_getElem_cons hlt, hget] at hreconnect
          intro hearlier
          exact (List.nodup_append.mp hreconnect).2.2 id hearlier id
            List.mem_cons_self rfl
        exact hdisjoint (hsub.subset hmem)

/-- A statement of `reconnect`. -/
theorem reconnect_next {caller : Caller} {point point' : ReconnectAt}
    (h : Filed ⟨c, .reconnect caller id point⟩)
    (honly : FssClient.OnlyServer id c c') (hunderway : c'.Underway id point') :
    Filed ⟨c', .reconnect caller id point'⟩ := by
  have hout := h.not_mem_of_reconnect
  constructor
  case partition =>
    have hpartition := h.partition
    rw [← honly.servers, ← honly.reconnectServers, ← honly.created] at hpartition
    cases caller <;> exact hpartition
  case connected =>
    intro other hother
    have hmem : other ∈ c.servers ++ (ClientAt.reconnect caller id point).ready := by
      rw [← honly.servers]
      cases caller <;> exact hother
    have hne : other ≠ id := fun heq => hout (heq ▸ hmem)
    rw [honly.others other hne]
    exact h.connected other hmem
  case place =>
    cases caller with
    | connectTo => exact hunderway
    | attemptReconnect index reconnected =>
        rw [FssClient.At, honly.reconnectServers]
        exact ⟨hunderway, h.place.2⟩

/-- The end of `reconnect`. -/
theorem reconnect_returned {caller : Caller} {point : ReconnectAt}
    {result : Bool} (h : Filed ⟨c, .reconnect caller id point⟩)
    (honly : FssClient.OnlyServer id c c')
    (hresult : result = true → (c'.server id).connected = true) :
    Filed ⟨c', caller.goesOn id result⟩ := by
  have hnext : Filed ⟨c', .reconnect caller id .start⟩ :=
    h.reconnect_next honly trivial
  cases caller with
  | connectTo => exact ⟨hnext.partition, hnext.connected, trivial⟩
  | attemptReconnect index reconnected =>
      obtain ⟨-, hindex, hsub⟩ := hnext.place
      obtain ⟨hlt, hget⟩ := List.getElem?_eq_some_iff.mp hindex
      have htake : c'.reconnectServers.take (index + 1) =
          c'.reconnectServers.take index ++ [id] := by
        rw [List.take_add_one, hindex]
        rfl
      cases result with
      | false =>
          refine ⟨hnext.partition, hnext.connected, ?_⟩
          exact hsub.trans (htake ▸ List.sublist_append_left _ _)
      | true =>
          have hplace : (reconnected ++ [id]).Sublist
              (c'.reconnectServers.take (index + 1)) := by
            rw [htake]
            exact hsub.append_right [id]
          refine ⟨hnext.partition, fun other hother => ?_, hplace⟩
          change other ∈ c'.servers ++ (reconnected ++ [id]) at hother
          rw [← List.append_assoc] at hother
          rcases List.mem_append.mp hother with hother | hother
          · exact hnext.connected other hother
          · rw [List.mem_singleton.mp hother]
            exact hresult rfl

/-- A new server is in the hands of the operation that creates it. -/
theorem create {next : ClientAt} (h : Filed ⟨c, place⟩) (address : Bytes)
    (port : UInt16) (hhand : place.inHand = [])
    (hnext : next.inHand = [c.created]) (hready : next.ready = [])
    (hplace : (c.create address port).At next) :
    Filed ⟨c.create address port, next⟩ := by
  constructor
  case partition =>
    have hpartition := h.partition
    rw [hhand, List.append_nil] at hpartition
    change (c.servers ++ c.reconnectServers ++ next.inHand).Perm
      (List.range (c.created + 1))
    rw [hnext, List.range_succ]
    exact hpartition.append_right _
  case connected =>
    intro other hother
    rw [hready, List.append_nil] at hother
    have hold : other < c.created := h.lt_created
      (List.mem_append_left _ (List.mem_append_left _ hother))
    have hsame : (c.create address port).server other = c.server other :=
      if_neg (Nat.ne_of_lt hold)
    rw [hsame]
    exact h.connected other (List.mem_append_left _ hother)
  case place => exact hplace

/-- What holds where an operation is goes on to hold when no connection is
lost and servers to be tried again are added at the end. -/
theorem at_of_prefix (h : c.At place) (hconnected : ∀ other,
    (c'.server other).connected = (c.server other).connected)
    (hgrown : c.reconnectServers <+: c'.reconnectServers) : c'.At place := by
  obtain ⟨added, hadded⟩ := hgrown
  have hsubset : c.reconnectServers ⊆ c'.reconnectServers := by
    rw [← hadded]
    exact List.subset_append_left _ _
  have htake : ∀ index, (c.reconnectServers.take index).Sublist
      (c'.reconnectServers.take index) := by
    intro index
    rw [← hadded, List.take_append]
    exact List.sublist_append_left _ _
  have hunderway : ∀ {id : Nat} {point : ReconnectAt},
      c.Underway id point → c'.Underway id point := by
    intro id point hpoint
    cases point with
    | setHandler => exact (hconnected id).trans hpoint
    | succeed => exact (hconnected id).trans hpoint
    | _ => trivial
  cases place with
  | reconnect caller id point =>
      cases caller with
      | connectTo => exact hunderway h
      | attemptReconnect index reconnected =>
          obtain ⟨hpoint, hindex, hsub⟩ := h
          have hlt := (List.getElem?_eq_some_iff.mp hindex).1
          refine ⟨hunderway hpoint, ?_, hsub.trans (htake index)⟩
          rw [← hadded, List.getElem?_append_left hlt]
          exact hindex
  | scan index reconnected => exact h.trans (htake index)
  | move reconnected => exact ⟨h.1, List.Subset.trans h.2 hsubset⟩
  | remove id reconnected => exact ⟨h.1, List.Subset.trans h.2 hsubset⟩
  | pushBack id reconnected => exact ⟨h.1, List.Subset.trans h.2 hsubset⟩
  | fileServer id connected entries => exact h.trans (hconnected id).symm
  | idle => trivial
  | addServer id entries => trivial
  | matchServers entries => trivial
  | matchReconnect entry entries => trivial

/-- A closed message moves a server from one list to the other or changes
nothing that matters here. -/
theorem closed (h : Filed ⟨c, place⟩) (htaken : FssClient.ClosedTaken id c c') :
    Filed ⟨c', place⟩ := by
  have hpartition := h.partition
  rcases htaken.lists with ⟨hservers, hreconnect⟩ | ⟨hmem, hservers, hreconnect⟩
  · constructor
    case partition =>
      rw [hservers, hreconnect, htaken.created]
      exact hpartition
    case connected =>
      intro other hother
      rw [htaken.connected]
      rw [hservers] at hother
      exact h.connected other hother
    case place =>
      apply at_of_prefix h.place htaken.connected
      exact hreconnect ▸ List.prefix_refl _
  · have hlists := (List.nodup_append.mp h.nodup).1
    have hmoved := cons_filter_ne_perm (List.nodup_append.mp hlists).1 hmem
    constructor
    case partition =>
      rw [hservers, hreconnect, htaken.created]
      refine List.Perm.trans (.append_right _ ?_) hpartition
      refine List.Perm.trans ?_ (hmoved.append_right c.reconnectServers)
      rw [← List.append_assoc]
      exact List.perm_append_singleton id _
    case connected =>
      intro other hother
      rw [htaken.connected]
      rw [hservers] at hother
      apply h.connected
      rcases List.mem_append.mp hother with hother | hother
      · exact List.mem_append_left _ (List.mem_of_mem_filter hother)
      · exact List.mem_append_right _ hother
    case place =>
      apply at_of_prefix h.place htaken.connected
      rw [hreconnect]
      exact List.prefix_append _ _

/-- The operation goes on without changing anything. -/
theorem stay {next : ClientAt} (h : Filed ⟨c, place⟩)
    (hhand : next.inHand = place.inHand)
    (hready : ∀ id ∈ next.ready, (c.server id).connected = true)
    (hplace : c.At next) : Filed ⟨c, next⟩ where
  partition := by
    rw [hhand]
    exact h.partition
  connected := by
    refine List.forall_mem_append.mpr ⟨fun other hother => ?_, hready⟩
    exact h.connected other (List.mem_append_left _ hother)
  place := hplace

theorem goOn {next : ClientAt} (h : Filed ⟨c, place⟩)
    (hhand : next.inHand = place.inHand) (hready : next.ready = [])
    (hplace : c.At next) : Filed ⟨c, next⟩ := by
  apply h.stay hhand _ hplace
  rw [hready]
  exact fun _ hother => absurd hother List.not_mem_nil

/-- A server that has been taken out of `reconnect_servers` and has a
connection is filed in `servers`. -/
theorem file (h : Filed ⟨c, place⟩) (hhand : place.inHand = [id])
    (hconnected : (c.server id).connected = true) {next : ClientAt}
    (hnext : next.inHand = [])
    (hready : ∀ id ∈ next.ready, (c.server id).connected = true)
    (hplace : c.At next) :
    Filed ⟨{ c with servers := c.servers ++ [id] }, next⟩ where
  partition := by
    refine List.Perm.trans ?_ h.partition
    change ((c.servers ++ [id]) ++ c.reconnectServers ++ next.inHand).Perm
      (c.servers ++ c.reconnectServers ++ place.inHand)
    rw [hnext, hhand, List.append_nil, List.append_assoc, List.append_assoc]
    exact List.perm_append_comm.append_left _
  connected := by
    refine List.forall_mem_append.mpr ⟨fun other hother => ?_, hready⟩
    rcases List.mem_append.mp hother with hother | hother
    · exact h.connected other (List.mem_append_left _ hother)
    · rw [List.mem_singleton.mp hother]
      exact hconnected
  place := by
    cases next with
    | reconnect caller id point => cases caller <;> exact hplace
    | _ => exact hplace

/-- A server without a connection is filed in `reconnect_servers`. -/
theorem fileAgain {entries : List (Bytes × UInt16)}
    (h : Filed ⟨c, .fileServer id false entries⟩) :
    Filed ⟨{ c with reconnectServers := c.reconnectServers ++ [id] },
      .matchServers entries⟩ where
  partition := by
    refine List.Perm.trans ?_ h.partition
    change (c.servers ++ (c.reconnectServers ++ [id]) ++ []).Perm
      (c.servers ++ c.reconnectServers ++ [id])
    rw [List.append_nil, List.append_assoc]
  connected := h.connected
  place := trivial

/-- A server that has been reconnected is taken out of
`reconnect_servers`. -/
theorem remove {reconnected : List Nat}
    (h : Filed ⟨c, .remove id reconnected⟩) :
    Filed ⟨{ c with reconnectServers := c.reconnectServers.filter (· ≠ id) },
      .pushBack id reconnected⟩ := by
  obtain ⟨hnodup, hsubset⟩ := h.place
  have hlists := (List.nodup_append.mp h.nodup).1
  have hmem : id ∈ c.reconnectServers := hsubset List.mem_cons_self
  have hremoved := cons_filter_ne_perm (List.nodup_append.mp hlists).2.1 hmem
  constructor
  case partition =>
    refine List.Perm.trans ?_ h.partition
    change (c.servers ++ c.reconnectServers.filter (· ≠ id) ++ [id]).Perm
      (c.servers ++ c.reconnectServers ++ [])
    rw [List.append_nil, List.append_assoc]
    refine List.Perm.append_left _ (List.Perm.trans ?_ hremoved)
    exact List.perm_append_singleton id _
  case connected => exact h.connected
  case place =>
    refine ⟨hnodup, fun other hother => ?_⟩
    have hne : other ≠ id := fun heq =>
      (List.nodup_cons.mp hnodup).1 (heq ▸ hother)
    exact List.mem_filter.mpr
      ⟨hsubset (List.mem_cons_of_mem _ hother), by simpa using hne⟩

/-- One statement of the operation in progress. -/
theorem advance {now : UInt64} {connects : Bool} {next : ClientState}
    {out : List ConnectionStatus} (h : Filed ⟨c, place⟩)
    (hstep : c.advance now connects place = some (next, out)) :
    Filed next := by
  have hconnected := h.connected
  have hplace := h.place
  cases place with
  | idle => cases hstep
  | reconnect caller id point =>
      have hout := h.not_mem_of_reconnect
      rw [List.mem_append, not_or] at hout
      have hunderway : c.Underway id point := by
        cases caller with
        | connectTo => exact hplace
        | attemptReconnect index reconnected => exact hplace.1
      have hspec := FssClient.reconnect_spec hout.1 now connects hunderway
      rw [FssClient.advance] at hstep
      split at hstep
      · next c' point' statuses heq =>
          cases hstep
          rw [heq] at hspec
          exact h.reconnect_next hspec.1 hspec.2
      · next c' result statuses heq =>
          cases hstep
          rw [heq] at hspec
          exact h.reconnect_returned hspec.1 hspec.2
  | addServer id entries =>
      cases hstep
      refine @stay c _ (.fileServer id (c.server id).connected entries) h rfl
        (fun other hother => ?_) rfl
      cases hc : (c.server id).connected with
      | false =>
          rw [hc] at hother
          cases hother
      | true =>
          rw [hc] at hother
          rw [List.mem_singleton.mp hother]
          exact hc
  | fileServer id connected entries =>
      cases connected with
      | true =>
          cases hstep
          exact h.file rfl hplace.symm rfl (fun _ h => absurd h List.not_mem_nil)
            trivial
      | false =>
          cases hstep
          exact h.fileAgain
  | matchServers entries =>
      cases entries with
      | nil =>
          cases hstep
          exact h.goOn rfl rfl trivial
      | cons entry entries =>
          rw [FssClient.advance] at hstep
          split at hstep
          · cases hstep
            exact h.goOn rfl rfl trivial
          · cases hstep
            exact h.goOn rfl rfl trivial
  | matchReconnect entry entries =>
      rw [FssClient.advance] at hstep
      split at hstep
      · cases hstep
        exact h.goOn rfl rfl trivial
      · cases hstep
        exact h.create entry.1 entry.2 rfl rfl rfl trivial
  | scan index reconnected =>
      have hready : ∀ id ∈ reconnected, (c.server id).connected = true :=
        fun id hid => hconnected id (List.mem_append_right _ hid)
      rw [FssClient.advance] at hstep
      split at hstep
      · next id hindex =>
          cases hstep
          exact h.stay rfl hready ⟨trivial, hindex, hplace⟩
      · split at hstep
        · cases hstep
          exact h.goOn rfl rfl trivial
        · cases hstep
          have hlists := (List.nodup_append.mp h.nodup).1
          have hnodup := (List.nodup_append.mp hlists).2.1
          have hsub := List.Sublist.trans hplace (List.take_sublist _ _)
          exact h.stay rfl hready ⟨hnodup.sublist hsub, hsub.subset⟩
  | move reconnected =>
      have hready : ∀ id ∈ reconnected, (c.server id).connected = true :=
        fun id hid => hconnected id (List.mem_append_right _ hid)
      cases reconnected with
      | nil =>
          cases hstep
          exact h.goOn rfl rfl trivial
      | cons id reconnected =>
          cases hstep
          exact h.stay rfl hready hplace
  | remove id reconnected =>
      cases hstep
      exact h.remove
  | pushBack id reconnected =>
      cases hstep
      have hready : ∀ other ∈ id :: reconnected,
          (c.server other).connected = true :=
        fun other hother => hconnected other (List.mem_append_right _ hother)
      rw [List.forall_mem_cons] at hready
      exact h.file rfl hready.1 rfl hready.2
        ⟨(List.nodup_cons.mp hplace.1).2, hplace.2⟩

end Filed

theorem of_starts {c : FssClient} {place : ClientAt}
    {first next : ClientState} {out : List ConnectionStatus}
    (h : ClientState.starts ⟨c, place⟩ first = some (next, out)) :
    place = .idle ∧ first = next := by
  unfold ClientState.starts at h
  split at h
  · next hidle =>
      cases h
      exact ⟨hidle, rfl⟩
  · cases h

theorem Filed.kept {s next : ClientState} {e : ClientEvent}
    {out : List ConnectionStatus} (h : Filed s)
    (hstep : s.step e = some (next, out)) : Filed next := by
  obtain ⟨c, place⟩ := s
  cases e with
  | connectTo address port connect =>
      obtain ⟨rfl, rfl⟩ := of_starts hstep
      cases connect with
      | true => exact h.create address port rfl rfl rfl trivial
      | false => exact h.create address port rfl rfl rfl trivial
  | updateServers entries =>
      obtain ⟨rfl, rfl⟩ := of_starts hstep
      exact h.goOn rfl rfl trivial
  | attemptReconnect =>
      obtain ⟨rfl, rfl⟩ := of_starts hstep
      exact h.stay rfl (fun _ h => absurd h List.not_mem_nil) (List.nil_sublist _)
  | advance now connects => exact h.advance hstep
  | closed id =>
      rw [ClientState.step] at hstep
      split at hstep
      · next c' statuses hclosed =>
          cases hstep
          exact h.closed (FssClient.closedTaken_of_closed hclosed)
      · cases hstep

theorem filed_of_run {events : List ClientEvent} {final : ClientState}
    {outs : List ConnectionStatus}
    (hrun : run ClientState.step {} events = some (final, outs)) : Filed final :=
  run_keeps_always Filed hrun filed_start fun h hstep => h.kept hstep

/-- In every reachable state a server that has been created is in `servers`,
in `reconnect_servers` or in the hands of the operation in progress, once.
With no operation in progress it is in one of the lists.  Those in `servers`
have a connection. -/
theorem servers_partition {events : List ClientEvent} {final : ClientState}
    {outs : List ConnectionStatus}
    (hrun : run ClientState.step {} events = some (final, outs)) :
    (final.client.servers ++ final.client.reconnectServers ++
      final.place.inHand).Perm (List.range final.client.created) ∧
    (final.place = .idle → ∀ id,
      final.client.servers.count id + final.client.reconnectServers.count id =
        if id < final.client.created then 1 else 0) ∧
    ∀ id ∈ final.client.servers,
      (final.client.server id).connected = true := by
  have h := filed_of_run hrun
  refine ⟨h.partition, fun hidle id => ?_, fun id hid => ?_⟩
  · have hnone : final.place.inHand = [] := by
      rw [hidle]
      rfl
    have hcount := h.partition.count_eq id
    rw [hnone, List.append_nil, List.count_append] at hcount
    rw [hcount]
    split
    · next hlt =>
        exact List.count_eq_one_of_mem List.nodup_range (List.mem_range.mpr hlt)
    · next hge =>
        exact List.count_eq_zero_of_not_mem (mt List.mem_range.mp hge)
  · exact h.connected id (List.mem_append_left _ hid)

/-- Statements whose attempts to connect succeed. -/
def advances (count : Nat) : List ClientEvent :=
  List.replicate count (.advance 2000 true)

theorem servers_partition_updated :
    ∃ final outs,
      run ClientState.step {} (.connectTo [65] 1 true :: advances 9 ++
        .closed 0 :: .updateServers [([65], 1), ([66], 1)] :: advances 7) =
          some (final, outs) ∧
      (final.client.servers ++ final.client.reconnectServers ++
        final.place.inHand).Perm (List.range final.client.created) ∧
      (final.place = .idle → ∀ id,
        final.client.servers.count id +
          final.client.reconnectServers.count id =
            if id < final.client.created then 1 else 0) ∧
      ∀ id ∈ final.client.servers,
        (final.client.server id).connected = true :=
  ⟨_, _, rfl, @servers_partition (.connectTo [65] 1 true :: advances 9 ++
    .closed 0 :: .updateServers [([65], 1), ([66], 1)] :: advances 7) _ _ rfl⟩

end FlightSafety.Client
