/-
A closed message is delivered while the server is in `servers`, or at an
earlier moment, when there is nothing to be moved yet.
-/
import FlightSafety.Client.Bookkeeping

namespace FlightSafety.Client

open Octets Machine

/-- A closed message is only delivered when its server is in `servers`. -/
def DeliveredWhenFiled (s : ClientState) : ClientEvent → Prop
  | .closed id => id ∈ s.client.servers
  | _ => True

instance (s : ClientState) : (e : ClientEvent) →
    Decidable (DeliveredWhenFiled s e)
  | .closed id => inferInstanceAs (Decidable (id ∈ s.client.servers))
  | .connectTo _ _ _ => .isTrue trivial
  | .updateServers _ => .isTrue trivial
  | .attemptReconnect => .isTrue trivial
  | .advance _ _ => .isTrue trivial

/-- How far the connection of a server that is reconnected has come. -/
def ReconnectAt.Expects : ReconnectAt → Option ConnectionStage → Prop
  | .start, _ => True
  | .checkElapsed _ _, connection => connection = none
  | .setConnection, connection => connection = none
  | .connectTo, connection => connection = some .constructed
  | .clearConnection, connection => connection = some .constructed
  | .setHandler, connection => connection = some .connected
  | .succeed, connection => connection = some .handled

/-- How far it has come after a statement of `reconnect`. -/
def Progress.Leaves : Progress → Option ConnectionStage → Prop
  | .next point, connection => point ≠ .start ∧ point.Expects connection
  | .returned true, connection => connection = some .handled
  | .returned false, connection => connection = none

theorem expected_reconnect {c : FssClient} {id : Nat} (now : UInt64)
    (connects : Bool) {point : ReconnectAt}
    (h : point.Expects (c.server id).connection) :
    (c.reconnect id now connects point).2.1.Leaves
      ((c.reconnect id now connects point).1.server id).connection := by
  cases point with
  | start =>
      refine ⟨by simp, ?_⟩
      rw [FssClient.reconnect, FssClient.server_modify_self]
      rfl
  | checkElapsed ts elapsed =>
      rw [FssClient.reconnect]
      split
      · refine ⟨by simp, ?_⟩
        rw [FssClient.server_modify_self]
        exact h
      · exact h
  | setConnection =>
      refine ⟨by simp, ?_⟩
      rw [FssClient.reconnect, FssClient.server_modify_self]
      rfl
  | connectTo =>
      rw [FssClient.reconnect]
      split
      · refine ⟨by simp, ?_⟩
        rw [FssClient.server_modify_self]
        rfl
      · exact ⟨by simp, h⟩
  | clearConnection =>
      change ((c.modify id _).server id).connection = none
      rw [FssClient.server_modify_self]
      rfl
  | setHandler =>
      refine ⟨by simp, ?_⟩
      rw [ReconnectAt.Expects] at h
      change ((c.setHandler id).1.server id).connection = some .handled
      rw [FssClient.setHandler, h, FssClient.server_modify_self]
      rfl
  | succeed =>
      change ((c.modify id _).server id).connection = some .handled
      rw [FssClient.server_modify_self]
      exact h

/-- What the place of an operation says about the server it works on. -/
def FssClient.Stands (c : FssClient) : ClientAt → Prop
  | .reconnect _ id point => point.Expects (c.server id).connection
  | .addServer id _ => (c.server id).connection = none ∨
      (c.server id).connection = some .handled
  | _ => True

/-- A connection whose receive loop has delivered or queued a closed message. -/
def FssServer.HasClosed (s : FssServer) : Prop :=
  s.connection = some .closed ∨ s.connection = some .closedQueued

/-- A server whose connection has been closed is in `reconnect_servers`. -/
structure Scheduled (s : ClientState) : Prop where
  filed : Filed s
  handled : ∀ id ∈ s.client.servers ++ s.place.ready,
    (s.client.server id).connection = some .handled
  stands : s.client.Stands s.place
  closed : ∀ id, (s.client.server id).HasClosed →
    id ∈ s.client.reconnectServers

theorem scheduled_start : Scheduled {} where
  filed := filed_start
  handled _ h := absurd h List.not_mem_nil
  stands := trivial
  closed _ h := by rcases h with h | h <;> cases h

theorem not_hasClosed {s : FssServer} {connection : Option ConnectionStage}
    (h : s.connection = connection) (hclosed : connection ≠ some .closed)
    (hqueued : connection ≠ some .closedQueued) : ¬ s.HasClosed := by
  rw [FssServer.HasClosed, h, not_or]
  exact ⟨hclosed, hqueued⟩

theorem not_hasClosed_of_expects {s : FssServer} {point : ReconnectAt}
    (hpoint : point ≠ .start) (h : point.Expects s.connection) :
    ¬ s.HasClosed := by
  cases point with
  | start => exact absurd rfl hpoint
  | _ => exact not_hasClosed h (by decide) (by decide)

/-- What is ready is in `reconnect_servers` or in hand. -/
theorem Filed.ready_subset {s : ClientState} (h : Filed s) :
    s.place.ready ⊆ s.client.reconnectServers ++ s.place.inHand := by
  obtain ⟨c, place⟩ := s
  have hplace := h.place
  cases place with
  | reconnect caller id point =>
      cases caller with
      | connectTo => exact List.nil_subset _
      | attemptReconnect index reconnected =>
          have hsub := hplace.2.2.trans (List.take_sublist index _)
          exact List.Subset.trans hsub.subset (List.subset_append_left _ _)
  | scan index reconnected =>
      have hsub := List.Sublist.trans hplace (List.take_sublist index _)
      exact List.Subset.trans hsub.subset (List.subset_append_left _ _)
  | move reconnected =>
      exact List.Subset.trans hplace.2 (List.subset_append_left _ _)
  | remove id reconnected =>
      exact List.Subset.trans hplace.2 (List.subset_append_left _ _)
  | pushBack id reconnected =>
      refine List.cons_subset.mpr ⟨?_, ?_⟩
      · exact List.mem_append_right _ List.mem_cons_self
      · exact List.Subset.trans hplace.2 (List.subset_append_left _ _)
  | fileServer id connected entries =>
      cases connected with
      | true => exact List.subset_append_right _ _
      | false => exact List.nil_subset _
  | _ => exact List.nil_subset _

theorem Filed.not_mem_servers {s : ClientState} (h : Filed s) {id : Nat}
    (hmem : id ∈ s.client.reconnectServers ++ s.place.inHand) :
    id ∉ s.client.servers := by
  have hnodup := h.nodup
  rw [List.append_assoc] at hnodup
  intro hservers
  exact (List.nodup_append.mp hnodup).2.2 id hservers id hmem rfl

/-- The server an operation works on. -/
def ClientAt.worksOn : ClientAt → Option Nat
  | .reconnect _ id _ | .addServer id _ => some id
  | _ => none

theorem Filed.worksOn_not_mem {s : ClientState} (h : Filed s) {id : Nat}
    (hid : s.place.worksOn = some id) : id ∉ s.client.servers := by
  obtain ⟨c, place⟩ := s
  cases place with
  | reconnect caller id' point =>
      cases hid
      have hout := h.not_mem_of_reconnect
      rw [List.mem_append, not_or] at hout
      exact hout.1
  | addServer id' entries =>
      cases hid
      exact h.not_mem_servers (List.mem_append_right _ List.mem_cons_self)
  | _ => cases hid

namespace Scheduled

variable {c c' : FssClient} {id : Nat} {place : ClientAt}

/-- The operation goes on and no server changes. -/
theorem stay {next : ClientAt} (h : Scheduled ⟨c, place⟩)
    (hfiled : Filed ⟨c', next⟩) (hserver : c'.server = c.server)
    (hservers : ∀ id ∈ c'.servers ++ next.ready, id ∈ c.servers ++ place.ready)
    (hstands : c'.Stands next)
    (hreconnect : ∀ id, (c.server id).HasClosed → id ∈ c.reconnectServers →
      id ∈ c'.reconnectServers) : Scheduled ⟨c', next⟩ where
  filed := hfiled
  handled other hother := by
    change (c'.server other).connection = some .handled
    rw [hserver]
    exact h.handled other (hservers other hother)
  stands := hstands
  closed other hother := by
    change (c'.server other).HasClosed at hother
    rw [hserver] at hother
    exact hreconnect other hother (h.closed other hother)

/-- The operation goes on and nothing changes. -/
theorem goOn {next : ClientAt} (h : Scheduled ⟨c, place⟩)
    (hfiled : Filed ⟨c, next⟩) (hready : next.ready ⊆ place.ready)
    (hstands : c.Stands next) : Scheduled ⟨c, next⟩ := by
  refine h.stay hfiled rfl (fun other hother => ?_) hstands
    fun _ _ hmem => hmem
  rcases List.mem_append.mp hother with hother | hother
  · exact List.mem_append_left _ hother
  · exact List.mem_append_right _ (hready hother)

/-- Reconnecting a server leaves the others handled or scheduled. -/
theorem reconnect {caller : Caller} {point : ReconnectAt} {next : ClientAt}
    (h : Scheduled ⟨c, .reconnect caller id point⟩)
    (hfiled : Filed ⟨c', next⟩) (honly : FssClient.OnlyServer id c c')
    (hready : ∀ other ∈ next.ready, other = id ∧
        (c'.server id).connection = some .handled ∨
      other ∈ (ClientAt.reconnect caller id point).ready)
    (hstands : c'.Stands next) (hopen : ¬ (c'.server id).HasClosed) :
    Scheduled ⟨c', next⟩ := by
  have hout := h.filed.not_mem_of_reconnect
  have hothers : ∀ other ∈
      c.servers ++ (ClientAt.reconnect caller id point).ready,
      (c'.server other).connection = some .handled := by
    intro other hother
    rw [honly.others other fun heq => hout (heq ▸ hother)]
    exact h.handled other hother
  constructor
  case filed => exact hfiled
  case handled =>
    refine List.forall_mem_append.mpr ⟨fun other hother => ?_, ?_⟩
    · change other ∈ c'.servers at hother
      rw [honly.servers] at hother
      exact hothers other (List.mem_append_left _ hother)
    · intro other hother
      rcases hready other hother with ⟨rfl, hhandled⟩ | hother
      · exact hhandled
      · exact hothers other (List.mem_append_right _ hother)
  case stands => exact hstands
  case closed =>
    intro other hother
    change (c'.server other).HasClosed at hother
    change other ∈ c'.reconnectServers
    have hne : other ≠ id := fun heq => hopen (heq ▸ hother)
    rw [honly.others other hne] at hother
    rw [honly.reconnectServers]
    exact h.closed other hother

theorem reconnect_next {caller : Caller} {point point' : ReconnectAt}
    (h : Scheduled ⟨c, .reconnect caller id point⟩)
    (hfiled : Filed ⟨c', .reconnect caller id point'⟩)
    (honly : FssClient.OnlyServer id c c')
    (hleaves : (Progress.next point').Leaves (c'.server id).connection) :
    Scheduled ⟨c', .reconnect caller id point'⟩ := by
  refine h.reconnect hfiled honly (fun other hother => .inr ?_) hleaves.2
    (not_hasClosed_of_expects hleaves.1 hleaves.2)
  cases caller <;> exact hother

theorem reconnect_returned {caller : Caller} {point : ReconnectAt}
    {result : Bool} (h : Scheduled ⟨c, .reconnect caller id point⟩)
    (hfiled : Filed ⟨c', caller.goesOn id result⟩)
    (honly : FssClient.OnlyServer id c c')
    (hleaves : (Progress.returned result).Leaves (c'.server id).connection) :
    Scheduled ⟨c', caller.goesOn id result⟩ := by
  have hopen : ¬ (c'.server id).HasClosed := by
    cases result with
    | false => exact not_hasClosed hleaves (by decide) (by decide)
    | true => exact not_hasClosed hleaves (by decide) (by decide)
  cases caller with
  | connectTo =>
      refine h.reconnect hfiled honly (fun _ h => absurd h List.not_mem_nil) ?_
        hopen
      cases result with
      | false => exact .inl hleaves
      | true => exact .inr hleaves
  | attemptReconnect index reconnected =>
      refine h.reconnect hfiled honly (fun other hother => ?_) trivial hopen
      cases result with
      | false => exact .inr hother
      | true =>
          rcases List.mem_append.mp hother with hother | hother
          · exact .inr hother
          · exact .inl ⟨List.mem_singleton.mp hother, hleaves⟩

/-- A new server has no connection. -/
theorem create {next : ClientAt} (h : Scheduled ⟨c, place⟩) (address : Bytes)
    (port : UInt16) (hfiled : Filed ⟨c.create address port, next⟩)
    (hready : next.ready = [])
    (hstands : (c.create address port).Stands next) :
    Scheduled ⟨c.create address port, next⟩ := by
  have hold : ∀ other, other ≠ c.created →
      (c.create address port).server other = c.server other :=
    fun other hne => if_neg hne
  have hnew : (c.create address port).server c.created =
      { address := address, port := port } :=
    if_pos rfl
  constructor
  case filed => exact hfiled
  case handled =>
    rw [hready, List.append_nil]
    intro other hother
    have hlt : other < c.created := h.filed.lt_created
      (List.mem_append_left _ (List.mem_append_left _ hother))
    change ((c.create address port).server other).connection = some .handled
    rw [hold other (Nat.ne_of_lt hlt)]
    exact h.handled other (List.mem_append_left _ hother)
  case stands => exact hstands
  case closed =>
    intro other hother
    change ((c.create address port).server other).HasClosed at hother
    by_cases hother' : other = c.created
    · rw [hother', hnew] at hother
      exact absurd hother
        (@not_hasClosed _ none rfl (by decide) (by decide))
    · rw [hold other hother'] at hother
      exact h.closed other hother

/-- A closed message of a server in `servers`. -/
theorem deliver {out : List ConnectionStatus} (h : Scheduled ⟨c, place⟩)
    (hmem : id ∈ c.servers) (hclosed : c.closed id = some (c', out)) :
    Scheduled ⟨c', place⟩ := by
  have htaken := FssClient.closedTaken_of_closed hclosed
  have hhandled := h.handled id (List.mem_append_left _ hmem)
  have hready : id ∉ place.ready := fun hid =>
    h.filed.not_mem_servers (h.filed.ready_subset hid) hmem
  have hresult : c' = c.processClosed id := by
    change (c.server id).connection = some .handled at hhandled
    rw [FssClient.closed, hhandled] at hclosed
    cases hclosed
    rfl
  have hservers : c'.servers = c.servers.filter (· ≠ id) := by
    rw [hresult, FssClient.processClosed, FssClient.serverRequiresReconnect,
      if_pos hmem, FssClient.servers_modify]
  have hreconnect : c'.reconnectServers = c.reconnectServers ++ [id] := by
    rw [hresult, FssClient.processClosed, FssClient.serverRequiresReconnect,
      if_pos hmem, FssClient.reconnectServers_modify]
  have hothers : ∀ other, other ≠ id → c'.server other = c.server other := by
    intro other hne
    rw [hresult, FssClient.processClosed, FssClient.server_modify_of_ne hne,
      FssClient.serverRequiresReconnect, if_pos hmem]
  constructor
  case filed => exact h.filed.closed htaken
  case handled =>
    intro other hother
    change (c'.server other).connection = some .handled
    change other ∈ c'.servers ++ place.ready at hother
    rw [hservers] at hother
    rcases List.mem_append.mp hother with hother | hother
    · obtain ⟨hother, hne⟩ := List.mem_filter.mp hother
      rw [hothers other (by simpa using hne)]
      exact h.handled other (List.mem_append_left _ hother)
    · rw [hothers other fun heq => hready (heq ▸ hother)]
      exact h.handled other (List.mem_append_right _ hother)
  case stands =>
    have hne : ∀ other, place.worksOn = some other → other ≠ id := by
      rintro other hother rfl
      exact h.filed.worksOn_not_mem hother hmem
    have hstands := h.stands
    cases place with
    | reconnect caller other point =>
        change point.Expects (c'.server other).connection
        rw [hothers other (hne other rfl)]
        exact hstands
    | addServer other entries =>
        change (c'.server other).connection = none ∨
          (c'.server other).connection = some .handled
        rw [hothers other (hne other rfl)]
        exact hstands
    | _ => trivial
  case closed =>
    intro other hother
    change (c'.server other).HasClosed at hother
    change other ∈ c'.reconnectServers
    rw [hreconnect]
    by_cases hother' : other = id
    · rw [hother']
      exact List.mem_append_right _ List.mem_cons_self
    · rw [hothers other hother'] at hother
      exact List.mem_append_left _ (h.closed other hother)

/-- A server that has a connection when it is filed has a handler on it. -/
theorem fileServer {id : Nat} {entries : List (Bytes × UInt16)}
    (h : Scheduled ⟨c, .addServer id entries⟩)
    (hfiled : Filed ⟨c, .fileServer id (c.server id).connected entries⟩) :
    Scheduled ⟨c, .fileServer id (c.server id).connected entries⟩ := by
  constructor
  case filed => exact hfiled
  case handled =>
    refine List.forall_mem_append.mpr ⟨fun other hother => ?_, ?_⟩
    · exact h.handled other (List.mem_append_left _ hother)
    · intro other hother
      rcases h.stands with hnone | hhandled
      · rw [FssServer.connected, hnone] at hother
        cases hother
      · rw [FssServer.connected, hhandled] at hother
        rw [List.mem_singleton.mp hother]
        exact hhandled
  case stands => trivial
  case closed => exact h.closed

/-- A server whose connection has been closed stays in
`reconnect_servers`. -/
theorem remove {id : Nat} {reconnected : List Nat}
    (h : Scheduled ⟨c, .remove id reconnected⟩)
    (hfiled : Filed
      ⟨{ c with reconnectServers := c.reconnectServers.filter (· ≠ id) },
        .pushBack id reconnected⟩) :
    Scheduled
      ⟨{ c with reconnectServers := c.reconnectServers.filter (· ≠ id) },
        .pushBack id reconnected⟩ := by
  refine h.stay hfiled rfl (fun other hother => hother) trivial ?_
  intro other hother hmem
  refine List.mem_filter.mpr ⟨hmem, ?_⟩
  have hhandled := h.handled id (List.mem_append_right _ List.mem_cons_self)
  have hne : other ≠ id := by
    rintro rfl
    exact not_hasClosed hhandled (by decide) (by decide) hother
  simpa using hne

/-- One statement of the operation in progress. -/
theorem advance {now : UInt64} {connects : Bool} {next : ClientState}
    {out : List ConnectionStatus} (h : Scheduled ⟨c, place⟩)
    (hstep : c.advance now connects place = some (next, out)) :
    Scheduled next := by
  have hfiled : Filed next := h.filed.advance hstep
  cases place with
  | idle => cases hstep
  | reconnect caller id point =>
      have hout := h.filed.not_mem_of_reconnect
      rw [List.mem_append, not_or] at hout
      have hunderway : c.Underway id point := by
        have hplace := h.filed.place
        cases caller with
        | connectTo => exact hplace
        | attemptReconnect index reconnected => exact hplace.1
      have hspec := FssClient.reconnect_spec hout.1 now connects hunderway
      have hleaves := expected_reconnect now connects h.stands
      rw [FssClient.advance] at hstep
      split at hstep
      · next c' point' statuses heq =>
          cases hstep
          rw [heq] at hspec hleaves
          exact h.reconnect_next hfiled hspec.1 hleaves
      · next c' result statuses heq =>
          cases hstep
          rw [heq] at hspec hleaves
          exact h.reconnect_returned hfiled hspec.1 hleaves
  | addServer id entries =>
      cases hstep
      exact h.fileServer hfiled
  | fileServer id connected entries =>
      cases connected with
      | true =>
          cases hstep
          refine h.stay hfiled rfl (fun other hother => ?_) trivial
            fun _ _ hmem => hmem
          change other ∈ (c.servers ++ [id]) ++ [] at hother
          rw [List.append_nil] at hother
          exact hother
      | false =>
          cases hstep
          exact h.stay hfiled rfl (fun other hother => hother) trivial
            fun _ _ hmem => List.mem_append_left _ hmem
  | matchServers entries =>
      cases entries with
      | nil =>
          cases hstep
          exact h.goOn hfiled (List.Subset.refl _) trivial
      | cons entry entries =>
          rw [FssClient.advance] at hstep
          split at hstep
          · cases hstep
            exact h.goOn hfiled (List.Subset.refl _) trivial
          · cases hstep
            exact h.goOn hfiled (List.Subset.refl _) trivial
  | matchReconnect entry entries =>
      rw [FssClient.advance] at hstep
      split at hstep
      · cases hstep
        exact h.goOn hfiled (List.Subset.refl _) trivial
      · cases hstep
        refine h.create entry.1 entry.2 hfiled rfl (.inl ?_)
        exact congrArg FssServer.connection (if_pos rfl)
  | scan index reconnected =>
      rw [FssClient.advance] at hstep
      split at hstep
      · cases hstep
        exact h.goOn hfiled (List.Subset.refl _) trivial
      · split at hstep
        · cases hstep
          exact h.goOn hfiled (List.nil_subset _) trivial
        · cases hstep
          exact h.goOn hfiled (List.Subset.refl _) trivial
  | move reconnected =>
      cases reconnected with
      | nil =>
          cases hstep
          exact h.goOn hfiled (List.Subset.refl _) trivial
      | cons id reconnected =>
          cases hstep
          exact h.goOn hfiled (List.Subset.refl _) trivial
  | remove id reconnected =>
      cases hstep
      exact h.remove hfiled
  | pushBack id reconnected =>
      cases hstep
      refine h.stay hfiled rfl (fun other hother => ?_) trivial
        fun _ _ hmem => hmem
      change other ∈ (c.servers ++ [id]) ++ reconnected at hother
      rw [List.append_assoc] at hother
      exact hother

end Scheduled

theorem Scheduled.kept {s next : ClientState} {e : ClientEvent}
    {out : List ConnectionStatus} (h : Scheduled s)
    (hguard : DeliveredWhenFiled s e)
    (hstep : s.step e = some (next, out)) : Scheduled next := by
  have hfiled := h.filed.kept hstep
  obtain ⟨c, place⟩ := s
  cases e with
  | connectTo address port connect =>
      obtain ⟨rfl, rfl⟩ := of_starts hstep
      cases connect with
      | true => exact h.create address port hfiled rfl trivial
      | false =>
          refine h.create address port hfiled rfl (.inl ?_)
          exact congrArg FssServer.connection (if_pos rfl)
  | updateServers entries =>
      obtain ⟨rfl, rfl⟩ := of_starts hstep
      exact h.goOn hfiled (List.Subset.refl _) trivial
  | attemptReconnect =>
      obtain ⟨rfl, rfl⟩ := of_starts hstep
      exact h.goOn hfiled (List.Subset.refl _) trivial
  | advance now connects => exact h.advance hstep
  | closed id =>
      rw [ClientState.step] at hstep
      split at hstep
      · next c' statuses hclosed =>
          cases hstep
          exact h.deliver hguard hclosed
      · cases hstep

/-- In a run whose closed messages are all delivered when their servers are in
`servers`, a server whose connection has been closed is to be tried again, and
no server with such a connection is thought to be connected. -/
theorem closed_scheduled {events : List ClientEvent} {final : ClientState}
    {outs : List ConnectionStatus}
    (hrun : run ClientState.step {} events = some (final, outs))
    (hguard : AllSteps ClientState.step DeliveredWhenFiled {} events) :
    ∀ id, (final.client.server id).HasClosed →
      id ∈ final.client.reconnectServers ∧ id ∉ final.client.servers := by
  have h : Scheduled final := run_keeps Scheduled hrun hguard scheduled_start
    fun h hok hstep => h.kept hok hstep
  intro id hclosed
  have hmem := h.closed id hclosed
  exact ⟨hmem, h.filed.not_mem_servers (List.mem_append_left _ hmem)⟩

theorem closed_scheduled_filed :
    ∃ final outs,
      run ClientState.step {}
        (.connectTo [65] 1 true :: advances 9 ++ [.closed 0]) =
          some (final, outs) ∧
      ∀ id, (final.client.server id).HasClosed →
        id ∈ final.client.reconnectServers ∧ id ∉ final.client.servers := by
  refine ⟨_, _, rfl, ?_⟩
  apply @closed_scheduled (.connectTo [65] 1 true :: advances 9 ++ [.closed 0])
  · rfl
  · decide

/-- Closed while `connectTo` has connected the server and not filed it. -/
def closedBeforeFiled : List ClientEvent :=
  .connectTo [65] 1 true :: advances 6 ++ .closed 0 :: advances 3

theorem not_scheduled_closedBeforeFiled :
    ∃ final outs,
      run ClientState.step {} closedBeforeFiled = some (final, outs) ∧
      final.place = .idle ∧
      (final.client.server 0).connection = some .closed ∧
      0 ∈ final.client.servers ∧ 0 ∉ final.client.reconnectServers :=
  ⟨_, _, rfl, rfl, rfl, by decide, by decide⟩

end FlightSafety.Client
