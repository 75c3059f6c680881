/-
Which connections of a client are in use while an operation goes on.  A server
whose connection is being opened is on no way to `servers` yet; the statement
that sets a connection and the one that ends a successful attempt are the only
ones that change what is in use for more.
-/
import FlightSafety.Client.Bookkeeping

namespace FlightSafety.Client

open Octets Machine

/-- A server whose connection has been set and that is about to be told who
the asset is. -/
def ClientAt.opening : ClientAt → List Nat
  | .reconnect _ id .connectTo | .reconnect _ id .setHandler
  | .reconnect _ id .succeed => [id]
  | _ => []

/-- A server that `addServer` files by what it finds. -/
def ClientAt.adding : ClientAt → List Nat
  | .addServer id _ => [id]
  | _ => []

namespace ClientState

/-- The servers in `servers` and those on their way there. -/
def carrying (s : ClientState) : List Nat :=
  s.client.servers ++ s.place.ready ++
    match s.place with
    | .addServer id _ => if (s.client.server id).connected then [id] else []
    | _ => []

/-- An attempt to reconnect begins without a connection. -/
def Cleared (s : ClientState) : Prop :=
  match s.place with
  | .reconnect _ id (.checkElapsed _ _) =>
      (s.client.server id).connected = false
  | _ => True

/-- No connection is new. -/
structure Keeps (s next : ClientState) : Prop where
  carrying : next.carrying ⊆ s.carrying
  opening : next.place.opening ⊆ s.place.opening
  cleared : next.Cleared

variable {c c' : FssClient} {place : ClientAt}

/-- The operation goes on with the same servers on their way to `servers`. -/
theorem Keeps.of_ready {place' : ClientAt} (hservers : c'.servers = c.servers)
    (hready : place'.ready ⊆ place.ready)
    (hadd : ∀ id ∈ place'.adding, (c'.server id).connected = false)
    (hopening : place'.opening ⊆ place.opening)
    (hcleared : Cleared ⟨c', place'⟩) : Keeps ⟨c, place⟩ ⟨c', place'⟩ where
  carrying := by
    have hnone : ClientState.carrying ⟨c', place'⟩ =
        c'.servers ++ place'.ready := by
      rw [ClientState.carrying]
      split
      next id entries hplace =>
          have hmem : id ∈ place'.adding := by
            rw [show place' = .addServer id entries from hplace]
            exact List.mem_singleton_self id
          change c'.servers ++ place'.ready ++
            (if (c'.server id).connected then [id] else []) = _
          rw [hadd id hmem]
          exact List.append_nil _
      next => exact List.append_nil _
    rw [hnone, hservers]
    apply List.Subset.trans _ (List.subset_append_left _ _)
    exact List.append_subset.mpr ⟨List.subset_append_left _ _,
      List.Subset.trans hready (List.subset_append_right _ _)⟩
  opening := hopening
  cleared := hcleared

/-- It goes on without a server that is opened or added. -/
theorem Keeps.of_none {place' : ClientAt} (hservers : c'.servers = c.servers)
    (hready : place'.ready ⊆ place.ready) (hadding : place'.adding = [])
    (hopening : place'.opening = []) (hcleared : Cleared ⟨c', place'⟩) :
    Keeps ⟨c, place⟩ ⟨c', place'⟩ := by
  apply Keeps.of_ready hservers hready _ _ hcleared
  · rw [hadding]
    exact List.forall_mem_nil _
  · rw [hopening]
    exact List.nil_subset _

/-- A statement of `reconnect` other than the two that matter here. -/
theorem keeps_reconnect {caller : Caller} {id : Nat} {point : ReconnectAt}
    {now : UInt64} {connects : Bool} {next : ClientState}
    {out : List ConnectionStatus}
    (h : Filed ⟨c, .reconnect caller id point⟩)
    (hcleared : Cleared ⟨c, .reconnect caller id point⟩)
    (hset : point ≠ .setConnection) (hsucceed : point ≠ .succeed)
    (hstep : c.advance now connects (.reconnect caller id point) =
      some (next, out)) :
    Keeps ⟨c, .reconnect caller id point⟩ next := by
  have hgoesOn : ∀ {c' : FssClient}, c'.servers = c.servers →
      (c'.server id).connected = false →
      Keeps ⟨c, .reconnect caller id point⟩ ⟨c', caller.goesOn id false⟩ := by
    intro c' hservers hnone
    cases caller with
    | connectTo =>
        refine .of_ready hservers (List.nil_subset _) ?_ (List.nil_subset _)
          trivial
        exact List.forall_mem_singleton.mpr hnone
    | attemptReconnect index reconnected =>
        exact .of_none hservers (List.Subset.refl _) rfl rfl trivial
  have hnext : ∀ {c' : FssClient} {point' : ReconnectAt},
      c'.servers = c.servers →
      (ClientAt.reconnect caller id point').opening ⊆
        (ClientAt.reconnect caller id point).opening →
      Cleared ⟨c', .reconnect caller id point'⟩ →
      Keeps ⟨c, .reconnect caller id point⟩
        ⟨c', .reconnect caller id point'⟩ := by
    intro c' point' hservers hopening hcleared'
    refine .of_ready hservers ?_ (List.forall_mem_nil _) hopening hcleared'
    cases caller <;> exact List.Subset.refl _
  cases point with
  | start =>
      cases hstep
      exact hnext rfl (List.nil_subset _)
        (congrArg FssServer.connected (FssClient.server_modify_self _))
  | checkElapsed ts elapsed =>
      rw [FssClient.advance, FssClient.reconnect] at hstep
      split at hstep
      next c' point' statuses heq =>
          split at heq <;> cases heq
          cases hstep
          exact hnext rfl (List.nil_subset _) trivial
      next c' result statuses heq =>
          split at heq <;> cases heq
          cases hstep
          exact hgoesOn rfl hcleared
  | setConnection => exact absurd rfl hset
  | connectTo =>
      rw [FssClient.advance, FssClient.reconnect] at hstep
      cases connects with
      | true =>
          cases hstep
          exact hnext rfl (List.Subset.refl _) trivial
      | false =>
          cases hstep
          exact hnext rfl (List.nil_subset _) trivial
  | clearConnection =>
      cases hstep
      exact hgoesOn rfl
        (congrArg FssServer.connected (FssClient.server_modify_self _))
  | setHandler =>
      cases hstep
      have hout := h.not_mem_of_reconnect
      rw [List.mem_append, not_or] at hout
      exact hnext (FssClient.onlyServer_setHandler hout.1).servers
        (List.Subset.refl _) trivial
  | succeed => exact absurd rfl hsucceed

/-- Any other statement. -/
theorem keeps_advance {now : UInt64} {connects : Bool} {next : ClientState}
    {out : List ConnectionStatus} (h : Filed ⟨c, place⟩)
    (hcleared : Cleared ⟨c, place⟩)
    (hset : ∀ caller id, place ≠ .reconnect caller id .setConnection)
    (hsucceed : ∀ caller id, place ≠ .reconnect caller id .succeed)
    (hstep : c.advance now connects place = some (next, out)) :
    Keeps ⟨c, place⟩ next := by
  cases place with
  | idle => cases hstep
  | reconnect caller id point =>
      apply keeps_reconnect h hcleared _ _ hstep
      · rintro rfl
        exact hset caller id rfl
      · rintro rfl
        exact hsucceed caller id rfl
  | addServer id entries =>
      cases hstep
      refine ⟨?_, List.nil_subset _, trivial⟩
      change c.servers ++ ClientAt.ready (.fileServer id _ entries) ++ [] ⊆
        c.servers ++ [] ++ if (c.server id).connected then [id] else []
      cases (c.server id).connected with
      | false => exact List.Subset.refl _
      | true => simp [ClientAt.ready]
  | fileServer id connected entries =>
      cases connected with
      | false =>
          cases hstep
          exact .of_none rfl (List.nil_subset _) rfl rfl trivial
      | true =>
          cases hstep
          refine ⟨?_, List.nil_subset _, trivial⟩
          change c.servers ++ [id] ++ [] ++ [] ⊆ c.servers ++ [id] ++ []
          rw [List.append_nil]
          exact List.Subset.refl _
  | matchServers entries =>
      cases entries with
      | nil =>
          cases hstep
          exact .of_none rfl (List.nil_subset _) rfl rfl trivial
      | cons entry entries =>
          rw [FssClient.advance] at hstep
          split at hstep <;> cases hstep <;>
            exact .of_none rfl (List.nil_subset _) rfl rfl trivial
  | matchReconnect entry entries =>
      rw [FssClient.advance] at hstep
      split at hstep
      · cases hstep
        exact .of_none rfl (List.nil_subset _) rfl rfl trivial
      · cases hstep
        refine .of_ready rfl (List.nil_subset _) ?_ (List.nil_subset _) trivial
        exact List.forall_mem_singleton.mpr
          (congrArg FssServer.connected (if_pos rfl))
  | scan index reconnected =>
      rw [FssClient.advance] at hstep
      split at hstep
      · cases hstep
        exact .of_none rfl (List.Subset.refl _) rfl rfl trivial
      · split at hstep <;> cases hstep
        · exact .of_none rfl (List.nil_subset _) rfl rfl trivial
        · exact .of_none rfl (List.Subset.refl _) rfl rfl trivial
  | move reconnected =>
      cases reconnected <;> cases hstep <;>
        exact .of_none rfl (List.Subset.refl _) rfl rfl trivial
  | remove id reconnected =>
      cases hstep
      exact .of_none rfl (List.Subset.refl _) rfl rfl trivial
  | pushBack id reconnected =>
      cases hstep
      refine ⟨?_, List.nil_subset _, trivial⟩
      change c.servers ++ [id] ++ reconnected ++ [] ⊆
        c.servers ++ (id :: reconnected) ++ []
      rw [List.append_assoc c.servers]
      exact List.Subset.refl _

/-- The start of an operation, or a closed message. -/
theorem keeps_of_step {s next : ClientState} {e : ClientEvent}
    {out : List ConnectionStatus} (hcleared : s.Cleared)
    (hstep : s.step e = some (next, out))
    (he : ∀ now connects, e ≠ .advance now connects) : Keeps s next := by
  obtain ⟨c, place⟩ := s
  cases e with
  | connectTo address port connect =>
      obtain ⟨rfl, rfl⟩ := of_starts hstep
      cases connect with
      | true =>
          exact .of_none rfl (List.nil_subset _) rfl rfl trivial
      | false =>
          refine .of_ready rfl (List.nil_subset _) ?_ (List.nil_subset _) trivial
          exact List.forall_mem_singleton.mpr
            (congrArg FssServer.connected (if_pos rfl))
  | updateServers entries =>
      obtain ⟨rfl, rfl⟩ := of_starts hstep
      exact .of_none rfl (List.nil_subset _) rfl rfl trivial
  | attemptReconnect =>
      obtain ⟨rfl, rfl⟩ := of_starts hstep
      exact .of_none rfl (List.nil_subset _) rfl rfl trivial
  | advance now connects => exact absurd rfl (he now connects)
  | closed id =>
      rw [ClientState.step] at hstep
      split at hstep
      next c' statuses hclosed =>
          cases hstep
          have htaken := FssClient.closedTaken_of_closed hclosed
          have hservers : c'.servers ⊆ c.servers := by
            rcases htaken.lists with ⟨hservers, -⟩ | ⟨-, hservers, -⟩
            · exact hservers ▸ List.Subset.refl _
            · exact hservers ▸ List.filter_subset_self _
          refine ⟨?_, List.Subset.refl _, ?_⟩
          · intro other
            simp only [carrying, htaken.connected, List.mem_append]
            exact Or.imp_left (Or.imp_left (@hservers other))
          · simpa only [Cleared, htaken.connected] using hcleared
      next => cases hstep

theorem not_opening_of_carrying {s : ClientState} (h : Filed s) {id : Nat}
    (hid : id ∈ s.carrying) : id ∉ s.place.opening := by
  obtain ⟨c, place⟩ := s
  cases place with
  | reconnect caller other point =>
      change id ∈ c.servers ++ _ ++ [] at hid
      rw [List.append_nil] at hid
      have hne : id ≠ other := fun heq => h.not_mem_of_reconnect (heq ▸ hid)
      cases point with
      | connectTo | setHandler | succeed =>
          exact fun hmem => hne (List.mem_singleton.mp hmem)
      | _ => exact List.not_mem_nil
  | _ => exact List.not_mem_nil

end ClientState

end FlightSafety.Client
