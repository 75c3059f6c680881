/-
`fss_client::disconnect` walks along `servers` with an iterator.  While it
waits for a receive loop to end, the loop can deliver the closed message, which
takes the server that the iterator refers to out of the list.
-/
import FlightSafety.Client.Bookkeeping

namespace FlightSafety.Client

open Octets Machine

/-- Where `disconnect` is.  An iterator is at a server or at the end. -/
inductive DisconnectAt where
  | test (iterator : Option Nat)
  | disconnect (id : Nat)
  | join (id : Nat)
  | clearConnection (id : Nat)
  | increment (id : Nat)
  | returned
deriving Repr, DecidableEq

structure Disconnecting where
  client : FssClient
  place : DisconnectAt

inductive DisconnectEvent where
  | advance
  | closed (id : Nat)
deriving Repr, DecidableEq

/-- The receive loop of a connection has not ended. -/
def FssServer.Receives (s : FssServer) : Prop :=
  s.connection = some .connected ∨ s.connection = some .handled

instance (s : FssServer) : Decidable s.Receives :=
  inferInstanceAs (Decidable (_ ∨ _))

/-- What an iterator is at after an increment. -/
def following (id : Nat) : List Nat → Option Nat
  | [] => none
  | other :: ids => if other = id then ids.head? else following id ids

namespace Disconnecting

def start (c : FssClient) : Disconnecting :=
  ⟨c, .test c.servers.head?⟩

/-- What the iterator is at. -/
def iterator (s : Disconnecting) : Option Nat :=
  match s.place with
  | .test iterator => iterator
  | .disconnect id | .join id | .clearConnection id | .increment id => some id
  | .returned => none

/-- The next statement.  Its output is a server that `disconnect` is called
on.  Nothing is known of what happens when an iterator is used whose element
has been removed. -/
def advance (s : Disconnecting) : Option (Disconnecting × List Nat) :=
  match s.place with
  | .test none => some ({ s with place := .returned }, [])
  | .test (some id) =>
      if id ∈ s.client.servers then
        some ({ s with place := .disconnect id }, [])
      else none
  | .disconnect id =>
      if (s.client.server id).connected then
        some ({ s with place := .join id }, [id])
      else some ({ s with place := .increment id }, [id])
  | .join id =>
      if (s.client.server id).Receives then none
      else some ({ s with place := .clearConnection id }, [])
  | .clearConnection id =>
      some (⟨s.client.modify id (·.clearConnection), .increment id⟩, [])
  | .increment id =>
      if id ∈ s.client.servers then
        some ({ s with place := .test (following id s.client.servers) }, [])
      else none
  | .returned => none

def step : Step Disconnecting DisconnectEvent Nat
  | s, .advance => s.advance
  | s, .closed id =>
      match s.client.closed id with
      | some (c, _) => some (⟨c, s.place⟩, [])
      | none => none

/-- The element that the iterator is at is in the list. -/
def IteratorPresent (s : Disconnecting) : Prop :=
  ∀ id, s.iterator = some id → id ∈ s.client.servers

end Disconnecting

/-- What `disconnect` is for: in every run the iterator is at an element that
is present, and at the end `disconnect` has been called once for each server
and none has a connection; and there is a run to the end. -/
def DisconnectsAll (c : FssClient) : Prop :=
  (∀ events final calls,
    run Disconnecting.step (.start c) events = some (final, calls) →
      final.IteratorPresent ∧ (final.place = .returned → ∀ id ∈ c.servers,
        calls.count id = 1 ∧ (final.client.server id).connection = none)) ∧
  ∃ events final calls,
    run Disconnecting.step (.start c) events = some (final, calls) ∧
      final.place = .returned

theorem following_append {visited rest : List Nat} {id : Nat}
    (h : id ∉ visited) :
    following id (visited ++ id :: rest) = rest.head? := by
  induction visited with
  | nil => exact if_pos rfl
  | cons other visited ih =>
      rw [List.mem_cons, not_or] at h
      rw [List.cons_append, following, if_neg (Ne.symm h.1)]
      exact ih h.2

/-- A server whose closed message would move it. -/
def FssServer.Handled (s : FssServer) : Prop :=
  s.connection = some .handled

instance (s : FssServer) : Decidable s.Handled :=
  inferInstanceAs (Decidable (_ = _))

/-! Servers that are not handled are passed. -/

/-- A state from which `disconnect` comes to another one, with some calls. -/
def Reaches (s final : Disconnecting) : Prop :=
  ∃ events calls, run Disconnecting.step s events = some (final, calls)

theorem Reaches.refl (s : Disconnecting) : Reaches s s :=
  ⟨[], [], rfl⟩

theorem Reaches.step {s next final : Disconnecting} {e : DisconnectEvent}
    {out : List Nat} (hstep : s.step e = some (next, out))
    (h : Reaches next final) : Reaches s final := by
  obtain ⟨events, calls, hrun⟩ := h
  exact ⟨e :: events, out ++ calls,
    run_cons_eq_some.mpr ⟨next, out, calls, hstep, hrun, rfl⟩⟩

theorem Reaches.trans {s middle final : Disconnecting}
    (h : Reaches s middle) (h' : Reaches middle final) : Reaches s final := by
  obtain ⟨first, early, hfirst⟩ := h
  obtain ⟨second, late, hsecond⟩ := h'
  exact ⟨first ++ second, early ++ late,
    run_append_eq_some.mpr ⟨middle, early, late, hfirst, hsecond, rfl⟩⟩

section Pass

variable {c : FssClient} {id : Nat}

theorem reaches_disconnect (h : id ∈ c.servers) :
    Reaches ⟨c, .test (some id)⟩ ⟨c, .disconnect id⟩ := by
  have htest : Disconnecting.step ⟨c, .test (some id)⟩ .advance =
      some (⟨c, .disconnect id⟩, []) := if_pos h
  exact .step htest (.refl _)

theorem reaches_increment (h : id ∈ c.servers) :
    Reaches ⟨c, .increment id⟩ ⟨c, .test (following id c.servers)⟩ := by
  have hincrement : Disconnecting.step ⟨c, .increment id⟩ .advance =
      some (⟨c, .test (following id c.servers)⟩, []) := if_pos h
  exact .step hincrement (.refl _)

/-- A receive loop that has ended is joined. -/
theorem reaches_cleared (h : ¬ (c.server id).Receives) :
    Reaches ⟨c, .join id⟩
      ⟨c.modify id (·.clearConnection), .increment id⟩ := by
  have hjoin : Disconnecting.step ⟨c, .join id⟩ .advance =
      some (⟨c, .clearConnection id⟩, []) := if_neg h
  have hclear : Disconnecting.step ⟨c, .clearConnection id⟩ .advance =
      some (⟨c.modify id (·.clearConnection), .increment id⟩, []) := rfl
  exact .step hjoin (.step hclear (.refl _))

/-- A server whose closed message would not move it is passed. -/
theorem reaches_following (h : id ∈ c.servers)
    (hhandled : ¬ (c.server id).Handled) :
    ∃ c', Reaches ⟨c, .test (some id)⟩
        ⟨c', .test (following id c.servers)⟩ ∧
      FssClient.OnlyServer id c c' := by
  by_cases hconnected : (c.server id).connected
  · have hjoin : Disconnecting.step ⟨c, .disconnect id⟩ .advance =
        some (⟨c, .join id⟩, [id]) := if_pos hconnected
    by_cases hreceives : (c.server id).Receives
    · have hstage : (c.server id).connection = some .connected :=
        hreceives.resolve_right hhandled
      let queued := c.modify id (·.setConnection .closedQueued)
      have hclosed : Disconnecting.step ⟨c, .join id⟩ (.closed id) =
          some (⟨queued, .join id⟩, []) := by
        simp only [Disconnecting.step, FssClient.closed, hstage, queued]
      have hended : ¬ (queued.server id).Receives := by
        simp [queued, FssServer.Receives, FssServer.setConnection]
      refine ⟨queued.modify id (·.clearConnection), ?_, ?_⟩
      · exact (reaches_disconnect h).trans (.step hjoin (.step hclosed
          ((reaches_cleared hended).trans (reaches_increment h))))
      · refine ⟨rfl, rfl, rfl, fun other hne => ?_⟩
        rw [FssClient.server_modify_of_ne hne, FssClient.server_modify_of_ne hne]
    · refine ⟨c.modify id (·.clearConnection), ?_, ?_⟩
      · exact (reaches_disconnect h).trans (.step hjoin
          ((reaches_cleared hreceives).trans (reaches_increment h)))
      · exact FssClient.onlyServer_modify c id _
  · have hnone : Disconnecting.step ⟨c, .disconnect id⟩ .advance =
        some (⟨c, .increment id⟩, [id]) := if_neg hconnected
    refine ⟨c, ?_, .refl id c⟩
    exact (reaches_disconnect h).trans (.step hnone (reaches_increment h))

end Pass

/-- All servers of a stretch of the list are passed. -/
theorem reaches_rest {c : FssClient} {visited passed rest : List Nat}
    (hservers : c.servers = visited ++ (passed ++ rest))
    (hnodup : c.servers.Nodup)
    (hpassed : ∀ id ∈ passed, ¬ (c.server id).Handled) :
    ∃ c', Reaches ⟨c, .test (passed ++ rest).head?⟩ ⟨c', .test rest.head?⟩ ∧
      c'.servers = c.servers ∧
      ∀ id, id ∉ passed → c'.server id = c.server id := by
  induction passed generalizing c visited with
  | nil => exact ⟨c, .refl _, rfl, fun _ _ => rfl⟩
  | cons id passed ih =>
      rw [List.forall_mem_cons] at hpassed
      have hmem : id ∈ c.servers := by
        rw [hservers]
        exact List.mem_append_right _ List.mem_cons_self
      have hapart : id ∉ visited ∧ id ∉ passed := by
        rw [hservers] at hnodup
        obtain ⟨-, hrest, hapart⟩ := List.nodup_append.mp hnodup
        refine ⟨fun h => hapart id h id List.mem_cons_self rfl, fun h => ?_⟩
        exact (List.nodup_cons.mp hrest).1 (List.mem_append_left _ h)
      obtain ⟨c₁, hpass, honly⟩ := reaches_following hmem hpassed.1
      have hnext : following id c.servers = (passed ++ rest).head? := by
        rw [hservers]
        exact following_append hapart.1
      rw [hnext] at hpass
      have hservers₁ : c₁.servers = (visited ++ [id]) ++ (passed ++ rest) := by
        rw [honly.servers, hservers, List.append_assoc]
        rfl
      obtain ⟨c', hreaches, hlist, hothers⟩ := ih hservers₁
        (honly.servers ▸ hnodup) fun other hother => by
          rw [honly.others other fun heq => hapart.2 (heq ▸ hother)]
          exact hpassed.2 other hother
      refine ⟨c', hpass.trans hreaches, hlist.trans honly.servers, ?_⟩
      intro other hother
      rw [List.mem_cons, not_or] at hother
      rw [hothers other hother.2, honly.others other hother.1]

/-- The closed message of a server in the list, delivered while `disconnect`
waits for it, removes the element that the iterator is at. -/
theorem not_disconnectsAll {c : FssClient} (hnodup : c.servers.Nodup) {id : Nat}
    (hmem : id ∈ c.servers) (hhandled : (c.server id).Handled) :
    ¬ DisconnectsAll c := by
  rintro ⟨hall, -⟩
  have hsome :
      (c.servers.find? fun id => decide (c.server id).Handled).isSome := by
    rw [List.find?_isSome]
    exact ⟨id, hmem, decide_eq_true hhandled⟩
  obtain ⟨first, hfirst⟩ := Option.isSome_iff_exists.mp hsome
  obtain ⟨hmoved, passed, rest, hsplit, hpassed⟩ :=
    List.find?_eq_some_iff_append.mp hfirst
  have hunhandled : ∀ id ∈ passed, ¬ (c.server id).Handled := by
    simpa using hpassed
  have hstage : (c.server first).connection = some .handled :=
    of_decide_eq_true hmoved
  have hapart : first ∉ passed := fun h => hunhandled first h hstage
  obtain ⟨c', hreaches, hservers, hothers⟩ :=
    @reaches_rest c [] passed (first :: rest) hsplit hnodup hunhandled
  rw [← hothers first hapart] at hstage
  have hmem' : first ∈ c'.servers := by
    rw [hservers, hsplit]
    exact List.mem_append_right _ List.mem_cons_self
  have hjoin : Disconnecting.step ⟨c', .disconnect first⟩ .advance =
      some (⟨c', .join first⟩, [first]) := by
    apply if_pos
    rw [FssServer.connected, hstage]
    rfl
  have hclosed : Disconnecting.step ⟨c', .join first⟩ (.closed first) =
      some (⟨c'.processClosed first, .join first⟩, []) := by
    simp only [Disconnecting.step, FssClient.closed, hstage]
  have hstart : Reaches (.start c) ⟨c', .test (some first)⟩ := by
    rw [Disconnecting.start, hsplit]
    exact hreaches
  obtain ⟨events, calls, hrun⟩ := hstart.trans ((reaches_disconnect hmem').trans
    (.step hjoin (.step hclosed (.refl _))))
  have hpresent := (hall events _ calls hrun).1 first rfl
  simp [FssClient.processClosed, FssClient.serverRequiresReconnect, hmem']
    at hpresent

/-! With no such server the walk is undisturbed. -/

/-- A closed message that does not move its server. -/
theorem closed_unmoved {c c' : FssClient} {id : Nat}
    {out : List ConnectionStatus}
    (hunhandled : id ∈ c.servers → ¬ (c.server id).Handled)
    (h : c.closed id = some (c', out)) :
    FssClient.OnlyServer id c c' ∧ (c.server id).connection ≠ none ∧
      ¬ (c'.server id).Handled := by
  unfold FssClient.closed at h
  split at h
  · next hstage =>
      cases h
      refine ⟨FssClient.onlyServer_modify c id _, by simp [hstage], ?_⟩
      simp [FssServer.Handled, FssServer.setConnection]
  · next hstage =>
      cases h
      have hout : id ∉ c.servers := fun hmem => hunhandled hmem hstage
      refine ⟨FssClient.onlyServer_processClosed hout, by simp [hstage], ?_⟩
      simp [FssClient.processClosed, FssServer.Handled,
        FssServer.processClosed]
  · cases h

/-- The servers of a list have no connection any more. -/
def Cleared (c : FssClient) (ids : List Nat) : Prop :=
  ∀ id ∈ ids, (c.server id).connection = none

/-- How far the walk along a list of servers has come, by the servers that
`disconnect` has been called on. -/
inductive Walk (servers : List Nat) (c : FssClient) :
    DisconnectAt → List Nat → Prop where
  | test {visited rest : List Nat} (split : servers = visited ++ rest)
      (cleared : Cleared c visited) : Walk servers c (.test rest.head?) visited
  | disconnect {visited rest : List Nat} {id : Nat}
      (split : servers = visited ++ id :: rest) (cleared : Cleared c visited) :
      Walk servers c (.disconnect id) visited
  | join {visited rest : List Nat} {id : Nat}
      (split : servers = visited ++ id :: rest) (cleared : Cleared c visited) :
      Walk servers c (.join id) (visited ++ [id])
  | clearConnection {visited rest : List Nat} {id : Nat}
      (split : servers = visited ++ id :: rest) (cleared : Cleared c visited) :
      Walk servers c (.clearConnection id) (visited ++ [id])
  | increment {visited rest : List Nat} {id : Nat}
      (split : servers = visited ++ id :: rest)
      (cleared : Cleared c (visited ++ [id])) :
      Walk servers c (.increment id) (visited ++ [id])
  | returned (cleared : Cleared c servers) : Walk servers c .returned servers

/-- What has been cleared stays so, whatever else happens. -/
theorem Walk.mono {servers calls : List Nat} {c c' : FssClient}
    {place : DisconnectAt} (h : Walk servers c place calls)
    (hcleared : ∀ ids, Cleared c ids → Cleared c' ids) :
    Walk servers c' place calls := by
  cases h with
  | test split cleared => exact .test split (hcleared _ cleared)
  | disconnect split cleared => exact .disconnect split (hcleared _ cleared)
  | join split cleared => exact .join split (hcleared _ cleared)
  | clearConnection split cleared =>
      exact .clearConnection split (hcleared _ cleared)
  | increment split cleared => exact .increment split (hcleared _ cleared)
  | returned cleared => exact .returned (hcleared _ cleared)

/-- The walk while no server of the list can be moved. -/
structure Undisturbed (ids : List Nat) (s : Disconnecting) (calls : List Nat) :
    Prop where
  servers : s.client.servers = ids
  unhandled : ∀ id ∈ ids, ¬ (s.client.server id).Handled
  walk : Walk ids s.client s.place calls

theorem undisturbed_start {c : FssClient}
    (h : ∀ id ∈ c.servers, ¬ (c.server id).Handled) :
    Undisturbed c.servers (.start c) [] where
  servers := rfl
  unhandled := h
  walk := .test rfl fun _ hmem => absurd hmem List.not_mem_nil

theorem Undisturbed.closed {ids calls : List Nat} {c c' : FssClient}
    {place : DisconnectAt} {id : Nat} {out : List ConnectionStatus}
    (h : Undisturbed ids ⟨c, place⟩ calls)
    (hclosed : c.closed id = some (c', out)) :
    Undisturbed ids ⟨c', place⟩ calls := by
  have hunhandled : id ∈ c.servers → ¬ (c.server id).Handled := by
    intro hmem
    rw [h.servers] at hmem
    exact h.unhandled id hmem
  obtain ⟨honly, hconnection, hafter⟩ := closed_unmoved hunhandled hclosed
  constructor
  case servers => exact honly.servers.trans h.servers
  case unhandled =>
    intro other hother
    by_cases heq : other = id
    · rw [heq]
      exact hafter
    · change ¬ (c'.server other).Handled
      rw [honly.others other heq]
      exact h.unhandled other hother
  case walk =>
    refine h.walk.mono fun ids hcleared other hother => ?_
    have hne : other ≠ id := by
      rintro rfl
      exact hconnection (hcleared other hother)
    rw [honly.others other hne]
    exact hcleared other hother

theorem Cleared.concat {c : FssClient} {visited : List Nat} {id : Nat}
    (h : Cleared c visited) (hid : (c.server id).connection = none) :
    Cleared c (visited ++ [id]) :=
  List.forall_mem_append.mpr ⟨h, fun other hother => by
    rw [List.mem_singleton.mp hother, hid]⟩

theorem Undisturbed.advance {ids calls out : List Nat}
    {s next : Disconnecting} (hnodup : ids.Nodup)
    (h : Undisturbed ids s calls) (hstep : s.advance = some (next, out)) :
    Undisturbed ids next (calls ++ out) := by
  obtain ⟨c, place⟩ := s
  have hservers : c.servers = ids := h.servers
  have hunhandled := h.unhandled
  have hout : ∀ {visited rest : List Nat} {id : Nat},
      ids = visited ++ id :: rest → id ∉ visited := by
    intro visited rest id hsplit hmem
    rw [hsplit] at hnodup
    exact (List.nodup_append.mp hnodup).2.2 id hmem id List.mem_cons_self rfl
  have hwalk : ∀ {place' : DisconnectAt} {calls' : List Nat},
      Walk ids c place' calls' → Undisturbed ids ⟨c, place'⟩ calls' :=
    fun hwalk => ⟨hservers, hunhandled, hwalk⟩
  cases h.walk with
  | @test visited rest split cleared =>
      cases rest with
      | nil =>
          cases hstep
          rw [List.append_nil] at split ⊢
          rw [← split]
          exact hwalk (.returned (split ▸ cleared))
      | cons id rest =>
          simp only [Disconnecting.advance, List.head?_cons] at hstep
          split at hstep
          · cases hstep
            rw [List.append_nil]
            exact hwalk (.disconnect split cleared)
          · cases hstep
  | disconnect split cleared =>
      simp only [Disconnecting.advance] at hstep
      split at hstep
      · cases hstep
        exact hwalk (.join split cleared)
      · next hnone =>
          cases hstep
          refine hwalk (.increment split (cleared.concat ?_))
          simpa [FssServer.connected] using hnone
  | join split cleared =>
      simp only [Disconnecting.advance] at hstep
      split at hstep
      · cases hstep
      · cases hstep
        rw [List.append_nil]
        exact hwalk (.clearConnection split cleared)
  | @clearConnection visited rest id split cleared =>
      cases hstep
      rw [List.append_nil]
      constructor
      case servers => exact hservers
      case unhandled =>
        intro other hother
        change ¬ ((c.modify id _).server other).Handled
        by_cases heq : other = id
        · rw [heq, FssClient.server_modify_self]
          simp [FssServer.Handled, FssServer.clearConnection]
        · rw [FssClient.server_modify_of_ne heq]
          exact hunhandled other hother
      case walk =>
        refine .increment split (Cleared.concat (fun other hother => ?_) ?_)
        · have hne : other ≠ id := fun heq => hout split (heq ▸ hother)
          rw [FssClient.server_modify_of_ne hne]
          exact cleared other hother
        · rw [FssClient.server_modify_self]
          rfl
  | @increment visited rest id split cleared =>
      simp only [Disconnecting.advance] at hstep
      split at hstep
      · cases hstep
        have hnext : following id c.servers = rest.head? := by
          rw [hservers, split]
          exact following_append (hout split)
        rw [List.append_nil, hnext]
        refine hwalk (.test ?_ cleared)
        rw [split, List.append_assoc]
        rfl
      · cases hstep
  | returned cleared => cases hstep

theorem Undisturbed.kept {ids calls out : List Nat} {s next : Disconnecting}
    {e : DisconnectEvent} (hnodup : ids.Nodup) (h : Undisturbed ids s calls)
    (hstep : s.step e = some (next, out)) :
    Undisturbed ids next (calls ++ out) := by
  cases e with
  | advance => exact h.advance hnodup hstep
  | closed id =>
      rw [Disconnecting.step] at hstep
      split at hstep
      · next c' statuses hclosed =>
          cases hstep
          rw [List.append_nil]
          exact h.closed hclosed
      · cases hstep

/-- The iterator is at a server that has not been passed. -/
theorem Undisturbed.present {ids calls : List Nat} {s : Disconnecting}
    (h : Undisturbed ids s calls) : s.IteratorPresent := by
  obtain ⟨c, place⟩ := s
  have hservers : c.servers = ids := h.servers
  have hmem : ∀ {visited rest : List Nat} {id : Nat},
      ids = visited ++ id :: rest → id ∈ c.servers := by
    intro visited rest id hsplit
    rw [hservers, hsplit]
    exact List.mem_append_right _ List.mem_cons_self
  intro id hid
  cases h.walk with
  | @test visited rest split cleared =>
      cases rest with
      | nil => cases hid
      | cons first rest =>
          cases hid
          exact hmem split
  | disconnect split cleared =>
      cases hid
      exact hmem split
  | join split cleared =>
      cases hid
      exact hmem split
  | clearConnection split cleared =>
      cases hid
      exact hmem split
  | increment split cleared =>
      cases hid
      exact hmem split
  | returned cleared => cases hid

theorem disconnectsAll {c : FssClient} (hnodup : c.servers.Nodup)
    (hunhandled : ∀ id ∈ c.servers, ¬ (c.server id).Handled) :
    DisconnectsAll c := by
  refine ⟨fun events final calls hrun => ?_, ?_⟩
  · have h : Undisturbed c.servers final calls :=
      @run_invariant_always _ _ _ _ (Undisturbed c.servers) _ _ [] _ _ hrun
        (undisturbed_start hunhandled) fun h hstep => h.kept hnodup hstep
    refine ⟨h.present, fun hreturned id hid => ?_⟩
    have hwalk := h.walk
    rw [hreturned] at hwalk
    cases hwalk with
    | returned cleared =>
        exact ⟨List.count_eq_one_of_mem hnodup hid, cleared id hid⟩
  · obtain ⟨c', hreaches, -, -⟩ := @reaches_rest c [] c.servers []
      (List.append_nil _).symm hnodup hunhandled
    have hend : Disconnecting.step ⟨c', .test none⟩ .advance =
        some (⟨c', .returned⟩, []) := rfl
    have hstart : Reaches (.start c) ⟨c', .test none⟩ := by
      rw [Disconnecting.start]
      rw [List.append_nil] at hreaches
      exact hreaches
    obtain ⟨events, calls, hrun⟩ := hstart.trans (.step hend (.refl _))
    exact ⟨events, _, calls, hrun, rfl⟩

/-- In every state a client can reach, `disconnect` does what it is for if and
only if no server in `servers` has a connection that would still deliver a
closed message to it. -/
theorem disconnectsAll_iff {events : List ClientEvent} {s : ClientState}
    {outs : List ConnectionStatus}
    (hrun : run ClientState.step {} events = some (s, outs)) :
    DisconnectsAll s.client ↔
      ∀ id ∈ s.client.servers, ¬ (s.client.server id).Handled := by
  have hlists := (List.nodup_append.mp (filed_of_run hrun).nodup).1
  have hnodup := (List.nodup_append.mp hlists).1
  constructor
  · intro hall id hmem hhandled
    exact not_disconnectsAll hnodup hmem hhandled hall
  · exact disconnectsAll hnodup

theorem disconnectsAll_iff_connected :
    ∃ s outs,
      run ClientState.step {} (.connectTo [65] 1 true :: advances 9) =
        some (s, outs) ∧
      (DisconnectsAll s.client ↔
        ∀ id ∈ s.client.servers, ¬ (s.client.server id).Handled) :=
  ⟨_, _, rfl,
    @disconnectsAll_iff (.connectTo [65] 1 true :: advances 9) _ _ rfl⟩

/-- One server, which is connected. -/
theorem iterator_not_present :
    ∃ s outs final calls,
      run ClientState.step {} (.connectTo [65] 1 true :: advances 9) =
        some (s, outs) ∧
      s.place = .idle ∧ s.client.servers = [0] ∧
      (s.client.server 0).connection = some .handled ∧
      run Disconnecting.step (.start s.client)
        [.advance, .advance, .closed 0, .advance, .advance] =
          some (final, calls) ∧
      ¬ final.IteratorPresent := by
  refine ⟨_, _, _, _, rfl, rfl, rfl, rfl, rfl, fun hpresent => ?_⟩
  exact absurd (hpresent 0 rfl) (by decide)

end FlightSafety.Client
