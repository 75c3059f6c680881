/-
What a client knows over a whole run.  The two lists belong to the program's
own thread, which connects and reconnects servers, and to the receive loop of
every connection, which goes through the lists of servers that it gets and
files its own server anew when the connection has been closed.  Nothing keeps
them apart; yet whatever the client was told of becomes a server, and none is
ever forgotten.
-/
import FlightSafety.Client.LearnServers
import Mathlib.Logic.Function.Basic

namespace FlightSafety.Client

open Octets Machine

/-- Who works on the lists of a client.  A receive loop stands for the
messages that `setHandler` takes from its queue as well. -/
inductive Thread where
  | program
  | receiver (n : Nat)
deriving Repr, DecidableEq

/-- Where a thread is: at a statement of an operation, or in the middle of
`serverRequiresReconnect`, with whether it has found the server. -/
inductive ThreadAt where
  | operation (place : ClientAt)
  | requeue (id : Nat) (found : Bool)
deriving Repr, DecidableEq

/-- A client and where each of its threads is. -/
structure SharedClient where
  client : FssClient := {}
  place : Thread → ThreadAt := fun _ => .operation .idle

inductive SharedEvent where
  | connectTo (address : Bytes) (port : UInt16) (connect : Bool)
  | attemptReconnect
  | updateServers (receiver : Nat) (entries : List (Bytes × UInt16))
  | closed (receiver : Nat) (id : Nat)
  | advance (thread : Thread) (now : UInt64) (connects : Bool)
deriving Repr, DecidableEq

namespace SharedEvent

def thread : SharedEvent → Thread
  | .connectTo _ _ _ | .attemptReconnect => .program
  | .updateServers receiver _ | .closed receiver _ => .receiver receiver
  | .advance thread _ _ => thread

/-- The addresses and ports that the client is told. -/
def told : SharedEvent → List (Bytes × UInt16)
  | .connectTo address port _ => [(address, port)]
  | .updateServers _ entries => entries
  | .attemptReconnect | .closed _ _ | .advance _ _ _ => []

end SharedEvent

namespace FssClient

/-- The first half of `serverRequiresReconnect`: a server that is found is
taken out of `servers`. -/
def takeOut (c : FssClient) (id : Nat) : FssClient :=
  { c with servers := c.servers.filter (· ≠ id) }

/-- The second half, and what is left of the closed message. -/
def requeue (c : FssClient) (id : Nat) (found : Bool) : FssClient :=
  (if found then { c with reconnectServers := c.reconnectServers ++ [id] }
    else c).modify id FssServer.processClosed

/-- One statement of one thread.  An operation goes on as it does alone. -/
def work (c : FssClient) (place : ThreadAt) (e : SharedEvent) :
    Option (FssClient × ThreadAt × List ConnectionStatus) :=
  match place with
  | .operation place =>
      match e with
      | .connectTo address port connect =>
          resume (ClientState.step ⟨c, place⟩ (.connectTo address port connect))
      | .attemptReconnect => resume (ClientState.step ⟨c, place⟩ .attemptReconnect)
      | .updateServers _ entries =>
          resume (ClientState.step ⟨c, place⟩ (.updateServers entries))
      | .advance _ now connects =>
          resume (ClientState.step ⟨c, place⟩ (.advance now connects))
      | .closed _ id =>
          if place = .idle then
            match (c.server id).connection with
            | some .connected =>
                some (c.modify id (·.setConnection .closedQueued),
                  .operation .idle, [])
            | some .handled =>
                some (c.takeOut id, .requeue id (id ∈ c.servers), [])
            | _ => none
          else none
  | .requeue id found =>
      match e with
      | .advance _ _ _ =>
          some (c.requeue id found, .operation .idle,
            [(c.requeue id found).connectionStatus])
      | _ => none
where
  resume : Option (ClientState × List ConnectionStatus) →
      Option (FssClient × ThreadAt × List ConnectionStatus)
    | some (next, statuses) =>
        some (next.client, .operation next.place, statuses)
    | none => none

end FssClient

/-- Any thread takes its next step. -/
def SharedClient.step : Step SharedClient SharedEvent ConnectionStatus :=
  fun s e =>
    match s.client.work (s.place e.thread) e with
    | some (c, place, statuses) =>
        some (⟨c, Function.update s.place e.thread place⟩, statuses)
    | none => none

/-- The entries that are still to be looked at. -/
def ClientAt.unseen : ClientAt → List (Bytes × UInt16)
  | .addServer _ entries | .fileServer _ _ entries | .matchServers entries =>
      entries
  | .matchReconnect entry entries => entry :: entries
  | _ => []

/-- The servers that an operation may put into a list. -/
def ClientAt.ids : ClientAt → List Nat
  | .reconnect .connectTo id _ | .addServer id _ | .fileServer id _ _ => [id]
  | .reconnect (.attemptReconnect _ reconnected) id _ => id :: reconnected
  | .scan _ reconnected | .move reconnected => reconnected
  | .remove id reconnected | .pushBack id reconnected => id :: reconnected
  | _ => []

namespace ThreadAt

def unseen : ThreadAt → List (Bytes × UInt16)
  | .operation place => place.unseen
  | .requeue _ _ => []

def ids : ThreadAt → List Nat
  | .operation place => place.ids
  | .requeue id found => if found then [id] else []

def inHand : ThreadAt → List Nat
  | .operation place => place.inHand
  | .requeue id found => if found then [id] else []

end ThreadAt

namespace FssClient

/-- The two lists in one. -/
def listed (c : FssClient) : List Nat :=
  c.servers ++ c.reconnectServers

/-- The addresses and ports of all servers that have been created. -/
def ever (c : FssClient) : List (Bytes × UInt16) :=
  (List.range c.created).map fun id => (c.server id).entry

variable {c c' : FssClient} {id : Nat}

/-- The two halves of `serverRequiresReconnect` make the whole. -/
theorem requeue_takeOut (c : FssClient) (id : Nat) :
    (c.takeOut id).requeue id (id ∈ c.servers) = c.processClosed id := by
  rw [processClosed, requeue]
  by_cases hmem : id ∈ c.servers
  · rw [serverRequiresReconnect, if_pos hmem, if_pos (decide_eq_true hmem)]
    rfl
  · have hkept : c.servers.filter (· ≠ id) = c.servers := by
      rw [List.filter_eq_self]
      intro other hother
      exact decide_eq_true fun heq => hmem (heq ▸ hother)
    rw [serverRequiresReconnect_of_not_mem hmem, takeOut, hkept,
      decide_eq_false hmem]
    rfl

/-- The servers are the same ones, whatever has become of them. -/
structure SameServers (c c' : FssClient) : Prop where
  created : c'.created = c.created
  entry : ∀ id, (c'.server id).entry = (c.server id).entry

theorem SameServers.ever (h : SameServers c c') : c'.ever = c.ever := by
  rw [FssClient.ever, FssClient.ever, h.created]
  exact List.map_congr_left fun id _ => h.entry id

theorem SameServers.refl (c : FssClient) : SameServers c c where
  created := rfl
  entry _ := rfl

theorem sameServers_modify (c : FssClient) (id : Nat)
    (f : FssServer → FssServer) (hf : ∀ s, (f s).entry = s.entry) :
    SameServers c (c.modify id f) where
  created := rfl
  entry other := by
    by_cases hother : other = id
    · rw [hother, server_modify_self, hf]
    · rw [server_modify_of_ne hother]

theorem SameServers.trans {c'' : FssClient} (h : SameServers c c')
    (h' : SameServers c' c'') : SameServers c c'' where
  created := h'.created.trans h.created
  entry id := (h'.entry id).trans (h.entry id)

theorem sameServers_processClosed (c : FssClient) (id : Nat) :
    SameServers c (c.processClosed id) := by
  have hmoved : SameServers c (c.serverRequiresReconnect id) := by
    rw [serverRequiresReconnect]
    split
    · exact ⟨rfl, fun _ => rfl⟩
    · exact .refl c
  exact hmoved.trans (sameServers_modify _ id _ fun _ => rfl)

theorem sameServers_setHandler (c : FssClient) (id : Nat) :
    SameServers c (c.setHandler id).1 := by
  unfold setHandler
  split
  · exact sameServers_processClosed c id
  · exact sameServers_modify c id (·.setConnection .handled) fun _ => rfl

theorem sameServers_reconnect (c : FssClient) (id : Nat) (now : UInt64)
    (connects : Bool) (place : ReconnectAt) :
    SameServers c (c.reconnect id now connects place).1 := by
  cases place with
  | checkElapsed ts elapsed =>
      rw [reconnect]
      split
      · exact sameServers_modify c id (·.tried ts) fun _ => rfl
      · exact .refl c
  | connectTo =>
      rw [reconnect]
      split
      · exact sameServers_modify c id (·.setConnection .connected) fun _ => rfl
      · exact .refl c
  | setHandler => exact sameServers_setHandler c id
  | start | clearConnection =>
      exact sameServers_modify c id (·.clearConnection) fun _ => rfl
  | setConnection =>
      exact sameServers_modify c id (·.setConnection .constructed) fun _ => rfl
  | succeed => exact sameServers_modify c id (·.succeeded) fun _ => rfl

theorem ever_create (c : FssClient) (entry : Bytes × UInt16) :
    (c.create entry.1 entry.2).ever = c.ever ++ [entry] := by
  have hold : (List.range c.created).map
      (fun id => ((c.create entry.1 entry.2).server id).entry) = c.ever := by
    apply List.map_congr_left
    intro id hid
    exact congrArg FssServer.entry
      (server_learn_of_lt (List.mem_range.mp hid))
  rw [ever]
  change (List.range (c.created + 1)).map _ = _
  rw [List.range_succ, List.map_append, hold]
  exact congrArg (fun s => c.ever ++ [FssServer.entry s])
    (server_create_self c entry)

theorem mem_listed_processClosed {other : Nat} :
    other ∈ (c.processClosed id).listed ↔ other ∈ c.listed := by
  rw [processClosed, serverRequiresReconnect, listed, servers_modify,
    reconnectServers_modify, listed]
  split
  next hmem =>
      have hback : other = id → other ∈ c.servers := fun heq => heq ▸ hmem
      simp only [List.mem_append, List.mem_filter, List.mem_singleton,
        decide_eq_true_eq]
      tauto
  next => rfl

/-- An attempt to reconnect files nothing. -/
theorem mem_listed_reconnect (now : UInt64) (connects : Bool)
    (place : ReconnectAt) {other : Nat} :
    other ∈ (c.reconnect id now connects place).1.listed ↔
      other ∈ c.listed := by
  cases place with
  | checkElapsed ts elapsed =>
      rw [reconnect]
      split <;> rfl
  | connectTo =>
      rw [reconnect]
      split <;> rfl
  | setHandler =>
      change other ∈ (c.setHandler id).1.listed ↔ _
      rw [setHandler]
      split
      · exact mem_listed_processClosed
      · rfl
  | start | setConnection | clearConnection | succeed => rfl

end FssClient

/-- What a statement of one thread does to the servers.  It loses none that
is in a list or in hand, files none that it did not have, and what it is told
is a server or still to be looked at. -/
structure Works (c : FssClient) (place : ThreadAt)
    (told : List (Bytes × UInt16)) (c' : FssClient) (place' : ThreadAt) :
    Prop where
  created : c.created ≤ c'.created
  held : ∀ id, id ∈ c.listed ++ place.inHand ∨
    c.created ≤ id ∧ id < c'.created → id ∈ c'.listed ++ place'.inHand
  ids : ∀ id ∈ c'.listed ++ place'.ids,
    id ∈ c.listed ++ place.ids ∨ id < c'.created
  told : (∀ id ∈ c.listed, id < c.created) → ∀ entry,
    entry ∈ c'.ever ++ place'.unseen ↔
      entry ∈ c.ever ++ place.unseen ++ told

namespace Works

variable {c c' : FssClient} {place place' : ThreadAt}
  {told : List (Bytes × UInt16)}

/-- A statement that creates no server. -/
theorem of_same (h : FssClient.SameServers c c')
    (hheld : c.listed ++ place.inHand ⊆ c'.listed ++ place'.inHand)
    (hids : c'.listed ++ place'.ids ⊆ c.listed ++ place.ids)
    (htold : (∀ id ∈ c.listed, id < c.created) → ∀ entry,
      entry ∈ c.ever ++ place'.unseen ↔
        entry ∈ c.ever ++ place.unseen ++ told) :
    Works c place told c' place' where
  created := Nat.le_of_eq h.created.symm
  held id hid := by
    rcases hid with hid | ⟨hnew, hlt⟩
    · exact hheld hid
    · exact absurd (h.created ▸ hlt) (Nat.not_lt.mpr hnew)
  ids id hid := .inl (hids hid)
  told hlt entry := by
    rw [h.ever]
    exact htold hlt entry

/-- The operation goes on with the same servers in the same places. -/
theorem of_same_lists (h : FssClient.SameServers c c')
    (hlisted : ∀ id, id ∈ c'.listed ↔ id ∈ c.listed)
    (hhand : place'.inHand = place.inHand)
    (hids : place'.ids ⊆ c.listed ++ place.ids)
    (hunseen : place'.unseen = place.unseen) :
    Works c place [] c' place' := by
  apply of_same h
  · rw [hhand]
    intro id hid
    rw [List.mem_append, hlisted]
    exact List.mem_append.mp hid
  · intro id hid
    rw [List.mem_append, hlisted] at hid
    rcases hid with hid | hid
    · exact List.mem_append_left _ hid
    · exact hids hid
  · intro _ entry
    rw [hunseen, List.append_nil]

/-- A server is moved from a list to the hand or back. -/
theorem of_lists {servers reconnectServers : List Nat}
    (hheld : ∀ id ∈ c.listed ++ place.inHand,
      id ∈ servers ++ reconnectServers ++ place'.inHand)
    (hids : ∀ id ∈ servers ++ reconnectServers ++ place'.ids,
      id ∈ c.listed ++ place.ids)
    (hunseen : place'.unseen = place.unseen) :
    Works c place []
      { c with servers := servers, reconnectServers := reconnectServers }
      place' := by
  refine of_same ⟨rfl, fun _ => rfl⟩ hheld hids fun _ entry => ?_
  rw [hunseen, List.append_nil]

/-- A server is created and in hand. -/
theorem of_create {entry : Bytes × UInt16} {next : ClientAt}
    (hhand : place.inHand = []) (hnext : next.inHand = [c.created])
    (hids : next.ids = [c.created])
    (hunseen : ∀ other, other = entry ∨ other ∈ next.unseen ↔
      other ∈ place.unseen ++ told) :
    Works c place told (c.create entry.1 entry.2) (.operation next) where
  created := Nat.le_succ _
  held id hid := by
    change id ∈ c.listed ++ next.inHand
    rw [hhand, List.append_nil] at hid
    rw [hnext, List.mem_append, List.mem_singleton]
    refine hid.imp_right fun hnew => ?_
    exact Nat.le_antisymm (Nat.le_of_lt_succ hnew.2) hnew.1
  ids id hid := by
    change id ∈ c.listed ++ next.ids at hid
    rw [hids, List.mem_append, List.mem_singleton] at hid
    rcases hid with hold | rfl
    · exact .inl (List.mem_append_left _ hold)
    · exact .inr (Nat.lt_succ_self _)
  told _ other := by
    rw [FssClient.ever_create]
    change other ∈ c.ever ++ [entry] ++ next.unseen ↔ _
    rw [List.append_assoc, List.append_assoc, List.mem_append,
      List.mem_append (s := c.ever), ← hunseen, List.mem_append,
      List.mem_singleton]

end Works

section Statements

variable {c c' : FssClient} {place : ClientAt} {place' : ThreadAt}
  {out : List ConnectionStatus}

/-- An entry that is found in a list is that of a server. -/
theorem mem_ever_of_matches {ids : List Nat} {entry : Bytes × UInt16}
    (hids : ∀ id ∈ ids, id < c.created)
    (h : c.serverListMatches ids entry = true) : entry ∈ c.ever := by
  rw [FssClient.serverListMatches_iff] at h
  obtain ⟨id, hid, rfl⟩ := List.mem_map.mp h
  exact List.mem_map_of_mem (List.mem_range.mpr (hids id hid))

/-- An entry that is known is done with. -/
theorem works_of_matches {ids : List Nat} {entry : Bytes × UInt16}
    {entries : List (Bytes × UInt16)} (hsub : ids ⊆ c.listed)
    (h : c.serverListMatches ids entry = true) (hhand : place.inHand = [])
    (hids : place.ids = []) (hunseen : place.unseen = entry :: entries) :
    Works c (.operation place) [] c (.operation (.matchServers entries)) := by
  apply Works.of_same (.refl c)
  · change c.listed ++ place.inHand ⊆ c.listed ++ []
    rw [hhand]
    exact List.Subset.refl _
  · change c.listed ++ [] ⊆ c.listed ++ place.ids
    rw [hids]
    exact List.Subset.refl _
  · intro hlt other
    have hmem := mem_ever_of_matches (fun id hid => hlt id (hsub hid)) h
    change other ∈ c.ever ++ entries ↔ other ∈ c.ever ++ place.unseen ++ []
    rw [hunseen, List.append_nil, List.mem_append, List.mem_append,
      List.mem_cons]
    constructor
    · exact Or.imp_right .inr
    · rintro (hold | rfl | hlater)
      · exact .inl hold
      · exact .inl hmem
      · exact .inr hlater

/-- A statement of `reconnect`. -/
theorem works_reconnect {caller : Caller} {id : Nat} {point : ReconnectAt}
    {now : UInt64} {connects : Bool} {next : ClientState}
    (hstep : c.advance now connects (.reconnect caller id point) =
      some (next, out)) :
    Works c (.operation (.reconnect caller id point)) [] next.client
      (.operation next.place) := by
  have hsame := FssClient.sameServers_reconnect c id now connects point
  have hlisted := fun other =>
    @FssClient.mem_listed_reconnect c id now connects point other
  have hids := List.subset_append_right c.listed
    (ClientAt.reconnect caller id point).ids
  rw [FssClient.advance] at hstep
  split at hstep
  next c' point' statuses heq =>
      cases hstep
      rw [heq] at hsame hlisted
      cases caller <;> exact .of_same_lists hsame hlisted rfl hids rfl
  next c' result statuses heq =>
      cases hstep
      rw [heq] at hsame hlisted
      cases caller with
      | connectTo => exact .of_same_lists hsame hlisted rfl hids rfl
      | attemptReconnect index reconnected =>
          refine .of_same_lists hsame hlisted rfl ?_ rfl
          apply List.subset_append_of_subset_right
          change (if result then reconnected ++ [id] else reconnected) ⊆
            id :: reconnected
          cases result with
          | true =>
              intro other hother
              simpa [or_comm] using hother
          | false => exact List.subset_cons_self _ _

theorem works_advance {now : UInt64} {connects : Bool} {next : ClientState}
    (hstep : c.advance now connects place = some (next, out)) :
    Works c (.operation place) [] next.client (.operation next.place) := by
  have hpass : ∀ {place' : ClientAt}, place'.inHand = place.inHand →
      place'.ids ⊆ c.listed ++ place.ids → place'.unseen = place.unseen →
      Works c (.operation place) [] c (.operation place') :=
    fun hhand hids hunseen =>
      .of_same_lists (.refl c) (fun _ => .rfl) hhand hids hunseen
  have hids := List.subset_append_right c.listed place.ids
  cases place with
  | idle => cases hstep
  | reconnect caller id point => exact works_reconnect hstep
  | addServer id entries =>
      cases hstep
      exact hpass rfl hids rfl
  | fileServer id connected entries =>
      cases connected <;> cases hstep <;> refine .of_lists ?_ ?_ rfl <;>
        intro other <;> simp [FssClient.listed, ThreadAt.inHand,
          ClientAt.inHand, ThreadAt.ids, ClientAt.ids, or_left_comm, or_comm]
  | matchServers entries =>
      cases entries with
      | nil =>
          cases hstep
          exact hpass rfl hids rfl
      | cons entry entries =>
          rw [FssClient.advance] at hstep
          split at hstep
          next hmatch =>
              cases hstep
              exact works_of_matches (List.subset_append_left _ _) hmatch rfl
                rfl rfl
          next =>
              cases hstep
              exact hpass rfl hids rfl
  | matchReconnect entry entries =>
      rw [FssClient.advance] at hstep
      split at hstep
      next hmatch =>
          cases hstep
          exact works_of_matches (List.subset_append_right _ _) hmatch rfl rfl
            rfl
      next =>
          cases hstep
          refine .of_create rfl rfl rfl fun other => ?_
          rw [List.append_nil]
          exact List.mem_cons.symm
  | scan index reconnected =>
      rw [FssClient.advance] at hstep
      split at hstep
      next id hid =>
          cases hstep
          refine hpass rfl ?_ rfl
          apply List.cons_subset.mpr ⟨?_, List.subset_append_right _ _⟩
          exact List.mem_append_left _
            (List.mem_append_right _ (List.mem_of_getElem? hid))
      next =>
          split at hstep <;> cases hstep
          · exact hpass rfl (List.nil_subset _) rfl
          · exact hpass rfl hids rfl
  | move reconnected =>
      cases reconnected <;> cases hstep <;>
        exact hpass rfl hids rfl
  | remove id reconnected =>
      cases hstep
      refine .of_lists ?_ ?_ rfl <;> intro other <;>
        simp only [FssClient.listed, ThreadAt.inHand, ClientAt.inHand,
          ThreadAt.ids, ClientAt.ids, List.mem_append, List.mem_filter,
          List.mem_cons, List.not_mem_nil, decide_eq_true_eq]
      · tauto
      · tauto
  | pushBack id reconnected =>
      cases hstep
      refine .of_lists ?_ ?_ rfl <;> intro other <;>
        simp only [FssClient.listed, ThreadAt.inHand, ClientAt.inHand,
          ThreadAt.ids, ClientAt.ids, List.mem_append, List.mem_cons,
          List.not_mem_nil]
      · tauto
      · tauto

theorem of_resume {result : Option (ClientState × List ConnectionStatus)}
    (h : FssClient.work.resume result = some (c', place', out)) :
    ∃ next, result = some (next, out) ∧ next.client = c' ∧
      .operation next.place = place' := by
  cases result with
  | none => cases h
  | some result =>
      cases h
      exact ⟨_, rfl, rfl, rfl⟩

/-- The second half of `serverRequiresReconnect`. -/
theorem works_requeue (c : FssClient) (id : Nat) (found : Bool) :
    Works c (.requeue id found) [] (c.requeue id found) (.operation .idle) := by
  have hsame := fun c' : FssClient =>
    FssClient.sameServers_modify c' id FssServer.processClosed fun _ => rfl
  cases found with
  | false =>
      exact .of_same_lists (hsame c) (fun _ => .rfl) rfl (List.nil_subset _) rfl
  | true =>
      have hpushed : FssClient.SameServers c
          { c with reconnectServers := c.reconnectServers ++ [id] } :=
        ⟨rfl, fun _ => rfl⟩
      refine .of_same (hpushed.trans (hsame _)) ?_ ?_ fun _ _ => ?_
      · change c.servers ++ c.reconnectServers ++ [id] ⊆
          c.servers ++ (c.reconnectServers ++ [id]) ++ []
        simp
      · change c.servers ++ (c.reconnectServers ++ [id]) ++ [] ⊆
          c.servers ++ c.reconnectServers ++ [id]
        simp
      · rw [List.append_nil]
        rfl

/-- The first half: a server that is found is in hand from then on. -/
theorem works_takeOut (c : FssClient) (id : Nat) :
    Works c (.operation .idle) [] (c.takeOut id)
      (.requeue id (id ∈ c.servers)) := by
  have hhand : ∀ other, other ∈ (ThreadAt.requeue id (id ∈ c.servers)).inHand ↔
      id ∈ c.servers ∧ other = id := by
    intro other
    by_cases hmem : id ∈ c.servers <;> simp [ThreadAt.inHand, hmem]
  refine .of_lists ?_ ?_ rfl <;> intro other hother
  · rw [List.mem_append, hhand, List.mem_append, List.mem_filter,
      decide_eq_true_eq]
    change other ∈ c.servers ++ c.reconnectServers ++ [] at hother
    rw [List.append_nil, List.mem_append] at hother
    by_cases hsame : other = id
    · subst hsame
      tauto
    · tauto
  · change other ∈ _ ++ (ThreadAt.requeue id (id ∈ c.servers)).inHand at hother
    rw [List.mem_append, hhand, List.mem_append, List.mem_filter] at hother
    change other ∈ c.servers ++ c.reconnectServers ++ []
    rw [List.append_nil, List.mem_append]
    rcases hother with (hkept | hold) | ⟨hmem, rfl⟩
    · exact .inl hkept.1
    · exact .inr hold
    · exact .inl hmem

/-- One statement of one thread, with what the client is told by it. -/
theorem works_of_work {place : ThreadAt} {e : SharedEvent}
    (hstep : c.work place e = some (c', place', out)) :
    Works c place e.told c' place' := by
  cases place with
  | requeue id found =>
      cases e with
      | advance thread now connects =>
          cases hstep
          exact works_requeue c id found
      | _ => cases hstep
  | operation place =>
      cases e with
      | connectTo address port connect =>
          obtain ⟨next, hnext, rfl, rfl⟩ := of_resume hstep
          obtain ⟨rfl, rfl⟩ := of_starts hnext
          cases connect with
          | true =>
              exact @Works.of_create c (.operation .idle) [(address, port)]
                (address, port) _ rfl rfl rfl fun other =>
                  (or_iff_left List.not_mem_nil).trans List.mem_singleton.symm
          | false =>
              exact @Works.of_create c (.operation .idle) [(address, port)]
                (address, port) _ rfl rfl rfl fun other =>
                  (or_iff_left List.not_mem_nil).trans List.mem_singleton.symm
      | attemptReconnect =>
          obtain ⟨next, hnext, rfl, rfl⟩ := of_resume hstep
          obtain ⟨rfl, rfl⟩ := of_starts hnext
          exact .of_same_lists (.refl c) (fun _ => .rfl) rfl
            (List.nil_subset _) rfl
      | updateServers receiver entries =>
          obtain ⟨next, hnext, rfl, rfl⟩ := of_resume hstep
          obtain ⟨rfl, rfl⟩ := of_starts hnext
          refine .of_same (.refl c) (List.Subset.refl _) (List.Subset.refl _)
            fun _ entry => ?_
          change _ ↔ entry ∈ c.ever ++ [] ++ entries
          rw [List.append_nil]
          rfl
      | closed receiver id =>
          rw [FssClient.work] at hstep
          split at hstep
          next hidle =>
              subst hidle
              split at hstep
              · cases hstep
                exact .of_same_lists (FssClient.sameServers_modify c id
                  (·.setConnection .closedQueued) fun _ => rfl)
                  (fun _ => .rfl) rfl (List.subset_append_right _ _) rfl
              · cases hstep
                exact works_takeOut c id
              · cases hstep
          next => cases hstep
      | advance thread now connects =>
          obtain ⟨next, hnext, rfl, rfl⟩ := of_resume hstep
          exact works_advance hnext

end Statements

/-- What the client has been told by the whole run so far is accounted for. -/
structure Accounted (s : SharedClient) (told : List (Bytes × UInt16)) :
    Prop where
  held : ∀ id < s.client.created,
    id ∈ s.client.listed ∨ ∃ thread, id ∈ (s.place thread).inHand
  listed : ∀ id ∈ s.client.listed, id < s.client.created
  ids : ∀ thread, ∀ id ∈ (s.place thread).ids, id < s.client.created
  told : ∀ entry, entry ∈ told ↔
    entry ∈ s.client.ever ∨ ∃ thread, entry ∈ (s.place thread).unseen

theorem accounted_start : Accounted {} [] where
  held _ h := absurd h (Nat.not_lt_zero _)
  listed _ h := absurd h List.not_mem_nil
  ids _ _ h := absurd h List.not_mem_nil
  told entry := by
    refine iff_of_false List.not_mem_nil ?_
    rintro (h | ⟨_, h⟩)
    · exact List.not_mem_nil h
    · exact List.not_mem_nil h

/-- Something holds of some thread: of one that takes a step or of another. -/
theorem exists_place_iff (s : SharedClient) (thread : Thread)
    (p : ThreadAt → Prop) :
    (∃ other, p (s.place other)) ↔
      p (s.place thread) ∨ ∃ other ≠ thread, p (s.place other) := by
  have hupdate := Function.exists_update_iff s.place
    (p := fun _ place => p place) (a := thread) (b := s.place thread)
  rwa [Function.update_eq_self] at hupdate

namespace Accounted

variable {s next : SharedClient} {e : SharedEvent}
  {told : List (Bytes × UInt16)} {out : List ConnectionStatus}

/-- A server in the hand of another thread stays there. -/
theorem held_of_works {c' : FssClient} {thread : Thread} {place' : ThreadAt}
    {new : List (Bytes × UInt16)} (h : Accounted s told)
    (hworks : Works s.client (s.place thread) new c' place') :
    ∀ id < c'.created, id ∈ c'.listed ∨
      ∃ other, id ∈ (Function.update s.place thread place' other).inHand := by
  intro id hid
  rw [Function.exists_update_iff s.place (p := fun _ place => id ∈ place.inHand),
    ← or_assoc, ← List.mem_append]
  by_cases hmine : id ∈ s.client.listed ++ (s.place thread).inHand ∨
      s.client.created ≤ id
  · left
    exact hworks.held id (hmine.imp_right fun hnew => ⟨hnew, hid⟩)
  · obtain ⟨hmine, hold⟩ := not_or.mp hmine
    have hheld := h.held id (Nat.lt_of_not_le hold)
    rw [exists_place_iff s thread (id ∈ ·.inHand), ← or_assoc,
      ← List.mem_append] at hheld
    exact .inr (hheld.resolve_left hmine)

theorem told_of_works {c' : FssClient} {thread : Thread} {place' : ThreadAt}
    {new : List (Bytes × UInt16)} (h : Accounted s told)
    (hworks : Works s.client (s.place thread) new c' place') :
    ∀ entry, entry ∈ told ++ new ↔ entry ∈ c'.ever ∨
      ∃ other, entry ∈ (Function.update s.place thread place' other).unseen := by
  intro entry
  have hold := h.told entry
  have hnew := hworks.told h.listed entry
  rw [exists_place_iff s thread (entry ∈ ·.unseen)] at hold
  rw [Function.exists_update_iff s.place (p := fun _ place =>
    entry ∈ place.unseen), List.mem_append, hold]
  simp only [List.mem_append] at hnew
  rw [← or_assoc (a := entry ∈ s.client.ever), or_right_comm, ← hnew, or_assoc]

theorem step (h : Accounted s told) (hstep : s.step e = some (next, out)) :
    Accounted next (told ++ e.told) := by
  rw [SharedClient.step] at hstep
  split at hstep
  next c' place' statuses hwork =>
      cases hstep
      have hworks := works_of_work hwork
      have hids : ∀ id ∈ c'.listed ++ place'.ids, id < c'.created := by
        intro id hid
        rcases hworks.ids id hid with hold | hnew
        · apply Nat.lt_of_lt_of_le _ hworks.created
          rcases List.mem_append.mp hold with hlisted | hplace
          · exact h.listed id hlisted
          · exact h.ids _ id hplace
        · exact hnew
      refine ⟨h.held_of_works hworks, ?_, ?_, h.told_of_works hworks⟩
      · exact fun id hid => hids id (List.mem_append_left _ hid)
      · apply (Function.forall_update_iff s.place (p := fun _ place =>
          ∀ id ∈ place.ids, id < c'.created)).mpr
        refine ⟨fun id hid => hids id (List.mem_append_right _ hid), ?_⟩
        intro other _ id hid
        exact Nat.lt_of_lt_of_le (h.ids other id hid) hworks.created
  next => cases hstep

theorem run {final : SharedClient} {events : List SharedEvent}
    {outs : List ConnectionStatus} (h : Accounted s told)
    (hrun : run SharedClient.step s events = some (final, outs)) :
    Accounted final (told ++ events.flatMap (·.told)) := by
  induction events generalizing s told outs with
  | nil =>
      cases hrun
      rwa [List.flatMap_nil, List.append_nil]
  | cons e events ih =>
      obtain ⟨next, out, later, hstep, hlater, -⟩ := run_cons_eq_some.mp hrun
      rw [List.flatMap_cons, ← List.append_assoc]
      exact ih (h.step hstep) hlater

/-- With no thread in the middle of anything the lists have every server. -/
theorem listed_iff (h : Accounted s told)
    (hidle : ∀ thread, s.place thread = .operation .idle) (id : Nat) :
    id ∈ s.client.listed ↔ id < s.client.created := by
  constructor
  · exact h.listed id
  · intro hid
    apply (h.held id hid).resolve_right
    rintro ⟨thread, hhand⟩
    rw [hidle] at hhand
    exact List.not_mem_nil hhand

theorem known_iff (h : Accounted s told)
    (hidle : ∀ thread, s.place thread = .operation .idle)
    (entry : Bytes × UInt16) : entry ∈ s.client.known ↔ entry ∈ told := by
  have hnone : ¬ ∃ thread, entry ∈ (s.place thread).unseen := by
    rintro ⟨thread, hunseen⟩
    rw [hidle] at hunseen
    exact List.not_mem_nil hunseen
  rw [h.told, or_iff_left hnone, FssClient.known, FssClient.ever,
    List.mem_map, List.mem_map]
  constructor
  · rintro ⟨id, hid, hentry⟩
    exact ⟨id, List.mem_range.mpr (h.listed id hid), hentry⟩
  · rintro ⟨id, hid, hentry⟩
    exact ⟨id, (h.listed_iff hidle id).mpr (List.mem_range.mp hid), hentry⟩

end Accounted

/-- However the threads of a client interleave, when they are all done its two
lists have every server that was ever created, and what is known is what the
client was told. -/
theorem known_of_run {events : List SharedEvent} {final : SharedClient}
    {outs : List ConnectionStatus}
    (hrun : run SharedClient.step {} events = some (final, outs))
    (hidle : ∀ thread, final.place thread = .operation .idle) :
    (∀ id, id ∈ final.client.listed ↔ id < final.client.created) ∧
      ∀ entry, entry ∈ final.client.known ↔
        entry ∈ events.flatMap (·.told) := by
  have hfinal := accounted_start.run hrun
  exact ⟨hfinal.listed_iff hidle, hfinal.known_iff hidle⟩

/-- A thread that takes a number of steps. -/
def steps (thread : Thread) (n : Nat) : List SharedEvent :=
  .replicate n (.advance thread 2000 true)

/-- Two receive loops learn of a server at once, and one of them goes on while
a third has its own server in hand. -/
def crossedUpdates : List SharedEvent :=
  .connectTo [65] 1 true :: steps .program 9 ++
    .updateServers 0 [([66], 1)] :: .updateServers 1 [([66], 1), ([65], 1)] ::
      steps (.receiver 0) 2 ++ steps (.receiver 1) 4 ++
        .closed 2 0 :: steps (.receiver 1) 2 ++ steps (.receiver 2) 1 ++
          steps (.receiver 0) 3 ++ steps (.receiver 1) 3

theorem known_of_run_crossedUpdates :
    ∃ final outs,
      run SharedClient.step {} crossedUpdates = some (final, outs) ∧
      final.client.known =
        [([66], 1), ([65], 1), ([66], 1), ([65], 1)] ∧
      (∀ id, id ∈ final.client.listed ↔ id < final.client.created) ∧
      ∀ entry, entry ∈ final.client.known ↔
        entry ∈ crossedUpdates.flatMap (·.told) := by
  refine ⟨_, _, rfl, rfl, @known_of_run crossedUpdates _ _ rfl ?_⟩
  rintro (_ | n)
  · rfl
  · rcases n with _ | _ | _ | n <;> rfl

end FlightSafety.Client
