/-
What a client sends to its servers.  A message that the program hands over
goes to every server in `servers`, a request is answered on the connection it
came on, and each connection numbers what is sent on it from one.  The asset
says who it is when the queue of a new connection has been emptied, which can
be after its first answers.
-/
import FlightSafety.Client.Opening
import FlightSafety.Transport.Message
import Mathlib.Logic.Function.Basic

namespace FlightSafety.Client

open Octets Machine

/-- A client, with the last id given out on the connection of each server. -/
structure Broadcaster where
  state : ClientState := {}
  assetName : Bytes
  lastMsgId : Nat → UInt64 := fun _ => 0

/-- A statement of an operation or a closed message, a message that the
program hands over between its operations, and a round-trip request that a
receive loop or `setHandler` hands on. -/
inductive BroadcastEvent where
  | client (e : ClientEvent)
  | sendMsgAll (msg : FssMessage)
  | rttRequest (id : Nat) (requestId : UInt64)

inductive BroadcastOut where
  | connected (id : Nat)
  | identified (id : Nat)
  | handedOver (msg : FssMessage)
  | requested (id : Nat) (requestId : UInt64)
  | sent (id : Nat) (msg : FssMessage)

namespace Broadcaster

/-- `fss_connection::sendMsg` on the connection of a server. -/
def post (s : Broadcaster) (id : Nat) (msg : FssMessage) :
    Broadcaster × List BroadcastOut :=
  ({ s with
    lastMsgId := Function.update s.lastMsgId id (s.lastMsgId id + 1) },
    [.sent id (msg.setId (s.lastMsgId id + 1))])

/-- A server without a connection is sent nothing. -/
def sendMsg (msg : FssMessage) (s : Broadcaster) (id : Nat) :
    Broadcaster × List BroadcastOut :=
  if (s.state.client.server id).connected then s.post id msg else (s, [])

/-- A new connection counts from the start. -/
def setConnection (s : Broadcaster) (id : Nat) :
    Broadcaster × List BroadcastOut :=
  ({ s with lastMsgId := Function.update s.lastMsgId id 0 }, [.connected id])

def sendIdentify (s : Broadcaster) (id : Nat) :
    Broadcaster × List BroadcastOut :=
  let (s, out) := s.post id (fssMessageIdentity s.assetName)
  (s, .identified id :: out)

/-- The same work for some servers in turn. -/
def each (work : Broadcaster → Nat → Broadcaster × List BroadcastOut) :
    Broadcaster → List Nat → Broadcaster × List BroadcastOut
  | s, [] => (s, [])
  | s, id :: ids =>
      let (s, out) := work s id
      let (s, later) := each work s ids
      (s, out ++ later)

/-- What a statement does to the connection of a server besides. -/
def statement (s : Broadcaster) : ClientAt → ClientEvent →
    Broadcaster × List BroadcastOut
  | .reconnect _ id .setConnection, .advance _ _ => s.setConnection id
  -- The last statement comes after `sendIdentify`.
  | .reconnect _ id .succeed, .advance _ _ => s.sendIdentify id
  | _, _ => (s, [])

/-- Messages are handed on once there is a handler; those of a connection that
has been closed can still be in its queue. -/
def handsOn (s : Broadcaster) (id : Nat) : Bool :=
  match (s.state.client.server id).connection with
  | some .handled | some .closed => true
  | _ => false

def step : Step Broadcaster BroadcastEvent BroadcastOut
  | s, .client e =>
      match s.state.step e with
      | some (next, _) =>
          some ({ s with state := next }.statement s.state.place e)
      | none => none
  | s, .sendMsgAll msg =>
      -- The message is one object, which each connection numbers anew.
      if s.state.place = .idle then
        let (next, out) := each (sendMsg msg) s s.state.client.servers
        some (next, .handedOver msg :: out)
      else none
  | s, .rttRequest id requestId =>
      if s.handsOn id then
        let (next, out) := s.sendMsg (fssMessageRttResponse requestId) id
        some (next, .requested id requestId :: out)
      else none

end Broadcaster

/-- What was sent on the connection of a server that was made last. -/
def sentOn (id : Nat) (outs : List BroadcastOut) : List FssMessage :=
  outs.foldl (fun sent o =>
    match o with
    | .connected id' => if id' = id then [] else sent
    | .sent id' msg => if id' = id then sent ++ [msg] else sent
    | .identified _ | .handedOver _ | .requested _ _ => sent) []

/-- What is to be sent on it after something has happened. -/
def BroadcastOut.dueAfter (assetName : Bytes) (id : Nat)
    (due : List FssMessage) : BroadcastOut → List FssMessage
  | .connected id' => if id' = id then [] else due
  | .identified id' =>
      if id' = id then due ++ [fssMessageIdentity assetName] else due
  | .handedOver msg => due ++ [msg]
  | .requested id' requestId =>
      if id' = id then due ++ [fssMessageRttResponse requestId] else due
  | .sent _ _ => due

/-- What is to be sent on it. -/
def due (assetName : Bytes) (id : Nat) (outs : List BroadcastOut) :
    List FssMessage :=
  outs.foldl (BroadcastOut.dueAfter assetName id) []

/-- Messages with the ids after a given one. -/
def numbered (last : UInt64) : List FssMessage → List FssMessage
  | [] => []
  | msg :: msgs => msg.setId (last + 1) :: numbered (last + 1) msgs

theorem numbered_concat (last : UInt64) (msgs : List FssMessage)
    (msg : FssMessage) :
    numbered last (msgs ++ [msg]) = numbered last msgs ++
      [msg.setId (last + UInt64.ofNat msgs.length + 1)] := by
  induction msgs generalizing last with
  | nil => simp [numbered]
  | cons first msgs ih =>
      have hlast : last + 1 + UInt64.ofNat msgs.length =
          last + UInt64.ofNat (first :: msgs).length := by
        rw [List.length_cons, UInt64.ofNat_add, UInt64.add_assoc,
          UInt64.add_comm 1]
        rfl
      rw [List.cons_append, numbered, ih, hlast, numbered, List.cons_append]

/-- Responses to requests. -/
def Responses (msgs : List FssMessage) : Prop :=
  ∀ m ∈ msgs, ∃ requestId, m = fssMessageRttResponse requestId

/-- All that is due on a connection has been sent on it, but for the last
messages. -/
structure Behind (id : Nat) (missing : List FssMessage) (s : Broadcaster)
    (past : List BroadcastOut) : Prop where
  sent : ∃ msgs, due s.assetName id past = msgs ++ missing ∧
    sentOn id past = numbered 0 msgs ∧
    s.lastMsgId id = UInt64.ofNat msgs.length

namespace Behind

variable {id : Nat} {missing : List FssMessage} {s : Broadcaster}
  {past : List BroadcastOut}

/-- The other connections do not change what is due and sent on this one. -/
theorem post_other {id' : Nat} (h : Behind id missing s past) (hid : id' ≠ id)
    (msg : FssMessage) :
    Behind id missing (s.post id' msg).1 (past ++ (s.post id' msg).2) := by
  obtain ⟨msgs, hdue, hsent, hlast⟩ := h.sent
  refine ⟨msgs, ?_, ?_, ?_⟩
  · rw [← hdue, due, List.foldl_append]
    rfl
  · rw [← hsent, sentOn, List.foldl_append]
    exact if_neg hid
  · rw [← hlast]
    exact Function.update_of_ne hid.symm _ _

theorem post {msg : FssMessage} (h : Behind id [msg] s past) :
    Behind id [] (s.post id msg).1 (past ++ (s.post id msg).2) := by
  obtain ⟨msgs, hdue, hsent, hlast⟩ := h.sent
  refine ⟨msgs ++ [msg], ?_, ?_, ?_⟩
  · rw [List.append_nil, ← hdue, due, List.foldl_append]
    rfl
  · rw [numbered_concat, ← hsent, UInt64.zero_add, ← hlast, sentOn,
      List.foldl_append]
    exact if_pos rfl
  · rw [List.length_append, UInt64.ofNat_add, ← hlast]
    exact Function.update_self _ _ _

theorem sendMsg_other {id' : Nat} {msg : FssMessage}
    (h : Behind id missing s past) (hid : id' ≠ id) :
    Behind id missing (s.sendMsg msg id').1
      (past ++ (s.sendMsg msg id').2) := by
  rw [Broadcaster.sendMsg]
  split
  · exact h.post_other hid msg
  · rw [List.append_nil]
    exact h

theorem sendMsg {msg : FssMessage} (h : Behind id [msg] s past)
    (hconnected : (s.state.client.server id).connected = true) :
    Behind id [] (s.sendMsg msg id).1 (past ++ (s.sendMsg msg id).2) := by
  rw [Broadcaster.sendMsg, if_pos hconnected]
  exact h.post

theorem handedOver (h : Behind id [] s past) (msg : FssMessage) :
    Behind id [msg] s (past ++ [.handedOver msg]) := by
  obtain ⟨msgs, hdue, hsent, hlast⟩ := h.sent
  rw [List.append_nil] at hdue
  refine ⟨msgs, ?_, ?_, hlast⟩
  · rw [← hdue, due, List.foldl_append]
    rfl
  · rw [← hsent, sentOn, List.foldl_append]
    rfl

theorem requested (h : Behind id [] s past) (requestId : UInt64) :
    Behind id [fssMessageRttResponse requestId] s
      (past ++ [.requested id requestId]) := by
  obtain ⟨msgs, hdue, hsent, hlast⟩ := h.sent
  rw [List.append_nil] at hdue
  refine ⟨msgs, ?_, ?_, hlast⟩
  · rw [← hdue, due, List.foldl_append]
    exact if_pos rfl
  · rw [← hsent, sentOn, List.foldl_append]
    rfl

theorem requested_other {id' : Nat} (h : Behind id missing s past)
    (hid : id' ≠ id) (requestId : UInt64) :
    Behind id missing s (past ++ [.requested id' requestId]) := by
  obtain ⟨msgs, hdue, hsent, hlast⟩ := h.sent
  refine ⟨msgs, ?_, ?_, hlast⟩
  · rw [← hdue, due, List.foldl_append]
    exact if_neg hid
  · rw [← hsent, sentOn, List.foldl_append]
    rfl

/-- A new connection starts anew, whatever was due and sent before. -/
theorem setConnection (id : Nat) (s : Broadcaster) (past : List BroadcastOut) :
    Behind id [] (s.setConnection id).1 (past ++ (s.setConnection id).2) := by
  refine ⟨[], ?_, ?_, Function.update_self _ _ _⟩
  · rw [due, List.foldl_append]
    exact if_pos rfl
  · rw [sentOn, List.foldl_append]
    exact if_pos rfl

theorem setConnection_other {id' : Nat} (h : Behind id missing s past)
    (hid : id' ≠ id) :
    Behind id missing (s.setConnection id').1
      (past ++ (s.setConnection id').2) := by
  obtain ⟨msgs, hdue, hsent, hlast⟩ := h.sent
  refine ⟨msgs, ?_, ?_, ?_⟩
  · rw [← hdue, due, List.foldl_append]
    exact if_neg hid
  · rw [← hsent, sentOn, List.foldl_append]
    exact if_neg hid
  · rw [← hlast]
    exact Function.update_of_ne hid.symm _ _

theorem sendIdentify (h : Behind id [] s past) :
    Behind id [] (s.sendIdentify id).1 (past ++ (s.sendIdentify id).2) := by
  obtain ⟨msgs, hdue, hsent, hlast⟩ := h.sent
  rw [List.append_nil] at hdue
  have hidentified : Behind id [fssMessageIdentity s.assetName] s
      (past ++ [.identified id]) := by
    refine ⟨msgs, ?_, ?_, hlast⟩
    · rw [← hdue, due, List.foldl_append]
      exact if_pos rfl
    · rw [← hsent, sentOn, List.foldl_append]
      rfl
  have hposted := hidentified.post
  rw [List.append_assoc] at hposted
  exact hposted

theorem sendIdentify_other {id' : Nat} (h : Behind id missing s past)
    (hid : id' ≠ id) :
    Behind id missing (s.sendIdentify id').1
      (past ++ (s.sendIdentify id').2) := by
  obtain ⟨msgs, hdue, hsent, hlast⟩ := h.sent
  have hidentified : Behind id missing s (past ++ [.identified id']) := by
    refine ⟨msgs, ?_, ?_, hlast⟩
    · rw [← hdue, due, List.foldl_append]
      exact if_neg hid
    · rw [← hsent, sentOn, List.foldl_append]
      rfl
  have hposted := hidentified.post_other hid (fssMessageIdentity s.assetName)
  rw [List.append_assoc] at hposted
  exact hposted

end Behind

namespace Broadcaster

variable {work : Broadcaster → Nat → Broadcaster × List BroadcastOut}
  {P Q : Broadcaster → List BroadcastOut → Prop} {ids : List Nat}
  {s : Broadcaster} {past : List BroadcastOut}

theorem each_keeps (h : P s past)
    (hkept : ∀ id ∈ ids, ∀ {s past}, P s past →
      P (work s id).1 (past ++ (work s id).2)) :
    P (each work s ids).1 (past ++ (each work s ids).2) := by
  induction ids generalizing s past with
  | nil =>
      rw [each, List.append_nil]
      exact h
  | cons id ids ih =>
      obtain ⟨hid, hids⟩ := List.forall_mem_cons.mp hkept
      have hrest := ih (hid h) hids
      rw [List.append_assoc] at hrest
      exact hrest

/-- What the work for one server achieves is achieved when each has had its
turn. -/
theorem each_reaches {id : Nat} (hid : id ∈ ids) (hnodup : ids.Nodup)
    (h : P s past)
    (hbefore : ∀ id', id' ≠ id → ∀ {s past}, P s past →
      P (work s id').1 (past ++ (work s id').2))
    (hthere : ∀ {s past}, P s past → Q (work s id).1 (past ++ (work s id).2))
    (hafter : ∀ id', id' ≠ id → ∀ {s past}, Q s past →
      Q (work s id').1 (past ++ (work s id').2)) :
    Q (each work s ids).1 (past ++ (each work s ids).2) := by
  induction ids generalizing s past with
  | nil => exact absurd hid List.not_mem_nil
  | cons first ids ih =>
      obtain ⟨hfirst, hids⟩ := List.nodup_cons.mp hnodup
      by_cases hne : first = id
      · subst hne
        have hrest := @each_keeps work Q ids _ _ (hthere h) fun id' hid' =>
          hafter id' fun heq => hfirst (heq ▸ hid')
        rw [List.append_assoc] at hrest
        exact hrest
      · have hlater := (List.mem_cons.mp hid).resolve_left (Ne.symm hne)
        have hrest := ih hlater hids (hbefore first hne h)
        rw [List.append_assoc] at hrest
        exact hrest

end Broadcaster

section Due

variable {assetName : Bytes} {id : Nat} {past out : List BroadcastOut}

theorem due_append (past out : List BroadcastOut) :
    due assetName id (past ++ out) =
      out.foldl (BroadcastOut.dueAfter assetName id) (due assetName id past) :=
  List.foldl_append

end Due

/-- The asset has said who it is, after some responses at most. -/
def Introduced (assetName : Bytes) (id : Nat) (past : List BroadcastOut) :
    Prop :=
  ∃ early later,
    due assetName id past = early ++ fssMessageIdentity assetName :: later ∧
    Responses early

theorem Introduced.of_append {assetName : Bytes} {id : Nat}
    {past next : List BroadcastOut} (h : Introduced assetName id past)
    (more : List FssMessage)
    (hmore : due assetName id next = due assetName id past ++ more) :
    Introduced assetName id next := by
  obtain ⟨early, later, hdue, hearly⟩ := h
  refine ⟨early, later ++ more, ?_, hearly⟩
  rw [hmore, hdue, List.append_assoc]
  rfl

namespace Broadcaster

/-- All that is due on a connection has been sent, and the asset has said who
it is. -/
structure Carried (assetName : Bytes) (id : Nat) (s : Broadcaster)
    (past : List BroadcastOut) : Prop where
  behind : Behind id [] s past
  introduced : Introduced assetName id past

/-- All that is due on a connection has been sent, which is responses. -/
structure Opened (assetName : Bytes) (id : Nat) (s : Broadcaster)
    (past : List BroadcastOut) : Prop where
  behind : Behind id [] s past
  responses : Responses (due assetName id past)

/-- On every connection all that is due has been sent. -/
structure UpToDate (assetName : Bytes) (s : Broadcaster)
    (past : List BroadcastOut) : Prop where
  name : s.assetName = assetName
  filed : Filed s.state
  cleared : s.state.Cleared
  carried : ∀ id ∈ s.state.carrying, Carried assetName id s past
  opened : ∀ id ∈ s.state.place.opening, Opened assetName id s past

theorem upToDate_start (assetName : Bytes) :
    UpToDate assetName { assetName := assetName } [] where
  name := rfl
  filed := filed_start
  cleared := trivial
  carried _ hid := absurd hid List.not_mem_nil
  opened _ hid := absurd hid List.not_mem_nil

/-- Sending leaves the client and the name alone. -/
def Same (s s' : Broadcaster) : Prop :=
  s'.state = s.state ∧ s'.assetName = s.assetName

theorem same_sendMsg {s : Broadcaster} (msg : FssMessage) (id : Nat) :
    Same s (s.sendMsg msg id).1 := by
  rw [sendMsg]
  split
  · exact ⟨rfl, rfl⟩
  · exact ⟨rfl, rfl⟩

theorem same_each {work : Broadcaster → Nat → Broadcaster × List BroadcastOut}
    {s : Broadcaster} (ids : List Nat)
    (h : ∀ id, ∀ {s}, Same s (work s id).1) : Same s (each work s ids).1 := by
  induction ids generalizing s with
  | nil => exact ⟨rfl, rfl⟩
  | cons id ids ih =>
      obtain ⟨hstate, hname⟩ := @ih (work s id).1
      obtain ⟨hstateFirst, hnameFirst⟩ := @h id s
      exact ⟨hstate.trans hstateFirst, hname.trans hnameFirst⟩

/-- Sending makes nothing due. -/
theorem due_sendMsg {assetName : Bytes} {id : Nat} {s : Broadcaster}
    (past : List BroadcastOut) (msg : FssMessage) (id' : Nat) :
    due assetName id (past ++ (s.sendMsg msg id').2) =
      due assetName id past := by
  rw [due_append, sendMsg]
  split <;> rfl

theorem due_each_sendMsg {assetName : Bytes} {id : Nat} {s : Broadcaster}
    (past : List BroadcastOut) (msg : FssMessage) (ids : List Nat) :
    due assetName id (past ++ (each (sendMsg msg) s ids).2) =
      due assetName id past := by
  induction ids generalizing s past with
  | nil =>
      rw [each, List.append_nil]
  | cons id' ids ih =>
      have hrest := @ih (s.sendMsg msg id').1 (past ++ (s.sendMsg msg id').2)
      rw [List.append_assoc, due_sendMsg] at hrest
      exact hrest

namespace UpToDate

variable {assetName : Bytes} {s : Broadcaster} {past : List BroadcastOut}

/-- A statement that makes no connection and sends nothing. -/
theorem keeps {next : ClientState} (h : UpToDate assetName s past)
    (hfiled : Filed next) (hkeeps : s.state.Keeps next) :
    UpToDate assetName { s with state := next } past where
  name := h.name
  filed := hfiled
  cleared := hkeeps.cleared
  carried id hid :=
    have hcarried := h.carried id (hkeeps.carrying hid)
    ⟨⟨hcarried.behind.sent⟩, hcarried.introduced⟩
  opened id hid :=
    have hopened := h.opened id (hkeeps.opening hid)
    ⟨⟨hopened.behind.sent⟩, hopened.responses⟩

/-- A server gets a new connection. -/
theorem setConnection {c : FssClient} {caller : Caller} {id : Nat}
    {next : ClientState} {now : UInt64} {connects : Bool}
    {statuses : List ConnectionStatus} (h : UpToDate assetName s past)
    (hstate : s.state = ⟨c, .reconnect caller id .setConnection⟩)
    (hfiled : Filed next)
    (hstep : c.advance now connects (.reconnect caller id .setConnection) =
      some (next, statuses)) :
    UpToDate assetName ({ s with state := next }.setConnection id).1
      (past ++ ({ s with state := next }.setConnection id).2) := by
  cases hstep
  have hsame : s.state.carrying = ClientState.carrying
      ⟨c.modify id (·.setConnection .constructed),
        .reconnect caller id .connectTo⟩ := by
    rw [hstate]
    cases caller <;> rfl
  constructor
  case name => exact h.name
  case filed => exact hfiled
  case cleared => trivial
  case carried =>
    intro other hother
    have hne : id ≠ other := fun heq =>
      ClientState.not_opening_of_carrying hfiled hother
        (List.mem_singleton.mpr heq.symm)
    obtain ⟨⟨hsent⟩, hintroduced⟩ := h.carried other (hsame ▸ hother)
    refine ⟨.setConnection_other ⟨hsent⟩ hne, hintroduced.of_append [] ?_⟩
    rw [due_append, List.append_nil]
    exact if_neg hne
  case opened =>
    intro other hother
    obtain rfl := List.mem_singleton.mp hother
    refine ⟨.setConnection _ _ _, ?_⟩
    have hnone : due assetName other (past ++ [.connected other]) = [] := by
      rw [due_append]
      exact if_pos rfl
    intro m hm
    change m ∈ due assetName other (past ++ [.connected other]) at hm
    rw [hnone] at hm
    cases hm

/-- The asset says who it is to a server that is about to be filed. -/
theorem sendIdentify {c : FssClient} {caller : Caller} {id : Nat}
    {next : ClientState} {now : UInt64} {connects : Bool}
    {statuses : List ConnectionStatus} (h : UpToDate assetName s past)
    (hstate : s.state = ⟨c, .reconnect caller id .succeed⟩)
    (hfiled : Filed next)
    (hstep : c.advance now connects (.reconnect caller id .succeed) =
      some (next, statuses)) :
    UpToDate assetName ({ s with state := next }.sendIdentify id).1
      (past ++ ({ s with state := next }.sendIdentify id).2) := by
  cases hstep
  have hcarrying : ClientState.carrying
      ⟨c.modify id (·.succeeded), caller.goesOn id true⟩ ⊆
        id :: s.state.carrying := by
    rw [hstate]
    cases caller with
    | connectTo =>
        change c.servers ++ [] ++ (if _ then [id] else []) ⊆
          id :: (c.servers ++ [] ++ [])
        split <;> simp
    | attemptReconnect index reconnected =>
        change c.servers ++ (reconnected ++ [id]) ++ [] ⊆
          id :: (c.servers ++ reconnected ++ [])
        simp
  have hopened : Opened assetName id s past := by
    apply h.opened
    rw [hstate]
    exact List.mem_singleton_self id
  constructor
  case name => exact h.name
  case filed => exact hfiled
  case cleared => cases caller <;> trivial
  case carried =>
    intro other hother
    by_cases hid : other = id
    · subst hid
      refine ⟨.sendIdentify ⟨hopened.behind.sent⟩, due assetName other past, [],
        ?_, hopened.responses⟩
      rw [due_append]
      change (if other = other then _ else _) = _
      rw [if_pos rfl, ← h.name]
    · obtain ⟨⟨hsent⟩, hintroduced⟩ :=
        h.carried other ((List.mem_cons.mp (hcarrying hother)).resolve_left hid)
      refine ⟨.sendIdentify_other ⟨hsent⟩ (Ne.symm hid),
        hintroduced.of_append [] ?_⟩
      rw [due_append, List.append_nil]
      exact if_neg (Ne.symm hid)
  case opened =>
    intro other hother
    cases caller <;> exact absurd hother List.not_mem_nil

theorem statement_of_ne {place : ClientAt} {e : ClientEvent}
    (h : ∀ caller id now connects, e = .advance now connects →
      place ≠ .reconnect caller id .setConnection ∧
        place ≠ .reconnect caller id .succeed) :
    s.statement place e = (s, []) := by
  unfold statement
  split
  next caller id now connects => exact absurd rfl (h caller id now connects rfl).1
  next caller id now connects => exact absurd rfl (h caller id now connects rfl).2
  next => rfl

theorem client {e : ClientEvent} {next : ClientState}
    {statuses : List ConnectionStatus} (h : UpToDate assetName s past)
    (hstep : s.state.step e = some (next, statuses)) :
    UpToDate assetName ({ s with state := next }.statement s.state.place e).1
      (past ++ ({ s with state := next }.statement s.state.place e).2) := by
  have hfiled := h.filed.kept hstep
  by_cases hadvance : ∃ now connects, e = .advance now connects
  · obtain ⟨now, connects, rfl⟩ := hadvance
    change s.state.client.advance now connects s.state.place = _ at hstep
    by_cases hset : ∃ caller id, s.state.place = .reconnect caller id .setConnection
    · obtain ⟨caller, id, hplace⟩ := hset
      rw [hplace] at hstep ⊢
      exact h.setConnection (congrArg (ClientState.mk s.state.client) hplace) hfiled
        hstep
    by_cases hsucceed : ∃ caller id, s.state.place = .reconnect caller id .succeed
    · obtain ⟨caller, id, hplace⟩ := hsucceed
      rw [hplace] at hstep ⊢
      exact h.sendIdentify (congrArg (ClientState.mk s.state.client) hplace) hfiled
        hstep
    · simp only [not_exists] at hset hsucceed
      rw [statement_of_ne fun caller id _ _ _ =>
        ⟨hset caller id, hsucceed caller id⟩, List.append_nil]
      exact h.keeps hfiled
        (ClientState.keeps_advance h.filed h.cleared hset hsucceed hstep)
  · simp only [not_exists] at hadvance
    rw [statement_of_ne fun _ _ now connects he => absurd he (hadvance now connects),
      List.append_nil]
    exact h.keeps hfiled (ClientState.keeps_of_step h.cleared hstep hadvance)

theorem sendMsgAll (h : UpToDate assetName s past)
    (hidle : s.state.place = .idle) (msg : FssMessage) :
    let worked := each (sendMsg msg) s s.state.client.servers
    UpToDate assetName worked.1 (past ++ .handedOver msg :: worked.2) := by
  intro worked
  obtain ⟨hstate, hname⟩ : Same s worked.1 :=
    same_each _ fun id _ => same_sendMsg msg id
  have hcarrying : s.state.carrying = s.state.client.servers := by
    rw [ClientState.carrying, hidle]
    simp [ClientAt.ready]
  rw [List.append_cons]
  constructor
  case name => exact hname.trans h.name
  case filed =>
    rw [hstate]
    exact h.filed
  case cleared =>
    rw [hstate]
    exact h.cleared
  case carried =>
    intro id hid
    rw [hstate] at hid
    obtain ⟨hbehind, hintroduced⟩ := h.carried id hid
    rw [hcarrying] at hid
    constructor
    case behind =>
      have hup := h.filed.connected id (List.mem_append_left _ hid)
      have hservers := (List.nodup_append.mp
        (List.nodup_append.mp h.filed.nodup).1).1
      refine @each_reaches _
        (fun s' past => s'.state = s.state ∧ Behind id [msg] s' past)
        (Behind id []) _ _ _ id hid hservers ⟨rfl, hbehind.handedOver msg⟩
        ?_ ?_ ?_
      · rintro id' hne s' past ⟨hsame, hbehind⟩
        exact ⟨(same_sendMsg msg id').1.trans hsame, hbehind.sendMsg_other hne⟩
      · rintro s' past ⟨hsame, hbehind⟩
        exact hbehind.sendMsg (by rw [hsame, hup])
      · intro id' hne s' past hbehind
        exact hbehind.sendMsg_other hne
    case introduced =>
      apply hintroduced.of_append [msg]
      rw [due_each_sendMsg, due_append]
      rfl
  case opened =>
    intro id hid
    rw [hstate, hidle] at hid
    cases hid

/-- A request is answered on its connection and on no other. -/
theorem behind_request {id other : Nat} (h : Behind other [] s past)
    (hconnected : (s.state.client.server id).connected = true)
    (requestId : UInt64) :
    Behind other [] (s.sendMsg (fssMessageRttResponse requestId) id).1
      (past ++ [.requested id requestId] ++
        (s.sendMsg (fssMessageRttResponse requestId) id).2) := by
  by_cases hid : id = other
  · subst hid
    exact (h.requested requestId).sendMsg hconnected
  · exact (h.requested_other hid requestId).sendMsg_other hid

theorem rttRequest {id : Nat} (h : UpToDate assetName s past)
    (hands : s.handsOn id = true) (requestId : UInt64) :
    let worked := s.sendMsg (fssMessageRttResponse requestId) id
    UpToDate assetName worked.1
      (past ++ .requested id requestId :: worked.2) := by
  intro worked
  obtain ⟨hstate, hname⟩ : Same s worked.1 := same_sendMsg _ id
  have hconnected : (s.state.client.server id).connected = true := by
    unfold handsOn at hands
    rw [FssServer.connected]
    split at hands
    next hhandled => rw [hhandled]; rfl
    next hclosed => rw [hclosed]; rfl
    next => cases hands
  have hdue : ∀ other, ∃ more, Responses more ∧
      due assetName other (past ++ [.requested id requestId] ++ worked.2) =
        due assetName other past ++ more := by
    intro other
    refine ⟨if id = other then [fssMessageRttResponse requestId] else [], ?_, ?_⟩
    · split
      · exact fun m hm => ⟨requestId, List.mem_singleton.mp hm⟩
      · exact fun m hm => absurd hm List.not_mem_nil
    · rw [due_sendMsg, due_append]
      change (if id = other then _ else _) = _
      split
      · rfl
      · exact (List.append_nil _).symm
  rw [List.append_cons]
  constructor
  case name => exact hname.trans h.name
  case filed =>
    rw [hstate]
    exact h.filed
  case cleared =>
    rw [hstate]
    exact h.cleared
  case carried =>
    intro other hother
    rw [hstate] at hother
    obtain ⟨hbehind, hintroduced⟩ := h.carried other hother
    obtain ⟨more, -, hmore⟩ := hdue other
    exact ⟨behind_request hbehind hconnected requestId,
      hintroduced.of_append more hmore⟩
  case opened =>
    intro other hother
    rw [hstate] at hother
    obtain ⟨hbehind, hresponses⟩ := h.opened other hother
    obtain ⟨more, hanswers, hmore⟩ := hdue other
    refine ⟨behind_request hbehind hconnected requestId, ?_⟩
    rw [hmore]
    exact List.forall_mem_append.mpr ⟨hresponses, hanswers⟩

theorem kept {next : Broadcaster} {e : BroadcastEvent}
    {out : List BroadcastOut} (h : UpToDate assetName s past)
    (hstep : s.step e = some (next, out)) :
    UpToDate assetName next (past ++ out) := by
  cases e with
  | client e =>
      rw [step] at hstep
      split at hstep
      next state statuses hclient =>
          have hnext := h.client hclient
          rw [Option.some.inj hstep] at hnext
          exact hnext
      next => cases hstep
  | sendMsgAll msg =>
      rw [step] at hstep
      split at hstep
      next hidle =>
          cases hstep
          exact h.sendMsgAll hidle msg
      next => cases hstep
  | rttRequest id requestId =>
      rw [step] at hstep
      split at hstep
      next hands =>
          cases hstep
          exact h.rttRequest hands requestId
      next => cases hstep

end UpToDate

end Broadcaster

/-- In every run of a client whose operations come one after the other, closed
messages and requests between any two of their statements: on the connection
of every server in `servers` were sent, each once and numbered from one, first
responses at most, then the asset's identity, and then, in the order in which
they came, the messages handed over since and the responses to its requests. -/
theorem broadcasts_carried {assetName : Bytes} {events : List BroadcastEvent}
    {final : Broadcaster} {outs : List BroadcastOut}
    (hrun : run Broadcaster.step { assetName := assetName } events =
      some (final, outs)) :
    ∀ id ∈ final.state.client.servers,
      sentOn id outs = numbered 0 (due assetName id outs) ∧
      ∃ early later,
        due assetName id outs =
          early ++ fssMessageIdentity assetName :: later ∧
        Responses early := by
  have hfinal : Broadcaster.UpToDate assetName final outs :=
    @run_invariant_always _ _ _ _ (Broadcaster.UpToDate assetName) _ _ [] _ _
      hrun (Broadcaster.upToDate_start assetName) fun h hstep => h.kept hstep
  intro id hid
  obtain ⟨hbehind, hintroduced⟩ := hfinal.carried id
    (List.mem_append_left _ (List.mem_append_left _ hid))
  obtain ⟨msgs, hdue, hsent, -⟩ := hbehind.sent
  rw [hfinal.name, List.append_nil] at hdue
  exact ⟨hdue ▸ hsent, hintroduced⟩

/-- The first server asks before the asset has said who it is; the second is
connected after the first report, and its connection is closed before it is in
a list. -/
def twoServers : List BroadcastEvent :=
  .client (.connectTo [65] 1 true) :: (advances 5).map .client ++
    .rttRequest 0 7 :: (advances 4).map .client ++
      .sendMsgAll (fssMessageSearchStatus ⟨1, 1, 2⟩) ::
        .client (.connectTo [66] 1 true) :: (advances 6).map .client ++
          .client (.closed 1) :: (advances 3).map .client ++
            [.rttRequest 0 8, .sendMsgAll (fssMessageSearchStatus ⟨1, 2, 2⟩)]

theorem broadcasts_carried_twoServers :
    ∃ final outs,
      run Broadcaster.step { assetName := [67] } twoServers =
        some (final, outs) ∧
      final.state.client.servers = [0, 1] ∧
      sentOn 0 outs = numbered 0 [fssMessageRttResponse 7,
        fssMessageIdentity [67], fssMessageSearchStatus ⟨1, 1, 2⟩,
        fssMessageRttResponse 8, fssMessageSearchStatus ⟨1, 2, 2⟩] ∧
      sentOn 1 outs = numbered 0 [fssMessageIdentity [67],
        fssMessageSearchStatus ⟨1, 2, 2⟩] := by
  have hrun : ∃ final outs, run Broadcaster.step { assetName := [67] }
      twoServers = some (final, outs) ∧
      final.state.client.servers = [0, 1] ∧
      due [67] 0 outs = [fssMessageRttResponse 7, fssMessageIdentity [67],
        fssMessageSearchStatus ⟨1, 1, 2⟩, fssMessageRttResponse 8,
        fssMessageSearchStatus ⟨1, 2, 2⟩] ∧
      due [67] 1 outs = [fssMessageIdentity [67],
        fssMessageSearchStatus ⟨1, 2, 2⟩] := ⟨_, _, rfl, rfl, rfl, rfl⟩
  obtain ⟨final, outs, hrun, hservers, hdue, hdue'⟩ := hrun
  refine ⟨final, outs, hrun, hservers, ?_, ?_⟩
  · rw [← hdue]
    exact (broadcasts_carried hrun 0 (by simp [hservers])).1
  · rw [← hdue']
    exact (broadcasts_carried hrun 1 (by simp [hservers])).1

end FlightSafety.Client
