/-
The round-trip times of one client.  The main loop sends a request and then
records it as outstanding, in two steps between which the client's receive
loop may work; the receive loop finds the request of a response and removes it
in two steps as well, and other threads send on the same connection at any
time.  The request object is the main loop's and is stamped by each client in
turn.
-/
import FlightSafety.Lib.Machine
import FlightSafety.Server.Client

namespace FlightSafety.Server

open Octets Machine

/-- How far the receive loop is with a message. -/
inductive Receiving where
  | idle
  | sendCommand
  | sendSmmSettings
  | sendServersList
  | removeRequest (response : FssMessage) (now : UInt64) (index : Nat)
      (req : FssClientRtt)
deriving Repr, DecidableEq

/-- A client, the main loop's request, and how far the two loops are.
`sending` is the time noted for a request that has been sent to the client and
not been recorded. -/
structure RttState where
  client : FssClient
  request : FssMessage
  sending : Option UInt64 := none
  receiving : Receiving := .idle
deriving Repr, DecidableEq

/-- An effect, with the response a round-trip time is written for. -/
structure Made where
  effect : Effect
  response : Option FssMessage := none
deriving Repr, DecidableEq

/-- The steps of the main loop, reports that other clients' receive loops
relay, and the steps of the client's own receive loop. -/
inductive RttEvent where
  | newRequest
  | otherClient (id : UInt64)
  | sendRequest (env : Env)
  | recordRequest
  | sendCommand (env : Env)
  | sendSmmSettings (env : Env)
  | sendServersList (env : Env)
  | relay (msg : FssMessage)
  | message (env : Env) (msg : Option FssMessage)
  | proceed (env : Env)

/-- The last request with an id, and where it is.  Requests are added at the
end and only the receive loop removes any, so that the place is as good as the
pointer. -/
def findRequest (reqid : UInt64) :
    List FssClientRtt → Option (Nat × FssClientRtt)
  | [] => none
  | req :: rest =>
      match findRequest reqid rest with
      | some (index, found) => some (index + 1, found)
      | none => if req.reqid = reqid then some (0, req) else none

/-- The servers list is sent. -/
def sendServersList (env : Env) (c : FssClient) : FssClient × List Effect :=
  let (c, msg) := c.sendMsg (FssClient.getServersListMsg env)
  (c, [.send msg])

/-- A report is relayed. -/
def relayReport (report : FssMessage) (c : FssClient) :
    FssClient × List Effect :=
  let (c, msg) := c.sendMsg report
  (c, [.send msg])

namespace RttState

/-- A client that has just been constructed. -/
def start (clientNames : List Bytes) : RttState where
  client := { clientNames := clientNames }
  request := fssMessageRttRequest

/-- The client works. -/
def work (s : RttState) (todo : FssClient → FssClient × List Effect) :
    RttState × List Made :=
  ({ s with client := (todo s.client).1 },
    (todo s.client).2.map fun effect => { effect })

/-- The main loop does one thing after the other. -/
def mainLoop (s : RttState) (todo : RttState → RttState × List Made) :
    Option (RttState × List Made) :=
  match s.sending with
  | none => some (todo s)
  | some _ => none

/-- A message is received.  An accepted identity leaves three sends to be
done, and a response whose request is found leaves it to be removed. -/
def receive (s : RttState) (env : Env) (msg : Option FssMessage) :
    RttState × List Made :=
  match s.client.identified, msg with
  | false, some ⟨_, .identity, .identity name⟩ =>
      if s.client.clientNames = [] ∨ name ∈ s.client.clientNames then
        let c := { s.client with
          name := name
          identified := true
          aircraft := true }
        ({ s with client := c, receiving := .sendCommand }, [])
      else s.work fun c => c.processMessage env msg
  | true, some ⟨id, .rttResponse, .rttResponse reqid⟩ =>
      match findRequest reqid s.client.outstandingRttRequests with
      | some (index, req) =>
          let response := ⟨id, .rttResponse, .rttResponse reqid⟩
          ({ s with
            receiving := .removeRequest response env.now index req }, [])
      | none => s.work fun c => c.processMessage env msg
  | _, _ => s.work fun c => c.processMessage env msg

/-- The request of a response is removed and its time is written. -/
def removeRequest (s : RttState) (response : FssMessage) (now : UInt64)
    (index : Nat) (req : FssClientRtt) : RttState × List Made :=
  let c := { s.client with
    outstandingRttRequests := s.client.outstandingRttRequests.eraseIdx index }
  ({ s with client := c, receiving := .idle },
    [⟨.assetAddRtt c.name (now - req.timestamp), some response⟩])

def step : Step RttState RttEvent Made
  | s, .newRequest =>
      s.mainLoop fun s => ({ s with request := fssMessageRttRequest }, [])
  | s, .otherClient id =>
      s.mainLoop fun s => ({ s with request := s.request.setId id }, [])
  | s, .sendRequest env =>
      s.mainLoop fun s =>
        let (c, msg) := s.client.sendMsg s.request
        ({ s with client := c, request := msg, sending := some env.now },
          [{ effect := .send msg }])
  | s, .recordRequest =>
      match s.sending with
      | none => none
      | some ts =>
          let c := { s.client with
            outstandingRttRequests :=
              s.client.outstandingRttRequests ++ [⟨ts, s.request.id⟩] }
          some ({ s with client := c, sending := none }, [])
  | s, .sendCommand env => s.mainLoop fun s => s.work (·.sendCommand env)
  | s, .sendSmmSettings env =>
      s.mainLoop fun s => s.work (·.sendSmmSettings env)
  | s, .sendServersList env =>
      s.mainLoop fun s => s.work (Server.sendServersList env)
  | s, .relay report =>
      if report.type = .positionReport then some (s.work (relayReport report))
      else none
  | s, .message env msg =>
      if s.receiving = .idle then some (s.receive env msg) else none
  | s, .proceed env =>
      match s.receiving with
      | .idle => none
      | .sendCommand =>
          some ({ s with receiving := .sendSmmSettings }.work
            (·.sendCommand env))
      | .sendSmmSettings =>
          some ({ s with receiving := .sendServersList }.work
            (·.sendSmmSettings env))
      | .sendServersList =>
          some ({ s with receiving := .idle }.work (Server.sendServersList env))
      | .removeRequest response now index req =>
          some (s.removeRequest response now index req)

/-- The id of a request that has been sent and not been recorded. -/
def pending (s : RttState) : List UInt64 :=
  match s.sending with
  | none => []
  | some _ => [s.request.id]

/-- The ids of the outstanding requests. -/
def outstanding (s : RttState) : List UInt64 :=
  s.client.outstandingRttRequests.map (·.reqid)

end RttState

/-- The messages sent, in order. -/
def sentMsgs (outs : List Made) : List FssMessage :=
  outs.filterMap (·.effect.sent?)

/-- The id of a round-trip request. -/
def requestId? (m : FssMessage) : Option UInt64 :=
  if m.type = .rttRequest then some m.id else none

/-- The ids of the requests sent. -/
def requestIds (outs : List Made) : List UInt64 :=
  (sentMsgs outs).filterMap requestId?

/-- The request that a round-trip time is written for: the one whose id the
response has. -/
def Made.answers? (o : Made) : Option UInt64 :=
  match o.effect, o.response with
  | .assetAddRtt _ _, some ⟨_, _, .rttResponse reqid⟩ => some reqid
  | _, _ => none

/-- The requests that a round-trip time has been written for. -/
def answered (outs : List Made) : List UInt64 :=
  outs.filterMap Made.answers?

/-! Ids are given out one after the other. -/

/-- The `count` ids that follow one. -/
def consecutive (last : UInt64) : Nat → List UInt64
  | 0 => []
  | count + 1 => (last + 1) :: consecutive (last + 1) count

theorem consecutive_add (last : UInt64) (first second : Nat) :
    consecutive last (first + second) = consecutive last first ++
      consecutive (last + UInt64.ofNat first) second := by
  induction first generalizing last with
  | zero => simp [consecutive]
  | succ first ih =>
      have hshift : last + 1 + UInt64.ofNat first =
          last + UInt64.ofNat (first + 1) := by
        rw [UInt64.ofNat_add, UInt64.add_assoc, UInt64.add_comm 1]
        rfl
      rw [Nat.succ_add, consecutive, consecutive, ih, hshift,
        List.cons_append]

theorem toNat_add_one {last : UInt64} (h : last.toNat + 1 < 2 ^ 64) :
    (last + 1).toNat = last.toNat + 1 := by
  rw [UInt64.toNat_add]
  exact Nat.mod_eq_of_lt h

theorem lt_of_mem_consecutive {last id : UInt64} {count : Nat}
    (hfew : last.toNat + count < 2 ^ 64) (h : id ∈ consecutive last count) :
    last < id := by
  induction count generalizing last with
  | zero => cases h
  | succ count ih =>
      have hnext : (last + 1).toNat = last.toNat + 1 :=
        toNat_add_one (by omega)
      have hlt : last < last + 1 := by
        rw [UInt64.lt_iff_toNat_lt, hnext]
        exact Nat.lt_succ_self _
      rcases List.mem_cons.mp h with rfl | hlater
      · exact hlt
      · exact UInt64.lt_trans hlt (ih (by omega) hlater)

/-- Without a wrap, later ids are greater. -/
theorem pairwise_consecutive {last : UInt64} {count : Nat}
    (hfew : last.toNat + count < 2 ^ 64) :
    (consecutive last count).Pairwise (· < ·) := by
  induction count generalizing last with
  | zero => exact .nil
  | succ count ih =>
      have hnext : (last + 1).toNat = last.toNat + 1 :=
        toNat_add_one (by omega)
      have hrest : (last + 1).toNat + count < 2 ^ 64 := by omega
      exact .cons (fun id hid => lt_of_mem_consecutive hrest hid) (ih hrest)

/-- The messages sent carry the ids that follow the client's last one. -/
structure Numbered (c c' : FssClient) (sent : List FssMessage) : Prop where
  last : c'.lastMsgId = c.lastMsgId + UInt64.ofNat sent.length
  ids : sent.map (·.id) = consecutive c.lastMsgId sent.length

theorem Numbered.trans {c₁ c₂ c₃ : FssClient} {first second : List FssMessage}
    (h : Numbered c₁ c₂ first) (h' : Numbered c₂ c₃ second) :
    Numbered c₁ c₃ (first ++ second) where
  last := by
    rw [h'.last, h.last, List.length_append, UInt64.ofNat_add,
      UInt64.add_assoc]
  ids := by
    rw [List.map_append, List.length_append, consecutive_add, h.ids, h'.ids,
      h.last]

/-- Work that leaves the outstanding requests alone, writes no round-trip
time and sends no request. -/
structure Aside (c c' : FssClient) (effects : List Effect) : Prop where
  numbered : Numbered c c' (effects.filterMap Effect.sent?)
  outstanding : c'.outstandingRttRequests = c.outstandingRttRequests
  unanswered : ∀ e ∈ effects, ∀ name rtt, e ≠ .assetAddRtt name rtt
  unasked : ∀ e ∈ effects, ∀ m, e.sent? = some m → m.type ≠ .rttRequest

theorem Aside.refl (c : FssClient) : Aside c c [] where
  numbered := ⟨by simp, rfl⟩
  outstanding := rfl
  unanswered _ he := absurd he List.not_mem_nil
  unasked _ he := absurd he List.not_mem_nil

theorem Aside.trans {c₁ c₂ c₃ : FssClient} {first second : List Effect}
    (h : Aside c₁ c₂ first) (h' : Aside c₂ c₃ second) :
    Aside c₁ c₃ (first ++ second) where
  numbered := by
    rw [List.filterMap_append]
    exact h.numbered.trans h'.numbered
  outstanding := h'.outstanding.trans h.outstanding
  unanswered := List.forall_mem_append.mpr ⟨h.unanswered, h'.unanswered⟩
  unasked := List.forall_mem_append.mpr ⟨h.unasked, h'.unasked⟩

/-- An effect that sends nothing and writes no round-trip time. -/
theorem Aside.quiet {c c' : FssClient} {e : Effect} (hsent : e.sent? = none)
    (hlast : c'.lastMsgId = c.lastMsgId)
    (houtstanding : c'.outstandingRttRequests = c.outstandingRttRequests)
    (hwritten : ∀ name rtt, e ≠ .assetAddRtt name rtt) : Aside c c' [e] where
  numbered := ⟨by simp [hsent, hlast], by simp [hsent, consecutive]⟩
  outstanding := houtstanding
  unanswered := by simpa using hwritten
  unasked := by simp [hsent]

theorem aside_sendMsg (c : FssClient) {msg : FssMessage}
    (htype : msg.type ≠ .rttRequest) {e : Effect}
    (hsent : e.sent? = some (c.sendMsg msg).2) :
    Aside c (c.sendMsg msg).1 [e] where
  numbered := ⟨by simp [hsent, FssClient.sendMsg],
    by simp [hsent, FssClient.sendMsg, FssMessage.setId, consecutive]⟩
  outstanding := rfl
  unanswered := by
    intro e' he' name rtt hrtt
    rw [← List.mem_singleton.mp he', hrtt] at hsent
    cases hsent
  unasked := by
    intro e' he' m hm
    rw [List.mem_singleton.mp he', hsent] at hm
    cases hm
    exact htype

theorem aside_sendCommand (env : Env) (c : FssClient) :
    Aside c (c.sendCommand env).1 (c.sendCommand env).2 := by
  unfold FssClient.sendCommand
  split
  · exact .refl c
  · split
    · next ac _ _ =>
        have htype : (FssClient.commandMsg ac).type ≠ .rttRequest := by
          rw [type_commandMsg]
          decide
        have h := @aside_sendMsg { c with
          lastCommandSendTs := env.now
          lastCommandDbid := ac.dbid } _ htype (.sendLookup c.name _) rfl
        exact ⟨⟨h.numbered.last, h.numbered.ids⟩, h.outstanding, h.unanswered,
          h.unasked⟩
    · exact .refl c

theorem aside_sendSmmSettings (env : Env) (c : FssClient) :
    Aside c (c.sendSmmSettings env).1 (c.sendSmmSettings env).2 := by
  unfold FssClient.sendSmmSettings
  split
  · exact .refl c
  · exact aside_sendMsg c (by simp [fssMessageSmmSettings]) rfl

theorem aside_sendServersList (env : Env) (c : FssClient) :
    Aside c (sendServersList env c).1 (sendServersList env c).2 :=
  aside_sendMsg c
    (by simp [FssClient.getServersListMsg, fssMessageServerList]) rfl

theorem aside_relayReport {report : FssMessage}
    (h : report.type = .positionReport) (c : FssClient) :
    Aside c (relayReport report c).1 (relayReport report c).2 :=
  aside_sendMsg c (by simp [h]) rfl

/-- A message of a client that is not identified and does not become an
aircraft. -/
theorem aside_processUnidentified (env : Env) (c : FssClient)
    (msg : FssMessage)
    (hrefused : ∀ name, msg.type = .identity → msg.body = .identity name →
      ¬ (c.clientNames = [] ∨ name ∈ c.clientNames)) :
    Aside c (c.processUnidentified env msg).1
      (c.processUnidentified env msg).2 := by
  unfold FssClient.processUnidentified
  split
  · next htype =>
      split
      · next name hbody =>
          simp only [FssClient.processIdentity, hrefused name htype hbody,
            ↓reduceIte]
          exact .quiet rfl rfl rfl (by simp)
      · exact .refl c
  · exact ⟨⟨by simp, rfl⟩, rfl, by simp, by simp⟩
  · exact aside_sendMsg c (by decide) rfl

/-! The lookup of a request. -/

theorem findRequest_eq_none {reqid : UInt64} {reqs : List FssClientRtt}
    (h : findRequest reqid reqs = none) : reqid ∉ reqs.map (·.reqid) := by
  induction reqs with
  | nil => exact List.not_mem_nil
  | cons req rest ih =>
      rw [findRequest] at h
      split at h
      · cases h
      · next hrest =>
          split at h
          · cases h
          · next hne =>
              rw [List.map_cons, List.mem_cons, not_or]
              exact ⟨Ne.symm hne, ih hrest⟩

theorem findRequest_eq_some {reqid : UInt64} {reqs : List FssClientRtt}
    {index : Nat} {req : FssClientRtt}
    (h : findRequest reqid reqs = some (index, req)) :
    reqs[index]? = some req ∧ req.reqid = reqid := by
  induction reqs generalizing index with
  | nil => cases h
  | cons first rest ih =>
      rw [findRequest] at h
      split at h
      · next index' found hrest =>
          cases h
          exact ih hrest
      · split at h
        · next hid =>
            cases h
            exact ⟨rfl, hid⟩
        · cases h

/-- The two steps find and remove what one step takes. -/
theorem takeRequest_eq_map (reqid : UInt64) (reqs : List FssClientRtt) :
    FssClient.takeRequest reqid reqs =
      (findRequest reqid reqs).map fun (index, req) =>
        (req, reqs.eraseIdx index) := by
  induction reqs with
  | nil => rfl
  | cons req rest ih =>
      rw [FssClient.takeRequest, findRequest, ih]
      cases findRequest reqid rest with
      | some found => rfl
      | none =>
          by_cases hid : req.reqid = reqid
          · simp [hid]
          · simp [hid]

/-- An entry and the others, in order. -/
theorem eraseIdx_eq_append {α : Type} {xs : List α} {index : Nat} {x : α}
    (h : xs[index]? = some x) :
    xs = xs.take index ++ x :: xs.drop (index + 1) ∧
      xs.eraseIdx index = xs.take index ++ xs.drop (index + 1) := by
  obtain ⟨hlt, rfl⟩ := List.getElem?_eq_some_iff.mp h
  refine ⟨?_, List.eraseIdx_eq_take_drop_succ xs index⟩
  rw [← List.drop_eq_getElem_cons hlt, List.take_append_drop]

/-- A response to the request with an id. -/
def AnswersTo (msg : FssMessage) (reqid : UInt64) : Prop :=
  msg.type = .rttResponse ∧ msg.body = .rttResponse reqid

theorem aside_processIdentified (env : Env) (c : FssClient) (msg : FssMessage)
    (hunknown : ∀ reqid, AnswersTo msg reqid →
      reqid ∉ c.outstandingRttRequests.map (·.reqid)) :
    Aside c (c.processIdentified env msg).1
      (c.processIdentified env msg).2 := by
  unfold FssClient.processIdentified
  split
  · exact aside_sendMsg c (by simp [fssMessageRttResponse]) rfl
  · next htype =>
      split
      · next reqid hbody =>
          rw [takeRequest_eq_map]
          cases hfound : findRequest reqid c.outstandingRttRequests with
          | none => exact .refl c
          | some found =>
              obtain ⟨hat, hid⟩ := findRequest_eq_some hfound
              refine absurd ?_ (hunknown reqid ⟨htype, hbody⟩)
              exact List.mem_map.mpr ⟨_, List.mem_of_getElem? hat, hid⟩
      · exact .refl c
  · have hrelay : Aside c c [.relay msg] := .quiet rfl rfl rfl (by simp)
    split
    · exact Aside.trans (.quiet rfl rfl rfl (by simp)) hrelay
    · exact hrelay
  · split
    · exact .quiet rfl rfl rfl (by simp)
    · exact .refl c
  · split
    · exact .quiet rfl rfl rfl (by simp)
    · exact .refl c
  · exact .refl c

/-- A message that leaves nothing to be done: it is neither an identity that
is accepted nor a response whose request is found. -/
def Simple (c : FssClient) (msg : Option FssMessage) : Prop :=
  ∀ m, msg = some m →
    (c.identified = false → ∀ name, m.type = .identity →
      m.body = .identity name →
      ¬ (c.clientNames = [] ∨ name ∈ c.clientNames)) ∧
    (c.identified = true → ∀ reqid, AnswersTo m reqid →
      reqid ∉ c.outstandingRttRequests.map (·.reqid))

theorem aside_processMessage (env : Env) {c : FssClient}
    {msg : Option FssMessage} (h : Simple c msg) :
    Aside c (c.processMessage env msg).1 (c.processMessage env msg).2 := by
  cases msg with
  | none => exact .refl c
  | some m =>
      unfold FssClient.processMessage
      by_cases hclosed : m.type = .closed
      · simp only [hclosed, ↓reduceIte]
        exact .quiet rfl rfl rfl (by simp)
      · simp only [hclosed, ↓reduceIte]
        cases hc : c.identified with
        | true => exact aside_processIdentified env c m ((h m rfl).2 hc)
        | false => exact aside_processUnidentified env c m ((h m rfl).1 hc)

/-- The response that the receive loop has found the request of. -/
def RttState.removing (s : RttState) :
    Option (FssMessage × UInt64 × Nat × FssClientRtt) :=
  match s.receiving with
  | .removeRequest response now index req => some (response, now, index, req)
  | _ => none

/-- A step that leaves the accounts alone. -/
structure Elsewhere (s next : RttState) (out : List Made) : Prop where
  numbered : Numbered s.client next.client (sentMsgs out)
  outstanding :
    next.client.outstandingRttRequests = s.client.outstandingRttRequests
  pending : next.pending = s.pending
  request : s.request.type = .rttRequest → next.request.type = .rttRequest
  removing : next.removing = s.removing
  unanswered : ∀ o ∈ out, ∀ name rtt, o.effect ≠ .assetAddRtt name rtt
  unasked : requestIds out = []

theorem sentMsgs_work (s : RttState)
    (todo : FssClient → FssClient × List Effect) :
    sentMsgs (s.work todo).2 = (todo s.client).2.filterMap Effect.sent? := by
  rw [sentMsgs, RttState.work, List.filterMap_map]
  rfl

theorem elsewhere_work {s next : RttState}
    {todo : FssClient → FssClient × List Effect}
    (h : Aside s.client (todo s.client).1 (todo s.client).2)
    (hclient : next.client = s.client) (hrequest : next.request = s.request)
    (hsending : next.sending = s.sending)
    (hremoving : next.removing = s.removing) :
    Elsewhere s (next.work todo).1 (next.work todo).2 := by
  rcases next with ⟨c, request, sending, receiving⟩
  obtain rfl : c = s.client := hclient
  constructor
  case numbered =>
    rw [sentMsgs_work]
    exact h.numbered
  case outstanding => exact h.outstanding
  case pending =>
    simp only [RttState.pending, RttState.work, hsending, hrequest]
  case request => exact fun htype => (congrArg _ hrequest).trans htype
  case removing => exact hremoving
  case unanswered =>
    intro o ho
    obtain ⟨e, he, rfl⟩ := List.mem_map.mp ho
    exact h.unanswered e he
  case unasked =>
    rw [requestIds, sentMsgs_work, List.filterMap_eq_nil_iff]
    intro m hm
    obtain ⟨e, he, hsent⟩ := List.mem_filterMap.mp hm
    exact if_neg (h.unasked e he m hsent)

/-- A step of the main loop that sends nothing, with the request renewed. -/
theorem elsewhere_request {s : RttState} {request : FssMessage}
    (hidle : s.sending = none) (htype : s.request.type = .rttRequest →
      request.type = .rttRequest) :
    Elsewhere s { s with request := request } [] where
  numbered := ⟨by simp [sentMsgs], rfl⟩
  outstanding := rfl
  pending := by simp only [RttState.pending, hidle]
  request := htype
  removing := rfl
  unanswered _ ho := absurd ho List.not_mem_nil
  unasked := rfl

/-- All that a step can do to the accounts. -/
inductive RttTaken (s : RttState) (e : RttEvent) :
    RttState × List Made → Prop where
  | elsewhere {next : RttState} {out : List Made} (work : Elsewhere s next out)
      (kept : s.removing = none ∨
        (∀ env, e ≠ .proceed env) ∧ ∀ env msg, e ≠ .message env msg)
      (unfound : ∀ env m reqid, e = .message env (some m) →
        s.client.identified = true → AnswersTo m reqid →
        reqid ∉ s.outstanding) :
      RttTaken s e (next, out)
  | sent {env : Env} (event : e = .sendRequest env)
      (idle : s.sending = none) :
      RttTaken s e
        ({ s with
          client := (s.client.sendMsg s.request).1
          request := (s.client.sendMsg s.request).2
          sending := some env.now },
        [{ effect := .send (s.client.sendMsg s.request).2 }])
  | recorded {ts : UInt64} (event : e = .recordRequest)
      (sent : s.sending = some ts) :
      RttTaken s e
        ({ s with
          client := { s.client with
            outstandingRttRequests :=
              s.client.outstandingRttRequests ++ [⟨ts, s.request.id⟩] }
          sending := none }, [])
  | found {env : Env} {m : FssMessage} {index : Nat} {req : FssClientRtt}
      (event : e = .message env (some m)) (idle : s.removing = none)
      (identified : s.client.identified = true)
      (answers : AnswersTo m req.reqid)
      (place : s.client.outstandingRttRequests[index]? = some req) :
      RttTaken s e
        ({ s with receiving := .removeRequest m env.now index req }, [])
  | removed {env : Env} {m : FssMessage} {now : UInt64} {index : Nat}
      {req : FssClientRtt} (event : e = .proceed env)
      (found : s.removing = some (m, now, index, req)) :
      RttTaken s e ((s.removeRequest m now index req).1,
        (s.removeRequest m now index req).2)

theorem of_mainLoop {s next : RttState} {out : List Made}
    {todo : RttState → RttState × List Made}
    (h : s.mainLoop todo = some (next, out)) :
    s.sending = none ∧ todo s = (next, out) := by
  unfold RttState.mainLoop at h
  split at h
  · next hidle => exact ⟨hidle, Option.some.inj h⟩
  · cases h

/-- The work of a thread that does not receive. -/
theorem RttTaken.of_work {s next : RttState} {e : RttEvent} {out : List Made}
    {todo : FssClient → FssClient × List Effect}
    (h : Aside s.client (todo s.client).1 (todo s.client).2)
    (hproceed : ∀ env, e ≠ .proceed env)
    (hmessage : ∀ env m, e ≠ .message env m)
    (heq : s.work todo = (next, out)) : RttTaken s e (next, out) := by
  have hwork := elsewhere_work h rfl rfl rfl rfl
  rw [heq] at hwork
  exact .elsewhere hwork (.inr ⟨hproceed, hmessage⟩)
    fun env m _ he => absurd he (hmessage env m)

/-- The sends that an accepted identity leaves to be done. -/
theorem RttTaken.of_proceed {s : RttState} {place : Receiving} {env : Env}
    {todo : FssClient → FssClient × List Effect}
    (h : Aside s.client (todo s.client).1 (todo s.client).2)
    (hbefore : s.removing = none)
    (hafter : { s with receiving := place }.removing = none) :
    RttTaken s (.proceed env) ({ s with receiving := place }.work todo) :=
  .elsewhere (elsewhere_work h rfl rfl rfl (hafter.trans hbefore.symm))
    (.inl hbefore) (by simp)

theorem taken_of_receive {s next : RttState} {env : Env}
    {msg : Option FssMessage} {out : List Made} (hidle : s.receiving = .idle)
    (heq : s.receive env msg = (next, out)) :
    RttTaken s (.message env msg) (next, out) := by
  have hremoving : s.removing = none := by
    rw [RttState.removing, hidle]
  have hsimple : Simple s.client msg →
      s.work (·.processMessage env msg) = (next, out) →
      RttTaken s (.message env msg) (next, out) := by
    intro hsimple hwork
    have h := @elsewhere_work s s (·.processMessage env msg)
      (aside_processMessage env hsimple) rfl rfl rfl rfl
    rw [hwork] at h
    refine .elsewhere h (.inl hremoving) fun env m reqid he hc hanswers => ?_
    cases he
    exact (hsimple m rfl).2 hc reqid hanswers
  unfold RttState.receive at heq
  split at heq
  · next id name hunidentified =>
      split at heq
      · cases heq
        refine .elsewhere ⟨⟨by simp [sentMsgs], rfl⟩, rfl, rfl, fun h => h, ?_,
          fun o ho => absurd ho List.not_mem_nil, rfl⟩ (.inl hremoving) ?_
        · exact hremoving.symm
        · intro env m reqid _ hc
          rw [hunidentified] at hc
          cases hc
      · next hrefused =>
          apply hsimple _ heq
          intro m hm
          cases hm
          refine ⟨fun _ name' _ hbody => ?_, fun hc => ?_⟩
          · cases hbody
            exact hrefused
          · rw [hunidentified] at hc
            cases hc
  · next id reqid hidentified =>
      split at heq
      · next index req hfound =>
          cases heq
          obtain ⟨hplace, rfl⟩ := findRequest_eq_some hfound
          exact .found rfl hremoving hidentified ⟨rfl, rfl⟩ hplace
      · next hfound =>
          apply hsimple _ heq
          intro m hm
          cases hm
          refine ⟨fun hc => ?_, fun _ reqid' hanswers => ?_⟩
          · rw [hidentified] at hc
            cases hc
          · cases hanswers.2
            exact findRequest_eq_none hfound
  · next hneither₁ hneither₂ =>
      apply hsimple _ heq
      rintro ⟨id, type, body⟩ rfl
      refine ⟨fun hc name htype hbody => ?_, fun hc reqid hanswers => ?_⟩
      · cases htype
        cases hbody
        exact absurd rfl (hneither₁ id name hc)
      · cases hanswers.1
        cases hanswers.2
        exact absurd rfl (hneither₂ id reqid hc)

theorem taken_of_step {s next : RttState} {e : RttEvent} {out : List Made}
    (h : s.step e = some (next, out)) : RttTaken s e (next, out) := by
  cases e with
  | newRequest =>
      rw [RttState.step] at h
      obtain ⟨hidle, heq⟩ := of_mainLoop h
      cases heq
      exact .elsewhere (elsewhere_request hidle fun _ => rfl)
        (.inr (by simp)) (by simp)
  | otherClient id =>
      rw [RttState.step] at h
      obtain ⟨hidle, heq⟩ := of_mainLoop h
      cases heq
      exact .elsewhere (elsewhere_request hidle fun htype => htype)
        (.inr (by simp)) (by simp)
  | sendRequest env =>
      rw [RttState.step] at h
      obtain ⟨hidle, heq⟩ := of_mainLoop h
      cases heq
      exact .sent rfl hidle
  | recordRequest =>
      rw [RttState.step] at h
      split at h
      · cases h
      · next ts hsent =>
          cases h
          exact .recorded rfl hsent
  | sendCommand env =>
      rw [RttState.step] at h
      exact .of_work (aside_sendCommand env s.client) (by simp) (by simp)
        (of_mainLoop h).2
  | sendSmmSettings env =>
      rw [RttState.step] at h
      exact .of_work (aside_sendSmmSettings env s.client) (by simp) (by simp)
        (of_mainLoop h).2
  | sendServersList env =>
      rw [RttState.step] at h
      exact .of_work (aside_sendServersList env s.client) (by simp) (by simp)
        (of_mainLoop h).2
  | relay report =>
      rw [RttState.step] at h
      split at h
      · next htype =>
          exact .of_work (aside_relayReport htype s.client) (by simp) (by simp)
            (Option.some.inj h)
      · cases h
  | message env msg =>
      rw [RttState.step] at h
      split at h
      · next hidle => exact taken_of_receive hidle (Option.some.inj h)
      · cases h
  | proceed env =>
      rw [RttState.step] at h
      split at h
      · cases h
      · next hreceiving =>
          cases h
          exact .of_proceed (aside_sendCommand env s.client)
            (by rw [RttState.removing, hreceiving]) rfl
      · next hreceiving =>
          cases h
          exact .of_proceed (aside_sendSmmSettings env s.client)
            (by rw [RttState.removing, hreceiving]) rfl
      · next hreceiving =>
          cases h
          exact .of_proceed (aside_sendServersList env s.client)
            (by rw [RttState.removing, hreceiving]) rfl
      · next response now index req hreceiving =>
          cases h
          refine .removed rfl ?_
          rw [RttState.removing, hreceiving]

/-! Undisturbed, the steps are those of the client. -/

theorem map_work (s : RttState) (todo : FssClient → FssClient × List Effect) :
    (s.work todo).2.map (·.effect) = (todo s.client).2 := by
  rw [RttState.work, List.map_map]
  exact List.map_id _

/-- When nothing comes in between, the steps of a message end as the whole
processing does. -/
def EndsAsWhole (s : RttState) (env : Env) (msg : Option FssMessage) : Prop :=
  ∃ steps outs,
    run RttState.step s
      (.message env msg :: .replicate steps (.proceed env)) =
        some ({ s with client := (s.client.processMessage env msg).1 }, outs) ∧
    outs.map (·.effect) = (s.client.processMessage env msg).2

theorem endsAsWhole_of_receive {env : Env} {s : RttState}
    {msg : Option FssMessage} (hidle : s.receiving = .idle)
    (h : s.receive env msg = s.work (·.processMessage env msg)) :
    EndsAsWhole s env msg := by
  refine ⟨0, (s.work (·.processMessage env msg)).2, ?_, map_work s _⟩
  rw [List.replicate_zero, run, RttState.step, if_pos hidle, h]
  simp only [run, RttState.work, List.append_nil]

/-- An accepted identity takes three more steps, a response whose request is
found takes one. -/
theorem endsAsWhole (env : Env) {s : RttState} (msg : Option FssMessage)
    (hidle : s.receiving = .idle) : EndsAsWhole s env msg := by
  have hwhole := @endsAsWhole_of_receive env s msg hidle
  unfold RttState.receive at hwhole
  split at hwhole
  · next id name hunidentified =>
      split at hwhole
      · next haccepted =>
          refine ⟨3, (s.client.processMessage env
            (some ⟨id, .identity, .identity name⟩)).2.map fun effect =>
              { effect }, ?_, ?_⟩
          · simp only [List.replicate, run, RttState.step, RttState.receive,
              RttState.work, hidle, hunidentified, haccepted, ↓reduceIte,
              FssClient.processMessage, FssClient.processUnidentified,
              FssClient.processIdentity, sendServersList, reduceCtorEq]
            simp
          · rw [List.map_map]
            exact List.map_id _
      · exact hwhole rfl
  · next id reqid hidentified =>
      split at hwhole
      · next index req hfound =>
          let response : FssMessage := ⟨id, .rttResponse, .rttResponse reqid⟩
          refine ⟨1, [⟨.assetAddRtt s.client.name (env.now - req.timestamp),
            some response⟩], ?_, ?_⟩
          · simp [List.replicate, run, RttState.step, RttState.receive, hidle,
              hidentified, hfound, FssClient.processMessage, response,
              FssClient.processIdentified, takeRequest_eq_map,
              RttState.removeRequest]
          · simp [FssClient.processMessage, FssClient.processIdentified,
              hidentified, takeRequest_eq_map, hfound]
      · exact hwhole rfl
  · exact hwhole rfl

/-- A request that nothing comes in between of is sent as a whole. -/
theorem run_sendRttRequest (env : Env) {s : RttState} {id : UInt64}
    (hidle : s.sending = none)
    (hrequest : s.request = fssMessageRttRequest.setId id) :
    ∃ outs, run RttState.step s [.sendRequest env, .recordRequest] =
        some ({ s with
          client := (s.client.sendRttRequest env).1
          request := (s.client.sendMsg fssMessageRttRequest).2 }, outs) ∧
      outs.map (·.effect) = (s.client.sendRttRequest env).2 := by
  refine ⟨[{ effect := .send (s.client.sendMsg fssMessageRttRequest).2 }],
    ?_, rfl⟩
  simp [run, RttState.step, RttState.mainLoop, hidle, hrequest,
    FssClient.sendMsg, FssClient.sendRttRequest, FssMessage.setId]

end FlightSafety.Server
