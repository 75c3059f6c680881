/-
The server's side of a session, step by step: what it sends, what it writes of
the asset's reports, and when it takes the asset for identified.
-/
import FlightSafety.Server.RttSound

namespace FlightSafety

open Octets ExactDouble Machine Server

/-- A message with the tag of its class, and not a closed one. -/
def Plain (m : FssMessage) : Prop :=
  m.type = m.body.sentType ∧ m.body ≠ .closed

/-- Every message that is sent is plain. -/
def SendsPlain (effects : List Effect) : Prop :=
  ∀ e ∈ effects, ∀ m, e.sent? = some m → Plain m

section Plain

variable {env : Env} {c : FssClient}

theorem Plain.setId {m : FssMessage} (h : Plain m) (id : UInt64) :
    Plain (m.setId id) :=
  h

theorem sendsPlain_of_silent {effects : List Effect}
    (h : ∀ e ∈ effects, e.sent? = none) : SendsPlain effects := by
  intro e he m hm
  rw [h e he] at hm
  cases hm

theorem sendsPlain_send {m : FssMessage} (h : Plain m) :
    SendsPlain [.send m] := by
  intro e he m' hm'
  rw [List.mem_singleton.mp he] at hm'
  cases hm'
  exact h

theorem plain_commandMsg (ac : Server.AssetCommand) :
    Plain (FssClient.commandMsg ac) := by
  unfold FssClient.commandMsg
  split <;> exact ⟨rfl, FssMessageBody.noConfusion⟩

theorem sendsPlain_sendCommand : SendsPlain (c.sendCommand env).2 := by
  unfold FssClient.sendCommand
  split
  · exact sendsPlain_of_silent (by simp)
  next ac hac =>
    split
    · intro e he m hm
      rw [List.mem_singleton.mp he] at hm
      cases hm
      exact (plain_commandMsg ac).setId _
    · exact sendsPlain_of_silent (by simp)

theorem sendsPlain_sendSmmSettings : SendsPlain (c.sendSmmSettings env).2 := by
  unfold FssClient.sendSmmSettings
  split
  · exact sendsPlain_of_silent (by simp)
  next smm hsmm =>
    intro e he m hm
    rw [List.mem_singleton.mp he] at hm
    cases hm
    exact ⟨rfl, FssMessageBody.noConfusion⟩

theorem sendsPlain_sendServersList :
    SendsPlain (sendServersList env c).2 :=
  sendsPlain_send ⟨rfl, FssMessageBody.noConfusion⟩

theorem SendsPlain.append {first second : List Effect} (h : SendsPlain first)
    (h' : SendsPlain second) : SendsPlain (first ++ second) :=
  List.forall_mem_append.mpr ⟨h, h'⟩

theorem sendsPlain_processIdentity (name : Bytes) :
    SendsPlain (c.processIdentity env name).2 := by
  by_cases hlisted : c.clientNames = [] ∨ name ∈ c.clientNames
  · simp only [FssClient.processIdentity, hlisted, ↓reduceIte]
    apply SendsPlain.append
    · exact sendsPlain_sendCommand.append sendsPlain_sendSmmSettings
    · exact sendsPlain_sendServersList
  · simp only [FssClient.processIdentity, hlisted, ↓reduceIte]
    exact sendsPlain_of_silent (by simp [Effect.sent?])

theorem sendsPlain_processIdentified (m : FssMessage) :
    SendsPlain (c.processIdentified env m).2 := by
  unfold FssClient.processIdentified
  split
  · exact sendsPlain_send ⟨rfl, FssMessageBody.noConfusion⟩
  all_goals apply sendsPlain_of_silent
  · split
    · split <;> simp [Effect.sent?]
    · simp
  · split <;> simp [Effect.sent?]
  · split <;> simp [Effect.sent?]
  · split <;> simp [Effect.sent?]
  · simp

theorem sendsPlain_processMessage (msg : Option FssMessage) :
    SendsPlain (c.processMessage env msg).2 := by
  cases msg with
  | none => exact sendsPlain_of_silent (by simp [FssClient.processMessage])
  | some m =>
      simp only [FssClient.processMessage]
      split
      · exact sendsPlain_of_silent (by simp [Effect.sent?])
      · split
        · exact sendsPlain_processIdentified m
        · unfold FssClient.processUnidentified
          split
          · split
            · exact sendsPlain_processIdentity _
            · exact sendsPlain_of_silent (by simp)
          · exact sendsPlain_of_silent (by simp)
          · exact sendsPlain_send ⟨rfl, FssMessageBody.noConfusion⟩

end Plain

/-- The work that some steps leave to the client: a send, or none. -/
inductive Sends : RttEvent → (FssClient → FssClient × List Effect) → Prop where
  | sendCommand (env : Env) : Sends (.sendCommand env) (·.sendCommand env)
  | sendSmmSettings (env : Env) :
      Sends (.sendSmmSettings env) (·.sendSmmSettings env)
  | sendServersList (env : Env) :
      Sends (.sendServersList env) (sendServersList env)
  | relay (report : FssMessage) (type : report.type = .positionReport) :
      Sends (.relay report) (relayReport report)
  | proceedCommand (env : Env) : Sends (.proceed env) (·.sendCommand env)
  | proceedSettings (env : Env) : Sends (.proceed env) (·.sendSmmSettings env)
  | proceedList (env : Env) : Sends (.proceed env) (sendServersList env)

/-- Each step by what it does. -/
inductive Moved (s : RttState) : RttEvent → RttState × List Made → Prop where
  | request {e : RttEvent} (request : FssMessage)
      (elsewhere : ∀ env msg, e ≠ .message env msg)
      (plain : Plain s.request → Plain request) :
      Moved s e ({ s with request := request }, [])
  | sent (env : Env) :
      Moved s (.sendRequest env)
        ({ s with
          client := (s.client.sendMsg s.request).1
          request := (s.client.sendMsg s.request).2
          sending := some env.now },
        [{ effect := .send (s.client.sendMsg s.request).2 }])
  | recorded (ts : UInt64) :
      Moved s .recordRequest
        ({ s with
          client := { s.client with
            outstandingRttRequests :=
              s.client.outstandingRttRequests ++ [⟨ts, s.request.id⟩] }
          sending := none }, [])
  | sends {e : RttEvent} {todo : FssClient → FssClient × List Effect}
      (place : Receiving) (sends : Sends e todo) :
      Moved s e ({ s with receiving := place }.work todo)
  | receives (env : Env) (msg : Option FssMessage) (idle : s.receiving = .idle) :
      Moved s (.message env msg) (s.receive env msg)
  | removed (env : Env) (m : FssMessage) (now : UInt64) (index : Nat)
      (req : FssClientRtt) (found : s.removing = some (m, now, index, req)) :
      Moved s (.proceed env) (s.removeRequest m now index req)

theorem Moved.of_mainLoop {s next : RttState} {e : RttEvent} {out : List Made}
    {todo : FssClient → FssClient × List Effect} (hsends : Sends e todo)
    (h : s.mainLoop (fun s => s.work todo) = some (next, out)) :
    Moved s e (next, out) := by
  have heq := (Server.of_mainLoop h).2
  rw [← heq]
  exact .sends s.receiving hsends

theorem moved_of_step {s next : RttState} {e : RttEvent} {out : List Made}
    (h : s.step e = some (next, out)) : Moved s e (next, out) := by
  cases e with
  | newRequest =>
      rw [RttState.step] at h
      obtain ⟨-, heq⟩ := of_mainLoop h
      cases heq
      exact .request fssMessageRttRequest (by simp)
        fun _ => ⟨rfl, FssMessageBody.noConfusion⟩
  | otherClient id =>
      rw [RttState.step] at h
      obtain ⟨-, heq⟩ := of_mainLoop h
      cases heq
      exact .request (s.request.setId id) (by simp) fun hplain => hplain.setId id
  | sendRequest env =>
      rw [RttState.step] at h
      obtain ⟨-, heq⟩ := of_mainLoop h
      cases heq
      exact .sent env
  | recordRequest =>
      rw [RttState.step] at h
      split at h
      · cases h
      next ts hsent =>
        cases h
        exact .recorded ts
  | sendCommand env =>
      rw [RttState.step] at h
      exact .of_mainLoop (.sendCommand env) h
  | sendSmmSettings env =>
      rw [RttState.step] at h
      exact .of_mainLoop (.sendSmmSettings env) h
  | sendServersList env =>
      rw [RttState.step] at h
      exact .of_mainLoop (.sendServersList env) h
  | relay report =>
      rw [RttState.step] at h
      split at h
      next htype =>
        rw [← Option.some.inj h]
        exact .sends s.receiving (.relay report htype)
      next => cases h
  | message env msg =>
      rw [RttState.step] at h
      split at h
      next hidle =>
        rw [← Option.some.inj h]
        exact .receives env msg hidle
      next => cases h
  | proceed env =>
      rw [RttState.step] at h
      split at h
      · cases h
      · rw [← Option.some.inj h]
        exact .sends .sendSmmSettings (.proceedCommand env)
      · rw [← Option.some.inj h]
        exact .sends .sendServersList (.proceedSettings env)
      · rw [← Option.some.inj h]
        exact .sends .idle (.proceedList env)
      next m now index req hreceiving =>
        rw [← Option.some.inj h]
        exact .removed env m now index req (by rw [RttState.removing, hreceiving])

/-- What is relayed to the client is a report. -/
def Relays (e : RttEvent) : Prop :=
  ∀ report, e = .relay report → report.body.class = .positionReport

theorem relays_message (env : Env) (msg : Option FssMessage) :
    Relays (.message env msg) :=
  fun _ he => nomatch he

theorem plain_relayed {report : FssMessage} (htype : report.type = .positionReport)
    (hclass : report.body.class = .positionReport) : Plain report := by
  rcases report with ⟨id, type, body⟩
  cases body with
  | positionReport report => exact ⟨htype, FssMessageBody.noConfusion⟩
  | _ => cases hclass

theorem Sends.plain {e : RttEvent} {c : FssClient}
    {todo : FssClient → FssClient × List Effect} (h : Sends e todo)
    (hrelays : Relays e) : SendsPlain (todo c).2 := by
  cases h with
  | sendCommand env | proceedCommand env => exact sendsPlain_sendCommand
  | sendSmmSettings env | proceedSettings env => exact sendsPlain_sendSmmSettings
  | sendServersList env | proceedList env => exact sendsPlain_sendServersList
  | relay report htype =>
      exact sendsPlain_send ((plain_relayed htype (hrelays report rfl)).setId _)

/-- The server sends plain messages, as long as its request is one. -/
structure PlainNext (next : RttState) (out : List Made) : Prop where
  sent : ∀ m ∈ sentMsgs out, Plain m
  request : Plain next.request

theorem PlainNext.work {s : RttState} (h : Plain s.request)
    {todo : FssClient → FssClient × List Effect}
    (hsends : SendsPlain (todo s.client).2) :
    PlainNext (s.work todo).1 (s.work todo).2 where
  sent m hm := by
    rw [sentMsgs_work] at hm
    obtain ⟨e, he, hsent⟩ := List.mem_filterMap.mp hm
    exact hsends e he m hsent
  request := h

theorem PlainNext.silent {next : RttState} (h : Plain next.request) :
    PlainNext next [] where
  sent _ hm := absurd hm List.not_mem_nil
  request := h

theorem plainNext_receive {s : RttState} (h : Plain s.request) (env : Env)
    (msg : Option FssMessage) :
    PlainNext (s.receive env msg).1 (s.receive env msg).2 := by
  unfold RttState.receive
  split
  · split
    · exact .silent h
    · exact .work h (sendsPlain_processMessage _)
  · split
    · exact .silent h
    · exact .work h (sendsPlain_processMessage _)
  · exact .work h (sendsPlain_processMessage _)

theorem plain_of_moved {s : RttState} {e : RttEvent}
    {worked : RttState × List Made} (h : Plain s.request) (hrelays : Relays e)
    (hmoved : Moved s e worked) : PlainNext worked.1 worked.2 := by
  cases hmoved with
  | request request elsewhere plain => exact .silent (plain h)
  | sent env =>
      refine ⟨fun m hm => ?_, h.setId _⟩
      rw [List.mem_singleton.mp hm]
      exact h.setId _
  | recorded ts => exact .silent h
  | sends place sends =>
      exact @PlainNext.work { s with receiving := place } h _
        (sends.plain hrelays)
  | receives env msg idle => exact plainNext_receive h env msg
  | removed env m now index req found =>
      exact ⟨fun m hm => absurd hm List.not_mem_nil, h⟩

/-! What the server makes of reports. -/

/-- A row that is written for a report, or its reflection to the others. -/
def isReport : Effect → Bool
  | .assetAddStatus _ _ _ _ | .assetAddSearchStatus _ _ _ _
  | .assetAddPosition _ _ _ _ | .relay _ => true
  | _ => false

def reports (outs : List Made) : List Effect :=
  (outs.map (·.effect)).filter isReport

/-- What is to be made of a message that an aircraft of some name has sent. -/
def told (name : Bytes) : Option FssMessage → List Effect
  | none => []
  | some msg =>
      match msg.type, msg.body with
      | .positionReport, _ =>
          [.assetAddPosition name msg.getLatitude msg.getLongitude
            msg.getAltitude.toUInt16, .relay msg]
      | .systemStatus, .systemStatus status =>
          [.assetAddStatus name status.batPercent status.mahUsed
            status.voltage]
      | .searchStatus, .searchStatus status =>
          [.assetAddSearchStatus name status.searchId status.pointCompleted
            status.pointsTotal]
      | _, _ => []

@[simp] theorem reports_append (first second : List Made) :
    reports (first ++ second) = reports first ++ reports second := by
  simp [reports]

theorem reports_work (s : RttState)
    (todo : FssClient → FssClient × List Effect) :
    reports (s.work todo).2 = (todo s.client).2.filter isReport := by
  rw [reports, map_work]

theorem Sends.quiet {e : RttEvent} {todo : FssClient → FssClient × List Effect}
    (h : Sends e todo) (c : FssClient) :
    c.SameIdentity (todo c).1 ∧ (todo c).2.filter isReport = [] := by
  have hlookups : ∀ {effects : List Effect},
      (∀ e ∈ effects, ∃ msg, e = .sendLookup c.name msg) →
      effects.filter isReport = [] := by
    intro effects heffects
    rw [List.filter_eq_nil_iff]
    intro e he
    obtain ⟨msg, rfl⟩ := heffects e he
    exact Bool.false_ne_true
  cases h with
  | sendCommand env | proceedCommand env =>
      have hspec := sendCommand_spec env c
      exact ⟨hspec.1, hlookups hspec.2⟩
  | sendSmmSettings env | proceedSettings env =>
      have hspec := sendSmmSettings_spec env c
      exact ⟨hspec.1, hlookups hspec.2⟩
  | sendServersList env | proceedList env =>
      exact ⟨⟨rfl, rfl, rfl, rfl⟩, rfl⟩
  | relay report type => exact ⟨⟨rfl, rfl, rfl, rfl⟩, rfl⟩

/-- The server takes the client for an aircraft of some name. -/
structure Known (name : Bytes) (c : FssClient) : Prop where
  identified : c.identified = true
  aircraft : c.aircraft = true
  name : c.name = name

theorem Known.same {name : Bytes} {c c' : FssClient} (h : Known name c)
    (hsame : c.SameIdentity c') : Known name c' where
  identified := hsame.identified.trans h.identified
  aircraft := hsame.aircraft.trans h.aircraft
  name := hsame.name.trans h.name

/-- What an aircraft tells is written for its name. -/
theorem processMessage_known {name : Bytes} {c : FssClient} (h : Known name c)
    (env : Env) (msg : Option FssMessage) :
    c.SameIdentity (c.processMessage env msg).1 ∧
      (c.processMessage env msg).2.filter isReport = told name msg := by
  cases msg with
  | none => exact ⟨.refl c, rfl⟩
  | some msg =>
      rcases msg with ⟨id, type, body⟩
      obtain ⟨hidentified, haircraft, rfl⟩ := h
      cases type with
      | closed => exact ⟨.refl c, rfl⟩
      | rttRequest =>
          simp only [FssClient.processMessage, hidentified, ↓reduceIte]
          exact ⟨⟨rfl, rfl, rfl, rfl⟩, rfl⟩
      | rttResponse =>
          simp only [FssClient.processMessage, hidentified, ↓reduceIte,
            FssClient.processIdentified]
          cases body with
          | rttResponse reqid =>
              simp only [reduceCtorEq, ↓reduceIte]
              cases FssClient.takeRequest reqid c.outstandingRttRequests with
              | none => exact ⟨.refl c, rfl⟩
              | some found => exact ⟨⟨rfl, hidentified.symm, rfl, rfl⟩, rfl⟩
          | _ => exact ⟨.refl c, rfl⟩
      | positionReport =>
          simp only [FssClient.processMessage, hidentified, ↓reduceIte,
            FssClient.processIdentified, haircraft]
          exact ⟨.refl c, rfl⟩
      | systemStatus | searchStatus =>
          simp only [FssClient.processMessage, hidentified, ↓reduceIte,
            FssClient.processIdentified]
          cases body <;> exact ⟨.refl c, rfl⟩
      | _ =>
          simp only [FssClient.processMessage, hidentified, ↓reduceIte,
            FssClient.processIdentified]
          exact ⟨.refl c, rfl⟩

/-- What a step tells of a message of the client. -/
def RttEvent.told (name : Bytes) : RttEvent → List Effect
  | .message _ msg => FlightSafety.told name msg
  | _ => []

theorem Sends.told {name : Bytes} {e : RttEvent}
    {todo : FssClient → FssClient × List Effect} (h : Sends e todo) :
    RttEvent.told name e = [] := by
  cases h <;> rfl

theorem told_of_ne {name : Bytes} {e : RttEvent}
    (h : ∀ env msg, e ≠ .message env msg) : RttEvent.told name e = [] := by
  cases e with
  | message env msg => exact absurd rfl (h env msg)
  | _ => rfl

theorem known_receive {name : Bytes} {s : RttState} (h : Known name s.client)
    (env : Env) (msg : Option FssMessage) :
    Known name (s.receive env msg).1.client ∧
      reports (s.receive env msg).2 = told name msg := by
  have hwork : Known name (s.work (·.processMessage env msg)).1.client ∧
      reports (s.work (·.processMessage env msg)).2 = told name msg := by
    obtain ⟨hsame, htold⟩ := processMessage_known h env msg
    exact ⟨h.same hsame, (reports_work s _).trans htold⟩
  unfold RttState.receive
  split
  next hidentified =>
    rw [h.identified] at hidentified
    cases hidentified
  next hidentified =>
    split
    · exact ⟨h, rfl⟩
    · exact hwork
  next => exact hwork

theorem known_of_moved {name : Bytes} {s : RttState} {e : RttEvent}
    {worked : RttState × List Made} (h : Known name s.client)
    (hmoved : Moved s e worked) :
    Known name worked.1.client ∧ reports worked.2 = RttEvent.told name e := by
  cases hmoved with
  | request request elsewhere plain => exact ⟨h, (told_of_ne elsewhere).symm⟩
  | sent env => exact ⟨h.same ⟨rfl, rfl, rfl, rfl⟩, rfl⟩
  | recorded ts => exact ⟨h.same ⟨rfl, rfl, rfl, rfl⟩, rfl⟩
  | sends place sends =>
      obtain ⟨hsame, hquiet⟩ := sends.quiet s.client
      refine ⟨h.same hsame, ?_⟩
      rw [reports_work, sends.told]
      exact hquiet
  | receives env msg idle => exact known_receive h env msg
  | removed env m now index req found =>
      exact ⟨h.same ⟨rfl, rfl, rfl, rfl⟩, rfl⟩

/-- The server does not know yet who the client is. -/
structure Unknown (clientNames : List Bytes) (c : FssClient) : Prop where
  identified : c.identified = false
  clientNames : c.clientNames = clientNames

theorem Unknown.same {clientNames : List Bytes} {c c' : FssClient}
    (h : Unknown clientNames c) (hsame : c.SameIdentity c') :
    Unknown clientNames c' where
  identified := hsame.identified.trans h.identified
  clientNames := hsame.clientNames.trans h.clientNames

theorem unknown_of_moved {clientNames : List Bytes} {s : RttState}
    {e : RttEvent} {worked : RttState × List Made}
    (h : Unknown clientNames s.client) (hmoved : Moved s e worked)
    (helsewhere : ∀ env msg, e ≠ .message env msg) :
    Unknown clientNames worked.1.client ∧ reports worked.2 = [] := by
  cases hmoved with
  | request request elsewhere plain => exact ⟨h, rfl⟩
  | sent env => exact ⟨h.same ⟨rfl, rfl, rfl, rfl⟩, rfl⟩
  | recorded ts => exact ⟨h.same ⟨rfl, rfl, rfl, rfl⟩, rfl⟩
  | sends place sends =>
      obtain ⟨hsame, hquiet⟩ := sends.quiet s.client
      refine ⟨h.same hsame, ?_⟩
      rw [reports_work]
      exact hquiet
  | receives env msg idle => exact absurd rfl (helsewhere env msg)
  | removed env m now index req found =>
      exact ⟨h.same ⟨rfl, rfl, rfl, rfl⟩, rfl⟩

/-- A response of a client that is not known is answered with the demand to
identify, and dropped. -/
theorem receive_unknown_response {clientNames : List Bytes} {s : RttState}
    (h : Unknown clientNames s.client) (env : Env) (id reqid : UInt64) :
    let worked := s.receive env (some ⟨id, .rttResponse, .rttResponse reqid⟩)
    Unknown clientNames worked.1.client ∧ reports worked.2 = [] := by
  simp only [RttState.receive, h.identified, RttState.work,
    FssClient.processMessage]
  exact ⟨h.same ⟨rfl, rfl, rfl, rfl⟩, rfl⟩

/-- An identity that the certificate permits makes the client known. -/
theorem receive_identity {clientNames : List Bytes} {s : RttState}
    {name : Bytes} (h : Unknown clientNames s.client)
    (hlisted : clientNames = [] ∨ name ∈ clientNames) (env : Env)
    (id : UInt64) :
    let worked := s.receive env (some ⟨id, .identity, .identity name⟩)
    Known name worked.1.client ∧ reports worked.2 = [] := by
  simp only [RttState.receive, h.identified, h.clientNames, hlisted,
    ↓reduceIte]
  exact ⟨⟨rfl, rfl, rfl⟩, rfl⟩

end FlightSafety
