/-
Position reports on their way through the server.  A report is decoded, handed
to every registered aircraft but its sender, and packed again for each of
them.  The registry holds no client twice, so each gets one copy.
-/
import FlightSafety.Server.ServerClients
import FlightSafety.Transport.PositionCodec

namespace FlightSafety.Server

open Octets ExactDouble Machine

/-- The messages sent to one client. -/
def copies (id : Nat) (outs : List Output) : List FssMessage :=
  outs.filterMap fun o => if o.id = id then o.effect.sent? else none

theorem copies_append (id : Nat) (first second : List Output) :
    copies id (first ++ second) = copies id first ++ copies id second :=
  List.filterMap_append ..

/-- Those a message of a client is relayed to. -/
def Recipient (s : ServerState) (id other : Nat) : Prop :=
  other ∈ s.registry.clients ∧ s.isAircraft other = true ∧ other ≠ id

instance (s : ServerState) (id other : Nat) :
    Decidable (Recipient s id other) :=
  inferInstanceAs (Decidable (_ ∧ _))

/-- A decoded report has every field of the one that was made, and its
coordinates to less than a quantum. -/
def Intact (r : PositionReport) (lat lng : ℚ) (m : FssMessage) : Prop :=
  m.type = .positionReport ∧ ∃ r', m.body = .positionReport r' ∧
    Near lat r'.latitude ∧ Near lng r'.longitude ∧
    r' = { r with latitude := r'.latitude, longitude := r'.longitude }

/-- Each recipient is sent one message, from which it decodes the report, and
nobody else is sent any. -/
def Relayed [Target] (s : ServerState) (id : Nat) (r : PositionReport)
    (lat lng : ℚ) (outs : List Output) : Prop :=
  ∀ other,
    (Recipient s id other → ∃ msg m, copies other outs = [msg] ∧
      decode msg.onWire = .ok (some m) ∧ Intact r lat lng m) ∧
    (¬ Recipient s id other → copies other outs = [])

/-! No client is registered twice. -/

/-- Work on some clients registers nobody and takes no client back to before
its registration. -/
structure Forward (s s' : ServerState) : Prop where
  clients : s'.registry.clients.Sublist s.registry.clients
  stage : ∀ {id conn}, s.connections id = some conn →
    ∃ conn', s'.connections id = some conn' ∧ conn'.stage = conn.stage

theorem Forward.refl (s : ServerState) : Forward s s :=
  ⟨.refl _, fun h => ⟨_, h, rfl⟩⟩

theorem Forward.trans {s₁ s₂ s₃ : ServerState} (h : Forward s₁ s₂)
    (h' : Forward s₂ s₃) : Forward s₁ s₃ where
  clients := h'.clients.trans h.clients
  stage hconn := by
    obtain ⟨middle, hmiddle, hstage⟩ := h.stage hconn
    obtain ⟨last, hlast, hstage'⟩ := h'.stage hmiddle
    exact ⟨last, hlast, hstage'.trans hstage⟩

theorem forward_setConnection {s : ServerState} {id : Nat}
    {conn conn' : Connection} (hconn : s.connections id = some conn)
    (hstage : conn'.stage = conn.stage) :
    Forward s (s.setConnection id conn') where
  clients := .refl _
  stage {other found} hfound := by
    by_cases hother : other = id
    · subst hother
      rw [hconn] at hfound
      cases hfound
      exact ⟨conn', ServerState.connections_setConnection .., hstage⟩
    · exact ⟨found, (s.connections_setConnection_of_ne hother conn').trans
        hfound, rfl⟩

theorem forward_sendTo (s : ServerState) (id : Nat) (msg : FssMessage) :
    Forward s (s.sendTo id msg).1 := by
  unfold ServerState.sendTo
  split
  · exact .refl s
  · next conn hconn => exact forward_setConnection hconn rfl

theorem forward_sendMsg (msg : FssMessage) (except : Nat) (ids : List Nat)
    (s : ServerState) :
    Forward s (ServerState.sendMsg msg except ids s).1 := by
  induction ids generalizing s with
  | nil => exact .refl s
  | cons id rest ih =>
      unfold ServerState.sendMsg
      split
      · exact (forward_sendTo s id msg).trans (ih _)
      · exact ih s

theorem forward_perform (id : Nat) (clientNames : List Bytes) (s : ServerState)
    (e : Effect) : Forward s (s.perform id clientNames e).1 := by
  cases e with
  | clientDisconnected =>
      refine ⟨?_, fun h => ⟨_, h, rfl⟩⟩
      exact ServerClients.sublist_clientDisconnected _ _
  | relay msg => exact forward_sendMsg msg id s.registry.clients s
  | _ => exact .refl s

theorem forward_performAll (id : Nat) (clientNames : List Bytes)
    (effects : List Effect) (s : ServerState) :
    Forward s (ServerState.performAll id clientNames effects s).1 := by
  induction effects generalizing s with
  | nil => exact .refl s
  | cons e rest ih => exact (forward_perform id clientNames s e).trans (ih _)

theorem forward_work {s : ServerState} {id : Nat} {conn conn' : Connection}
    (hconn : s.connections id = some conn) (hstage : conn'.stage = conn.stage)
    (todo : FssClient → FssClient × List Effect) :
    Forward s (s.work id conn' todo).1 :=
  (forward_setConnection hconn (by exact hstage)).trans
    (forward_performAll id conn'.client.clientNames _ _)

/-- A registered client is past its registration, and registered once. -/
structure Distinct (s : ServerState) : Prop where
  nodup : s.registry.clients.Nodup
  stage : ∀ id ∈ s.registry.clients, ∃ conn, s.connections id = some conn ∧
    (conn.stage = .running ∨ conn.stage = .dropped)

theorem Distinct.forward {s s' : ServerState} (h : Distinct s)
    (hforward : Forward s s') : Distinct s' where
  nodup := hforward.clients.nodup h.nodup
  stage id hid := by
    obtain ⟨conn, hconn, hstage⟩ := h.stage id (hforward.clients.subset hid)
    obtain ⟨conn', hconn', hsame⟩ := hforward.stage hconn
    exact ⟨conn', hconn', by rwa [hsame]⟩

/-- A client that is in the middle of its registration is not registered. -/
theorem Distinct.not_mem {s : ServerState} (h : Distinct s) {id : Nat}
    {conn : Connection} (hconn : s.connections id = some conn)
    (hstage : conn.stage ≠ .running ∧ conn.stage ≠ .dropped) :
    id ∉ s.registry.clients := by
  intro hid
  obtain ⟨found, hfound, hpast⟩ := h.stage id hid
  rw [hconn] at hfound
  cases hfound
  exact hpast.elim hstage.1 hstage.2

theorem Distinct.setConnection {s : ServerState} (h : Distinct s) {id : Nat}
    {conn : Connection}
    (hstage : id ∈ s.registry.clients →
      conn.stage = .running ∨ conn.stage = .dropped) :
    Distinct (s.setConnection id conn) where
  nodup := h.nodup
  stage other hother := by
    by_cases hid : other = id
    · subst hid
      exact ⟨conn, ServerState.connections_setConnection .., hstage hother⟩
    · obtain ⟨found, hfound, hpast⟩ := h.stage other hother
      exact ⟨found, (s.connections_setConnection_of_ne hid conn).trans hfound,
        hpast⟩

theorem Distinct.drop {s : ServerState} (h : Distinct s) (ids : List Nat) :
    Distinct (ids.foldl ServerState.drop s) := by
  induction ids generalizing s with
  | nil => exact h
  | cons id rest ih =>
      apply ih
      unfold ServerState.drop
      split
      · exact h
      · exact h.setConnection fun _ => Or.inr rfl

theorem Distinct.mainLoop {s next : ServerState} (h : Distinct s) {id : Nat}
    {out : List Output} {todo : FssClient → FssClient × List Effect}
    (hstep : s.mainLoop id todo = some (next, out)) : Distinct next := by
  obtain ⟨conn, hconn, _, hwork⟩ := ServerState.of_mainLoop hstep
  have hnext := h.forward (forward_work hconn rfl todo)
  rwa [hwork] at hnext

theorem Distinct.step {s next : ServerState} (h : Distinct s)
    {e : ServerEvent} {out : List Output}
    (hstep : ServerState.step s e = some (next, out)) : Distinct next := by
  cases e with
  | accept id clientNames =>
      obtain ⟨hnone, rfl, _⟩ := ServerState.of_step_accept hstep
      apply h.setConnection
      intro hid
      obtain ⟨conn, hconn, _⟩ := h.stage id hid
      rw [hnone] at hconn
      cases hconn
  | push id msg =>
      obtain ⟨messages, client, hconn, rfl, _⟩ :=
        ServerState.of_step_push hstep
      apply h.setConnection
      exact fun hid => absurd hid (h.not_mem hconn (by simp))
  | setHandler id =>
      obtain ⟨messages, client, hconn, rfl, _⟩ :=
        ServerState.of_step_setHandler hstep
      apply h.setConnection
      exact fun hid => absurd hid (h.not_mem hconn (by simp))
  | drain id env =>
      obtain ⟨msg, messages, client, hconn, hwork⟩ :=
        ServerState.of_step_drain hstep
      have hforward := @forward_work s id _ ⟨.constructing, messages, client⟩
        hconn rfl fun c => c.processMessage env msg
      rw [hwork] at hforward
      exact h.forward hforward
  | receive id env msg =>
      obtain ⟨conn, hconn, hwork⟩ := ServerState.of_step_receive hstep
      have hforward := forward_work hconn rfl fun c => c.processMessage env msg
      rw [hwork] at hforward
      exact h.forward hforward
  | clientConnected id =>
      obtain ⟨client, hconn, rfl, _⟩ :=
        ServerState.of_step_clientConnected hstep
      have hnew := h.not_mem hconn (by simp)
      have hset : Distinct (s.setConnection id ⟨.running, [], client⟩) :=
        h.setConnection fun _ => Or.inl rfl
      refine ⟨?_, fun other hother => ?_⟩
      · apply List.nodup_append.mpr
        refine ⟨h.nodup, by simp, fun a ha b hb => ?_⟩
        rw [List.mem_singleton.mp hb]
        exact fun hab => hnew (hab ▸ ha)
      · rcases List.mem_append.mp hother with hold | hid
        · exact hset.stage other hold
        · cases List.mem_singleton.mp hid
          exact ⟨_, ServerState.connections_setConnection .., Or.inl rfl⟩
  | cleanupRemovableClients =>
      cases hstep
      exact ⟨(h.drop _).nodup, (h.drop _).stage⟩
  | sendRttRequest id env | sendCommand id env | sendSmmSettings id env
  | sendServersList id env =>
      exact h.mainLoop hstep

theorem distinct_of_run {s : ServerState} {events : List ServerEvent}
    {past : List Output}
    (hrun : run ServerState.step .start events = some (s, past)) :
    Distinct s := by
  have hstart : Distinct .start :=
    ⟨List.nodup_nil, fun _ hid => absurd hid List.not_mem_nil⟩
  exact run_keeps_always Distinct hrun hstart fun h hstep => h.step hstep

/-! Who is sent what. -/

theorem connections_sendTo_of_ne (s : ServerState) {id other : Nat}
    (h : other ≠ id) (msg : FssMessage) :
    (s.sendTo id msg).1.connections other = s.connections other := by
  unfold ServerState.sendTo
  split
  · rfl
  · exact s.connections_setConnection_of_ne h _

/-- The message one client is sent gets the next id of its connection. -/
def numbered (s : ServerState) (id : Nat) (msg : FssMessage) :
    List FssMessage :=
  match s.connections id with
  | none => []
  | some conn => [msg.setId (conn.client.lastMsgId + 1)]

theorem Recipient.numbered {s : ServerState} {id other : Nat}
    (h : Recipient s id other) (msg : FssMessage) :
    ∃ k, numbered s other msg = [msg.setId k] := by
  have haircraft := h.2.1
  unfold ServerState.isAircraft at haircraft
  unfold Server.numbered
  cases hconn : s.connections other with
  | none =>
      rw [hconn] at haircraft
      cases haircraft
  | some conn => exact ⟨conn.client.lastMsgId + 1, rfl⟩

theorem copies_sendTo (s : ServerState) (id other : Nat) (msg : FssMessage) :
    copies other (s.sendTo id msg).2 =
      if other = id then numbered s id msg else [] := by
  unfold ServerState.sendTo numbered
  by_cases hother : other = id
  · subst hother
    cases s.connections other <;>
      simp [copies, Effect.sent?, FssClient.sendMsg]
  · cases s.connections id <;> simp [copies, hother, Ne.symm hother]

/-- A scan of distinct clients sends each aircraft among them, but for one,
one copy. -/
theorem copies_sendMsg {ids : List Nat} (hnodup : ids.Nodup)
    (s : ServerState) (msg : FssMessage) (except other : Nat) :
    copies other (ServerState.sendMsg msg except ids s).2 =
      if other ∈ ids ∧ s.isAircraft other = true ∧ other ≠ except then
        numbered s other msg
      else [] := by
  induction ids generalizing s other with
  | nil => simp [ServerState.sendMsg, copies]
  | cons id rest ih =>
      obtain ⟨hid, hrest⟩ := List.nodup_cons.mp hnodup
      have hothers : other ≠ id →
          copies other (ServerState.sendMsg msg except rest
            (s.sendTo id msg).1).2 =
          copies other (ServerState.sendMsg msg except rest s).2 := by
        intro hother
        rw [ih hrest, ih hrest, ServerState.isAircraft, numbered,
          connections_sendTo_of_ne s hother, ← ServerState.isAircraft,
          ← numbered]
      have hself : ∀ s', copies id
          (ServerState.sendMsg msg except rest s').2 = [] := by
        intro s'
        rw [ih hrest]
        exact if_neg fun h => hid h.1
      unfold ServerState.sendMsg
      by_cases hother : other = id
      · subst hother
        split
        · next haircraft =>
            simp only [copies_append, copies_sendTo, hself]
            simp [haircraft]
        · next hskipped =>
            rw [hself, if_neg fun h => hskipped h.2]
      · simp only [List.mem_cons, hother, false_or]
        rw [← ih hrest]
        split
        · simp only [copies_append, copies_sendTo, hother, ↓reduceIte,
            List.nil_append]
          exact hothers hother
        · rfl

/-- A report of an identified client is stored, if the client is an aircraft,
and relayed. -/
theorem processMessage_report {c : FssClient} {m : FssMessage}
    (hidentified : c.identified = true) (htype : m.type = .positionReport)
    (env : Env) :
    c.processMessage env (some m) =
      (c, (if c.aircraft then
        [.assetAddPosition c.name m.getLatitude m.getLongitude
          m.getAltitude.toUInt16]
        else []) ++ [.relay m]) := by
  have hopen : m.type ≠ .closed := by
    rw [htype]
    decide
  rw [FssClient.processMessage, if_neg hopen, if_pos hidentified,
    FssClient.processIdentified, htype]

/-- A scan does not depend on what becomes of the sender's connection. -/
theorem copies_scan {s : ServerState} (hnodup : s.registry.clients.Nodup)
    (id : Nat) (conn : Connection) (m : FssMessage) (other : Nat) :
    copies other
        (ServerState.sendMsg m id s.registry.clients (s.setConnection id conn)).2 =
      if Recipient s id other then numbered s other m else [] := by
  rw [copies_sendMsg hnodup]
  by_cases hother : other = id
  · rw [if_neg fun h => h.2.2 hother, if_neg fun h => h.2.2 hother]
  · rw [ServerState.isAircraft, numbered,
      s.connections_setConnection_of_ne hother, ← ServerState.isAircraft,
      ← numbered]
    rfl

/-- Storing a report sends nothing, so the copies are those of the scan. -/
theorem copies_work {s next : ServerState} {id : Nat} {env : Env}
    {conn : Connection} {m : FssMessage} {outs : List Output}
    (hnodup : s.registry.clients.Nodup)
    (hidentified : conn.client.identified = true)
    (htype : m.type = .positionReport)
    (hwork : (s.work id conn fun c => c.processMessage env (some m)) =
      (next, outs)) (other : Nat) :
    copies other outs =
      if Recipient s id other then numbered s other m else [] := by
  rw [← copies_scan hnodup id conn m other]
  rw [ServerState.work, processMessage_report hidentified htype] at hwork
  change ServerState.performAll id conn.client.clientNames _
    (s.setConnection id conn) = _ at hwork
  have houts : outs = _ := (congrArg Prod.snd hwork).symm
  rw [houts]
  split <;> simp [ServerState.performAll, ServerState.perform, copies,
    Effect.sent?] <;> rfl

/-- A step in which the client of a connection handles a message: one that the
receive loop hands it, or the first of those that were queued before the client
was there. -/
inductive Handles (s : ServerState) (id : Nat) (msg : Option FssMessage) :
    ServerEvent → Prop where
  | receive (env : Env) : Handles s id msg (.receive id env msg)
  | drain (env : Env) {messages : List (Option FssMessage)}
      {client : FssClient} (first : s.connections id =
        some ⟨.constructing, msg :: messages, client⟩) :
      Handles s id msg (.drain id env)

theorem Handles.work {s next : ServerState} {id : Nat}
    {msg : Option FssMessage} {e : ServerEvent} {conn : Connection}
    {outs : List Output} (h : Handles s id msg e)
    (hconn : s.connections id = some conn)
    (hstep : ServerState.step s e = some (next, outs)) :
    ∃ env conn', conn'.client = conn.client ∧
      (s.work id conn' fun c => c.processMessage env msg) = (next, outs) := by
  cases h with
  | receive env =>
      obtain ⟨conn', hconn', hwork⟩ := ServerState.of_step_receive hstep
      rw [hconn] at hconn'
      cases hconn'
      exact ⟨env, conn, rfl, hwork⟩
  | @drain env messages client first =>
      obtain ⟨msg', messages', client', hconn', hwork⟩ :=
        ServerState.of_step_drain hstep
      rw [first] at hconn hconn'
      cases hconn
      cases hconn'
      exact ⟨env, ⟨.constructing, messages, client⟩, rfl, hwork⟩

/-! What a recipient decodes. -/

section Report

variable [Target] {r : PositionReport} {lat lng : ℚ}

/-- What a recipient makes of what the server made of a report. -/
theorem decode_relayed (hfits : (fssMessagePositionReport r).trueLength ≤ 65535)
    (id : UInt64) :
    decode ((fssMessagePositionReport r.received).setId id).onWire =
      .ok (some ⟨id, .positionReport, .positionReport r.received⟩) := by
  rw [decode_report (trueLength_received hfits ▸ hfits),
    received_received hfits]

theorem intact_iff (hlat : r.latitude = .finite lat)
    (hlng : r.longitude = .finite lng)
    (hfits : (fssMessagePositionReport r).trueLength ≤ 65535) (id : UInt64) :
    Intact r lat lng ⟨id, .positionReport, .positionReport r.received⟩
      ↔ r.tslc = 0 ∧ Sendable lat ∧ Sendable lng := by
  rw [PositionReport.received, cut16_of_lt (length_callsign_lt hfits), hlat,
    hlng]
  constructor
  · rintro ⟨_, r', hbody, hlat', hlng', hsame⟩
    cases hbody
    have htslc := congrArg PositionReport.tslc hsame
    exact ⟨htslc.symm, (near_iff lat).mp hlat', (near_iff lng).mp hlng'⟩
  · rintro ⟨htslc, hlat', hlng'⟩
    refine ⟨rfl, _, rfl, (near_iff lat).mpr hlat', (near_iff lng).mpr hlng', ?_⟩
    rw [← htslc]

end Report

/-- Every report that an identified client sends, in every state the server
can reach, whether it comes from the receive loop or had been queued before the
client was there: those it is for get one copy each and nobody else gets one; a copy
says what the report said exactly if the report has no time since last contact
and its coordinates fit their fields. -/
theorem relayed_iff [Target] {events : List ServerEvent}
    {s next : ServerState} {past outs : List Output} {id : Nat}
    {conn : Connection} {r : PositionReport} {lat lng : ℚ} {reportId : UInt64}
    {msg : Option FssMessage} {e : ServerEvent}
    (hrun : run ServerState.step .start events = some (s, past))
    (hconn : s.connections id = some conn)
    (hidentified : conn.client.identified = true)
    (hlat : r.latitude = .finite lat) (hlng : r.longitude = .finite lng)
    (hfits : (fssMessagePositionReport r).trueLength ≤ 65535)
    (hreceived :
      decode ((fssMessagePositionReport r).setId reportId).onWire = .ok msg)
    (hhandles : Handles s id msg e)
    (hstep : ServerState.step s e = some (next, outs)) :
    Relayed s id r lat lng outs ↔
      ((∃ other, Recipient s id other) →
        r.tslc = 0 ∧ Sendable lat ∧ Sendable lng) := by
  rw [decode_report hfits] at hreceived
  cases hreceived
  obtain ⟨env, conn', hclient, hwork⟩ := hhandles.work hconn hstep
  have hcopies := copies_work (distinct_of_run hrun).nodup
    (hclient ▸ hidentified) rfl hwork
  constructor
  · rintro hrelayed ⟨other, hother⟩
    obtain ⟨msg, m, hmsg, hm, hintact⟩ := (hrelayed other).1 hother
    obtain ⟨k, hk⟩ := hother.numbered
      ⟨reportId, .positionReport, .positionReport r.received⟩
    rw [hcopies, if_pos hother, hk] at hmsg
    cases hmsg
    have hboth := (decode_relayed hfits k).symm.trans hm
    cases hboth
    exact (intact_iff hlat hlng hfits k).mp hintact
  · intro hkept other
    refine ⟨fun hother => ?_, fun hnot => by rw [hcopies, if_neg hnot]⟩
    obtain ⟨k, hk⟩ := hother.numbered
      ⟨reportId, .positionReport, .positionReport r.received⟩
    refine ⟨_, _, ?_, decode_relayed hfits k,
      (intact_iff hlat hlng hfits k).mpr (hkept ⟨other, hother⟩)⟩
    rw [hcopies, if_pos hother, hk]
    rfl

/-- Two aircraft without certificate names identify themselves. -/
def twoAircraft : List ServerEvent :=
  [.accept 0 [], .setHandler 0, .clientConnected 0,
    .receive 0 ⟨emptyDb, 0⟩ (some (fssMessageIdentity [65])),
    .accept 1 [], .setHandler 1, .clientConnected 1,
    .receive 1 ⟨emptyDb, 0⟩ (some (fssMessageIdentity [66]))]

/-- A report from the crossing of the equator and the prime meridian. -/
def originReport (tslc : UInt8) : PositionReport :=
  { latitude := .finite 0, longitude := .finite 0, tslc := tslc }

/-- The first of them reports on the equator. -/
theorem relayed_iff_twoAircraft :
    ∃ s next past outs,
      run ServerState.step .start twoAircraft = some (s, past) ∧
      ServerState.step s (.receive 0 ⟨emptyDb, 0⟩ (some ⟨9, .positionReport,
        .positionReport (@PositionReport.received Target.indefinite
          (originReport 0))⟩)) = some (next, outs) ∧
      @Relayed Target.indefinite s 0 (originReport 0) 0 0 outs :=
  ⟨_, _, _, _, rfl, rfl, (@relayed_iff Target.indefinite twoAircraft _ _ _ _ 0
    _ (originReport 0) 0 0 9 _ _ rfl rfl rfl rfl rfl (by decide)
    (@decode_report Target.indefinite _ (by decide) 9) (.receive ⟨emptyDb, 0⟩) rfl).mpr
      fun _ => ⟨rfl, by decide +kernel, by decide +kernel⟩⟩

/-- The other aircraft decodes a time since last contact of 0 instead of 5. -/
theorem not_relayed_tslc :
    ∃ s next past outs,
      run ServerState.step .start twoAircraft = some (s, past) ∧
      ServerState.step s (.receive 0 ⟨emptyDb, 0⟩ (some ⟨9, .positionReport,
        .positionReport (@PositionReport.received Target.indefinite
          (originReport 5))⟩)) = some (next, outs) ∧
      ¬ @Relayed Target.indefinite s 0 (originReport 5) 0 0 outs := by
  refine ⟨_, _, _, _, rfl, rfl, fun hrelayed => ?_⟩
  obtain ⟨msg, m, hmsg, hm, hintact⟩ := (hrelayed 1).1 (by decide)
  cases hmsg
  have hboth := (@decode_relayed Target.indefinite (originReport 5)
    (by decide) 2).symm.trans hm
  cases hboth
  have hkept := (@intact_iff Target.indefinite (originReport 5) 0 0 rfl rfl
    (by decide) 2).mp hintact
  exact absurd hkept.1 (by decide)

end FlightSafety.Server
