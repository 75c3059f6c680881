/-
Who is an aircraft.  The status is earned by a name that the connection's
certificate permits, and nothing changes an identified client any more; so
positions are stored and reports and server lists are handed on only under
such names.
-/
import FlightSafety.Server.Authenticity
import FlightSafety.Server.Confidentiality
import FlightSafety.Server.Relay

namespace FlightSafety.Server

open Octets Machine

/-- Any name will do if the certificate has none. -/
def Listed (clientNames : List Bytes) (name : Bytes) : Prop :=
  clientNames = [] ∨ name ∈ clientNames

/-- An aircraft has identified itself by a listed name. -/
def FssClient.Earned (c : FssClient) : Prop :=
  c.aircraft = true → c.identified = true ∧ Listed c.clientNames c.name

/-- A position is written for a listed name only. -/
def PositionListed (clientNames : List Bytes) : Effect → Prop
  | .assetAddPosition name _ _ _ => Listed clientNames name
  | _ => True

/-- A message that is meant for aircraft only. -/
def ForAircraft (msg : FssMessage) : Prop :=
  msg.type = .positionReport ∨ msg.type = .serverList

instance (msg : FssMessage) : Decidable (ForAircraft msg) :=
  inferInstanceAs (Decidable (_ ∨ _))

/-- The client of a connection is an aircraft identified by a listed name. -/
def ReachesAircraft (s : ServerState) (id : Nat) : Prop :=
  ∃ conn, s.connections id = some conn ∧ conn.client.aircraft = true ∧
    conn.client.identified = true ∧
    Listed conn.client.clientNames conn.client.name

/-! One client. -/

section Client

variable {c c' : FssClient} {clientNames : List Bytes}

theorem FssClient.SameIdentity.earned (h : c.SameIdentity c')
    (hearned : c.Earned) : c'.Earned := by
  intro haircraft
  rw [h.aircraft] at haircraft
  rw [h.identified, h.clientNames, h.name]
  exact hearned haircraft

theorem earned_start (clientNames : List Bytes) :
    (FssClient.start clientNames).Earned := by
  intro haircraft
  cases haircraft

/-- An effect that only an aircraft causes: the write of a position, under its
own name, and a message meant for aircraft, which goes to the client itself. -/
def Effect.OfAircraft (c c' : FssClient) : Effect → Prop
  | .assetAddPosition name _ _ _ => c.aircraft = true ∧ name = c.name
  | .send msg | .sendLookup _ msg => ForAircraft msg → c'.aircraft = true
  | _ => True

theorem earned_processMessage (hearned : c.Earned) (env : Env)
    (msg : Option FssMessage) :
    (c.processMessage env msg).1.Earned ∧
      (c.processMessage env msg).1.clientNames = c.clientNames := by
  have hcases := processMessage_cases env c msg
  generalize c.processMessage env msg = result at hcases
  cases hcases with
  | kept same writes lookups => exact ⟨same.earned hearned, same.clientNames⟩
  | accepted unidentified listed same writes lookups =>
      exact ⟨same.earned fun _ => ⟨rfl, listed⟩, same.clientNames⟩
  | refused unidentified unlisted =>
      refine ⟨fun haircraft => ?_, rfl⟩
      have hidentified := (hearned haircraft).1
      rw [unidentified] at hidentified
      cases hidentified
  | nonAircraft unidentified received type =>
      refine ⟨fun haircraft => ?_, rfl⟩
      cases haircraft

/-- Only an unidentified client is changed by a message. -/
theorem sameIdentity_processMessage (hidentified : c.identified = true)
    (env : Env) (msg : Option FssMessage) :
    c.SameIdentity (c.processMessage env msg).1 := by
  have hcases := processMessage_cases env c msg
  generalize c.processMessage env msg = result at hcases
  cases hcases with
  | kept same writes lookups => exact same
  | accepted unidentified listed same writes lookups =>
      rw [unidentified] at hidentified
      cases hidentified
  | refused unidentified unlisted =>
      rw [unidentified] at hidentified
      cases hidentified
  | nonAircraft unidentified received type =>
      rw [unidentified] at hidentified
      cases hidentified

theorem sameIdentity_step (hidentified : c.identified = true) {e : ClientEvent}
    {effects : List Effect} (hstep : FssClient.step c e = some (c', effects)) :
    c.SameIdentity c' := by
  cases e with
  | message env msg =>
      have hsame := sameIdentity_processMessage hidentified env msg
      rwa [Option.some.inj hstep] at hsame
  | rttRequest env =>
      have hsame := (sendRttRequest_spec env c).1
      rwa [Option.some.inj hstep] at hsame
  | command env =>
      have hsame := (sendCommand_spec env c).1
      rwa [Option.some.inj hstep] at hsame
  | smmSettings env =>
      have hsame := (sendSmmSettings_spec env c).1
      rwa [Option.some.inj hstep] at hsame

/-- Nothing that can happen to an identified client changes its identity. -/
theorem sameIdentity_run (hidentified : c.identified = true)
    {events : List ClientEvent} {final : FssClient} {effects : List Effect}
    (hrun : run FssClient.step c events = some (final, effects)) :
    c.SameIdentity final := by
  induction events generalizing c effects with
  | nil =>
      cases hrun
      exact .refl _
  | cons e events ih =>
      obtain ⟨next, out, later, hstep, hlater, rfl⟩ := run_cons_eq_some.mp hrun
      have hsame := sameIdentity_step hidentified hstep
      exact hsame.trans (ih (hsame.identified.trans hidentified) hlater)

theorem not_forAircraft {msg : FssMessage} (type : FssMessageType)
    (htype : msg.type = type)
    (hother : type ≠ .positionReport ∧ type ≠ .serverList) :
    ¬ ForAircraft msg := by
  subst htype
  exact not_or.mpr hother

theorem ofAircraft_sendCommand (env : Env) (d d' : FssClient) :
    ∀ e ∈ (c.sendCommand env).2, e.OfAircraft d d' := by
  unfold FssClient.sendCommand
  split
  · simp
  · next ac _ =>
      split
      · intro e he
        cases List.mem_singleton.mp he
        exact fun hfor => absurd hfor
          (not_forAircraft .command (type_commandMsg ac) (by decide))
      · simp

theorem ofAircraft_sendSmmSettings (env : Env) (d d' : FssClient) :
    ∀ e ∈ (c.sendSmmSettings env).2, e.OfAircraft d d' := by
  unfold FssClient.sendSmmSettings
  split
  · simp
  · intro e he
    cases List.mem_singleton.mp he
    exact fun hfor => absurd hfor
      (not_forAircraft .smmSettings rfl (by decide))

/-- An identified client's report is written if the client is an aircraft. -/
theorem ofAircraft_processIdentified (env : Env) (m : FssMessage) :
    ∀ e ∈ (c.processIdentified env m).2,
      e.OfAircraft c (c.processIdentified env m).1 := by
  unfold FssClient.processIdentified
  cases m.type with
  | rttRequest =>
      intro e he
      cases List.mem_singleton.mp he
      exact fun hfor => absurd hfor
        (not_forAircraft .rttResponse rfl (by decide))
  | rttResponse =>
      cases m.body with
      | rttResponse requestId =>
          dsimp only
          split <;> simp [Effect.OfAircraft]
      | _ => simp
  | positionReport =>
      cases haircraft : c.aircraft <;> simp [Effect.OfAircraft, haircraft]
  | systemStatus => cases m.body <;> simp [Effect.OfAircraft]
  | searchStatus => cases m.body <;> simp [Effect.OfAircraft]
  | _ => simp

theorem ofAircraft_processIdentity (env : Env) (name : Bytes) :
    ∀ e ∈ (c.processIdentity env name).2,
      e.OfAircraft c (c.processIdentity env name).1 := by
  by_cases hlisted : c.clientNames = [] ∨ name ∈ c.clientNames
  · have hcommand := sendCommand_spec env
      { c with name := name, identified := true, aircraft := true }
    have hsettings := sendSmmSettings_spec env (FssClient.sendCommand env
      { c with name := name, identified := true, aircraft := true }).1
    simp only [FssClient.processIdentity, hlisted, ↓reduceIte]
    refine List.forall_mem_append.mpr ⟨List.forall_mem_append.mpr
      ⟨ofAircraft_sendCommand env _ _, ofAircraft_sendSmmSettings env _ _⟩, ?_⟩
    intro e he
    cases List.mem_singleton.mp he
    exact fun _ => hsettings.1.aircraft.trans hcommand.1.aircraft
  · simp only [FssClient.processIdentity, hlisted, ↓reduceIte]
    intro e he
    cases List.mem_singleton.mp he
    trivial

theorem ofAircraft_processMessage (env : Env) (msg : Option FssMessage) :
    ∀ e ∈ (c.processMessage env msg).2,
      e.OfAircraft c (c.processMessage env msg).1 := by
  cases msg with
  | none => simp [FssClient.processMessage]
  | some m =>
      unfold FssClient.processMessage
      by_cases hclosed : m.type = .closed
      · simp [hclosed, Effect.OfAircraft]
      · simp only [hclosed, ↓reduceIte]
        cases c.identified with
        | true => exact ofAircraft_processIdentified env m
        | false =>
            simp only [Bool.false_eq_true, ↓reduceIte]
            unfold FssClient.processUnidentified
            cases m.type with
            | identity =>
                cases m.body with
                | identity name => exact ofAircraft_processIdentity env name
                | _ => simp
            | identityNonAircraft => simp
            | _ =>
                intro e he
                cases List.mem_singleton.mp he
                exact fun hfor => absurd hfor
                  (not_forAircraft .identityRequired rfl (by decide))

/-- A client of a certificate whose status was earned, and that has written
positions under listed names only. -/
structure StatusKept (clientNames : List Bytes) (c : FssClient)
    (past : List Effect) : Prop where
  names : c.clientNames = clientNames
  earned : c.Earned
  writes : ∀ e ∈ past, PositionListed clientNames e

theorem positionListed_of_ofAircraft (hearned : c.Earned) {e : Effect}
    (h : e.OfAircraft c c') : PositionListed c.clientNames e := by
  cases e with
  | assetAddPosition name latitude longitude altitude =>
      obtain ⟨haircraft, rfl⟩ := h
      exact (hearned haircraft).2
  | _ => trivial

/-- What the main loop does to a client sends messages. -/
theorem StatusKept.quiet {past effects : List Effect}
    (h : StatusKept clientNames c past) (hsame : c.SameIdentity c')
    (hquiet : ∀ e ∈ effects, PositionListed clientNames e) :
    StatusKept clientNames c' (past ++ effects) where
  names := hsame.clientNames.trans h.names
  earned := hsame.earned h.earned
  writes := List.forall_mem_append.mpr ⟨h.writes, hquiet⟩

theorem StatusKept.step {past effects : List Effect} {e : ClientEvent}
    (h : StatusKept clientNames c past)
    (hstep : FssClient.step c e = some (c', effects)) :
    StatusKept clientNames c' (past ++ effects) := by
  cases e with
  | message env msg =>
      obtain ⟨hearned, hnames⟩ := earned_processMessage h.earned env msg
      have hwrites := ofAircraft_processMessage (c := c) env msg
      rw [Option.some.inj hstep] at hearned hnames hwrites
      refine ⟨hnames.trans h.names, hearned,
        List.forall_mem_append.mpr ⟨h.writes, fun e he => ?_⟩⟩
      rw [← h.names]
      exact positionListed_of_ofAircraft h.earned (hwrites e he)
  | rttRequest env =>
      have hspec := sendRttRequest_spec env c
      rw [Option.some.inj hstep] at hspec
      refine h.quiet hspec.1 fun e he => ?_
      obtain ⟨msg, rfl⟩ := hspec.2 e he
      trivial
  | command env =>
      have hspec := sendCommand_spec env c
      rw [Option.some.inj hstep] at hspec
      refine h.quiet hspec.1 fun e he => ?_
      obtain ⟨msg, rfl⟩ := hspec.2 e he
      trivial
  | smmSettings env =>
      have hspec := sendSmmSettings_spec env c
      rw [Option.some.inj hstep] at hspec
      refine h.quiet hspec.1 fun e he => ?_
      obtain ⟨msg, rfl⟩ := hspec.2 e he
      trivial

theorem statusKept_run {events : List ClientEvent} {effects : List Effect}
    (hrun : run FssClient.step (.start clientNames) events =
      some (c, effects)) : StatusKept clientNames c ([] ++ effects) :=
  run_invariant_always (StatusKept clientNames) hrun
    ⟨rfl, earned_start clientNames, by simp⟩ StatusKept.step

end Client

/-! The clients of a server. -/

/-- Every client's status was earned. -/
def AllEarned (s : ServerState) : Prop :=
  ∀ id conn, s.connections id = some conn → conn.client.Earned

section Clients

variable {s s' : ServerState} {id : Nat} {conn : Connection}

theorem AllEarned.unchanged (h : AllEarned s) (hsame : Unchanged s s') :
    AllEarned s' := by
  intro id conn hconn
  obtain ⟨conn', hconn', hidentity⟩ := hsame.identity hconn
  exact hidentity.earned (h id conn' hconn')

theorem AllEarned.setConnection (h : AllEarned s)
    (hclient : conn.client.Earned) : AllEarned (s.setConnection id conn) := by
  intro other found hfound
  rcases ServerState.connections_setConnection_eq_some hfound with
    ⟨_, rfl⟩ | ⟨_, hold⟩
  · exact hclient
  · exact h other found hold

theorem AllEarned.work (h : AllEarned s) (id : Nat)
    (todo : FssClient → FssClient × List Effect)
    (hclient : (todo conn.client).1.Earned) :
    AllEarned (s.work id conn todo).1 := by
  have hset : AllEarned
      (s.setConnection id { conn with client := (todo conn.client).1 }) :=
    h.setConnection hclient
  exact hset.unchanged (performAll_spec id conn.client.clientNames _ _).1

theorem isAircraft_of_unchanged (hsame : Unchanged s s')
    (h : s'.isAircraft id = true) : s.isAircraft id = true := by
  unfold ServerState.isAircraft at h ⊢
  split at h
  · cases h
  · next conn hconn =>
      obtain ⟨conn', hconn', hidentity⟩ := hsame.identity hconn
      rw [hconn']
      exact hidentity.aircraft.symm.trans h

/-- An aircraft is one after the effects of some other client. -/
theorem isAircraft_forward (hsame : Unchanged s s') (hforward : Forward s s')
    (h : s.isAircraft id = true) : s'.isAircraft id = true := by
  unfold ServerState.isAircraft at h ⊢
  split at h
  · cases h
  · next conn hconn =>
      obtain ⟨conn', hconn', _⟩ := hforward.stage hconn
      obtain ⟨before, hbefore, hidentity⟩ := hsame.identity hconn'
      rw [hconn] at hbefore
      cases hbefore
      rw [hconn']
      exact hidentity.aircraft.trans h

/-- `server_clients::sendMsg` sends to aircraft only. -/
theorem isAircraft_sendMsg (msg : FssMessage) (except : Nat) (ids : List Nat)
    (s : ServerState) : ∀ o ∈ (ServerState.sendMsg msg except ids s).2,
      s.isAircraft o.id = true ∧ ∃ sent, o.effect = .send sent := by
  induction ids generalizing s with
  | nil => simp [ServerState.sendMsg]
  | cons id rest ih =>
      unfold ServerState.sendMsg
      split
      · next hrecipient =>
          refine List.forall_mem_append.mpr ⟨fun o ho => ?_, fun o ho => ?_⟩
          · unfold ServerState.sendTo at ho
            split at ho
            · cases ho
            · cases List.mem_singleton.mp ho
              exact ⟨hrecipient.1, _, rfl⟩
          · obtain ⟨haircraft, hsent⟩ := ih _ o ho
            exact ⟨isAircraft_of_unchanged (sendTo_spec s id msg).1 haircraft,
              hsent⟩
      · exact ih s

/-- What comes of the effects of a client: outputs of its own, and messages to
clients that are aircraft in the end. -/
theorem outputs_performAll (id : Nat) (clientNames : List Bytes)
    (effects : List Effect) (s : ServerState) :
    ∀ o ∈ (ServerState.performAll id clientNames effects s).2,
      (∃ e ∈ effects, o = ⟨id, clientNames, e⟩) ∨
        ((ServerState.performAll id clientNames effects s).1.isAircraft o.id =
          true ∧ ∃ sent, o.effect = .send sent) := by
  induction effects generalizing s with
  | nil => simp [ServerState.performAll]
  | cons e rest ih =>
      have hunchanged := performAll_spec id clientNames rest
        (s.perform id clientNames e).1
      have hforward := forward_performAll id clientNames rest
        (s.perform id clientNames e).1
      refine List.forall_mem_append.mpr ⟨fun o ho => ?_, fun o ho => ?_⟩
      · have hown : o ∈ [⟨id, clientNames, e⟩] → ∃ e' ∈ e :: rest,
            o = ⟨id, clientNames, e'⟩ :=
          fun ho => ⟨e, List.mem_cons_self, List.mem_singleton.mp ho⟩
        cases e with
        | relay msg =>
            obtain ⟨haircraft, hsent⟩ :=
              isAircraft_sendMsg msg id s.registry.clients s o ho
            have hthen := isAircraft_forward
              (sendMsg_spec msg id s.registry.clients s).1
              (forward_sendMsg msg id s.registry.clients s) haircraft
            exact Or.inr
              ⟨isAircraft_forward hunchanged.1 hforward hthen, hsent⟩
        | _ => exact Or.inl (hown ho)
      · rcases ih _ o ho with ⟨e', he', rfl⟩ | hsent
        · exact Or.inl ⟨e', List.mem_cons_of_mem e he', rfl⟩
        · exact Or.inr hsent

/-- A position is written for a listed name, and a message for aircraft goes
to an aircraft. -/
def Sanctioned (next : ServerState) (o : Output) : Prop :=
  PositionListed o.clientNames o.effect ∧
    ∀ msg, o.effect.sent? = some msg → ForAircraft msg →
      ReachesAircraft next o.id

theorem reachesAircraft_of_isAircraft (h : AllEarned s)
    (haircraft : s.isAircraft id = true) : ReachesAircraft s id := by
  unfold ServerState.isAircraft at haircraft
  split at haircraft
  · cases haircraft
  · next conn hconn =>
      exact ⟨conn, hconn, haircraft, h id conn hconn haircraft⟩

/-- The work of a client that causes what only an aircraft may cause if it is
one. -/
theorem sanctioned_work (h : AllEarned s) (hconn : conn.client.Earned)
    (id : Nat) (todo : FssClient → FssClient × List Effect)
    (hclient : (todo conn.client).1.Earned)
    (heffects : ∀ e ∈ (todo conn.client).2,
      e.OfAircraft conn.client (todo conn.client).1) :
    ∀ o ∈ (s.work id conn todo).2, Sanctioned (s.work id conn todo).1 o := by
  intro o ho
  have hearned : AllEarned (s.work id conn todo).1 := h.work id todo hclient
  let s₁ := s.setConnection id { conn with client := (todo conn.client).1 }
  have hunchanged := performAll_spec id conn.client.clientNames
    (todo conn.client).2 s₁
  have hforward := forward_performAll id conn.client.clientNames
    (todo conn.client).2 s₁
  rcases outputs_performAll id conn.client.clientNames _ s₁ o ho with
    ⟨e, he, rfl⟩ | ⟨haircraft, sent, hsent⟩
  · have hof := heffects e he
    refine ⟨positionListed_of_ofAircraft hconn hof, fun msg hmsg hfor => ?_⟩
    have haircraft : (todo conn.client).1.aircraft = true := by
      cases e with
      | send m =>
          cases hmsg
          exact hof hfor
      | sendLookup name m =>
          cases hmsg
          exact hof hfor
      | _ => cases hmsg
    have hself : s₁.isAircraft id = true := by
      unfold ServerState.isAircraft
      rw [ServerState.connections_setConnection]
      exact haircraft
    exact reachesAircraft_of_isAircraft hearned
      (isAircraft_forward hunchanged.1 hforward hself)
  · refine ⟨?_, fun _ _ _ => reachesAircraft_of_isAircraft hearned haircraft⟩
    rw [hsent]
    trivial

variable {next : ServerState} {outs : List Output} {env : Env}

theorem sanctioned_processMessage (h : AllEarned s)
    (hconn : conn.client.Earned) {msg : Option FssMessage}
    (hwork : (s.work id conn fun c => c.processMessage env msg) =
      (next, outs)) : AllEarned next ∧ ∀ o ∈ outs, Sanctioned next o := by
  have hclient := (earned_processMessage hconn env msg).1
  have hearned := h.work id (fun c => c.processMessage env msg) hclient
  have hsanctioned := sanctioned_work h hconn id
    (fun c => c.processMessage env msg) hclient
    (ofAircraft_processMessage env msg)
  rw [hwork] at hearned hsanctioned
  exact ⟨hearned, hsanctioned⟩

theorem sanctioned_mainLoop (h : AllEarned s)
    {todo : FssClient → FssClient × List Effect}
    (hsame : ∀ c, FssClient.SameIdentity c (todo c).1)
    (heffects : ∀ c, ∀ e ∈ (todo c).2, e.OfAircraft c (todo c).1)
    (hstep : s.mainLoop id todo = some (next, outs)) :
    AllEarned next ∧ ∀ o ∈ outs, Sanctioned next o := by
  obtain ⟨conn, hconn, _, hwork⟩ := ServerState.of_mainLoop hstep
  have hclient : (todo conn.client).1.Earned :=
    (hsame conn.client).earned (h id conn hconn)
  have hearned := h.work id todo hclient
  have hsanctioned := sanctioned_work h (h id conn hconn) id todo hclient
    (heffects conn.client)
  rw [hwork] at hearned hsanctioned
  exact ⟨hearned, hsanctioned⟩

theorem AllEarned.step {e : ServerEvent} (h : AllEarned s)
    (hstep : ServerState.step s e = some (next, outs)) :
    AllEarned next ∧ ∀ o ∈ outs, Sanctioned next o := by
  cases e with
  | accept id clientNames =>
      obtain ⟨_, rfl, rfl⟩ := ServerState.of_step_accept hstep
      exact ⟨h.setConnection (earned_start clientNames), by simp⟩
  | push id msg =>
      obtain ⟨messages, client, hconn, rfl, rfl⟩ :=
        ServerState.of_step_push hstep
      have hclient : client.Earned := h id _ hconn
      exact ⟨h.setConnection hclient, by simp⟩
  | setHandler id =>
      obtain ⟨messages, client, hconn, rfl, rfl⟩ :=
        ServerState.of_step_setHandler hstep
      have hclient : client.Earned := h id _ hconn
      exact ⟨h.setConnection hclient, by simp⟩
  | drain id env =>
      obtain ⟨msg, messages, client, hconn, hwork⟩ :=
        ServerState.of_step_drain hstep
      have hclient : client.Earned := h id _ hconn
      exact sanctioned_processMessage h hclient hwork
  | receive id env msg =>
      obtain ⟨conn, hconn, hwork⟩ := ServerState.of_step_receive hstep
      exact sanctioned_processMessage h (h id _ hconn) hwork
  | clientConnected id =>
      obtain ⟨client, hconn, rfl, rfl⟩ :=
        ServerState.of_step_clientConnected hstep
      have hclient : client.Earned := h id _ hconn
      exact ⟨h.setConnection hclient, by simp⟩
  | cleanupRemovableClients =>
      cases hstep
      have hdropped :=
        h.unchanged (drop_unchanged s.registry.disconnected s)
      exact ⟨hdropped, by simp⟩
  | sendRttRequest id env =>
      refine sanctioned_mainLoop h (fun c => (sendRttRequest_spec env c).1) ?_
        hstep
      intro c e he
      cases List.mem_singleton.mp he
      exact fun hfor => absurd hfor (not_forAircraft .rttRequest rfl (by decide))
  | sendCommand id env =>
      exact sanctioned_mainLoop h (fun c => (sendCommand_spec env c).1)
        (fun c => ofAircraft_sendCommand env c _) hstep
  | sendSmmSettings id env =>
      exact sanctioned_mainLoop h (fun c => (sendSmmSettings_spec env c).1)
        (fun c => ofAircraft_sendSmmSettings env c _) hstep
  | sendServersList id env =>
      refine sanctioned_mainLoop h (fun c => ?_) (fun c => ?_) hstep
      · split
        · exact ⟨rfl, rfl, rfl, rfl⟩
        · exact .refl c
      · split
        · next haircraft =>
            intro e he
            cases List.mem_singleton.mp he
            exact fun _ => haircraft
        · simp

theorem allEarned_run {events : List ServerEvent} {past : List Output}
    (hrun : run ServerState.step .start events = some (s, past)) :
    AllEarned s := by
  have hstart : AllEarned .start := by
    intro id conn hconn
    cases hconn
  exact run_keeps_always AllEarned hrun hstart fun h hstep => (h.step hstep).1

end Clients

/-- Every run of a client: it is an aircraft only if it has identified itself
by a listed name, it writes positions for listed names only, and once it is
identified nothing changes its identity.  In every run of the server a position
is written for a listed name, and reports and server lists go to clients that
are aircraft by such a name. -/
theorem aircraft_earned :
    (∀ clientNames events c effects,
      run FssClient.step (.start clientNames) events = some (c, effects) →
        (c.aircraft = true → c.identified = true ∧ Listed clientNames c.name) ∧
        (∀ e ∈ effects, PositionListed clientNames e) ∧
        ∀ later final effects',
          run FssClient.step c later = some (final, effects') →
            c.identified = true → c.SameIdentity final) ∧
    ∀ events s past e next outs,
      run ServerState.step .start events = some (s, past) →
        ServerState.step s e = some (next, outs) →
          ∀ o ∈ outs, Sanctioned next o := by
  constructor
  · intro clientNames events c effects hrun
    have hkept := statusKept_run hrun
    refine ⟨fun haircraft => ?_, hkept.writes, ?_⟩
    · have hearned := hkept.earned haircraft
      rwa [hkept.names] at hearned
    · intro later final effects' hlater hidentified
      exact sameIdentity_run hidentified hlater
  · intro events s past e next outs hrun hstep
    exact ((allEarned_run hrun).step hstep).2

/-- A client of the certificate identifies itself and reports its position;
one of two aircraft reports its own, and the other is sent the report. -/
theorem aircraft_earned_reported :
    (∃ c effects,
      run FssClient.step (.start [[65]])
        [.message ⟨emptyDb, 0⟩ (some (fssMessageIdentity [65])),
          .message ⟨emptyDb, 0⟩
            (some (fssMessagePositionReport (originReport 0)))] =
          some (c, effects) ∧
      c.aircraft = true ∧ c.identified = true ∧ Listed [[65]] c.name ∧
      ∀ e ∈ effects, PositionListed [[65]] e) ∧
    ∃ s past next outs,
      run ServerState.step .start twoAircraft = some (s, past) ∧
      ServerState.step s (.receive 0 ⟨emptyDb, 0⟩
        (some (fssMessagePositionReport (originReport 0)))) =
          some (next, outs) ∧
      outs.length = 2 ∧ ∀ o ∈ outs, Sanctioned next o := by
  constructor
  · have hclient := aircraft_earned.1 [[65]]
      [.message ⟨emptyDb, 0⟩ (some (fssMessageIdentity [65])),
        .message ⟨emptyDb, 0⟩
          (some (fssMessagePositionReport (originReport 0)))] _ _ rfl
    obtain ⟨hidentified, hlisted⟩ := hclient.1 rfl
    exact ⟨_, _, rfl, rfl, hidentified, hlisted, hclient.2.1⟩
  · exact ⟨_, _, _, _, rfl, rfl, rfl, aircraft_earned.2 twoAircraft _ _
      (.receive 0 ⟨emptyDb, 0⟩
        (some (fssMessagePositionReport (originReport 0)))) _ _ rfl rfl⟩

end FlightSafety.Server
