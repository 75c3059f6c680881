/-
Whose commands and settings are sent where.  The main loop looks up whatever
name a registered client holds; a refused client is taken out of the registry,
but only if it is in there already.
-/
import FlightSafety.Server.ServerClients

namespace FlightSafety.Server

open Octets Machine

/-- What is looked up for a connection is looked up for a name of its
certificate, or for the empty name, or the certificate has no names. -/
def Confidential (o : Output) : Prop :=
  ∀ name, o.effect.lookupName = some name →
    o.clientNames = [] ∨ Permitted o.clientNames name

/-- A client whose name the main loop may look up. -/
def Acceptable (c : FssClient) : Prop :=
  c.clientNames = [] ∨ Permitted c.clientNames c.name

theorem FssClient.SameIdentity.acceptable {c c' : FssClient}
    (h : c.SameIdentity c') (hc : Acceptable c) : Acceptable c' := by
  rw [Acceptable, h.clientNames, h.name]
  exact hc

/-- No client enters the registry under a name that was refused. -/
def Admitted (s : ServerState) : ServerEvent → Prop
  | .clientConnected id =>
      ∀ conn, s.connections id = some conn → Acceptable conn.client
  | _ => True

/-! What the effects of one client do to the others. -/

/-- No client is registered that was not, and none is identified anew. -/
structure Unchanged (s s' : ServerState) : Prop where
  shuttingDown : s'.registry.shuttingDown = s.registry.shuttingDown
  clients : s'.registry.clients ⊆ s.registry.clients
  identity : ∀ {id conn'}, s'.connections id = some conn' →
    ∃ conn, s.connections id = some conn ∧
      conn.client.SameIdentity conn'.client

theorem Unchanged.refl (s : ServerState) : Unchanged s s :=
  ⟨rfl, fun _ h => h, fun {_ conn'} h => ⟨conn', h, .refl _⟩⟩

theorem Unchanged.trans {s₁ s₂ s₃ : ServerState} (h : Unchanged s₁ s₂)
    (h' : Unchanged s₂ s₃) : Unchanged s₁ s₃ where
  shuttingDown := h'.shuttingDown.trans h.shuttingDown
  clients := fun _ hid => h.clients (h'.clients hid)
  identity hconn := by
    obtain ⟨middle, hmiddle, hsame'⟩ := h'.identity hconn
    obtain ⟨first, hfirst, hsame⟩ := h.identity hmiddle
    exact ⟨first, hfirst, hsame.trans hsame'⟩

theorem unchanged_setConnection {s : ServerState} {id : Nat}
    {conn conn' : Connection} (hconn : s.connections id = some conn)
    (hsame : conn.client.SameIdentity conn'.client) :
    Unchanged s (s.setConnection id conn') where
  shuttingDown := rfl
  clients := fun _ h => h
  identity {other found} hfound := by
    rcases ServerState.connections_setConnection_eq_some hfound with
      ⟨rfl, rfl⟩ | ⟨_, hold⟩
    · exact ⟨conn, hconn, hsame⟩
    · exact ⟨found, hold, .refl _⟩

theorem sendTo_spec (s : ServerState) (id : Nat) (msg : FssMessage) :
    Unchanged s (s.sendTo id msg).1 ∧
      ∀ o ∈ (s.sendTo id msg).2, o.effect.lookupName = none := by
  unfold ServerState.sendTo
  split
  · exact ⟨.refl s, by simp⟩
  · next conn hconn =>
      refine ⟨unchanged_setConnection hconn ⟨rfl, rfl, rfl, rfl⟩, ?_⟩
      intro o ho
      cases List.mem_singleton.mp ho
      rfl

theorem sendMsg_spec (msg : FssMessage) (except : Nat) (ids : List Nat)
    (s : ServerState) :
    Unchanged s (ServerState.sendMsg msg except ids s).1 ∧
      ∀ o ∈ (ServerState.sendMsg msg except ids s).2,
        o.effect.lookupName = none := by
  induction ids generalizing s with
  | nil => exact ⟨.refl s, by simp [ServerState.sendMsg]⟩
  | cons id rest ih =>
      unfold ServerState.sendMsg
      split
      · obtain ⟨hfirst, hout⟩ := sendTo_spec s id msg
        obtain ⟨hrest, houts⟩ := ih (s.sendTo id msg).1
        exact ⟨hfirst.trans hrest, List.forall_mem_append.mpr ⟨hout, houts⟩⟩
      · exact ih s

/-- An effect is one output of its own or outputs that look nothing up. -/
theorem perform_spec (id : Nat) (clientNames : List Bytes) (s : ServerState)
    (e : Effect) :
    Unchanged s (s.perform id clientNames e).1 ∧
      ∀ o ∈ (s.perform id clientNames e).2,
        o.effect.lookupName = none ∨ o = ⟨id, clientNames, e⟩ := by
  have hown : ∀ o ∈ ([⟨id, clientNames, e⟩] : List Output),
      o.effect.lookupName = none ∨ o = ⟨id, clientNames, e⟩ :=
    fun o ho => Or.inr (List.mem_singleton.mp ho)
  cases e with
  | clientDisconnected =>
      refine ⟨⟨?_, fun other hother => ?_, fun {_ conn} h => ?_⟩, hown⟩
      · exact ServerClients.shuttingDown_clientDisconnected _ _
      · exact (ServerClients.sublist_clientDisconnected _ _).subset hother
      · exact ⟨conn, h, .refl _⟩
  | relay msg =>
      have hspec := sendMsg_spec msg id s.registry.clients s
      exact ⟨hspec.1, fun o ho => Or.inl (hspec.2 o ho)⟩
  | _ => exact ⟨.refl s, hown⟩

theorem performAll_spec (id : Nat) (clientNames : List Bytes)
    (effects : List Effect) (s : ServerState) :
    Unchanged s (ServerState.performAll id clientNames effects s).1 ∧
      ∀ o ∈ (ServerState.performAll id clientNames effects s).2,
        o.effect.lookupName = none ∨
          ∃ e ∈ effects, o = ⟨id, clientNames, e⟩ := by
  induction effects generalizing s with
  | nil => exact ⟨.refl s, by simp [ServerState.performAll]⟩
  | cons e rest ih =>
      obtain ⟨hfirst, hout⟩ := perform_spec id clientNames s e
      obtain ⟨hrest, houts⟩ := ih (s.perform id clientNames e).1
      refine ⟨hfirst.trans hrest, List.forall_mem_append.mpr ⟨?_, ?_⟩⟩
      · intro o ho
        rcases hout o ho with hnone | rfl
        · exact Or.inl hnone
        · exact Or.inr ⟨e, List.mem_cons_self, rfl⟩
      · intro o ho
        rcases houts o ho with hnone | ⟨e', he', rfl⟩
        · exact Or.inl hnone
        · exact Or.inr ⟨e', List.mem_cons_of_mem e he', rfl⟩

theorem drop_unchanged (ids : List Nat) (s : ServerState) :
    Unchanged s (ids.foldl ServerState.drop s) := by
  induction ids generalizing s with
  | nil => exact .refl s
  | cons id rest ih =>
      refine Unchanged.trans ?_ (ih (s.drop id))
      unfold ServerState.drop
      split
      · exact .refl s
      · next conn hconn => exact unchanged_setConnection hconn (.refl _)

/-! The invariant of a server that admits no refused client. -/

/-- Every registered client has a name that may be looked up, and everything
looked up so far was. -/
structure Guarded (s : ServerState) (past : List Output) : Prop where
  running : s.registry.shuttingDown = false
  registered : ∀ {id conn}, id ∈ s.registry.clients →
    s.connections id = some conn → Acceptable conn.client
  outputs : ∀ o ∈ past, Confidential o

theorem guarded_start : Guarded .start [] where
  running := rfl
  registered h := absurd h List.not_mem_nil
  outputs _ ho := absurd ho List.not_mem_nil

variable {s : ServerState} {past : List Output} {id : Nat} {conn : Connection}

theorem Guarded.unchanged (h : Guarded s past) {s' : ServerState}
    (hsame : Unchanged s s') : Guarded s' past where
  running := hsame.shuttingDown.trans h.running
  registered hid hconn := by
    obtain ⟨conn, hconn, hidentity⟩ := hsame.identity hconn
    exact hidentity.acceptable (h.registered (hsame.clients hid) hconn)
  outputs := h.outputs

theorem Guarded.setConnection (h : Guarded s past)
    (hclient : id ∈ s.registry.clients → Acceptable conn.client) :
    Guarded (s.setConnection id conn) past where
  running := h.running
  registered hid hfound := by
    rcases ServerState.connections_setConnection_eq_some hfound with
      ⟨rfl, rfl⟩ | ⟨_, hold⟩
    · exact hclient hid
    · exact h.registered hid hold
  outputs := h.outputs

/-- A client may be registered whose name may be looked up. -/
theorem Guarded.clientConnected (h : Guarded s past)
    (hacceptable : Acceptable conn.client) :
    Guarded { s.setConnection id conn with
      registry := s.registry.clientConnected id } past where
  running := h.running
  registered hid hfound := by
    rcases ServerState.connections_setConnection_eq_some hfound with
      ⟨rfl, rfl⟩ | ⟨hother, hold⟩
    · exact hacceptable
    · rcases List.mem_append.mp hid with hid | hid
      · exact h.registered hid hold
      · exact absurd (List.mem_singleton.mp hid) hother
  outputs := h.outputs

/-- The work of one client keeps the invariant if, should the client still be
registered, its name may be looked up, and what it looked up might be. -/
theorem Guarded.work (h : Guarded s past)
    {todo : FssClient → FssClient × List Effect}
    (hclient : id ∈ (s.work id conn todo).1.registry.clients →
      Acceptable (todo conn.client).1)
    (hlookups : ∀ e ∈ (todo conn.client).2, ∀ name,
      e.lookupName = some name →
        conn.client.clientNames = [] ∨
          Permitted conn.client.clientNames name) :
    Guarded (s.work id conn todo).1 (past ++ (s.work id conn todo).2) := by
  have hspec := performAll_spec id conn.client.clientNames
    (todo conn.client).2
    (s.setConnection id { conn with client := (todo conn.client).1 })
  refine ⟨hspec.1.shuttingDown.trans h.running, ?_,
    List.forall_mem_append.mpr ⟨h.outputs, ?_⟩⟩
  · intro other found hid hfound
    obtain ⟨before, hbefore, hsame⟩ := hspec.1.identity hfound
    refine hsame.acceptable ?_
    rcases ServerState.connections_setConnection_eq_some hbefore with
      ⟨rfl, rfl⟩ | ⟨_, hold⟩
    · exact hclient hid
    · exact h.registered (hspec.1.clients hid) hold
  · intro o ho name hname
    rcases hspec.2 o ho with hnone | ⟨e, he, rfl⟩
    · rw [hnone] at hname
      cases hname
    · exact hlookups e he name hname

/-- A client that is registered after some work was registered before it. -/
theorem mem_of_mem_work {todo : FssClient → FssClient × List Effect}
    (h : id ∈ (s.work id conn todo).1.registry.clients) :
    id ∈ s.registry.clients :=
  (performAll_spec id conn.client.clientNames (todo conn.client).2
    (s.setConnection id { conn with client := (todo conn.client).1 })).1.clients
    h

/-- Work that keeps the client's identity and looks up its own name only. -/
theorem Guarded.work_same (h : Guarded s past)
    {todo : FssClient → FssClient × List Effect}
    (hacceptable : id ∈ s.registry.clients → Acceptable conn.client)
    (hsame : conn.client.SameIdentity (todo conn.client).1)
    (hlookups : ∀ e ∈ (todo conn.client).2, ∀ name,
      e.lookupName = some name →
        conn.client.clientNames = [] ∨
          Permitted conn.client.clientNames name) :
    Guarded (s.work id conn todo).1 (past ++ (s.work id conn todo).2) :=
  h.work (fun hid => hsame.acceptable (hacceptable (mem_of_mem_work hid)))
    hlookups

/-- A message keeps the invariant, whatever it is. -/
theorem Guarded.processMessage (h : Guarded s past) (id : Nat)
    (conn : Connection)
    (hacceptable : id ∈ s.registry.clients → Acceptable conn.client)
    (env : Env) (msg : Option FssMessage) :
    Guarded (s.work id conn fun c => c.processMessage env msg).1
      (past ++ (s.work id conn fun c => c.processMessage env msg).2) := by
  have hcases := processMessage_cases env conn.client msg
  cases hresult : conn.client.processMessage env msg with
  | mk c' effects =>
      rw [hresult] at hcases
      cases hcases with
      | kept same writes lookups =>
          refine h.work_same hacceptable (by rw [hresult]; exact same) ?_
          intro e he name hname
          rw [hresult] at he
          rw [lookups e he] at hname
          cases hname
      | accepted unidentified listed same writes lookups =>
          refine h.work (fun _ => ?_) ?_
          · rw [hresult]
            refine same.acceptable ?_
            exact listed.imp_right Or.inr
          · intro e he name hname
            rw [hresult] at he
            rw [lookups e he name hname]
            exact listed.imp_right Or.inr
      | refused unidentified unlisted =>
          refine h.work (fun hid => ?_) ?_
          · -- the refusal has taken the client out of the registry
            simp only [ServerState.work, hresult] at hid
            exact absurd hid
              (ServerClients.not_mem_clientDisconnected h.running id)
          · intro e he name hname
            rw [hresult] at he
            cases List.mem_singleton.mp he
            cases hname
      | nonAircraft unidentified received type =>
          refine h.work (fun hid => ?_) ?_
          · rw [hresult]
            exact hacceptable (mem_of_mem_work hid)
          · intro e he name hname
            rw [hresult] at he
            cases he

/-- The main loop's work keeps the invariant: the name it looks up is that of a
registered client. -/
theorem Guarded.mainLoop (h : Guarded s past) {next : ServerState}
    {out : List Output} {todo : FssClient → FssClient × List Effect}
    (hsame : ∀ c, FssClient.SameIdentity c (todo c).1)
    (hlookups : ∀ c, ∀ e ∈ (todo c).2, ∀ name,
      e.lookupName = some name → name = c.name)
    (hstep : s.mainLoop id todo = some (next, out)) :
    Guarded next (past ++ out) := by
  obtain ⟨conn, hconn, hid, hwork⟩ := ServerState.of_mainLoop hstep
  have hacceptable := h.registered hid hconn
  have hworked : Guarded (s.work id conn todo).1
      (past ++ (s.work id conn todo).2) := by
    refine h.work_same (fun _ => hacceptable) (hsame _) ?_
    intro e he name hname
    rw [hlookups conn.client e he name hname]
    exact hacceptable
  rwa [hwork] at hworked

theorem Guarded.step {e : ServerEvent} {next : ServerState}
    {out : List Output} (hguarded : Guarded s past) (hadmitted : Admitted s e)
    (hstep : ServerState.step s e = some (next, out)) :
    Guarded next (past ++ out) := by
  cases e with
  | accept id clientNames =>
      obtain ⟨_, rfl, rfl⟩ := ServerState.of_step_accept hstep
      rw [List.append_nil]
      exact hguarded.setConnection fun _ => Or.inr (Or.inl rfl)
  | sendRttRequest id env =>
      refine hguarded.mainLoop (fun c => (sendRttRequest_spec env c).1) ?_ hstep
      intro c e he name hname
      obtain ⟨msg, rfl⟩ := (sendRttRequest_spec env c).2 e he
      cases hname
  | sendCommand id env =>
      refine hguarded.mainLoop (fun c => (sendCommand_spec env c).1) ?_ hstep
      intro c e he name hname
      obtain ⟨msg, rfl⟩ := (sendCommand_spec env c).2 e he
      cases hname
      rfl
  | sendSmmSettings id env =>
      refine hguarded.mainLoop (fun c => (sendSmmSettings_spec env c).1) ?_
        hstep
      intro c e he name hname
      obtain ⟨msg, rfl⟩ := (sendSmmSettings_spec env c).2 e he
      cases hname
      rfl
  | sendServersList id env =>
      refine hguarded.mainLoop (fun c => ?_) ?_ hstep
      · split
        · exact ⟨rfl, rfl, rfl, rfl⟩
        · exact .refl c
      · intro c e he name hname
        split at he
        · cases List.mem_singleton.mp he
          cases hname
        · cases he
  | cleanupRemovableClients =>
      simp only [ServerState.step, Option.some.injEq, Prod.mk.injEq] at hstep
      obtain ⟨rfl, rfl⟩ := hstep
      rw [List.append_nil]
      have hdropped :=
        hguarded.unchanged (drop_unchanged s.registry.disconnected s)
      exact ⟨hdropped.running, hdropped.registered, hdropped.outputs⟩
  | push id msg =>
      obtain ⟨messages, client, hconn, rfl, rfl⟩ :=
        ServerState.of_step_push hstep
      have hacceptable : id ∈ s.registry.clients → Acceptable client :=
        fun hid => hguarded.registered hid hconn
      rw [List.append_nil]
      exact hguarded.setConnection hacceptable
  | setHandler id =>
      obtain ⟨messages, client, hconn, rfl, rfl⟩ :=
        ServerState.of_step_setHandler hstep
      have hacceptable : id ∈ s.registry.clients → Acceptable client :=
        fun hid => hguarded.registered hid hconn
      rw [List.append_nil]
      exact hguarded.setConnection hacceptable
  | drain id env =>
      obtain ⟨msg, messages, client, hconn, hwork⟩ :=
        ServerState.of_step_drain hstep
      have hacceptable : id ∈ s.registry.clients → Acceptable client :=
        fun hid => hguarded.registered hid hconn
      have hkept := hguarded.processMessage id ⟨.constructing, messages, client⟩
        hacceptable env msg
      rwa [hwork] at hkept
  | receive id env msg =>
      obtain ⟨conn, hconn, hwork⟩ := ServerState.of_step_receive hstep
      have hkept := hguarded.processMessage id conn
        (fun hid => hguarded.registered hid hconn) env msg
      rwa [hwork] at hkept
  | clientConnected id =>
      obtain ⟨client, hconn, rfl, rfl⟩ :=
        ServerState.of_step_clientConnected hstep
      have hacceptable : Acceptable client := hadmitted _ hconn
      rw [List.append_nil]
      exact hguarded.clientConnected hacceptable

/-- The settings of a registered client's name are sent to it. -/
theorem step_sendSmmSettings (hconn : s.connections id = some conn)
    (hregistered : id ∈ s.registry.clients) {env : Env} {smm : SmmSettings}
    (hanswer : env.db.assetGetSmmSettings conn.client.name = some smm) :
    ∃ final msg,
      ServerState.step s (.sendSmmSettings id env) =
        some (final, [⟨id, conn.client.clientNames,
          .sendLookup conn.client.name msg⟩]) := by
  let sent := conn.client.sendMsg
    (fssMessageSmmSettings smm.address smm.username smm.password)
  refine ⟨s.setConnection id { conn with client := sent.1 }, sent.2, ?_⟩
  simp only [ServerState.step, ServerState.mainLoop, hconn, hregistered,
    ↓reduceIte, ServerState.work, FssClient.sendSmmSettings, hanswer,
    ServerState.performAll, ServerState.perform, List.append_nil]
  rfl

/-- Once a client is registered under a refused name, the settings of that name
are sent to it. -/
theorem step_of_not_admitted {e : ServerEvent} {next : ServerState}
    {out : List Output} (h : ¬ Admitted s e)
    (hstep : ServerState.step s e = some (next, out)) :
    ∃ id name, e = .clientConnected id ∧
      ∀ env smm, env.db.assetGetSmmSettings name = some smm →
        ∃ final leak,
          ServerState.step next (.sendSmmSettings id env) =
            some (final, [leak]) ∧ ¬ Confidential leak := by
  cases e with
  | clientConnected id =>
      obtain ⟨client, hconn, rfl, rfl⟩ :=
        ServerState.of_step_clientConnected hstep
      have hrefused : ¬ Acceptable client := by
        intro hacceptable
        refine h fun conn hconn' => ?_
        rw [hconn] at hconn'
        cases hconn'
        exact hacceptable
      refine ⟨id, client.name, rfl, fun env smm hanswer => ?_⟩
      have hregistered : id ∈ (s.registry.clientConnected id).clients :=
        List.mem_append_right s.registry.clients List.mem_cons_self
      have hfound :=
        ServerState.connections_setConnection s id ⟨.running, [], client⟩
      obtain ⟨final, msg, hsent⟩ := step_sendSmmSettings
        (s := { s.setConnection id ⟨.running, [], client⟩ with
          registry := s.registry.clientConnected id })
        hfound hregistered hanswer
      exact ⟨final, _, hsent, fun hleak => hrefused (hleak client.name rfl)⟩
  | _ => exact absurd trivial h

/-- Every run of the server: while no client enters the registry under a
refused name, all that is looked up for a connection is looked up for a
permitted name.  Where one does, the main loop sends it that name's settings,
if there are any. -/
theorem lookups_confidential_of_admitted {events : List ServerEvent}
    {final : ServerState} {outs : List Output}
    (hrun : run ServerState.step .start events = some (final, outs)) :
    (AllSteps ServerState.step Admitted .start events →
        ∀ o ∈ outs, Confidential o) ∧
      (¬ AllSteps ServerState.step Admitted .start events →
        ∃ before id after name,
          events = before ++ .clientConnected id :: after ∧
          ∀ env smm, env.db.assetGetSmmSettings name = some smm →
            ∃ final' outs',
              run ServerState.step .start
                (before ++ [.clientConnected id, .sendSmmSettings id env]) =
                  some (final', outs') ∧
              ∃ leak ∈ outs', ¬ Confidential leak) := by
  constructor
  · intro hadmitted
    have hfinal : Guarded final ([] ++ outs) :=
      run_invariant Guarded hrun hadmitted guarded_start Guarded.step
    exact hfinal.outputs
  · intro hrefused
    obtain ⟨before, e, after, middle, early, next, out, -, rfl, -, hbefore, -,
      hbad, htaken, -⟩ := exists_first_unguarded hrun hrefused
    obtain ⟨id, name, rfl, hleaks⟩ := step_of_not_admitted hbad htaken
    refine ⟨before, id, after, name, rfl, fun env smm hanswer => ?_⟩
    obtain ⟨final', leak, hstep, hnot⟩ := hleaks env smm hanswer
    refine ⟨final', early ++ (out ++ ([leak] ++ [])), ?_, leak, by simp, hnot⟩
    refine run_append_eq_some.mpr ⟨middle, early, _, hbefore, ?_, rfl⟩
    refine run_cons_eq_some.mpr ⟨next, out, _, htaken, ?_, rfl⟩
    exact run_cons_eq_some.mpr ⟨final', [leak], [], hstep, rfl, rfl⟩

/-- A database with settings for every asset. -/
def settingsDb : Db where
  assetGetCommand _ := none
  assetGetSmmSettings name := some ⟨[], name, name⟩
  getActiveFssServers := []

/-- The run of a client of certificate A that identifies itself by a name
before the server has a handler for it. -/
def earlyIdentity (name : Bytes) : List ServerEvent :=
  [.accept 0 [[65]], .push 0 (some (fssMessageIdentity name)), .setHandler 0,
    .drain 0 ⟨settingsDb, 0⟩, .clientConnected 0,
    .sendSmmSettings 0 ⟨settingsDb, 0⟩]

/-- The client gives the name of its certificate. -/
theorem lookups_confidential_of_admitted_listed :
    let settings : FssMessage := fssMessageSmmSettings [] [65] [65]
    let outs : List Output :=
      [⟨0, [[65]], .sendLookup [65] (settings.setId 1)⟩,
        ⟨0, [[65]], .send ((fssMessageServerList []).setId 2)⟩,
        ⟨0, [[65]], .sendLookup [65] (settings.setId 3)⟩]
    (AllSteps ServerState.step Admitted .start (earlyIdentity [65]) →
        ∀ o ∈ outs, Confidential o) ∧
      (¬ AllSteps ServerState.step Admitted .start (earlyIdentity [65]) →
        ∃ before id after name,
          earlyIdentity [65] = before ++ .clientConnected id :: after ∧
          ∀ env smm, env.db.assetGetSmmSettings name = some smm →
            ∃ final' outs',
              run ServerState.step .start
                (before ++ [.clientConnected id, .sendSmmSettings id env]) =
                  some (final', outs') ∧
              ∃ leak ∈ outs', ¬ Confidential leak) :=
  lookups_confidential_of_admitted
    (by rfl : run ServerState.step .start (earlyIdentity [65]) = some (_, _))

/-- The client gives another name and is refused before it is registered: the
main loop sends it the other asset's settings. -/
theorem not_confidential_earlyIdentity :
    ¬ ∀ (events : List ServerEvent) (final : ServerState)
      (outs : List Output),
      run ServerState.step .start events = some (final, outs) →
        ∀ o ∈ outs, Confidential o := by
  intro h
  have hleak := h (earlyIdentity [66]) _
    [⟨0, [[65]], .clientDisconnected⟩,
      ⟨0, [[65]], .sendLookup [66]
        ((fssMessageSmmSettings [] [66] [66]).setId 1)⟩] rfl
    ⟨0, [[65]], .sendLookup [66]
      ((fssMessageSmmSettings [] [66] [66]).setId 1)⟩ (by simp) [66] rfl
  exact absurd hleak (by decide)

end FlightSafety.Server
