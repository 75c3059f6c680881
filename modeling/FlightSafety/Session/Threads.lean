/-
The threads behind a session.  At either end a receive loop takes what is on
its way while another thread sets the handler and empties the queue.  A
message that is handed on is processed at once.  As long as the two threads of
an end hand the messages on in their order, a session of threads is a session
of two parties.
-/
import FlightSafety.Lib.Simulation
import FlightSafety.Session.Settles
import FlightSafety.Transport.HandOver

namespace FlightSafety

open Octets ExactDouble Machine Server Client

namespace HandOver

variable {α : Type}

/-- More is on its way. -/
def extend (h : HandOver α) (sent : List α) : HandOver α :=
  { h with incoming := h.incoming ++ sent }

/-- What holds of the two threads however they interleave with the rest. -/
structure Sound (h : HandOver α) : Prop where
  stored : h.handler = true ↔ h.setter ≠ .uncalled
  tested : ∀ msg, h.loop = .deliver msg → h.handler = true

/-- With `setHandler` over, nothing is left in the queue. -/
def Drained (h : HandOver α) : Prop :=
  h.setter = .returned → h.messages = [] ∧ ∀ msg, h.loop ≠ .push msg

theorem pending_extend (h : HandOver α) (sent : List α) :
    (h.extend sent).pending = h.pending ++ sent :=
  (List.append_assoc _ _ _).symm

theorem Sound.extend {h : HandOver α} (hsound : h.Sound) (sent : List α) :
    (h.extend sent).Sound :=
  ⟨hsound.stored, hsound.tested⟩

theorem sound_start (stream : List α) : Sound (start stream) where
  stored := ⟨fun h => absurd h Bool.false_ne_true, fun h => absurd rfl h⟩
  tested _ h := nomatch h

theorem Sound.step {h next : HandOver α} {e : HandOverStep} {out : List α}
    (hsound : h.Sound) (hstep : h.step e = some (next, out)) : next.Sound := by
  obtain ⟨hstored, htested⟩ := hsound
  cases taken_of_step hstep with
  | receive | push | deliver =>
      exact ⟨hstored, fun _ hloop => nomatch hloop⟩
  | handlerSet => exact ⟨hstored, fun _ _ => rfl⟩
  | handlerUnset => exact ⟨hstored, fun _ hloop => nomatch hloop⟩
  | storeHandler => exact ⟨by simp, fun _ _ => rfl⟩
  | queueEmpty | queueFilled | pop | deliverPopped =>
      exact ⟨by simpa using hstored, htested⟩

/-- An ordered step hands on the first of what is pending, if any. -/
theorem Sound.ordered {h next : HandOver α} {e : HandOverStep} {out : List α}
    (hsound : h.Sound) (hdrained : h.Drained) (hok : h.Ordered e)
    (hstep : h.step e = some (next, out)) :
    out ++ next.pending = h.pending ∧ next.Drained := by
  have horder : InOrder h.pending h [] := ⟨rfl, hsound.stored.mpr, hdrained⟩
  have hnext := horder.step hok hstep
  exact ⟨hnext.split, hnext.drained⟩

theorem delivers_of_step {h next : HandOver α} {e : HandOverStep} {msg : α}
    {out : List α} (hstep : h.step e = some (next, msg :: out)) :
    (e = .deliver ∨ e = .deliverPopped) ∧ out = [] ∧
      (next.setter = .uncalled ↔ h.setter = .uncalled) := by
  cases taken_of_step hstep with
  | deliver => exact ⟨.inl rfl, rfl, .rfl⟩
  | deliverPopped => exact ⟨.inr rfl, rfl, by simp⟩

/-- Nothing is handed on before `setHandler` is called. -/
theorem Sound.called {h next : HandOver α} {e : HandOverStep} {msg : α}
    {out : List α} (hsound : h.Sound)
    (hstep : h.step e = some (next, msg :: out)) : h.setter ≠ .uncalled := by
  cases taken_of_step hstep with
  | deliver => exact hsound.stored.mp (hsound.tested _ rfl)
  | deliverPopped => exact nofun

theorem uncalled_of_storeHandler {h next : HandOver α} {out : List α}
    (hstep : h.step .storeHandler = some (next, out)) :
    h.setter = .uncalled ∧ next.setter ≠ .uncalled := by
  cases taken_of_step hstep with
  | storeHandler => exact ⟨rfl, nofun⟩

theorem silent_of_step {h next : HandOver α} {e : HandOverStep}
    (hstep : h.step e = some (next, [])) :
    (e ≠ .deliver ∧ e ≠ .deliverPopped) ∧
      (e ≠ .storeHandler →
        (next.setter = .uncalled ↔ h.setter = .uncalled)) := by
  cases taken_of_step hstep <;> simp

/-- The loop hands a message on while nothing else waits. -/
theorem ordered_deliver {h : HandOver α} (hmessages : h.messages = [])
    (hpopped : h.popped = []) : h.Ordered .deliver := by
  refine ⟨hmessages, fun msg hsetter => ?_⟩
  rw [popped, hsetter] at hpopped
  cases hpopped

/-- `setHandler` looks at the queue while the loop waits for a message. -/
theorem ordered_testEmpty {h : HandOver α} (hloop : h.loop = .recvMsg) :
    h.Ordered .testEmpty := by
  intro _ msg hpush
  rw [hloop] at hpush
  cases hpush

/-- When both threads have nothing left to do, nothing is pending. -/
theorem Drained.pending_eq_nil {h : HandOver α} (hdrained : h.Drained)
    (hidle : h.Idle) : h.pending = [] := by
  obtain ⟨hincoming, hloop, hsetter⟩ := hidle
  have hmessages := (hdrained hsetter).1
  simp [pending, popped, inLoop, hincoming, hloop, hsetter, hmessages]

end HandOver

/-- The two parties, and for each direction what is on its way and how far the
threads at the receiving end are. -/
structure ThreadedSession where
  server : RttState
  asset : Asset
  down : HandOver FssMessage
  up : HandOver FssMessage

/-- The work of the server's threads, a step of the two threads of either end,
and what the asset sends. -/
inductive ThreadedEvent where
  | server (e : RttEvent)
  | serverHandOver (env : Env) (step : HandOverStep)
  | assetHandOver (step : HandOverStep)
  | sendIdentify
  | send (msg : FssMessage)

/-- What a step is for the two parties. -/
def ThreadedEvent.session : ThreadedEvent → Option SessionEvent
  | .server e => some (.server e)
  | .serverHandOver env .deliver | .serverHandOver env .deliverPopped =>
      some (.serverReceives env)
  | .serverHandOver _ _ => none
  | .assetHandOver .deliver | .assetHandOver .deliverPopped =>
      some .assetReceives
  | .assetHandOver .storeHandler => some .setHandler
  | .assetHandOver _ => none
  | .sendIdentify => some .sendIdentify
  | .send msg => some (.send msg)

/-- The asset's part of a step of its threads that hands nothing on. -/
def Client.Asset.after (a : Asset) : HandOverStep → Asset
  | .storeHandler => { a with stage := .handled }
  | _ => a

namespace ThreadedSession

/-- A connection that has just been made. -/
def start (clientNames : List Bytes) (assetName : Bytes) : ThreadedSession where
  server := .start clientNames
  asset := { assetName := assetName }
  down := .start []
  up := .start []

/-- The session of the two parties, to whom all is on its way that has not been
handed on. -/
def session (s : ThreadedSession) : Session where
  server := s.server
  asset := s.asset
  down := s.down.pending
  up := s.up.pending

def served (s : ThreadedSession) (worked : RttState × List Made) :
    ThreadedSession × List SessionOut :=
  ({ s with
    server := worked.1
    down := s.down.extend (sentMsgs worked.2) },
    worked.2.map .server)

def acted (s : ThreadedSession) (worked : Asset × List AssetEffect) :
    ThreadedSession × List SessionOut :=
  ({ s with
    asset := worked.1
    up := s.up.extend (worked.2.filterMap AssetEffect.sent?) },
    worked.2.map .asset)

def attempt [Target] : Step ThreadedSession ThreadedEvent SessionOut
  | _, .server (.message _ _) => none
  | s, .server e => (s.server.step e).map s.served
  | s, .serverHandOver env step =>
      match s.up.step step with
      | some (up, m :: _) =>
          (s.server.step (.message env m.received)).map
            { s with up := up }.served
      | some (up, []) => some ({ s with up := up }, [])
      | none => none
  | s, .assetHandOver step =>
      match s.down.step step with
      | some (down, m :: _) =>
          some ({ s with down := down }.acted
            (s.asset.processMessage m.received))
      | some (down, []) =>
          some ({ s with down := down, asset := s.asset.after step }, [])
      | none => none
  | s, .sendIdentify =>
      -- `reconnect` goes on when `setHandler` has returned.
      match s.asset.stage, s.down.setter with
      | .handled, .returned =>
          some (s.acted { s.asset with stage := .identified }.sendIdentify)
      | _, _ => none
  | s, .send msg =>
      match s.asset.stage with
      | .identified => some (s.acted (s.asset.sendMsg msg))
      | _ => none

/-- As in a session of two parties, no frame is too long. -/
def step [Target] : Step ThreadedSession ThreadedEvent SessionOut :=
  fun s e => (s.attempt e).filter (·.1.session.Fits)

/-- The threads of either end hand the messages on in their order. -/
def Ordered (s : ThreadedSession) : ThreadedEvent → Prop
  | .serverHandOver _ step => s.up.Ordered step
  | .assetHandOver step => s.down.Ordered step
  | _ => True

/-- Besides, a step is one that a guard admits for the two parties. -/
def Admits (ok : Session → SessionEvent → Prop) (s : ThreadedSession)
    (e : ThreadedEvent) : Prop :=
  s.Ordered e ∧ ∀ e', e.session = some e' → ok s.session e'

/-- What holds of the threads after every ordered step. -/
structure Linked (s : ThreadedSession) : Prop where
  down : s.down.Sound
  up : s.up.Sound
  downDrained : s.down.Drained
  upDrained : s.up.Drained
  stage : s.asset.stage = .connected ↔ s.down.setter = .uncalled

theorem linked_start (clientNames : List Bytes) (assetName : Bytes) :
    Linked (start clientNames assetName) where
  down := HandOver.sound_start _
  up := HandOver.sound_start _
  downDrained h := nomatch h
  upDrained h := nomatch h
  stage := ⟨fun _ => rfl, fun _ => rfl⟩

theorem session_served (s : ThreadedSession) (worked : RttState × List Made) :
    s.session.served worked =
      ((s.served worked).1.session, (s.served worked).2) := by
  simp only [served, session, Session.served, HandOver.pending_extend]

theorem session_acted (s : ThreadedSession)
    (worked : Asset × List AssetEffect) :
    s.session.acted worked =
      ((s.acted worked).1.session, (s.acted worked).2) := by
  simp only [acted, session, Session.acted, HandOver.pending_extend]

theorem stage_processMessage [Target] (a : Asset) (msg : Option FssMessage) :
    (a.processMessage msg).1.stage = a.stage := by
  have hprocessed := processMessage_cases a msg
  generalize a.processMessage msg = worked at hprocessed ⊢
  cases hprocessed <;> rfl

theorem Linked.served {s : ThreadedSession} (h : s.Linked)
    (worked : RttState × List Made) : (s.served worked).1.Linked where
  down := h.down.extend _
  up := h.up
  downDrained := h.downDrained
  upDrained := h.upDrained
  stage := h.stage

theorem Linked.acted {s : ThreadedSession} (h : s.Linked)
    {worked : Asset × List AssetEffect}
    (hstage : worked.1.stage = .connected ↔ s.asset.stage = .connected) :
    (s.acted worked).1.Linked where
  down := h.down
  up := h.up.extend _
  downDrained := h.downDrained
  upDrained := h.upDrained
  stage := hstage.trans h.stage

section Refines

variable [Target] {s next : ThreadedSession} {e : ThreadedEvent}
  {out : List SessionOut}

/-- What a step of the threads is to the two parties. -/
def Refines (s : ThreadedSession) (e : ThreadedEvent) (next : ThreadedSession)
    (out : List SessionOut) : Prop :=
  match e.session with
  | some e' => Session.attempt s.session e' = some (next.session, out)
  | none => next.session = s.session ∧ out = []

/-- The server processes the first of the messages that are pending. -/
theorem refines_serverHandOver {env : Env} {step : HandOverStep}
    (h : s.Linked) (hordered : s.up.Ordered step)
    (hstep : s.attempt (.serverHandOver env step) = some (next, out)) :
    next.Linked ∧ Refines s (.serverHandOver env step) next out := by
  rw [attempt] at hstep
  split at hstep
  next up m rest hup =>
      obtain ⟨⟨server, made⟩, hworks, hserved⟩ :=
        Option.map_eq_some_iff.mp hstep
      obtain ⟨hpending, hdrained⟩ := h.up.ordered h.upDrained hordered hup
      obtain ⟨hdelivers, rfl, -⟩ := HandOver.delivers_of_step hup
      have hlinked : Linked { s with up := up } :=
        ⟨h.down, h.up.step hup, h.downDrained, hdrained, h.stage⟩
      cases hserved
      refine ⟨hlinked.served _, ?_⟩
      have hattempt : Session.attempt s.session (.serverReceives env) =
          some ((session { s with up := up }).served (server, made)) := by
        simp only [Session.attempt, session, ← hpending, List.cons_append,
          List.nil_append, hworks, Option.map_some]
      rw [session_served] at hattempt
      rcases hdelivers with rfl | rfl
      · exact hattempt
      · exact hattempt
  next up hup =>
      cases hstep
      obtain ⟨hpending, hdrained⟩ := h.up.ordered h.upDrained hordered hup
      obtain ⟨⟨hdeliver, hpopped⟩, -⟩ := HandOver.silent_of_step hup
      refine ⟨⟨h.down, h.up.step hup, h.downDrained, hdrained, h.stage⟩, ?_⟩
      have hsame : session { s with up := up } = s.session :=
        congrArg (Session.mk s.server s.asset s.down.pending) hpending
      cases step with
      | deliver => exact absurd rfl hdeliver
      | deliverPopped => exact absurd rfl hpopped
      | _ => exact ⟨hsame, rfl⟩
  next => cases hstep

theorem refines_assetHandOver {step : HandOverStep}
    (h : s.Linked) (hordered : s.down.Ordered step)
    (hstep : s.attempt (.assetHandOver step) = some (next, out)) :
    next.Linked ∧ Refines s (.assetHandOver step) next out := by
  rw [attempt] at hstep
  split at hstep
  next down m rest hdown =>
      cases hstep
      obtain ⟨hpending, hdrained⟩ := h.down.ordered h.downDrained hordered hdown
      obtain ⟨hdelivers, rfl, hsetter⟩ := HandOver.delivers_of_step hdown
      have hlinked : Linked { s with down := down } :=
        ⟨h.down.step hdown, h.up, hdrained, h.upDrained,
          h.stage.trans hsetter.symm⟩
      refine ⟨hlinked.acted ?_, ?_⟩
      · rw [stage_processMessage]
      · have hready : s.asset.stage ≠ .connected := by
          rw [Ne, h.stage]
          exact h.down.called hdown
        have hattempt : Session.attempt s.session .assetReceives =
            some ((session { s with down := down }).acted
              (s.asset.processMessage m.received)) := by
          simp only [Session.attempt, session, ← hpending, List.cons_append,
            List.nil_append]
        rw [session_acted] at hattempt
        rcases hdelivers with rfl | rfl
        · exact hattempt
        · exact hattempt
  next down hdown =>
      cases hstep
      obtain ⟨hpending, hdrained⟩ := h.down.ordered h.downDrained hordered hdown
      obtain ⟨⟨hdeliver, hpopped⟩, hsetter⟩ := HandOver.silent_of_step hdown
      have hlinked : ∀ asset : Asset,
          (asset.stage = .connected ↔ down.setter = .uncalled) →
          Linked { s with asset := asset, down := down } :=
        fun asset hstage => ⟨h.down.step hdown, h.up, hdrained, h.upDrained, hstage⟩
      have hsame : ∀ asset, session { s with asset := asset, down := down } =
          { s.session with asset := asset } :=
        fun asset => congrArg (Session.mk s.server asset · s.up.pending) hpending
      cases step with
      | deliver => exact absurd rfl hdeliver
      | deliverPopped => exact absurd rfl hpopped
      | storeHandler =>
          obtain ⟨huncalled, hcalled⟩ := HandOver.uncalled_of_storeHandler hdown
          refine ⟨hlinked _ (iff_of_false (by simp [Asset.after]) hcalled), ?_⟩
          have hstage := h.stage.mpr huncalled
          change Session.attempt s.session .setHandler = _
          rw [hsame]
          simp only [Session.attempt, session, hstage, Asset.after]
      | _ =>
          have hstage := h.stage.trans (hsetter (by simp)).symm
          exact ⟨hlinked _ hstage, hsame _, rfl⟩
  next => cases hstep

theorem refines_of_attempt (h : s.Linked) (hordered : s.Ordered e)
    (hstep : s.attempt e = some (next, out)) :
    next.Linked ∧ Refines s e next out := by
  cases e with
  | server e =>
      have hworks : (s.server.step e).map s.served = some (next, out) ∧
          Session.attempt s.session (.server e) =
            (s.server.step e).map s.session.served := by
        cases e with
        | message env msg => cases hstep
        | _ => exact ⟨hstep, rfl⟩
      obtain ⟨⟨server, made⟩, hserver, hserved⟩ :=
        Option.map_eq_some_iff.mp hworks.1
      cases hserved
      refine ⟨h.served _, ?_⟩
      have hattempt := hworks.2
      rw [hserver, Option.map_some, session_served] at hattempt
      exact hattempt
  | serverHandOver env step => exact refines_serverHandOver h hordered hstep
  | assetHandOver step => exact refines_assetHandOver h hordered hstep
  | sendIdentify =>
      rw [attempt] at hstep
      split at hstep
      next hstage hreturned =>
          cases hstep
          refine ⟨h.acted (by rw [hstage]; exact iff_of_false nofun nofun), ?_⟩
          have hattempt : Session.attempt s.session .sendIdentify =
              some (s.session.acted
                { s.asset with stage := .identified }.sendIdentify) := by
            simp only [Session.attempt, session, hstage]
          rw [session_acted] at hattempt
          exact hattempt
      next => cases hstep
  | send msg =>
      rw [attempt] at hstep
      split at hstep
      next hstage =>
          cases hstep
          refine ⟨h.acted Iff.rfl, ?_⟩
          have hattempt : Session.attempt s.session (.send msg) =
              some (s.session.acted (s.asset.sendMsg msg)) := by
            simp only [Session.attempt, session, hstage]
          rw [session_acted] at hattempt
          exact hattempt
      next => cases hstep

end Refines

theorem admits_of_silent {s : ThreadedSession} {e : ThreadedEvent}
    {ok : Session → SessionEvent → Prop} (hordered : s.Ordered e)
    (h : e.session = none) : s.Admits ok e :=
  ⟨hordered, fun e' he => by rw [h] at he; cases he⟩

theorem admits_of_session {s : ThreadedSession} {e : ThreadedEvent}
    {ok : Session → SessionEvent → Prop} {e' : SessionEvent}
    (hordered : s.Ordered e) (h : e.session = some e')
    (hok : ok s.session e') : s.Admits ok e :=
  ⟨hordered, fun e'' he => by rw [h] at he; cases he; exact hok⟩

theorem Admits.imp {s : ThreadedSession} {e : ThreadedEvent}
    {ok ok' : Session → SessionEvent → Prop} (h : s.Admits ok e)
    (himp : ∀ e', ok s.session e' → ok' s.session e') : s.Admits ok' e :=
  ⟨h.1, fun e' he => himp e' (h.2 e' he)⟩

/-- Ordered threads do what two parties can do. -/
theorem simulates [Target] (ok : Session → SessionEvent → Prop) :
    Simulates step (Admits ok) Session.step ok some
      (fun s s' => s.Linked ∧ s.session = s') := by
  rintro s _ e next out ⟨hlinked, rfl⟩ ⟨hordered, hok⟩ hstep
  obtain ⟨hattempt, hfits⟩ := Option.filter_eq_some_iff.mp hstep
  obtain ⟨hnext, hrefines⟩ := refines_of_attempt hlinked hordered hattempt
  unfold Refines at hrefines
  split at hrefines
  next e' he =>
      have htaken : Session.step s.session e' = some (next.session, out) :=
        Option.filter_eq_some_iff.mpr ⟨hrefines, hfits⟩
      exact .one e' (hok e' he) htaken List.filterMap_some ⟨hnext, rfl⟩
  next =>
      obtain ⟨hsame, rfl⟩ := hrefines
      exact .hidden ⟨hnext, hsame.symm ▸ rfl⟩ rfl

theorem session_of_run [Target] {ok : Session → SessionEvent → Prop}
    {clientNames : List Bytes} {assetName : Bytes} {final : ThreadedSession}
    {events : List ThreadedEvent} {outs : List SessionOut}
    (hrun : run step (start clientNames assetName) events = some (final, outs))
    (hok : AllSteps step (Admits ok) (start clientNames assetName) events) :
    final.Linked ∧ ∃ events',
      run Session.step (.start clientNames assetName) events' =
        some (final.session, outs) ∧
      AllSteps Session.step ok (.start clientNames assetName) events' := by
  obtain ⟨events', _, hrun', hok', hlinked, rfl⟩ := (simulates ok).run
    ⟨linked_start clientNames assetName, rfl⟩ hrun hok
  rw [List.filterMap_some] at hrun'
  exact ⟨hlinked, events', hrun', hok'⟩

end ThreadedSession

/-- The asset's identity waits in the queue for the server's handler; then the
asset is asked once, and answers. -/
def queuedIdentity : List ThreadedEvent :=
  [.assetHandOver .storeHandler, .assetHandOver .testEmpty, .sendIdentify,
    .serverHandOver quietEnv .receive, .serverHandOver quietEnv .testHandler,
    .serverHandOver quietEnv .push, .serverHandOver quietEnv .storeHandler,
    .serverHandOver quietEnv .testEmpty, .serverHandOver quietEnv .pop,
    .serverHandOver quietEnv .deliverPopped, .server (.proceed quietEnv),
    .server (.proceed quietEnv), .server (.proceed quietEnv),
    .serverHandOver quietEnv .testEmpty, .server (.sendRequest quietEnv),
    .server .recordRequest, .assetHandOver .receive,
    .assetHandOver .testHandler, .assetHandOver .deliver,
    .assetHandOver .receive, .assetHandOver .testHandler,
    .assetHandOver .deliver, .serverHandOver quietEnv .receive,
    .serverHandOver quietEnv .testHandler, .serverHandOver quietEnv .deliver,
    .server (.proceed quietEnv)]

theorem run_queuedIdentity :
    ∃ final outs,
      run (@ThreadedSession.step Target.indefinite) (.start [] [65])
        queuedIdentity = some (final, outs) ∧
      final.down.Idle ∧ final.up.Idle ∧ final.server.removing = none ∧
      answered (made outs) = [2] :=
  ⟨_, _, rfl, ⟨rfl, rfl, rfl⟩, ⟨rfl, rfl, rfl⟩, rfl, rfl⟩

theorem prompt_queuedIdentity :
    AllSteps (@ThreadedSession.step Target.indefinite)
      (ThreadedSession.Admits (@Session.Prompt Target.indefinite))
      (.start [] [65]) queuedIdentity := by
  have hsilent := fun s e (hordered : ThreadedSession.Ordered s e)
      (h : e.session = none) =>
    @ThreadedSession.admits_of_silent s e
      (@Session.Prompt Target.indefinite) hordered h
  have hother := fun s e e' (hordered : ThreadedSession.Ordered s e)
      (h : e.session = some e') hok (hne : ∀ env, e' ≠ .serverReceives env) =>
    @ThreadedSession.admits_of_session s e (@Session.Prompt Target.indefinite) _
      hordered h (@Session.prompt_of_ne Target.indefinite _ e' hok hne)
  have hserver := fun s e (h : ∀ msg, e ≠ .relay msg) =>
    hother s (.server e) _ trivial rfl (fun msg he => absurd he (h msg)) (by simp)
  have hreceives := fun s e env m up (hordered : ThreadedSession.Ordered s e)
      (h : e.session = some (.serverReceives env))
      (hfirst : s.session.up = m :: up) hm =>
    @ThreadedSession.admits_of_session s e (@Session.Prompt Target.indefinite) _
      hordered h
      (@Session.prompt_serverReceives Target.indefinite _ m up hfirst hm env)
  -- the asset sets its handler and identifies itself
  refine .cons (hother _ _ _ trivial rfl trivial (by simp)) rfl ?_
  refine .cons (hsilent _ _ (HandOver.ordered_testEmpty rfl) rfl) rfl ?_
  refine .cons (hother _ _ _ trivial rfl trivial (by simp)) rfl ?_
  -- the server's loop queues the identity, and `setHandler` hands it on
  refine .cons (hsilent _ _ trivial rfl) rfl ?_
  refine .cons (hsilent _ _ trivial rfl) rfl ?_
  refine .cons (hsilent _ _ trivial rfl) rfl ?_
  refine .cons (hsilent _ _ trivial rfl) rfl ?_
  refine .cons (hsilent _ _ (HandOver.ordered_testEmpty rfl) rfl) rfl ?_
  refine .cons (hsilent _ _ trivial rfl) rfl ?_
  refine .cons (hreceives _ _ _ _ _ trivial rfl rfl (.inl rfl)) rfl ?_
  refine .cons (hserver _ _ (by simp)) rfl ?_
  refine .cons (hserver _ _ (by simp)) rfl ?_
  refine .cons (hserver _ _ (by simp)) rfl ?_
  refine .cons (hsilent _ _ (HandOver.ordered_testEmpty rfl) rfl) rfl ?_
  -- the request and its response
  refine .cons (hserver _ _ (by simp)) rfl ?_
  refine .cons (hserver _ _ (by simp)) rfl ?_
  refine .cons (hsilent _ _ trivial rfl) rfl ?_
  refine .cons (hsilent _ _ trivial rfl) rfl ?_
  refine .cons (hother _ _ _ (HandOver.ordered_deliver rfl rfl) rfl trivial
    (by simp)) rfl ?_
  refine .cons (hsilent _ _ trivial rfl) rfl ?_
  refine .cons (hsilent _ _ trivial rfl) rfl ?_
  refine .cons (hother _ _ _ (HandOver.ordered_deliver rfl rfl) rfl trivial
    (by simp)) rfl ?_
  refine .cons (hsilent _ _ trivial rfl) rfl ?_
  refine .cons (hsilent _ _ trivial rfl) rfl ?_
  refine .cons (hreceives _ _ _ _ _ (HandOver.ordered_deliver rfl rfl) rfl rfl
    (.inr ⟨rfl, rfl⟩)) rfl ?_
  exact .cons (hserver _ _ (by simp)) rfl trivial

/-- However the threads of the two parties interleave, as long as those of
either end hand the messages on in their order, each party has processed the
messages of the other in the order in which they were sent, each of them once
and as it is decoded, up to those that have not been handed on.  The asset has
handled what it got and responded to each request; the server has written the
asset's reports for the asset's name and passed its positions on. -/
theorem session_inOrder [Target] {clientNames : List Bytes} {assetName : Bytes}
    {final : ThreadedSession} {events : List ThreadedEvent}
    {outs : List SessionOut}
    (hlisted : clientNames = [] ∨ arrivingName assetName ∈ clientNames)
    (hrun : run ThreadedSession.step (.start clientNames assetName) events =
      some (final, outs))
    (hok : AllSteps ThreadedSession.step
      (ThreadedSession.Admits Session.Ok) (.start clientNames assetName) events) :
    (∀ m ∈ sentMsgs (made outs) ++ assetSent outs,
      decode m.onWire = .ok m.received) ∧
    (∃ got, sentMsgs (made outs) = got ++ final.down.pending ∧
      handled outs = got.flatMap (fun m => handling m.received) ∧
      (assetSent outs).filterMap answers = got.filterMap asks) ∧
    (∃ got, assetSent outs = got ++ final.up.pending ∧
      reports (made outs) =
        got.flatMap fun m => told (arrivingName assetName) m.received) ∧
    (final.down.Idle → final.down.pending = []) ∧
    (final.up.Idle → final.up.pending = []) := by
  obtain ⟨hlinked, events', hrun', hok'⟩ :=
    ThreadedSession.session_of_run hrun hok
  have hdownward := downward_of_run hrun' hok'
  have hframed := framed_of_run hrun' hok'
  refine ⟨?_, hdownward.processed, (upward_of_run hlisted hrun').processed,
    hlinked.downDrained.pending_eq_nil, hlinked.upDrained.pending_eq_nil⟩
  rw [List.forall_mem_append]
  constructor
  · intro m hm
    exact decode_onWire (.inl (hdownward.plain m hm)) (hframed.down m hm)
  · intro m hm
    obtain ⟨hconstructed, hfits⟩ := hframed.up m hm
    exact decode_onWire (.inr hconstructed) hfits

theorem session_inOrder_queuedIdentity :
    ∃ final outs,
      run (@ThreadedSession.step Target.indefinite) (.start [] [65])
        queuedIdentity = some (final, outs) ∧
      (∀ m ∈ sentMsgs (made outs) ++ assetSent outs,
        decode (@FssMessage.onWire Target.indefinite m) =
          .ok (@FssMessage.received Target.indefinite m)) ∧
      (∃ got, sentMsgs (made outs) = got ++ final.down.pending ∧
        handled outs = got.flatMap
          (fun m => handling (@FssMessage.received Target.indefinite m)) ∧
        (assetSent outs).filterMap (@answers Target.indefinite) =
          got.filterMap (@asks Target.indefinite)) ∧
      (∃ got, assetSent outs = got ++ final.up.pending ∧
        reports (made outs) = got.flatMap fun m =>
          told (arrivingName [65])
            (@FssMessage.received Target.indefinite m)) ∧
      final.down.pending = [] ∧ final.up.pending = [] := by
  obtain ⟨final, outs, hrun, hdownIdle, hupIdle, -, -⟩ := run_queuedIdentity
  obtain ⟨hdecoded, hdown, hup, hdownNone, hupNone⟩ :=
    @session_inOrder Target.indefinite [] [65] _ _ _ (.inl rfl) hrun
      (prompt_queuedIdentity.imp fun _ _ h => h.imp fun _ => And.left)
  exact ⟨final, outs, hrun, hdecoded, hdown, hup, hdownNone hdownIdle,
    hupNone hupIdle⟩

/-- The requests that the server has sent are, in this order, those whose
round-trip times are written and those under way, and what is outstanding or
about to be recorded is what is under way; at rest each request is answered
and none is outstanding. -/
theorem requests_answeredInTurn [Target] {clientNames : List Bytes}
    {assetName : Bytes} {final : ThreadedSession} {events : List ThreadedEvent}
    {outs : List SessionOut}
    (hrun : run ThreadedSession.step (.start clientNames assetName) events =
      some (final, outs))
    (hprompt : AllSteps ThreadedSession.step
      (ThreadedSession.Admits Session.Prompt) (.start clientNames assetName) events) :
    requestIds (made outs) = answered (made outs) ++ final.session.underWay ∧
    (final.server.outstanding ++ final.server.pending).Perm
      final.session.underWay ∧
    (final.down.Idle → final.up.Idle → final.server.removing = none →
      requestIds (made outs) = answered (made outs) ∧
        final.server.outstanding = [] ∧ final.server.pending = []) := by
  obtain ⟨hlinked, events', hrun', hprompt'⟩ :=
    ThreadedSession.session_of_run hrun hprompt
  have hsettling := settling_of_run hrun' hprompt'
  have hrequests := hsettling.requests
  have houtstanding := hsettling.outstanding
  refine ⟨hrequests, houtstanding, fun hdown hup hfound => ?_⟩
  have hnone : final.session.underWay = [] := by
    have hdown' : final.session.down = [] :=
      hlinked.downDrained.pending_eq_nil hdown
    have hup' : final.session.up = [] :=
      hlinked.upDrained.pending_eq_nil hup
    have hserver : final.session.server.removing = none := hfound
    rw [Session.underWay, RttState.found, hserver, hdown', hup']
    rfl
  rw [hnone, List.append_nil] at hrequests
  rw [hnone] at houtstanding
  exact ⟨hrequests, List.append_eq_nil_iff.mp houtstanding.eq_nil⟩

theorem requests_answeredInTurn_queuedIdentity :
    ∃ final outs,
      run (@ThreadedSession.step Target.indefinite) (.start [] [65])
        queuedIdentity = some (final, outs) ∧
      requestIds (made outs) = answered (made outs) ++
        @Session.underWay Target.indefinite final.session ∧
      (final.server.outstanding ++ final.server.pending).Perm
        (@Session.underWay Target.indefinite final.session) ∧
      requestIds (made outs) = [2] ∧ answered (made outs) = [2] ∧
      final.server.outstanding = [] ∧ final.server.pending = [] := by
  obtain ⟨final, outs, hrun, hdownIdle, hupIdle, hfound, hanswered⟩ :=
    run_queuedIdentity
  obtain ⟨hrequests, houtstanding, hrest⟩ :=
    @requests_answeredInTurn Target.indefinite [] [65] _ _ _ hrun
      prompt_queuedIdentity
  obtain ⟨hall, hnone, hrecorded⟩ := hrest hdownIdle hupIdle hfound
  exact ⟨final, outs, hrun, hrequests, houtstanding, hall.trans hanswered,
    hanswered, hnone, hrecorded⟩

end FlightSafety
