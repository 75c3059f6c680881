/-
Whose telemetry a client can write.  A refused name stays in the client, and
a client that then says it is no aircraft is identified under it.
-/
import FlightSafety.Lib.Machine
import FlightSafety.Server.Client

namespace FlightSafety.Server

open Octets ExactDouble Machine

/-- What happens to one client: a message it sent, or one of the main loop's
calls. -/
inductive ClientEvent where
  | message (env : Env) (msg : Option FssMessage)
  | rttRequest (env : Env)
  | command (env : Env)
  | smmSettings (env : Env)

namespace FssClient

/-- A new client on a connection with the given certificate names. -/
def start (clientNames : List Bytes) : FssClient :=
  { clientNames := clientNames }

/-- Every event can happen in every state. -/
def step : Step FssClient ClientEvent Effect
  | c, .message env msg => some (c.processMessage env msg)
  | c, .rttRequest env => some (c.sendRttRequest env)
  | c, .command env => some (c.sendCommand env)
  | c, .smmSettings env => some (c.sendSmmSettings env)

end FssClient

/-- An effect that writes telemetry under permitted names only. -/
def Authentic (clientNames : List Bytes) (e : Effect) : Prop :=
  ∀ name, e.telemetryName = some name → Permitted clientNames name

/-- The client does not say that it is no aircraft while it is unidentified and
holds a name that was refused. -/
def Honest (c : FssClient) : ClientEvent → Prop
  | .message _ (some m) =>
      m.type = .identityNonAircraft → c.identified = false →
        Permitted c.clientNames c.name
  | _ => True

/-- An identified client has a permitted name, and every write so far was made
under one. -/
structure Vouched (clientNames : List Bytes) (c : FssClient)
    (past : List Effect) : Prop where
  names : c.clientNames = clientNames
  name : c.identified = true → Permitted clientNames c.name
  writes : ∀ e ∈ past, Authentic clientNames e

theorem vouched_start (clientNames : List Bytes) :
    Vouched clientNames (.start clientNames) [] where
  names := rfl
  name h := by cases h
  writes e he := absurd he List.not_mem_nil

variable {clientNames : List Bytes} {c : FssClient} {past : List Effect}

/-- What a main loop's call does to a client writes no telemetry. -/
theorem Vouched.quiet (h : Vouched clientNames c past) {c' : FssClient}
    {effects : List Effect} (hsame : c.SameIdentity c')
    (hquiet : ∀ e ∈ effects, e.telemetryName = none) :
    Vouched clientNames c' (past ++ effects) where
  names := hsame.clientNames.trans h.names
  name hidentified := by
    rw [hsame.name]
    exact h.name (hsame.identified ▸ hidentified)
  writes e he name hname := by
    rcases List.mem_append.mp he with he | he
    · exact h.writes e he name hname
    · rw [hquiet e he] at hname
      cases hname

theorem Vouched.processMessage (hnames : clientNames ≠ [])
    (h : Vouched clientNames c past) {env : Env} {msg : Option FssMessage}
    (hhonest : Honest c (.message env msg)) :
    Vouched clientNames (c.processMessage env msg).1
      (past ++ (c.processMessage env msg).2) := by
  have hcases := processMessage_cases env c msg
  generalize c.processMessage env msg = result at hcases
  cases hcases with
  | kept same writes lookups =>
      refine ⟨same.clientNames.trans h.names, fun hidentified => ?_, ?_⟩
      · rw [same.name]
        exact h.name (same.identified ▸ hidentified)
      · intro e he name hname
        rcases List.mem_append.mp he with he | he
        · exact h.writes e he name hname
        · obtain ⟨hidentified, rfl⟩ := writes e he name hname
          exact h.name hidentified
  | accepted unidentified listed same writes lookups =>
      refine ⟨same.clientNames.trans h.names, fun _ => ?_, ?_⟩
      · rw [same.name]
        rw [h.names] at listed
        exact Or.inr (listed.resolve_left hnames)
      · intro e he name hname
        rcases List.mem_append.mp he with he | he
        · exact h.writes e he name hname
        · rw [writes e he] at hname
          cases hname
  | refused unidentified unlisted =>
      refine ⟨h.names, fun hidentified => ?_, ?_⟩
      · rw [unidentified] at hidentified
        cases hidentified
      · intro e he name hname
        rcases List.mem_append.mp he with he | he
        · exact h.writes e he name hname
        · cases List.mem_singleton.mp he
          cases hname
  | nonAircraft unidentified received type =>
      subst received
      refine ⟨h.names, fun _ => ?_, ?_⟩
      · exact h.names ▸ hhonest type unidentified
      · rw [List.append_nil]
        exact h.writes

theorem Vouched.step (hnames : clientNames ≠ []) {e : ClientEvent}
    {next : FssClient} {effects : List Effect}
    (h : Vouched clientNames c past) (hhonest : Honest c e)
    (hstep : FssClient.step c e = some (next, effects)) :
    Vouched clientNames next (past ++ effects) := by
  cases e with
  | message env msg =>
      have hkept := h.processMessage hnames hhonest
      rwa [Option.some.inj hstep] at hkept
  | rttRequest env =>
      have hspec := sendRttRequest_spec env c
      have hkept := h.quiet hspec.1 fun e he => by
        obtain ⟨msg, rfl⟩ := hspec.2 e he
        rfl
      rwa [Option.some.inj hstep] at hkept
  | command env =>
      have hspec := sendCommand_spec env c
      have hkept := h.quiet hspec.1 fun e he => by
        obtain ⟨msg, rfl⟩ := hspec.2 e he
        rfl
      rwa [Option.some.inj hstep] at hkept
  | smmSettings env =>
      have hspec := sendSmmSettings_spec env c
      have hkept := h.quiet hspec.1 fun e he => by
        obtain ⟨msg, rfl⟩ := hspec.2 e he
        rfl
      rwa [Option.some.inj hstep] at hkept

/-- The status report with which an identified client shows its name. -/
def statusEvent (env : Env) : ClientEvent :=
  .message env (some (fssMessageSystemStatus {}))

theorem step_statusEvent (env : Env) (h : c.identified = true) :
    FssClient.step c (statusEvent env) =
      some (c, [.assetAddStatus c.name 0 0 (.finite 0)]) := by
  simp only [FssClient.step, statusEvent, FssClient.processMessage,
    fssMessageSystemStatus, FssClient.processIdentified, h, ↓reduceIte,
    reduceCtorEq]

/-- After a dishonest step a status report is written under a refused
name. -/
theorem step_of_not_honest {e : ClientEvent} (h : ¬ Honest c e) (env : Env) :
    ∃ next written, FssClient.step c e = some (next, []) ∧
      FssClient.step next (statusEvent env) = some (next, [written]) ∧
      ¬ Authentic c.clientNames written := by
  cases e with
  | message env' msg =>
      cases msg with
      | none => exact absurd trivial h
      | some m =>
          simp only [Honest, Classical.not_imp] at h
          obtain ⟨htype, hunidentified, hname⟩ := h
          refine ⟨{ c with identified := true, aircraft := false },
            .assetAddStatus c.name 0 0 (.finite 0), ?_,
            step_statusEvent env rfl, fun h => hname (h c.name rfl)⟩
          simp only [FssClient.step, FssClient.processMessage, htype,
            hunidentified, FssClient.processUnidentified, reduceCtorEq,
            ↓reduceIte, Bool.false_eq_true]
  | _ => exact absurd trivial h

/-- Every run of a client of a certificate: while its steps are honest, all
its telemetry is written under permitted names.  Where one is not, a status
report behind it is written under a refused name. -/
theorem telemetry_authentic_of_honest (hnames : clientNames ≠ [])
    {events : List ClientEvent} {final : FssClient} {effects : List Effect}
    (hrun : run FssClient.step (.start clientNames) events =
      some (final, effects)) :
    (AllSteps FssClient.step Honest (.start clientNames) events →
        ∀ e ∈ effects, Authentic clientNames e) ∧
      (¬ AllSteps FssClient.step Honest (.start clientNames) events →
        ∃ before e after, events = before ++ e :: after ∧
          ∀ env, ∃ final' effects',
            run FssClient.step (.start clientNames)
              (before ++ [e, statusEvent env]) = some (final', effects') ∧
            ∃ written ∈ effects', ¬ Authentic clientNames written) := by
  constructor
  · intro hhonest
    have hfinal : Vouched clientNames final ([] ++ effects) :=
      run_invariant (Vouched clientNames) hrun hhonest
        (vouched_start clientNames) (Vouched.step hnames)
    exact hfinal.writes
  · intro hdishonest
    obtain ⟨before, e, after, middle, early, -, -, -, rfl, -, hbefore, hsteps,
      hbad, -⟩ := exists_first_unguarded hrun hdishonest
    have hmiddle : Vouched clientNames middle ([] ++ early) :=
      run_invariant (Vouched clientNames) hbefore hsteps
        (vouched_start clientNames) (Vouched.step hnames)
    refine ⟨before, e, after, rfl, fun env => ?_⟩
    obtain ⟨next, written, hstep, hstatus, hnot⟩ :=
      step_of_not_honest hbad env
    rw [hmiddle.names] at hnot
    refine ⟨next, early ++ ([] ++ ([written] ++ [])), ?_, written, ?_, hnot⟩
    · refine run_append_eq_some.mpr ⟨middle, early, _, hbefore, ?_, rfl⟩
      refine run_cons_eq_some.mpr ⟨next, [], _, hstep, ?_, rfl⟩
      exact run_cons_eq_some.mpr ⟨next, [written], [], hstatus, rfl, rfl⟩
    · simp

/-- An aircraft of the certificate reports its status. -/
theorem telemetry_authentic_of_honest_listed :
    let events : List ClientEvent :=
      [.message ⟨emptyDb, 0⟩ (some (fssMessageIdentity [65])),
        statusEvent ⟨emptyDb, 0⟩]
    let servers : Effect := .send ((fssMessageServerList []).setId 1)
    let written : Effect := .assetAddStatus [65] 0 0 (.finite 0)
    (AllSteps FssClient.step Honest (.start [[65]]) events →
        ∀ e ∈ [servers, written], Authentic [[65]] e) ∧
      (¬ AllSteps FssClient.step Honest (.start [[65]]) events →
        ∃ before e after, events = before ++ e :: after ∧
          ∀ env, ∃ final' effects',
            run FssClient.step (.start [[65]])
              (before ++ [e, statusEvent env]) = some (final', effects') ∧
            ∃ written ∈ effects', ¬ Authentic [[65]] written) :=
  telemetry_authentic_of_honest (by simp)
    (by rfl : run FssClient.step (.start [[65]]) _ =
      some (⟨[[65]], true, true, [65], [], 0, 0, 1⟩, _))

/-- A client whose certificate says A is refused as B, says it is no aircraft
and reports B's status. -/
theorem not_authentic_refused :
    ¬ ∀ (events : List ClientEvent) (final : FssClient)
      (effects : List Effect),
      run FssClient.step (.start [[65]]) events = some (final, effects) →
        ∀ e ∈ effects, Authentic [[65]] e := by
  intro h
  have hwritten := h
    [.message ⟨emptyDb, 0⟩ (some (fssMessageIdentity [66])),
      .message ⟨emptyDb, 0⟩ (some (fssMessageIdentityNonAircraft 0)),
      statusEvent ⟨emptyDb, 0⟩]
    ⟨[[65]], true, false, [66], [], 0, 0, 0⟩
    [.clientDisconnected, .assetAddStatus [66] 0 0 (.finite 0)] rfl
    (.assetAddStatus [66] 0 0 (.finite 0)) (by simp) [66] rfl
  exact absurd hwritten (by decide)

end FlightSafety.Server
