/-
One connection between a server and an asset, as a system of two parties.  The
server's threads and the asset's work on their own; what one sends is on its
way, in order, until it is handed on to the other.  How an end hands it on is
left to the threads of that end.
-/
import FlightSafety.Client.Asset
import FlightSafety.Server.RttSound

namespace FlightSafety

open Octets ExactDouble Machine Server Client

/-- The two parties, and the messages on their way from the server and from
the asset. -/
structure Session where
  server : RttState
  asset : Asset
  down : List FssMessage := []
  up : List FssMessage := []

inductive SessionOut where
  | server (o : Made)
  | asset (e : AssetEffect)

/-- The work of the server's threads, its receive loop's next message, and the
same for the asset; `send` is any other code of the asset that sends. -/
inductive SessionEvent where
  | server (e : RttEvent)
  | serverReceives (env : Env)
  | assetReceives
  | setHandler
  | sendIdentify
  | send (msg : FssMessage)

namespace Session

/-- A connection that has just been made. -/
def start (clientNames : List Bytes) (assetName : Bytes) : Session where
  server := .start clientNames
  asset := { assetName := assetName }

/-- What the server has sent is on its way. -/
def served (s : Session) (worked : RttState × List Made) :
    Session × List SessionOut :=
  ({ s with server := worked.1, down := s.down ++ sentMsgs worked.2 },
    worked.2.map .server)

/-- What the asset has sent is on its way. -/
def acted (s : Session) (worked : Asset × List AssetEffect) :
    Session × List SessionOut :=
  ({ s with
    asset := worked.1
    up := s.up ++ worked.2.filterMap AssetEffect.sent? },
    worked.2.map .asset)

/-- Every message on its way fits its frame, so that it arrives as `received`
has it. -/
def Fits [Target] (s : Session) : Prop :=
  ∀ m ∈ s.down ++ s.up, m.unpaddedLength < 65536

instance [Target] (s : Session) : Decidable s.Fits :=
  List.decidableBAll _ _

def attempt [Target] : Step Session SessionEvent SessionOut
  | _, .server (.message _ _) => none
  | s, .server e => (s.server.step e).map s.served
  | s, .serverReceives env =>
      match s.up with
      | [] => none
      | m :: up =>
          (s.server.step (.message env m.received)).map
            { s with up := up }.served
  | s, .assetReceives =>
      match s.asset.stage, s.down with
      | .connected, _ => none
      | _, [] => none
      | _, m :: down =>
          some ({ s with down := down }.acted
            (s.asset.processMessage m.received))
  | s, .setHandler =>
      match s.asset.stage with
      | .connected =>
          some ({ s with asset := { s.asset with stage := .handled } }, [])
      | _ => none
  | s, .sendIdentify =>
      match s.asset.stage with
      | .handled =>
          some (s.acted { s.asset with stage := .identified }.sendIdentify)
      | _ => none
  | s, .send msg =>
      match s.asset.stage with
      | .identified => some (s.acted (s.asset.sendMsg msg))
      | _ => none

/-- A frame that is too long would break the framing of those behind it, so
there is no step that sends one. -/
def step [Target] : Step Session SessionEvent SessionOut :=
  fun s e => (s.attempt e).filter (·.1.Fits)

/-- All that a step can be. -/
inductive Taken [Target] (s : Session) :
    SessionEvent → Session × List SessionOut → Prop where
  | server {e : RttEvent} {next : RttState} {out : List Made}
      (works : s.server.step e = some (next, out))
      (elsewhere : ∀ env msg, e ≠ .message env msg) :
      Taken s (.server e) (s.served (next, out))
  | serverReceives {env : Env} {m : FssMessage} {up : List FssMessage}
      {next : RttState} {out : List Made} (first : s.up = m :: up)
      (works : s.server.step (.message env m.received) = some (next, out)) :
      Taken s (.serverReceives env) ({ s with up := up }.served (next, out))
  | assetReceives {m : FssMessage} {down : List FssMessage}
      (ready : s.asset.stage ≠ .connected) (first : s.down = m :: down) :
      Taken s .assetReceives ({ s with down := down }.acted
        (s.asset.processMessage m.received))
  | setHandler (unready : s.asset.stage = .connected) :
      Taken s .setHandler
        ({ s with asset := { s.asset with stage := .handled } }, [])
  | sendIdentify (ready : s.asset.stage = .handled) :
      Taken s .sendIdentify
        (s.acted { s.asset with stage := .identified }.sendIdentify)
  | send {msg : FssMessage} (ready : s.asset.stage = .identified) :
      Taken s (.send msg) (s.acted (s.asset.sendMsg msg))

theorem fits_of_step [Target] {s next : Session} {e : SessionEvent}
    {out : List SessionOut} (h : step s e = some (next, out)) : next.Fits :=
  of_decide_eq_true (Option.filter_eq_some_iff.mp h).2

theorem taken_of_step [Target] {s next : Session} {e : SessionEvent}
    {out : List SessionOut} (h : step s e = some (next, out)) :
    Taken s e (next, out) := by
  replace h : attempt s e = some (next, out) :=
    (Option.filter_eq_some_iff.mp h).1
  cases e with
  | server e =>
      have hmap : (∀ env msg, e ≠ .message env msg) ∧
          (s.server.step e).map s.served = some (next, out) := by
        cases e with
        | message env msg => cases h
        | _ => exact ⟨by simp, h⟩
      obtain ⟨⟨server, made⟩, hworks, hserved⟩ := Option.map_eq_some_iff.mp hmap.2
      rw [← hserved]
      exact .server hworks hmap.1
  | serverReceives env =>
      simp only [attempt] at h
      split at h
      · cases h
      next m up hup =>
        obtain ⟨⟨server, made⟩, hworks, hserved⟩ := Option.map_eq_some_iff.mp h
        rw [← hserved]
        exact .serverReceives hup hworks
  | assetReceives =>
      simp only [attempt] at h
      split at h
      · cases h
      · cases h
      next hdown hready =>
        cases h
        exact .assetReceives hready hdown
  | setHandler =>
      simp only [attempt] at h
      split at h
      · cases h
        exact .setHandler ‹_›
      · cases h
  | sendIdentify =>
      simp only [attempt] at h
      split at h
      · rw [← Option.some.inj h]
        exact .sendIdentify ‹_›
      · cases h
  | send msg =>
      simp only [attempt] at h
      split at h
      · rw [← Option.some.inj h]
        exact .send ‹_›
      · cases h

end Session

/-! What can be seen of a session. -/

/-- The server's part. -/
def made (outs : List SessionOut) : List Made :=
  outs.filterMap fun
    | .server o => some o
    | .asset _ => none

/-- The asset's part. -/
def done (outs : List SessionOut) : List AssetEffect :=
  outs.filterMap fun
    | .asset e => some e
    | .server _ => none

/-- The messages the asset has sent. -/
def assetSent (outs : List SessionOut) : List FssMessage :=
  (done outs).filterMap AssetEffect.sent?

/-- What the asset has handled. -/
def handled (outs : List SessionOut) : List AssetEffect :=
  (done outs).filter fun e => e.sent?.isNone

@[simp] theorem made_append (first second : List SessionOut) :
    made (first ++ second) = made first ++ made second :=
  List.filterMap_append

@[simp] theorem assetSent_append (first second : List SessionOut) :
    assetSent (first ++ second) = assetSent first ++ assetSent second := by
  simp [assetSent, done]

@[simp] theorem handled_append (first second : List SessionOut) :
    handled (first ++ second) = handled first ++ handled second := by
  simp [handled, done]

@[simp] theorem made_server (out : List Made) :
    made (out.map SessionOut.server) = out := by
  simp [made, List.filterMap_map]

@[simp] theorem made_asset (effects : List AssetEffect) :
    made (effects.map SessionOut.asset) = [] := by
  simp [made, List.filterMap_map]

@[simp] theorem done_asset (effects : List AssetEffect) :
    done (effects.map SessionOut.asset) = effects := by
  simp [done, List.filterMap_map]

@[simp] theorem done_server (out : List Made) :
    done (out.map SessionOut.server) = [] := by
  simp [done, List.filterMap_map]

@[simp] theorem assetSent_server (out : List Made) :
    assetSent (out.map SessionOut.server) = [] := by
  simp [assetSent]

theorem assetSent_asset (effects : List AssetEffect) :
    assetSent (effects.map SessionOut.asset) =
      effects.filterMap AssetEffect.sent? := by
  rw [assetSent, done_asset]

theorem handled_asset (effects : List AssetEffect) :
    handled (effects.map SessionOut.asset) =
      effects.filter (fun e => e.sent?.isNone) := by
  rw [handled, done_asset]

@[simp] theorem handled_server (out : List Made) :
    handled (out.map SessionOut.server) = [] := by
  simp [handled]

end FlightSafety
