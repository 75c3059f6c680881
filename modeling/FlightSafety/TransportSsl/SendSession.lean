/-
Sending a packed message over TLS.  The plain connection calls `send` until
everything is accepted; a TLS connection calls it once and looks neither at
the result nor at what was thrown.
-/
import Mathlib.Data.List.TakeDrop
import FlightSafety.Transport.Send

namespace FlightSafety.TransportSsl

open Octets

/-- What comes of one `send` on a TLS session. -/
inductive SendOutcome where
  | accepted (count : Nat)
  | negative
  | exception
deriving Repr, DecidableEq

/-- A TLS session as `sendSessionMsg` uses it. -/
structure Session (σ : Type) where
  send : σ → Bytes → SendOutcome × σ

/-- The bytes of a buffer that a call took over. -/
def SendOutcome.taken (data : Bytes) : SendOutcome → Bytes
  | .accepted count => data.take count
  | .negative | .exception => []

/-- The part of a TLS connection that sending uses. -/
structure FssConnection (σ : Type) where
  usable : Bool
  session : σ

def sendSessionMsg {σ : Type} (t : Session σ) (c : FssConnection σ)
    (bl : BufLen) : SendRun (FssConnection σ) :=
  if !c.usable then ⟨some false, [], c⟩
  else
    -- a negative result is dropped like any other, an exception is logged
    let (outcome, session) := t.send c.session bl
    ⟨some true, outcome.taken bl, { c with session }⟩

/-- `fss_connection_client::sendMsg`. -/
def clientSendMsg {σ : Type} (t : Session σ) (c : FssConnection σ)
    (bl : BufLen) : SendRun (FssConnection σ) :=
  sendSessionMsg t c bl

/-- `fss_connection_server::sendMsg`. -/
def serverSendMsg {σ : Type} (t : Session σ) (c : FssConnection σ)
    (bl : BufLen) : SendRun (FssConnection σ) :=
  sendSessionMsg t c bl

/-- If a call returns true, the bytes that were accepted are the buffer's. -/
def SendsWhole {σ : Type} (bl : BufLen) (run : SendRun σ) : Prop :=
  run.result = some true → run.transmitted = bl

/-- The one call that a usable connection makes, for a buffer with any bytes,
takes over all of them. -/
def TakesWhole {σ : Type} (t : Session σ) (c : FssConnection σ)
    (bl : BufLen) : Prop :=
  c.usable = true → bl ≠ [] →
    ∃ count session, t.send c.session bl = (.accepted count, session) ∧
      bl.length ≤ count

theorem SendOutcome.taken_eq_iff {data : Bytes} (hdata : data ≠ [])
    (outcome : SendOutcome) : outcome.taken data = data ↔
      ∃ count, outcome = .accepted count ∧ data.length ≤ count := by
  cases outcome with
  | accepted count =>
      rw [taken, List.take_eq_self_iff]
      constructor
      · intro hcount
        exact ⟨count, rfl, hcount⟩
      · rintro ⟨_, hsame, hcount⟩
        cases hsame
        exact hcount
  | negative | exception =>
      constructor
      · intro hnone
        exact absurd hnone.symm hdata
      · rintro ⟨_, hsame, _⟩
        cases hsame

theorem SendOutcome.taken_nil (outcome : SendOutcome) :
    outcome.taken [] = [] := by
  cases outcome with
  | accepted count => exact List.take_nil
  | negative | exception => rfl

theorem sendSessionMsg_sendsWhole_iff {σ : Type} (t : Session σ)
    (c : FssConnection σ) (bl : BufLen) :
    SendsWhole bl (sendSessionMsg t c bl) ↔ TakesWhole t c bl := by
  unfold SendsWhole TakesWhole sendSessionMsg
  cases husable : c.usable with
  | false => simp
  | true =>
      rcases houtcome : t.send c.session bl with ⟨outcome, session⟩
      simp only [Bool.not_true, Bool.false_eq_true, ↓reduceIte, forall_const]
      by_cases hempty : bl = []
      · simp [hempty, SendOutcome.taken_nil]
      · rw [outcome.taken_eq_iff hempty]
        simp [hempty]

/-- The plain connection sends the whole buffer whenever it says so; either
TLS connection does exactly if the call it makes takes over the whole
buffer. -/
theorem sendMsg_sendsWhole (bl : BufLen) :
    (∀ (σ : Type) (t : Sender σ) (fuel : Nat) (s : σ),
      SendsWhole bl (sendBytes t fuel bl s)) ∧
    ∀ (σ : Type) (t : Session σ) (c : FssConnection σ),
      (SendsWhole bl (clientSendMsg t c bl) ↔ TakesWhole t c bl) ∧
      (SendsWhole bl (serverSendMsg t c bl) ↔ TakesWhole t c bl) := by
  refine ⟨fun σ t fuel s htrue => sendBytes_of_true htrue, fun σ t c => ?_⟩
  exact ⟨sendSessionMsg_sendsWhole_iff t c bl,
    sendSessionMsg_sendsWhole_iff t c bl⟩

/-- A session whose peer has gone. -/
def brokenSession : Session Unit where
  send _ _ := (.exception, ())

/-- A frame that is not sent at all counts as sent. -/
theorem not_sendsWhole_exception :
    ¬ SendsWhole [0, 12, 0, 3, 0, 0, 0, 0, 0, 0, 0, 1]
      (clientSendMsg brokenSession ⟨true, ()⟩
        [0, 12, 0, 3, 0, 0, 0, 0, 0, 0, 0, 1]) := by
  intro hwhole
  cases hwhole rfl

end FlightSafety.TransportSsl
