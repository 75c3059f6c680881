/-
Sending a message.  Lengths are cut to 16 bits on the way into the buffer, and
no check looks at what was cut.
-/
import FlightSafety.Transport.RoundTrip

namespace FlightSafety

open Octets ExactDouble

/-- What is behind `send`: how many of the bytes offered were accepted, or an
error. -/
structure Sender (σ : Type) where
  send : σ → Bytes → Option Nat × σ

/-- A `sendMsg` call: its result, if it came to one, and the bytes that were
accepted. -/
structure SendRun (σ : Type) where
  result : Option Bool
  transmitted : Bytes
  rest : σ

/-- The loop of `sendMsg` over a buffer, with the part that is still to be
sent.  It has no bound in the source and runs on fuel here. -/
def sendBytes {σ : Type} (t : Sender σ) (fuel : Nat) (data : Bytes) (s : σ) :
    SendRun σ :=
  if data = [] then ⟨some true, [], s⟩
  else match fuel with
    | 0 => ⟨none, [], s⟩
    | fuel + 1 =>
        match t.send s data with
        | (none, s) => ⟨some false, [], s⟩
        | (some transfered, s) =>
            let run := sendBytes t fuel (data.drop transfered) s
            { run with transmitted := data.take transfered ++ run.transmitted }

/-- The part of a connection that sending uses. -/
structure FssConnection (σ : Type) where
  lastMsgId : UInt64
  socket : σ

/-- The next message id, and the connection that has given it out. -/
def FssConnection.getMessageId {σ : Type} (c : FssConnection σ) :
    UInt64 × FssConnection σ :=
  (c.lastMsgId + 1, { c with lastMsgId := c.lastMsgId + 1 })

def sendMsg {σ : Type} [Target] (t : Sender σ) (fuel : Nat)
    (c : FssConnection σ) (msg : FssMessage) : SendRun (FssConnection σ) :=
  let (id, c) := c.getMessageId
  let bl := (msg.setId id).getPacked
  if bl.isValid then
    let run := sendBytes t fuel bl c.socket
    ⟨run.result, run.transmitted, { c with socket := run.rest }⟩
  else ⟨some false, [], c⟩

/-- A sender that accepts all it is offered. -/
def acceptAll : Sender Unit where
  send _ data := (some data.length, ())

/-- The bytes of a message before its padding, had none been cut off. -/
def FssMessage.trueLength [Target] (m : FssMessage) : Nat :=
  headerLength + (m.body.payload uncut headerLength).length

/-- A frame that carries every byte of a message's payload and a length field
that counts them. -/
def Carries [Target] (frame : Bytes) (m : FssMessage) : Prop :=
  lengthField frame = m.trueLength ∧
    ∃ padding, frame.drop headerLength =
      m.body.payload uncut headerLength ++ padding

theorem sendBytes_of_true {σ : Type} {t : Sender σ} {fuel : Nat} {data : Bytes}
    {s : σ} (h : (sendBytes t fuel data s).result = some true) :
    (sendBytes t fuel data s).transmitted = data := by
  induction fuel generalizing data s with
  | zero =>
      unfold sendBytes at h ⊢
      by_cases hdone : data = []
      · simp [hdone]
      · simp only [hdone, ↓reduceIte] at h
        cases h
  | succ fuel ih =>
      unfold sendBytes at h ⊢
      by_cases hdone : data = []
      · simp [hdone]
      · simp only [hdone, ↓reduceIte] at h ⊢
        rcases hsend : t.send s data with ⟨_ | transfered, s'⟩
        · simp only [hsend] at h
          cases h
        · simp only [hsend] at h
          simp only [ih h, List.take_append_drop]

theorem sendBytes_acceptAll (data : Bytes) :
    sendBytes acceptAll 1 data () = ⟨some true, data, ()⟩ := by
  unfold sendBytes
  by_cases hdone : data = []
  · simp [hdone]
  · simp [hdone, acceptAll, sendBytes]

/-! Where nothing is cut. -/

theorem cut16_of_lt {block : Bytes} (h : block.length < 65536) :
    cut16 block = block := by
  rw [cut16, Nat.mod_eq_of_lt h, List.take_length]

theorem stringField_of_lt {start : Nat} {val : Bytes}
    (h : (stringField uncut start val).length < 65536) :
    stringField cut16 start val = stringField uncut start val := by
  have hval : val.length < 65536 := by
    rw [length_stringField, uncut] at h
    omega
  rw [stringField, stringField, cut16_of_lt hval]

theorem serverFields_of_lt {start : Nat} {servers : List (Bytes × UInt16)}
    (h : (serverFields uncut start servers).length < 65536) :
    serverFields cut16 start servers = serverFields uncut start servers := by
  induction servers generalizing start with
  | nil => rfl
  | cons server rest ih =>
      simp only [serverFields, List.length_append, length_bigEndian] at h ⊢
      rw [stringField_of_lt (by omega), ih (by omega)]

theorem SmmSettings.payload_of_lt {start : Nat} {s : SmmSettings}
    (h : (s.payload uncut start).length < 65536) :
    s.payload cut16 start = s.payload uncut start := by
  simp only [payload, List.length_append] at h ⊢
  rw [stringField_of_lt (by omega)]
  rw [stringField_of_lt (by omega)]
  rw [stringField_of_lt (by omega)]

theorem FssMessageBody.payload_of_lt [Target] {start : Nat} {body : FssMessageBody}
    (h : (body.payload uncut start).length < 65536) :
    body.payload cut16 start = body.payload uncut start := by
  cases body with
  | identity name => exact cut16_of_lt h
  | positionReport report =>
      simp only [payload, PositionReport.payload, List.length_append] at h ⊢
      rw [stringField_of_lt (by omega)]
  | smmSettings settings => exact settings.payload_of_lt h
  | serverList servers => exact serverFields_of_lt h
  | _ => rfl

theorem FssMessage.payload_of_fits [Target] {m : FssMessage}
    (hfits : m.trueLength ≤ 65535) : m.body.payload cut16 headerLength =
      m.body.payload uncut headerLength :=
  FssMessageBody.payload_of_lt
    (Nat.lt_of_le_of_lt (Nat.le_add_left _ _) (Nat.lt_succ_of_le hfits))

theorem FssMessage.unpaddedLength_of_fits [Target] {m : FssMessage}
    (hfits : m.trueLength ≤ 65535) : m.unpaddedLength = m.trueLength := by
  rw [m.unpaddedLength_eq, payload_of_fits hfits, trueLength]

theorem FssMessage.unpaddedLength_lt [Target] {m : FssMessage}
    (hfits : m.trueLength ≤ 65535) : m.unpaddedLength < 65536 := by
  rw [unpaddedLength_of_fits hfits]
  exact Nat.lt_succ_of_le hfits

/-- A message that fits a frame is packed into one that carries it. -/
theorem carries_getPacked [Target] {m : FssMessage}
    (hfits : m.trueLength ≤ 65535) : Carries m.getPacked m := by
  have hlength := FssMessage.unpaddedLength_of_fits hfits
  have hlt := FssMessage.unpaddedLength_lt hfits
  refine ⟨(m.lengthField_getPacked hlt).trans hlength, ?_⟩
  have hframe := m.frame_holds (zeros (framePadding m.unpaddedLength))
  refine ⟨zeros (framePadding m.unpaddedLength), ?_⟩
  rw [m.getPacked_eq hlt, hframe.drop_eq, FssMessage.payload_of_fits hfits]

/-- No frame carries a message that does not fit one. -/
theorem not_carries [Target] {m : FssMessage} (hlong : 65535 < m.trueLength)
    (frame : Bytes) : ¬ Carries frame m := by
  rintro ⟨hlength, _⟩
  have hlt := lengthField_lt frame
  omega

/-- Writing the length and the padding takes nothing away. -/
theorem length_le_updateSize {bl : BufLen} (h : 2 ≤ bl.length) :
    bl.length ≤ (updateSize bl).length := by
  simp only [updateSize, BufLen.addData]
  split
  · rw [List.length_append, length_bigEndian, List.length_drop]
    split
    · rw [List.length_append]
      omega
    · omega
  · exact Nat.le_refl _

/-- The test for an empty buffer refuses no message: each has a header. -/
theorem isValid_getPacked [Target] (m : FssMessage) :
    m.getPacked.isValid = true := by
  have hheader := m.headerLength_le_unpaddedLength
  have hlong : 2 ≤ m.unpaddedLength := Nat.le_trans (by decide) hheader
  have hpacked : m.unpaddedLength ≤ m.getPacked.length :=
    length_le_updateSize hlong
  rw [BufLen.isValid, BufLen.getLength, bne_iff_ne, ne_eq]
  exact Nat.ne_of_gt (Nat.lt_of_lt_of_le (Nat.lt_of_lt_of_le (by decide) hlong)
    hpacked)

theorem sendMsg_eq [Target] {σ : Type} (t : Sender σ) (fuel : Nat)
    (c : FssConnection σ) (msg : FssMessage) :
    sendMsg t fuel c msg =
      let run := sendBytes t fuel (msg.setId (c.lastMsgId + 1)).getPacked
        c.socket
      ⟨run.result, run.transmitted, ⟨c.lastMsgId + 1, run.rest⟩⟩ := by
  simp only [sendMsg, FssConnection.getMessageId, isValid_getPacked,
    ↓reduceIte]

/-- A message that does not fit is transmitted in part, by a sender that
accepts all it is offered, and not refused. -/
theorem not_carries_of_long [Target] {msg : FssMessage}
    (hlong : 65535 < msg.trueLength) :
    (sendMsg acceptAll 1 ⟨0, ()⟩ msg).result = some true ∧
      ¬ Carries (sendMsg acceptAll 1 ⟨0, ()⟩ msg).transmitted msg := by
  refine ⟨?_, not_carries hlong _⟩
  rw [sendMsg_eq, sendBytes_acceptAll]

/-- Whatever the connection does with the bytes, a message is refused or
carried by what is transmitted exactly when it fits a frame. -/
theorem sendMsg_carries_iff [Target] (msg : FssMessage) :
    (∀ (σ : Type) (t : Sender σ) (fuel : Nat) (c : FssConnection σ),
      (sendMsg t fuel c msg).result = some true →
        Carries (sendMsg t fuel c msg).transmitted msg) ↔
      msg.trueLength ≤ 65535 := by
  constructor
  · intro h
    by_contra hlong
    obtain ⟨htrue, hnot⟩ := not_carries_of_long (Nat.not_le.mp hlong)
    exact hnot (h Unit acceptAll 1 ⟨0, ()⟩ htrue)
  · intro hfits σ t fuel c htrue
    have hid : (msg.setId (c.lastMsgId + 1)).trueLength ≤ 65535 := hfits
    rw [sendMsg_eq] at htrue ⊢
    simp only [sendBytes_of_true htrue]
    exact carries_getPacked hid

theorem trueLength_identity [Target] (name : Bytes) :
    (fssMessageIdentity name).trueLength = headerLength + name.length :=
  rfl

/-- An identity of 65536 bytes is sent with none of them. -/
theorem not_carries_longIdentity :
    let msg := fssMessageIdentity (zeros 65536)
    let sent := @sendMsg Unit Target.indefinite acceptAll 1 ⟨0, ()⟩ msg
    sent.result = some true ∧
      ¬ @Carries Target.indefinite sent.transmitted msg := by
  refine @not_carries_of_long Target.indefinite _ ?_
  rw [@trueLength_identity Target.indefinite, zeros, List.length_replicate]
  decide

end FlightSafety
