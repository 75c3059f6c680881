/-
Frames one behind the other.  A receiver that gets both bytes of every length
together walks the stream frame by frame, however the rest of it is split.
-/
import FlightSafety.Transport.FramingSafety

namespace FlightSafety

open Octets ExactDouble

/-- A frame with its padding as it is sent: the length field covers a header
and the bytes are all there. -/
structure WireFrame where
  bytes : Bytes
  long : headerLength ≤ lengthField bytes
  whole : bytes.length = totalLength (lengthField bytes)

namespace WireFrame

/-- The bytes that the decoder is handed. -/
def decoded (f : WireFrame) : BufLen :=
  f.bytes.take (lengthField f.bytes)

/-- What a `recvMsg` call that reads the frame comes to. -/
def outcome (f : WireFrame) : RecvOutcome :=
  .ofDecode (decode f.decoded)

theorem sixteen_le_length (f : WireFrame) : 16 ≤ f.bytes.length := by
  have hlong := f.long
  rw [f.whole]
  unfold headerLength at hlong
  unfold totalLength
  split <;> omega

/-- The stream of a list of frames. -/
def stream (frames : List WireFrame) : Bytes :=
  frames.flatMap bytes

@[simp] theorem stream_cons (f : WireFrame) (rest : List WireFrame) :
    stream (f :: rest) = f.bytes ++ stream rest :=
  rfl

/-- The length field is that of the first frame, whatever follows. -/
theorem lengthField_append (f : WireFrame) (tail : Bytes) :
    lengthField (f.bytes ++ tail) = lengthField f.bytes := by
  have hlong := f.sixteen_le_length
  rw [lengthField, List.take_append_of_le_length (by omega), lengthField]

end WireFrame

namespace Chunked

variable {s : Chunked} {fuel : Nat} {f : WireFrame} {tail : Bytes}

/-- A frame at the head of the stream is read and handed to the decoder, once
its length has come whole. -/
theorem recvMsg_wireFrame (hstream : s.stream = f.bytes ++ tail)
    (hheader : s.headerSize = 2) (hfuel : bodyFuel ≤ fuel) :
    (recvMsg chunked fuel s).outcome = f.outcome ∧
      (recvMsg chunked fuel s).frame = some f.decoded ∧
      (recvMsg chunked fuel s).rest.stream = tail := by
  have hlength : lengthField s.stream = lengthField f.bytes := by
    rw [hstream, f.lengthField_append]
  have hle := le_totalLength (lengthField f.bytes)
  obtain ⟨houtcome, hframe, hrest⟩ := recvMsg_frame hheader
    (hlength ▸ Nat.lt_of_lt_of_le (by decide) f.long)
    (by rw [hlength, hstream, List.length_append, ← f.whole]
        exact Nat.le_add_right _ _)
    hfuel
  rw [hlength, hstream, List.take_append_of_le_length (f.whole ▸ hle)]
    at houtcome hframe
  rw [hlength, hstream, ← f.whole, List.drop_left] at hrest
  exact ⟨houtcome, hframe, hrest⟩

/-- Whatever the fuel, a call that returns has read the frame at the head. -/
theorem recvMsg_wireFrame_of_returned {msg : Option FssMessage}
    (hstream : s.stream = f.bytes ++ tail) (hheader : s.headerSize = 2)
    (hreturned : (recvMsg chunked fuel s).outcome = .returned msg) :
    recvMsg chunked fuel s = recvMsg chunked bodyFuel s := by
  apply recvMsg_eq_of_ended (ended_of_returned hreturned)
  rw [(recvMsg_wireFrame hstream hheader (Nat.le_refl _)).1]
  unfold WireFrame.outcome RecvOutcome.ofDecode
  split <;> exact RecvOutcome.noConfusion

end Chunked

/-! Reads that deliver all they are asked for. -/

theorem recvBody_plan {total fuel : Nat} {data : Bytes} {s : Chunked}
    (hplan : s.plan = []) :
    (recvBody chunked total fuel data s).rest.plan = [] := by
  induction fuel generalizing data s with
  | zero =>
      by_cases hdone : data.length = total
      · rw [recvBody_done hdone]
        exact hplan
      · rw [recvBody_stalled hdone]
        exact hplan
  | succ fuel ih =>
      by_cases hdone : data.length = total
      · rw [recvBody_done hdone]
        exact hplan
      · unfold recvBody
        simp only [hdone, ↓reduceIte]
        split
        · exact ih (by simp [Chunked.afterRead, hplan])
        · exact hplan

theorem Chunked.headerSize_cases (s : Chunked) :
    s.stream = [] ∨ s.headerSize = 1 ∨ s.headerSize = 2 := by
  have hle := s.headerSize_le
  rw [← s.headerSize_eq_zero_iff]
  omega

theorem recvMsg_plan {fuel : Nat} {s : Chunked} (hplan : s.plan = []) :
    (recvMsg chunked fuel s).rest.plan = [] := by
  have hafter : (s.afterRead 2).plan = [] := by
    simp [Chunked.afterRead, hplan]
  rcases s.headerSize_cases with heof | hsplit | hwhole
  · rw [Chunked.recvMsg_eof heof]
    exact hafter
  · rw [Chunked.recvMsg_split hsplit]
    exact hafter
  · rw [Chunked.recvMsg_whole hwhole]
    simpa using recvBody_plan hafter

theorem headerSize_of_plan_nil {s : Chunked} (hplan : s.plan = [])
    (hlong : 2 ≤ s.stream.length) : s.headerSize = 2 := by
  unfold Chunked.headerSize Chunked.readSize
  simp only [hplan]
  exact Nat.min_eq_left hlong

section Sent

variable [Target]

/-- A packed message is a frame. -/
def FssMessage.wireFrame (m : FssMessage) (hfits : m.unpaddedLength < 65536) :
    WireFrame where
  bytes := m.getPacked
  long := by
    rw [m.lengthField_getPacked hfits]
    exact m.headerLength_le_unpaddedLength
  whole := by
    rw [m.lengthField_getPacked hfits, m.getPacked_eq hfits,
      List.length_append, m.length_frame, zeros, List.length_replicate,
      totalLength_eq]

theorem FssMessage.decoded_wireFrame (m : FssMessage)
    (hfits : m.unpaddedLength < 65536) :
    (m.wireFrame hfits).decoded = m.getPacked.take m.unpaddedLength := by
  rw [WireFrame.decoded, wireFrame, m.lengthField_getPacked hfits]

theorem FssMessage.outcome_wireFrame {m : FssMessage} (hm : Constructed m)
    (hfits : m.unpaddedLength < 65536) :
    (m.wireFrame hfits).outcome = .returned m.received := by
  rw [WireFrame.outcome, decoded_wireFrame, take_getPacked m hfits,
    decode_frame hm hfits]
  rfl

theorem recvMsgs_of_packed {messages : List FssMessage}
    (hmessages : ∀ m ∈ messages, Constructed m ∧ m.unpaddedLength ≤ 65535)
    {fuel : Nat} (hfuel : bodyFuel ≤ fuel) {s : Chunked}
    (hstream : s.stream = messages.flatMap FssMessage.getPacked)
    (hplan : s.plan = []) :
    (recvMsgs chunked fuel messages.length s).1.map RecvRun.frame =
        messages.map (fun m => some (m.getPacked.take m.unpaddedLength)) ∧
      (recvMsgs chunked fuel messages.length s).1.map RecvRun.outcome =
        messages.map (fun m => .returned m.received) ∧
      (recvMsgs chunked fuel messages.length s).2.stream = [] := by
  induction messages generalizing s with
  | nil => exact ⟨rfl, rfl, hstream⟩
  | cons m rest ih =>
      obtain ⟨hm, hle⟩ := hmessages m List.mem_cons_self
      have hfits : m.unpaddedLength < 65536 := Nat.lt_succ_of_le hle
      have hhead : s.stream = (m.wireFrame hfits).bytes ++
          rest.flatMap FssMessage.getPacked := hstream
      have hlong := (m.wireFrame hfits).sixteen_le_length
      have hheader : s.headerSize = 2 := headerSize_of_plan_nil hplan (by
        rw [hhead, List.length_append]
        exact Nat.le_trans (by decide)
          (Nat.le_trans hlong (Nat.le_add_right _ _)))
      obtain ⟨houtcome, hframe, hrest⟩ :=
        Chunked.recvMsg_wireFrame hhead hheader hfuel
      rw [FssMessage.outcome_wireFrame hm hfits] at houtcome
      rw [FssMessage.decoded_wireFrame m hfits] at hframe
      obtain ⟨hframes, houtcomes, hleft⟩ := ih
        (fun m' hm' => hmessages m' (List.mem_cons_of_mem m hm'))
        hrest (recvMsg_plan hplan)
      simp only [List.length_cons, recvMsgs, houtcome, List.map_cons, hframe,
        hframes, houtcomes, hleft, and_self]

/-- Reading back a stream of packed messages: one frame for each, in order,
with nothing left. -/
theorem recvMsgs_getPacked (messages : List FssMessage)
    (hmessages : ∀ m ∈ messages, Constructed m ∧ m.unpaddedLength ≤ 65535)
    {fuel : Nat} (hfuel : bodyFuel ≤ fuel) (errnoBadf : Bool) :
    let run := recvMsgs chunked fuel messages.length
      ⟨messages.flatMap FssMessage.getPacked, [], errnoBadf⟩
    run.1.map RecvRun.frame =
        messages.map (fun m => some (m.getPacked.take m.unpaddedLength)) ∧
      run.1.map RecvRun.outcome =
        messages.map (fun m => .returned m.received) ∧
      run.2.stream = [] :=
  recvMsgs_of_packed hmessages hfuel rfl rfl

end Sent

/-- A request and its response on one stream. -/
theorem recvMsgs_getPacked_rtt :
    let messages := [fssMessageRttRequest.setId 7, fssMessageRttResponse 7]
    let run := recvMsgs chunked bodyFuel messages.length
      ⟨messages.flatMap (@FssMessage.getPacked Target.indefinite), [], false⟩
    run.1.map RecvRun.frame =
        messages.map (fun m =>
          some ((@FssMessage.getPacked Target.indefinite m).take
            (@FssMessage.unpaddedLength Target.indefinite m))) ∧
      run.1.map RecvRun.outcome =
        messages.map (fun m =>
          .returned (@FssMessage.received Target.indefinite m)) ∧
      run.2.stream = [] := by
  refine @recvMsgs_getPacked Target.indefinite
    [fssMessageRttRequest.setId 7, fssMessageRttResponse 7] ?_ bodyFuel
    (Nat.le_refl _) false
  intro m hm
  rcases List.mem_cons.mp hm with rfl | hm
  · exact ⟨.setId 7 .rttRequest, by decide⟩
  · cases List.mem_singleton.mp hm
    exact ⟨.rttResponse 7, by decide⟩

end FlightSafety
