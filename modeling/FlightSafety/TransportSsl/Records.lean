/-
Messages over a TLS connection.  A message is sent in one call, which takes no
more than one record holds of it, and the rest of it is never sent.  The
receiver asks for the two bytes of a length and then for what is missing of
the frame, and each call brings bytes of one record.
-/
import FlightSafety.Transport.FrameStream
import FlightSafety.TransportSsl.SendSession
import Mathlib.Algebra.Order.BigOperators.Group.List

namespace FlightSafety.TransportSsl

open Octets ExactDouble

/-- What comes of one `recv` on a TLS session.  No bytes mean that the peer
has closed it. -/
inductive RecvSessionOutcome where
  | received (bytes : Bytes)
  | exception
deriving Repr, DecidableEq

/-- A TLS session as `recvSessionBytes` uses it. -/
structure Receiver (σ : Type) where
  recv : σ → Nat → RecvSessionOutcome × σ
  errnoBadf : σ → Bool
  bounded : ∀ {s s' : σ} {count : Nat} {bytes : Bytes},
    recv s count = (.received bytes, s') → bytes.length ≤ count

def recvSessionBytes {σ : Type} (t : Receiver σ) (c : FssConnection σ)
    (count : Nat) : RecvResult × FssConnection σ :=
  if !c.usable then (.failed, c)
  else
    match t.recv c.session count with
    | (.received bytes, session) => (.received bytes, { c with session })
    | (.exception, session) => (.failed, { c with session })

theorem recvSessionBytes_bounded {σ : Type} {t : Receiver σ}
    {c c' : FssConnection σ} {count : Nat} {bytes : Bytes}
    (h : recvSessionBytes t c count = (.received bytes, c')) :
    bytes.length ≤ count := by
  unfold recvSessionBytes at h
  split at h
  · cases h
  · split at h
    · next hrecv =>
        cases h
        exact t.bounded hrecv
    · cases h

/-- What `recvMsg` reads from on a TLS connection. -/
def Receiver.transport {σ : Type} (t : Receiver σ) :
    Transport (FssConnection σ) where
  recvBytes := recvSessionBytes t
  errnoBadf c := t.errnoBadf c.session
  bounded := recvSessionBytes_bounded

/-- Messages sent one after the other, with what each call returned. -/
def sendAll {σ : Type} [Target] (t : Session σ) :
    List FssMessage → FssConnection σ → List (Option Bool) × FssConnection σ
  | [], c => ([], c)
  | m :: messages, c =>
      let run := sendSessionMsg t c m.getPacked
      let (results, c) := sendAll t messages run.rest
      (run.result :: results, c)

/-- What the library says of the two ends of a session: a call sends one
record of at most `limit` bytes, and the other end gets what it asks for of
the oldest record, or what there is left of that record.  When there is none
the session has been closed. -/
structure RecordLayer {σ : Type} (sender : Session σ) (receiver : Receiver σ)
    (limit : Nat) where
  /-- What is left of the records that have not been received. -/
  records : σ → List Bytes
  send : ∀ s data, data ≠ [] →
    ∃ s', sender.send s data = (.accepted (min limit data.length), s') ∧
      records s' = records s ++ [data.take limit]
  recv : ∀ s count record rest, records s = record :: rest →
    ∃ s', receiver.recv s count = (.received (record.take count), s') ∧
      records s' =
        if record.length ≤ count then rest else record.drop count :: rest
  closed : ∀ s count, records s = [] →
    ∃ outcome s', receiver.recv s count = (outcome, s') ∧ records s' = [] ∧
      (outcome = .exception ∨ outcome = .received [])

namespace RecordLayer

variable {σ : Type} {sender : Session σ} {receiver : Receiver σ} {limit : Nat}

theorem sendAll_records [Target] (layer : RecordLayer sender receiver limit)
    {messages : List FssMessage}
    (hmessages : ∀ m ∈ messages, m.getPacked ≠ []) (s : σ) :
    ∃ s', sendAll sender messages ⟨true, s⟩ =
        (messages.map fun _ => some true, ⟨true, s'⟩) ∧
      layer.records s' = layer.records s ++
        messages.map fun m => m.getPacked.take limit := by
  induction messages generalizing s with
  | nil => exact ⟨s, rfl, (List.append_nil _).symm⟩
  | cons m messages ih =>
      obtain ⟨hm, hrest⟩ := List.forall_mem_cons.mp hmessages
      obtain ⟨middle, hsend, hrecords⟩ := layer.send s m.getPacked hm
      obtain ⟨s', hlater, hall⟩ := ih hrest middle
      refine ⟨s', ?_, ?_⟩
      · simp only [sendAll, sendSessionMsg, hsend, hlater, Bool.not_true,
          Bool.false_eq_true, ↓reduceIte, List.map_cons]
      · rw [hall, hrecords, List.append_assoc]
        rfl

/-- A call gets what it asks for of the oldest record. -/
theorem recvBytes_record (layer : RecordLayer sender receiver limit)
    {record : Bytes} {rest : List Bytes} {s : σ}
    (hrecords : layer.records s = record :: rest) (count : Nat) :
    ∃ s', receiver.transport.recvBytes ⟨true, s⟩ count =
        (.received (record.take count), ⟨true, s'⟩) ∧
      layer.records s' =
        if record.length ≤ count then rest else record.drop count :: rest := by
  obtain ⟨s', hrecv, hleft⟩ := layer.recv s count record rest hrecords
  refine ⟨s', ?_, hleft⟩
  simp [Receiver.transport, recvSessionBytes, hrecv]

/-- A record that is a whole frame is received as that frame. -/
theorem recvMsg_record (layer : RecordLayer sender receiver limit)
    {f : WireFrame} {rest : List Bytes} {s : σ}
    (hrecords : layer.records s = f.bytes :: rest) {fuel : Nat}
    (hfuel : 0 < fuel) :
    ∃ s', layer.records s' = rest ∧
      (recvMsg receiver.transport fuel ⟨true, s⟩).outcome = f.outcome ∧
      (recvMsg receiver.transport fuel ⟨true, s⟩).frame = some f.decoded ∧
      (recvMsg receiver.transport fuel ⟨true, s⟩).rest = ⟨true, s'⟩ := by
  have hlong := f.sixteen_le_length
  have htotal : totalLength (lengthField f.bytes) ≤ bodyFuel :=
    totalLength_le (lengthField_lt f.bytes)
  have hheader : (f.bytes.take 2).length = 2 :=
    List.length_take_of_le (by omega)
  obtain ⟨fuel, rfl⟩ : ∃ k, fuel = k + 1 :=
    ⟨fuel - 1, (Nat.sub_add_cancel hfuel).symm⟩
  obtain ⟨middle, hfirst, hmiddle⟩ := layer.recvBytes_record hrecords 2
  rw [if_neg (by omega)] at hmiddle
  obtain ⟨s', hsecond, hrest⟩ := layer.recvBytes_record hmiddle
    (totalLength (lengthField f.bytes) - (f.bytes.take 2).length)
  have hall : (f.bytes.drop 2).length ≤
      totalLength (lengthField f.bytes) - (f.bytes.take 2).length := by
    rw [← f.whole, List.length_drop, hheader]
  rw [if_pos hall] at hrest
  rw [List.take_of_length_le hall] at hsecond
  have hbody : recvBody receiver.transport (totalLength (lengthField f.bytes))
      (fuel + 1) (f.bytes.take 2) ⟨true, middle⟩ =
        ⟨.complete f.bytes,
          [missingCall (totalLength (lengthField f.bytes)) (f.bytes.take 2)],
          ⟨true, s'⟩⟩ := by
    rw [recvBody_round (by rw [hheader, ← f.whole]; omega) htotal, hsecond]
    simp only [List.take_append_drop]
    rw [recvBody_done f.whole]
  refine ⟨s', hrest, ?_⟩
  have hrun : recvMsg receiver.transport (fuel + 1) ⟨true, s⟩ =
      ⟨f.outcome, [headerCall,
        missingCall (totalLength (lengthField f.bytes)) (f.bytes.take 2)],
        some f.decoded, ⟨true, s'⟩⟩ := by
    unfold recvMsg
    simp only [headerCall, hfirst, hheader, ↓reduceIte]
    rw [lengthField] at hbody
    rw [hbody]
    rfl
  rw [hrun]
  exact ⟨rfl, rfl, rfl⟩

/-- The bytes that can still be received. -/
def remaining (layer : RecordLayer sender receiver limit)
    (c : FssConnection σ) : Nat :=
  (layer.records c.session).flatten.length

theorem recvBytes_remaining (layer : RecordLayer sender receiver limit)
    {c c' : FssConnection σ} {count : Nat} {bytes : Bytes}
    (hread : receiver.transport.recvBytes c count = (.received bytes, c')) :
    layer.remaining c = bytes.length + layer.remaining c' := by
  obtain ⟨usable, s⟩ := c
  cases usable with
  | false => cases hread
  | true =>
      cases hrecords : layer.records s with
      | nil =>
          obtain ⟨outcome, s', hrecv, hnone, hempty⟩ := layer.closed s count hrecords
          rcases hempty with rfl | rfl
          · simp [Receiver.transport, recvSessionBytes, hrecv] at hread
          · simp only [Receiver.transport, recvSessionBytes, hrecv,
              Bool.not_true, Bool.false_eq_true, ↓reduceIte] at hread
            cases hread
            simp [remaining, hrecords, hnone]
      | cons record rest =>
          obtain ⟨s', hrecv, hleft⟩ := layer.recvBytes_record hrecords count
          rw [hrecv] at hread
          cases hread
          rw [remaining, remaining, hrecords, hleft]
          split
          · next hall =>
              rw [List.take_of_length_le hall, List.flatten_cons,
                List.length_append]
          · have hcut : (record.take count).length +
                (record.drop count).length = record.length := by
              rw [← List.length_append, List.take_append_drop]
            rw [List.flatten_cons, List.flatten_cons, List.length_append,
              List.length_append, ← hcut, Nat.add_assoc]

/-- A body that is complete has used up what it was short of. -/
theorem recvBody_remaining (layer : RecordLayer sender receiver limit)
    {total fuel : Nat} {data d : Bytes} {c : FssConnection σ}
    (h : (recvBody receiver.transport total fuel data c).ending =
      .complete d) :
    data.length + layer.remaining c = total +
      layer.remaining (recvBody receiver.transport total fuel data c).rest := by
  induction fuel generalizing data c with
  | zero =>
      by_cases hdone : data.length = total
      · rw [recvBody_done hdone, hdone]
      · rw [recvBody_stalled hdone] at h
        cases h
  | succ fuel ih =>
      by_cases hdone : data.length = total
      · rw [recvBody_done hdone, hdone]
      · unfold recvBody at h ⊢
        simp only [hdone, ↓reduceIte] at h ⊢
        split at h
        · next hbounds =>
            simp only [hbounds, ↓reduceIte]
            split at h
            · cases h
            · next bytes c' hread =>
                have hrest := ih h
                rw [List.length_append] at hrest
                rw [layer.recvBytes_remaining hread, ← hrest]
                exact (Nat.add_assoc _ _ _).symm
        · cases h

theorem recvMsg_remaining (layer : RecordLayer sender receiver limit)
    {fuel : Nat} {c : FssConnection σ} {bl : BufLen}
    (h : (recvMsg receiver.transport fuel c).frame = some bl) :
    layer.remaining c = totalLength bl.length +
      layer.remaining (recvMsg receiver.transport fuel c).rest := by
  unfold recvMsg at h ⊢
  split at h
  · cases h
  · next bytes c' hread =>
      split at h
      · next hheader =>
          rw [if_pos hheader]
          obtain ⟨data, hcomplete, rfl⟩ := BodyRun.frame_finish_eq_some h
          have htotal := recvBody_complete_length fuel hcomplete
          have hused := layer.recvBody_remaining hcomplete
          have hframe : (data.take (ofBigEndian bytes)).length =
              ofBigEndian bytes :=
            List.length_take_of_le (htotal ▸ le_totalLength _)
          rw [layer.recvBytes_remaining hread, hused, hframe,
            BodyRun.rest_finish]
      · split at h
        · cases h
        · cases h

/-- A whole sequence of frames has used up all of their bytes. -/
theorem recvMsgs_remaining (layer : RecordLayer sender receiver limit)
    {fuel : Nat} {frames : List BufLen} {c : FssConnection σ}
    (h : (recvMsgs receiver.transport fuel frames.length c).1.map
      RecvRun.frame = frames.map some) :
    (frames.map fun bl => totalLength bl.length).sum ≤ layer.remaining c := by
  induction frames generalizing c with
  | nil => exact Nat.zero_le _
  | cons bl frames ih =>
      rw [List.length_cons, recvMsgs] at h
      split at h
      · obtain ⟨hfirst, hlater⟩ := List.cons_eq_cons.mp h
        have hused := layer.recvMsg_remaining hfirst
        have hrest := ih hlater
        rw [List.map_cons, List.sum_cons, hused]
        exact Nat.add_le_add_left hrest _
      · obtain ⟨hfirst, hlater⟩ := List.cons_eq_cons.mp h
        have hused := layer.recvMsg_remaining hfirst
        rw [List.map_eq_nil_iff.mp hlater.symm, List.map_singleton,
          List.sum_singleton, hused]
        exact Nat.le_add_right _ _

/-- Records that are whole frames are received one by one. -/
theorem recvMsgs_records [Target] (layer : RecordLayer sender receiver limit)
    {messages : List FssMessage}
    (hmessages : ∀ m ∈ messages, Constructed m ∧ m.unpaddedLength < 65536)
    {s : σ} (hrecords : layer.records s = messages.map FssMessage.getPacked)
    {fuel : Nat} (hfuel : 0 < fuel) :
    (recvMsgs receiver.transport fuel messages.length ⟨true, s⟩).1.map
        RecvRun.frame =
      messages.map (fun m => some (m.getPacked.take m.unpaddedLength)) ∧
    (recvMsgs receiver.transport fuel messages.length ⟨true, s⟩).1.map
        RecvRun.outcome = messages.map fun m => .returned m.received := by
  induction messages generalizing s with
  | nil => exact ⟨rfl, rfl⟩
  | cons m messages ih =>
      obtain ⟨⟨hm, hfits⟩, hothers⟩ := List.forall_mem_cons.mp hmessages
      have hfirst : layer.records s = (m.wireFrame hfits).bytes ::
          messages.map FssMessage.getPacked := hrecords
      obtain ⟨s', hleft, houtcome, hframe, hrest⟩ :=
        layer.recvMsg_record hfirst hfuel
      rw [FssMessage.outcome_wireFrame hm hfits] at houtcome
      rw [FssMessage.decoded_wireFrame m hfits] at hframe
      obtain ⟨hframes, houtcomes⟩ := ih hothers hleft
      simp only [List.length_cons, recvMsgs, houtcome, hrest, List.map_cons,
        hframe, hframes, houtcomes, and_self]

/-- What is sent of some messages is shorter than they are, unless each fits
a record. -/
theorem fits_of_sum_le {frames : List Bytes}
    (h : (frames.map List.length).sum ≤
      (frames.map (·.take limit)).flatten.length) :
    ∀ frame ∈ frames, frame.length ≤ limit := by
  intro frame hframe
  by_contra hfits
  have hlong : limit < frame.length := Nat.lt_of_not_le hfits
  have hless : (frames.map fun frame => (frame.take limit).length).sum <
      (frames.map List.length).sum := by
    apply List.sum_lt_sum
    · exact fun frame _ => List.length_take_le' _ _
    · refine ⟨frame, hframe, ?_⟩
      rw [List.length_take, Nat.min_eq_left hlong.le]
      exact hlong
  rw [List.length_flatten, List.map_map] at h
  exact absurd h (Nat.not_le.mpr hless)

end RecordLayer

/-- Whatever messages are sent over TLS, every call says that it has sent its
message.  The other end receives exactly their frames, and with them the
messages, if and only if every packed message fits one record. -/
theorem records_delivered_iff [Target] {σ : Type} {sender : Session σ}
    {receiver : Receiver σ} {limit : Nat}
    (layer : RecordLayer sender receiver limit) {messages : List FssMessage}
    (hmessages : ∀ m ∈ messages, Constructed m ∧ m.unpaddedLength < 65536)
    {s : σ} (hnone : layer.records s = []) {fuel : Nat} (hfuel : 0 < fuel) :
    let sent := sendAll sender messages ⟨true, s⟩
    let received := recvMsgs receiver.transport fuel messages.length sent.2
    sent.1 = messages.map (fun _ => some true) ∧
    (received.1.map RecvRun.frame =
        messages.map (fun m => some (m.getPacked.take m.unpaddedLength)) ↔
      ∀ m ∈ messages, m.getPacked.length ≤ limit) ∧
    ((∀ m ∈ messages, m.getPacked.length ≤ limit) →
      received.1.map RecvRun.outcome =
        messages.map fun m => .returned m.received) := by
  have hpacked : ∀ m ∈ messages, m.getPacked ≠ [] := by
    intro m hm hempty
    have hlong := (m.wireFrame (hmessages m hm).2).sixteen_le_length
    change 16 ≤ m.getPacked.length at hlong
    rw [hempty] at hlong
    cases hlong
  obtain ⟨s', hsent, hrecords⟩ := layer.sendAll_records hpacked s
  rw [hnone, List.nil_append] at hrecords
  dsimp only
  rw [hsent]
  have hwhole : (∀ m ∈ messages, m.getPacked.length ≤ limit) →
      layer.records s' = messages.map FssMessage.getPacked := by
    intro hfits
    rw [hrecords]
    exact List.map_congr_left fun m hm => List.take_of_length_le (hfits m hm)
  refine ⟨rfl, ⟨fun hframes => ?_, fun hfits => ?_⟩, fun hfits => ?_⟩
  · have hall := @RecordLayer.recvMsgs_remaining _ _ _ _ layer fuel
      (messages.map fun m => m.getPacked.take m.unpaddedLength) ⟨true, s'⟩
      (by rw [List.length_map, List.map_map]; exact hframes)
    have hlengths : (messages.map fun m => m.getPacked.take m.unpaddedLength).map
        (fun bl => totalLength bl.length) =
        (messages.map FssMessage.getPacked).map List.length := by
      rw [List.map_map, List.map_map]
      apply List.map_congr_left
      intro m hm
      have hfits := (hmessages m hm).2
      have hframe : m.getPacked.length =
          totalLength (lengthField m.getPacked) := (m.wireFrame hfits).whole
      rw [m.lengthField_getPacked hfits] at hframe
      rw [Function.comp_apply, Function.comp_apply, m.take_getPacked hfits,
        m.length_frame, hframe]
    have htakes : (messages.map FssMessage.getPacked).map (·.take limit) =
        messages.map fun m => m.getPacked.take limit := List.map_map
    rw [hlengths, RecordLayer.remaining, hrecords, ← htakes] at hall
    have hfits := RecordLayer.fits_of_sum_le hall
    exact fun m hm => hfits _ (List.mem_map_of_mem hm)
  · exact (layer.recvMsgs_records hmessages (hwhole hfits) hfuel).1
  · exact (layer.recvMsgs_records hmessages (hwhole hfits) hfuel).2

/-- A session that holds its records itself. -/
def recordSession (limit : Nat) : Session (List Bytes) where
  send records data :=
    (.accepted (min limit data.length), records ++ [data.take limit])

def recordReceiver : Receiver (List Bytes) where
  recv records count :=
    match records with
    | [] => (.received [], [])
    | record :: rest =>
        (.received (record.take count),
          if record.length ≤ count then rest else record.drop count :: rest)
  errnoBadf _ := false
  bounded := by
    intro records records' count bytes h
    cases records with
    | nil =>
        cases h
        exact Nat.zero_le _
    | cons record rest =>
        cases h
        exact List.length_take_le _ _

def recordLayer (limit : Nat) :
    RecordLayer (recordSession limit) recordReceiver limit where
  records := id
  send _ _ _ := ⟨_, rfl, rfl⟩
  recv s count record rest h := by
    cases h
    exact ⟨_, rfl, rfl⟩
  closed s count h := by
    cases h
    exact ⟨_, _, rfl, rfl, .inr rfl⟩

/-- A request fits a record of sixteen bytes and a response does not: both
count as sent, and the other end does not get both frames. -/
theorem records_delivered_iff_shortRecord :
    let messages := [fssMessageRttRequest.setId 7, fssMessageRttResponse 7]
    let sent := @sendAll _ Target.indefinite (recordSession 16) messages
      ⟨true, []⟩
    sent.1 = [some true, some true] ∧
      (recvMsgs recordReceiver.transport bodyFuel 2 sent.2).1.map
          RecvRun.frame ≠
        messages.map fun m => some ((@FssMessage.getPacked Target.indefinite
          m).take (@FssMessage.unpaddedLength Target.indefinite m)) := by
  obtain ⟨hresults, hframes, -⟩ := @records_delivered_iff Target.indefinite _ _ _
    16 (recordLayer 16)
    [fssMessageRttRequest.setId 7, fssMessageRttResponse 7] (by
      intro m hm
      rcases List.mem_cons.mp hm with rfl | hm
      · exact ⟨.setId 7 .rttRequest, by decide⟩
      · cases List.mem_singleton.mp hm
        exact ⟨.rttResponse 7, by decide⟩) [] rfl bodyFuel (by decide)
  refine ⟨hresults, fun hsame => ?_⟩
  have hlong := hframes.mp hsame (fssMessageRttResponse 7) (by simp)
  revert hlong
  decide

end FlightSafety.TransportSsl
