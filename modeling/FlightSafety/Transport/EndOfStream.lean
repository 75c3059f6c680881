/-
The end of the stream.  A receiver stops when a read of a length brings
nothing; inside a frame a read that brings nothing is repeated for ever.
-/
import FlightSafety.Transport.Chunking

namespace FlightSafety

open Octets ExactDouble

/-- The loop of `processMessages` ends, and the one closed message it hands on
is the last. -/
def StopsClosed (s : Chunked) : Prop :=
  ∃ fuel count messages,
    processMessages chunked fuel count s =
      ⟨messages ++ [some fssMessageClosed], true⟩ ∧
    ∀ msg ∈ messages, isClosed msg = false

/-- A `recvMsg` call that starts here gets nothing, gets one byte of a length
alone, or finds a whole frame with a header and strings that fit. -/
def Ready (s : Chunked) : Prop :=
  s.stream = [] ∨ s.headerSize = 1 ∨
    (headerLength ≤ lengthField s.stream ∧
      totalLength (lengthField s.stream) ≤ s.stream.length ∧
      StringsFit (s.stream.take (lengthField s.stream)))

/-- A frame that is all there is read to its end exactly when it holds a header
and its strings fit. -/
theorem inside_frame_iff {stream : Bytes}
    (hframe : totalLength (lengthField stream) ≤ stream.length) :
    Inside (decode (stream.take (lengthField stream))) ↔
      headerLength ≤ lengthField stream ∧
        StringsFit (stream.take (lengthField stream)) := by
  have hlength : (stream.take (lengthField stream)).length =
      lengthField stream :=
    List.length_take_of_le (Nat.le_trans (le_totalLength _) hframe)
  rw [inside_decode_iff, hlength]

/-- The same for a frame on its own, which always holds a header. -/
theorem WireFrame.inside_iff (f : WireFrame) :
    Inside (decode f.decoded) ↔ StringsFit f.decoded := by
  rw [decoded, inside_frame_iff f.whole.ge]
  exact and_iff_right f.long

/-- The states in which `processMessages` calls `recvMsg`. -/
abbrev Rounds (s s' : Chunked) : Prop :=
  Starts chunked (fun msg => isClosed msg = false) s s'

theorem isClosed_closed : isClosed (some fssMessageClosed) = true := by
  decide

theorem isClosed_of_decode {bl : BufLen} {msg : Option FssMessage}
    (h : decode bl = .ok msg) : isClosed msg = false := by
  cases msg with
  | none => rfl
  | some m =>
      have htype := (decode_type h).2
      simpa [isClosed] using htype

/-- A call that starts ready returns: a closed message, or one that is not
closed and for which it has taken something from the stream. -/
theorem Ready.returns {s : Chunked} (h : Ready s) {fuel : Nat}
    (hfuel : bodyFuel ≤ fuel) :
    (recvMsg chunked fuel s).outcome = .returned (some fssMessageClosed) ∨
      ∃ msg, (recvMsg chunked fuel s).outcome = .returned msg ∧
        isClosed msg = false ∧
        (recvMsg chunked fuel s).rest.stream.length < s.stream.length := by
  rcases s.headerSize_cases with heof | hsplit | hwhole
  · rw [Chunked.recvMsg_eof heof]
    exact Or.inl rfl
  · have hlong : 0 < s.stream.length := by
      rw [List.length_pos_iff, ne_eq, ← s.headerSize_eq_zero_iff, hsplit]
      decide
    rw [Chunked.recvMsg_split hsplit, Chunked.stream_afterRead_split hsplit,
      List.length_drop]
    by_cases herrno : (s.afterRead 2).errnoBadf
    · exact Or.inl (by simp only [herrno, ↓reduceIte])
    · refine Or.inr ⟨none, by simp [herrno], rfl, ?_⟩
      exact Nat.sub_lt hlong (by decide)
  · rcases h with heof | hsplit | ⟨hheader, hframe, hstrings⟩
    · rw [← s.headerSize_eq_zero_iff, hwhole] at heof
      cases heof
    · rw [hwhole] at hsplit
      cases hsplit
    · obtain ⟨msg, hmsg⟩ := (inside_frame_iff hframe).mpr ⟨hheader, hstrings⟩
      have hpos : 0 < lengthField s.stream :=
        Nat.lt_of_lt_of_le (by decide) hheader
      obtain ⟨houtcome, _, hrest⟩ :=
        Chunked.recvMsg_frame hwhole hpos hframe hfuel
      rw [hmsg] at houtcome
      refine Or.inr ⟨msg, houtcome, isClosed_of_decode hmsg, ?_⟩
      have hlong := eight_le_totalLength hpos
      rw [hrest, List.length_drop]
      omega

/-- A call that does not start ready does not return. -/
theorem ready_of_returned {s : Chunked} {fuel : Nat}
    {msg : Option FssMessage}
    (h : (recvMsg chunked fuel s).outcome = .returned msg) : Ready s := by
  rcases s.headerSize_cases with heof | hsplit | hwhole
  · exact Or.inl heof
  · exact Or.inr (Or.inl hsplit)
  · refine Or.inr (Or.inr ?_)
    have hpos : 0 < lengthField s.stream := by
      rw [Nat.pos_iff_ne_zero]
      intro hzero
      cases fuel with
      | zero =>
          have hcut := recvMsg_mono (Nat.zero_le 1) s (ended_of_returned h)
          rw [← hcut, Chunked.recvMsg_zero hwhole hzero] at h
          cases h
      | succ fuel =>
          rw [Chunked.recvMsg_zero hwhole hzero] at h
          cases h
    have hframe : totalLength (lengthField s.stream) ≤ s.stream.length := by
      by_contra hcut
      rw [Chunked.recvMsg_cut hwhole (Nat.not_le.mp hcut)] at h
      cases h
    have hmore := recvMsg_mono (Nat.le_add_right fuel bodyFuel) s
      (ended_of_returned h)
    have houtcome := (Chunked.recvMsg_frame hwhole hpos hframe
      (Nat.le_add_left bodyFuel fuel)).1
    rw [hmore, h] at houtcome
    have hinside : Inside (decode (s.stream.take (lengthField s.stream))) := by
      cases hdecode : decode (s.stream.take (lengthField s.stream)) with
      | ok msg => exact inside_ok msg
      | error e =>
          rw [hdecode] at houtcome
          cases houtcome
    obtain ⟨hheader, hstrings⟩ := (inside_frame_iff hframe).mp hinside
    exact ⟨hheader, hframe, hstrings⟩

theorem processMessages_closed {fuel count : Nat} {s : Chunked}
    (h : (recvMsg chunked fuel s).outcome =
      .returned (some fssMessageClosed)) :
    processMessages chunked fuel (count + 1) s =
      ⟨[some fssMessageClosed], true⟩ := by
  simp only [processMessages, h, isClosed_closed, ↓reduceIte]

theorem processMessages_open {fuel count : Nat} {s : Chunked}
    {msg : Option FssMessage}
    (h : (recvMsg chunked fuel s).outcome = .returned msg)
    (hopen : isClosed msg = false) :
    processMessages chunked fuel (count + 1) s =
      let later :=
        processMessages chunked fuel count (recvMsg chunked fuel s).rest
      { later with messages := msg :: later.messages } := by
  simp [processMessages, h, hopen]

/-- A loop that stops has returned from the call it starts with, and if that
brought no closed message it stops from what is left. -/
theorem StopsClosed.first {s : Chunked} (h : StopsClosed s) :
    ∃ fuel msg, (recvMsg chunked fuel s).outcome = .returned msg ∧
      (isClosed msg = false → StopsClosed (recvMsg chunked fuel s).rest) := by
  obtain ⟨fuel, count, messages, hrun, hopen⟩ := h
  cases count with
  | zero => simp [processMessages] at hrun
  | succ count =>
      cases houtcome : (recvMsg chunked fuel s).outcome with
      | returned msg =>
          refine ⟨fuel, msg, houtcome, fun hmsg => ?_⟩
          rw [processMessages_open houtcome hmsg] at hrun
          cases messages with
          | nil =>
              simp only [List.nil_append, Deliveries.mk.injEq,
                List.cons.injEq] at hrun
              rw [hrun.1.1, isClosed_closed] at hmsg
              cases hmsg
          | cons first messages =>
              simp only [List.cons_append, Deliveries.mk.injEq,
                List.cons.injEq] at hrun
              refine ⟨fuel, count, messages, ?_, fun later hlater =>
                hopen later (List.mem_cons_of_mem first hlater)⟩
              rw [← hrun.1.2, ← hrun.2]
      | _ => simp [processMessages, houtcome] at hrun

theorem StopsClosed.ready {s s' : Chunked} (h : StopsClosed s)
    (hrounds : Rounds s s') : Ready s' := by
  induction hrounds with
  | here s =>
      obtain ⟨fuel, msg, hreturned, _⟩ := h.first
      exact ready_of_returned hreturned
  | @next s s' fuel msg returned goes later ih =>
      obtain ⟨fuel', msg', hreturned, hrest⟩ := h.first
      have hsame := recvMsg_eq_of_ended (ended_of_returned returned)
        (ended_of_returned hreturned)
      rw [hsame] at returned ih
      rw [returned] at hreturned
      cases hreturned
      exact ih (hrest goes)

/-- If every round starts ready, the loop ends: each round that does not close
it takes something from the stream. -/
theorem processMessages_of_ready {s : Chunked}
    (h : ∀ s', Rounds s s' → Ready s') :
    ∃ count messages,
      processMessages chunked bodyFuel count s =
        ⟨messages ++ [some fssMessageClosed], true⟩ ∧
      ∀ msg ∈ messages, isClosed msg = false := by
  induction hlength : s.stream.length using Nat.strong_induction_on
    generalizing s with
  | h length ih =>
      rcases (h s (.here s)).returns (Nat.le_refl bodyFuel) with
        hclosed | ⟨msg, hreturned, hopen, hshorter⟩
      · refine ⟨1, [], processMessages_closed hclosed, ?_⟩
        exact fun msg hmsg => absurd hmsg List.not_mem_nil
      · obtain ⟨count, messages, hrun, hmessages⟩ :=
          ih _ (hlength ▸ hshorter)
            (fun s' hrounds => h s' (.next hreturned hopen hrounds)) rfl
        refine ⟨count + 1, msg :: messages, ?_, ?_⟩
        · rw [processMessages_open hreturned hopen, hrun]
          rfl
        · exact List.forall_mem_cons.mpr ⟨hopen, hmessages⟩

theorem StopsClosed.of_ready {s : Chunked}
    (h : ∀ s', Rounds s s' → Ready s') : StopsClosed s := by
  obtain ⟨count, messages, hrun, hmessages⟩ := processMessages_of_ready h
  exact ⟨bodyFuel, count, messages, hrun, hmessages⟩

/-- The receive loop on a stream that ends, however it is split: it stops with
one closed message, its last, exactly when each of its rounds starts ready. -/
theorem stopsClosed_iff_ready (s : Chunked) :
    StopsClosed s ↔ ∀ s', Rounds s s' → Ready s' :=
  ⟨fun h _ hrounds => h.ready hrounds, .of_ready⟩

/-! What that comes to on a stream of frames that is cut somewhere. -/

theorem stopsClosed_of_eof {s : Chunked} (h : s.stream = []) :
    StopsClosed s :=
  .of_ready fun _ hrounds => Or.inl (starts_eof hrounds h)

/-- A lone byte of a length is lost, and then nothing is left. -/
theorem stopsClosed_of_one {s : Chunked} (h : s.stream.length = 1) :
    StopsClosed s := by
  have hpos := s.readSize_pos (by decide : 0 < 2)
  have hsplit : s.headerSize = 1 := by
    rw [Chunked.headerSize, h]
    exact Nat.min_eq_right hpos
  apply StopsClosed.of_ready
  intro s' hrounds
  cases hrounds with
  | here => exact Or.inr (Or.inl hsplit)
  | next returned goes later =>
      rw [Chunked.recvMsg_split hsplit] at later
      refine Or.inl (starts_eof later ?_)
      rw [Chunked.stream_afterRead_split hsplit]
      exact List.drop_eq_nil_of_le (Nat.le_of_eq h)

/-- A frame at the head has to be readable, and the loop has to stop behind
it. -/
theorem stopsClosed_wireFrame_iff {s : Chunked} {f : WireFrame} {tail : Bytes}
    (hstream : s.stream = f.bytes ++ tail) (hheader : s.headerSize = 2) :
    StopsClosed s ↔ Inside (decode f.decoded) ∧
      StopsClosed (recvMsg chunked bodyFuel s).rest := by
  have houtcome := (Chunked.recvMsg_wireFrame hstream hheader
    (Nat.le_refl bodyFuel)).1
  constructor
  · intro h
    obtain ⟨fuel, msg, hreturned, hrest⟩ := h.first
    have hsame :=
      Chunked.recvMsg_wireFrame_of_returned hstream hheader hreturned
    rw [hsame] at hreturned hrest
    rw [houtcome] at hreturned
    cases hdecode : decode f.decoded with
    | error e =>
        rw [WireFrame.outcome, hdecode] at hreturned
        cases hreturned
    | ok msg' =>
        rw [WireFrame.outcome, hdecode] at hreturned
        cases hreturned
        exact ⟨inside_ok _, hrest (isClosed_of_decode hdecode)⟩
  · rintro ⟨⟨msg, hmsg⟩, hrest⟩
    rw [WireFrame.outcome, hmsg] at houtcome
    obtain ⟨count, messages, hrun, hmessages⟩ :=
      processMessages_of_ready fun s' hrounds => hrest.ready hrounds
    refine ⟨bodyFuel, count + 1, msg :: messages, ?_, ?_⟩
    · rw [processMessages_open houtcome (isClosed_of_decode hmsg), hrun]
      rfl
    · exact List.forall_mem_cons.mpr ⟨isClosed_of_decode hmsg, hmessages⟩

/-- The stream ends inside a frame: the loop never stops. -/
theorem not_stopsClosed_of_cut {s : Chunked} {f : WireFrame} {n : Nat}
    (hstream : s.stream = f.bytes.take n) (hlong : 2 ≤ n)
    (hcut : n < f.bytes.length) (hheader : s.headerSize = 2) :
    ¬ StopsClosed s := by
  intro h
  obtain ⟨fuel, msg, hreturned, _⟩ := h.first
  have hlength : lengthField s.stream = lengthField f.bytes := by
    rw [hstream, lengthField, List.take_take, Nat.min_eq_left hlong,
      lengthField]
  rw [Chunked.recvMsg_cut hheader (by
    rw [hlength, ← f.whole, hstream, List.length_take_of_le hcut.le]
    exact hcut)] at hreturned
  cases hreturned

/-- On a stream of frames cut inside one of them, with every length in one
piece, the loop stops exactly when at most one byte of the cut frame is there
and the strings of every whole frame fit. -/
theorem stopsClosed_cut_iff (frames : List WireFrame) (f : WireFrame) {n : Nat}
    (hcut : n < f.bytes.length) {s : Chunked}
    (hstream : s.stream = WireFrame.stream frames ++ f.bytes.take n)
    (hwhole : HeadersWhole s) :
    StopsClosed s ↔
      n ≤ 1 ∧ ∀ g ∈ frames, StringsFit g.decoded := by
  induction frames generalizing s with
  | nil =>
      have htail : s.stream = f.bytes.take n := hstream
      have hlength : s.stream.length = n := by
        rw [htail, List.length_take_of_le hcut.le]
      constructor
      · intro h
        refine ⟨?_, fun g hg => absurd hg List.not_mem_nil⟩
        by_contra hlong
        have htwo : 2 ≤ n := Nat.succ_le_of_lt (Nat.not_le.mp hlong)
        exact not_stopsClosed_of_cut htail htwo hcut
          (hwhole s (.here s) (hlength ▸ htwo)) h
      · rintro ⟨hshort, _⟩
        rcases Nat.le_one_iff_eq_zero_or_eq_one.mp hshort with hzero | hone
        · exact stopsClosed_of_eof
            (List.length_eq_zero_iff.mp (hlength.trans hzero))
        · exact stopsClosed_of_one (hlength.trans hone)
  | cons g rest ih =>
      have hhead : s.stream =
          g.bytes ++ (WireFrame.stream rest ++ f.bytes.take n) := by
        rw [hstream, WireFrame.stream_cons, List.append_assoc]
      have hheader := hwhole.head hhead
      obtain ⟨houtcome, _, hleft⟩ := Chunked.recvMsg_wireFrame hhead hheader
        (Nat.le_refl bodyFuel)
      rw [stopsClosed_wireFrame_iff hhead hheader, List.forall_mem_cons,
        ← g.inside_iff]
      constructor
      · rintro ⟨⟨msg, hmsg⟩, hrest⟩
        rw [WireFrame.outcome, hmsg] at houtcome
        obtain ⟨hshort, hframes⟩ :=
          (ih hleft (hwhole.next houtcome)).mp hrest
        exact ⟨hshort, ⟨msg, hmsg⟩, hframes⟩
      · rintro ⟨hshort, ⟨msg, hmsg⟩, hframes⟩
        rw [WireFrame.outcome, hmsg] at houtcome
        exact ⟨⟨msg, hmsg⟩,
          (ih hleft (hwhole.next houtcome)).mpr ⟨hshort, hframes⟩⟩

/-- The receive loop on any stream that ends, however it is split, stops with
one closed message, its last, exactly when each of its rounds starts ready.
Where the stream is one of frames that is cut inside one of them, and every
length comes in one piece, that is when at most one byte of the cut frame is
there and the strings of every whole frame fit. -/
theorem stopsClosed_iff (s : Chunked) :
    (StopsClosed s ↔ ∀ s', Rounds s s' → Ready s') ∧
      ∀ (frames : List WireFrame) (f : WireFrame) (n : Nat),
        n < f.bytes.length →
        s.stream = WireFrame.stream frames ++ f.bytes.take n →
        HeadersWhole s →
        (StopsClosed s ↔ n ≤ 1 ∧ ∀ g ∈ frames, StringsFit g.decoded) :=
  ⟨stopsClosed_iff_ready s, fun frames f _ hcut hstream hwhole =>
    stopsClosed_cut_iff frames f hcut hstream hwhole⟩

/-- A request behind which the stream ends. -/
theorem stopsClosed_iff_rttFrame :
    StopsClosed ⟨rttFrame.bytes, [], false⟩ := by
  have hstream : rttFrame.bytes =
      WireFrame.stream [rttFrame] ++ rttFrame.bytes.take 0 := rfl
  have hwhole : HeadersWhole ⟨rttFrame.bytes, [], false⟩ :=
    @headersWhole_of_plan_nil [rttFrame] _ hstream rfl
  apply ((stopsClosed_iff _).2 [rttFrame] rttFrame 0 (by decide) hstream
    hwhole).mpr
  rw [List.forall_mem_singleton]
  exact ⟨Nat.zero_le 1, trivial⟩

/-- A request of which only the length has come. -/
theorem not_stopsClosed_rttFrame :
    ¬ StopsClosed ⟨rttFrame.bytes.take 2, [], false⟩ := by
  intro h
  have hstream : rttFrame.bytes.take 2 = rttFrame.bytes.take 2 := rfl
  exact not_stopsClosed_of_cut hstream (by decide) (by decide) rfl h

end FlightSafety
