/-
How the transport splits a stream of frames.  The read of a length is not
repeated when it comes short, so a split between the two length bytes loses
the frame; no other split is seen by the caller of `recvMsg`.
-/
import FlightSafety.Transport.FrameStream

namespace FlightSafety

open Octets ExactDouble

/-- What the first `count` calls of `recvMsg` come to. -/
def results (fuel count : Nat) (s : Chunked) : List RecvOutcome :=
  (recvMsgs chunked fuel count s).1.map RecvRun.outcome

/-- Two ways to split a stream that no number of calls tells apart. -/
def SameResults (s₁ s₂ : Chunked) : Prop :=
  ∀ fuel, bodyFuel ≤ fuel → ∀ count,
    results fuel count s₁ = results fuel count s₂

/-- Whenever a call of `recvMsg` starts with a length still to come, both of
its bytes come together. -/
def HeadersWhole (s : Chunked) : Prop :=
  ∀ s', Starts chunked (fun _ => True) s s' → 2 ≤ s'.stream.length →
    s'.headerSize = 2

/-- The results of a stream of frames read one by one. -/
def expected : List WireFrame → Nat → List RecvOutcome
  | _, 0 => []
  | [], count + 1 => .returned (some fssMessageClosed) :: expected [] count
  | f :: rest, count + 1 =>
      match f.outcome with
      | .returned msg => .returned msg :: expected rest count
      | other => [other]

theorem HeadersWhole.next {s : Chunked} (h : HeadersWhole s) {fuel : Nat}
    {msg : Option FssMessage}
    (hreturned : (recvMsg chunked fuel s).outcome = .returned msg) :
    HeadersWhole (recvMsg chunked fuel s).rest :=
  fun s' hstarts => h s' (.next hreturned trivial hstarts)

/-- A frame holds a length, whatever follows it. -/
theorem WireFrame.two_le_length (f : WireFrame) (tail : Bytes) :
    2 ≤ (f.bytes ++ tail).length := by
  have hlong := f.sixteen_le_length
  rw [List.length_append]
  exact Nat.le_trans (Nat.le_trans (by decide) hlong) (Nat.le_add_right _ _)

theorem HeadersWhole.head {s : Chunked} (h : HeadersWhole s) {f : WireFrame}
    {tail : Bytes} (hstream : s.stream = f.bytes ++ tail) :
    s.headerSize = 2 :=
  h s (.here s) (hstream ▸ f.two_le_length tail)

theorem results_succ {fuel count : Nat} {s : Chunked} :
    results fuel (count + 1) s =
      match (recvMsg chunked fuel s).outcome with
      | .returned msg =>
          .returned msg :: results fuel count (recvMsg chunked fuel s).rest
      | other => [other] := by
  unfold results
  rw [recvMsgs]
  cases houtcome : (recvMsg chunked fuel s).outcome <;>
    simp only [houtcome, List.map_cons, List.map_nil]

/-- Whole lengths give the results of the frames. -/
theorem HeadersWhole.results_eq {frames : List WireFrame} {fuel count : Nat}
    {s : Chunked} (h : HeadersWhole s)
    (hstream : s.stream = WireFrame.stream frames) (hfuel : bodyFuel ≤ fuel) :
    results fuel count s = expected frames count := by
  induction count generalizing frames s with
  | zero =>
      cases frames <;> rfl
  | succ count ih =>
      cases frames with
      | nil =>
          have hrun : recvMsg chunked fuel s = _ := Chunked.recvMsg_eof hstream
          have hreturned : (recvMsg chunked fuel s).outcome =
              .returned (some fssMessageClosed) := by
            rw [hrun]
          have hleft : (recvMsg chunked fuel s).rest.stream =
              WireFrame.stream [] := by
            rw [hrun]
            exact Chunked.stream_afterRead_eof hstream
          rw [results_succ, expected, hreturned]
          simp only [ih (h.next hreturned) hleft]
      | cons f rest =>
          obtain ⟨houtcome, _, hleft⟩ :=
            Chunked.recvMsg_wireFrame hstream (h.head hstream) hfuel
          rw [results_succ, expected, houtcome]
          split
          next msg hmsg =>
              rw [hmsg] at houtcome
              rw [ih (h.next houtcome) hleft]
          next other hother => rfl

/-- A length whose bytes come apart brings no message but a closed one. -/
theorem not_returned_of_split {s : Chunked} {fuel : Nat} {m : FssMessage}
    (hsplit : s.headerSize = 1)
    (hreturned : (recvMsg chunked fuel s).outcome = .returned (some m)) :
    m.type = .closed := by
  rw [Chunked.recvMsg_split hsplit] at hreturned
  by_cases herrno : (s.afterRead 2).errnoBadf
  · simp only [herrno, ↓reduceIte, RecvOutcome.returned.injEq,
      Option.some.injEq] at hreturned
    rw [← hreturned]
    rfl
  · simp [herrno] at hreturned

/-- Where nothing is left, nothing comes any more. -/
theorem starts_eof {again : Option FssMessage → Prop} {s s' : Chunked}
    (hstarts : Starts chunked again s s') (h : s.stream = []) :
    s'.stream = [] := by
  induction hstarts with
  | here s => exact h
  | @next s s' fuel msg returned goes later ih =>
      apply ih
      rw [Chunked.recvMsg_eof h]
      exact Chunked.stream_afterRead_eof h

theorem headersWhole_of_eof {s : Chunked} (h : s.stream = []) :
    HeadersWhole s := by
  intro s' hstarts hleft
  rw [starts_eof hstarts h] at hleft
  cases hleft

/-- The lengths of a stream come whole when the first does and those behind
its frame do. -/
theorem headersWhole_of_rest {s : Chunked} {f : WireFrame} {tail : Bytes}
    (hstream : s.stream = f.bytes ++ tail) (hheader : s.headerSize = 2)
    (hrest : HeadersWhole (recvMsg chunked bodyFuel s).rest) :
    HeadersWhole s := by
  intro s' hstarts hleft
  cases hstarts with
  | here => exact hheader
  | @next _ _ fuel msg returned goes later =>
      rw [Chunked.recvMsg_wireFrame_of_returned hstream hheader returned]
        at later
      exact hrest s' later hleft

/-- Reads that deliver all they are asked for split no length. -/
theorem headersWhole_of_plan_nil {frames : List WireFrame} {s : Chunked}
    (hstream : s.stream = WireFrame.stream frames) (hplan : s.plan = []) :
    HeadersWhole s := by
  induction frames generalizing s with
  | nil => exact headersWhole_of_eof hstream
  | cons f rest ih =>
      have hheader : s.headerSize = 2 :=
        headerSize_of_plan_nil hplan (hstream ▸ f.two_le_length _)
      have hleft := (Chunked.recvMsg_wireFrame hstream hheader
        (Nat.le_refl bodyFuel)).2.2
      exact headersWhole_of_rest hstream hheader (ih hleft (recvMsg_plan hplan))

/-- If every frame holds a message, its results show that every length came
whole. -/
theorem headersWhole_of_results {frames : List WireFrame}
    (hdecodes : ∀ f ∈ frames, ∃ m, decode f.decoded = .ok (some m))
    {s : Chunked} (hstream : s.stream = WireFrame.stream frames)
    (hresults : ∀ fuel, bodyFuel ≤ fuel → ∀ count,
      results fuel count s = expected frames count) : HeadersWhole s := by
  induction frames generalizing s with
  | nil => exact headersWhole_of_eof hstream
  | cons f rest ih =>
      obtain ⟨m, hm⟩ := hdecodes f List.mem_cons_self
      have houtcome : f.outcome = .returned (some m) := by
        rw [WireFrame.outcome, hm]
        rfl
      have hfirst : ∀ fuel, bodyFuel ≤ fuel →
          (recvMsg chunked fuel s).outcome = .returned (some m) := by
        intro fuel hfuel
        have hone := hresults fuel hfuel 1
        rw [results_succ, expected, houtcome] at hone
        cases hrun : (recvMsg chunked fuel s).outcome <;>
          simp only [hrun, List.cons.injEq, reduceCtorEq, false_and,
            RecvOutcome.returned.injEq] at hone
        rw [hone.1]
      have hreturned := hfirst bodyFuel (Nat.le_refl _)
      have hheader : s.headerSize = 2 := by
        rcases s.headerSize_cases with heof | hsplit | hwhole
        · have hlong := f.two_le_length (WireFrame.stream rest)
          rw [← WireFrame.stream_cons, ← hstream, heof] at hlong
          cases hlong
        · exact absurd (not_returned_of_split hsplit hreturned)
            (decode_type hm).2
        · exact hwhole
      have hleft := (Chunked.recvMsg_wireFrame hstream hheader
        (Nat.le_refl bodyFuel)).2.2
      refine headersWhole_of_rest hstream hheader
        (ih (fun f' hf' => hdecodes f' (List.mem_cons_of_mem f hf')) hleft ?_)
      intro fuel hfuel count
      have hmore := hresults fuel hfuel (count + 1)
      rw [results_succ, expected, houtcome, hfirst fuel hfuel,
        recvMsg_eq_of_ended (ended_of_returned (hfirst fuel hfuel))
          (ended_of_returned hreturned)] at hmore
      simp only [List.cons.injEq, true_and] at hmore
      exact hmore

/-- Two ways to split a stream of frames give the same results when neither
splits a length.  If one of them splits none, and every frame holds a message,
that is the only way. -/
theorem sameResults_of_headersWhole (frames : List WireFrame)
    {s₁ s₂ : Chunked} (h₁ : s₁.stream = WireFrame.stream frames)
    (h₂ : s₂.stream = WireFrame.stream frames) (hwhole : HeadersWhole s₁) :
    (HeadersWhole s₂ → SameResults s₁ s₂) ∧
      ((∀ f ∈ frames, ∃ m, decode f.decoded = .ok (some m)) →
        SameResults s₁ s₂ → HeadersWhole s₂) := by
  constructor
  · intro hwhole' fuel hfuel count
    rw [hwhole.results_eq h₁ hfuel, hwhole'.results_eq h₂ hfuel]
  · intro hdecodes hsame
    apply headersWhole_of_results hdecodes h₂
    intro fuel hfuel count
    rw [← hsame fuel hfuel count, hwhole.results_eq h₁ hfuel]

/-- A round-trip request with id 1, as it is sent. -/
def rttFrame : WireFrame where
  bytes := [0, 12, 0, 3, 0, 0, 0, 0, 0, 0, 0, 1, 0, 0, 0, 0]
  long := by decide
  whole := by decide

/-- The same request in one piece and with its last five bytes apart. -/
theorem sameResults_rttFrame :
    let s₁ : Chunked := ⟨rttFrame.bytes, [], false⟩
    let s₂ : Chunked := ⟨rttFrame.bytes, [⟨2, false⟩, ⟨9, false⟩], false⟩
    SameResults s₁ s₂ ∧ HeadersWhole s₂ := by
  intro s₁ s₂
  have h₁ : s₁.stream = WireFrame.stream [rttFrame] := rfl
  have h₂ : s₂.stream = rttFrame.bytes ++ WireFrame.stream [] := rfl
  have hlast : HeadersWhole s₂ :=
    headersWhole_of_rest h₂ rfl (headersWhole_of_eof
      (Chunked.recvMsg_wireFrame h₂ rfl (Nat.le_refl bodyFuel)).2.2)
  obtain ⟨hsame, hback⟩ := sameResults_of_headersWhole [rttFrame] h₁ h₂
    (headersWhole_of_plan_nil h₁ rfl)
  have hdecodes : ∀ f ∈ [rttFrame], ∃ m, decode f.decoded = .ok (some m) := by
    rw [List.forall_mem_singleton]
    exact ⟨⟨1, .rttRequest, .rttRequest⟩, by decide⟩
  exact ⟨hsame hlast, hback hdecodes (hsame hlast)⟩

/-- A first read of one byte loses the request. -/
theorem not_sameResults_rttFrame :
    ¬ SameResults ⟨rttFrame.bytes, [], false⟩
      ⟨rttFrame.bytes, [⟨1, false⟩], false⟩ := by
  intro hsame
  have hone := hsame bodyFuel (Nat.le_refl _) 1
  have hstream : rttFrame.bytes = rttFrame.bytes ++ [] := rfl
  have hwhole : (recvMsg chunked bodyFuel
      ⟨rttFrame.bytes, [], false⟩).outcome = rttFrame.outcome :=
    (Chunked.recvMsg_wireFrame hstream rfl (Nat.le_refl _)).1
  have hsplit : (recvMsg chunked bodyFuel
      ⟨rttFrame.bytes, [⟨1, false⟩], false⟩).outcome = .returned none := by
    rw [Chunked.recvMsg_split rfl]
    rfl
  have hmessage : rttFrame.outcome =
      .returned (some ⟨1, .rttRequest, .rttRequest⟩) := by
    decide
  rw [results_succ, results_succ, hwhole, hsplit, hmessage] at hone
  cases hone

end FlightSafety
