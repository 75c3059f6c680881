/-
Which length fields keep a receiver inside its buffer.  Padding brings a
length between 1 and 11 up to 8 or 16, so only a length of zero is smaller
than what has been received; but the frame of every such length is too short
for the header its decoder reads.
-/
import FlightSafety.Transport.Receive

namespace FlightSafety

open Octets

variable {σ : Type} {t : Transport σ}

/-- Every read stored its bytes inside the buffer made for it, and a frame
that reached the decoder holds a header. -/
def RecvRun.Safe (run : RecvRun σ) : Prop :=
  (∀ call ∈ run.calls, call.InBounds) ∧
    ∀ bl, run.frame = some bl → headerLength ≤ bl.length

/-- From this state the next reads bring all of `missing` bytes. -/
inductive Delivers (t : Transport σ) : σ → Nat → Prop where
  | all (s : σ) : Delivers t s 0
  | more {s s' : σ} {missing : Nat} {bytes : Bytes} (pending : missing ≠ 0)
      (read : t.recvBytes s missing = (.received bytes, s'))
      (later : Delivers t s' (missing - bytes.length)) : Delivers t s missing

/-- If the next read brings a length, it is at least that of a header, or the
frame is not empty and never becomes complete. -/
def LengthSafe (t : Transport σ) (s : σ) : Prop :=
  ∀ bytes s', t.recvBytes s headerCall.count = (.received bytes, s') →
    bytes.length = headerCall.count →
    headerLength ≤ ofBigEndian bytes ∨
      (ofBigEndian bytes ≠ 0 ∧
        ¬ Delivers t s' (totalLength (ofBigEndian bytes) - headerCall.count))

theorem headerCall_inBounds : headerCall.InBounds := by
  decide

/-- The reads of a body stay inside while no more has come than fits. -/
theorem recvBody_inBounds {total : Nat} (htotal : total ≤ bodyFuel)
    (fuel : Nat) {data : Bytes} (s : σ) (hdata : data.length ≤ total) :
    ∀ call ∈ (recvBody t total fuel data s).calls, call.InBounds := by
  induction fuel generalizing data s with
  | zero =>
      by_cases hdone : data.length = total
      · simp [recvBody_done hdone]
      · simp [recvBody_stalled hdone]
  | succ fuel ih =>
      rcases Nat.lt_or_eq_of_le hdata with hmissing | hdone
      · have hbounds := missingCall_inBounds hdata
        rw [recvBody_round hmissing htotal]
        rcases hread : t.recvBytes s (total - data.length) with
          ⟨_ | bytes, s'⟩
        · simpa using hbounds
        · have hbytes := t.bounded hread
          have hnext : (data ++ bytes).length ≤ total := by
            rw [List.length_append]
            exact Nat.add_le_of_le_sub' hdata hbytes
          intro call hcall
          rcases List.mem_cons.mp hcall with rfl | hlater
          · exact hbounds
          · exact ih s' hnext call hlater
      · simp [recvBody_done hdone]

theorem recvBody_complete_length {total : Nat} (fuel : Nat) {data : Bytes}
    {s : σ} {whole : Bytes}
    (h : (recvBody t total fuel data s).ending = .complete whole) :
    whole.length = total := by
  induction fuel generalizing data s with
  | zero =>
      by_cases hdone : data.length = total
      · rw [recvBody_done hdone] at h
        cases h
        exact hdone
      · rw [recvBody_stalled hdone] at h
        cases h
  | succ fuel ih =>
      by_cases hdone : data.length = total
      · rw [recvBody_done hdone] at h
        cases h
        exact hdone
      · unfold recvBody at h
        simp only [hdone, ↓reduceIte] at h
        split at h
        next hbounds =>
            split at h
            next s' hread => cases h
            next bytes s' hread => exact ih h
        next hbounds => cases h

/-- A body that is completed has been delivered. -/
theorem delivers_of_complete {total : Nat} (htotal : total ≤ bodyFuel)
    {data : Bytes} {s : σ} (hdata : data.length ≤ total) {fuel : Nat}
    {whole : Bytes}
    (h : (recvBody t total fuel data s).ending = .complete whole) :
    Delivers t s (total - data.length) := by
  induction fuel generalizing data s with
  | zero =>
      by_cases hdone : data.length = total
      · rw [hdone, Nat.sub_self]
        exact .all s
      · rw [recvBody_stalled hdone] at h
        cases h
  | succ fuel ih =>
      rcases Nat.lt_or_eq_of_le hdata with hmissing | hdone
      · rw [recvBody_round hmissing htotal] at h
        rcases hread : t.recvBytes s (total - data.length) with
          ⟨_ | bytes, s'⟩
        · simp only [hread] at h
          cases h
        · simp only [hread] at h
          have hbytes := t.bounded hread
          have hnext : (data ++ bytes).length ≤ total := by
            rw [List.length_append]
            exact Nat.add_le_of_le_sub' hdata hbytes
          refine .more (Nat.sub_ne_zero_of_lt hmissing) hread ?_
          have hlater := ih hnext h
          rwa [List.length_append, Nat.sub_add_eq] at hlater
      · rw [hdone, Nat.sub_self]
        exact .all s

/-- A body that is delivered is completed, for some fuel. -/
theorem complete_of_delivers {total : Nat} (htotal : total ≤ bodyFuel)
    {data : Bytes} {s : σ} (hdata : data.length ≤ total)
    (h : Delivers t s (total - data.length)) :
    ∃ fuel whole,
      (recvBody t total fuel data s).ending = .complete whole := by
  generalize hmissing : total - data.length = missing at h
  induction h generalizing data with
  | all s =>
      have hdone : data.length = total :=
        Nat.le_antisymm hdata (Nat.sub_eq_zero_iff_le.mp hmissing)
      exact ⟨0, data, by rw [recvBody_done hdone]⟩
  | @more s s' missing bytes pending read later ih =>
      subst hmissing
      have hbytes := t.bounded read
      have hnext : (data ++ bytes).length ≤ total := by
        rw [List.length_append]
        exact Nat.add_le_of_le_sub' hdata hbytes
      have hleft : total - (data ++ bytes).length =
          total - data.length - bytes.length := by
        rw [List.length_append, Nat.sub_add_eq]
      obtain ⟨fuel, whole, hwhole⟩ := ih hnext hleft
      refine ⟨fuel + 1, whole, ?_⟩
      rw [recvBody_round (Nat.lt_of_sub_ne_zero pending) htotal]
      simp only [read, hwhole]

theorem ofBigEndian_lt_of_header {bytes : Bytes}
    (h : bytes.length = headerCall.count) : ofBigEndian bytes < 65536 := by
  have hlt := ofBigEndian_lt bytes
  rw [h] at hlt
  exact hlt

/-- The buffer for a frame that is not empty holds the length that came. -/
theorem header_le_totalLength {bytes : Bytes}
    (hheader : bytes.length = headerCall.count)
    (hpos : ofBigEndian bytes ≠ 0) :
    bytes.length ≤ totalLength (ofBigEndian bytes) := by
  rw [hheader]
  exact Nat.le_trans (by decide)
    (eight_le_totalLength (Nat.pos_of_ne_zero hpos))

/-- The body of a run whose header announced a length. -/
theorem recvMsg_of_header {fuel : Nat} {s s' : σ} {bytes : Bytes}
    (hread : t.recvBytes s headerCall.count = (.received bytes, s'))
    (hheader : bytes.length = headerCall.count) :
    recvMsg t fuel s =
      let dataLength := ofBigEndian bytes
      let run := (recvBody t (totalLength dataLength) fuel bytes s').finish
        dataLength
      { run with calls := headerCall :: run.calls } := by
  unfold recvMsg
  simp only [hread, hheader, ↓reduceIte]

@[simp] theorem BodyRun.calls_finish (body : BodyRun σ) (dataLength : Nat) :
    (body.finish dataLength).calls = body.calls := by
  unfold BodyRun.finish
  split <;> rfl

@[simp] theorem BodyRun.rest_finish (body : BodyRun σ) (dataLength : Nat) :
    (body.finish dataLength).rest = body.rest := by
  unfold BodyRun.finish
  split <;> rfl

theorem BodyRun.frame_finish_eq_some {body : BodyRun σ} {dataLength : Nat}
    {bl : BufLen} (h : (body.finish dataLength).frame = some bl) :
    ∃ data, body.ending = .complete data ∧ bl = data.take dataLength := by
  unfold BodyRun.finish at h
  split at h
  next hending => cases h
  next hending => cases h
  next hending => cases h
  next data hending =>
      cases h
      exact ⟨data, hending, rfl⟩

/-- A run whose header brought no length makes one read and no frame. -/
theorem recvMsg_of_no_header {fuel : Nat} {s : σ}
    (h : ∀ bytes s', t.recvBytes s headerCall.count = (.received bytes, s') →
      bytes.length ≠ headerCall.count) : (recvMsg t fuel s).Safe := by
  unfold recvMsg
  rcases hread : t.recvBytes s headerCall.count with ⟨_ | bytes, s'⟩
  · exact ⟨by simpa using headerCall_inBounds, by simp⟩
  · simp only [h bytes s' hread, ↓reduceIte]
    split
    · exact ⟨by simpa using headerCall_inBounds, by simp⟩
    · exact ⟨by simpa using headerCall_inBounds, by simp⟩

theorem not_safe_of_zero {s s' : σ} {bytes : Bytes}
    (hread : t.recvBytes s headerCall.count = (.received bytes, s'))
    (hheader : bytes.length = headerCall.count)
    (hzero : ofBigEndian bytes = 0) : ¬ (recvMsg t 1 s).Safe := by
  intro hsafe
  have hover : totalLength (ofBigEndian bytes) < bytes.length := by
    rw [hzero, hheader]
    decide
  have hcall := hsafe.1 ⟨totalLength (ofBigEndian bytes), bytes.length,
    totalLength (ofBigEndian bytes) + 2 ^ 64 - bytes.length⟩ (by
      rw [recvMsg_of_header hread hheader]
      simp [recvBody_overrun hover 0 s'])
  unfold RecvCall.InBounds at hcall
  simp only at hcall
  omega

/-- A `recvMsg` call is safe, however long its loop runs, exactly when the
length it is sent is. -/
theorem recvMsg_safe_iff (t : Transport σ) (s : σ) :
    (∀ fuel, (recvMsg t fuel s).Safe) ↔ LengthSafe t s := by
  constructor
  · intro hsafe bytes s' hread hheader
    by_cases hlong : headerLength ≤ ofBigEndian bytes
    · exact Or.inl hlong
    · have hpos : ofBigEndian bytes ≠ 0 := fun hzero =>
        not_safe_of_zero hread hheader hzero (hsafe 1)
      refine Or.inr ⟨hpos, fun hdelivers => ?_⟩
      -- the frame becomes complete, and is too short for its decoder
      rw [← hheader] at hdelivers
      obtain ⟨fuel, whole, hwhole⟩ := complete_of_delivers
        (totalLength_le (ofBigEndian_lt_of_header hheader))
        (header_le_totalLength hheader hpos) hdelivers
      have hframe := (hsafe fuel).2 (whole.take (ofBigEndian bytes)) (by
        rw [recvMsg_of_header hread hheader]
        simp only [BodyRun.finish, hwhole])
      rw [List.length_take] at hframe
      exact hlong (Nat.le_trans hframe (Nat.min_le_left _ _))
  · intro hlength fuel
    by_cases hheader : ∃ bytes s', t.recvBytes s headerCall.count =
        (.received bytes, s') ∧ bytes.length = headerCall.count
    · obtain ⟨bytes, s', hread, hheader⟩ := hheader
      have htotal := totalLength_le (ofBigEndian_lt_of_header hheader)
      have hannounced := hlength bytes s' hread hheader
      have hpos : ofBigEndian bytes ≠ 0 := by
        rcases hannounced with hlong | ⟨hpos, _⟩
        · exact Nat.ne_of_gt (Nat.lt_of_lt_of_le (by decide) hlong)
        · exact hpos
      have hfits := header_le_totalLength hheader hpos
      rw [recvMsg_of_header hread hheader]
      constructor
      · intro call hcall
        rcases List.mem_cons.mp hcall with rfl | hbody
        · exact headerCall_inBounds
        · rw [BodyRun.calls_finish] at hbody
          exact recvBody_inBounds htotal fuel s' hfits call hbody
      · intro bl hframe
        obtain ⟨data, hending, rfl⟩ := BodyRun.frame_finish_eq_some hframe
        have hdata := recvBody_complete_length fuel hending
        rw [List.length_take, hdata,
          Nat.min_eq_left (le_totalLength (ofBigEndian bytes))]
        rcases hannounced with hlong | ⟨_, hnever⟩
        · exact hlong
        · rw [← hheader] at hnever
          exact absurd (delivers_of_complete htotal hfits hending) hnever
    · refine recvMsg_of_no_header fun bytes s' hread hbytes => ?_
      exact hheader ⟨bytes, s', hread, hbytes⟩

/-- In every run of a receive loop, whatever the transport delivers, the calls
of `recvMsg` are safe exactly when the lengths they are sent are. -/
theorem receive_safe_iff (t : Transport σ) (s : σ) :
    (∀ s', Starts t (fun _ => True) s s' →
      ∀ fuel, (recvMsg t fuel s').Safe) ↔
      ∀ s', Starts t (fun _ => True) s s' → LengthSafe t s' :=
  forall₂_congr fun s' _ => recvMsg_safe_iff t s'

/-- A stream of two zero bytes has the next read store almost all of the
address space behind the end of an empty buffer. -/
theorem not_safe_zeroLength :
    ¬ ∀ s', Starts chunked (fun _ => True) ⟨[0, 0], [], false⟩ s' →
      ∀ fuel, (recvMsg chunked fuel s').Safe := by
  intro hsafe
  have hstart := hsafe _ (.here _) 1
  exact not_safe_of_zero rfl rfl rfl hstart

end FlightSafety
