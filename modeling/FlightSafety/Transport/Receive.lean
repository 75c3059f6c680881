/-
Receiving a message.  The transport below `recvBytes` is a parameter: any
state with a read that returns an error or some of the bytes asked for.  The
loop over the body of a frame has no bound in the source, so it runs on fuel
here; `looping` says that the fuel was not enough.
-/
import FlightSafety.Transport.RoundTrip

namespace FlightSafety

open Octets ExactDouble

/-- What one `recvBytes` call comes to.  No bytes at all mean the end of the
file. -/
inductive RecvResult where
  | failed
  | received (bytes : Bytes)
deriving Repr, DecidableEq

/-- What is behind `recvBytes`.  `errnoBadf` tells whether `errno` is `EBADF`
after the last call, whatever set it. -/
structure Transport (σ : Type) where
  recvBytes : σ → Nat → RecvResult × σ
  errnoBadf : σ → Bool
  bounded : ∀ {s s' : σ} {count : Nat} {bytes : Bytes},
    recvBytes s count = (.received bytes, s') → bytes.length ≤ count

/-- One `recvBytes` call of `recvMsg`: up to `count` bytes, stored at `offset`
of a buffer of `size` bytes. -/
structure RecvCall where
  size : Nat
  offset : Nat
  count : Nat
deriving Repr, DecidableEq

def RecvCall.InBounds (call : RecvCall) : Prop :=
  call.offset + call.count ≤ call.size

instance (call : RecvCall) : Decidable call.InBounds :=
  inferInstanceAs (Decidable (_ ≤ _))

/-- The length of a frame with its padding. -/
def totalLength (dataLength : Nat) : Nat :=
  if dataLength % 8 ≠ 0 then dataLength + 8 - dataLength % 8 else dataLength

inductive BodyEnd where
  | looping
  | overrun
  | failed
  | complete (data : Bytes)
deriving Repr, DecidableEq

structure BodyRun (σ : Type) where
  ending : BodyEnd
  calls : List RecvCall
  rest : σ

/-- The loop that fetches the rest of a frame.  The number of bytes still
missing is computed with a sign and passed without one; a call whose range
leaves the buffer ends the run. -/
def recvBody {σ : Type} (t : Transport σ) (total : Nat) (fuel : Nat)
    (data : Bytes) (s : σ) : BodyRun σ :=
  if data.length = total then ⟨.complete data, [], s⟩
  else match fuel with
    | 0 => ⟨.looping, [], s⟩
    | fuel + 1 =>
        let call : RecvCall :=
          ⟨total, data.length, (total + 2 ^ 64 - data.length) % 2 ^ 64⟩
        if call.InBounds then
          match t.recvBytes s call.count with
          | (.failed, s) => ⟨.failed, [call], s⟩
          | (.received bytes, s) =>
              let run := recvBody t total fuel (data ++ bytes) s
              { run with calls := call :: run.calls }
        else ⟨.overrun, [call], s⟩

inductive RecvOutcome where
  | looping
  | overrun
  | overread (e : OutOfBounds)
  | returned (msg : Option FssMessage)
deriving Repr, DecidableEq

/-- A `recvMsg` call: its outcome, the reads it made, the frame it handed to
the decoder and what it left behind. -/
structure RecvRun (σ : Type) where
  outcome : RecvOutcome
  calls : List RecvCall
  frame : Option BufLen
  rest : σ

def RecvOutcome.ofDecode : Except OutOfBounds (Option FssMessage) → RecvOutcome
  | .ok msg => .returned msg
  | .error e => .overread e

/-- What follows the loop over a body. -/
def BodyRun.finish {σ : Type} (body : BodyRun σ) (dataLength : Nat) :
    RecvRun σ :=
  match body.ending with
  | .looping => ⟨.looping, body.calls, none, body.rest⟩
  | .overrun => ⟨.overrun, body.calls, none, body.rest⟩
  | .failed => ⟨.returned none, body.calls, none, body.rest⟩
  | .complete data =>
      let bl := data.take dataLength
      ⟨.ofDecode (decode bl), body.calls, some bl, body.rest⟩

/-- The read of the length bytes into a buffer made for them. -/
def headerCall : RecvCall := ⟨2, 0, 2⟩

def recvMsg {σ : Type} (t : Transport σ) (fuel : Nat) (s : σ) : RecvRun σ :=
  match t.recvBytes s headerCall.count with
  | (.failed, s) => ⟨.returned (some fssMessageClosed), [headerCall], none, s⟩
  | (.received bytes, s) =>
      if bytes.length = headerCall.count then
        let dataLength := ofBigEndian bytes
        let body := recvBody t (totalLength dataLength) fuel bytes s
        let run := body.finish dataLength
        { run with calls := headerCall :: run.calls }
      else if bytes.length = 0 ∨ t.errnoBadf s then
        ⟨.returned (some fssMessageClosed), [headerCall], none, s⟩
      else ⟨.returned none, [headerCall], none, s⟩

/-- Up to `count` calls of `recvMsg`, each on what the one before left. -/
def recvMsgs {σ : Type} (t : Transport σ) (fuel : Nat) :
    Nat → σ → List (RecvRun σ) × σ
  | 0, s => ([], s)
  | count + 1, s =>
      let run := recvMsg t fuel s
      match run.outcome with
      | .returned _ =>
          let (runs, rest) := recvMsgs t fuel count run.rest
          (run :: runs, rest)
      | _ => ([run], run.rest)

/-- The test that ends the loop of `processMessages`. -/
def isClosed : Option FssMessage → Bool
  | some m => m.type == .closed
  | none => false

/-- What `processMessages` hands on, and whether it left its loop. -/
structure Deliveries where
  messages : List (Option FssMessage)
  stopped : Bool
deriving Repr, DecidableEq

/-- The loop of `processMessages`, for `count` rounds at most. -/
def processMessages {σ : Type} (t : Transport σ) (fuel : Nat) :
    Nat → σ → Deliveries
  | 0, _ => ⟨[], false⟩
  | count + 1, s =>
      let run := recvMsg t fuel s
      match run.outcome with
      | .returned msg =>
          if isClosed msg then ⟨[msg], true⟩
          else
            let later := processMessages t fuel count run.rest
            { later with messages := msg :: later.messages }
      | _ => ⟨[], false⟩

/-- The states in which a receive loop that started in the first calls
`recvMsg`; it goes on after the messages that `again` admits. -/
inductive Starts {σ : Type} (t : Transport σ)
    (again : Option FssMessage → Prop) : σ → σ → Prop where
  | here (s : σ) : Starts t again s s
  | next {s s' : σ} {fuel : Nat} {msg : Option FssMessage}
      (returned : (recvMsg t fuel s).outcome = .returned msg)
      (goes : again msg) (later : Starts t again (recvMsg t fuel s).rest s') :
      Starts t again s s'

/-- Fuel for the longest body: every read brings a byte of it. -/
def bodyFuel : Nat := 65536

theorem totalLength_eq (dataLength : Nat) :
    totalLength dataLength = dataLength + framePadding dataLength := by
  unfold totalLength framePadding
  split
  · omega
  · rfl

theorem le_totalLength (dataLength : Nat) :
    dataLength ≤ totalLength dataLength := by
  rw [totalLength_eq]
  exact Nat.le_add_right _ _

theorem totalLength_le {dataLength : Nat} (h : dataLength < 65536) :
    totalLength dataLength ≤ bodyFuel := by
  unfold totalLength bodyFuel
  split <;> omega

theorem eight_le_totalLength {dataLength : Nat} (h : 0 < dataLength) :
    8 ≤ totalLength dataLength := by
  unfold totalLength
  split <;> omega

section Round

variable {σ : Type} {t : Transport σ} {total : Nat} {data : Bytes}

/-- As long as no more came than was asked for, the missing count is the
difference. -/
theorem missing_eq (hdata : data.length ≤ total) (htotal : total ≤ bodyFuel) :
    (total + 2 ^ 64 - data.length) % 2 ^ 64 = total - data.length := by
  unfold bodyFuel at htotal
  omega

theorem recvBody_done (hdone : data.length = total) (fuel : Nat) (s : σ) :
    recvBody t total fuel data s = ⟨.complete data, [], s⟩ := by
  unfold recvBody
  simp only [hdone, ↓reduceIte]

theorem recvBody_stalled (hmissing : data.length ≠ total) (s : σ) :
    recvBody t total 0 data s = ⟨.looping, [], s⟩ := by
  unfold recvBody
  simp only [hmissing, ↓reduceIte]

/-- The call for what is missing of a body. -/
def missingCall (total : Nat) (data : Bytes) : RecvCall :=
  ⟨total, data.length, total - data.length⟩

theorem missingCall_inBounds (hdata : data.length ≤ total) :
    (missingCall total data).InBounds :=
  Nat.le_of_eq (Nat.add_sub_of_le hdata)

/-- One round of the loop over a body of which some is missing. -/
theorem recvBody_round (hdata : data.length < total) (htotal : total ≤ bodyFuel)
    (fuel : Nat) (s : σ) :
    recvBody t total (fuel + 1) data s =
      match t.recvBytes s (total - data.length) with
      | (.failed, s) => ⟨.failed, [missingCall total data], s⟩
      | (.received bytes, s) =>
          let run := recvBody t total fuel (data ++ bytes) s
          { run with calls := missingCall total data :: run.calls } := by
  have hbounds := missingCall_inBounds (Nat.le_of_lt hdata)
  unfold missingCall at hbounds ⊢
  rw [recvBody]
  simp only [Nat.ne_of_lt hdata, ↓reduceIte,
    missing_eq (Nat.le_of_lt hdata) htotal, hbounds]

/-- A total below what has come already asks for a range outside the
buffer. -/
theorem recvBody_overrun (hover : total < data.length) (fuel : Nat) (s : σ) :
    recvBody t total (fuel + 1) data s =
      ⟨.overrun, [⟨total, data.length, total + 2 ^ 64 - data.length⟩], s⟩ := by
  have hcount : (total + 2 ^ 64 - data.length) % 2 ^ 64 =
      total + 2 ^ 64 - data.length := Nat.mod_eq_of_lt (by omega)
  have hbounds : ¬ RecvCall.InBounds
      ⟨total, data.length, total + 2 ^ 64 - data.length⟩ := by
    intro h
    unfold RecvCall.InBounds at h
    simp only at h
    omega
  rw [recvBody]
  simp only [Nat.ne_of_gt hover, ↓reduceIte, hcount, hbounds]

end Round

section Fuel

variable {σ : Type} {t : Transport σ}

/-- More fuel changes nothing once the loop over a body has ended. -/
theorem recvBody_mono {total fuel more : Nat} (hmore : fuel ≤ more)
    (data : Bytes) (s : σ)
    (hended : (recvBody t total fuel data s).ending ≠ .looping) :
    recvBody t total more data s = recvBody t total fuel data s := by
  induction fuel generalizing more data s with
  | zero =>
      by_cases hdone : data.length = total
      · rw [recvBody_done hdone, recvBody_done hdone]
      · rw [recvBody_stalled hdone] at hended
        exact absurd rfl hended
  | succ fuel ih =>
      obtain ⟨more, rfl⟩ : ∃ k, more = k + 1 :=
        ⟨more - 1, (Nat.sub_add_cancel (Nat.le_of_add_left_le hmore)).symm⟩
      have hle : fuel ≤ more := Nat.le_of_succ_le_succ hmore
      by_cases hdone : data.length = total
      · rw [recvBody_done hdone, recvBody_done hdone]
      · unfold recvBody at hended ⊢
        simp only [hdone, ↓reduceIte] at hended ⊢
        split at hended
        next hbounds =>
            simp only [hbounds, ↓reduceIte]
            split at hended
            next s' hread => rfl
            next bytes s' hread =>
                rw [ih hle (data ++ bytes) s' hended]
        next hbounds => simp only [hbounds, ↓reduceIte]

theorem recvMsg_mono {fuel more : Nat} (hmore : fuel ≤ more) (s : σ)
    (hended : (recvMsg t fuel s).outcome ≠ .looping) :
    recvMsg t more s = recvMsg t fuel s := by
  unfold recvMsg at hended ⊢
  rcases hread : t.recvBytes s headerCall.count with ⟨_ | bytes, s'⟩
  · rfl
  · simp only [hread] at hended ⊢
    by_cases hheader : bytes.length = headerCall.count
    · simp only [hheader, ↓reduceIte] at hended ⊢
      have hbody : (recvBody t (totalLength (ofBigEndian bytes)) fuel bytes
          s').ending ≠ .looping := by
        intro hlooping
        rw [BodyRun.finish, hlooping] at hended
        exact hended rfl
      rw [recvBody_mono hmore bytes s' hbody]
    · simp only [hheader, ↓reduceIte]

/-- Two amounts of fuel that both let a call end give the same call. -/
theorem recvMsg_eq_of_ended {fuel more : Nat} {s : σ}
    (h : (recvMsg t fuel s).outcome ≠ .looping)
    (h' : (recvMsg t more s).outcome ≠ .looping) :
    recvMsg t fuel s = recvMsg t more s := by
  rcases Nat.le_total fuel more with hle | hle
  · exact (recvMsg_mono hle s h).symm
  · exact recvMsg_mono hle s h'

theorem ended_of_returned {fuel : Nat} {s : σ} {msg : Option FssMessage}
    (h : (recvMsg t fuel s).outcome = .returned msg) :
    (recvMsg t fuel s).outcome ≠ .looping := by
  rw [h]
  exact RecvOutcome.noConfusion

end Fuel

/-! A stream of bytes that then ends, read in pieces. -/

/-- How many bytes the next read delivers at most, and what `errno` says after
it. -/
structure ReadPlan where
  size : Nat
  errnoBadf : Bool
deriving Repr, DecidableEq

/-- The bytes still to come and how the next reads split them; reads beyond
the plan deliver all they are asked for. -/
structure Chunked where
  stream : Bytes
  plan : List ReadPlan
  errnoBadf : Bool := false
deriving Repr, DecidableEq

namespace Chunked

def readSize (s : Chunked) (count : Nat) : Nat :=
  match s.plan with
  | [] => count
  | next :: _ => min count (max 1 next.size)

def afterRead (s : Chunked) (count : Nat) : Chunked where
  stream := s.stream.drop (s.readSize count)
  plan := s.plan.tail
  errnoBadf := (s.plan.head?.map ReadPlan.errnoBadf).getD s.errnoBadf

theorem readSize_le (s : Chunked) (count : Nat) : s.readSize count ≤ count := by
  unfold readSize
  split
  · exact Nat.le_refl count
  · exact Nat.min_le_left _ _

theorem readSize_pos (s : Chunked) {count : Nat} (h : 0 < count) :
    0 < s.readSize count := by
  unfold readSize
  split
  · exact h
  · exact Nat.lt_min.mpr ⟨h, Nat.le_max_left _ _⟩

/-- The bytes that a header read delivers. -/
def headerSize (s : Chunked) : Nat :=
  min (s.readSize 2) s.stream.length

end Chunked

def chunked : Transport Chunked where
  recvBytes s count :=
    (.received (s.stream.take (s.readSize count)), s.afterRead count)
  errnoBadf s := s.errnoBadf
  bounded := by
    intro s s' count bytes h
    cases h
    rw [List.length_take]
    exact Nat.le_trans (Nat.min_le_left _ _) (s.readSize_le count)

section Body

variable {total : Nat} {data : Bytes}

theorem take_split (stream : Bytes) {size missing : Nat}
    (h : size ≤ missing) :
    stream.take missing =
      stream.take size ++ (stream.drop size).take (missing - size) := by
  rw [← List.take_add, Nat.add_sub_of_le h]

/-- The loop over a body whose bytes are all still to come. -/
theorem recvBody_complete (hdata : data.length ≤ total)
    (htotal : total ≤ bodyFuel) {fuel : Nat} (s : Chunked)
    (hstream : total - data.length ≤ s.stream.length)
    (hfuel : total - data.length ≤ fuel) :
    (recvBody chunked total fuel data s).ending =
        .complete (data ++ s.stream.take (total - data.length)) ∧
      (recvBody chunked total fuel data s).rest.stream =
        s.stream.drop (total - data.length) := by
  induction fuel generalizing data s with
  | zero =>
      have hdone : data.length = total :=
        Nat.le_antisymm hdata (Nat.sub_eq_zero_iff_le.mp (Nat.le_zero.mp hfuel))
      rw [recvBody_done hdone]
      simp [hdone]
  | succ fuel ih =>
      rcases Nat.lt_or_eq_of_le hdata with hmissing | hdone
      · have hsize := s.readSize_le (total - data.length)
        have hpos := s.readSize_pos (Nat.sub_pos_of_lt hmissing)
        have hlength : (data ++ s.stream.take
            (s.readSize (total - data.length))).length =
              data.length + s.readSize (total - data.length) := by
          rw [List.length_append, List.length_take,
            Nat.min_eq_left (Nat.le_trans hsize hstream)]
        have hleft : total - (data.length +
            s.readSize (total - data.length)) =
              total - data.length - s.readSize (total - data.length) := by
          rw [Nat.sub_add_eq]
        have hfits : (data ++ s.stream.take
            (s.readSize (total - data.length))).length ≤ total := by
          omega
        have hrest := ih hfits (s.afterRead (total - data.length))
          (by rw [hlength, Chunked.afterRead, List.length_drop]; omega)
          (by omega)
        rw [recvBody_round hmissing htotal]
        rw [hlength, hleft] at hrest
        rw [take_split s.stream hsize, ← List.append_assoc]
        refine ⟨hrest.1, hrest.2.trans ?_⟩
        rw [Chunked.afterRead, List.drop_drop, Nat.add_sub_of_le hsize]
      · rw [recvBody_done hdone]
        simp [hdone]

/-- The loop over a body that the stream does not cover goes on for ever. -/
theorem recvBody_short (htotal : total ≤ bodyFuel) (fuel : Nat) {s : Chunked}
    (hshort : data.length + s.stream.length < total) :
    (recvBody chunked total fuel data s).ending = .looping := by
  have hmissing : data.length < total :=
    Nat.lt_of_le_of_lt (Nat.le_add_right _ _) hshort
  induction fuel generalizing data s with
  | zero => rw [recvBody_stalled (Nat.ne_of_lt hmissing)]
  | succ fuel ih =>
      have hsize := s.readSize_le (total - data.length)
      have hleft : (data ++ s.stream.take
          (s.readSize (total - data.length))).length +
            (s.afterRead (total - data.length)).stream.length < total := by
        rw [List.length_append, List.length_take, Chunked.afterRead,
          List.length_drop]
        omega
      rw [recvBody_round hmissing htotal]
      exact ih hleft (Nat.lt_of_le_of_lt (Nat.le_add_right _ _) hleft)

end Body

/-! The five ways a `recvMsg` call on a stream can go. -/

namespace Chunked

variable {s : Chunked} {fuel : Nat}

theorem length_header (s : Chunked) :
    (s.stream.take (s.readSize headerCall.count)).length = s.headerSize := by
  rw [List.length_take]
  rfl

theorem headerSize_le (s : Chunked) : s.headerSize ≤ 2 :=
  Nat.le_trans (Nat.min_le_left _ _) (s.readSize_le 2)

theorem headerSize_eq_zero_iff (s : Chunked) :
    s.headerSize = 0 ↔ s.stream = [] := by
  have hpos := s.readSize_pos (by decide : 0 < 2)
  rw [← List.length_eq_zero_iff]
  unfold headerSize
  omega

/-- Nothing is left: the other side has closed. -/
theorem recvMsg_eof (h : s.stream = []) :
    recvMsg chunked fuel s =
      ⟨.returned (some fssMessageClosed), [headerCall], none,
        s.afterRead 2⟩ := by
  have hread : chunked.recvBytes s headerCall.count =
      (.received [], s.afterRead 2) := by
    simp [chunked, h, headerCall]
  simp only [recvMsg, hread]
  rfl

theorem stream_afterRead_eof (h : s.stream = []) :
    (s.afterRead 2).stream = [] := by
  rw [afterRead, h, List.drop_nil]

/-- One of the two length bytes is delivered alone. -/
theorem recvMsg_split (h : s.headerSize = 1) :
    recvMsg chunked fuel s =
      ⟨.returned (if (s.afterRead 2).errnoBadf then some fssMessageClosed
        else none), [headerCall], none, s.afterRead 2⟩ := by
  have hlength := s.length_header
  rw [h] at hlength
  unfold recvMsg
  simp only [chunked, hlength]
  unfold headerCall
  by_cases herrno : (s.afterRead 2).errnoBadf
  · simp [herrno]
  · simp [herrno]

theorem stream_afterRead_split (h : s.headerSize = 1) :
    (s.afterRead 2).stream = s.stream.drop 1 := by
  have hpos := s.readSize_pos (by decide : 0 < 2)
  unfold headerSize at h
  unfold afterRead
  by_cases hsize : s.readSize 2 = 1
  · rw [hsize]
  · have hlength : s.stream.length = 1 := by omega
    rw [List.drop_eq_nil_of_le (by omega), List.drop_eq_nil_of_le (by omega)]

theorem readSize_of_whole (h : s.headerSize = 2) : s.readSize 2 = 2 := by
  have hle := s.readSize_le 2
  unfold headerSize at h
  omega

/-- Both length bytes are delivered together. -/
theorem recvMsg_whole (h : s.headerSize = 2) :
    recvMsg chunked fuel s =
      let body := recvBody chunked (totalLength (lengthField s.stream)) fuel
        (s.stream.take 2) (s.afterRead 2)
      let run := body.finish (lengthField s.stream)
      { run with calls := headerCall :: run.calls } := by
  have hlength := s.length_header
  rw [h] at hlength
  have hsize : s.readSize headerCall.count = 2 := readSize_of_whole h
  unfold recvMsg
  simp only [chunked, hsize]
  rw [hsize] at hlength
  simp only [hlength, headerCall, ↓reduceIte, lengthField]

theorem stream_afterRead_whole (h : s.headerSize = 2) :
    (s.afterRead 2).stream = s.stream.drop 2 := by
  rw [afterRead, readSize_of_whole h]

theorem two_le_length (h : s.headerSize = 2) : 2 ≤ s.stream.length := by
  rw [← h]
  exact Nat.min_le_right _ _

/-- A length of zero: the next read is asked for almost all of memory. -/
theorem recvMsg_zero (h : s.headerSize = 2) (hzero : lengthField s.stream = 0) :
    (recvMsg chunked (fuel + 1) s).outcome = .overrun := by
  have hover : totalLength 0 < (s.stream.take 2).length := by
    rw [List.length_take_of_le (two_le_length h)]
    decide
  rw [recvMsg_whole h, hzero]
  rw [recvBody_overrun hover]
  rfl

/-- The stream ends inside the frame. -/
theorem recvMsg_cut (h : s.headerSize = 2)
    (hcut : s.stream.length < totalLength (lengthField s.stream)) :
    (recvMsg chunked fuel s).outcome = .looping := by
  have hlong := two_le_length h
  have hshort : (s.stream.take 2).length + (s.afterRead 2).stream.length <
      totalLength (lengthField s.stream) := by
    rw [stream_afterRead_whole h, List.length_take_of_le hlong,
      List.length_drop]
    omega
  have hlooping := recvBody_short
    (totalLength_le (lengthField_lt s.stream)) fuel hshort
  rw [recvMsg_whole h]
  simp only [BodyRun.finish, hlooping]

/-- The whole frame is still to come. -/
theorem recvMsg_frame (h : s.headerSize = 2)
    (hpos : 0 < lengthField s.stream)
    (hframe : totalLength (lengthField s.stream) ≤ s.stream.length)
    (hfuel : bodyFuel ≤ fuel) :
    (recvMsg chunked fuel s).outcome =
        .ofDecode (decode (s.stream.take (lengthField s.stream))) ∧
      (recvMsg chunked fuel s).frame =
        some (s.stream.take (lengthField s.stream)) ∧
      (recvMsg chunked fuel s).rest.stream =
        s.stream.drop (totalLength (lengthField s.stream)) := by
  have hlong := eight_le_totalLength hpos
  have htotal := totalLength_le (lengthField_lt s.stream)
  have hle := le_totalLength (lengthField s.stream)
  have hheader : (s.stream.take 2).length = 2 :=
    List.length_take_of_le (two_le_length h)
  have hfits : (s.stream.take 2).length ≤
      totalLength (lengthField s.stream) := by
    omega
  obtain ⟨hending, hrest⟩ := recvBody_complete hfits htotal (s.afterRead 2)
    (by rw [stream_afterRead_whole h, List.length_drop]; omega)
    (by omega : _ ≤ fuel)
  rw [stream_afterRead_whole h, hheader,
    ← take_split s.stream (by omega)] at hending
  rw [stream_afterRead_whole h, hheader, List.drop_drop,
    Nat.add_sub_of_le (by omega)] at hrest
  have hcut : (s.stream.take (totalLength (lengthField s.stream))).take
      (lengthField s.stream) = s.stream.take (lengthField s.stream) := by
    rw [List.take_take, Nat.min_eq_left hle]
  rw [recvMsg_whole h]
  simp only [BodyRun.finish, hending, hcut, hrest, and_self]

end Chunked

end FlightSafety
