/-
One direction of a connection.  Any number of threads send on it, each with
the send lock for the whole of a message; the bytes that `send` accepts are on
their way until the receive loop of the other side reads them.  A step is one
`send` or one `recvBytes` call with what is local to it.
-/
import FlightSafety.Lib.Mutex
import FlightSafety.Transport.FrameStream
import FlightSafety.Transport.Send

namespace FlightSafety

open Octets ExactDouble Machine

/-- Where the loop of `processMessages` is: before the length of a frame,
inside a frame, or over. -/
inductive ReadAt where
  | header
  | body (dataLength : Nat) (data : Bytes)
  | stopped
deriving Repr, DecidableEq

namespace ReadAt

/-- What has been read of the frame in hand. -/
def data : ReadAt → Bytes
  | .body _ data => data
  | _ => []

/-- How many bytes the next `recvBytes` call asks for. -/
def count : ReadAt → Nat
  | .header => headerCall.count
  | .body dataLength data => totalLength dataLength - data.length
  | .stopped => 0

/-- A message is handed on; the loop ends with a closed one. -/
def deliver (o : RecvOutcome) : ReadAt × List RecvOutcome :=
  match o with
  | .returned msg => (if isClosed msg then .stopped else .header, [o])
  | _ => (.stopped, [o])

/-- The test of the loop over a body.  Once more has come than the frame is
long, the next call asks for a range outside the buffer. -/
def got (dataLength : Nat) (data : Bytes) : ReadAt × List RecvOutcome :=
  if data.length = totalLength dataLength then
    deliver (.ofDecode (decode (data.take dataLength)))
  else if data.length < totalLength dataLength then
    (.body dataLength data, [])
  else (.stopped, [.overrun])

/-- What follows a `recvBytes` call. -/
def feed (errnoBadf : Bool) : ReadAt → RecvResult → ReadAt × List RecvOutcome
  | .header, .failed => deliver (.returned (some fssMessageClosed))
  | .header, .received bytes =>
      if bytes.length = headerCall.count then got (ofBigEndian bytes) bytes
      else if bytes.length = 0 ∨ errnoBadf then
        deliver (.returned (some fssMessageClosed))
      else deliver (.returned none)
  | .body _ _, .failed => deliver (.returned none)
  | .body dataLength data, .received bytes => got dataLength (data ++ bytes)
  | .stopped, _ => (.stopped, [])

/-- Read until something is handed on. -/
def follow {σ : Type} (t : Transport σ) :
    Nat → ReadAt → σ → Option (RecvOutcome × σ)
  | 0, _, _ => none
  | fuel + 1, place, s =>
      let (result, s) := t.recvBytes s place.count
      match place.feed (t.errnoBadf s) result with
      | (_, o :: _) => some (o, s)
      | (place, []) => follow t fuel place s

end ReadAt

/-- Where a `sendMsg` call with the lock is: before the message gets its id,
or in the loop with what is still to be sent. -/
inductive SendAt where
  | setId (msg : FssMessage)
  | loop (data : Bytes)
deriving Repr, DecidableEq

/-- The last id of the sending side and whether a `send` of its has failed,
the bytes on their way, and the receive loop. -/
structure Link where
  lastMsgId : UInt64 := 0
  broken : Bool := false
  pipe : Bytes := []
  reader : ReadAt := .header
deriving Repr, DecidableEq

/-- What can be seen of a link: a message gets its id, a `sendMsg` call
returns, the receive loop hands something on. -/
inductive LinkOut where
  | sending (msg : FssMessage)
  | returned (result : Bool)
  | received (o : RecvOutcome)
deriving Repr, DecidableEq

/-- A `recvBytes` call: how many bytes it gets, if it does not fail, and
whether `errno` is then `EBADF`. -/
structure ReadEvent where
  result : Option Nat
  errnoBadf : Bool
deriving Repr, DecidableEq

namespace Link

/-- A statement of `sendMsg` under the lock.  It meets how many of the bytes
it offers `send` accepts, or that `send` fails. -/
def act [Target] (l : Link) (place : SendAt) (accepted : Option Nat) :
    Option ((Link × Option SendAt) × List LinkOut) :=
  match place with
  | .setId msg =>
      let msg := msg.setId (l.lastMsgId + 1)
      let l := { l with lastMsgId := l.lastMsgId + 1 }
      let bl := msg.getPacked
      if bl.isValid then some ((l, some (.loop bl)), [.sending msg])
      else some ((l, none), [.returned false])
  | .loop data =>
      if data = [] then some ((l, none), [.returned true])
      else match accepted with
        | none => some (({ l with broken := true }, none), [.returned false])
        | some transfered =>
            if transfered ≤ data.length then
              some (({ l with pipe := l.pipe ++ data.take transfered },
                some (.loop (data.drop transfered))), [])
            else none

/-- The receive loop's next read. -/
def read (l : Link) (e : ReadEvent) : Option (Link × List LinkOut) :=
  if l.reader = .stopped then none
  else match e.result with
    | none =>
        let (reader, out) := l.reader.feed e.errnoBadf .failed
        some ({ l with reader := reader }, out.map .received)
    | some count =>
        if count ≤ min l.reader.count l.pipe.length then
          let (reader, out) :=
            l.reader.feed e.errnoBadf (.received (l.pipe.take count))
          some ({ l with pipe := l.pipe.drop count, reader := reader },
            out.map .received)
        else none

/-- `fss_connection::sendMsg` under its lock, with the other side's receive
loop at the far end. -/
def sendMsg [Target] :
    Critical Link FssMessage SendAt (Option Nat) ReadEvent LinkOut where
  enter := .setId
  act := act
  free := read

end Link

/-! The receive loop read by read and `recvMsg` as one call. -/

section Follow

variable {σ : Type} {t : Transport σ}

theorem ReadAt.deliver_eq (o : RecvOutcome) :
    ∃ place, ReadAt.deliver o = (place, [o]) := by
  unfold ReadAt.deliver
  split
  · exact ⟨_, rfl⟩
  · exact ⟨_, rfl⟩

/-- The outcome does not depend on the calls. -/
theorem BodyRun.outcome_finish (ending : BodyEnd) (calls calls' : List RecvCall)
    (rest : σ) (dataLength : Nat) :
    (BodyRun.finish ⟨ending, calls, rest⟩ dataLength).outcome =
      (BodyRun.finish ⟨ending, calls', rest⟩ dataLength).outcome := by
  cases ending <;> rfl

/-- A body is followed as its loop goes, up to the outcome. -/
theorem ReadAt.follow_body {dataLength : Nat} (hlt : dataLength < 65536)
    {fuel : Nat} {data : Bytes} {s : σ}
    (hdata : data.length < totalLength dataLength)
    (hended : ((recvBody t (totalLength dataLength) fuel data s).finish
      dataLength).outcome ≠ .looping) :
    let body := recvBody t (totalLength dataLength) fuel data s
    ReadAt.follow t fuel (.body dataLength data) s =
      some ((body.finish dataLength).outcome, body.rest) := by
  have htotal := totalLength_le hlt
  induction fuel generalizing data s with
  | zero =>
      rw [recvBody_stalled (Nat.ne_of_lt hdata)] at hended
      exact absurd rfl hended
  | succ fuel ih =>
      rw [recvBody_round hdata htotal] at hended ⊢
      rw [follow, count]
      rcases hread : t.recvBytes s (totalLength dataLength - data.length)
        with ⟨_ | bytes, s'⟩
      · simp only [feed, deliver]
        rfl
      · have hbound := t.bounded hread
        have hle : (data ++ bytes).length ≤ totalLength dataLength := by
          rw [List.length_append]
          omega
        simp only [hread] at hended
        simp only [feed, got]
        rw [BodyRun.outcome_finish _ _
          (recvBody t (totalLength dataLength) fuel (data ++ bytes) s').calls]
          at hended ⊢
        rcases Nat.lt_or_eq_of_le hle with hmore | hdone
        · simp only [hmore, Nat.ne_of_lt hmore, ↓reduceIte]
          exact ih hmore hended
        · obtain ⟨place, hplace⟩ := deliver_eq
            (.ofDecode (decode ((data ++ bytes).take dataLength)))
          rw [recvBody_done hdone]
          simp only [hdone, ↓reduceIte, hplace]
          rfl

/-- A `recvMsg` call that ends comes to what the loop, read by read, hands on
next. -/
theorem follow_header_of_recvMsg {fuel : Nat} {s : σ}
    (hended : (recvMsg t fuel s).outcome ≠ .looping) :
    ReadAt.follow t (fuel + 1) .header s =
      some ((recvMsg t fuel s).outcome, (recvMsg t fuel s).rest) := by
  unfold recvMsg at hended ⊢
  rw [ReadAt.follow, ReadAt.count]
  rcases hread : t.recvBytes s headerCall.count with ⟨_ | bytes, s'⟩
  · rfl
  · simp only [hread] at hended ⊢
    by_cases hheader : bytes.length = headerCall.count
    · have hlt : ofBigEndian bytes < 65536 := by
        have hlt := ofBigEndian_lt bytes
        rwa [hheader] at hlt
      simp only [hheader, ↓reduceIte, BodyRun.rest_finish] at hended ⊢
      simp only [ReadAt.feed, ReadAt.got, hheader, ↓reduceIte]
      rcases Nat.eq_zero_or_pos (ofBigEndian bytes) with hzero | hpos
      · -- A length of zero: the loop over the body leaves its buffer.
        have hover : totalLength 0 < bytes.length := by
          rw [hheader]
          decide
        rw [hzero] at hended ⊢
        cases fuel with
        | zero =>
            rw [recvBody_stalled (Nat.ne_of_gt hover)] at hended
            exact absurd rfl hended
        | succ fuel =>
            rw [recvBody_overrun hover]
            rfl
      · have hmore : bytes.length < totalLength (ofBigEndian bytes) := by
          rw [hheader]
          exact Nat.lt_of_lt_of_le (by decide) (eight_le_totalLength hpos)
        have hmore' := hheader ▸ hmore
        simp only [hmore', Nat.ne_of_lt hmore', ↓reduceIte]
        exact ReadAt.follow_body hlt hmore hended
    · simp only [hheader, ↓reduceIte, ReadAt.feed]
      by_cases hclosed : bytes.length = 0 ∨ t.errnoBadf s'
      · simp only [hclosed, ↓reduceIte]
        rfl
      · simp only [hclosed, ↓reduceIte]
        rfl

end Follow

end FlightSafety
