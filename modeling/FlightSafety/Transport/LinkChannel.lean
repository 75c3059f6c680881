/-
A link is a channel of messages.  The bytes read of the frame in hand, those on
their way and those still to be sent are the frames of the messages that have
been sent and not been received, one behind the other.
-/
import FlightSafety.Lib.Channel
import FlightSafety.Transport.Link

namespace FlightSafety

open Octets ExactDouble Machine

/-- A message that the program can hold and that fits a frame. -/
def Transmissible [Target] (m : FssMessage) : Prop :=
  Constructed m ∧ m.unpaddedLength ≤ 65535

/-- What the receive loop hands on when the connection has been closed. -/
def RecvOutcome.closed : RecvOutcome :=
  .returned (some fssMessageClosed)

/-- A link as a channel. -/
def LinkOut.view : LinkOut → Option (ChannelOut FssMessage RecvOutcome)
  | .sending msg => some (.put msg)
  | .returned _ => none
  | .received o => some (if o = .closed then .closed else .took o)

/-- How a message arrives. -/
def FssMessage.arrive [Target] (m : FssMessage) : RecvOutcome :=
  .returned m.received

/-- The two bytes of a length come together, and no read fails inside a
frame. -/
def ReadAt.Orderly (place : ReadAt) (e : ReadEvent) : Prop :=
  match place with
  | .header => e.result ≠ some 1
  | .body _ _ => e.result ≠ none
  | .stopped => True

/-- What a connection is relied on for: what is sent on it is a message that
fits, once a `send` has failed the later ones fail as well, and the reads are
orderly. -/
def Link.guard [Target] :
    Critical.Guard Link FssMessage SendAt (Option Nat) ReadEvent where
  call := Transmissible
  act l _ accepted := l.broken = true → accepted = none
  free l e := l.reader.Orderly e

/-- What the call in progress has still to send. -/
def unsent : Option SendAt → Bytes
  | some (.loop data) => data
  | _ => []

/-- The frame in hand has a length, and some of it is missing. -/
def ReadAt.Framed (place : ReadAt) : Prop :=
  match place with
  | .body dataLength data => 2 ≤ data.length ∧
      data.length < totalLength dataLength ∧ dataLength = lengthField data
  | _ => True

/-- A link carries what the channel holds.  After a failed `send` some bytes
are never sent. -/
structure Carried [Target] (s : Solo Link SendAt) (ch : Channel FssMessage) :
    Prop where
  closed : ch.closed = true ↔ s.shared.reader = .stopped
  transmissible : ∀ m ∈ ch.queue, Transmissible m
  calling : ∀ msg, s.inside = some (.setId msg) → Transmissible msg
  framed : s.shared.reader.Framed
  bytes : s.shared.reader ≠ .stopped → ∃ rest,
    s.shared.reader.data ++ (s.shared.pipe ++ rest) =
      ch.queue.flatMap FssMessage.getPacked ∧
    (s.shared.broken = false → rest = unsent s.inside)

theorem lengthField_append {data : Bytes} (h : 2 ≤ data.length)
    (tail : Bytes) : lengthField (data ++ tail) = lengthField data := by
  rw [lengthField, List.take_append_of_le_length h, lengthField]

section Frames

variable [Target]

theorem Transmissible.setId {m : FssMessage} (h : Transmissible m) (id : UInt64) :
    Transmissible (m.setId id) := by
  constructor
  · exact .setId id h.1
  · rw [m.unpaddedLength_setId]
    exact h.2

/-- The bytes at the head of some frames begin the first of them. -/
theorem first_frame {queue : List FssMessage} {data tail : Bytes}
    (hqueue : ∀ m ∈ queue, Transmissible m) (hlong : 2 ≤ data.length)
    (h : data ++ tail = queue.flatMap FssMessage.getPacked) :
    ∃ m rest, queue = m :: rest ∧ Transmissible m ∧
      lengthField data = m.unpaddedLength ∧
      m.getPacked.length = totalLength (lengthField data) := by
  cases queue with
  | nil =>
      have hnil := List.append_eq_nil_iff.mp h
      rw [hnil.1] at hlong
      exact absurd hlong (by decide)
  | cons m rest =>
      have hm := hqueue m List.mem_cons_self
      have hfits : m.unpaddedLength < 65536 := Nat.lt_succ_of_le hm.2
      have hlength : lengthField data = m.unpaddedLength := by
        rw [← lengthField_append hlong tail, h, List.flatMap_cons]
        rw [← m.lengthField_getPacked hfits]
        exact (m.wireFrame hfits).lengthField_append _
      refine ⟨m, rest, rfl, hm, hlength, ?_⟩
      rw [hlength, ← m.lengthField_getPacked hfits]
      exact (m.wireFrame hfits).whole

/-- Once it is as long as its length says, a frame is the first of them. -/
theorem whole_frame {m : FssMessage} {rest : List FssMessage}
    {data tail : Bytes} (hm : Transmissible m)
    (h : data ++ tail = (m :: rest).flatMap FssMessage.getPacked)
    (hlength : data.length = m.getPacked.length) :
    decode (data.take m.unpaddedLength) = .ok m.received ∧
      tail = rest.flatMap FssMessage.getPacked := by
  have hfits : m.unpaddedLength < 65536 := Nat.lt_succ_of_le hm.2
  obtain ⟨rfl, htail⟩ := List.append_inj h hlength
  constructor
  · rw [m.take_getPacked hfits, FssMessage.decode_frame hm.1 hfits]
  · exact htail

/-- A message that has been sent does not arrive as a closed one. -/
theorem isClosed_received {m : FssMessage} (hm : Transmissible m) :
    isClosed m.received = false := by
  have hdecode := FssMessage.decode_frame hm.1 (Nat.lt_succ_of_le hm.2)
  unfold isClosed
  cases hreceived : m.received with
  | none => rfl
  | some m' =>
      rw [hreceived] at hdecode
      exact beq_eq_false_iff_ne.mpr (decode_type hdecode).2

theorem arrive_ne_closed {m : FssMessage} (hm : Transmissible m) :
    m.arrive ≠ .closed := by
  intro hclosed
  have hopen := isClosed_received hm
  rw [RecvOutcome.returned.inj hclosed] at hopen
  exact absurd hopen (by decide)

theorem ReadAt.deliver_arrive {m : FssMessage} (hm : Transmissible m) :
    ReadAt.deliver m.arrive = (.header, [m.arrive]) := by
  simp only [deliver, FssMessage.arrive, isClosed_received hm]
  rfl

end Frames

namespace Carried

variable [Target] {s : Solo Link SendAt} {ch : Channel FssMessage}

theorem start : Carried ⟨{}, none⟩ {} where
  closed := by decide
  transmissible _ h := absurd h List.not_mem_nil
  calling _ h := by cases h
  framed := trivial
  bytes _ := ⟨[], rfl, fun _ => rfl⟩

/-- A message gets its id and goes into the channel, with all its bytes still
to be sent. -/
theorem setId {msg : FssMessage} (h : Carried s ch)
    (hmsg : s.inside = some (.setId msg)) :
    let msg := msg.setId (s.shared.lastMsgId + 1)
    Carried ⟨{ s.shared with lastMsgId := s.shared.lastMsgId + 1 },
        some (.loop msg.getPacked)⟩
      { ch with queue := ch.queue ++ [msg] } where
  closed := h.closed
  transmissible := by
    intro m hm
    rcases List.mem_append.mp hm with hm | hm
    · exact h.transmissible m hm
    · rw [List.mem_singleton.mp hm]
      exact (h.calling msg hmsg).setId _
  calling _ hcalling := by cases hcalling
  framed := h.framed
  bytes hopen := by
    obtain ⟨rest, hbytes, hrest⟩ := h.bytes hopen
    refine ⟨rest ++ (msg.setId (s.shared.lastMsgId + 1)).getPacked, ?_,
      fun hsound => ?_⟩
    · rw [List.flatMap_append, ← hbytes]
      simp
    · rw [hrest hsound, hmsg]
      rfl

/-- The loop is over: the call returns. -/
theorem sentAll (h : Carried s ch) (hdone : s.inside = some (.loop [])) :
    Carried ⟨s.shared, none⟩ ch where
  closed := h.closed
  transmissible := h.transmissible
  calling _ hcalling := by cases hcalling
  framed := h.framed
  bytes hopen := by
    obtain ⟨rest, hbytes, hrest⟩ := h.bytes hopen
    refine ⟨rest, hbytes, fun hsound => ?_⟩
    rw [hrest hsound, hdone]
    rfl

theorem sendFails (h : Carried s ch) :
    Carried ⟨{ s.shared with broken := true }, none⟩ ch where
  closed := h.closed
  transmissible := h.transmissible
  calling _ hcalling := by cases hcalling
  framed := h.framed
  bytes hopen := by
    obtain ⟨rest, hbytes, -⟩ := h.bytes hopen
    exact ⟨rest, hbytes, fun hsound => nomatch hsound⟩

/-- Bytes that are accepted move from the call into the pipe. -/
theorem accepted {data : Bytes} (h : Carried s ch)
    (hdata : s.inside = some (.loop data)) (hsound : s.shared.broken = false)
    (transfered : Nat) :
    Carried ⟨{ s.shared with pipe := s.shared.pipe ++ data.take transfered },
      some (.loop (data.drop transfered))⟩ ch where
  closed := h.closed
  transmissible := h.transmissible
  calling _ hcalling := by cases hcalling
  framed := h.framed
  bytes hopen := by
    obtain ⟨rest, hbytes, hrest⟩ := h.bytes hopen
    refine ⟨data.drop transfered, ?_, fun _ => rfl⟩
    rw [← hbytes, hrest hsound, hdata, List.append_assoc,
      List.take_append_drop]
    rfl

/-- The receive loop ends, whatever is left. -/
theorem stops (h : Carried s ch) (pipe : Bytes) :
    Carried ⟨{ s.shared with pipe := pipe, reader := .stopped }, s.inside⟩
      { ch with closed := true } where
  closed := by simp
  transmissible := h.transmissible
  calling := h.calling
  framed := trivial
  bytes hopen := absurd rfl hopen

theorem open_ (h : Carried s ch) (hopen : s.shared.reader ≠ .stopped) :
    ch.closed = false :=
  Bool.eq_false_iff.mpr fun hclosed => hopen (h.closed.mp hclosed)

/-- The frame in hand, with what is read next, begins what the channel
holds. -/
theorem split (h : Carried s ch) (hopen : s.shared.reader ≠ .stopped)
    {count : Nat} {data : Bytes}
    (hdata : data = s.shared.reader.data ++ s.shared.pipe.take count) :
    ∃ rest, data ++ (s.shared.pipe.drop count ++ rest) =
        ch.queue.flatMap FssMessage.getPacked ∧
      (s.shared.broken = false → rest = unsent s.inside) := by
  obtain ⟨rest, hbytes, hrest⟩ := h.bytes hopen
  refine ⟨rest, ?_, hrest⟩
  rw [← hbytes, hdata, List.append_assoc,
    ← List.append_assoc (s.shared.pipe.take count), List.take_append_drop]

/-- Bytes that are read move from the pipe into the frame in hand. -/
theorem reads (h : Carried s ch) (hopen : s.shared.reader ≠ .stopped)
    {count : Nat} {data : Bytes}
    (hdata : data = s.shared.reader.data ++ s.shared.pipe.take count)
    (hlong : 2 ≤ data.length)
    (hmissing : data.length < totalLength (lengthField data)) :
    Carried ⟨{ s.shared with
        pipe := s.shared.pipe.drop count
        reader := .body (lengthField data) data }, s.inside⟩ ch where
  closed := by
    rw [h.open_ hopen]
    simp
  transmissible := h.transmissible
  calling := h.calling
  framed := ⟨hlong, hmissing, rfl⟩
  bytes _ := by
    obtain ⟨rest, hsplit, hrest⟩ := h.split hopen hdata
    exact ⟨rest, hsplit, hrest⟩

/-- A frame that is complete is the first in the channel. -/
theorem takes (h : Carried s ch) (hopen : s.shared.reader ≠ .stopped)
    {count : Nat} {data : Bytes}
    (hdata : data = s.shared.reader.data ++ s.shared.pipe.take count)
    (hlong : 2 ≤ data.length)
    (hdone : data.length = totalLength (lengthField data)) :
    ∃ m queue, ch.queue = m :: queue ∧ Transmissible m ∧
      RecvOutcome.ofDecode (decode (data.take (lengthField data))) = m.arrive ∧
      Carried ⟨{ s.shared with
          pipe := s.shared.pipe.drop count
          reader := .header }, s.inside⟩ { ch with queue := queue } := by
  obtain ⟨rest, hsplit, hrest⟩ := h.split hopen hdata
  obtain ⟨m, queue, hqueue, hm, hlength, hwhole⟩ :=
    first_frame h.transmissible hlong hsplit
  rw [hqueue] at hsplit
  obtain ⟨hdecode, htail⟩ := whole_frame hm hsplit (hdone.trans hwhole.symm)
  refine ⟨m, queue, hqueue, hm, ?_, ?_⟩
  · rw [hlength, hdecode]
    rfl
  · constructor
    case closed =>
      rw [h.open_ hopen]
      simp
    case transmissible =>
      intro m' hm'
      apply h.transmissible
      rw [hqueue]
      exact List.mem_cons_of_mem m hm'
    case calling => exact h.calling
    case framed => trivial
    case bytes => exact fun _ => ⟨rest, htail, hrest⟩

/-- What the loop over a body makes of the bytes read so far. -/
theorem got (h : Carried s ch) (hopen : s.shared.reader ≠ .stopped)
    {count : Nat} {data : Bytes}
    (hdata : data = s.shared.reader.data ++ s.shared.pipe.take count)
    (hlong : 2 ≤ data.length)
    (hbound : data.length ≤ totalLength (lengthField data)) :
    Matched (channel FssMessage.arrive) (fun _ _ => True) LinkOut.view Carried
      ch
      ⟨{ s.shared with
        pipe := s.shared.pipe.drop count
        reader := (ReadAt.got (lengthField data) data).1 }, s.inside⟩
      ((ReadAt.got (lengthField data) data).2.map .received) := by
  unfold ReadAt.got
  rcases Nat.lt_or_eq_of_le hbound with hmissing | hdone
  · simp only [Nat.ne_of_lt hmissing, hmissing, ↓reduceIte]
    exact .hidden (h.reads hopen hdata hlong hmissing) rfl
  · obtain ⟨m, queue, hqueue, hm, houtcome, hnext⟩ :=
      h.takes hopen hdata hlong hdone
    have hstep : channel FssMessage.arrive ch .take =
        some ({ ch with queue := queue }, [.took m.arrive]) := by
      simp [channel, h.open_ hopen, hqueue]
    simp only [hdone.symm, ↓reduceIte, houtcome, ReadAt.deliver_arrive hm]
    apply Matched.one .take trivial hstep
    · simp [LinkOut.view, arrive_ne_closed hm]
    · exact hnext

/-- A length that has come is that of a message. -/
theorem long_frame (h : Carried s ch) (hopen : s.shared.reader ≠ .stopped)
    {count : Nat} {data : Bytes}
    (hdata : data = s.shared.reader.data ++ s.shared.pipe.take count)
    (hlong : 2 ≤ data.length) : 2 < totalLength (lengthField data) := by
  obtain ⟨rest, hsplit, -⟩ := h.split hopen hdata
  obtain ⟨m, queue, -, hm, hlength, -⟩ := first_frame h.transmissible hlong hsplit
  have hheader := m.headerLength_le_unpaddedLength
  rw [hlength]
  exact Nat.lt_of_lt_of_le (by decide : 2 < headerLength)
    (hheader.trans (le_totalLength _))

/-- A closed message is handed on, whatever is left. -/
theorem closes (h : Carried s ch) (hopen : s.shared.reader ≠ .stopped)
    (pipe : Bytes) :
    Matched (channel FssMessage.arrive) (fun _ _ => True) LinkOut.view Carried
      ch
      ⟨{ s.shared with pipe := pipe, reader := .stopped }, s.inside⟩
      [.received (.returned (some fssMessageClosed))] := by
  apply Matched.one .close trivial
  · simp only [channel, h.open_ hopen]
    rfl
  · rfl
  · exact h.stops pipe

/-- A read keeps the link a channel. -/
theorem read {e : ReadEvent} {l : Link} {out : List LinkOut}
    (h : Carried s ch) (hok : s.shared.reader.Orderly e)
    (hread : s.shared.read e = some (l, out)) :
    Matched (channel FssMessage.arrive) (fun _ _ => True) LinkOut.view Carried
      ch ⟨l, s.inside⟩ out := by
  have hframed := h.framed
  unfold Link.read at hread
  split at hread
  · cases hread
  next hopen =>
    cases hplace : s.shared.reader with
    | stopped => exact absurd hplace hopen
    | header =>
        simp only [hplace, ReadAt.Orderly] at hread hok
        split at hread
        next hresult =>
          cases hread
          exact h.closes hopen s.shared.pipe
        next count hresult =>
          split at hread
          next hcount =>
            cases hread
            obtain ⟨hle, hpipe⟩ := Nat.le_min.mp hcount
            have htaken : (s.shared.pipe.take count).length = count :=
              List.length_take_of_le hpipe
            have hcases : count = 0 ∨ count = 2 := by
              have hne : count ≠ 1 := fun hone => hok (by rw [hresult, hone])
              have hle : count ≤ 2 := hle
              omega
            rcases hcases with rfl | rfl
            · exact h.closes hopen (s.shared.pipe.drop 0)
            · have hdata : s.shared.pipe.take 2 =
                  s.shared.reader.data ++ s.shared.pipe.take 2 := by
                rw [hplace]
                rfl
              have hfield : lengthField (s.shared.pipe.take 2) =
                  ofBigEndian (s.shared.pipe.take 2) := by
                rw [lengthField, List.take_take, Nat.min_self]
              have hlong := h.long_frame hopen hdata htaken.ge
              have hgot := h.got hopen hdata htaken.ge
                (htaken.le.trans (Nat.le_of_lt hlong))
              rw [hfield] at hgot
              simpa only [ReadAt.feed, htaken, headerCall, ↓reduceIte] using hgot
          next => cases hread
    | body dataLength data =>
        simp only [hplace, ReadAt.Orderly, ReadAt.Framed] at hread hok hframed
        obtain ⟨hlong, hmissing, hlength⟩ := hframed
        split at hread
        next hresult => exact absurd hresult hok
        next count hresult =>
          split at hread
          next hcount =>
            cases hread
            obtain ⟨hle, hpipe⟩ := Nat.le_min.mp hcount
            have hdata : data ++ s.shared.pipe.take count =
                s.shared.reader.data ++ s.shared.pipe.take count := by
              rw [hplace]
              rfl
            have hlength' :
                (data ++ s.shared.pipe.take count).length = data.length + count := by
              rw [List.length_append, List.length_take_of_le hpipe]
            have hfield : lengthField (data ++ s.shared.pipe.take count) =
                dataLength := by
              rw [lengthField_append hlong, hlength]
            have hgot := h.got hopen hdata (by omega) (by
              rw [hfield, hlength']
              have hle : count ≤ totalLength dataLength - data.length := hle
              omega)
            rw [hfield] at hgot
            exact hgot
          next => cases hread

end Carried

section Simulation

variable [Target]

/-- However the threads send and the other side reads, a link is a channel. -/
theorem sendMsg_simulates_channel :
    Simulates Link.sendMsg.solo Link.guard.solo (channel FssMessage.arrive)
      (fun _ _ => True) LinkOut.view Carried := by
  intro s ch e next out h hok hstep
  have htaken := Critical.soloTaken_of_step hstep
  cases htaken with
  | enter msg outside =>
      refine .hidden ⟨h.closed, h.transmissible, ?_, h.framed, ?_⟩ rfl
      · intro msg' hmsg'
        cases hmsg'
        exact hok
      · intro hopen
        obtain ⟨rest, hbytes, hrest⟩ := h.bytes hopen
        refine ⟨rest, hbytes, fun hsound => ?_⟩
        rw [hrest hsound, outside]
        rfl
  | act accepted place l inside out hplace hacts =>
      have hmet : s.shared.broken = true → accepted = none := hok place hplace
      cases place with
      | setId msg =>
          have hvalid := isValid_getPacked (msg.setId (s.shared.lastMsgId + 1))
          simp only [Link.sendMsg, Link.act, hvalid, ↓reduceIte] at hacts
          cases hacts
          exact .one (.put _) trivial rfl rfl (h.setId hplace)
      | loop data =>
          simp only [Link.sendMsg, Link.act] at hacts
          split at hacts
          next hdone =>
            cases hacts
            rw [hdone] at hplace
            exact .hidden (h.sentAll hplace) rfl
          next hmore =>
            cases haccepted : accepted with
            | none =>
                simp only [haccepted] at hacts
                cases hacts
                exact .hidden h.sendFails rfl
            | some transfered =>
                simp only [haccepted] at hacts
                split at hacts
                next hle =>
                  cases hacts
                  have hsound : s.shared.broken = false := by
                    rw [Bool.eq_false_iff]
                    intro hbroken
                    rw [hmet hbroken] at haccepted
                    cases haccepted
                  exact .hidden (h.accepted hplace hsound transfered) rfl
                next => cases hacts
  | free e l out hread => exact h.read hok hread

end Simulation

/-- The messages that have been given an id, in that order. -/
def sent (outs : List LinkOut) : List FssMessage :=
  outs.filterMap fun
    | .sending msg => some msg
    | _ => none

/-- What the receive loop has handed on. -/
def handedOn (outs : List LinkOut) : List RecvOutcome :=
  outs.filterMap fun
    | .received o => some o
    | _ => none

theorem sent_eq_puts (outs : List LinkOut) :
    sent outs = puts (outs.filterMap LinkOut.view) := by
  rw [sent, puts, List.filterMap_filterMap]
  congr 1
  funext o
  cases o with
  | received o =>
      by_cases hclosed : o = .closed <;> simp [LinkOut.view, hclosed]
  | _ => rfl

@[simp] theorem sent_append (first second : List LinkOut) :
    sent (first ++ second) = sent first ++ sent second :=
  List.filterMap_append

theorem handedOn_eq_arrivals (outs : List LinkOut) :
    handedOn outs =
      (arrivals (outs.filterMap LinkOut.view)).map (·.getD .closed) := by
  rw [handedOn, arrivals, List.filterMap_filterMap, List.map_filterMap]
  congr 1
  funext o
  cases o with
  | received o =>
      by_cases hclosed : o = .closed <;> simp [LinkOut.view, hclosed]
  | _ => rfl

/-- The first ids of a connection. -/
def firstIds (count : Nat) : List UInt64 :=
  (List.range count).map fun i => UInt64.ofNat (i + 1)

/-- The ids are given out one after the other. -/
structure Counted (l : Link) (past : List LinkOut) : Prop where
  last : l.lastMsgId = UInt64.ofNat (sent past).length
  ids : (sent past).map FssMessage.id = firstIds (sent past).length

theorem firstIds_succ (count : Nat) :
    firstIds (count + 1) = firstIds count ++ [UInt64.ofNat (count + 1)] := by
  rw [firstIds, List.range_succ, List.map_append]
  rfl

theorem Counted.setId {l : Link} {past : List LinkOut} (h : Counted l past)
    (msg : FssMessage) :
    Counted { l with lastMsgId := l.lastMsgId + 1 }
      (past ++ [.sending (msg.setId (l.lastMsgId + 1))]) := by
  have hlength : (sent (past ++
      [.sending (msg.setId (l.lastMsgId + 1))])).length =
        (sent past).length + 1 := by
    rw [sent_append, List.length_append]
    rfl
  have hnext : l.lastMsgId + 1 = UInt64.ofNat ((sent past).length + 1) := by
    rw [h.last, UInt64.ofNat_add]
    rfl
  constructor
  case last =>
    rw [hlength]
    exact hnext
  case ids =>
    rw [hlength, sent_append, List.map_append, h.ids, firstIds_succ, ← hnext]
    rfl

/-- A step in which no message gets an id. -/
theorem Counted.other {l next : Link} {past out : List LinkOut}
    (h : Counted l past) (hlast : next.lastMsgId = l.lastMsgId)
    (hnone : sent out = []) : Counted next (past ++ out) := by
  constructor
  case last =>
    rw [sent_append, hnone, List.append_nil, hlast]
    exact h.last
  case ids =>
    rw [sent_append, hnone, List.append_nil]
    exact h.ids

theorem sent_received (outs : List RecvOutcome) :
    sent (outs.map LinkOut.received) = [] := by
  rw [sent, List.filterMap_map]
  exact List.filterMap_eq_nil_iff.mpr fun _ _ => rfl

section Run

variable [Target]

theorem Counted.kept {s next : Solo Link SendAt} {past out : List LinkOut}
    {e : SoloEvent FssMessage (Option Nat) ReadEvent}
    (h : Counted s.shared past)
    (hstep : Link.sendMsg.solo s e = some (next, out)) :
    Counted next.shared (past ++ out) := by
  have htaken := Critical.soloTaken_of_step hstep
  cases htaken with
  | enter msg outside => exact h.other rfl rfl
  | act accepted place l inside out hplace hacts =>
      simp only [Link.sendMsg, Link.act] at hacts
      cases place with
      | setId msg =>
          simp only [isValid_getPacked, ↓reduceIte] at hacts
          cases hacts
          exact h.setId msg
      | loop data =>
          simp only at hacts
          split at hacts
          · cases hacts
            exact h.other rfl rfl
          · split at hacts
            · cases hacts
              exact h.other rfl rfl
            · split at hacts
              · cases hacts
                exact h.other rfl rfl
              · cases hacts
  | free e l out hread =>
      simp only [Link.sendMsg, Link.read] at hread
      split at hread
      · cases hread
      · split at hread
        · cases hread
          exact h.other rfl (sent_received _)
        · split at hread
          · cases hread
            exact h.other rfl (sent_received _)
          · cases hread

theorem getPacked_ne_nil (m : FssMessage) : m.getPacked ≠ [] := by
  intro hnil
  have hvalid := isValid_getPacked m
  rw [hnil] at hvalid
  exact absurd hvalid (by decide)

/-- Once every call has returned and nothing is on its way, the channel is
empty. -/
theorem Carried.queue_eq_nil {s : Solo Link SendAt} {ch : Channel FssMessage}
    (h : Carried s ch) (hreader : s.shared.reader = .header)
    (hpipe : s.shared.pipe = []) (hsound : s.shared.broken = false)
    (hinside : s.inside = none) : ch.queue = [] := by
  obtain ⟨rest, hbytes, hrest⟩ := h.bytes (by rw [hreader]; simp)
  rw [hrest hsound, hreader, hpipe, hinside] at hbytes
  cases hqueue : ch.queue with
  | nil => rfl
  | cons m queue =>
      rw [hqueue, List.flatMap_cons] at hbytes
      have hempty := List.append_eq_nil_iff.mp hbytes.symm
      exact absurd hempty.1 (getPacked_ne_nil m)

end Run

section Threads

variable [Target] {τ : Type} [DecidableEq τ]

/-- A connection that nobody has sent on. -/
def Link.start (τ : Type) : Threads Link FssMessage SendAt τ :=
  { shared := {} }

/-- No call is in progress and no byte on its way. -/
def AtRest (s : Threads Link FssMessage SendAt τ) : Prop :=
  s.holder = none ∧ s.shared.broken = false ∧ s.shared.pipe = [] ∧
    s.shared.reader = .header

/-- What the end of the connection looks like to the receive loop. -/
def Link.ending (l : Link) : List RecvOutcome :=
  if l.reader = .stopped then [.closed] else []

/-- However many threads send on a connection and however its bytes are split
on the way, the receive loop at the other end hands on the messages in the
order in which they got their ids, which count from one, each of them once and
as its decoder makes it, and at most the last of them are missing.  When the
connection comes to rest none is. -/
theorem arrives_inOrder {final : Threads Link FssMessage SendAt τ}
    {events : List (ThreadsEvent FssMessage (Option Nat) ReadEvent τ)}
    {outs : List LinkOut}
    (hrun : run Link.sendMsg.threads (Link.start τ) events =
      some (final, outs))
    (hguard : AllSteps Link.sendMsg.threads Link.guard.threads (Link.start τ)
      events) :
    (sent outs).map FssMessage.id = firstIds (sent outs).length ∧
      ∃ arrived missing, sent outs = arrived ++ missing ∧
        handedOn outs =
          arrived.map FssMessage.arrive ++ final.shared.ending ∧
        (AtRest final → missing = []) := by
  have hsolo := (Critical.threads_simulates_solo Link.sendMsg
    Link.guard).run (Critical.seenAs_start Link.guard {}) hrun hguard
  obtain ⟨calls, single, hsingle, hguardSingle, hseen⟩ := hsolo
  rw [List.filterMap_some] at hsingle
  obtain ⟨moves, ch, hchannel, -, hcarried⟩ :=
    sendMsg_simulates_channel.run Carried.start hsingle hguardSingle
  have hcounted : Counted single.shared outs :=
    @run_invariant_always _ _ _ _ (fun s => Counted s.shared) _ _ [] _ _
      hsingle ⟨rfl, rfl⟩ fun h hstep => h.kept hstep
  obtain ⟨arrived, hputs, harrivals⟩ := conserved_of_run hchannel
  refine ⟨hcounted.ids, arrived, ch.queue, ?_, ?_, ?_⟩
  · rw [sent_eq_puts, hputs]
  · rw [handedOn_eq_arrivals, harrivals, List.map_append, List.map_map]
    congr 1
    rw [Channel.ending, Link.ending, ← hseen.shared]
    by_cases hclosed : single.shared.reader = .stopped
    · simp [hclosed, hcarried.closed.mpr hclosed]
    · simp [hclosed, hcarried.open_ hclosed]
  · rintro ⟨hholder, hsound, hpipe, hreader⟩
    rw [← hseen.shared] at hsound hpipe hreader
    apply hcarried.queue_eq_nil hreader hpipe hsound
    rw [hseen.inside, hholder]
    rfl

end Threads

/-- Two threads call; the one that called last takes the lock first. -/
def twoCalls : List (ThreadsEvent FssMessage (Option Nat) ReadEvent Bool) :=
  [.call false fssMessageRttRequest, .call true (fssMessageRttResponse 7),
    .lock true, .act true none, .act true (some 5), .free ⟨some 2, false⟩,
    .act true (some 19), .act true none, .lock false, .act false none,
    .act false (some 16), .free ⟨some 22, false⟩, .free ⟨some 2, false⟩]

/-- A read that gets some bytes, and not one alone, is orderly anywhere. -/
theorem Link.guard_read [Target] {τ : Type}
    (s : Threads Link FssMessage SendAt τ) {count : Nat} (h : count ≠ 1) :
    Link.guard.threads s (.free ⟨some count, false⟩) := by
  change s.shared.reader.Orderly ⟨some count, false⟩
  cases s.shared.reader with
  | header => exact fun hone => h (Option.some.inj hone)
  | body dataLength data => exact Option.some_ne_none count
  | stopped => trivial

theorem arrives_inOrder_twoCalls :
    ∃ final outs,
      run (@Link.sendMsg Target.indefinite).threads (Link.start Bool)
        twoCalls = some (final, outs) ∧
      sent outs = [(fssMessageRttResponse 7).setId 1,
        fssMessageRttRequest.setId 2] ∧
      (sent outs).map FssMessage.id = firstIds (sent outs).length ∧
      ∃ arrived missing, sent outs = arrived ++ missing ∧
        handedOn outs =
          arrived.map (@FssMessage.arrive Target.indefinite) ++
            final.shared.ending ∧
        (AtRest final → missing = []) := by
  refine ⟨_, _, rfl, rfl, ?_⟩
  apply @arrives_inOrder Target.indefinite Bool _ _ twoCalls
  · rfl
  · refine .cons ⟨.rttRequest, by decide⟩ rfl ?_
    refine .cons ⟨.rttResponse 7, by decide⟩ rfl ?_
    refine .cons trivial rfl ?_
    refine .cons (fun _ _ _ _ => rfl) rfl ?_
    refine .cons (fun _ _ _ hbroken => nomatch hbroken) rfl ?_
    refine .cons (@Link.guard_read Target.indefinite _ _ _ (by decide)) rfl ?_
    refine .cons (fun _ _ _ hbroken => nomatch hbroken) rfl ?_
    refine .cons (fun _ _ _ _ => rfl) rfl ?_
    refine .cons trivial rfl ?_
    refine .cons (fun _ _ _ _ => rfl) rfl ?_
    refine .cons (fun _ _ _ hbroken => nomatch hbroken) rfl ?_
    refine .cons (@Link.guard_read Target.indefinite _ _ _ (by decide)) rfl ?_
    exact .cons (@Link.guard_read Target.indefinite _ _ _ (by decide)) rfl trivial

end FlightSafety
