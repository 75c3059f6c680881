/-
What a peer decodes from the frame of a message.  Each class is replayed by
following what the buffer holds behind the current offset; `received` says
what becomes of the fields.
-/
import FlightSafety.Transport.DecodeSafety

namespace FlightSafety

open Octets ExactDouble

/-- A message some part of the program can hold: one built by a sending
constructor, with or without an id, or one a decoder returned. -/
inductive Constructed : FssMessage → Prop where
  | closed : Constructed fssMessageClosed
  | identity (name : Bytes) : Constructed (fssMessageIdentity name)
  | rttRequest : Constructed fssMessageRttRequest
  | rttResponse (requestId : UInt64) :
      Constructed (fssMessageRttResponse requestId)
  | positionReport (report : PositionReport) :
      Constructed (fssMessagePositionReport report)
  | systemStatus (status : SystemStatus) :
      Constructed (fssMessageSystemStatus status)
  | searchStatus (status : SearchStatus) :
      Constructed (fssMessageSearchStatus status)
  | assetCommand (command : FssAssetCommand) (timestamp : UInt64) :
      Constructed (fssMessageAssetCommand command timestamp)
  | assetCommandPosition (command : FssAssetCommand) (timestamp : UInt64)
      (latitude longitude : Double) :
      Constructed (fssMessageAssetCommandPosition command timestamp latitude
        longitude)
  | assetCommandAltitude (command : FssAssetCommand) (timestamp : UInt64)
      (altitude : UInt32) :
      Constructed (fssMessageAssetCommandAltitude command timestamp altitude)
  | smmSettings (serverUrl username password : Bytes) :
      Constructed (fssMessageSmmSettings serverUrl username password)
  | serverList (servers : List (Bytes × UInt16)) :
      Constructed (fssMessageServerList servers)
  | identityNonAircraft (capabilities : UInt64) :
      Constructed (fssMessageIdentityNonAircraft capabilities)
  | identityRequired : Constructed fssMessageIdentityRequired
  | setId {m : FssMessage} (id : UInt64) (h : Constructed m) :
      Constructed (m.setId id)
  | decoded {bl : BufLen} {m : FssMessage} (h : decode bl = .ok (some m)) :
      Constructed m

/-- The tag the decoding constructor of a class sets. -/
def FssMessageBody.decodedType : FssMessageBody → FssMessageType
  | .identityRequired => .identity
  | body => body.sentType

theorem map_some_eq_ok {α : Type} {x : Except OutOfBounds α} {value : α}
    (h : x.map some = .ok (some value)) : x = .ok value := by
  cases x with
  | error e => cases h
  | ok a =>
      simp only [Except.map, Except.ok.injEq, Option.some.injEq] at h
      rw [h]

theorem bind_pure_eq_ok {α β : Type} {x : Except OutOfBounds α} {f : α → β}
    {value : β} (h : (x >>= fun a => pure (f a)) = .ok value) :
    ∃ a, f a = value := by
  cases x with
  | error e => cases h
  | ok a =>
      cases h
      exact ⟨a, rfl⟩

/-- A decoded message has the tag of its class's decoding constructor; no
decoder returns a closed message. -/
theorem decodeAs_type {type : Option FssMessageType} {id : UInt64}
    {bl : BufLen} {m : FssMessage} (h : decodeAs type id bl = .ok (some m)) :
    m.type = m.body.decodedType ∧ m.type ≠ .closed := by
  cases type with
  | none => cases h
  | some type =>
      cases type with
      | unknown | closed => cases h
      | rttRequest | identityRequired =>
          cases h
          exact ⟨rfl, by simp⟩
      | _ =>
          simp only [decodeAs, decodeIdentity, decodeRttResponse,
            decodePositionReport, decodeSystemStatus, decodeSearchStatus,
            decodeAssetCommand, decodeServerList, decodeSmmSettings,
            decodeIdentityNonAircraft] at h
          obtain ⟨_, heq⟩ := bind_pure_eq_ok (map_some_eq_ok h)
          rw [← heq]
          exact ⟨rfl, by simp⟩

theorem decode_type {bl : BufLen} {m : FssMessage}
    (h : decode bl = .ok (some m)) :
    m.type = m.body.decodedType ∧ m.type ≠ .closed := by
  cases htype : readNat bl 2 2 with
  | error e => simp [decode, htype] at h
  | ok type =>
      cases hid : readNat bl 4 8 with
      | error e => simp [decode, htype, hid] at h
      | ok id =>
          simp only [decode, htype, hid, ok_bind] at h
          exact decodeAs_type h

/-- The tag agrees with the class, but for an `identity_required` that was
decoded. -/
theorem Constructed.type_eq {m : FssMessage} (h : Constructed m) :
    m.type = m.body.sentType ∨ m.type = m.body.decodedType := by
  induction h with
  | setId id h ih => exact ih
  | decoded h => exact Or.inr (decode_type h).1
  | _ => exact Or.inl rfl

/-- Only an `identity_required` that was decoded has another tag than its
class sends. -/
theorem Constructed.sentType_or {m : FssMessage} (h : Constructed m) :
    m.type = m.body.sentType ∨
      (m.type = .identity ∧ m.body = .identityRequired) := by
  rcases h.type_eq with hsent | hdecoded
  · exact Or.inl hsent
  · cases hbody : m.body with
    | identityRequired =>
        rw [hbody] at hdecoded
        exact Or.inr ⟨hdecoded, rfl⟩
    | _ =>
        rw [hbody] at hdecoded
        exact Or.inl hdecoded

/-- The length field of a buffer. -/
def lengthField (bl : BufLen) : Nat :=
  ofBigEndian (bl.take 2)

theorem lengthField_lt (bl : BufLen) : lengthField bl < 65536 := by
  have hlt := ofBigEndian_lt (bl.take 2)
  have hpow : 256 ^ (bl.take 2).length ≤ 256 ^ 2 :=
    Nat.pow_le_pow_right (by decide) (List.length_take_le 2 bl)
  exact Nat.lt_of_lt_of_le hlt hpow

/-! Following a buffer field by field. -/

section Follow

variable {bl : BufLen} {offset : Nat} {rest : Bytes}

theorem remaining_of_holds (h : Holds bl offset rest)
    (hsize : bl.length < 2 ^ 64) : bl.remaining offset = rest.length := by
  have hlength := h.length_eq
  unfold BufLen.remaining BufLen.getLength
  omega

theorem fetch_holds {α : Type} {width n : Nat}
    (h : Holds bl offset (bigEndian width n ++ rest)) (hn : n < 256 ^ width)
    (hsize : bl.length < 2 ^ 64) (current : α) (ofNet : Nat → α) :
    bl.fetch offset width current ofNet = .ok (ofNet n, offset + width) := by
  have hroom : width ≤ bl.remaining offset := by
    rw [remaining_of_holds h hsize]
    simp
  simp only [BufLen.fetch, hroom, ↓reduceIte, h.readNat_of_lt hn, ok_bind]
  rfl

/-- A guarded read of a field that is there, inside a decoder. -/
theorem fetch_bind {α β : Type} {width n : Nat}
    (h : Holds bl offset (bigEndian width n ++ rest)) (hn : n < 256 ^ width)
    (hsize : bl.length < 2 ^ 64) (current : α) (ofNet : Nat → α)
    (k : α × Nat → Except OutOfBounds β) :
    (bl.fetch offset width current ofNet >>= k) =
      k (ofNet n, offset + width) := by
  rw [fetch_holds h hn hsize, ok_bind]

theorem length_cut16 (val : Bytes) :
    (cut16 val).length = val.length % 65536 := by
  unfold cut16
  rw [List.length_take]
  exact Nat.min_eq_left (Nat.mod_le _ _)

theorem length_stringField (keep : Bytes → Bytes) (start : Nat)
    (val : Bytes) : (stringField keep start val).length =
      2 + (keep val).length + alignSkip (start + 2 + (keep val).length) := by
  simp [stringField, zeros, Nat.add_assoc]

/-- A packed string is read back as it was cut, and the offset the decoder
goes on from is the one the packer went on from. -/
theorem assign_holds {val : Bytes}
    (h : Holds bl offset (stringField cut16 offset val ++ rest)) :
    readNat bl offset 2 = .ok (val.length % 65536) ∧
      bl.assign (offset + 2) (val.length % 65536) =
        .ok (cut16 val, offset + (stringField cut16 offset val).length) := by
  rw [stringField, List.append_assoc, List.append_assoc] at h
  refine ⟨h.readNat, ?_⟩
  have hval := (h.skip (length_bigEndian 2 val.length)).read
    (length_cut16 val)
  simp only [BufLen.assign, hval, ok_bind]
  rw [length_stringField, length_cut16]
  simp only [pure, Except.pure, Nat.add_assoc]

theorem fetchString_holds {val : Bytes} {next : Nat}
    (h : Holds bl offset (stringField cut16 offset val ++ rest))
    (hnext : offset + (stringField cut16 offset val).length = next)
    (hsize : bl.length < 2 ^ 64) :
    bl.fetchString offset [] = .ok (cut16 val, next) ∧ Holds bl next rest := by
  have hroom : 2 ≤ bl.remaining offset := by
    rw [remaining_of_holds h hsize, List.length_append, length_stringField]
    omega
  obtain ⟨hlen, hassign⟩ := assign_holds h
  rw [hnext] at hassign
  refine ⟨?_, hnext ▸ h.skip rfl⟩
  simp only [BufLen.fetchString, hroom, ↓reduceIte, hlen, ok_bind, hassign]

def SmmSettings.received (s : SmmSettings) : SmmSettings :=
  ⟨cut16 s.serverUrl, cut16 s.username, cut16 s.password⟩

theorem SmmSettings.unpackData_holds (s : SmmSettings)
    (h : Holds bl headerLength (s.payload cut16 headerLength ++ rest))
    (hsize : bl.length < 2 ^ 64) :
    SmmSettings.unpackData bl = .ok s.received := by
  simp only [SmmSettings.payload, List.append_assoc] at h
  generalize hnext₁ : headerLength +
    (stringField cut16 headerLength s.serverUrl).length = next₁ at h
  obtain ⟨hurl, h₁⟩ := fetchString_holds h hnext₁ hsize
  generalize hnext₂ :
    next₁ + (stringField cut16 next₁ s.username).length = next₂ at h₁
  obtain ⟨huser, h₂⟩ := fetchString_holds h₁ hnext₂ hsize
  generalize hnext₃ :
    next₂ + (stringField cut16 next₂ s.password).length = next₃
  obtain ⟨hpassword, _⟩ := fetchString_holds h₂ hnext₃ hsize
  unfold SmmSettings.unpackData
  rw [hurl, ok_bind]
  dsimp only
  rw [huser, ok_bind]
  dsimp only
  rw [hpassword, ok_bind]
  rfl

theorem fetchServer_holds {server : Bytes × UInt16} {next : Nat}
    (h : Holds bl offset (bigEndian 2 server.2.toNat ++
      (stringField cut16 (offset + 2) server.1 ++ rest)))
    (hnext :
      offset + 2 + (stringField cut16 (offset + 2) server.1).length = next) :
    fetchServer bl offset = .ok ((cut16 server.1, server.2), next) ∧
      Holds bl next rest := by
  have hstring := h.skip (length_bigEndian 2 _)
  obtain ⟨hlen, hassign⟩ := assign_holds hstring
  rw [hnext] at hassign
  refine ⟨?_, hnext ▸ hstring.skip rfl⟩
  unfold fetchServer
  rw [h.readNat_of_lt server.2.toNat_lt, ok_bind, hlen, ok_bind, hassign,
    ok_bind, UInt16.ofNat_toNat]
  rfl

/-- The entries of a server list are read back one by one, and what is left
behind them is too short for another. -/
theorem unpackServers_holds (servers : List (Bytes × UInt16))
    (h : Holds bl offset (serverFields cut16 offset servers ++ rest))
    (hrest : rest.length < 4) (hsize : bl.length < 2 ^ 64) :
    unpackServers bl offset =
      .ok (servers.map fun server => (cut16 server.1, server.2)) := by
  induction servers generalizing offset with
  | nil =>
      apply unpackServers_of_few
      rw [remaining_of_holds h hsize]
      exact hrest
  | cons server others ih =>
      have hroom : 4 ≤ bl.remaining offset := by
        rw [remaining_of_holds h hsize]
        simp only [serverFields, List.length_append, length_bigEndian,
          length_stringField]
        omega
      simp only [serverFields, List.append_assoc, List.length_append,
        length_bigEndian, ← Nat.add_assoc] at h
      generalize hnext : offset + 2 +
        (stringField cut16 (offset + 2) server.1).length = next at h
      obtain ⟨hentry, hothers⟩ := fetchServer_holds h hnext
      rw [unpackServers]
      simp only [hroom, ↓reduceIte]
      split
      next e herror => rw [hentry] at herror; cases herror
      next entry after hok =>
          rw [hentry] at hok
          cases hok
          rw [ih hothers]
          rfl

/-- A name ends where it did when zeros are put behind it. -/
theorem takeWhile_append_zeros (name : Bytes) (count : Nat) :
    (name ++ zeros count).takeWhile (· ≠ 0) = name.takeWhile (· ≠ 0) := by
  have hzeros : (zeros count).takeWhile (· ≠ 0) = [] := by
    cases count with
    | zero => rfl
    | succ count => rfl
  rw [List.takeWhile_append, hzeros, List.append_nil]
  split
  next hlength =>
      exact ((List.takeWhile_prefix _).eq_of_length hlength).symm
  next => rfl

theorem unpackName_holds {name : Bytes} {count : Nat}
    (h : Holds bl headerLength (name ++ zeros count))
    (hsize : bl.length < 2 ^ 64) :
    unpackName bl = .ok (name.takeWhile (· ≠ 0)) := by
  have hname : Holds bl headerLength (name ++ zeros count ++ []) := by
    simpa using h
  unfold unpackName
  rw [remaining_of_holds h hsize, hname.read rfl, ok_bind,
    takeWhile_append_zeros]
  rfl

theorem unpackRequestId_holds (value : UInt64)
    (h : Holds bl headerLength (bigEndian 8 value.toNat ++ rest))
    (hsize : bl.length < 2 ^ 64) : unpackRequestId bl = .ok value := by
  unfold unpackRequestId
  simp only [fetch_bind h value.toNat_lt hsize, UInt64.ofNat_toNat]
  rfl

end Follow

theorem packCoordinate_lt [Target] (v : Double) :
    packCoordinate v < 256 ^ 4 :=
  (v.div fltToInt).toInt32.toUInt32.toNat_lt

/-! What each class receives. -/

section Received

variable [Target]

/-- The time since last contact is not sent. -/
def PositionReport.received (r : PositionReport) : PositionReport :=
  { r with
    latitude := unpackCoordinate (packCoordinate r.latitude)
    longitude := unpackCoordinate (packCoordinate r.longitude)
    callsign := cut16 r.callsign
    tslc := 0 }

def SystemStatus.received (s : SystemStatus) : SystemStatus :=
  { s with voltage := unpackVoltage (packCoordinate s.voltage) }

def AssetCommand.received (c : AssetCommand) : AssetCommand :=
  { c with
    latitude := unpackCoordinateFloat (packCoordinate c.latitude)
    longitude := unpackCoordinateFloat (packCoordinate c.longitude) }

/-- A name ends at its first NUL byte; strings with a length prefix do not. -/
def FssMessageBody.received : FssMessageBody → FssMessageBody
  | .identity name => .identity ((cut16 name).takeWhile (· ≠ 0))
  | .positionReport report => .positionReport report.received
  | .systemStatus status => .systemStatus status.received
  | .assetCommand command => .assetCommand command.received
  | .smmSettings settings => .smmSettings settings.received
  | .serverList servers =>
      .serverList (servers.map fun server => (cut16 server.1, server.2))
  | body => body

theorem FssMessageBody.class_received (body : FssMessageBody) :
    body.received.class = body.class := by
  cases body <;> rfl

variable {bl : BufLen} {tail : Bytes}

/-! The decoder of a position report in three parts, each with what has been
decoded so far. -/

def PositionReport.unpackTail (bl : BufLen) (r : PositionReport)
    (o : Nat) : Except OutOfBounds PositionReport := do
  let (flags, o) ← bl.fetch o 2 r.flags UInt16.ofNat
  let (altitudeType, o) ← bl.fetch o 1 r.altitudeType UInt8.ofNat
  let (emitterType, _) ← bl.fetch o 1 r.emitterType UInt8.ofNat
  pure { r with flags, altitudeType, emitterType }

def PositionReport.unpackNarrow (bl : BufLen) (r : PositionReport)
    (o : Nat) : Except OutOfBounds PositionReport := do
  let (heading, o) ← bl.fetch o 2 r.heading UInt16.ofNat
  let (horizontalVelocity, o) ← bl.fetch o 2 r.horizontalVelocity UInt16.ofNat
  let (verticalVelocity, o) ←
    bl.fetch o 2 r.verticalVelocity (fun raw => (UInt16.ofNat raw).toInt16)
  let (squawk, o) ← bl.fetch o 2 r.squawk UInt16.ofNat
  let (callsign, o) ← bl.fetchString o r.callsign
  unpackTail bl
    { r with heading, horizontalVelocity, verticalVelocity, squawk, callsign } o

def PositionReport.unpackWide (bl : BufLen) (r : PositionReport)
    (o : Nat) : Except OutOfBounds PositionReport := do
  let (latitude, o) ← bl.fetch o 4 r.latitude unpackCoordinate
  let (longitude, o) ← bl.fetch o 4 r.longitude unpackCoordinate
  let (altitude, o) ← bl.fetch o 4 r.altitude UInt32.ofNat
  let (icaoAddress, o) ← bl.fetch o 4 r.icaoAddress UInt32.ofNat
  unpackNarrow bl { r with latitude, longitude, altitude, icaoAddress } o

omit [Target] in
theorem PositionReport.unpackData_eq (bl : BufLen) :
    PositionReport.unpackData bl = (do
      let (timestamp, o) ← bl.fetch headerLength 8 0 UInt64.ofNat
      unpackWide bl { timestamp } o) :=
  rfl

/-- The payload up to the end of the callsign. -/
def PositionReport.front (r : PositionReport) : Bytes :=
  bigEndian 8 r.timestamp.toNat ++
  (bigEndian 4 (packCoordinate r.latitude) ++
  (bigEndian 4 (packCoordinate r.longitude) ++
  (bigEndian 4 r.altitude.toNat ++
  (bigEndian 4 r.icaoAddress.toNat ++
  (bigEndian 2 r.heading.toNat ++
  (bigEndian 2 r.horizontalVelocity.toNat ++
  (bigEndian 2 r.verticalVelocity.toUInt16.toNat ++
  (bigEndian 2 r.squawk.toNat ++
  stringField cut16 44 r.callsign))))))))

theorem PositionReport.payload_eq_front (r : PositionReport) :
    r.payload cut16 headerLength =
      r.front ++ (bigEndian 2 r.flags.toNat ++
        (bigEndian 1 r.altitudeType.toNat ++
        bigEndian 1 r.emitterType.toNat)) := by
  simp only [front, List.append_assoc]
  rfl

theorem PositionReport.length_front (r : PositionReport) :
    headerLength + r.front.length =
      44 + (stringField cut16 44 r.callsign).length := by
  simp only [front, List.length_append, length_bigEndian, headerLength]
  omega

theorem PositionReport.unpackData_front (r : PositionReport)
    (h : Holds bl headerLength (r.front ++ tail)) (hsize : bl.length < 2 ^ 64) :
    PositionReport.unpackData bl =
      unpackTail bl
        { r.received with flags := 0, altitudeType := 0, emitterType := 0 }
        (44 + (stringField cut16 44 r.callsign).length) ∧
      Holds bl (44 + (stringField cut16 44 r.callsign).length) tail := by
  simp only [front, List.append_assoc] at h
  have h₁ : Holds bl 20 _ := h.skip (length_bigEndian 8 _)
  have h₂ : Holds bl 24 _ := h₁.skip (length_bigEndian 4 _)
  have h₃ : Holds bl 28 _ := h₂.skip (length_bigEndian 4 _)
  have h₄ : Holds bl 32 _ := h₃.skip (length_bigEndian 4 _)
  have h₅ : Holds bl 36 _ := h₄.skip (length_bigEndian 4 _)
  have h₆ : Holds bl 38 _ := h₅.skip (length_bigEndian 2 _)
  have h₇ : Holds bl 40 _ := h₆.skip (length_bigEndian 2 _)
  have h₈ : Holds bl 42 _ := h₇.skip (length_bigEndian 2 _)
  have h₉ : Holds bl 44 _ := h₈.skip (length_bigEndian 2 _)
  obtain ⟨hstring, h₁₀⟩ := fetchString_holds h₉ rfl hsize
  refine ⟨?_, h₁₀⟩
  unfold headerLength at h
  rw [unpackData_eq]
  unfold unpackWide unpackNarrow headerLength
  simp only [fetch_bind h r.timestamp.toNat_lt hsize, Nat.reduceAdd,
    fetch_bind h₁ (packCoordinate_lt _) hsize,
    fetch_bind h₂ (packCoordinate_lt _) hsize,
    fetch_bind h₃ r.altitude.toNat_lt hsize,
    fetch_bind h₄ r.icaoAddress.toNat_lt hsize,
    fetch_bind h₅ r.heading.toNat_lt hsize,
    fetch_bind h₆ r.horizontalVelocity.toNat_lt hsize,
    fetch_bind h₇ r.verticalVelocity.toUInt16.toNat_lt hsize,
    fetch_bind h₈ r.squawk.toNat_lt hsize]
  rw [hstring, ok_bind]
  simp only [UInt64.ofNat_toNat, UInt32.ofNat_toNat, UInt16.ofNat_toNat]
  rfl

omit [Target] in
theorem PositionReport.unpackTail_holds (r : PositionReport) {o : Nat}
    (h : Holds bl o (bigEndian 2 r.flags.toNat ++
      (bigEndian 1 r.altitudeType.toNat ++
      (bigEndian 1 r.emitterType.toNat ++ tail))))
    (hsize : bl.length < 2 ^ 64) (before : PositionReport) :
    unpackTail bl before o = .ok
      { before with
        flags := r.flags
        altitudeType := r.altitudeType
        emitterType := r.emitterType } := by
  have h₁ := h.skip (length_bigEndian 2 _)
  have h₂ := h₁.skip (length_bigEndian 1 _)
  unfold unpackTail
  simp only [fetch_bind h r.flags.toNat_lt hsize,
    fetch_bind h₁ r.altitudeType.toNat_lt hsize,
    fetch_bind h₂ r.emitterType.toNat_lt hsize, UInt16.ofNat_toNat,
    UInt8.ofNat_toNat]
  rfl

theorem PositionReport.unpackData_holds (r : PositionReport)
    (h : Holds bl headerLength (r.payload cut16 headerLength ++ tail))
    (hsize : bl.length < 2 ^ 64) :
    PositionReport.unpackData bl = .ok r.received := by
  rw [PositionReport.payload_eq_front, List.append_assoc] at h
  obtain ⟨hdata, htail⟩ := r.unpackData_front h hsize
  rw [List.append_assoc, List.append_assoc] at htail
  rw [hdata, r.unpackTail_holds htail hsize]
  rfl

theorem SystemStatus.unpackData_holds (s : SystemStatus)
    (h : Holds bl headerLength
      ((FssMessageBody.systemStatus s).payload cut16 headerLength ++ tail))
    (hsize : bl.length < 2 ^ 64) :
    SystemStatus.unpackData bl = .ok s.received := by
  have hroom : 5 ≤ bl.remaining headerLength := by
    rw [remaining_of_holds h hsize]
    simp [FssMessageBody.payload]
    omega
  simp only [FssMessageBody.payload, List.append_assoc] at h
  have h₁ := h.skip (length_bigEndian 1 _)
  have h₂ := h₁.skip (length_bigEndian 4 _)
  unfold SystemStatus.unpackData
  simp only [hroom, ↓reduceIte]
  rw [h.readNat_of_lt s.batPercent.toNat_lt, ok_bind,
    h₁.readNat_of_lt s.mahUsed.toNat_lt, ok_bind, pure_bind]
  simp only [fetch_bind h₂ (packCoordinate_lt _) hsize, UInt32.ofNat_toNat,
    UInt8.ofNat_toNat]
  rfl

theorem SearchStatus.unpackData_holds (s : SearchStatus)
    (h : Holds bl headerLength
      ((FssMessageBody.searchStatus s).payload cut16 headerLength ++ tail))
    (hsize : bl.length < 2 ^ 64) :
    SearchStatus.unpackData bl = .ok s := by
  have hroom : 24 ≤ bl.remaining headerLength := by
    rw [remaining_of_holds h hsize]
    simp [FssMessageBody.payload]
    omega
  simp only [FssMessageBody.payload, List.append_assoc] at h
  have h₁ := h.skip (length_bigEndian 8 _)
  have h₂ := h₁.skip (length_bigEndian 8 _)
  unfold SearchStatus.unpackData
  simp only [hroom, ↓reduceIte]
  rw [h.readNat_of_lt s.searchId.toNat_lt, ok_bind,
    h₁.readNat_of_lt s.pointCompleted.toNat_lt, ok_bind,
    h₂.readNat_of_lt s.pointsTotal.toNat_lt, ok_bind]
  simp only [UInt64.ofNat_toNat]
  rfl

theorem AssetCommand.unpackData_holds (c : AssetCommand)
    (h : Holds bl headerLength
      ((FssMessageBody.assetCommand c).payload cut16 headerLength ++ tail))
    (hsize : bl.length < 2 ^ 64) :
    AssetCommand.unpackData bl = .ok c.received := by
  have hroom : 21 ≤ bl.remaining headerLength := by
    rw [remaining_of_holds h hsize]
    simp [FssMessageBody.payload]
    omega
  simp only [FssMessageBody.payload, List.append_assoc] at h
  have h₁ := h.skip (length_bigEndian 8 _)
  have h₂ := h₁.skip (length_bigEndian 4 _)
  have h₃ := h₂.skip (length_bigEndian 4 _)
  have h₄ := h₃.skip (length_bigEndian 4 _)
  unfold AssetCommand.unpackData unpackDataBy
  simp only [hroom, ↓reduceIte]
  rw [h.readNat_of_lt c.timestamp.toNat_lt, ok_bind,
    h₁.readNat_of_lt (packCoordinate_lt _), ok_bind,
    h₂.readNat_of_lt (packCoordinate_lt _), ok_bind,
    h₃.readNat_of_lt c.altitude.toNat_lt, ok_bind,
    h₄.readNat_of_lt c.command.toCode.toNat_lt, ok_bind]
  simp only [UInt64.ofNat_toNat, UInt32.ofNat_toNat, UInt8.ofNat_toNat,
    FssAssetCommand.ofCode_toCode]
  rfl

/-- What a peer makes of a message: nothing of a closed one, and an identity
of an `identity_required` that was itself decoded. -/
def FssMessage.received (m : FssMessage) : Option FssMessage :=
  match m.type, m.body with
  | .closed, _ => none
  | .identity, .identityRequired => some ⟨m.id, .identity, .identity []⟩
  | _, body => some ⟨m.id, body.decodedType, body.received⟩

theorem FssMessage.header_holds (m : FssMessage) (rest : Bytes) :
    Holds (m.header ++ rest) headerLength rest := by
  rw [← m.length_header]
  exact Holds.append m.header rest

theorem FssMessage.frame_holds (m : FssMessage) (tail : Bytes) :
    Holds (m.frame ++ tail) headerLength
      (m.body.payload cut16 headerLength ++ tail) := by
  rw [frame_eq, List.append_assoc]
  exact m.header_holds _

/-- The decoder of a buffer is chosen by the tag and given the id that the
sender packed, whatever follows the header. -/
theorem FssMessage.decode_header (m : FssMessage) (rest : Bytes) :
    decode (m.header ++ rest) =
      decodeAs (some m.type) m.id (m.header ++ rest) := by
  have hbuffer : Holds (m.header ++ rest) 0 (m.header ++ rest) :=
    ⟨Nat.zero_le _, rfl⟩
  have hlong : m.header ++ rest = bigEndian 2 m.unpaddedLength ++
      (bigEndian 2 m.type.toCode ++ (bigEndian 8 m.id.toNat ++ rest)) := by
    simp [header]
  rw [hlong] at hbuffer
  have htype := hbuffer.skip (length_bigEndian 2 _)
  have hid := htype.skip (length_bigEndian 2 _)
  rw [← hlong] at htype hid
  have hcode : m.type.toCode < 256 ^ 2 :=
    Nat.lt_of_lt_of_le m.type.toCode_lt (by decide)
  unfold decode
  rw [htype.readNat_of_lt hcode, ok_bind, hid.readNat_of_lt m.id.toNat_lt,
    ok_bind, FssMessageType.ofCode?_toCode, UInt64.ofNat_toNat]

theorem FssMessage.decode_frame_append (m : FssMessage) (tail : Bytes) :
    decode (m.frame ++ tail) =
      decodeAs (some m.type) m.id (m.frame ++ tail) := by
  rw [frame_eq, List.append_assoc]
  exact m.decode_header _

/-- Padding that the loop of a server list does not take for an entry; no other
decoder looks at what follows its fields. -/
def FssMessageBody.Ignores (body : FssMessageBody) (count : Nat) : Prop :=
  body.class = .serverList → count < 4

/-- The decoder that a class's own tag selects, on a buffer with the payload
of that class and some padding. -/
theorem decodeAs_sentType {body : FssMessageBody} {count : Nat} (id : UInt64)
    (h : Holds bl headerLength
      (body.payload cut16 headerLength ++ zeros count))
    (hsize : bl.length < 2 ^ 64) (hopen : body ≠ .closed)
    (hpadding : body.Ignores count) :
    decodeAs (some body.sentType) id bl =
      .ok (some ⟨id, body.decodedType, body.received⟩) := by
  cases body with
  | closed => exact absurd rfl hopen
  | rttRequest | identityRequired => rfl
  | identity name =>
      simp only [FssMessageBody.sentType, decodeAs, decodeIdentity,
        unpackName_holds h hsize, ok_bind]
      rfl
  | rttResponse requestId =>
      simp only [FssMessageBody.sentType, decodeAs, decodeRttResponse,
        unpackRequestId_holds requestId h hsize, ok_bind]
      rfl
  | positionReport report =>
      simp only [FssMessageBody.sentType, decodeAs, decodePositionReport,
        report.unpackData_holds h hsize, ok_bind]
      rfl
  | systemStatus status =>
      simp only [FssMessageBody.sentType, decodeAs, decodeSystemStatus,
        status.unpackData_holds h hsize, ok_bind]
      rfl
  | searchStatus status =>
      simp only [FssMessageBody.sentType, decodeAs, decodeSearchStatus,
        status.unpackData_holds h hsize, ok_bind]
      rfl
  | assetCommand command =>
      simp only [FssMessageBody.sentType, decodeAs, decodeAssetCommand,
        command.unpackData_holds h hsize, ok_bind]
      rfl
  | smmSettings settings =>
      simp only [FssMessageBody.sentType, decodeAs, decodeSmmSettings,
        settings.unpackData_holds h hsize, ok_bind]
      rfl
  | serverList servers =>
      have hshort : (zeros count).length < 4 := by
        rw [zeros, List.length_replicate]
        exact hpadding rfl
      simp only [FssMessageBody.sentType, decodeAs, decodeServerList,
        unpackServers_holds servers h hshort hsize, ok_bind]
      rfl
  | identityNonAircraft capabilities =>
      have hvalue : unpackCapabilities bl = .ok capabilities :=
        unpackRequestId_holds capabilities h hsize
      simp only [FssMessageBody.sentType, decodeAs, decodeIdentityNonAircraft,
        hvalue, ok_bind]
      rfl

theorem FssMessage.received_of_sentType {m : FssMessage}
    (htype : m.type = m.body.sentType) (hopen : m.body ≠ .closed) :
    m.received = some ⟨m.id, m.body.decodedType, m.body.received⟩ := by
  rcases m with ⟨id, type, body⟩
  change type = body.sentType at htype
  subst htype
  cases body with
  | closed => exact absurd rfl hopen
  | _ => rfl

/-- A decoder stays inside a padded frame and makes of it what `received`
says, where the padding is ignored. -/
theorem FssMessage.decode_frame_zeros {m : FssMessage} (hm : Constructed m)
    (hfits : m.unpaddedLength < 65536) {count : Nat} (hcount : count < 65536)
    (hpadding : m.body.Ignores count) :
    decode (m.frame ++ zeros count) = .ok m.received := by
  have h := m.frame_holds (zeros count)
  have hsize : (m.frame ++ zeros count).length < 2 ^ 64 := by
    rw [List.length_append, length_frame, zeros, List.length_replicate]
    omega
  rw [decode_frame_append]
  rcases hm.sentType_or with hsent | ⟨hidentity, hbody⟩
  · by_cases hopen : m.body = .closed
    · rw [received, hsent, hopen]
      rfl
    · rw [hsent, decodeAs_sentType m.id h hsize hopen hpadding,
        received_of_sentType hsent hopen]
  · rw [hbody] at h
    have hname : unpackName (m.frame ++ zeros count) = .ok [] :=
      @unpackName_holds _ [] count h hsize
    rw [received, hidentity, hbody]
    simp only [decodeAs, decodeIdentity, hname]
    rfl

/-- The peer's decoder stays inside the frame of every message it can be
sent, and makes of it what `received` says. -/
theorem FssMessage.decode_frame {m : FssMessage} (hm : Constructed m)
    (hfits : m.unpaddedLength < 65536) : decode m.frame = .ok m.received := by
  have h := decode_frame_zeros hm hfits (by decide : 0 < 65536)
    (fun _ => by decide)
  rwa [zeros, List.replicate_zero, List.append_nil] at h

/-- The part of a packed buffer that the peer decodes: as much as its length
field says. -/
def FssMessage.onWire (m : FssMessage) : BufLen :=
  m.getPacked.take (lengthField m.getPacked)

/-- The length field holds what 16 bits hold of the length. -/
theorem FssMessage.lengthField_getPacked_mod (m : FssMessage)
    (hmore : 2 < m.unpaddedLength % 65536) :
    lengthField m.getPacked = m.unpaddedLength % 65536 := by
  rw [lengthField, getPacked_eq_of_lt m hmore, frame, List.append_assoc,
    List.append_assoc, List.append_assoc, List.take_left' (by simp),
    ofBigEndian_bigEndian]
  rfl

theorem FssMessage.lengthField_getPacked (m : FssMessage)
    (hfits : m.unpaddedLength < 65536) :
    lengthField m.getPacked = m.unpaddedLength := by
  rw [m.lengthField_getPacked_mod (two_lt_unpaddedLength_mod hfits),
    Nat.mod_eq_of_lt hfits]

/-- The peer decodes as much of the frame as its length field says. -/
theorem FssMessage.onWire_eq_take (m : FssMessage)
    (hmore : 2 < m.unpaddedLength % 65536) :
    m.onWire = m.frame.take (m.unpaddedLength % 65536) := by
  have hwithin : m.unpaddedLength % 65536 ≤ m.frame.length := by
    rw [length_frame]
    exact Nat.mod_le _ _
  rw [onWire, lengthField_getPacked_mod m hmore, getPacked_eq_of_lt m hmore,
    List.take_append_of_le_length hwithin]

theorem FssMessage.onWire_eq (m : FssMessage)
    (hfits : m.unpaddedLength < 65536) : m.onWire = m.frame := by
  rw [onWire_eq_take m (two_lt_unpaddedLength_mod hfits),
    Nat.mod_eq_of_lt hfits, ← length_frame, List.take_length]

/-- A message arrives with its class, tag and id, unless it says that an
identity is required. -/
theorem onWire_preserved_iff {m : FssMessage} (hm : Constructed m)
    (hopen : m.body.class ≠ .closed) (hfits : m.unpaddedLength < 65536) :
    (∃ m', decode m.onWire = .ok (some m') ∧
      m'.body.class = m.body.class ∧ m'.type = m.type ∧ m'.id = m.id) ↔
      m.body.class ≠ .identityRequired := by
  rw [m.onWire_eq hfits, FssMessage.decode_frame hm hfits]
  have hbody : m.body ≠ .closed := fun h => hopen (by rw [h]; rfl)
  rcases hm.sentType_or with hsent | ⟨hidentity, hrequired⟩
  · rw [FssMessage.received_of_sentType hsent hbody]
    constructor
    · rintro ⟨m', hm', _, htype, _⟩ hclass
      cases hm'
      cases hrequired : m.body <;> rw [hrequired] at hclass <;> cases hclass
      simp only [hsent, hrequired] at htype
      cases htype
    · intro hclass
      refine ⟨_, rfl, m.body.class_received, ?_, rfl⟩
      rw [hsent]
      cases hrequired : m.body with
      | identityRequired => exact absurd (by rw [hrequired]; rfl) hclass
      | _ => rfl
  · rw [FssMessage.received, hidentity, hrequired]
    constructor
    · rintro ⟨m', hm', hclass, _⟩
      cases hm'
      cases hclass
    · exact fun hclass => absurd rfl hclass

end Received

/-- A status message, whose voltage passes through a coordinate. -/
theorem onWire_preserved_systemStatus :
    (∃ m', decode (@FssMessage.onWire Target.indefinite
        (fssMessageSystemStatus { batPercent := 50, voltage := .finite 12 })) =
          .ok (some m') ∧
      m'.body.class = .systemStatus ∧ m'.type = .systemStatus ∧ m'.id = 0) ↔
      FssMessageClass.systemStatus ≠ .identityRequired :=
  @onWire_preserved_iff Target.indefinite _ (.systemStatus _) (by decide)
    (by decide)

/-- The tag of an `identity_required` does not survive. -/
theorem onWire_identityRequired :
    ¬ ∃ m', decode (@FssMessage.onWire Target.indefinite
        fssMessageIdentityRequired) = .ok (some m') ∧
      m'.body.class = fssMessageIdentityRequired.body.class ∧
      m'.type = fssMessageIdentityRequired.type ∧
      m'.id = fssMessageIdentityRequired.id := by
  rintro ⟨m', hm', _, htype, _⟩
  have hdecoded : decode (@FssMessage.onWire Target.indefinite
      fssMessageIdentityRequired) =
        .ok (some ⟨0, .identity, .identityRequired⟩) := by decide
  rw [hdecoded] at hm'
  cases hm'
  cases htype

end FlightSafety
