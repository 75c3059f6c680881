/-
Decoding a packed buffer with its padding still on it, as the users of the
library do, and without it, as a peer does.  Only the loop of a server list
looks behind its fields, and only an empty list leaves padding it takes for an
entry.
-/
import FlightSafety.Transport.Send

namespace FlightSafety

open Octets ExactDouble

/-- Both decoders stay inside their buffer and return the same. -/
def DecodesAlike [Target] (m : FssMessage) : Prop :=
  ∃ result, decode m.getPacked = .ok result ∧ decode m.onWire = .ok result

/-- Both decoders return the message itself. -/
def Recovered [Target] (m : FssMessage) : Prop :=
  decode m.getPacked = .ok (some m) ∧ decode m.onWire = .ok (some m)

/-! Where the padding is. -/

theorem stringField_aligned (keep : Bytes → Bytes) (start : Nat)
    (val : Bytes) : (start + (stringField keep start val).length) % 8 = 0 := by
  rw [length_stringField]
  unfold alignSkip
  omega

/-- Behind the last entry of a server list the offset is a multiple of eight. -/
theorem serverFields_aligned (keep : Bytes → Bytes) (start : Nat)
    (servers : List (Bytes × UInt16)) (hsome : servers ≠ []) :
    (start + (serverFields keep start servers).length) % 8 = 0 := by
  induction servers generalizing start with
  | nil => exact absurd rfl hsome
  | cons server rest ih =>
      have hentry := stringField_aligned keep (start + 2) server.1
      simp only [serverFields, List.length_append, length_bigEndian]
      by_cases hlast : rest = []
      · subst hlast
        simp only [serverFields, List.length_nil]
        omega
      · have hrest := ih (start +
          (2 + (stringField keep (start + 2) server.1).length)) hlast
        omega

theorem ignores_framePadding [Target] {m : FssMessage}
    (hbody : m.body ≠ .serverList []) :
    m.body.Ignores (framePadding m.unpaddedLength) := by
  intro hclass
  have hlength := m.unpaddedLength_eq
  cases hservers : m.body with
  | serverList servers =>
      rw [hservers, FssMessageBody.payload] at hlength
      have haligned := serverFields_aligned cut16 headerLength servers
        (fun hnone => hbody (by rw [hservers, hnone]))
      rw [← hlength] at haligned
      rw [framePadding, haligned]
      decide
  | _ =>
      rw [hservers] at hclass
      cases hclass

theorem decode_getPacked [Target] {m : FssMessage} (hm : Constructed m)
    (hfits : m.unpaddedLength < 65536) (hbody : m.body ≠ .serverList []) :
    decode m.getPacked = .ok m.received := by
  have hshort : framePadding m.unpaddedLength < 65536 := by
    unfold framePadding
    split <;> omega
  rw [m.getPacked_eq hfits]
  exact FssMessage.decode_frame_zeros hm hfits hshort
    (ignores_framePadding hbody)

/-! The list that is empty. -/

/-- Four bytes of padding announce an entry whose alignment ends outside. -/
theorem not_serversFit_zeros {bl : BufLen}
    (h : Holds bl headerLength (zeros 4)) : ¬ ServersFit bl headerLength := by
  have hlength : bl.length = headerLength + 4 := h.length_eq
  intro hfits
  cases hfits with
  | stop few =>
      unfold BufLen.remaining BufLen.getLength headerLength at few
      rw [hlength] at few
      exact absurd few (by decide)
  | entry room fits rest =>
      have hend := stringEnd_lt_fieldEnd bl (headerLength + 2)
      unfold fieldEnd stringEnd alignSkip headerLength at fits
      rw [hlength] at fits
      unfold headerLength at fits
      omega

theorem not_inside_getPacked_empty [Target] {m : FssMessage}
    (hm : Constructed m) (hbody : m.body = .serverList []) :
    ¬ Inside (decode m.getPacked) := by
  have hlength : m.unpaddedLength = 12 := by
    rw [m.unpaddedLength_eq, hbody]
    rfl
  have htype : m.type = .serverList := by
    rcases hm.sentType_or with hsent | ⟨_, hrequired⟩
    · rw [hsent, hbody]
      rfl
    · rw [hbody] at hrequired
      cases hrequired
  have hframe := m.frame_holds (zeros 4)
  rw [hbody] at hframe
  have hpacked : m.getPacked = m.frame ++ zeros 4 := by
    rw [m.getPacked_eq (by omega), hlength]
    rfl
  rw [hpacked, FssMessage.decode_frame_append, htype]
  simp only [decodeAs, decodeServerList, inside_map, inside_bind_pure]
  rw [unpackServers_inside_iff hframe.le]
  exact not_serversFit_zeros hframe

/-- A message that fits a frame is decoded alike with and without its padding,
unless it is a server list without entries. -/
theorem decodesAlike_iff [Target] {m : FssMessage} (hm : Constructed m)
    (hfits : m.unpaddedLength < 65536) :
    DecodesAlike m ↔ m.body ≠ .serverList [] := by
  constructor
  · rintro ⟨result, hpacked, _⟩ hbody
    exact not_inside_getPacked_empty hm hbody ⟨result, hpacked⟩
  · intro hbody
    refine ⟨m.received, decode_getPacked hm hfits hbody, ?_⟩
    rw [m.onWire_eq hfits, FssMessage.decode_frame hm hfits]

/-- A server list with one entry. -/
theorem decodesAlike_oneServer :
    @DecodesAlike Target.indefinite (fssMessageServerList [([49], 20202)]) ↔
      FssMessageBody.serverList [([49], 20202)] ≠ .serverList [] :=
  @decodesAlike_iff Target.indefinite _ (.serverList _) (by decide)

/-- The frame of an empty list is padded by four bytes, and the decoder goes
on from the end of the entry it makes of them. -/
theorem not_decodesAlike_noServer :
    ¬ @DecodesAlike Target.indefinite (fssMessageServerList []) := by
  rintro ⟨result, hpacked, _⟩
  exact @not_inside_getPacked_empty Target.indefinite _ (.serverList []) rfl
    ⟨result, hpacked⟩

/-! The messages of strings. -/

theorem length_lt_of_stringField {start : Nat} {val : Bytes}
    (h : (stringField uncut start val).length < 65536) :
    val.length < 65536 := by
  rw [length_stringField, uncut] at h
  omega

theorem SmmSettings.received_of_lt {start : Nat} {s : SmmSettings}
    (h : (s.payload uncut start).length < 65536) : s.received = s := by
  simp only [payload, List.length_append] at h
  have hurl := length_lt_of_stringField
    (by omega : (stringField uncut start s.serverUrl).length < 65536)
  have huser := length_lt_of_stringField
    (by omega : (stringField uncut (start +
      (stringField uncut start s.serverUrl).length) s.username).length < 65536)
  have hpassword := length_lt_of_stringField
    (Nat.lt_of_le_of_lt (Nat.le_trans (Nat.le_add_left _ _)
      (Nat.le_add_left _ _)) h)
  rw [received, cut16_of_lt hurl, cut16_of_lt huser, cut16_of_lt hpassword]

theorem takeWhile_of_not_mem {name : Bytes} (h : 0 ∉ name) :
    name.takeWhile (· ≠ 0) = name := by
  have hall : ∀ byte ∈ name, decide (byte ≠ 0) = true := by
    intro byte hbyte
    exact decide_eq_true fun hzero => h (hzero ▸ hbyte)
  have hwhole : (name ++ []).takeWhile (· ≠ 0) = name ++ [].takeWhile (· ≠ 0) :=
    List.takeWhile_append_of_pos hall
  rwa [List.takeWhile_nil, List.append_nil] at hwhole

theorem recovered_of_received [Target] {m : FssMessage} (hm : Constructed m)
    (hfits : m.trueLength ≤ 65535) (hbody : m.body ≠ .serverList [])
    (hsame : m.received = some m) : Recovered m := by
  have hlt := FssMessage.unpaddedLength_lt hfits
  constructor
  · rw [decode_getPacked hm hlt hbody, hsame]
  · rw [m.onWire_eq hlt, FssMessage.decode_frame hm hlt, hsame]

/-- The settings of a search management server, whatever their bytes, and an
identity without a NUL byte come back from both buffers, if they fit a
frame. -/
theorem strings_recovered [Target] (id : UInt64) :
    (∀ serverUrl username password,
      (fssMessageSmmSettings serverUrl username password).trueLength ≤ 65535 →
      Recovered
        ((fssMessageSmmSettings serverUrl username password).setId id)) ∧
    (∀ name, 0 ∉ name → (fssMessageIdentity name).trueLength ≤ 65535 →
      Recovered ((fssMessageIdentity name).setId id)) := by
  constructor
  · intro serverUrl username password hfits
    apply recovered_of_received (.setId id (.smmSettings ..)) hfits
      (by rintro ⟨⟩)
    have hpayload := Nat.lt_succ_of_le
      (Nat.le_trans (Nat.le_add_left _ _) hfits)
    have hsame := SmmSettings.received_of_lt hpayload
    simp only [FssMessage.received, FssMessage.setId, fssMessageSmmSettings,
      FssMessageBody.received, FssMessageBody.decodedType,
      FssMessageBody.sentType, hsame]
  · intro name hname hfits
    apply recovered_of_received (.setId id (.identity _)) hfits
      (by rintro ⟨⟩)
    have hlength : name.length < 65536 :=
      Nat.lt_succ_of_le (Nat.le_trans (Nat.le_add_left _ _) hfits)
    simp only [FssMessage.received, FssMessage.setId, fssMessageIdentity,
      FssMessageBody.received, FssMessageBody.decodedType,
      FssMessageBody.sentType, cut16_of_lt hlength,
      takeWhile_of_not_mem hname]

/-- Strings of eight, no and three bytes, and a name. -/
theorem strings_recovered_short :
    @Recovered Target.indefinite
      ((fssMessageSmmSettings (zeros 8) [] [0, 1, 255]).setId 7) ∧
    @Recovered Target.indefinite ((fssMessageIdentity [65, 66]).setId 7) :=
  ⟨(@strings_recovered Target.indefinite 7).1 _ _ _ (by decide),
    (@strings_recovered Target.indefinite 7).2 _ (by decide) (by decide)⟩

end FlightSafety
