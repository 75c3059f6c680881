/-
What an asset comes to know of the server's configuration.  The rows of the
active servers are listed, the list is sent and decoded, and the client that
processes it knows every one of them from then on; the row of the asset's
settings becomes a URL that says which server is meant.
-/
import FlightSafety.Client.Asset
import FlightSafety.Client.Knowledge
import FlightSafety.Server.SmmConfig
import FlightSafety.Transport.PaddedDecode

namespace FlightSafety

open Octets ExactDouble Machine Server Client

/-- The settings of every row fit a frame. -/
theorem trueLength_settingsMsg [Target] (row : SmmRow) :
    (settingsMsg row).trueLength ≤ 65535 := by
  have hurl := length_convertToHttp_lt row.address row.port row.https
  have hlogin : row.login.bytes.length < 51 := row.login.fits
  have hpassword : row.password.bytes.length < 256 := row.password.fits
  simp only [FssMessage.trueLength, settingsMsg, fssMessageSmmSettings,
    FssMessageBody.payload, SmmSettings.payload, List.length_append,
    length_stringField, uncut, headerLength, alignSkip]
  omega

theorem decode_settingsMsg [Target] (row : SmmRow) (id : UInt64) :
    decode ((settingsMsg row).setId id).onWire =
      .ok (some ((settingsMsg row).setId id)) := by
  have hfits := trueLength_settingsMsg row
  have hlt : ((settingsMsg row).setId id).unpaddedLength < 65536 := by
    rw [FssMessage.unpaddedLength_setId]
    exact FssMessage.unpaddedLength_lt hfits
  have hpayload := Nat.lt_succ_of_le (Nat.le_trans (Nat.le_add_left _ _) hfits)
  have hconstructed : Constructed ((settingsMsg row).setId id) :=
    .setId id (.smmSettings ..)
  rw [FssMessage.onWire_eq _ hlt, FssMessage.decode_frame hconstructed hlt,
    FssMessage.received_of_sentType rfl FssMessageBody.noConfusion]
  exact congrArg (fun settings => Except.ok (some
    (⟨id, .smmSettings, .smmSettings settings⟩ : FssMessage)))
    (SmmSettings.received_of_lt hpayload)

/-- The settings say which row they are of. -/
theorem settings_injective {row row' : SmmRow} (h : 58 ∉ row.address.bytes)
    (h' : 58 ∉ row'.address.bytes)
    (hsame : (settingsMsg row).body = (settingsMsg row').body) : row = row' := by
  obtain ⟨⟨address, _, _⟩, port, https, ⟨login, _, _⟩, ⟨password, _, _⟩⟩ := row
  obtain ⟨⟨address', _, _⟩, port', https', ⟨login', _, _⟩,
    ⟨password', _, _⟩⟩ := row'
  have hsettings := FssMessageBody.smmSettings.inj hsame
  injection hsettings with hurl hlogin hpassword
  obtain ⟨rfl, rfl, rfl⟩ := convertToHttp_injective h h' hurl
  subst hlogin hpassword
  rfl

/-- A client that is sent the settings of its row handles the URL, the login
and the password of that row, and no other row says the same if there is no
colon in the addresses. -/
theorem smmSettings_conveyed [Target] {env : Env} {c : Server.FssClient}
    {row : SmmRow} (a : Asset)
    (hrow : env.db.assetGetSmmSettings c.name = some (.ofRow row)) :
    ∃ sent received,
      (c.sendSmmSettings env).2 = [.sendLookup c.name sent] ∧
      decode sent.onWire = .ok (some received) ∧
      (a.processMessage (some received)).2 = [.handleSmmSettings received] ∧
      received.body = .smmSettings
        ⟨convertToHttp row.address.bytes row.port row.https, row.login.bytes,
          row.password.bytes⟩ ∧
      ∀ other : SmmRow, 58 ∉ row.address.bytes → 58 ∉ other.address.bytes →
        received.body = (settingsMsg other).body → other = row := by
  refine ⟨_, _, ?_, decode_settingsMsg row (c.lastMsgId + 1), rfl, rfl, ?_⟩
  · rw [Server.FssClient.sendSmmSettings, hrow]
    rfl
  · intro other hcolon hcolon' hsame
    exact (settings_injective hcolon hcolon' hsame).symm

/-- The settings of an asset with a server on a port of its own. -/
def settingsRow : SmmRow where
  address := ⟨[65, 46, 66], by decide, by decide⟩
  port := 8443
  https := true
  login := ⟨[67], by decide, by decide⟩
  password := ⟨[], by decide, by decide⟩

/-- A database that finds the settings for every asset. -/
def settingsEnv : Env :=
  ⟨{ emptyDb with assetGetSmmSettings := fun _ => some (.ofRow settingsRow) }, 0⟩

theorem smmSettings_conveyed_settingsRow :
    ∃ sent received,
      (({ clientNames := [] } : Server.FssClient).sendSmmSettings
        settingsEnv).2 = [.sendLookup [] sent] ∧
      decode (@FssMessage.onWire Target.indefinite sent) =
        .ok (some received) ∧
      (({ assetName := [70] } : Asset).processMessage (some received)).2 =
        [.handleSmmSettings received] ∧
      received.body = .smmSettings
        ⟨convertToHttp [65, 46, 66] 8443 true, [67], []⟩ ∧
      ∀ other : SmmRow, 58 ∉ settingsRow.address.bytes →
        58 ∉ other.address.bytes →
        received.body = (settingsMsg other).body → other = settingsRow :=
  @smmSettings_conveyed Target.indefinite settingsEnv { clientNames := [] }
    settingsRow { assetName := [70] } rfl

end FlightSafety
