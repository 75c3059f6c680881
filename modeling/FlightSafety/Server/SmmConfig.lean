/-
The settings of an asset on their way from the database: the address, the port
and the scheme of a server become one URL, and what the asset decodes says
which server it is.
-/
import FlightSafety.Lib.Decimal
import FlightSafety.Server.ActiveServers
import FlightSafety.Server.Client
import FlightSafety.Transport.RoundTrip

namespace FlightSafety.Server

open Octets ExactDouble

/-- `SMM_LOGIN_LEN` and `SMM_PASSWORD_LEN`, which count the NUL at the end. -/
def smmLoginLen : Nat := 51

def smmPasswordLen : Nat := 256

/-- The row of an asset's settings, none of whose columns is null. -/
structure SmmRow where
  address : CString smmServerLen
  port : Int32
  https : Bool
  login : CString smmLoginLen
  password : CString smmPasswordLen
deriving Repr, DecidableEq

def httpPort : Int32 := 80

def httpsPort : Int32 := 443

/-- `%s://`. -/
def scheme (https : Bool) : Bytes :=
  if https then [104, 116, 116, 112, 115, 58, 47, 47]
  else [104, 116, 116, 112, 58, 47, 47]

/-- The URL of a server, which has the port unless it is that of the scheme. -/
def convertToHttp (address : Bytes) (port : Int32) (https : Bool) : Bytes :=
  let defaultPort :=
    if https then decide (port = httpsPort) else decide (port = httpPort)
  if defaultPort then scheme https ++ address
  else scheme https ++ address ++ 58 :: decimalInt port.toInt

/-- `asset_get_smm_settings`, on the row that is found. -/
def SmmSettings.ofRow (row : SmmRow) : SmmSettings where
  address := convertToHttp row.address.bytes row.port row.https
  username := row.login.bytes
  password := row.password.bytes

/-- The port that a URL leaves out. -/
def schemePort : Bool → Int32
  | true => httpsPort
  | false => httpPort

/-- What follows the address in a URL. -/
def portSuffix (port : Int32) (https : Bool) : Bytes :=
  if port = schemePort https then [] else 58 :: decimalInt port.toInt

theorem convertToHttp_eq (address : Bytes) (port : Int32) (https : Bool) :
    convertToHttp address port https =
      scheme https ++ (address ++ portSuffix port https) := by
  by_cases hport : port = schemePort https
  · rw [portSuffix, if_pos hport, List.append_nil]
    cases https <;> exact if_pos (decide_eq_true hport)
  · rw [portSuffix, if_neg hport, ← List.append_assoc]
    cases https <;> exact if_neg (mt of_decide_eq_true hport)

theorem portSuffix_injective {port port' : Int32} {https : Bool}
    (h : portSuffix port https = portSuffix port' https) : port = port' := by
  unfold portSuffix at h
  split_ifs at h with hport hport' hport'
  · exact hport.trans hport'.symm
  · have hvalue := decimalInt_injective (List.cons.inj h).2
    exact Int32.toInt_inj.mp hvalue

/-- The address ends where the colon of the port is. -/
theorem takeWhile_portSuffix {address : Bytes} (h : 58 ∉ address)
    (port : Int32) (https : Bool) :
    (address ++ portSuffix port https).takeWhile (· ≠ 58) = address := by
  have hall : ∀ byte ∈ address, decide (byte ≠ 58) = true :=
    fun byte hbyte => decide_eq_true fun heq => h (heq ▸ hbyte)
  have hsuffix : (portSuffix port https).takeWhile (· ≠ 58) = [] := by
    unfold portSuffix
    split_ifs <;> rfl
  rw [List.takeWhile_append_of_pos hall, hsuffix, List.append_nil]

/-- A URL says which server it is, unless there is a colon in the address. -/
theorem convertToHttp_injective {address address' : Bytes}
    {port port' : Int32} {https https' : Bool} (h : 58 ∉ address)
    (h' : 58 ∉ address')
    (hsame : convertToHttp address port https =
      convertToHttp address' port' https') :
    address = address' ∧ port = port' ∧ https = https' := by
  rw [convertToHttp_eq, convertToHttp_eq] at hsame
  have hscheme : https = https' := by
    have hfifth := congrArg (·[4]?) hsame
    cases https <;> cases https' <;> simp [scheme] at hfifth ⊢
  subst hscheme
  have hrest := List.append_cancel_left hsame
  have haddress := congrArg (List.takeWhile (· ≠ 58)) hrest
  rw [takeWhile_portSuffix h, takeWhile_portSuffix h'] at haddress
  subst haddress
  exact ⟨rfl, portSuffix_injective (List.append_cancel_left hrest), rfl⟩

theorem length_portSuffix_le (port : Int32) (https : Bool) :
    (portSuffix port https).length ≤ 12 := by
  have hdigits : (decimal port.toInt.natAbs).length ≤ 10 := by
    apply length_decimal_le _ (by decide)
    have hlow := port.minValue_le_toInt
    have hhigh := port.toInt_le
    rw [Int32.toInt_minValue] at hlow
    rw [Int32.toInt_maxValue] at hhigh
    omega
  unfold portSuffix decimalInt
  split_ifs
  · exact Nat.zero_le _
  · simp only [List.length_cons]
    omega
  · simp only [List.length_cons]
    omega

theorem length_convertToHttp_lt (address : CString smmServerLen) (port : Int32)
    (https : Bool) :
    (convertToHttp address.bytes port https).length < 300 := by
  have hscheme : (scheme https).length ≤ 8 := by
    cases https <;> decide
  have hsuffix := length_portSuffix_le port https
  have haddress : address.bytes.length < 256 := address.fits
  rw [convertToHttp_eq, List.length_append, List.length_append]
  omega

/-- The message with the settings of a row. -/
def settingsMsg (row : SmmRow) : FssMessage :=
  fssMessageSmmSettings (convertToHttp row.address.bytes row.port row.https)
    row.login.bytes row.password.bytes

end FlightSafety.Server
