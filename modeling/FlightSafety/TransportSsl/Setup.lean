/-
Setting up a TLS connection.  A client tells its session to verify the peer's
certificate; a server asks for one and takes the names in it, and nobody
verifies it.  The TLS library is a parameter with what its documentation says
of a handshake.
-/
import FlightSafety.TransportSsl.SendSession

namespace FlightSafety.TransportSsl

open Octets

/-- The calls on a session and its credentials before the handshake. -/
inductive SetupCall where
  | setPriority
  | setX509TrustFile (caFile : Bytes)
  | setX509KeyFile (publicKeyFile privateKeyFile : Bytes)
  | setCredentials
  | setTransportPtr (fd : Int)
  | setVerifyCert (hostname : Bytes)
  /-- With `GNUTLS_CERT_REQUIRE`. -/
  | setCertificateRequest
deriving Repr, DecidableEq

/-- The files of the certificates in a session's credentials. -/
def trustFiles (calls : List SetupCall) : List Bytes :=
  calls.filterMap fun
    | .setX509TrustFile caFile => some caFile
    | _ => none

inductive HandshakeOutcome where
  | returned (ret : Int)
  | exception
deriving Repr, DecidableEq

/-- The variable `ret` keeps its first value if the handshake throws. -/
def HandshakeOutcome.ret (initial : Int) : HandshakeOutcome → Int
  | .returned ret => ret
  | .exception => initial

/-- The TLS library, for some type of certificates and of peers. -/
structure GnuTls (Cert Peer : Type) where
  /-- The call throws. -/
  refuses : SetupCall → Bool
  /-- The certificates the peer presents. -/
  chain : Peer → List Cert
  /-- The chain leads to a certificate in the given files. -/
  verifies : List Bytes → List Cert → Bool
  /-- A handshake goes through but for the checks of the peer's chain. -/
  completes : List SetupCall → Peer → Bool
  handshake : List SetupCall → Peer → HandshakeOutcome
  /-- The string `gnutls_x509_crt_get_dn` leaves. -/
  getDn : Cert → Bytes

/-- What a handshake does about the peer's chain: a session for which
`set_verify_cert` was called accepts only a chain that verifies; one that only
requires a certificate accepts any. -/
structure GnuTls.Documented {Cert Peer : Type} (lib : GnuTls Cert Peer) :
    Prop where
  verified : ∀ calls peer hostname ret, .setVerifyCert hostname ∈ calls →
    lib.handshake calls peer = .returned ret → 0 ≤ ret →
      lib.verifies (trustFiles calls) (lib.chain peer) = true
  required : ∀ calls peer, (∀ hostname, .setVerifyCert hostname ∉ calls) →
    .setCertificateRequest ∈ calls →
      ((∃ ret, lib.handshake calls peer = .returned ret ∧ 0 ≤ ret) ↔
        lib.chain peer ≠ [] ∧ lib.completes calls peer = true)

/-- What a connection is made with. -/
structure Files where
  caFile : Bytes
  privateKeyFile : Bytes
  publicKeyFile : Bytes

/-- A TLS connection after its set-up. -/
structure Connection where
  usable : Bool := false
  /-- The thread of the receive loop was started. -/
  receiving : Bool := false
  possibleNames : List Bytes := []
deriving Repr, DecidableEq

def setupSession (files : Files) (fd : Int) : List SetupCall :=
  [.setPriority, .setX509TrustFile files.caFile,
    .setX509KeyFile files.publicKeyFile files.privateKeyFile,
    .setCredentials, .setTransportPtr fd]

/-- What follows the first `CN=`. -/
def afterCommonName : Bytes → Option Bytes
  | [] => none
  | byte :: rest =>
      if [67, 78, 61].isPrefixOf (byte :: rest) then some (rest.drop 2)
      else afterCommonName rest

/-- The name in a distinguished name, up to a comma. -/
def commonName? (dn : Bytes) : Option Bytes :=
  (afterCommonName dn).map (·.takeWhile (· ≠ 44))

/-- The common name of `O=x,CN=ab,C=nz`. -/
example : commonName? [79, 61, 120, 44, 67, 78, 61, 97, 98, 44, 67, 61, 110,
    122] = some [97, 98] := by
  decide

section Library

variable {Cert Peer : Type} (lib : GnuTls Cert Peer)

/-- `fss_connection_client::setupSSL`; `none` if an exception leaves it. -/
def clientSetupSSL (files : Files) (fd : Int) (hostname : Bytes)
    (peer : Peer) : Option Bool :=
  let calls := setupSession files fd ++ [.setVerifyCert hostname]
  if calls.any lib.refuses then none
  else if (lib.handshake calls peer).ret (-2) < 0 then some false
  else some true

/-- `fss_connection_client::connectTo` on a new connection.  It does not get to
the set-up if the address or the peer is no good. -/
def connectTo (files : Files) (fd : Int) (hostname : Bytes) (peer : Peer)
    (connected : Bool) : Option Connection :=
  if connected then do
    let usable ← clientSetupSSL lib files fd hostname peer
    some { usable, receiving := usable }
  else some {}

/-- The calls of a server's set-up. -/
def serverCalls (files : Files) (fd : Int) : List SetupCall :=
  setupSession files fd ++ [.setCertificateRequest]

/-- `fss_connection_server::setupSSL`, with the names it has collected. -/
def serverSetupSSL (files : Files) (fd : Int) (peer : Peer) :
    Option (Bool × List Bytes) :=
  let calls := serverCalls files fd
  if calls.any lib.refuses then none
  else if (lib.handshake calls peer).ret (-1) < 0 then some (false, [])
  else some (true, (lib.chain peer).filterMap (commonName? ∘ lib.getDn))

/-- The constructor of `fss_connection_server`. -/
def acceptFrom (files : Files) (fd : Int) (peer : Peer) :
    Option Connection := do
  let (usable, possibleNames) ← serverSetupSSL lib files fd peer
  some { usable, receiving := usable, possibleNames }

/-- A connection that can be used, or receives, or vouches for names, has a
peer whose chain leads to the connection's own CA file. -/
def Authenticated (files : Files) (peer : Peer) (conn : Connection) : Prop :=
  conn.usable = true ∨ conn.receiving = true ∨ conn.possibleNames ≠ [] →
    lib.verifies [files.caFile] (lib.chain peer) = true

/-- The peer presents no certificate, or fails the handshake for a reason of
its own, or its chain leads to the connection's CA file. -/
def Harmless (files : Files) (fd : Int) (peer : Peer) : Prop :=
  lib.chain peer ≠ [] → lib.completes (serverCalls files fd) peer = true →
    lib.verifies [files.caFile] (lib.chain peer) = true

variable {lib}

theorem HandshakeOutcome.ret_nonneg {initial : Int} (hinitial : initial < 0)
    (outcome : HandshakeOutcome) :
    0 ≤ outcome.ret initial ↔ ∃ ret, outcome = .returned ret ∧ 0 ≤ ret := by
  cases outcome with
  | returned ret => simp [HandshakeOutcome.ret]
  | exception => simpa [HandshakeOutcome.ret] using hinitial

theorem authenticated_unusable (files : Files) (peer : Peer) :
    Authenticated lib files peer {} := by
  rintro (h | h | h)
  · cases h
  · cases h
  · exact absurd rfl h

/-- A client's session was told to verify the certificate. -/
theorem clientSetupSSL_verified (hlib : lib.Documented) {files : Files}
    {fd : Int} {hostname : Bytes} {peer : Peer}
    (h : clientSetupSSL lib files fd hostname peer = some true) :
    lib.verifies [files.caFile] (lib.chain peer) = true := by
  simp only [clientSetupSSL] at h
  split at h
  · cases h
  · split at h
    · cases h
    · next hret =>
        obtain ⟨ret, hreturned, hnonneg⟩ :=
          (HandshakeOutcome.ret_nonneg (by decide) _).mp (Int.not_lt.mp hret)
        exact hlib.verified _ peer hostname ret (by simp) hreturned hnonneg

theorem connectTo_authenticated (hlib : lib.Documented) {files : Files}
    {fd : Int} {hostname : Bytes} {peer : Peer} {connected : Bool}
    {conn : Connection}
    (h : connectTo lib files fd hostname peer connected = some conn) :
    Authenticated lib files peer conn := by
  cases connected with
  | false =>
      cases h
      exact authenticated_unusable files peer
  | true =>
      rcases hsetup : clientSetupSSL lib files fd hostname peer with _ | usable
      · simp [connectTo, hsetup] at h
      · simp only [connectTo, ↓reduceIte, hsetup, Option.bind_eq_bind,
          Option.bind_some, Option.some.injEq] at h
        subst h
        cases usable with
        | false => exact authenticated_unusable files peer
        | true => exact fun _ => clientSetupSSL_verified hlib hsetup

/-- A server's session was told only to require a certificate. -/
theorem serverHandshake_iff (hlib : lib.Documented) (files : Files) (fd : Int)
    (peer : Peer) : 0 ≤ (lib.handshake (serverCalls files fd) peer).ret (-1) ↔
      lib.chain peer ≠ [] ∧ lib.completes (serverCalls files fd) peer = true := by
  rw [HandshakeOutcome.ret_nonneg (by decide)]
  apply hlib.required
  · intro hostname
    simp [serverCalls, setupSession]
  · simp [serverCalls]

theorem acceptFrom_authenticated_iff (hlib : lib.Documented) {files : Files}
    {fd : Int} {peer : Peer} {conn : Connection}
    (h : acceptFrom lib files fd peer = some conn) :
    Authenticated lib files peer conn ↔ Harmless lib files fd peer := by
  have hhandshake := serverHandshake_iff hlib files fd peer
  simp only [acceptFrom, serverSetupSSL] at h
  split at h
  · cases h
  · split at h
    · next hfailed =>
        cases h
        have hnot := hhandshake.not.mp (Int.not_le.mpr hfailed)
        simp only [authenticated_unusable, true_iff]
        intro hchain hcompletes
        exact absurd ⟨hchain, hcompletes⟩ hnot
    · next hpassed =>
        cases h
        obtain ⟨hchain, hcompletes⟩ := hhandshake.mp (Int.not_lt.mp hpassed)
        constructor
        · intro hauthenticated _ _
          exact hauthenticated (Or.inl rfl)
        · intro hharmless _
          exact hharmless hchain hcompletes

/-- A client's connection is good for nothing unless the server's chain was
verified; a server's is exactly if each peer that completes the handshake with
some certificate happens to present one that verifies. -/
theorem mutual_authentication (hlib : lib.Documented) :
    (∀ files fd hostname peer connected conn,
      connectTo lib files fd hostname peer connected = some conn →
        Authenticated lib files peer conn) ∧
    ∀ files fd peer conn, acceptFrom lib files fd peer = some conn →
      (Authenticated lib files peer conn ↔ Harmless lib files fd peer) :=
  ⟨fun _ _ _ _ _ _ h => connectTo_authenticated hlib h,
    fun _ _ _ _ h => acceptFrom_authenticated_iff hlib h⟩

end Library

/-! A library that does what is documented and no more. -/

/-- A certificate: the file of the one that signed it, and its distinguished
name. -/
structure SignedCert where
  issuer : Bytes
  dn : Bytes

def SetupCall.isVerifyCert : SetupCall → Bool
  | .setVerifyCert _ => true
  | _ => false

/-- One of the certificates was signed by one in the files. -/
def signedBy (files : List Bytes) (chain : List SignedCert) : Bool :=
  chain.any fun cert => files.contains cert.issuer

/-- Peers are the chains they present, and complete every handshake. -/
def plainGnuTls : GnuTls SignedCert (List SignedCert) where
  refuses _ := false
  chain peer := peer
  verifies := signedBy
  completes _ _ := true
  handshake calls peer :=
    let accepted :=
      if calls.any SetupCall.isVerifyCert then signedBy (trustFiles calls) peer
      else !peer.isEmpty
    .returned (if accepted then 0 else -1)
  getDn cert := cert.dn

theorem plainGnuTls_documented : plainGnuTls.Documented where
  verified calls peer hostname ret hcall hreturned hnonneg := by
    have hasked : calls.any SetupCall.isVerifyCert = true :=
      List.any_eq_true.mpr ⟨_, hcall, rfl⟩
    simp only [plainGnuTls, hasked, ↓reduceIte] at hreturned ⊢
    cases hsigned : signedBy (trustFiles calls) peer with
    | true => rfl
    | false =>
        rw [hsigned] at hreturned
        cases hreturned
        exact absurd hnonneg (by decide)
  required calls peer hnone _ := by
    have hasked : calls.any SetupCall.isVerifyCert = false := by
      rw [List.any_eq_false]
      intro call hcall hverify
      cases call with
      | setVerifyCert hostname => exact hnone hostname hcall
      | _ => cases hverify
    simp only [plainGnuTls, hasked]
    cases peer with
    | nil => simp
    | cons cert rest => simp

def exampleFiles : Files := ⟨[1], [2], [3]⟩

/-- A server with a certificate of the CA, and an aircraft with one. -/
theorem mutual_authentication_signed :
    Authenticated plainGnuTls exampleFiles [⟨[1], [67, 78, 61, 83]⟩]
      { usable := true, receiving := true } ∧
    (Authenticated plainGnuTls exampleFiles [⟨[1], [67, 78, 61, 65]⟩]
        { usable := true, receiving := true, possibleNames := [[65]] } ↔
      Harmless plainGnuTls exampleFiles 4 [⟨[1], [67, 78, 61, 65]⟩]) :=
  ⟨(mutual_authentication plainGnuTls_documented).1 exampleFiles 4 [83] _ true
      _ rfl,
    (mutual_authentication plainGnuTls_documented).2 exampleFiles 4 _ _ rfl⟩

/-- A server takes the name in a certificate that the peer has signed
itself. -/
theorem not_authenticated_selfSigned :
    ∃ conn, acceptFrom plainGnuTls exampleFiles 4
        [⟨[9], [67, 78, 61, 65]⟩] = some conn ∧
      conn.usable = true ∧ conn.possibleNames = [[65]] ∧
      ¬ Authenticated plainGnuTls exampleFiles [⟨[9], [67, 78, 61, 65]⟩]
        conn := by
  refine ⟨_, rfl, rfl, by decide, fun hauthenticated => ?_⟩
  have hverified := hauthenticated (Or.inl rfl)
  exact absurd hverified (by decide)

end FlightSafety.TransportSsl
