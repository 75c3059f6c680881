/-
The names that a server takes from the certificates of a peer.  It looks for
`CN=` in the text of a distinguished name and goes on to the next comma, where
the text has attributes and escapes.
-/
import FlightSafety.TransportSsl.Setup
import Mathlib.Data.List.Infix
import Mathlib.Data.List.TakeWhile

namespace FlightSafety.TransportSsl

open Octets

/-- `CN=`. -/
def commonNameTag : Bytes := [67, 78, 61]

structure Attribute where
  type : Bytes
  value : Bytes
deriving Repr, DecidableEq

/-- How the values of attributes are written: a comma is written only for a
comma, and not as it is. -/
structure Escaping where
  escape : Bytes → Bytes
  comma : ∀ value, 44 ∈ escape value → 44 ∈ value
  escapes : ∀ value, 44 ∈ value → escape value ≠ value

/-- A subject whose attributes include one common name. -/
structure Subject where
  front : List Attribute
  name : Bytes
  back : List Attribute
  frontOther : ∀ a ∈ front, a.type ≠ [67, 78]
  backOther : ∀ a ∈ back, a.type ≠ [67, 78]

def Subject.attributes (s : Subject) : List Attribute :=
  s.front ++ ⟨[67, 78], s.name⟩ :: s.back

namespace Escaping

variable (escaping : Escaping)

def written (a : Attribute) : Bytes :=
  a.type ++ [61] ++ escaping.escape a.value

/-- The attributes joined by commas. -/
def distinguishedName (attributes : List Attribute) : Bytes :=
  [44].intercalate (attributes.map escaping.written)

/-- The text in front of the common name. -/
def textInFront (s : Subject) : Bytes :=
  s.front.flatMap fun a => escaping.written a ++ [44]

/-- The text behind it. -/
def textBehind (s : Subject) : Bytes :=
  s.back.flatMap fun a => 44 :: escaping.written a

end Escaping

/-- What `gnutls_x509_crt_get_dn` leaves where the buffer is large enough. -/
structure GnuTls.Renders {Cert Peer : Type} (lib : GnuTls Cert Peer)
    (escaping : Escaping) (subject : Cert → List Attribute) : Prop where
  rendered : ∀ cert, (escaping.distinguishedName (subject cert)).length < 512 →
    lib.getDn cert = escaping.distinguishedName (subject cert)

/-- The first `CN=` of a text is followed by a name and a comma. -/
def FirstNames (text name : Bytes) : Prop :=
  ∃ before after, text = before ++ (commonNameTag ++ (name ++ 44 :: after)) ∧
    ¬ commonNameTag <:+: before ∧ 44 ∉ name

/-- No issuer's text has a `CN=`, and the one of the leaf has none in front of
its common name, which needs no escapes; or the first one in front of it
happens to be followed by the same name. -/
structure Unambiguous (escaping : Escaping) (s : Subject)
    (issuers : List Bytes) : Prop where
  inIssuers : ∀ dn ∈ issuers, ¬ commonNameTag <:+: dn
  inLeaf : (¬ commonNameTag <:+: escaping.textInFront s ∧
      escaping.escape s.name = s.name) ∨
    FirstNames (escaping.textInFront s) s.name

/-! Searching a text for `CN=`. -/

section Search

variable {text before rest more name : Bytes}

theorem isPrefixOf_tag_iff : [67, 78, 61].isPrefixOf text = true ↔
    ∃ rest, text = commonNameTag ++ rest := by
  rw [List.isPrefixOf_iff_prefix]
  constructor
  · rintro ⟨rest, hrest⟩
    exact ⟨rest, hrest.symm⟩
  · rintro ⟨rest, rfl⟩
    exact ⟨rest, rfl⟩

theorem afterCommonName_tag (rest : Bytes) :
    afterCommonName (commonNameTag ++ rest) = some rest :=
  if_pos rfl

/-- A `CN=` that begins in one text does not end in another that begins with
`CN=` itself. -/
theorem prefix_of_append_tag (hbefore : before ≠ [])
    (h : commonNameTag <+: before ++ (commonNameTag ++ rest)) :
    commonNameTag <+: before := by
  match before with
  | [first] =>
      simp [commonNameTag] at h
  | [first, second] =>
      simp [commonNameTag] at h
  | first :: second :: third :: before =>
      simpa [commonNameTag] using h

theorem afterCommonName_append_tag (h : ¬ commonNameTag <:+: before)
    (rest : Bytes) :
    afterCommonName (before ++ (commonNameTag ++ rest)) = some rest := by
  induction before with
  | nil => exact afterCommonName_tag rest
  | cons byte before ih =>
      rw [List.infix_cons_iff, not_or] at h
      rw [List.cons_append, afterCommonName, if_neg]
      · exact ih h.2
      · rw [List.isPrefixOf_iff_prefix]
        intro hprefix
        exact h.1 (prefix_of_append_tag (List.cons_ne_nil byte before) hprefix)

/-- What is found stands behind the first `CN=`. -/
theorem afterCommonName_eq_some_iff : afterCommonName text = some rest ↔
    ∃ before, text = before ++ (commonNameTag ++ rest) ∧
      ¬ commonNameTag <:+: before := by
  constructor
  · intro h
    induction text with
    | nil => cases h
    | cons byte text ih =>
        rw [afterCommonName] at h
        split at h
        · next htag =>
            obtain ⟨found, hfound⟩ := isPrefixOf_tag_iff.mp htag
            injection hfound with hbyte htext
            subst hbyte htext
            cases h
            exact ⟨[], rfl, by simp [commonNameTag]⟩
        · next htag =>
            obtain ⟨before, htext, hbefore⟩ := ih h
            refine ⟨byte :: before, congrArg (byte :: ·) htext, ?_⟩
            rw [List.infix_cons_iff, not_or]
            refine ⟨fun hprefix => htag ?_, hbefore⟩
            rw [List.isPrefixOf_iff_prefix, htext]
            exact hprefix.trans (List.prefix_append (byte :: before) _)
  · rintro ⟨before, rfl, hbefore⟩
    exact afterCommonName_append_tag hbefore rest

theorem afterCommonName_eq_none_iff :
    afterCommonName text = none ↔ ¬ commonNameTag <:+: text := by
  induction text with
  | nil => simp [afterCommonName, commonNameTag]
  | cons byte text ih =>
      rw [List.infix_cons_iff, not_or, ← ih, ← List.isPrefixOf_iff_prefix,
        afterCommonName]
      by_cases htag : [67, 78, 61].isPrefixOf (byte :: text) = true
      · simp [htag, commonNameTag]
      · simp [htag, commonNameTag]

theorem commonName?_eq_none_iff :
    commonName? text = none ↔ ¬ commonNameTag <:+: text := by
  rw [commonName?, Option.map_eq_none_iff, afterCommonName_eq_none_iff]

theorem commonName?_append_tag (h : ¬ commonNameTag <:+: before)
    (rest : Bytes) :
    commonName? (before ++ (commonNameTag ++ rest)) =
      some (rest.takeWhile (· ≠ 44)) := by
  rw [commonName?, afterCommonName_append_tag h, Option.map_some]

/-- Nothing behind a comma is looked at. -/
theorem takeWhile_comma (text rest : Bytes) :
    (text ++ 44 :: rest).takeWhile (· ≠ 44) = text.takeWhile (· ≠ 44) := by
  induction text with
  | nil => rfl
  | cons byte text ih => simp only [List.cons_append, List.takeWhile_cons, ih]

theorem takeWhile_eq_self_iff :
    text.takeWhile (· ≠ 44) = text ↔ 44 ∉ text := by
  rw [List.takeWhile_eq_self_iff]
  constructor
  · intro h hcomma
    exact absurd (h 44 hcomma) (by decide)
  · intro h byte hbyte
    simpa using ne_of_mem_of_not_mem hbyte h

theorem takeWhile_append (hcomma : 44 ∈ text) (more : Bytes) :
    (text ++ more).takeWhile (· ≠ 44) = text.takeWhile (· ≠ 44) := by
  obtain ⟨name, rest, rfl, -⟩ := List.eq_append_cons_of_mem hcomma
  rw [List.append_assoc, List.cons_append, takeWhile_comma, takeWhile_comma]

theorem takeWhile_eq_iff_firstNames (hafter : afterCommonName text = some rest)
    (hcomma : 44 ∈ rest) :
    rest.takeWhile (· ≠ 44) = name ↔ FirstNames text name := by
  constructor
  · intro hname
    obtain ⟨before, htext, hbefore⟩ := afterCommonName_eq_some_iff.mp hafter
    obtain ⟨found, after, hrest, hfound⟩ := List.eq_append_cons_of_mem hcomma
    rw [hrest, takeWhile_comma, takeWhile_eq_self_iff.mpr hfound] at hname
    subst hname
    exact ⟨before, after, by rw [htext, hrest], hbefore, hfound⟩
  · rintro ⟨before, after, rfl, hbefore, hname⟩
    rw [afterCommonName_append_tag hbefore] at hafter
    cases hafter
    rw [takeWhile_comma, takeWhile_eq_self_iff.mpr hname]

end Search

/-! The text of a subject. -/

namespace Escaping

variable (escaping : Escaping) (s : Subject)

theorem distinguishedName_cons (a : Attribute) (back : List Attribute) :
    escaping.distinguishedName (a :: back) = escaping.written a ++
      back.flatMap fun b => 44 :: escaping.written b := by
  induction back generalizing a with
  | nil => simp [distinguishedName]
  | cons b back ih =>
      have hb := ih b
      simp only [distinguishedName, List.map_cons,
        List.intercalate_cons_cons, List.flatMap_cons] at hb ⊢
      rw [hb]
      simp

theorem distinguishedName_append (front : List Attribute) (a : Attribute)
    (back : List Attribute) :
    escaping.distinguishedName (front ++ a :: back) =
      front.flatMap (fun b => escaping.written b ++ [44]) ++
        escaping.distinguishedName (a :: back) := by
  induction front with
  | nil => rfl
  | cons b front ih =>
      rw [List.flatMap_cons, List.append_assoc, ← ih]
      simp only [distinguishedName, List.map_cons, List.cons_append]
      exact List.intercalate_cons_of_ne_nil (by simp)

/-- Where the common name stands. -/
theorem distinguishedName_attributes :
    escaping.distinguishedName s.attributes = escaping.textInFront s ++
      (commonNameTag ++ (escaping.escape s.name ++ escaping.textBehind s)) := by
  rw [Subject.attributes, distinguishedName_append, distinguishedName_cons]
  simp [textInFront, textBehind, written, commonNameTag]

theorem textInFront_ends : escaping.textInFront s = [] ∨
    ∃ text, escaping.textInFront s = text ++ [44] := by
  rcases List.eq_nil_or_concat s.front with hfront | ⟨front, a, hfront⟩
  · simp [textInFront, hfront]
  · simp only [textInFront, hfront, List.concat_eq_append, List.flatMap_append]
    exact Or.inr ⟨_, by rw [List.flatMap_singleton, List.append_assoc]⟩

/-- A `CN=` in front of the common name is followed by a comma. -/
theorem comma_after {rest : Bytes}
    (h : afterCommonName (escaping.textInFront s) = some rest) :
    44 ∈ rest := by
  obtain ⟨before, hfront, -⟩ := afterCommonName_eq_some_iff.mp h
  rcases escaping.textInFront_ends s with hnil | ⟨text, htext⟩
  · simp [hnil, afterCommonName] at h
  · rw [htext] at hfront
    have hlast := congrArg List.getLast? hfront
    rcases List.eq_nil_or_concat rest with hrest | ⟨init, byte, hrest⟩
    · simp [hrest, commonNameTag] at hlast
    · rw [hrest] at hlast
      simp at hlast
      simp [hrest, hlast]

theorem takeWhile_behind (value : Bytes) :
    (escaping.escape value ++ escaping.textBehind s).takeWhile (· ≠ 44) =
      (escaping.escape value).takeWhile (· ≠ 44) := by
  rcases hback : s.back with _ | ⟨a, back⟩
  · simp [textBehind, hback]
  · simp only [textBehind, hback, List.flatMap_cons, List.cons_append]
    exact takeWhile_comma _ _

theorem takeWhile_escape_iff (value : Bytes) :
    (escaping.escape value).takeWhile (· ≠ 44) = value ↔
      escaping.escape value = value := by
  constructor
  · intro h
    have hcomma : 44 ∉ value := by
      intro hmem
      rw [← h] at hmem
      exact absurd (List.mem_takeWhile_imp hmem) (by decide)
    rw [takeWhile_eq_self_iff.mpr (mt (escaping.comma value) hcomma)] at h
    exact h
  · intro h
    have hcomma : 44 ∉ value := fun hmem => escaping.escapes value hmem h
    rw [h, takeWhile_eq_self_iff.mpr hcomma]

/-- What is taken from the text of the leaf. -/
theorem commonName?_leaf :
    ∃ name, commonName? (escaping.distinguishedName s.attributes) = some name ∧
      (name = s.name ↔
        (¬ commonNameTag <:+: escaping.textInFront s ∧
          escaping.escape s.name = s.name) ∨
        FirstNames (escaping.textInFront s) s.name) := by
  rw [distinguishedName_attributes]
  rcases hafter : afterCommonName (escaping.textInFront s) with _ | rest
  · have hfront := afterCommonName_eq_none_iff.mp hafter
    have hnot : ¬ FirstNames (escaping.textInFront s) s.name := by
      rintro ⟨before, after, htext, -⟩
      rw [htext] at hfront
      exact hfront (List.infix_append' before commonNameTag _)
    refine ⟨_, commonName?_append_tag hfront _, ?_⟩
    rw [takeWhile_behind, takeWhile_escape_iff]
    simp only [hfront, hnot, not_false_eq_true, true_and, or_false]
  · have hcomma := escaping.comma_after s hafter
    have hfront : commonNameTag <:+: escaping.textInFront s := by
      by_contra hnone
      rw [afterCommonName_eq_none_iff.mpr hnone] at hafter
      cases hafter
    obtain ⟨before, htext, hbefore⟩ := afterCommonName_eq_some_iff.mp hafter
    refine ⟨rest.takeWhile (· ≠ 44), ?_, ?_⟩
    · rw [htext, List.append_assoc, List.append_assoc,
        commonName?_append_tag hbefore, takeWhile_append hcomma]
    · rw [takeWhile_eq_iff_firstNames hafter hcomma]
      simp only [hfront, not_true_eq_false, false_and, false_or]

end Escaping

/-- The names of a connection are the leaf's common name alone exactly if its
certificates are unambiguous. -/
theorem permittedNames_iff {Cert Peer : Type} {lib : GnuTls Cert Peer}
    {escaping : Escaping} {subject : Cert → List Attribute}
    (hlib : lib.Renders escaping subject) {files : Files} {fd : Int}
    {peer : Peer} {leaf : Cert} {issuers : List Cert} {s : Subject}
    {names : List Bytes} (hchain : lib.chain peer = leaf :: issuers)
    (hsubject : subject leaf = s.attributes)
    (hlength : (escaping.distinguishedName s.attributes).length < 512)
    (hsetup : serverSetupSSL lib files fd peer = some (true, names)) :
    names = [s.name] ↔ Unambiguous escaping s (issuers.map lib.getDn) := by
  have hleaf : lib.getDn leaf = escaping.distinguishedName s.attributes := by
    rw [← hsubject] at hlength ⊢
    exact hlib.rendered leaf hlength
  have hnames : names = (leaf :: issuers).filterMap (commonName? ∘ lib.getDn) := by
    simp only [serverSetupSSL, hchain] at hsetup
    split at hsetup
    · cases hsetup
    · split at hsetup
      · cases hsetup
      · cases hsetup
        rfl
  obtain ⟨name, hname, hiff⟩ := escaping.commonName?_leaf s
  have hissuers : issuers.filterMap (commonName? ∘ lib.getDn) = [] ↔
      ∀ dn ∈ issuers.map lib.getDn, ¬ commonNameTag <:+: dn := by
    simp only [List.filterMap_eq_nil_iff, List.forall_mem_map,
      Function.comp_apply, commonName?_eq_none_iff]
  rw [hnames, List.filterMap_cons_some (b := name), List.cons.injEq, hiff,
    hissuers]
  · constructor
    · rintro ⟨hinLeaf, hinIssuers⟩
      exact ⟨hinIssuers, hinLeaf⟩
    · rintro ⟨hinIssuers, hinLeaf⟩
      exact ⟨hinLeaf, hinIssuers⟩
  · rw [Function.comp_apply, hleaf, hname]

/-! The escapes of RFC 4514, and a library that renders them. -/

/-- `"`, `+`, `,`, `;`, `<`, `>` and `\`. -/
def isSpecial (byte : UInt8) : Bool :=
  [34, 43, 44, 59, 60, 62, 92].contains byte

def escapeByte (byte : UInt8) : Bytes :=
  if isSpecial byte then [92, byte]
  else if byte = 0 then [92, 48, 48]
  else [byte]

/-- A space at the end is escaped too. -/
def escapeRest : Bytes → Bytes
  | [] => []
  | [32] => [92, 32]
  | byte :: rest => escapeByte byte ++ escapeRest rest

/-- And so is one at the beginning, or a `#`. -/
def escapeValue : Bytes → Bytes
  | 32 :: rest => [92, 32] ++ escapeRest rest
  | 35 :: rest => [92, 35] ++ escapeRest rest
  | value => escapeRest value

theorem mem_escapeByte {byte : UInt8} (h : 44 ∈ escapeByte byte) :
    byte = 44 := by
  rw [escapeByte] at h
  split at h
  · simpa [eq_comm] using h
  · split at h
    · simp at h
    · simpa [eq_comm] using h

theorem mem_escapeRest {value : Bytes} (h : 44 ∈ escapeRest value) :
    44 ∈ value := by
  fun_induction escapeRest value with
  | case1 => exact h
  | case2 => simp at h
  | case3 byte rest _ ih =>
      rcases List.mem_append.mp h with hbyte | hrest
      · simp [mem_escapeByte hbyte]
      · exact List.mem_cons_of_mem byte (ih hrest)

theorem length_escapeByte (byte : UInt8) : 1 ≤ (escapeByte byte).length := by
  rw [escapeByte]
  split
  · simp
  · split <;> simp

theorem length_escapeRest (value : Bytes) :
    value.length ≤ (escapeRest value).length := by
  fun_induction escapeRest value with
  | case1 => simp
  | case2 => simp
  | case3 byte rest _ ih =>
      have hbyte := length_escapeByte byte
      simp only [List.length_cons, List.length_append]
      omega

/-- The escape of a comma makes a value longer. -/
theorem length_escapeRest_of_comma {value : Bytes} (h : 44 ∈ value) :
    value.length < (escapeRest value).length := by
  fun_induction escapeRest value with
  | case1 => simp at h
  | case2 => simp
  | case3 byte rest _ ih =>
      simp only [List.length_cons, List.length_append]
      rcases List.mem_cons.mp h with hbyte | hrest
      · have hlength := length_escapeRest rest
        subst hbyte
        simp [escapeByte, isSpecial]
        omega
      · have hbyte := length_escapeByte byte
        have hlength := ih hrest
        omega

theorem mem_escapeValue {value : Bytes} (h : 44 ∈ escapeValue value) :
    44 ∈ value := by
  fun_cases escapeValue value with
  | case1 rest =>
      rw [escapeValue, List.mem_append] at h
      exact List.mem_cons_of_mem 32 (mem_escapeRest (h.resolve_left (by decide)))
  | case2 rest =>
      rw [escapeValue, List.mem_append] at h
      exact List.mem_cons_of_mem 35 (mem_escapeRest (h.resolve_left (by decide)))
  | case3 value hspace hhash =>
      rw [escapeValue] at h
      · exact mem_escapeRest h
      · exact hspace
      · exact hhash

theorem length_escapeValue_of_comma {value : Bytes} (h : 44 ∈ value) :
    value.length < (escapeValue value).length := by
  fun_cases escapeValue value with
  | case1 rest =>
      have hlength := length_escapeRest rest
      simp only [List.length_cons, List.length_append]
      omega
  | case2 rest =>
      have hlength := length_escapeRest rest
      simp only [List.length_cons, List.length_append]
      omega
  | case3 => exact length_escapeRest_of_comma h

def rfc4514 : Escaping where
  escape := escapeValue
  comma _ h := mem_escapeValue h
  escapes value h heq := by
    have hlength := length_escapeValue_of_comma h
    rw [heq] at hlength
    exact Nat.lt_irrefl _ hlength

/-- Certificates are their subjects, and peers the chains they present. -/
def rfc4514GnuTls : GnuTls (List Attribute) (List (List Attribute)) where
  refuses _ := false
  chain peer := peer
  verifies _ _ := true
  completes _ _ := true
  handshake _ peer := .returned (if peer.isEmpty then -1 else 0)
  getDn cert :=
    let dn := rfc4514.distinguishedName cert
    if dn.length < 512 then dn else []

theorem rfc4514GnuTls_renders : rfc4514GnuTls.Renders rfc4514 id where
  rendered _ hlength := if_pos hlength

/-- The organization `o`, and the aircraft `A`. -/
def assetOf (o : Bytes) : Subject where
  front := [⟨[79], o⟩]
  name := [65]
  back := []
  frontOther := by simp
  backOther := by simp

/-- The aircraft `A` of `FSS`, with a certificate of the CA `FSS`. -/
theorem permittedNames_plain :
    Unambiguous rfc4514 (assetOf [70, 83, 83]) [[79, 61, 70, 83, 83]] :=
  (permittedNames_iff rfc4514GnuTls_renders
    (show rfc4514GnuTls.chain [(assetOf [70, 83, 83]).attributes,
      [⟨[79], [70, 83, 83]⟩]] = _ :: [[⟨[79], [70, 83, 83]⟩]] from rfl)
    rfl (by decide)
    (show serverSetupSSL rfc4514GnuTls exampleFiles 4 _ =
      some (true, [[65]]) by decide)).mp rfl

/-- In `O=CN=B,CN=A` it is the organization that names the aircraft. -/
theorem not_permittedNames_organization :
    rfc4514GnuTls.Renders rfc4514 id ∧
    (rfc4514.distinguishedName
      (assetOf [67, 78, 61, 66]).attributes).length < 512 ∧
    serverSetupSSL rfc4514GnuTls exampleFiles 4
      [(assetOf [67, 78, 61, 66]).attributes] = some (true, [[66]]) ∧
    [[66]] ≠ [(assetOf [67, 78, 61, 66]).name] :=
  ⟨rfc4514GnuTls_renders, by decide, by decide, by decide⟩

end FlightSafety.TransportSsl
