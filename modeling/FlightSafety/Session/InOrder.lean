/-
What two parties make of each other's messages: each message is processed once
and in the order in which it was sent, and the reports of the asset are written
for the name that it goes by.
-/
import FlightSafety.Session.Model
import FlightSafety.Session.ServerSide

namespace FlightSafety

open Octets ExactDouble Machine Server Client

section Requests

variable [Target]

/-- The id of the request that a message arrives as. -/
def asks (m : FssMessage) : Option UInt64 :=
  asked m.received

/-- The id that a message responds to when it arrives. -/
def answers (m : FssMessage) : Option UInt64 :=
  match m.received with
  | some ⟨_, .rttResponse, .rttResponse reqid⟩ => some reqid
  | _ => none

theorem asks_eq {m : FssMessage} (h : Plain m) : asks m = requestId? m := by
  rw [asks, FssMessage.received_of_sentType h.1 h.2, requestId?, h.1]
  cases m.body <;> rfl

theorem answers_of_class {m : FssMessage} (h : m.body.class ≠ .rttResponse)
    (id : UInt64) : answers (m.setId id) = none := by
  rcases m with ⟨_, type, body⟩
  cases body with
  | rttResponse reqid => exact absurd rfl h
  | _ => cases type <;> rfl

end Requests

/-- What the asset's other code sends is a message of some class other than
the responses, and what the server relays is a report. -/
def Session.Ok [Target] (_ : Session) : SessionEvent → Prop
  | .server e => Relays e
  | .send msg => Constructed msg ∧ msg.body.class ≠ .rttResponse
  | _ => True

/-- The asset has processed what the server sent, up to what is on its way,
and responded to each request. -/
structure Downward [Target] (s : Session) (past : List SessionOut) : Prop where
  request : Plain s.server.request
  plain : ∀ m ∈ sentMsgs (made past), Plain m
  processed : ∃ got, sentMsgs (made past) = got ++ s.down ∧
    handled past = got.flatMap (fun m => handling m.received) ∧
    (assetSent past).filterMap answers = got.filterMap asks

namespace Downward

variable [Target] {s : Session} {past : List SessionOut}

theorem served {worked : RttState × List Made} (h : Downward s past)
    (hplain : PlainNext worked.1 worked.2) :
    Downward (s.served worked).1 (past ++ (s.served worked).2) := by
  obtain ⟨got, hsent, hhandled, hanswers⟩ := h.processed
  have hmade : sentMsgs (made (past ++ (s.served worked).2)) =
      sentMsgs (made past) ++ sentMsgs worked.2 := by
    rw [Session.served, made_append, made_server, sentMsgs_append]
  constructor
  case request => exact hplain.request
  case plain =>
    rw [hmade]
    exact List.forall_mem_append.mpr ⟨h.plain, hplain.sent⟩
  case processed =>
    refine ⟨got, ?_, ?_, ?_⟩
    · rw [hmade, hsent, List.append_assoc]
      rfl
    · rw [Session.served, handled_append, handled_server, List.append_nil]
      exact hhandled
    · rw [Session.served, assetSent_append, assetSent_server, List.append_nil]
      exact hanswers

/-- The asset acts on something that is no message of the server. -/
theorem acted {worked : Asset × List AssetEffect} (h : Downward s past)
    (hhandled : worked.2.filter (fun e => e.sent?.isNone) = [])
    (hanswers : (worked.2.filterMap AssetEffect.sent?).filterMap answers = []) :
    Downward (s.acted worked).1 (past ++ (s.acted worked).2) := by
  obtain ⟨got, hsent, hpast, hresponses⟩ := h.processed
  constructor
  case request => exact h.request
  case plain =>
    rw [Session.acted, made_append, made_asset, List.append_nil]
    exact h.plain
  case processed =>
    refine ⟨got, ?_, ?_, ?_⟩
    · rw [Session.acted, made_append, made_asset, List.append_nil]
      exact hsent
    · rw [Session.acted, handled_append, handled_asset, hhandled,
        List.append_nil]
      exact hpast
    · rw [Session.acted, assetSent_append, List.filterMap_append,
        assetSent_asset, hanswers, List.append_nil]
      exact hresponses

/-- The asset processes the first message on its way. -/
theorem received {m : FssMessage} {down : List FssMessage}
    (h : Downward s past) (hdown : s.down = m :: down) :
    let worked := { s with down := down }.acted
      (s.asset.processMessage m.received)
    Downward worked.1 (past ++ worked.2) := by
  obtain ⟨got, hsent, hpast, hresponses⟩ := h.processed
  have hprocessed := processMessage_cases s.asset m.received
  generalize s.asset.processMessage m.received = worked at hprocessed ⊢
  constructor
  case request => exact h.request
  case plain =>
    rw [Session.acted, made_append, made_asset, List.append_nil]
    exact h.plain
  case processed =>
    refine ⟨got ++ [m], ?_, ?_, ?_⟩
    · rw [Session.acted, made_append, made_asset, List.append_nil, hsent, hdown]
      simp
    · rw [Session.acted, handled_append, handled_asset, hpast,
        List.flatMap_append]
      congr 1
      cases hprocessed with
      | handled unasked =>
          have hsilent : (handling m.received).filter
              (fun e => e.sent?.isNone) = handling m.received := by
            rw [List.filter_eq_self]
            intro e he
            rw [sent?_handling he]
            rfl
          simp [hsilent]
      | replied id request unhandled =>
          simp [unhandled, Asset.sendMsg, AssetEffect.sent?]
    · rw [Session.acted, assetSent_append, assetSent_asset,
        List.filterMap_append, hresponses, List.filterMap_append]
      congr 1
      cases hprocessed with
      | handled unasked =>
          have hsilent : (handling m.received).filterMap AssetEffect.sent? =
              [] :=
            List.filterMap_eq_nil_iff.mpr fun e he => sent?_handling he
          simp [hsilent, asks, unasked]
      | replied id request unhandled =>
          have hanswer : answers ((fssMessageRttResponse id).setId
              (s.asset.lastMsgId + 1)) = some id := rfl
          simp [Asset.sendMsg, AssetEffect.sent?, asks, request, hanswer]

theorem kept {e : SessionEvent} {worked : Session × List SessionOut}
    (h : Downward s past) (hok : s.Ok e) (htaken : Session.Taken s e worked) :
    Downward worked.1 (past ++ worked.2) := by
  cases htaken with
  | server works elsewhere =>
      exact h.served (plain_of_moved h.request hok (moved_of_step works))
  | serverReceives first works =>
      have hplain := plain_of_moved h.request (relays_message _ _)
        (moved_of_step works)
      exact @served _ { s with up := _ } past _ ⟨h.request, h.plain, h.processed⟩
        hplain
  | assetReceives ready first => exact h.received first
  | setHandler unready =>
      rw [List.append_nil]
      exact ⟨h.request, h.plain, h.processed⟩
  | sendIdentify ready =>
      exact h.acted rfl rfl
  | send ready =>
      apply h.acted
      · rfl
      · have hnone := answers_of_class hok.2 (s.asset.lastMsgId + 1)
        simp [Asset.sendMsg, AssetEffect.sent?, hnone]

end Downward

/-- A message that responds to some request. -/
def Response (m : FssMessage) : Prop :=
  ∃ id reqid, m = (fssMessageRttResponse reqid).setId id

/-- Nothing but responses comes before the identity, which is on its way once
the asset has sent it. -/
def Awaits (assetName : Bytes) (up : List FssMessage) (stage : AssetStage) :
    Prop :=
  ∃ early later, up = early ++ later ∧ (∀ m ∈ early, Response m) ∧
    match stage with
    | .identified => ∃ id rest,
        later = (fssMessageIdentity assetName).setId id :: rest
    | _ => later = []

/-- The name that an asset goes by when its identity arrives: up to the first
NUL byte. -/
def arrivingName (assetName : Bytes) : Bytes :=
  (cut16 assetName).takeWhile (· ≠ 0)

/-- The server has processed what the asset sent, up to what is on its way,
and done with each report what is to be done with it, under the asset's
name. -/
structure Upward [Target] (clientNames : List Bytes) (assetName : Bytes)
    (s : Session) (past : List SessionOut) : Prop where
  named : s.asset.assetName = assetName
  processed : ∃ got, assetSent past = got ++ s.up ∧
    reports (made past) =
      got.flatMap fun m => told (arrivingName assetName) m.received
  known : Known (arrivingName assetName) s.server.client ∨
    Unknown clientNames s.server.client ∧
      Awaits assetName s.up s.asset.stage

theorem Awaits.append {assetName : Bytes} {up : List FssMessage}
    {stage : AssetStage} (h : Awaits assetName up stage)
    {sent : List FssMessage}
    (hsent : stage = .identified ∨ ∀ m ∈ sent, Response m) :
    Awaits assetName (up ++ sent) stage := by
  obtain ⟨early, later, rfl, hearly, hlater⟩ := h
  cases stage with
  | identified =>
      obtain ⟨id, rest, rfl⟩ := hlater
      exact ⟨early, _, List.append_assoc _ _ _, hearly, id, rest ++ sent, rfl⟩
  | _ =>
      obtain rfl : later = [] := hlater
      refine ⟨early ++ sent, [], by simp, ?_, rfl⟩
      exact List.forall_mem_append.mpr ⟨hearly, hsent.resolve_left (by simp)⟩

/-- What comes first is a response or the identity. -/
theorem Awaits.first {assetName : Bytes} {m : FssMessage}
    {up : List FssMessage} {stage : AssetStage}
    (h : Awaits assetName (m :: up) stage) :
    (Response m ∧ Awaits assetName up stage) ∨
      ∃ id, m = (fssMessageIdentity assetName).setId id := by
  obtain ⟨early, later, hup, hearly, hlater⟩ := h
  cases early with
  | cons first early =>
      cases hup
      rw [List.forall_mem_cons] at hearly
      exact .inl ⟨hearly.1, early, later, rfl, hearly.2, hlater⟩
  | nil =>
      rw [List.nil_append] at hup
      cases stage with
      | identified =>
          obtain ⟨id, rest, hrest⟩ := hlater
          rw [hrest] at hup
          cases hup
          exact .inr ⟨id, rfl⟩
      | _ =>
          obtain rfl : later = [] := hlater
          cases hup

/-- The asset responds to a request and sends nothing else on its own. -/
theorem awaits_processMessage {assetName : Bytes} {a : Asset}
    {up : List FssMessage} (msg : Option FssMessage) (h : Awaits assetName up a.stage) :
    Awaits assetName
      (up ++ (a.processMessage msg).2.filterMap AssetEffect.sent?)
      (a.processMessage msg).1.stage := by
  have hprocessed := processMessage_cases a msg
  generalize a.processMessage msg = worked at hprocessed ⊢
  cases hprocessed with
  | handled unasked =>
      apply h.append
      right
      intro m hm
      obtain ⟨e, he, hsent⟩ := List.mem_filterMap.mp hm
      rw [sent?_handling he] at hsent
      cases hsent
  | replied id request unhandled =>
      apply h.append
      right
      intro m hm
      exact ⟨a.lastMsgId + 1, id, List.mem_singleton.mp hm⟩

theorem assetName_processMessage (a : Asset) (msg : Option FssMessage) :
    (a.processMessage msg).1.assetName = a.assetName := by
  have hprocessed := processMessage_cases a msg
  generalize a.processMessage msg = worked at hprocessed ⊢
  cases hprocessed <;> rfl

namespace Upward

variable [Target] {clientNames : List Bytes} {assetName : Bytes} {s : Session}
  {past : List SessionOut}

/-- The server works on something that is no message of the asset. -/
theorem served {e : RttEvent} {worked : RttState × List Made}
    (h : Upward clientNames assetName s past)
    (hmoved : Moved s.server e worked)
    (helsewhere : ∀ env msg, e ≠ .message env msg) :
    Upward clientNames assetName (s.served worked).1
      (past ++ (s.served worked).2) := by
  obtain ⟨got, hsent, hreports⟩ := h.processed
  have hquiet : reports worked.2 = [] ∧
      (Known (arrivingName assetName) worked.1.client ∨
        Unknown clientNames worked.1.client ∧
          Awaits assetName s.up s.asset.stage) := by
    rcases h.known with hknown | ⟨hunknown, hawaits⟩
    · obtain ⟨hnext, htold⟩ := known_of_moved hknown hmoved
      exact ⟨htold.trans (told_of_ne helsewhere), .inl hnext⟩
    · obtain ⟨hnext, hnone⟩ := unknown_of_moved hunknown hmoved helsewhere
      exact ⟨hnone, .inr ⟨hnext, hawaits⟩⟩
  constructor
  case named => exact h.named
  case processed =>
    refine ⟨got, ?_, ?_⟩
    · rw [Session.served, assetSent_append, assetSent_server, List.append_nil]
      exact hsent
    · rw [Session.served, made_append, made_server, reports_append, hquiet.1,
        List.append_nil]
      exact hreports
  case known => exact hquiet.2

/-- The asset acts; as long as it has not identified itself it only
responds. -/
theorem acted {worked : Asset × List AssetEffect}
    (h : Upward clientNames assetName s past)
    (hname : worked.1.assetName = s.asset.assetName)
    (hawaits : Awaits assetName s.up s.asset.stage →
      Awaits assetName (s.up ++ worked.2.filterMap AssetEffect.sent?)
        worked.1.stage) :
    Upward clientNames assetName (s.acted worked).1
      (past ++ (s.acted worked).2) := by
  obtain ⟨got, hsent, hreports⟩ := h.processed
  constructor
  case named => exact hname.trans h.named
  case processed =>
    refine ⟨got, ?_, ?_⟩
    · rw [Session.acted, assetSent_append, assetSent_asset, hsent,
        List.append_assoc]
    · rw [Session.acted, made_append, made_asset, List.append_nil]
      exact hreports
  case known =>
    rcases h.known with hknown | ⟨hunknown, hup⟩
    · exact .inl hknown
    · exact .inr ⟨hunknown, hawaits hup⟩

/-- The server processes the first message on its way. -/
theorem received {m : FssMessage} {up : List FssMessage} {env : Env}
    {worked : RttState × List Made} (h : Upward clientNames assetName s past)
    (hlisted : clientNames = [] ∨ arrivingName assetName ∈ clientNames)
    (hup : s.up = m :: up)
    (hmoved : Moved s.server (.message env m.received) worked) :
    Upward clientNames assetName ({ s with up := up }.served worked).1
      (past ++ ({ s with up := up }.served worked).2) := by
  obtain ⟨got, hsent, hreports⟩ := h.processed
  have hnext : reports worked.2 = told (arrivingName assetName) m.received ∧
      (Known (arrivingName assetName) worked.1.client ∨
        Unknown clientNames worked.1.client ∧
          Awaits assetName up s.asset.stage) := by
    rcases h.known with hknown | ⟨hunknown, hawaits⟩
    · obtain ⟨hnext, htold⟩ := known_of_moved hknown hmoved
      exact ⟨htold, .inl hnext⟩
    · rw [hup] at hawaits
      have hreceives : worked = s.server.receive env m.received := by
        cases hmoved with
        | receives env msg idle => rfl
        | request request elsewhere plain =>
            exact absurd rfl (elsewhere env m.received)
        | sends place sends => cases sends
      rw [hreceives]
      rcases hawaits.first with ⟨⟨id, reqid, rfl⟩, hrest⟩ | ⟨id, rfl⟩
      · obtain ⟨hnext, hnone⟩ :=
          receive_unknown_response hunknown env id reqid
        exact ⟨hnone, .inr ⟨hnext, hrest⟩⟩
      · obtain ⟨hnext, hnone⟩ := receive_identity hunknown hlisted env id
        exact ⟨hnone, .inl hnext⟩
  constructor
  case named => exact h.named
  case processed =>
    refine ⟨got ++ [m], ?_, ?_⟩
    · rw [Session.served, assetSent_append, assetSent_server, List.append_nil,
        hsent, hup]
      simp
    · rw [Session.served, made_append, made_server, reports_append, hreports,
        hnext.1, List.flatMap_append]
      simp
  case known => exact hnext.2

theorem kept {e : SessionEvent} {worked : Session × List SessionOut}
    (h : Upward clientNames assetName s past)
    (hlisted : clientNames = [] ∨ arrivingName assetName ∈ clientNames)
    (htaken : Session.Taken s e worked) :
    Upward clientNames assetName worked.1 (past ++ worked.2) := by
  cases htaken with
  | server works elsewhere => exact h.served (moved_of_step works) elsewhere
  | serverReceives first works =>
      exact h.received hlisted first (moved_of_step works)
  | @assetReceives m down ready first =>
      exact @acted _ _ _ { s with down := down } past _
        ⟨h.named, h.processed, h.known⟩
        (assetName_processMessage s.asset m.received)
        (awaits_processMessage m.received)
  | setHandler unready =>
      rw [List.append_nil]
      refine ⟨h.named, h.processed, h.known.imp_right fun hunknown => ?_⟩
      rw [unready] at hunknown
      exact hunknown
  | sendIdentify ready =>
      apply h.acted rfl
      rintro ⟨early, later, hup, hearly, hlater⟩
      rw [ready] at hlater
      obtain rfl : later = [] := hlater
      rw [hup, List.append_nil, ← h.named]
      exact ⟨early, _, rfl, hearly, _, [], rfl⟩
  | send ready =>
      apply h.acted rfl
      intro hawaits
      exact hawaits.append (.inl ready)

end Upward

theorem downward_start [Target] (clientNames : List Bytes)
    (assetName : Bytes) : Downward (.start clientNames assetName) [] where
  request := ⟨rfl, FssMessageBody.noConfusion⟩
  plain _ hm := absurd hm List.not_mem_nil
  processed := ⟨[], rfl, rfl, rfl⟩

theorem upward_start [Target] (clientNames : List Bytes)
    (assetName : Bytes) :
    Upward clientNames assetName (.start clientNames assetName) [] where
  named := rfl
  processed := ⟨[], rfl, rfl⟩
  known := .inr ⟨⟨rfl, rfl⟩, [], [], rfl, by simp, rfl⟩

/-- What has been sent is made of a class and fits its frame. -/
structure Framed [Target] (past : List SessionOut) : Prop where
  down : ∀ m ∈ sentMsgs (made past), m.unpaddedLength < 65536
  up : ∀ m ∈ assetSent past, Constructed m ∧ m.unpaddedLength < 65536

theorem constructed_processMessage (a : Asset) (msg : Option FssMessage) :
    ∀ m ∈ (a.processMessage msg).2.filterMap AssetEffect.sent?,
      Constructed m := by
  have hprocessed := processMessage_cases a msg
  generalize a.processMessage msg = worked at hprocessed ⊢
  intro m hm
  cases hprocessed with
  | handled unasked =>
      obtain ⟨e, he, hsent⟩ := List.mem_filterMap.mp hm
      rw [sent?_handling he] at hsent
      cases hsent
  | replied id request unhandled =>
      rw [List.mem_singleton.mp hm]
      exact .setId _ (.rttResponse id)

namespace Framed

variable [Target] {s : Session} {past : List SessionOut}

theorem served {worked : RttState × List Made} (h : Framed past)
    (hfits : (s.served worked).1.Fits) :
    Framed (past ++ (s.served worked).2) where
  down := by
    rw [Session.served, made_append, made_server, sentMsgs_append]
    refine List.forall_mem_append.mpr ⟨h.down, fun m hm => hfits m ?_⟩
    exact List.mem_append_left _ (List.mem_append_right _ hm)
  up := by
    rw [Session.served, assetSent_append, assetSent_server, List.append_nil]
    exact h.up

theorem acted {worked : Asset × List AssetEffect} (h : Framed past)
    (hfits : (s.acted worked).1.Fits)
    (hconstructed : ∀ m ∈ worked.2.filterMap AssetEffect.sent?,
      Constructed m) : Framed (past ++ (s.acted worked).2) where
  down := by
    rw [Session.acted, made_append, made_asset, List.append_nil]
    exact h.down
  up := by
    rw [Session.acted, assetSent_append, assetSent_asset]
    refine List.forall_mem_append.mpr
      ⟨h.up, fun m hm => ⟨hconstructed m hm, hfits m ?_⟩⟩
    exact List.mem_append_right _ (List.mem_append_right _ hm)

theorem kept {e : SessionEvent} {worked : Session × List SessionOut}
    (h : Framed past) (hok : s.Ok e) (hfits : worked.1.Fits)
    (htaken : Session.Taken s e worked) : Framed (past ++ worked.2) := by
  cases htaken with
  | server works elsewhere => exact h.served hfits
  | serverReceives first works => exact h.served hfits
  | @assetReceives m down ready first =>
      exact h.acted hfits (constructed_processMessage s.asset m.received)
  | setHandler unready =>
      rw [List.append_nil]
      exact h
  | sendIdentify ready =>
      apply h.acted hfits
      intro m hm
      rw [List.mem_singleton.mp hm]
      exact .setId _ (.identity _)
  | send ready =>
      apply h.acted hfits
      intro m hm
      rw [List.mem_singleton.mp hm]
      exact .setId _ hok.1

end Framed

/-- Decoding what the other party gets of a message makes of it what
`received` says. -/
theorem decode_onWire [Target] {m : FssMessage} (h : Plain m ∨ Constructed m)
    (hfits : m.unpaddedLength < 65536) : decode m.onWire = .ok m.received := by
  rw [m.onWire_eq hfits]
  rcases h with ⟨htype, hopen⟩ | hconstructed
  · have hholds := m.frame_holds (zeros 0)
    have hsize : (m.frame ++ zeros 0).length < 2 ^ 64 := by
      rw [List.length_append, FssMessage.length_frame, zeros,
        List.length_replicate]
      omega
    have hdecode := m.decode_frame_append (zeros 0)
    rw [htype, decodeAs_sentType m.id hholds hsize hopen fun _ => by decide,
      zeros, List.replicate_zero, List.append_nil] at hdecode
    rw [hdecode, FssMessage.received_of_sentType htype hopen]
  · exact FssMessage.decode_frame hconstructed hfits

section Run

variable [Target] {clientNames : List Bytes} {assetName : Bytes}
  {final : Session} {events : List SessionEvent} {outs : List SessionOut}

theorem downward_of_run
    (hrun : run Session.step (.start clientNames assetName) events =
      some (final, outs))
    (hok : AllSteps Session.step Session.Ok (.start clientNames assetName)
      events) : Downward final outs :=
  @run_invariant _ _ _ _ _ Downward _ _ [] _ _ hrun hok
    (downward_start clientNames assetName)
    fun h hok hstep => h.kept hok (Session.taken_of_step hstep)

theorem upward_of_run
    (hlisted : clientNames = [] ∨ arrivingName assetName ∈ clientNames)
    (hrun : run Session.step (.start clientNames assetName) events =
      some (final, outs)) : Upward clientNames assetName final outs :=
  @run_invariant_always _ _ _ _ (Upward clientNames assetName) _ _ [] _ _ hrun
    (upward_start clientNames assetName)
    fun h hstep => h.kept hlisted (Session.taken_of_step hstep)

theorem framed_of_run
    (hrun : run Session.step (.start clientNames assetName) events =
      some (final, outs))
    (hok : AllSteps Session.step Session.Ok (.start clientNames assetName)
      events) : Framed outs :=
  @run_invariant _ _ _ _ _ (fun _ past => Framed past) _ _ [] _ _ hrun hok
    ⟨fun _ hm => absurd hm List.not_mem_nil,
      fun _ hm => absurd hm List.not_mem_nil⟩
    fun h hok hstep => h.kept hok (Session.fits_of_step hstep)
      (Session.taken_of_step hstep)

end Run

end FlightSafety
