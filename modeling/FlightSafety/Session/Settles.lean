/-
The accounts of a session's round-trip times.  When no response overtakes the
recording of its request, each request is answered in its turn, and those that
are outstanding are the ones whose request or response is under way.
-/
import FlightSafety.Session.InOrder

namespace FlightSafety

open Octets ExactDouble Machine Server Client

/-- The request that the server's receive loop has found and not removed. -/
def Server.RttState.found (s : RttState) : List UInt64 :=
  match s.removing with
  | some (_, _, _, req) => [req.reqid]
  | none => []

theorem found_of_removing {s : RttState} {m : FssMessage} {now : UInt64}
    {index : Nat} {req : FssClientRtt}
    (h : s.removing = some (m, now, index, req)) : s.found = [req.reqid] := by
  rw [RttState.found, h]

namespace Session

variable [Target]

/-- The requests that are under way, the oldest first: found by the server,
responded to, or on their way to the asset. -/
def underWay (s : Session) : List UInt64 :=
  s.server.found ++ (s.up.filterMap answers ++ s.down.filterMap asks)

/-- The server takes a response when it knows the asset and has recorded the
request. -/
def Prompt (s : Session) (e : SessionEvent) : Prop :=
  s.Ok e ∧ ∀ env m up reqid, e = .serverReceives env → s.up = m :: up →
    answers m = some reqid →
      s.server.client.identified = true ∧ reqid ∉ s.server.pending

end Session

theorem answersTo_of_answers [Target] {m : FssMessage} {reqid : UInt64}
    (h : answers m = some reqid) :
    ∃ received, m.received = some received ∧ AnswersTo received reqid := by
  unfold answers at h
  split at h
  · next id reqid' hreceived =>
      cases h
      exact ⟨_, hreceived, rfl, rfl⟩
  · cases h

theorem answers_of_answersTo [Target] {m received : FssMessage}
    {reqid : UInt64} (hreceived : m.received = some received)
    (h : AnswersTo received reqid) : answers m = some reqid := by
  rcases received with ⟨id, type, body⟩
  obtain ⟨htype, hbody⟩ := h
  cases htype
  cases hbody
  rw [answers, hreceived]

/-- The server has found, in order, the requests of the responses that it has
processed. -/
structure Settling [Target] (s : Session) (past : List SessionOut) : Prop where
  downward : Downward s past
  accounted : Accounted s.server (made past)
  settled : (assetSent past).filterMap answers =
    answered (made past) ++ (s.server.found ++ s.up.filterMap answers)

namespace Settling

variable [Target] {s : Session} {past : List SessionOut}

/-- The requests in the order in which they were sent. -/
theorem requests (h : Settling s past) :
    requestIds (made past) = answered (made past) ++ s.underWay := by
  obtain ⟨got, hsent, -, hanswers⟩ := h.downward.processed
  have hasked : requestIds (made past) =
      (sentMsgs (made past)).filterMap asks :=
    List.filterMap_congr fun m hm => (asks_eq (h.downward.plain m hm)).symm
  rw [hasked, hsent, List.filterMap_append, ← hanswers, h.settled,
    Session.underWay]
  simp only [List.append_assoc]

theorem outstanding (h : Settling s past) :
    (s.server.outstanding ++ s.server.pending).Perm s.underWay := by
  have hconserved := h.accounted.conserved
  rw [h.requests] at hconserved
  exact (List.perm_append_left_iff _).mp hconserved

theorem responseOutstanding {m : FssMessage} {up : List FssMessage}
    {reqid : UInt64} (h : Settling s past) (hfirst : s.up = m :: up)
    (hanswers : answers m = some reqid) (hrecorded : reqid ∉ s.server.pending) :
    reqid ∈ s.server.outstanding := by
  have hmem : reqid ∈ s.server.outstanding ++ s.server.pending := by
    rw [h.outstanding.mem_iff, Session.underWay, hfirst]
    simp [hanswers]
  exact (List.mem_append.mp hmem).resolve_right hrecorded

/-- The server works on something that is no message of the asset. -/
theorem served {e : RttEvent} {next : RttState} {out : List Made}
    (h : Settling s past) (hrelays : Relays e)
    (hworks : s.server.step e = some (next, out))
    (helsewhere : ∀ env msg, e ≠ .message env msg) :
    Settling (s.served (next, out)).1 (past ++ (s.served (next, out)).2) := by
  have htaken := Server.taken_of_step hworks
  have hfound : answered out ++ next.found = s.server.found := by
    cases htaken with
    | elsewhere work kept unfound =>
        rw [work.answered_eq, RttState.found, work.removing]
        rfl
    | sent event idle => rfl
    | recorded event sent => rfl
    | found event idle identified answers place =>
        exact absurd event (helsewhere _ _)
    | removed event found =>
        rw [answered_removeRequest (h.accounted.removable found).1,
          found_of_removing found]
        rfl
  constructor
  case downward =>
    exact h.downward.served
      (plain_of_moved h.downward.request hrelays (moved_of_step hworks))
  case accounted =>
    rw [Session.served, made_append, made_server]
    exact h.accounted.kept htaken
  case settled =>
    rw [Session.served, assetSent_append, assetSent_server, List.append_nil,
      h.settled, made_append, made_server, answered_append, ← hfound]
    simp only [List.append_assoc]

/-- The server finds the request of the response that is first on its way. -/
theorem received {env : Env} {m : FssMessage} {up : List FssMessage}
    {next : RttState} {out : List Made} (h : Settling s past)
    (hfirst : s.up = m :: up)
    (hprompt : ∀ reqid, answers m = some reqid →
      s.server.client.identified = true ∧ reqid ∉ s.server.pending)
    (hworks : s.server.step (.message env m.received) = some (next, out)) :
    Settling ({ s with up := up }.served (next, out)).1
      (past ++ ({ s with up := up }.served (next, out)).2) := by
  have htaken := Server.taken_of_step hworks
  have hfound : s.server.found = [] ∧ answered out = [] ∧
      next.found = (answers m).toList := by
    cases htaken with
    | elsewhere work kept unfound =>
        have hidle : s.server.removing = none :=
          kept.resolve_right fun hkept => hkept.2 env _ rfl
        have hnone : answers m = none := by
          cases hanswers : answers m with
          | none => rfl
          | some reqid =>
              obtain ⟨hidentified, hrecorded⟩ := hprompt reqid hanswers
              obtain ⟨msg, hreceived, hmsg⟩ := answersTo_of_answers hanswers
              refine absurd (h.responseOutstanding hfirst hanswers hrecorded) ?_
              exact unfound env msg reqid (by rw [hreceived]) hidentified hmsg
        rw [hnone, work.answered_eq, RttState.found, RttState.found,
          work.removing, hidle]
        exact ⟨rfl, rfl, rfl⟩
    | sent event idle => cases event
    | recorded event sent => cases event
    | @found _ msg _ req event idle identified hanswers place =>
        have hreceived : m.received = some msg := by
          injection event
        rw [answers_of_answersTo hreceived hanswers, RttState.found, idle]
        exact ⟨rfl, rfl, rfl⟩
    | removed event found => cases event
  obtain ⟨hidle, hanswered, hnext⟩ := hfound
  constructor
  case downward =>
    have hplain := plain_of_moved h.downward.request (relays_message _ _)
      (moved_of_step hworks)
    exact @Downward.served _ { s with up := up } past _
      ⟨h.downward.request, h.downward.plain, h.downward.processed⟩ hplain
  case accounted =>
    rw [Session.served, made_append, made_server]
    exact h.accounted.kept htaken
  case settled =>
    rw [Session.served, assetSent_append, assetSent_server, List.append_nil,
      h.settled, made_append, made_server, answered_append, hanswered, hidle,
      hnext, hfirst, List.filterMap_cons]
    cases answers m <;> simp

/-- What the asset sends is on its way. -/
theorem acted {worked : Asset × List AssetEffect} {down : List FssMessage}
    (h : Settling s past)
    (hdownward : Downward ({ s with down := down }.acted worked).1
      (past ++ ({ s with down := down }.acted worked).2)) :
    Settling ({ s with down := down }.acted worked).1
      (past ++ ({ s with down := down }.acted worked).2) := by
  constructor
  case downward => exact hdownward
  case accounted =>
    rw [Session.acted, made_append, made_asset, List.append_nil]
    exact h.accounted
  case settled =>
    rw [Session.acted, assetSent_append, assetSent_asset, made_append,
      made_asset, List.append_nil, List.filterMap_append, h.settled,
      List.filterMap_append]
    simp only [List.append_assoc]

theorem kept {e : SessionEvent} {worked : Session × List SessionOut}
    (h : Settling s past) (hprompt : s.Prompt e)
    (htaken : Session.Taken s e worked) :
    Settling worked.1 (past ++ worked.2) := by
  have hdownward := h.downward.kept hprompt.1 htaken
  cases htaken with
  | server works elsewhere => exact h.served hprompt.1 works elsewhere
  | @serverReceives env m up next out first works =>
      exact h.received first (fun reqid => hprompt.2 env m up reqid rfl first)
        works
  | assetReceives ready first => exact h.acted hdownward
  | setHandler unready =>
      rw [List.append_nil] at hdownward ⊢
      exact ⟨hdownward, h.accounted, h.settled⟩
  | sendIdentify ready => exact h.acted hdownward
  | send ready => exact h.acted hdownward

end Settling

theorem settling_start [Target] (clientNames : List Bytes)
    (assetName : Bytes) : Settling (.start clientNames assetName) [] where
  downward := downward_start clientNames assetName
  accounted := accounted_start clientNames
  settled := rfl

theorem settling_of_run [Target] {clientNames : List Bytes}
    {assetName : Bytes} {final : Session} {events : List SessionEvent}
    {outs : List SessionOut}
    (hrun : run Session.step (.start clientNames assetName) events =
      some (final, outs))
    (hprompt : AllSteps Session.step Session.Prompt
      (.start clientNames assetName) events) : Settling final outs :=
  @run_invariant _ _ _ _ _ Settling _ _ [] _ _ hrun hprompt
    (settling_start clientNames assetName)
    fun h hok hstep => h.kept hok (Session.taken_of_step hstep)

theorem Session.prompt_of_ne [Target] {s : Session} {e : SessionEvent}
    (hok : s.Ok e) (h : ∀ env, e ≠ .serverReceives env) : s.Prompt e :=
  ⟨hok, fun env _ _ _ he => absurd he (h env)⟩

theorem Session.prompt_serverReceives [Target] {s : Session} {m : FssMessage}
    {up : List FssMessage} (hfirst : s.up = m :: up)
    (h : answers m = none ∨
      s.server.client.identified = true ∧ s.server.pending = []) (env : Env) :
    s.Prompt (.serverReceives env) := by
  refine ⟨trivial, fun _ m' up' reqid _ hup hanswers => ?_⟩
  rw [hfirst] at hup
  cases hup
  rcases h with hnone | ⟨hidentified, hrecorded⟩
  · rw [hnone] at hanswers
    cases hanswers
  · rw [hrecorded]
    exact ⟨hidentified, List.not_mem_nil⟩

end FlightSafety
