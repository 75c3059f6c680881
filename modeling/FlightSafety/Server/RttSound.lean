/-
The accounts of one client's round-trip times hold in every run: each request
that has been sent is answered, outstanding or about to be recorded.
-/
import FlightSafety.Server.RoundTripTime

namespace FlightSafety.Server

open Octets Machine

@[simp] theorem sentMsgs_append (first second : List Made) :
    sentMsgs (first ++ second) = sentMsgs first ++ sentMsgs second :=
  List.filterMap_append

@[simp] theorem requestIds_append (first second : List Made) :
    requestIds (first ++ second) = requestIds first ++ requestIds second := by
  simp [requestIds]

@[simp] theorem answered_append (first second : List Made) :
    answered (first ++ second) = answered first ++ answered second :=
  List.filterMap_append

theorem Elsewhere.answered_eq {s next : RttState} {out : List Made}
    (h : Elsewhere s next out) : answered out = [] := by
  rw [answered, List.filterMap_eq_nil_iff]
  rintro ⟨effect, response⟩ ho
  cases effect with
  | assetAddRtt name rtt => exact absurd rfl (h.unanswered _ ho name rtt)
  | _ => rfl

/-- The accounts.  Every request sent is answered, outstanding or about to be
recorded, and what is about to be removed is outstanding. -/
structure Accounted (s : RttState) (past : List Made) : Prop where
  numbered : Numbered { clientNames := [] } s.client (sentMsgs past)
  request : s.request.type = .rttRequest
  conserved :
    (answered past ++ (s.outstanding ++ s.pending)).Perm (requestIds past)
  removable : ∀ {m now index req}, s.removing = some (m, now, index, req) →
    AnswersTo m req.reqid ∧
      s.client.outstandingRttRequests[index]? = some req
  written : ∀ o ∈ past, ∀ name rtt, o.effect = .assetAddRtt name rtt →
    ∃ id, o.answers? = some id

theorem accounted_start (clientNames : List Bytes) :
    Accounted (RttState.start clientNames) [] where
  numbered := ⟨rfl, rfl⟩
  request := rfl
  conserved := .refl _
  removable h := by cases h
  written _ ho := absurd ho List.not_mem_nil

theorem outstanding_removeRequest {s : RttState} {index : Nat}
    {req : FssClientRtt}
    (h : s.client.outstandingRttRequests[index]? = some req) (m : FssMessage)
    (now : UInt64) :
    s.outstanding.Perm
      (req.reqid :: (s.removeRequest m now index req).1.outstanding) := by
  obtain ⟨hsplit, herase⟩ := eraseIdx_eq_append h
  have hperm : s.client.outstandingRttRequests.Perm
      (req :: s.client.outstandingRttRequests.eraseIdx index) := by
    rw [herase]
    nth_rewrite 1 [hsplit]
    exact List.perm_middle
  exact hperm.map _

theorem answers?_of_answersTo {m : FssMessage} {reqid : UInt64}
    (h : AnswersTo m reqid) (name : Bytes) (rtt : UInt64) :
    Made.answers? ⟨.assetAddRtt name rtt, some m⟩ = some reqid := by
  obtain ⟨id, type, body⟩ := m
  cases h.2
  rfl

theorem answered_removeRequest {m : FssMessage} {req : FssClientRtt}
    (h : AnswersTo m req.reqid) (s : RttState) (now : UInt64) (index : Nat) :
    answered (s.removeRequest m now index req).2 = [req.reqid] :=
  List.filterMap_cons_some (answers?_of_answersTo h _ _)

namespace Accounted

variable {s next : RttState} {past out : List Made}

theorem elsewhere (h : Accounted s past) (work : Elsewhere s next out) :
    Accounted next (past ++ out) := by
  constructor
  case numbered =>
    rw [sentMsgs_append]
    exact h.numbered.trans work.numbered
  case request => exact work.request h.request
  case conserved =>
    simpa [RttState.outstanding, work.outstanding, work.pending,
      work.unasked, work.answered_eq] using h.conserved
  case removable =>
    intro m now index req hremoving
    rw [work.removing] at hremoving
    rw [work.outstanding]
    exact h.removable hremoving
  case written =>
    refine List.forall_mem_append.mpr ⟨h.written, ?_⟩
    intro o ho name rtt hrtt
    exact absurd hrtt (work.unanswered o ho name rtt)

/-- A request that is sent is about to be recorded. -/
theorem sent (h : Accounted s past) (idle : s.sending = none) (now : UInt64) :
    Accounted
      { s with
        client := (s.client.sendMsg s.request).1
        request := (s.client.sendMsg s.request).2
        sending := some now }
      (past ++ [{ effect := .send (s.client.sendMsg s.request).2 }]) := by
  have hasked : requestId? (s.client.sendMsg s.request).2 =
      some (s.client.lastMsgId + 1) :=
    if_pos h.request
  have hpending : s.pending = [] := by
    rw [RttState.pending, idle]
  constructor
  case numbered =>
    rw [sentMsgs_append]
    exact h.numbered.trans ⟨rfl, rfl⟩
  case request => exact h.request
  case conserved =>
    have hconserved := h.conserved
    rw [hpending, List.append_nil] at hconserved
    have hids : requestIds [{ effect := .send (s.client.sendMsg
        s.request).2 }] = [s.client.lastMsgId + 1] := by
      simp [requestIds, sentMsgs, Effect.sent?, hasked]
    change (answered (past ++ _) ++
      (s.outstanding ++ [s.client.lastMsgId + 1])).Perm _
    have hanswered : answered [{ effect := .send (s.client.sendMsg
        s.request).2 }] = [] := rfl
    rw [answered_append, requestIds_append, hids, hanswered]
    simpa using hconserved.append_right [s.client.lastMsgId + 1]
  case removable => exact h.removable
  case written =>
    refine List.forall_mem_append.mpr ⟨h.written, ?_⟩
    intro o ho name rtt hrtt
    rw [List.mem_singleton.mp ho] at hrtt
    cases hrtt

theorem recorded {ts : UInt64} (h : Accounted s past)
    (sent : s.sending = some ts) :
    Accounted
      { s with
        client := { s.client with
          outstandingRttRequests :=
            s.client.outstandingRttRequests ++ [⟨ts, s.request.id⟩] }
        sending := none }
      (past ++ []) := by
  have hpending : s.pending = [s.request.id] := by
    rw [RttState.pending, sent]
  constructor
  case numbered =>
    rw [List.append_nil]
    exact ⟨h.numbered.last, h.numbered.ids⟩
  case request => exact h.request
  case conserved =>
    have hconserved := h.conserved
    rw [hpending] at hconserved
    simpa [RttState.outstanding, RttState.pending] using hconserved
  case removable =>
    intro m now index req hremoving
    obtain ⟨hanswers, hplace⟩ := h.removable hremoving
    have hlt := (List.getElem?_eq_some_iff.mp hplace).1
    exact ⟨hanswers, (List.getElem?_append_left hlt).trans hplace⟩
  case written =>
    rw [List.append_nil]
    exact h.written

theorem found {m : FssMessage} {index : Nat} {req : FssClientRtt}
    (h : Accounted s past) (answers : AnswersTo m req.reqid)
    (place : s.client.outstandingRttRequests[index]? = some req)
    (now : UInt64) :
    Accounted { s with receiving := .removeRequest m now index req }
      (past ++ []) := by
  constructor
  case numbered =>
    rw [List.append_nil]
    exact ⟨h.numbered.last, h.numbered.ids⟩
  case request => exact h.request
  case conserved =>
    rw [List.append_nil]
    exact h.conserved
  case removable =>
    intro m now index req hremoving
    cases hremoving
    exact ⟨answers, place⟩
  case written =>
    rw [List.append_nil]
    exact h.written

/-- The request that is removed is the one that is answered. -/
theorem removed {m : FssMessage} {now : UInt64} {index : Nat}
    {req : FssClientRtt} (h : Accounted s past)
    (found : s.removing = some (m, now, index, req)) :
    Accounted (s.removeRequest m now index req).1
      (past ++ (s.removeRequest m now index req).2) := by
  obtain ⟨hanswers, hplace⟩ := h.removable found
  constructor
  case numbered =>
    have hnone : sentMsgs (s.removeRequest m now index req).2 = [] := rfl
    rw [sentMsgs_append, hnone, List.append_nil]
    exact ⟨h.numbered.last, h.numbered.ids⟩
  case request => exact h.request
  case conserved =>
    have hids : requestIds (s.removeRequest m now index req).2 = [] := rfl
    have hpending :
        (s.removeRequest m now index req).1.pending = s.pending := rfl
    rw [answered_append, answered_removeRequest hanswers,
      requestIds_append, hids, hpending]
    have hconserved := ((outstanding_removeRequest hplace m now).append_right
      s.pending).append_left (answered past)
    simpa using hconserved.symm.trans h.conserved
  case removable =>
    intro m now index req hremoving
    cases hremoving
  case written =>
    refine List.forall_mem_append.mpr ⟨h.written, ?_⟩
    intro o ho name rtt _
    rw [List.mem_singleton.mp ho]
    exact ⟨req.reqid, answers?_of_answersTo hanswers _ _⟩

end Accounted

theorem Accounted.kept {s next : RttState} {past out : List Made}
    {e : RttEvent} (h : Accounted s past) (htaken : RttTaken s e (next, out)) :
    Accounted next (past ++ out) := by
  cases htaken with
  | elsewhere work kept unfound => exact h.elsewhere work
  | sent event idle => exact h.sent idle _
  | recorded event sent => exact h.recorded sent
  | found event idle identified answers place => exact h.found answers place _
  | removed event found => exact h.removed found

theorem accounted_of_run {clientNames : List Bytes} {events : List RttEvent}
    {final : RttState} {outs : List Made}
    (hrun : run RttState.step (RttState.start clientNames) events =
      some (final, outs)) : Accounted final outs :=
  @run_invariant_always _ _ _ _ Accounted _ _ [] _ _ hrun
    (accounted_start clientNames) fun h hstep => h.kept (taken_of_step hstep)

theorem requestIds_sublist (outs : List Made) :
    (requestIds outs).Sublist ((sentMsgs outs).map (·.id)) := by
  rw [requestIds]
  induction sentMsgs outs with
  | nil => exact .slnil
  | cons m rest ih =>
      rw [List.filterMap_cons, List.map_cons, requestId?]
      split_ifs
      · exact ih.cons_cons _
      · exact ih.cons _

theorem Accounted.increasing {s : RttState} {past : List Made}
    (h : Accounted s past) (hfew : (sentMsgs past).length < 2 ^ 64) :
    ((sentMsgs past).map (·.id)).Pairwise (· < ·) := by
  rw [h.numbered.ids]
  exact pairwise_consecutive (by simpa using hfew)

theorem Accounted.nodup {s : RttState} {past : List Made}
    (h : Accounted s past) (hfew : (sentMsgs past).length < 2 ^ 64) :
    (answered past ++ (s.outstanding ++ s.pending)).Nodup := by
  rw [h.conserved.nodup_iff]
  refine List.Nodup.sublist (requestIds_sublist past) ?_
  exact (h.increasing hfew).imp UInt64.ne_of_lt

/-- What one step does to the outstanding requests when it writes a
round-trip time: the one request whose id a response has is removed, and the
others stay in order. -/
def RemovesOne (s next : RttState) (out : List Made) : Prop :=
  ∃ before req after name rtt m,
    s.client.outstandingRttRequests = before ++ req :: after ∧
    next.client.outstandingRttRequests = before ++ after ∧
    out = [⟨.assetAddRtt name rtt, some m⟩] ∧ AnswersTo m req.reqid

/-- What one step does to them when it does not. -/
def RemovesNone (s next : RttState) (out : List Made) : Prop :=
  s.client.outstandingRttRequests <+: next.client.outstandingRttRequests ∧
    ∀ o ∈ out, ∀ name rtt, o.effect ≠ .assetAddRtt name rtt

/-- A response to no outstanding request removes nothing, now or later, and
nothing is written for it. -/
def IgnoresUnknown (s : RttState) (e : RttEvent) (next : RttState)
    (out : List Made) : Prop :=
  ∀ env m reqid, e = .message env (some m) → AnswersTo m reqid →
    reqid ∉ s.outstanding → next.removing = none ∧
      next.client.outstandingRttRequests = s.client.outstandingRttRequests ∧
      ∀ o ∈ out, ∀ name rtt, o.effect ≠ .assetAddRtt name rtt

/-- The accounts are sound. -/
structure RttSound (s : RttState) (past : List Made) : Prop where
  increasing : ((sentMsgs past).map (·.id)).Pairwise (· < ·)
  distinct : s.outstanding.Nodup
  requested : ∀ id ∈ s.outstanding,
    ∃ m ∈ sentMsgs past, m.type = .rttRequest ∧ m.id = id
  written : ∀ o ∈ past, ∀ name rtt, o.effect = .assetAddRtt name rtt →
    ∃ id ∈ requestIds past, o.answers? = some id
  once : (answered past).Nodup
  gone : ∀ id ∈ answered past, id ∉ s.outstanding

theorem mem_requestIds {outs : List Made} {id : UInt64} :
    id ∈ requestIds outs ↔
      ∃ m ∈ sentMsgs outs, m.type = .rttRequest ∧ m.id = id := by
  simp [requestIds, requestId?]

theorem Accounted.sound {s : RttState} {past : List Made}
    (h : Accounted s past) (hfew : (sentMsgs past).length < 2 ^ 64) :
    RttSound s past := by
  obtain ⟨honce, hrest, hapart⟩ := List.nodup_append.mp (h.nodup hfew)
  constructor
  case increasing => exact h.increasing hfew
  case distinct => exact hrest.sublist (List.sublist_append_left _ _)
  case requested =>
    intro id hid
    apply mem_requestIds.mp
    exact h.conserved.subset (List.mem_append_right _
      (List.mem_append_left _ hid))
  case written =>
    intro o ho name rtt hrtt
    obtain ⟨id, hid⟩ := h.written o ho name rtt hrtt
    refine ⟨id, h.conserved.subset (List.mem_append_left _ ?_), hid⟩
    exact List.mem_filterMap.mpr ⟨o, ho, hid⟩
  case once => exact honce
  case gone =>
    intro id hid houtstanding
    exact hapart id hid id (List.mem_append_left _ houtstanding) rfl

theorem Accounted.step_sound {s next : RttState} {past out : List Made}
    {e : RttEvent} (h : Accounted s past) (htaken : RttTaken s e (next, out)) :
    (RemovesOne s next out ∨ RemovesNone s next out) ∧
      IgnoresUnknown s e next out := by
  cases htaken with
  | elsewhere work kept unfound =>
      have hsame := work.outstanding
      refine ⟨.inr ⟨hsame ▸ List.prefix_refl _, work.unanswered⟩, ?_⟩
      intro env m reqid he _ _
      have hremoving : s.removing = none :=
        kept.resolve_right fun hkept => hkept.2 env (some m) he
      exact ⟨work.removing.trans hremoving, hsame, work.unanswered⟩
  | sent event idle =>
      refine ⟨.inr ⟨List.prefix_refl _, by simp⟩, fun env m reqid he => ?_⟩
      cases he.symm.trans event
  | recorded event sent =>
      refine ⟨.inr ⟨List.prefix_append _ _, by simp⟩, fun env m reqid he => ?_⟩
      cases he.symm.trans event
  | found event idle identified answers place =>
      refine ⟨.inr ⟨List.prefix_refl _, by simp⟩, ?_⟩
      intro env m reqid he hanswers hout
      cases he.symm.trans event
      cases answers.2.symm.trans hanswers.2
      exact absurd (List.mem_map_of_mem (List.mem_of_getElem? place)) hout
  | removed event found =>
      obtain ⟨hanswers, hplace⟩ := h.removable found
      obtain ⟨hsplit, herase⟩ := eraseIdx_eq_append hplace
      refine ⟨.inl ⟨_, _, _, _, _, _, hsplit, herase, rfl, hanswers⟩, ?_⟩
      intro env m reqid he
      cases he.symm.trans event

/-- In every run of fewer than `2 ^ 64` sends the accounts are sound, and so
is every step that can follow. -/
theorem rtt_sound {clientNames : List Bytes} {events : List RttEvent}
    {final : RttState} {outs : List Made}
    (hrun : run RttState.step (RttState.start clientNames) events =
      some (final, outs))
    (hfew : (sentMsgs outs).length < 2 ^ 64) :
    RttSound final outs ∧ ∀ e next out, final.step e = some (next, out) →
      (RemovesOne final next out ∨ RemovesNone final next out) ∧
        IgnoresUnknown final e next out := by
  have haccounted := accounted_of_run hrun
  refine ⟨haccounted.sound hfew, fun e next out hstep => ?_⟩
  exact haccounted.step_sound (taken_of_step hstep)

/-- Nothing to send, at the start of time. -/
def quietEnv : Env := ⟨emptyDb, 0⟩

/-- A client that says it is no aircraft. -/
def identified : RttEvent :=
  .message quietEnv (some (fssMessageIdentityNonAircraft 0))

/-- The response to the first request. -/
def firstResponse : RttEvent :=
  .message quietEnv (some (fssMessageRttResponse 1))

theorem rtt_sound_firstResponse :
    ∃ final outs,
      run RttState.step (RttState.start [])
        [identified, .sendRequest quietEnv, .recordRequest, firstResponse,
          .proceed quietEnv] = some (final, outs) ∧
      RttSound final outs ∧ ∀ e next out, final.step e = some (next, out) →
        (RemovesOne final next out ∨ RemovesNone final next out) ∧
          IgnoresUnknown final e next out := by
  refine ⟨_, _, rfl, ?_⟩
  apply @rtt_sound [] [identified, .sendRequest quietEnv, .recordRequest,
    firstResponse, .proceed quietEnv]
  · rfl
  · decide

end FlightSafety.Server
