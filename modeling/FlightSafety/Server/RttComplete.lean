/-
A response is found when its request has been recorded; a response that comes
earlier is dropped, and its request stays outstanding.
-/
import FlightSafety.Server.RttSound

namespace FlightSafety.Server

open Octets Machine

/-- No round-trip time has been written for a request or is about to be. -/
structure Unanswered (reqid : UInt64) (s : RttState) (past : List Made) :
    Prop where
  accounted : Accounted s past
  unwritten : reqid ∉ answered past
  unfound : ∀ {m now index req}, s.removing = some (m, now, index, req) →
    req.reqid ≠ reqid

/-- No event is a response to a request. -/
def NoResponse (reqid : UInt64) (e : RttEvent) : Prop :=
  ∀ env m, e = .message env (some m) → ¬ AnswersTo m reqid

theorem Unanswered.kept {reqid : UInt64} {s next : RttState}
    {past out : List Made} {e : RttEvent} (h : Unanswered reqid s past)
    (htaken : RttTaken s e (next, out))
    (hquiet : NoResponse reqid e ∨ reqid ∉ s.outstanding) :
    Unanswered reqid next (past ++ out) := by
  refine ⟨h.accounted.kept htaken, ?_, ?_⟩
  · rw [answered_append, List.mem_append, not_or]
    refine ⟨h.unwritten, ?_⟩
    cases htaken with
    | elsewhere work kept unfound =>
        rw [work.answered_eq]
        exact List.not_mem_nil
    | removed event found =>
        rw [answered_removeRequest (h.accounted.removable found).1,
          List.mem_singleton]
        exact (h.unfound found).symm
    | _ => exact List.not_mem_nil
  · cases htaken with
    | elsewhere work kept unfound =>
        intro m now index req hremoving
        rw [work.removing] at hremoving
        exact h.unfound hremoving
    | found event idle identified answers place =>
        intro m now index req hremoving
        cases hremoving
        rintro rfl
        rcases hquiet with hquiet | hout
        · exact hquiet _ _ event answers
        · exact hout (List.mem_map_of_mem (List.mem_of_getElem? place))
    | removed event found =>
        intro m now index req hremoving
        cases hremoving
    | _ => exact h.unfound

/-- The receive loop is removing a request, or its time has been written. -/
structure Found (reqid : UInt64) (s : RttState) (past : List Made) : Prop where
  accounted : Accounted s past
  found : (∃ m now index req, s.removing = some (m, now, index, req) ∧
    req.reqid = reqid) ∨ reqid ∈ answered past

theorem Found.kept {reqid : UInt64} {s next : RttState} {past out : List Made}
    {e : RttEvent} (h : Found reqid s past)
    (htaken : RttTaken s e (next, out)) : Found reqid next (past ++ out) := by
  refine ⟨h.accounted.kept htaken, ?_⟩
  rcases h.found with ⟨m, now, index, req, hremoving, hid⟩ | hwritten
  · cases htaken with
    | elsewhere work kept unfound =>
        exact .inl ⟨m, now, index, req, work.removing.trans hremoving, hid⟩
    | found event idle identified answers place =>
        rw [hremoving] at idle
        cases idle
    | removed event found =>
        cases hremoving.symm.trans found
        right
        rw [answered_append,
          answered_removeRequest (h.accounted.removable found).1, hid]
        exact List.mem_append_right _ (List.mem_singleton_self reqid)
    | _ => exact .inl ⟨m, now, index, req, hremoving, hid⟩
  · rw [answered_append]
    exact .inr (List.mem_append_left _ hwritten)

theorem unanswered_of_run {reqid : UInt64} {s final : RttState}
    {events : List RttEvent} {past outs : List Made}
    (hrun : run RttState.step s events = some (final, outs))
    (hquiet : ∀ e ∈ events, NoResponse reqid e)
    (h : Unanswered reqid s past) : Unanswered reqid final (past ++ outs) :=
  run_invariant (Unanswered reqid) hrun (allSteps_of_forall_mem hquiet s) h
    fun hinv hok hstep => hinv.kept (taken_of_step hstep) (.inl hok)

theorem found_of_run {reqid : UInt64} {s final : RttState}
    {events : List RttEvent} {past outs : List Made}
    (hrun : run RttState.step s events = some (final, outs))
    (h : Found reqid s past) : Found reqid final (past ++ outs) :=
  run_invariant_always (Found reqid) hrun h
    fun hinv hstep => hinv.kept (taken_of_step hstep)

theorem unanswered_start (clientNames : List Bytes) (reqid : UInt64) :
    Unanswered reqid (RttState.start clientNames) [] where
  accounted := accounted_start clientNames
  unwritten := List.not_mem_nil
  unfound h := by cases h

/-- Each request is in one place. -/
theorem Accounted.count_eq {s : RttState} {past : List Made}
    (h : Accounted s past) (reqid : UInt64) :
    (answered past).count reqid + (s.outstanding.count reqid +
      s.pending.count reqid) = (requestIds past).count reqid := by
  rw [← h.conserved.count_eq, List.count_append, List.count_append]

/-- A response to an outstanding request is found. -/
theorem found_of_taken {reqid : UInt64} {s next : RttState}
    {past out : List Made} {env : Env} {m : FssMessage}
    (h : Accounted s past)
    (htaken : RttTaken s (.message env (some m)) (next, out))
    (hidentified : s.client.identified = true) (hanswers : AnswersTo m reqid)
    (houtstanding : reqid ∈ s.outstanding) : Found reqid next (past ++ out) := by
  refine ⟨h.kept htaken, ?_⟩
  cases htaken with
  | elsewhere work kept unfound =>
      exact absurd houtstanding (unfound env m reqid rfl hidentified hanswers)
  | found event idle identified answers place =>
      cases event
      cases answers.2.symm.trans hanswers.2
      exact .inl ⟨_, _, _, _, rfl, rfl⟩
  | sent event idle => cases event
  | recorded event sent => cases event
  | removed event found => cases event

/-- When one response to a request comes from an identified client, its time
is written once and it is outstanding no longer, if and only if the response
was processed when the request had been recorded. -/
theorem rtt_complete_iff {clientNames : List Bytes}
    {before after : List RttEvent} {env : Env} {m : FssMessage}
    {reqid : UInt64} {middle final : RttState} {early late : List Made}
    (hbefore : run RttState.step (RttState.start clientNames) before =
      some (middle, early))
    (hafter : run RttState.step middle (.message env (some m) :: after) =
      some (final, late))
    (hidle : final.sending = none ∧ final.receiving = .idle)
    (hidentified : middle.client.identified = true)
    (hanswers : AnswersTo m reqid) (hsent : reqid ∈ requestIds early)
    (honly : ∀ e ∈ before ++ after, NoResponse reqid e)
    (hunique : (requestIds (early ++ late)).count reqid = 1) :
    ((answered (early ++ late)).count reqid = 1 ∧
      reqid ∉ final.outstanding) ↔ reqid ∉ middle.pending := by
  rw [List.forall_mem_append] at honly
  obtain ⟨next, out, later, hstep, hlater, rfl⟩ := run_cons_eq_some.mp hafter
  have htaken := taken_of_step hstep
  have hmiddle : Unanswered reqid middle early :=
    unanswered_of_run hbefore honly.1 (unanswered_start clientNames reqid)
  have hmiddleCount := hmiddle.accounted.count_eq reqid
  have hunwritten := List.count_eq_zero_of_not_mem hmiddle.unwritten
  have hnone : final.removing = none := by
    rw [RttState.removing, hidle.2]
  constructor
  · rintro ⟨hwritten, -⟩ hpending
    have hfirst : (requestIds early).count reqid ≤ 1 := by
      rw [← hunique, requestIds_append, List.count_append]
      exact Nat.le_add_right _ _
    have hout : reqid ∉ middle.outstanding := by
      rw [← List.count_pos_iff] at hpending ⊢
      omega
    have hfinal := unanswered_of_run hlater honly.2
      (hmiddle.kept htaken (.inr hout))
    rw [List.append_assoc] at hfinal
    have hzero := List.count_eq_zero_of_not_mem hfinal.unwritten
    omega
  · intro hpending
    have hin : reqid ∈ middle.outstanding := by
      rw [← List.count_pos_iff] at hsent ⊢
      have hzero := List.count_eq_zero_of_not_mem hpending
      omega
    have hfinal := found_of_run hlater (found_of_taken hmiddle.accounted
      htaken hidentified hanswers hin)
    rw [List.append_assoc] at hfinal
    have hwritten : reqid ∈ answered (early ++ (out ++ later)) := by
      apply hfinal.found.resolve_left
      rintro ⟨m, now, index, req, hremoving, -⟩
      rw [hnone] at hremoving
      cases hremoving
    have hcount := hfinal.accounted.count_eq reqid
    rw [← List.count_pos_iff] at hwritten
    rw [← List.count_eq_zero]
    omega

/-- Only a message can be a response. -/
theorem noResponse_of_not_message {reqid : UInt64} {e : RttEvent}
    (h : ∀ env msg, e ≠ .message env msg) : NoResponse reqid e :=
  fun env m he => absurd he (h env (some m))

theorem noResponse_identified (reqid : UInt64) :
    NoResponse reqid identified := by
  rintro env m he ⟨htype, -⟩
  cases he
  cases htype

theorem rtt_complete_iff_recorded :
    ∃ middle final early late,
      run RttState.step (RttState.start [])
        [identified, .sendRequest quietEnv, .recordRequest] =
          some (middle, early) ∧
      run RttState.step middle [firstResponse, .proceed quietEnv] =
        some (final, late) ∧
      (((answered (early ++ late)).count 1 = 1 ∧ 1 ∉ final.outstanding) ↔
        1 ∉ middle.pending) := by
  refine ⟨_, _, _, _, rfl, rfl, ?_⟩
  apply @rtt_complete_iff []
    [identified, .sendRequest quietEnv, .recordRequest] [.proceed quietEnv]
    quietEnv (fssMessageRttResponse 1) 1
  · rfl
  · rfl
  · exact ⟨rfl, rfl⟩
  · rfl
  · exact ⟨rfl, rfl⟩
  · decide
  · intro e he
    simp only [List.cons_append, List.nil_append, List.mem_cons,
      List.not_mem_nil, or_false] at he
    rcases he with rfl | rfl | rfl | rfl
    · exact noResponse_identified 1
    · exact noResponse_of_not_message (by simp)
    · exact noResponse_of_not_message (by simp)
    · exact noResponse_of_not_message (by simp)
  · decide

/-- The response is processed when the request has been sent and not been
recorded. -/
theorem not_complete_early :
    ∃ middle final early late,
      run RttState.step (RttState.start [])
        [identified, .sendRequest quietEnv] = some (middle, early) ∧
      run RttState.step middle [firstResponse, .recordRequest] =
        some (final, late) ∧
      (final.sending = none ∧ final.receiving = .idle) ∧
      middle.client.identified = true ∧
      AnswersTo (fssMessageRttResponse 1) 1 ∧ 1 ∈ requestIds early ∧
      (∀ e ∈ [identified, .sendRequest quietEnv, .recordRequest],
        NoResponse 1 e) ∧
      (requestIds (early ++ late)).count 1 = 1 ∧
      ¬ ((answered (early ++ late)).count 1 = 1 ∧ 1 ∉ final.outstanding) := by
  refine ⟨_, _, _, _, rfl, rfl, ⟨rfl, rfl⟩, rfl, ⟨rfl, rfl⟩, ?_, ?_, ?_, ?_⟩
  · decide
  · intro e he
    simp only [List.mem_cons, List.not_mem_nil, or_false] at he
    rcases he with rfl | rfl | rfl
    · exact noResponse_identified 1
    · exact noResponse_of_not_message (by simp)
    · exact noResponse_of_not_message (by simp)
  · decide
  · decide

end FlightSafety.Server
