/-
How long a server is left alone after attempts that have failed.  What is to
be waited for doubles with every failure up to a cap; `reconnect` compares its
delay with the cap before it doubles it, and so goes past it once.
-/
import FlightSafety.Client.Operations
import Mathlib.Data.List.DropRight

namespace FlightSafety.Client

open Machine

/-- A call of `reconnect` and whether it made its attempt. -/
structure Call where
  attempt : Attempt
  made : Bool
deriving Repr, DecidableEq

inductive ServerEvent where
  | reconnect (attempt : Attempt)
  | closed
deriving Repr, DecidableEq

/-- The calls of `reconnect` on one server.  Between them its connection can
be closed. -/
def FssServer.callStep : Step FssServer ServerEvent Call
  | s, .reconnect attempt =>
      some ((s.reconnect attempt).1, [⟨attempt, s.due attempt.ts⟩])
  | s, .closed =>
      if s.connection = some .handled then some (s.processClosed, []) else none

/-- The attempts that were made. -/
def attemptsMade (past : List Call) : List Attempt :=
  (past.filter (·.made)).map (·.attempt)

/-- The attempts that have failed in a row since the last that succeeded. -/
def failures (past : List Call) : Nat :=
  ((attemptsMade past).rtakeWhile fun attempt => !attempt.connects).length

def lastAttempt (past : List Call) : Option UInt64 :=
  (attemptsMade past).getLast?.map (·.ts)

/-- What is to be waited for after some failures in a row. -/
def backoff (failed : Nat) : Nat :=
  min (retryDelayStart.toNat * 2 ^ failed) retryDelayCap.toNat

/-- A call does what it should after the calls before it. -/
structure BacksOff (s : FssServer) (past : List Call) (attempt : Attempt) :
    Prop where
  attempts : 1 ≤ failures past → ∀ last, lastAttempt past = some last →
    (s.due attempt.ts = true ↔
      backoff (failures past) < attempt.ts.toNat - last.toNat)
  restores : (s.reconnect attempt).2 = true →
    (s.reconnect attempt).1.retryDelay = retryDelayStart
  returns : (s.reconnect attempt).2 = true ↔
    (s.reconnect attempt).1.connected = true

/-- The call does not fall into the time between the cap and the delay that
went past it. -/
def OutsideOvershoot (past : List Call) (ts : UInt64) : Prop :=
  ∀ last, lastAttempt past = some last →
    failures past ≤ 4 ∨ ts.toNat - last.toNat ≤ 30000 ∨
      32000 < ts.toNat - last.toNat

section History

variable {past : List Call} {call : Call}

theorem attemptsMade_concat_of_made (h : call.made = true) :
    attemptsMade (past ++ [call]) = attemptsMade past ++ [call.attempt] := by
  rw [attemptsMade, List.filter_append, List.filter_cons_of_pos h,
    List.map_append]
  rfl

theorem attemptsMade_concat_of_not_made (h : call.made = false) :
    attemptsMade (past ++ [call]) = attemptsMade past := by
  have hnot : ¬ call.made = true := by simp [h]
  rw [attemptsMade, List.filter_append, List.filter_cons_of_neg hnot,
    List.filter_nil, List.append_nil]
  rfl

theorem failures_concat_of_failed (h : call.made = true)
    (hfailed : call.attempt.connects = false) :
    failures (past ++ [call]) = failures past + 1 := by
  rw [failures, attemptsMade_concat_of_made h, List.rtakeWhile_concat,
    if_pos (by simp [hfailed]), List.length_append]
  rfl

theorem failures_concat_of_succeeded (h : call.made = true)
    (hsucceeded : call.attempt.connects = true) :
    failures (past ++ [call]) = 0 := by
  rw [failures, attemptsMade_concat_of_made h, List.rtakeWhile_concat,
    if_neg (by simp [hsucceeded])]
  rfl

theorem lastAttempt_concat_of_made (h : call.made = true) :
    lastAttempt (past ++ [call]) = some call.attempt.ts := by
  rw [lastAttempt, attemptsMade_concat_of_made h, List.getLast?_concat]
  rfl

theorem lastAttempt_le {ts last : UInt64}
    (h : ∀ call ∈ past, call.attempt.ts ≤ ts) (hlast : lastAttempt past = some last) :
    last ≤ ts := by
  rw [lastAttempt, Option.map_eq_some_iff] at hlast
  obtain ⟨attempt, hattempt, rfl⟩ := hlast
  have hmem := List.mem_of_getLast? hattempt
  rw [attemptsMade, List.mem_map] at hmem
  obtain ⟨call, hcall, rfl⟩ := hmem
  exact h call (List.mem_of_mem_filter hcall)

end History

/-- The delay that a server really has after some failures in a row. -/
def delayKept (failed : Nat) : Nat :=
  1000 * 2 ^ min failed 5

theorem delayKept_of_le {failed : Nat} (h : 5 ≤ failed) :
    delayKept failed = 32000 := by
  rw [delayKept, Nat.min_eq_right h]
  rfl

namespace FssServer

variable {s : FssServer} {attempt : Attempt}

theorem toNat_retryDelay_tried {failed : Nat} (ts : UInt64)
    (h : s.retryDelay.toNat = delayKept failed) :
    (s.tried ts).retryDelay.toNat = delayKept (failed + 1) := by
  have hcap : s.retryDelay < retryDelayCap ↔ delayKept failed < 30000 := by
    rw [UInt64.lt_iff_toNat_lt, h]
    rfl
  by_cases hfailed : failed < 5
  · have hkept : delayKept failed = 1000 * 2 ^ failed := by
      rw [delayKept, Nat.min_eq_left (Nat.le_of_lt hfailed)]
    have hsmall : 2 ^ failed ≤ 2 ^ 4 :=
      Nat.pow_le_pow_right (by decide) (Nat.le_of_lt_succ hfailed)
    have hnext : delayKept (failed + 1) = 2 * delayKept failed := by
      rw [hkept, delayKept, Nat.min_eq_left hfailed, Nat.pow_succ]
      omega
    have hbelow : delayKept failed < 30000 := by omega
    rw [tried, if_pos (hcap.mpr hbelow), UInt64.toNat_add, h, hnext]
    omega
  · have hkept := delayKept_of_le (Nat.le_of_not_lt hfailed)
    have hnext := delayKept_of_le (Nat.le_succ_of_le (Nat.le_of_not_lt hfailed))
    rw [tried, if_neg (by rw [hcap, hkept]; decide), h, hkept, hnext]

end FssServer

/-- The fields of a server agree with the calls it has had. -/
structure Linked (s : FssServer) (past : List Call) : Prop where
  delay : s.retryDelay.toNat = delayKept (failures past)
  lastTried : 1 ≤ failures past → lastAttempt past = some s.lastTried
  connection : 1 ≤ failures past → s.connection = none

namespace Linked

variable {s next : FssServer} {past out : List Call} {e : ServerEvent}

theorem reconnect (h : Linked s past) (attempt : Attempt) :
    Linked (s.reconnect attempt).1
      (past ++ [⟨attempt, s.due attempt.ts⟩]) := by
  cases hdue : s.due attempt.ts with
  | true =>
      rw [FssServer.reconnect_of_due hdue]
      cases hconnects : attempt.connects with
      | true =>
          have hnone := @failures_concat_of_succeeded past ⟨attempt, true⟩ rfl
            hconnects
          constructor
          · rw [hnone]
            rfl
          · rw [hnone]
            exact fun h => absurd h (by decide)
          · rw [hnone]
            exact fun h => absurd h (by decide)
      | false =>
          have hmore := @failures_concat_of_failed past ⟨attempt, true⟩ rfl
            hconnects
          constructor
          · rw [hmore]
            exact FssServer.toNat_retryDelay_tried attempt.ts h.delay
          · exact fun _ => lastAttempt_concat_of_made rfl
          · exact fun _ => rfl
  | false =>
      rw [FssServer.reconnect_of_not_due hdue]
      have hmade := @attemptsMade_concat_of_not_made past ⟨attempt, false⟩ rfl
      have hfailures : failures (past ++ [⟨attempt, false⟩]) = failures past := by
        rw [failures, hmade, failures]
      constructor
      · rw [hfailures]
        exact h.delay
      · rw [hfailures, lastAttempt, hmade]
        exact h.lastTried
      · exact fun _ => rfl

/-- Only a server without failures has a connection that can be closed. -/
theorem closed (h : Linked s past) (hhandled : s.connection = some .handled) :
    Linked s.processClosed past := by
  have hnone : ¬ 1 ≤ failures past := by
    intro hsome
    rw [h.connection hsome] at hhandled
    cases hhandled
  exact ⟨h.delay, fun hsome => absurd hsome hnone,
    fun hsome => absurd hsome hnone⟩

theorem step (h : Linked s past)
    (hstep : s.callStep e = some (next, out)) : Linked next (past ++ out) := by
  cases e with
  | reconnect attempt =>
      cases hstep
      exact h.reconnect attempt
  | closed =>
      rw [FssServer.callStep] at hstep
      split at hstep
      next hhandled =>
          cases hstep
          rw [List.append_nil]
          exact h.closed hhandled
      next => cases hstep

end Linked

/-- The two delays ask for an attempt after the same times, apart from those
between the cap and the delay that went past it. -/
theorem delayKept_iff_backoff (failed elapsed : Nat) :
    (delayKept failed < elapsed ↔ backoff failed < elapsed) ↔
      (failed ≤ 4 ∨ elapsed ≤ 30000 ∨ 32000 < elapsed) := by
  have hbackoff : backoff failed = min (1000 * 2 ^ failed) 30000 := rfl
  by_cases hfailed : failed ≤ 4
  · have hsmall : 2 ^ failed ≤ 2 ^ 4 := Nat.pow_le_pow_right (by decide) hfailed
    have hsame : delayKept failed = backoff failed := by
      rw [hbackoff, delayKept, Nat.min_eq_left (by omega), Nat.min_eq_left (by omega)]
    rw [hsame]
    exact iff_of_true Iff.rfl (.inl hfailed)
  · have hlarge : 2 ^ 5 ≤ 2 ^ failed :=
      Nat.pow_le_pow_right (by decide) (by omega)
    have hkept := delayKept_of_le (Nat.lt_of_not_le hfailed)
    have hcap : backoff failed = 30000 := by
      rw [hbackoff, Nat.min_eq_right (by omega)]
    rw [hkept, hcap]
    omega

theorem Linked.due_iff {s : FssServer} {past : List Call} {ts last : UInt64}
    (h : Linked s past) (hfailed : 1 ≤ failures past)
    (hlast : lastAttempt past = some last) (horder : last ≤ ts) :
    s.due ts = true ↔ delayKept (failures past) < ts.toNat - last.toNat := by
  have hfield := h.lastTried hfailed
  rw [hlast] at hfield
  cases hfield
  rw [FssServer.due, decide_eq_true_iff, gt_iff_lt, UInt64.lt_iff_toNat_lt,
    h.delay, UInt64.toNat_sub_of_le _ _ horder]

/-- A call after any run of calls backs off as it should if and only if it does
not come between the cap and the delay that went past it. -/
theorem backsOff_iff {s : FssServer} {address : Octets.Bytes} {port : UInt16}
    {events : List ServerEvent} {past : List Call} {attempt : Attempt}
    (hrun : run FssServer.callStep { address := address, port := port } events =
      some (s, past))
    (horder : ∀ call ∈ past, call.attempt.ts ≤ attempt.ts) :
    BacksOff s past attempt ↔ OutsideOvershoot past attempt.ts := by
  have hlinked : Linked s ([] ++ past) :=
    run_invariant_always Linked hrun ⟨rfl, fun h => absurd h (by decide),
      fun h => absurd h (by decide)⟩ Linked.step
  rw [List.nil_append] at hlinked
  constructor
  · intro hbacks last hlast
    rcases Nat.eq_zero_or_pos (failures past) with hnone | hfailed
    · exact .inl (by rw [hnone]; decide)
    · rw [← delayKept_iff_backoff,
        ← hlinked.due_iff hfailed hlast (lastAttempt_le horder hlast)]
      exact hbacks.attempts hfailed last hlast
  · intro houtside
    constructor
    case attempts =>
      intro hfailed last hlast
      rw [hlinked.due_iff hfailed hlast (lastAttempt_le horder hlast)]
      exact (delayKept_iff_backoff _ _).mpr (houtside last hlast)
    case restores => exact FssServer.reconnect_restores
    case returns => exact FssServer.reconnect_returns

/-- An attempt at some time that fails. -/
def failsAt (ts : UInt64) : ServerEvent :=
  .reconnect ⟨ts, false⟩

/-- Five attempts that fail, each made as soon as it may be, or later. -/
def fiveFailures : List ServerEvent :=
  [failsAt 2000, failsAt 5000, failsAt 10000, failsAt 20000, failsAt 40000]

theorem backsOff_iff_fiveFailures :
    ∃ s past, run FssServer.callStep {} fiveFailures = some (s, past) ∧
      failures past = 5 ∧
      (BacksOff s past ⟨71000, true⟩ ↔ OutsideOvershoot past 71000) :=
  ⟨_, _, rfl, rfl, @backsOff_iff _ _ _ fiveFailures _ ⟨71000, true⟩ rfl (by decide)⟩

/-- After five failures, 31 seconds are more than the cap and no attempt is
made. -/
theorem not_backsOff_fiveFailures :
    ∃ s past, run FssServer.callStep {} fiveFailures = some (s, past) ∧
      (∀ call ∈ past, call.attempt.ts ≤ 71000) ∧
      ¬ BacksOff s past ⟨71000, true⟩ := by
  refine ⟨_, _, rfl, by decide, fun h => ?_⟩
  have hattempts := h.attempts (by decide) 40000 rfl
  revert hattempts
  decide

end FlightSafety.Client
