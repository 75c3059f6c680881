/-
Polling a connection that has no handler.  The receive loop pushes the result
of every `recvMsg`, a null one too; `getMsg` looks at the front of the queue
and pops it unless it is null, so a null result stays in front for good.
-/
import Mathlib.Data.List.ReduceOption
import FlightSafety.Lib.Machine
import FlightSafety.Transport.Chunking

namespace FlightSafety

open Machine

/-- The part of a connection that polling uses. -/
structure Inbox (α : Type) where
  handler : Bool := false
  messages : List (Option α) := []
deriving Repr, DecidableEq

/-- A round of the receive loop with its `recvMsg` result, or a poll. -/
inductive InboxEvent (α : Type) where
  | recvMsg (msg : Option α)
  | getMsg
deriving Repr, DecidableEq

namespace Inbox

variable {α : Type}

/-- The end of a round of `processMessages`.  A handler takes the result out
of the polling thread's reach. -/
def processMessage (c : Inbox α) (msg : Option α) : Inbox α :=
  if c.handler then c else { c with messages := c.messages ++ [msg] }

def getMsg (c : Inbox α) : Option α × Inbox α :=
  if c.handler then (none, c)
  else match c.messages with
    | [] => (none, c)
    | none :: _ => (none, c)
    | some msg :: messages => (some msg, { c with messages := messages })

/-- The outputs are the results of `getMsg`. -/
def step : Step (Inbox α) (InboxEvent α) (Option α)
  | c, .recvMsg msg => some (c.processMessage msg, [])
  | c, .getMsg => some (c.getMsg.2, [c.getMsg.1])

/-- The `recvMsg` results of a run, in order. -/
def received : List (InboxEvent α) → List (Option α)
  | [] => []
  | .recvMsg msg :: events => msg :: received events
  | .getMsg :: events => received events

/-- What `getMsg` has returned begins the messages received, and enough more
calls return the rest of them. -/
def PollsAll (events : List (InboxEvent α)) : Prop :=
  ∀ final results, run step {} events = some (final, results) →
    results.reduceOption <+: (received events).reduceOption ∧
      ∃ enough, ∀ polls ≥ enough, ∃ drained more,
        run step final (List.replicate polls .getMsg) =
          some (drained, more) ∧
        (results ++ more).reduceOption = (received events).reduceOption

/-- No message comes behind a null result. -/
def NullsLast (msgs : List (Option α)) : Prop :=
  msgs.Pairwise fun earlier later => earlier = none → later = none

theorem received_replicate_getMsg (polls : Nat) :
    received (List.replicate polls (.getMsg : InboxEvent α)) = [] := by
  induction polls with
  | zero => rfl
  | succ polls ih => exact ih

/-- Only messages leave the queue, so what was queued or received is what has
been returned and what is queued still. -/
theorem run_split {c final : Inbox α} {events : List (InboxEvent α)}
    {results : List (Option α)}
    (hrun : run step c events = some (final, results))
    (hhandler : c.handler = false) :
    final.handler = false ∧ c.messages ++ received events =
      results.reduceOption.map some ++ final.messages := by
  induction events generalizing c results with
  | nil =>
      cases hrun
      exact ⟨hhandler, by simp [received]⟩
  | cons e events ih =>
      obtain ⟨next, out, later, hstep, hlater, rfl⟩ :=
        run_cons_eq_some.mp hrun
      rcases c with ⟨handler, messages⟩
      change handler = false at hhandler
      subst hhandler
      cases e with
      | recvMsg msg =>
          cases hstep
          obtain ⟨hfinal, hsplit⟩ := ih hlater rfl
          refine ⟨hfinal, ?_⟩
          simpa [received, processMessage] using hsplit
      | getMsg =>
          rcases messages with _ | ⟨_ | msg, messages⟩
          · cases hstep
            obtain ⟨hfinal, hsplit⟩ := ih hlater rfl
            exact ⟨hfinal, hsplit⟩
          · cases hstep
            obtain ⟨hfinal, hsplit⟩ := ih hlater rfl
            exact ⟨hfinal, hsplit⟩
          · cases hstep
            obtain ⟨hfinal, hsplit⟩ := ih hlater rfl
            refine ⟨hfinal, ?_⟩
            simpa [received, getMsg, List.reduceOption_cons_of_some] using
              hsplit

theorem run_split_reduceOption {c final : Inbox α}
    {events : List (InboxEvent α)} {results : List (Option α)}
    (hrun : run step c events = some (final, results))
    (hhandler : c.handler = false) :
    c.messages.reduceOption ++ (received events).reduceOption =
      results.reduceOption ++ final.messages.reduceOption := by
  have hsplit := congrArg List.reduceOption (run_split hrun hhandler).2
  rw [List.reduceOption_append, List.reduceOption_append] at hsplit
  rw [hsplit, List.append_left_inj]
  simp [List.reduceOption]

/-- Calls that find nothing to pop change nothing. -/
theorem run_polls_blocked {c : Inbox α} (hblocked : c.getMsg = (none, c))
    (polls : Nat) : ∃ more,
      run step c (List.replicate polls .getMsg) = some (c, more) := by
  induction polls with
  | zero => exact ⟨[], rfl⟩
  | succ polls ih =>
      obtain ⟨more, hmore⟩ := ih
      have hstep : step c .getMsg = some (c, [none]) := by
        rw [step, hblocked]
      exact ⟨[none] ++ more, run_cons_eq_some.mpr
        ⟨c, [none], more, hstep, hmore, rfl⟩⟩

/-- As many calls as there are entries bring the first null result, or the end
of the queue, to the front. -/
theorem run_polls {polls : Nat} {messages : List (Option α)}
    (henough : messages.length ≤ polls) :
    ∃ more, run step ⟨false, messages⟩ (List.replicate polls .getMsg) =
      some (⟨false, messages.dropWhile Option.isSome⟩, more) := by
  induction messages generalizing polls with
  | nil => exact run_polls_blocked rfl polls
  | cons first messages ih =>
      cases first with
      | none => exact run_polls_blocked rfl polls
      | some msg =>
          cases polls with
          | zero => cases henough
          | succ polls =>
              obtain ⟨more, hmore⟩ := ih (Nat.le_of_succ_le_succ henough)
              exact ⟨[some msg] ++ more, run_cons_eq_some.mpr
                ⟨⟨false, messages⟩, [some msg], more, rfl, hmore, rfl⟩⟩

/-- A queue has no message behind a null result if and only if it holds none
from its first null result on. -/
theorem nullsLast_iff (messages : List (Option α)) :
    NullsLast messages ↔
      (messages.dropWhile Option.isSome).reduceOption = [] := by
  induction messages with
  | nil => simp [NullsLast]
  | cons first messages ih =>
      cases first with
      | some msg =>
          simp only [NullsLast, List.pairwise_cons, reduceCtorEq,
            false_implies, implies_true, true_and]
          exact ih
      | none =>
          simp only [NullsLast, List.pairwise_cons, forall_const]
          change _ ↔ (none :: messages).reduceOption = []
          rw [List.reduceOption_cons_of_none, List.reduceOption_eq_nil_iff]
          constructor
          · rintro ⟨hnull, _⟩
            exact ⟨messages.length, List.eq_replicate_of_mem hnull⟩
          · rintro ⟨count, rfl⟩
            refine ⟨fun later hlater => List.eq_of_mem_replicate hlater, ?_⟩
            exact List.pairwise_replicate.mpr (Or.inr fun h => h)

theorem nullsLast_append_some (msgs : List α) (messages : List (Option α)) :
    NullsLast (msgs.map some ++ messages) ↔ NullsLast messages := by
  induction msgs with
  | nil => exact Iff.rfl
  | cons msg msgs ih => simpa [NullsLast] using ih

theorem run_total (c : Inbox α) (events : List (InboxEvent α)) :
    ∃ final results, run step c events = some (final, results) := by
  induction events generalizing c with
  | nil => exact ⟨c, [], rfl⟩
  | cons e events ih =>
      cases e with
      | recvMsg msg =>
          obtain ⟨final, later, hlater⟩ := ih (c.processMessage msg)
          exact ⟨final, _, run_cons_eq_some.mpr
            ⟨_, [], later, rfl, hlater, rfl⟩⟩
      | getMsg =>
          obtain ⟨final, later, hlater⟩ := ih c.getMsg.2
          exact ⟨final, _, run_cons_eq_some.mpr
            ⟨_, [c.getMsg.1], later, rfl, hlater, rfl⟩⟩

/-- Further calls return all that is queued if and only if no message in the
queue comes behind a null result. -/
theorem drains_iff (messages : List (Option α)) :
    (∃ enough, ∀ polls ≥ enough, ∃ drained more,
      run step ⟨false, messages⟩ (List.replicate polls .getMsg) =
        some (drained, more) ∧
      more.reduceOption = messages.reduceOption) ↔ NullsLast messages := by
  have hsplit : ∀ {polls : Nat} {more : List (Option α)},
      run step ⟨false, messages⟩ (List.replicate polls .getMsg) =
        some (⟨false, messages.dropWhile Option.isSome⟩, more) →
      messages.reduceOption = more.reduceOption ++
        (messages.dropWhile Option.isSome).reduceOption := by
    intro polls more hrun
    have hall := run_split_reduceOption hrun rfl
    rwa [received_replicate_getMsg, List.reduceOption_nil,
      List.append_nil] at hall
  rw [nullsLast_iff]
  constructor
  · rintro ⟨enough, hdrains⟩
    obtain ⟨drained, more, hrun, hall⟩ :=
      hdrains (max enough messages.length) (Nat.le_max_left _ _)
    obtain ⟨more', hrun'⟩ :=
      run_polls (Nat.le_max_right enough messages.length)
    rw [hrun'] at hrun
    cases hrun
    exact List.self_eq_append_right.mp (hall.trans (hsplit hrun'))
  · intro hnone
    refine ⟨messages.length, fun polls henough => ?_⟩
    obtain ⟨more, hrun⟩ := run_polls henough
    refine ⟨_, more, hrun, ?_⟩
    rw [hsplit hrun, hnone, List.append_nil]

/-- Whatever the order of arrivals and polls: what is polled begins what was
received, and all of it is polled in the end exactly when no message was
received behind a null result. -/
theorem pollsAll_iff (events : List (InboxEvent α)) :
    PollsAll events ↔ NullsLast (received events) := by
  obtain ⟨⟨handler, messages⟩, results, hrun⟩ := run_total {} events
  obtain ⟨hhandler, hsplit⟩ := run_split hrun rfl
  change handler = false at hhandler
  subst hhandler
  have hall := run_split_reduceOption hrun rfl
  simp only [List.nil_append, List.reduceOption_nil] at hsplit hall
  rw [hsplit, nullsLast_append_some, ← drains_iff]
  constructor
  · intro hpolls
    obtain ⟨_, enough, hdrains⟩ := hpolls _ results hrun
    refine ⟨enough, fun polls henough => ?_⟩
    obtain ⟨drained, more, hmore, hreturned⟩ := hdrains polls henough
    refine ⟨drained, more, hmore, ?_⟩
    rwa [hall, List.reduceOption_append, List.append_cancel_left_eq]
      at hreturned
  · rintro ⟨enough, hdrains⟩ final results' hrun'
    rw [hrun] at hrun'
    cases hrun'
    refine ⟨⟨messages.reduceOption, hall.symm⟩, enough,
      fun polls henough => ?_⟩
    obtain ⟨drained, more, hmore, hreturned⟩ := hdrains polls henough
    refine ⟨drained, more, hmore, ?_⟩
    rw [List.reduceOption_append, hreturned, hall]

/-- A frame of a type no enumerator has, in front of a request. -/
def unknownFrame : WireFrame where
  bytes := [0, 12, 0, 99, 0, 0, 0, 0, 0, 0, 0, 1, 0, 0, 0, 0]
  long := by decide
  whole := by decide

/-- The request is received behind the null result of the frame that could not
be decoded, and no number of polls returns it. -/
theorem not_pollsAll_unknownFrame :
    (processMessages chunked 2 2
      ⟨unknownFrame.bytes ++ rttFrame.bytes, [], false⟩).messages =
        [none, some (fssMessageRttRequest.setId 1)] ∧
      ¬ PollsAll [.recvMsg none,
        .recvMsg (some (fssMessageRttRequest.setId 1))] := by
  refine ⟨by decide, fun hpolls => ?_⟩
  obtain ⟨_, hdrains⟩ := hpolls
    ⟨false, [none, some (fssMessageRttRequest.setId 1)]⟩ [] rfl
  have hlast := (drains_iff _).mp hdrains
  exact absurd ((List.pairwise_cons.mp hlast).1 _ List.mem_cons_self rfl)
    (by decide)

end Inbox

end FlightSafety
