/-
A connection gets its handler while its receive loop is running.  The loop
tests for a handler and then delivers or queues; `setHandler` stores the
handler and then empties the queue.  Each test, store, push, pop and delivery
is one step, and the steps of the two threads interleave.
-/
import FlightSafety.Lib.Machine

namespace FlightSafety

open Machine

/-- Where the receive loop is. -/
inductive LoopAt (α : Type) where
  | recvMsg
  | test (msg : α)
  | deliver (msg : α)
  | push (msg : α)
deriving Repr, DecidableEq

/-- Where the thread that calls `setHandler` is. -/
inductive SetHandlerAt (α : Type) where
  | uncalled
  | test
  | pop
  | deliver (msg : α)
  | returned
deriving Repr, DecidableEq

/-- The messages still to be received, the two threads, the handler pointer
and the queue. -/
structure HandOver (α : Type) where
  incoming : List α
  loop : LoopAt α
  setter : SetHandlerAt α
  handler : Bool
  messages : List α
deriving Repr, DecidableEq

inductive HandOverStep where
  | receive
  | testHandler
  | deliver
  | push
  | storeHandler
  | testEmpty
  | pop
  | deliverPopped
deriving Repr, DecidableEq

namespace HandOver

variable {α : Type}

/-- A connection whose loop has not received anything yet. -/
def start (stream : List α) : HandOver α :=
  ⟨stream, .recvMsg, .uncalled, false, []⟩

/-- One step of either thread; the outputs are the deliveries. -/
def step : Step (HandOver α) HandOverStep α
  | s, .receive =>
      match s.loop, s.incoming with
      | .recvMsg, msg :: incoming =>
          some ({ s with loop := .test msg, incoming := incoming }, [])
      | _, _ => none
  | s, .testHandler =>
      match s.loop with
      | .test msg =>
          if s.handler then some ({ s with loop := .deliver msg }, [])
          else some ({ s with loop := .push msg }, [])
      | _ => none
  | s, .deliver =>
      match s.loop with
      | .deliver msg => some ({ s with loop := .recvMsg }, [msg])
      | _ => none
  | s, .push =>
      match s.loop with
      | .push msg =>
          some ({ s with
            loop := .recvMsg
            messages := s.messages ++ [msg] }, [])
      | _ => none
  | s, .storeHandler =>
      match s.setter with
      | .uncalled => some ({ s with setter := .test, handler := true }, [])
      | _ => none
  | s, .testEmpty =>
      match s.setter with
      | .test =>
          if s.messages = [] then some ({ s with setter := .returned }, [])
          else some ({ s with setter := .pop }, [])
      | _ => none
  | s, .pop =>
      match s.setter, s.messages with
      | .pop, msg :: messages =>
          some ({ s with setter := .deliver msg, messages := messages }, [])
      | _, _ => none
  | s, .deliverPopped =>
      match s.setter with
      | .deliver msg => some ({ s with setter := .test }, [msg])
      | _ => none

/-- The steps that can be taken, each with where it leads and what it
delivers. -/
inductive Taken : HandOver α → HandOverStep → HandOver α → List α → Prop where
  | receive {msg incoming setter handler messages} :
      Taken ⟨msg :: incoming, .recvMsg, setter, handler, messages⟩ .receive
        ⟨incoming, .test msg, setter, handler, messages⟩ []
  | handlerSet {msg incoming setter messages} :
      Taken ⟨incoming, .test msg, setter, true, messages⟩ .testHandler
        ⟨incoming, .deliver msg, setter, true, messages⟩ []
  | handlerUnset {msg incoming setter messages} :
      Taken ⟨incoming, .test msg, setter, false, messages⟩ .testHandler
        ⟨incoming, .push msg, setter, false, messages⟩ []
  | deliver {msg incoming setter handler messages} :
      Taken ⟨incoming, .deliver msg, setter, handler, messages⟩ .deliver
        ⟨incoming, .recvMsg, setter, handler, messages⟩ [msg]
  | push {msg incoming setter handler messages} :
      Taken ⟨incoming, .push msg, setter, handler, messages⟩ .push
        ⟨incoming, .recvMsg, setter, handler, messages ++ [msg]⟩ []
  | storeHandler {incoming loop handler messages} :
      Taken ⟨incoming, loop, .uncalled, handler, messages⟩ .storeHandler
        ⟨incoming, loop, .test, true, messages⟩ []
  | queueEmpty {incoming loop handler} :
      Taken ⟨incoming, loop, .test, handler, []⟩ .testEmpty
        ⟨incoming, loop, .returned, handler, []⟩ []
  | queueFilled {msg incoming loop handler messages} :
      Taken ⟨incoming, loop, .test, handler, msg :: messages⟩ .testEmpty
        ⟨incoming, loop, .pop, handler, msg :: messages⟩ []
  | pop {msg incoming loop handler messages} :
      Taken ⟨incoming, loop, .pop, handler, msg :: messages⟩ .pop
        ⟨incoming, loop, .deliver msg, handler, messages⟩ []
  | deliverPopped {msg incoming loop handler messages} :
      Taken ⟨incoming, loop, .deliver msg, handler, messages⟩ .deliverPopped
        ⟨incoming, loop, .test, handler, messages⟩ [msg]

theorem taken_of_step {s next : HandOver α} {e : HandOverStep} {out : List α}
    (h : step s e = some (next, out)) : Taken s e next out := by
  rcases s with ⟨incoming, loop, setter, handler, messages⟩
  cases e with
  | receive =>
      rcases loop with _ | _ | _ | _ <;> rcases incoming with _ | ⟨msg, rest⟩ <;>
        cases h
      exact .receive
  | testHandler =>
      rcases loop with _ | _ | _ | _ <;> rcases handler with _ | _ <;> cases h
      · exact .handlerUnset
      · exact .handlerSet
  | deliver =>
      rcases loop with _ | _ | _ | _ <;> cases h
      exact .deliver
  | push =>
      rcases loop with _ | _ | _ | _ <;> cases h
      exact .push
  | storeHandler =>
      rcases setter with _ | _ | _ | _ | _ <;> cases h
      exact .storeHandler
  | testEmpty =>
      rcases setter with _ | _ | _ | _ | _ <;>
        rcases messages with _ | ⟨msg, rest⟩ <;> cases h
      · exact .queueEmpty
      · exact .queueFilled
  | pop =>
      rcases setter with _ | _ | _ | _ | _ <;>
        rcases messages with _ | ⟨msg, rest⟩ <;> cases h
      exact .pop
  | deliverPopped =>
      rcases setter with _ | _ | _ | _ | _ <;> cases h
      exact .deliverPopped

/-- Both threads have nothing left to do. -/
def Idle (s : HandOver α) : Prop :=
  s.incoming = [] ∧ s.loop = .recvMsg ∧ s.setter = .returned

/-- The loop delivers nothing while an earlier message waits, and the queue is
not found empty while the loop is about to push. -/
def Ordered (s : HandOver α) : HandOverStep → Prop
  | .deliver => s.messages = [] ∧ ∀ msg, s.setter ≠ .deliver msg
  | .testEmpty => s.messages = [] → ∀ msg, s.loop ≠ .push msg
  | _ => True

/-- The message the loop has in hand. -/
def inLoop (s : HandOver α) : List α :=
  match s.loop with
  | .recvMsg => []
  | .test msg | .deliver msg | .push msg => [msg]

/-- The message that `setHandler` has popped. -/
def popped (s : HandOver α) : List α :=
  match s.setter with
  | .deliver msg => [msg]
  | _ => []

/-- What is yet to be delivered, in the order in which it should be. -/
def pending (s : HandOver α) : List α :=
  s.popped ++ s.messages ++ s.inLoop ++ s.incoming

/-- The stream is what has been delivered and what is pending, and once
`setHandler` has returned nothing is queued any more. -/
structure InOrder (stream : List α) (s : HandOver α) (delivered : List α) :
    Prop where
  split : delivered ++ s.pending = stream
  stored : s.setter ≠ .uncalled → s.handler = true
  drained : s.setter = .returned →
    s.messages = [] ∧ ∀ msg, s.loop ≠ .push msg

theorem inOrder_start (stream : List α) : InOrder stream (start stream) [] where
  split := rfl
  stored h := absurd rfl h
  drained h := by cases h

/-- An ordered step keeps the messages in order. -/
theorem InOrder.step {stream delivered out : List α} {s next : HandOver α}
    {e : HandOverStep} (h : InOrder stream s delivered) (hok : s.Ordered e)
    (hstep : HandOver.step s e = some (next, out)) :
    InOrder stream next (delivered ++ out) := by
  obtain ⟨hsplit, hstored, hdrained⟩ := h
  cases taken_of_step hstep with
  | receive =>
      refine ⟨?_, hstored, fun hreturned => ⟨(hdrained hreturned).1, by simp⟩⟩
      simpa [pending, popped, inLoop] using hsplit
  | handlerSet =>
      refine ⟨?_, hstored, fun hreturned => ⟨(hdrained hreturned).1, by simp⟩⟩
      simpa [pending, popped, inLoop] using hsplit
  | handlerUnset =>
      refine ⟨?_, hstored, fun hreturned => ?_⟩
      · simpa [pending, popped, inLoop] using hsplit
      · -- a `setHandler` that has returned has stored the handler
        have hset := hstored (by rw [hreturned]; simp)
        cases hset
  | @deliver msg incoming setter handler messages =>
      obtain ⟨hempty, hpopped⟩ := hok
      change messages = [] at hempty
      subst hempty
      refine ⟨?_, hstored, fun hreturned => ⟨rfl, by simp⟩⟩
      cases setter with
      | deliver msg' => exact absurd rfl (hpopped msg')
      | _ => simpa [pending, popped, inLoop] using hsplit
  | push =>
      refine ⟨?_, hstored, fun hreturned => ?_⟩
      · simpa [pending, popped, inLoop] using hsplit
      · exact absurd rfl ((hdrained hreturned).2 _)
  | storeHandler =>
      refine ⟨?_, fun _ => rfl, fun hreturned => by cases hreturned⟩
      simpa [pending, popped, inLoop] using hsplit
  | queueEmpty =>
      refine ⟨?_, fun _ => hstored (by simp), fun _ => ⟨rfl, hok rfl⟩⟩
      simpa [pending, popped, inLoop] using hsplit
  | queueFilled =>
      refine ⟨?_, fun _ => hstored (by simp), fun hreturned => by
        cases hreturned⟩
      simpa [pending, popped, inLoop] using hsplit
  | pop =>
      refine ⟨?_, fun _ => hstored (by simp), fun hreturned => by
        cases hreturned⟩
      simpa [pending, popped, inLoop] using hsplit
  | deliverPopped =>
      refine ⟨?_, fun _ => hstored (by simp), fun hreturned => by
        cases hreturned⟩
      simpa [pending, popped, inLoop] using hsplit

/-- A run of ordered steps that ends idle has delivered its stream. -/
theorem delivered_eq_of_ordered {stream delivered : List α}
    {events : List HandOverStep} {final : HandOver α}
    (hrun : run HandOver.step (start stream) events = some (final, delivered))
    (hidle : final.Idle)
    (hordered : AllSteps HandOver.step Ordered (start stream) events) :
    delivered = stream := by
  have hfinal : InOrder stream final ([] ++ delivered) :=
    run_invariant (InOrder stream) hrun hordered (inOrder_start stream)
      InOrder.step
  obtain ⟨hincoming, hloop, hsetter⟩ := hidle
  have hmessages := (hfinal.drained hsetter).1
  have hsplit := hfinal.split
  rw [List.nil_append, pending, popped, inLoop, hincoming, hloop, hsetter,
    hmessages] at hsplit
  simpa using hsplit

/-- Once `setHandler` has returned, a message left in the queue or about to be
pushed is not delivered any more. -/
structure Stranded (later : List α) (s : HandOver α) (delivered : List α) :
    Prop where
  returned : s.setter = .returned
  loop : s.inLoop ⊆ later ∨ ∃ msg, s.loop = .push msg
  incoming : s.incoming ⊆ later
  delivered : delivered ⊆ later

theorem Stranded.step {later delivered out : List α} {s next : HandOver α}
    {e : HandOverStep} (h : Stranded later s delivered)
    (hstep : HandOver.step s e = some (next, out)) :
    Stranded later next (delivered ++ out) := by
  obtain ⟨hreturned, hloop, hincoming, hdelivered⟩ := h
  cases taken_of_step hstep with
  | receive =>
      obtain ⟨hmsg, hrest⟩ := List.cons_subset.mp hincoming
      refine ⟨hreturned, Or.inl ?_, hrest, by simpa using hdelivered⟩
      simpa [inLoop] using hmsg
  | handlerSet =>
      have hmsg := hloop.resolve_right (by simp)
      exact ⟨hreturned, Or.inl hmsg, hincoming, by simpa using hdelivered⟩
  | handlerUnset =>
      have hmsg := hloop.resolve_right (by simp)
      exact ⟨hreturned, Or.inl hmsg, hincoming, by simpa using hdelivered⟩
  | deliver =>
      have hmsg := hloop.resolve_right (by simp)
      refine ⟨hreturned, Or.inl (List.nil_subset _), hincoming, ?_⟩
      exact List.append_subset.mpr ⟨hdelivered, hmsg⟩
  | push =>
      refine ⟨hreturned, Or.inl (List.nil_subset _), hincoming, ?_⟩
      simpa using hdelivered
  | storeHandler | queueEmpty | queueFilled | pop | deliverPopped =>
      cases hreturned

/-- The loop overtakes a waiting message only if that one is delivered out of
order. -/
theorem not_overtaken {stream early late : List α} {s : HandOver α} {msg : α}
    (horder : InOrder stream s early) (hloop : s.loop = .deliver msg)
    (hwaiting : s.popped ++ s.messages ≠ []) (hnodup : stream.Nodup) :
    early ++ msg :: late ≠ stream := by
  intro hstream
  have hsplit := horder.split
  rw [← hstream, List.append_cancel_left_eq, pending, inLoop, hloop] at hsplit
  cases hqueue : s.popped ++ s.messages with
  | nil => exact hwaiting hqueue
  | cons first rest =>
      rw [hqueue] at hsplit
      obtain ⟨rfl, hrest⟩ := List.cons.inj hsplit
      rw [← hstream, ← hrest] at hnodup
      have hlate := (List.nodup_append.mp hnodup).2.1
      exact (List.nodup_cons.mp hlate).1 (by simp)

/-- A message that is about to be pushed when the queue is found empty is
lost. -/
theorem not_stranded {stream early late : List α} {s final : HandOver α}
    {msg : α} {events : List HandOverStep} (horder : InOrder stream s early)
    (hsetter : s.setter = .test) (hempty : s.messages = [])
    (hloop : s.loop = .push msg)
    (hrun : run HandOver.step { s with setter := .returned } events =
      some (final, late)) (hnodup : stream.Nodup) :
    early ++ late ≠ stream := by
  intro hstream
  have hsplit := horder.split
  rw [← hstream, List.append_cancel_left_eq, pending, popped, inLoop, hsetter,
    hempty, hloop] at hsplit
  have hstranded : Stranded s.incoming final ([] ++ late) :=
    run_invariant_always (Stranded s.incoming) hrun
      ⟨rfl, Or.inr ⟨msg, hloop⟩, fun _ h => h, List.nil_subset _⟩
      Stranded.step
  have hlate : msg ∈ late := by
    rw [← hsplit]
    simp
  have hincoming := hstranded.delivered hlate
  rw [← hstream, ← hsplit] at hnodup
  have hpending := (List.nodup_append.mp hnodup).2.1
  exact (List.nodup_cons.mp hpending).1 hincoming

/-- A run that delivers a stream of distinct messages takes ordered steps
only. -/
theorem ordered_of_delivered {stream delivered : List α} (hnodup : stream.Nodup)
    {events : List HandOverStep} {final : HandOver α}
    (hrun : run HandOver.step (start stream) events = some (final, delivered))
    (hdelivered : delivered = stream) :
    AllSteps HandOver.step Ordered (start stream) events := by
  by_contra hunordered
  obtain ⟨before, e, after, middle, early, next, out, later, rfl, rfl, hbefore,
    hsteps, hbad, hstep, hlater⟩ := exists_first_unguarded hrun hunordered
  have horder : InOrder stream middle ([] ++ early) :=
    run_invariant (InOrder stream) hbefore hsteps (inOrder_start stream)
      InOrder.step
  cases taken_of_step hstep with
  | @deliver msg incoming setter handler messages =>
      refine not_overtaken horder rfl ?_ hnodup hdelivered
      intro hnone
      obtain ⟨hpopped, hmessages⟩ := List.append_eq_nil_iff.mp hnone
      refine hbad ⟨hmessages, fun msg' hsetter => ?_⟩
      rw [popped, hsetter] at hpopped
      cases hpopped
  | queueEmpty =>
      simp only [Ordered, not_forall, not_not] at hbad
      obtain ⟨_, msg, hloop⟩ := hbad
      exact not_stranded horder rfl rfl hloop hlater hnodup hdelivered
  | queueFilled => exact hbad fun hempty => by cases hempty
  | _ => exact hbad trivial

/-- Every run of the two threads that ends idle: if each step is ordered, what
was received has been delivered once and in order, and for distinct messages
there is no other way. -/
theorem delivered_eq_iff_ordered {stream delivered : List α}
    {events : List HandOverStep} {final : HandOver α}
    (hrun : run step (start stream) events = some (final, delivered))
    (hidle : final.Idle) :
    (AllSteps step Ordered (start stream) events → delivered = stream) ∧
      (stream.Nodup → delivered = stream →
        AllSteps step Ordered (start stream) events) :=
  ⟨delivered_eq_of_ordered hrun hidle, fun hnodup hdelivered =>
    ordered_of_delivered hnodup hrun hdelivered⟩

/-- Two messages, one queued before the handler is set and one delivered by
the loop after it. -/
theorem delivered_eq_iff_ordered_two :
    let events : List HandOverStep :=
      [.receive, .testHandler, .push, .storeHandler, .testEmpty, .pop,
        .deliverPopped, .testEmpty, .receive, .testHandler, .deliver]
    (AllSteps step Ordered (start [1, 2]) events → [1, 2] = [1, 2]) ∧
      ([1, 2].Nodup → [1, 2] = [1, 2] →
        AllSteps step Ordered (start [1, 2]) events) :=
  delivered_eq_iff_ordered
    (by rfl : run step (start [1, 2]) _ =
      some (⟨[], .recvMsg, .returned, true, []⟩, [1, 2]))
    ⟨rfl, rfl, rfl⟩

/-- The handler is set between the loop's test and its push. -/
theorem lost_message :
    ¬ ∀ (events : List HandOverStep) (final : HandOver Nat)
      (delivered : List Nat),
      run step (start [1]) events = some (final, delivered) → final.Idle →
        delivered = [1] := by
  intro h
  have hlost := h
    [.receive, .testHandler, .storeHandler, .testEmpty, .push]
    ⟨[], .recvMsg, .returned, true, [1]⟩ [] rfl ⟨rfl, rfl, rfl⟩
  cases hlost

end HandOver

end FlightSafety
