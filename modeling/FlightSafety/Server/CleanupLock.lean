/-
The clean-up holds the lock of the registry while it joins the receive loop of
a client that it destroys.  It must not do so while the loop is on its way to
take the lock.
-/
import FlightSafety.Server.Lifecycle

namespace FlightSafety.Server

open Octets Machine

/-- A receive loop has read the handler and is going to take the lock to
disconnect its client. -/
def Served.headsForLock (conn : Served) : Bool :=
  match conn.receiving with
  | .process msg => conn.client.leaves msg
  | .lock _ => true
  | _ => false

/-- The clean-up holds the lock and waits for a receive loop that waits for the
lock. -/
def Deadlocked (s : Lifecycle) : Prop :=
  ∃ id conn msg, s.cleanup = .join id ∧ s.lock = some .cleanup ∧
    s.connections id = some conn ∧ conn.receiving = .lock msg

/-- The client that is about to be destroyed, if there is one, does not head
for the lock. -/
def Lifecycle.dropsApart (s : Lifecycle) : Bool :=
  match s.cleanup with
  | .clearHandler id => (s.connections id).all fun conn => !conn.headsForLock
  | _ => true

/-- The clean-up only starts to destroy a client whose receive loop does not
head for the lock. -/
def DropsApart (s : Lifecycle) : LifecycleEvent → Prop
  | .cleanup => s.dropsApart = true
  | _ => True

instance (s : Lifecycle) : (e : LifecycleEvent) → Decidable (DropsApart s e)
  | .cleanup => inferInstanceAs (Decidable (_ = _))
  | .accept _ _ _ => .isTrue trivial
  | .receive _ _ => .isTrue trivial
  | .loop _ _ => .isTrue trivial
  | .listen _ => .isTrue trivial

/-- The client whose handler has been cleared. -/
def CleanupAt.cleared : CleanupAt → Option Nat
  | .disconnect id | .join id => some id
  | _ => none

/-- A client whose handler has been cleared does not head for the lock, and
will not. -/
structure Apart (s : Lifecycle) : Prop where
  consistent : Consistent s
  cleared : ∀ {id conn}, s.cleanup.cleared = some id →
    s.connections id = some conn →
      conn.handler = false ∧ conn.headsForLock = false

theorem apart_start : Apart {} where
  consistent := consistent_start
  cleared h := by cases h

theorem dropped_of_cleared {place : CleanupAt} {id : Nat}
    (h : place.cleared = some id) : place.dropped = [id] := by
  cases place with
  | disconnect other =>
      cases h
      rfl
  | join other =>
      cases h
      rfl
  | _ => cases h

theorem mem_leaving_of_cleared {s : Lifecycle} {id : Nat}
    (h : s.cleanup.cleared = some id) : id ∈ s.leaving := by
  apply List.mem_append_right
  rw [dropped_of_cleared h]
  exact List.mem_cons_self

theorem headsForLock_of_afterwards {conn : Served} {msg : Option FssMessage}
    (h : conn.receiving = .afterwards msg) : conn.headsForLock = false := by
  rw [Served.headsForLock, h, ReceiveAt.afterwards]
  cases isClosed msg <;> rfl

/-- Without a handler a loop that does not head for the lock never will. -/
theorem LoopGoes.headsForLock_eq_false {conn conn' : Served}
    (h : LoopGoes conn conn'.receiving) (hhandler : conn.handler = false)
    (happart : conn.headsForLock = false) : conn'.headsForLock = false := by
  generalize hplace : conn'.receiving = place at h
  cases h with
  | handled test handler =>
      rw [hhandler] at handler
      cases handler
  | unhandled test handler =>
      rw [Served.headsForLock, hplace]
  | pushed push => exact headsForLock_of_afterwards hplace
  | leaving process leaves =>
      simp [Served.headsForLock, process, leaves] at happart
  | processed process stays => exact headsForLock_of_afterwards hplace
  | locked lock =>
      rw [Served.headsForLock, hplace]
  | unlocked unlock => exact headsForLock_of_afterwards hplace

/-- A step that changes another connection, or none. -/
theorem Apart.congr {s next : Lifecycle} (h : Apart s)
    (hnext : Consistent next) (hcleanup : next.cleanup = s.cleanup)
    (hconnections : ∀ id ∈ s.leaving,
      next.connections id = s.connections id) : Apart next := by
  refine ⟨hnext, fun {id conn} hid hconn => ?_⟩
  rw [hcleanup] at hid
  rw [hconnections id (mem_leaving_of_cleared hid)] at hconn
  exact h.cleared hid hconn

/-- A step that changes the connection whose handler may have been cleared. -/
theorem Apart.set {s next : Lifecycle} {id : Nat} {conn conn' : Served}
    (h : Apart s) (hnext : Consistent next)
    (hcleanup : next.cleanup = s.cleanup)
    (hconnections : next.connections = (s.setConnection id conn').connections)
    (hconn : conn.handler = false → conn.headsForLock = false →
      conn'.handler = false ∧ conn'.headsForLock = false)
    (hfound : s.connections id = some conn) : Apart next := by
  refine ⟨hnext, fun {other found} hother hat => ?_⟩
  rw [hcleanup] at hother
  rw [hconnections] at hat
  by_cases heq : other = id
  · rw [heq, Lifecycle.connections_setConnection] at hat
    cases hat
    obtain ⟨hhandler, hheads⟩ := h.cleared hother (heq ▸ hfound)
    exact hconn hhandler hheads
  · rw [Lifecycle.connections_setConnection_of_ne s heq] at hat
    exact h.cleared hother hat

theorem Apart.kept {s next : Lifecycle} {e : LifecycleEvent}
    {out : List Effect} (h : Apart s) (hguard : DropsApart s e)
    (hstep : s.step e = some (next, out)) : Apart next := by
  have hnext := h.consistent.kept hstep
  cases e with
  | accept id clientNames usable =>
      obtain ⟨hfresh, conn, rfl⟩ := of_step_accept hstep
      refine h.congr hnext rfl fun other hother => ?_
      apply Lifecycle.connections_setConnection_of_ne
      rintro rfl
      exact h.consistent.known other (List.mem_append_right _ hother) hfresh
  | receive id msg =>
      obtain ⟨conn, hfound, -, rfl⟩ := of_step_receive hstep
      exact @Apart.set s _ id conn _ h hnext rfl rfl
        (fun hhandler _ => ⟨hhandler, rfl⟩) hfound
  | loop id env =>
      obtain ⟨conn, conn', hfound, htaken⟩ := of_step_loop hstep
      refine h.set hnext htaken.cleanup htaken.connections ?_ hfound
      intro hhandler hheads
      exact ⟨htaken.handler.trans hhandler,
        htaken.goes.headsForLock_eq_false hhandler hheads⟩
  | listen env =>
      have hout : ∀ {id}, s.listening.id? = some id → ∀ other ∈ s.leaving,
          other ≠ id := by
        rintro id hid other hother rfl
        exact (h.consistent.accepted other hid).2
          (List.mem_append_right _ hother)
      cases taken_of_listen hstep with
      | works place found connections usable receiving handler listening
          registry cleanup =>
          refine h.congr hnext cleanup fun other hother => ?_
          rw [connections]
          exact Lifecycle.connections_setConnection_of_ne s
            (hout place other hother) _
      | goesOn place stored connections listening registry cleanup =>
          exact h.congr hnext cleanup fun other _ => by rw [connections]
      | registers place connections listening registry cleanup =>
          exact h.congr hnext cleanup fun other _ => by rw [connections]
  | cleanup =>
      cases taken_of_cleanUp hstep with
      | @works id conn conn' place found connections receiving client registry
          listening =>
          have hheads : conn'.headsForLock = conn.headsForLock := by
            rw [Served.headsForLock, Served.headsForLock, receiving, client]
          refine ⟨hnext, fun {other found'} hother hat => ?_⟩
          rw [connections] at hat
          rcases place with ⟨before, hhandler, after⟩ |
            ⟨before, hhandler, after⟩
          · rw [after] at hother
            cases hother
            rw [Lifecycle.connections_setConnection] at hat
            cases hat
            rw [DropsApart, Lifecycle.dropsApart, before] at hguard
            refine ⟨hhandler, ?_⟩
            rw [hheads]
            simpa [found] using hguard
          · rw [after] at hother
            cases hother
            rw [Lifecycle.connections_setConnection] at hat
            cases hat
            rw [hhandler, hheads]
            exact h.cleared (by rw [before]; rfl) found
      | pops place queue connections cleanup registry listening =>
          refine ⟨hnext, fun hother _ => ?_⟩
          rw [cleanup] at hother
          cases hother
      | goesOn connections before after registry listening =>
          refine ⟨hnext, fun hother _ => ?_⟩
          rw [dropped_of_cleared hother] at after
          cases after

/-- In a run whose clean-up never starts to destroy a client that heads for
the lock, no state is deadlocked. -/
theorem not_deadlocked {events : List LifecycleEvent} {final : Lifecycle}
    {outs : List Effect}
    (hrun : run Lifecycle.step {} events = some (final, outs))
    (hguard : AllSteps Lifecycle.step DropsApart {} events) :
    ¬ Deadlocked final := by
  have h : Apart final := run_keeps Apart hrun hguard apart_start
    fun h hok hstep => h.kept hok hstep
  rintro ⟨id, conn, msg, hjoin, -, hfound, hlock⟩
  have hheads := (h.cleared (by rw [hjoin]; rfl) hfound).2
  rw [Served.headsForLock, hlock] at hheads
  cases hheads

/-- A connection is accepted and its client registered. -/
def registered (clientNames : List Bytes) (usable : Bool) :
    List LifecycleEvent :=
  .accept 0 clientNames usable :: List.replicate 4 (.listen ⟨emptyDb, 0⟩)

/-- Steps of the receive loop. -/
def loops (count : Nat) : List LifecycleEvent :=
  List.replicate count (.loop 0 ⟨emptyDb, 0⟩)

theorem not_deadlocked_closed :
    ∃ final outs,
      run Lifecycle.step {} (registered [] true ++
        .receive 0 (some fssMessageClosed) :: loops 4 ++
          List.replicate 6 .cleanup) = some (final, outs) ∧
      ¬ Deadlocked final := by
  refine ⟨_, _, rfl, ?_⟩
  apply @not_deadlocked (registered [] true ++
    .receive 0 (some fssMessageClosed) :: loops 4 ++ List.replicate 6 .cleanup)
  · rfl
  · decide

/-- An identity is refused, and the peer closes before the client is dropped:
the receive loop reads the handler before the clean-up clears it. -/
def refusedThenClosed : List LifecycleEvent :=
  registered [[65]] true ++
    .receive 0 (some (fssMessageIdentity [66])) :: loops 4 ++
    .receive 0 (some fssMessageClosed) :: loops 1 ++
    List.replicate 3 .cleanup ++ loops 1 ++ List.replicate 2 .cleanup

theorem deadlocked_refusedThenClosed :
    ∃ final outs,
      run Lifecycle.step {} refusedThenClosed = some (final, outs) ∧
      Deadlocked final :=
  ⟨_, _, rfl, 0, _, some fssMessageClosed, rfl, rfl, rfl, rfl⟩

end FlightSafety.Server
