/-
The lock of the registry of clients.  It is held by the thread that is between
taking and releasing it, and by no other.
-/
import FlightSafety.Lib.Mutex
import FlightSafety.Server.Lifecycle

namespace FlightSafety.Server

open Octets Machine

/-- Between taking and releasing the lock. -/
def ReceiveAt.holds : ReceiveAt → Bool
  | .unlock _ => true
  | _ => false

def ListenAt.holds : ListenAt → Bool
  | .unlockDisconnected _ | .unlockConnected _ => true
  | _ => false

def CleanupAt.holds : CleanupAt → Bool
  | .idle | .lock => false
  | _ => true

/-- Who holds the lock: the listen thread, a receive loop or the main
thread. -/
def holding (connections : Nat → Option Served) (listen main : Bool) :
    LockHolder → Bool
  | .listen => listen
  | .receive id => (connections id).any fun conn => conn.receiving.holds
  | .cleanup => main

theorem holding_update_self (connections : Nat → Option Served)
    (listen main : Bool) (id : Nat) (conn : Served) :
    holding (Function.update connections id (some conn)) listen main
      (.receive id) = conn.receiving.holds := by
  rw [holding, Function.update_self, Option.any_some]

theorem holding_update_of_ne (connections : Nat → Option Served)
    (listen main : Bool) {id : Nat} (conn : Served) {other : LockHolder}
    (h : other ≠ .receive id) :
    holding (Function.update connections id (some conn)) listen main other =
      holding connections listen main other := by
  cases other with
  | receive other =>
      have hother : other ≠ id := fun heq => h (heq ▸ rfl)
      rw [holding, holding, Function.update_of_ne hother]
  | _ => rfl

theorem holding_of_found {connections : Nat → Option Served} {id : Nat}
    {conn : Served} (listen main : Bool) (h : connections id = some conn) :
    holding connections listen main (.receive id) = conn.receiving.holds := by
  rw [holding, h, Option.any_some]

theorem holding_of_ne_listen (connections : Nat → Option Served)
    (listen listen' main : Bool) {other : LockHolder} (h : other ≠ .listen) :
    holding connections listen main other =
      holding connections listen' main other := by
  cases other with
  | listen => exact absurd rfl h
  | _ => rfl

theorem holding_of_ne_cleanup (connections : Nat → Option Served)
    (listen main main' : Bool) {other : LockHolder} (h : other ≠ .cleanup) :
    holding connections listen main other =
      holding connections listen main' other := by
  cases other with
  | cleanup => exact absurd rfl h
  | _ => rfl

theorem holds_afterwards (msg : Option FssMessage) :
    (ReceiveAt.afterwards msg).holds = false := by
  rw [ReceiveAt.afterwards]
  split <;> rfl

section
variable {s next : Lifecycle} {listen main : Bool} {id : Nat}
  {conn conn' : Served}

/-- A connection changes, and its receive loop neither takes nor releases the
lock. -/
theorem heldBy_setConnection
    (h : HeldBy s.lock (holding s.connections listen main))
    (hsame : conn'.receiving.holds =
      holding s.connections listen main (.receive id)) :
    HeldBy s.lock (holding (s.setConnection id conn').connections listen
      main) := by
  apply h.congr
  funext other
  by_cases hother : other = .receive id
  · subst hother
    exact (holding_update_self ..).trans hsame
  · exact holding_update_of_ne _ _ _ _ hother

/-- What a receive loop does with the lock, whoever else uses it. -/
theorem heldBy_loop {env : Env} {out : List Effect}
    (h : HeldBy s.lock (holding s.connections listen main))
    (hfound : s.connections id = some conn)
    (hloop : s.loop id conn env = some (next, out)) :
    HeldBy next.lock (holding next.connections listen main) := by
  have hnow := holding_of_found listen main hfound
  have hquiet : ∀ conn' : Served,
      conn'.receiving.holds = conn.receiving.holds →
      HeldBy s.lock
        (holding (s.setConnection id conn').connections listen main) :=
    fun conn' hsame => heldBy_setConnection h (hsame.trans hnow.symm)
  unfold Lifecycle.loop at hloop
  split at hloop
  · cases hloop
  · cases hloop
  · next msg htest =>
      split at hloop <;> cases hloop <;> exact hquiet _ (by rw [htest]; rfl)
  · next msg hpush =>
      cases hloop
      exact hquiet _ (by rw [hpush]; exact holds_afterwards msg)
  · next msg hprocess =>
      dsimp only at hloop
      split at hloop <;> cases hloop
      · exact hquiet _ (by rw [hprocess]; rfl)
      · exact hquiet _ (by rw [hprocess]; exact holds_afterwards msg)
  · next msg hlock =>
      split at hloop
      · next hfree =>
          cases hloop
          rw [hfree] at h
          apply h.take (holding_update_self ..)
          exact fun other hother => holding_update_of_ne _ _ _ _ hother
      · cases hloop
  · next msg hunlock =>
      cases hloop
      rw [hunlock] at hnow
      apply h.release hnow
      · exact (holding_update_self ..).trans (holds_afterwards msg)
      · exact fun other hother => holding_update_of_ne _ _ _ _ hother

end

/-- The lock of the registry is in order. -/
def Lifecycle.LockHeld (s : Lifecycle) : Prop :=
  HeldBy s.lock (holding s.connections s.listening.holds s.cleanup.holds)

namespace Lifecycle.LockHeld

variable {s next : Lifecycle}

theorem start : Lifecycle.LockHeld {} := by
  intro holder
  cases holder <;> simp [holding, ListenAt.holds, CleanupAt.holds]

theorem listen {env : Env} {out : List Effect} (h : s.LockHeld)
    (hstep : s.listen env = some (next, out)) : next.LockHeld := by
  unfold LockHeld at h
  unfold Lifecycle.listen at hstep
  split at hstep
  · cases hstep
  · next id hplace =>
      rw [hplace] at h
      split at hstep
      · cases hstep
      · next conn hfound =>
          cases hstep
          exact heldBy_setConnection h (holding_of_found _ _ hfound).symm
  · next id hplace =>
      rw [hplace] at h
      split at hstep
      · cases hstep
      · split at hstep <;> cases hstep <;> exact h
  · next id hplace =>
      rw [hplace] at h
      split at hstep
      · next hfound =>
          cases hstep
          exact heldBy_setConnection h (holding_of_found _ _ hfound).symm
      · cases hstep
  · next id msg hplace =>
      rw [hplace] at h
      split at hstep
      · cases hstep
      · next conn hfound =>
          dsimp only at hstep
          split at hstep <;> cases hstep <;>
            exact heldBy_setConnection h (holding_of_found _ _ hfound).symm
  · next id hplace =>
      split at hstep
      · next hfree =>
          cases hstep
          rw [hfree] at h
          exact h.take rfl fun _ hother => holding_of_ne_listen _ _ _ _ hother
      · cases hstep
  · next id hplace =>
      cases hstep
      rw [hplace] at h
      exact @HeldBy.release _ _ _ _ .listen h rfl rfl
        fun _ hother => holding_of_ne_listen _ _ _ _ hother
  · next id hplace =>
      split at hstep
      · next hfree =>
          cases hstep
          rw [hfree] at h
          exact h.take rfl fun _ hother => holding_of_ne_listen _ _ _ _ hother
      · cases hstep
  · next id hplace =>
      cases hstep
      rw [hplace] at h
      exact @HeldBy.release _ _ _ _ .listen h rfl rfl
        fun _ hother => holding_of_ne_listen _ _ _ _ hother

theorem cleanUp {out : List Effect} (h : s.LockHeld)
    (hstep : s.cleanUp = some (next, out)) : next.LockHeld := by
  unfold LockHeld at h
  unfold Lifecycle.cleanUp at hstep
  split at hstep
  · next hplace =>
      cases hstep
      rw [hplace] at h
      exact h
  · next hplace =>
      split at hstep
      · next hfree =>
          cases hstep
          rw [hfree] at h
          exact h.take rfl fun _ hother => holding_of_ne_cleanup _ _ _ _ hother
      · cases hstep
  · next hplace =>
      rw [hplace] at h
      split at hstep
      · cases hstep
        exact @HeldBy.release _ _ _ _ .cleanup h rfl rfl
          fun _ hother => holding_of_ne_cleanup _ _ _ _ hother
      · cases hstep
        exact h
  · next id hplace =>
      rw [hplace] at h
      split at hstep
      · cases hstep
      · next conn hfound =>
          cases hstep
          exact heldBy_setConnection h (holding_of_found _ _ hfound).symm
  · next id hplace =>
      rw [hplace] at h
      split at hstep
      · cases hstep
      · next conn hfound =>
          cases hstep
          exact heldBy_setConnection h (holding_of_found _ _ hfound).symm
  · next id hplace =>
      rw [hplace] at h
      split at hstep
      · cases hstep
      · split at hstep
        · cases hstep
          exact h
        · cases hstep

theorem kept {e : LifecycleEvent} {out : List Effect} (h : s.LockHeld)
    (hstep : s.step e = some (next, out)) : next.LockHeld := by
  cases e with
  | accept id clientNames usable =>
      simp only [Lifecycle.step] at hstep
      split at hstep
      · next hlistening hfresh =>
          cases hstep
          unfold LockHeld at h
          rw [hlistening] at h
          apply heldBy_setConnection h
          rw [holding, hfresh]
          cases usable <;> rfl
      · cases hstep
  | receive id msg =>
      obtain ⟨conn, hfound, hreceive, rfl⟩ := of_step_receive hstep
      apply heldBy_setConnection h
      rw [holding_of_found _ _ hfound, hreceive]
      rfl
  | loop id env =>
      simp only [Lifecycle.step] at hstep
      split at hstep
      · cases hstep
      · next conn hfound =>
          obtain ⟨_, htaken⟩ := taken_of_loop hstep
          have hnext := heldBy_loop h hfound hstep
          rwa [← htaken.listening, ← htaken.cleanup] at hnext
  | listen env => exact h.listen hstep
  | cleanup => exact h.cleanUp hstep

/-- In every state of a run the lock is held by the one thread that has taken
it and has not released it. -/
theorem of_run {events : List LifecycleEvent} {outs : List Effect}
    (hrun : run Lifecycle.step {} events = some (next, outs)) :
    next.LockHeld :=
  @run_invariant_always _ _ _ _ (fun s _ => s.LockHeld) _ _ [] _ _ hrun start
    fun h hstep => h.kept hstep

end Lifecycle.LockHeld

end FlightSafety.Server
