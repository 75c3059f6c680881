/-
The server comes to its end.  From any state in which no receive loop is
trapped there are steps that take the destructor of the registry through the
list of clients and through the queue.
-/
import FlightSafety.Server.CleanupLock
import FlightSafety.Server.Shutdown

namespace FlightSafety.Server

open Octets Machine

namespace Shutdown

variable {s next : Shutdown} {id : Nat} {conn conn' : Served}

theorem Orderly.of_reach (h : s.Orderly) (hreach : CanReach step s next) :
    next.Orderly :=
  hreach.keeps Orderly h fun h hstep => h.kept hstep

/-- A connection changes. -/
def set (s : Shutdown) (id : Nat) (conn : Served) : Shutdown :=
  { s with server := s.server.setConnection id conn }

theorem set_set (s : Shutdown) (id : Nat) (conn conn' : Served) :
    (s.set id conn).set id conn' = s.set id conn' := by
  simp [set, Lifecycle.setConnection, Function.update_idem]

theorem set_self (hfound : s.server.connections id = some conn) :
    s.set id conn = s := by
  simp [set, Lifecycle.setConnection, ← hfound, Function.update_eq_self]

theorem connections_set (s : Shutdown) (id : Nat) (conn : Served) :
    (s.set id conn).server.connections id = some conn :=
  Lifecycle.connections_setConnection _ _ _

/-- The receive loop of a connection can get somewhere. -/
def LoopReaches (s : Shutdown) (id : Nat) (place : ReceiveAt) : Prop :=
  ∃ conn, conn.receiving = place ∧ CanReach step s (s.set id conn)

theorem LoopReaches.trans {place place' : ReceiveAt}
    (h : LoopReaches s id place)
    (h' : ∀ conn, conn.receiving = place →
      LoopReaches (s.set id conn) id place') :
    LoopReaches s id place' := by
  obtain ⟨conn, hplace, hreach⟩ := h
  obtain ⟨conn', hplace', hreach'⟩ := h' conn hplace
  rw [set_set] at hreach'
  exact ⟨conn', hplace', hreach.trans hreach'⟩

theorem LoopReaches.one {e : ShutdownEvent} {out : List Effect}
    (hstep : s.step e = some (s.set id conn, out)) :
    LoopReaches s id conn.receiving :=
  ⟨conn, rfl, .first e hstep (.refl _)⟩

/-- While the server is shutting down, a message that is processed does not
lead to the lock. -/
theorem loopReaches_of_process {msg : Option FssMessage}
    (hflag : s.shuttingDown = true)
    (hfound : s.server.connections id = some conn)
    (hprocess : conn.receiving = .process msg) :
    LoopReaches s id (.afterwards msg) := by
  let env : Env := ⟨emptyDb, 0⟩
  let processed : Served := { conn with
    client := (conn.client.processMessage env msg).1
    receiving := .afterwards msg }
  have hstep : s.step (.loop id env) =
      some (s.set id processed, (conn.client.processMessage env msg).2) := by
    by_cases hmem :
        .clientDisconnected ∈ (conn.client.processMessage env msg).2
    · simp only [step, hfound, loop, hprocess]
      exact if_pos ⟨hflag, hmem⟩
    · simp only [step, hfound, loop, hprocess, hmem, and_false, ↓reduceIte,
        Lifecycle.loop, Option.map_some]
      rfl
  exact LoopReaches.one hstep

theorem loopReaches_of_push {msg : Option FssMessage}
    (hfound : s.server.connections id = some conn)
    (hpush : conn.receiving = .push msg) :
    LoopReaches s id (.afterwards msg) := by
  let pushed : Served := { conn with
    messages := conn.messages ++ [msg]
    receiving := .afterwards msg }
  have hstep : s.step (.loop id ⟨emptyDb, 0⟩) =
      some (s.set id pushed, []) := by
    simp only [step, hfound, loop, hpush, Lifecycle.loop, Option.map_some]
    rfl
  exact LoopReaches.one hstep

theorem loopReaches_of_test {msg : Option FssMessage}
    (hflag : s.shuttingDown = true)
    (hfound : s.server.connections id = some conn)
    (htest : conn.receiving = .test msg) :
    LoopReaches s id (.afterwards msg) := by
  cases hhandler : conn.handler with
  | true =>
      have hstep : s.step (.loop id ⟨emptyDb, 0⟩) =
          some (s.set id { conn with receiving := .process msg }, []) := by
        simp only [step, hfound, loop, htest, Lifecycle.loop]
        rw [if_pos hhandler]
        rfl
      exact (LoopReaches.one hstep).trans fun conn' hprocess =>
        loopReaches_of_process hflag (connections_set s id conn') hprocess
  | false =>
      have hstep : s.step (.loop id ⟨emptyDb, 0⟩) =
          some (s.set id { conn with receiving := .push msg }, []) := by
        simp only [step, hfound, loop, htest, Lifecycle.loop]
        rw [if_neg (by simp [hhandler])]
        rfl
      exact (LoopReaches.one hstep).trans fun conn' hpush =>
        loopReaches_of_push (connections_set s id conn') hpush

/-- A receive loop ends with a closed message, which it can always receive. -/
theorem loopReaches_of_receive (hflag : s.shuttingDown = true)
    (hfound : s.server.connections id = some conn)
    (hreceive : conn.receiving = .receive) : LoopReaches s id .ended := by
  have hstep : s.step (.receive id (some fssMessageClosed)) =
      some (s.set id { conn with
        receiving := .test (some fssMessageClosed) }, []) := by
    simp only [step, hfound]
    exact if_pos ⟨hreceive, .inr (.inr rfl)⟩
  exact (LoopReaches.one hstep).trans fun conn' htest =>
    @loopReaches_of_test (s.set id conn') id conn' (some fssMessageClosed) hflag
      (connections_set s id conn') htest

theorem loopReaches_of_afterwards {msg : Option FssMessage}
    (hflag : s.shuttingDown = true)
    (hfound : s.server.connections id = some conn)
    (hafterwards : conn.receiving = .afterwards msg) :
    LoopReaches s id .ended := by
  rw [ReceiveAt.afterwards] at hafterwards
  split at hafterwards
  · refine ⟨conn, hafterwards, ?_⟩
    rw [set_self hfound]
    exact .refl s
  · exact loopReaches_of_receive hflag hfound hafterwards

/-- Once the flag is set, a receive loop that has nothing to do with the lock
can end. -/
theorem loopReaches_ended (hflag : s.shuttingDown = true)
    (hfound : s.server.connections id = some conn)
    (hlock : ∀ msg, conn.receiving ≠ .lock msg)
    (hunlock : conn.receiving.holds = false) : LoopReaches s id .ended := by
  have hrest : ∀ {msg}, LoopReaches s id (.afterwards msg) →
      LoopReaches s id .ended := fun h => h.trans fun conn' hafterwards =>
    loopReaches_of_afterwards hflag (connections_set s id conn') hafterwards
  cases hplace : conn.receiving with
  | receive => exact loopReaches_of_receive hflag hfound hplace
  | test msg => exact hrest (loopReaches_of_test hflag hfound hplace)
  | push msg => exact hrest (loopReaches_of_push hfound hplace)
  | process msg => exact hrest (loopReaches_of_process hflag hfound hplace)
  | lock msg => exact absurd hplace (hlock msg)
  | unlock msg =>
      rw [hplace] at hunlock
      cases hunlock
  | ended =>
      refine ⟨conn, hplace, ?_⟩
      rw [set_self hfound]
      exact .refl s

/-- A receive loop gives the lock back. -/
def unlocked (s : Shutdown) (id : Nat) (conn : Served)
    (msg : Option FssMessage) : Shutdown :=
  { s with server := { s.server.receiveAt id conn (.afterwards msg) with
      registry := s.server.registry.clientDisconnected id
      lock := none } }

theorem canReach_unlocked {msg : Option FssMessage}
    (hfound : s.server.connections id = some conn)
    (hunlock : conn.receiving = .unlock msg) :
    CanReach step s (s.unlocked id conn msg) := by
  have hstep : s.step (.loop id ⟨emptyDb, 0⟩) =
      some (s.unlocked id conn msg, []) := by
    simp only [step, hfound, loop, hunlock, Lifecycle.loop, Option.map_some]
    rfl
  exact .first _ hstep (.refl _)

/-- When the lock is free, a receive loop that waits for it can take it and
give it back. -/
theorem canReach_unlocked_of_lock {msg : Option FssMessage}
    (hfree : s.server.lock = none)
    (hfound : s.server.connections id = some conn)
    (hlock : conn.receiving = .lock msg) :
    ∃ conn', CanReach step s (s.unlocked id conn' msg) := by
  let locked : Shutdown :=
    { s with server :=
      { s.server.receiveAt id conn (.unlock msg) with
        lock := some (.receive id) } }
  have hstep : s.step (.loop id ⟨emptyDb, 0⟩) = some (locked, []) := by
    simp only [step, hfound, loop, hlock, Lifecycle.loop, hfree, ↓reduceIte,
      Option.map_some]
    rfl
  have hlocked : locked.server.connections id =
      some { conn with receiving := .unlock msg } :=
    Lifecycle.connections_setConnection _ _ _
  have hreach := canReach_unlocked hlocked rfl
  refine ⟨{ conn with receiving := .unlock msg }, .first _ hstep ?_⟩
  convert hreach using 1
  simp [unlocked, locked, Lifecycle.receiveAt, Lifecycle.setConnection]

/-- Whoever holds the lock gives it back, unless it is the destructor. -/
structure Freed (s next : Shutdown) : Prop where
  reach : CanReach step s next
  free : next.server.lock = none
  place : next.place = s.place
  others : ∀ id conn, s.server.connections id = some conn →
    conn.receiving.holds = false → next.server.connections id = some conn
  registry : next.server.registry = s.server.registry ∨
    ∃ id conn, s.server.connections id = some conn ∧
      conn.receiving.holds = true ∧
        next.server.registry = s.server.registry.clientDisconnected id

theorem Orderly.canFree (h : s.Orderly) (hplace : s.place.holds = false) :
    ∃ next, Freed s next := by
  cases hlock : s.server.lock with
  | none => exact ⟨s, .refl s, hlock, rfl, fun _ _ hfound _ => hfound, .inl rfl⟩
  | some holder =>
      have hholds := (h.held holder).mp hlock
      cases holder with
      | listen => cases hholds
      | cleanup =>
          rw [holding, hplace] at hholds
          cases hholds
      | receive id =>
          rw [holding, Option.any_eq_true] at hholds
          obtain ⟨conn, hfound, hholds⟩ := hholds
          cases hunlock : conn.receiving with
          | unlock msg =>
              refine ⟨_, canReach_unlocked hfound hunlock, rfl, rfl, ?_,
                .inr ⟨id, conn, hfound, hholds, rfl⟩⟩
              intro other found hother hquiet
              have hne : other ≠ id := by
                rintro rfl
                rw [hfound] at hother
                cases hother
                rw [hholds] at hquiet
                cases hquiet
              exact (Lifecycle.connections_setConnection_of_ne _ hne _).trans
                hother
          | _ =>
              rw [hunlock] at hholds
              cases hholds

/-- The loops of listed clients that wait for the lock get it one by one. -/
theorem canReach_lock (ids : List Nat) (hplace : s.place = .lock)
    (hfree : s.server.lock = none)
    (hwait : ∀ id ∈ s.server.registry.clients, ∀ conn msg,
      s.server.connections id = some conn → conn.receiving = .lock msg →
        id ∈ ids) :
    ∃ next, CanReach step s next ∧ next.place = .lock ∧ next.server.lock = none ∧
      ∀ id ∈ next.server.registry.clients, ∀ conn msg,
        next.server.connections id = some conn →
          conn.receiving ≠ .lock msg := by
  induction ids generalizing s with
  | nil =>
      refine ⟨s, .refl s, hplace, hfree, fun id hid conn msg hfound hlock => ?_⟩
      exact absurd (hwait id hid conn msg hfound hlock) List.not_mem_nil
  | cons id ids ih =>
      by_cases hwaits : ∃ conn msg, s.server.connections id = some conn ∧
          conn.receiving = .lock msg
      · obtain ⟨conn, msg, hfound, hlock⟩ := hwaits
        obtain ⟨conn', hreach⟩ := canReach_unlocked_of_lock hfree hfound hlock
        have hrest : ∀ other ∈ (s.unlocked id conn' msg).server.registry.clients,
            ∀ found msg', (s.unlocked id conn' msg).server.connections other =
              some found → found.receiving = .lock msg' → other ∈ ids := by
          intro other hother found msg' hat hlock'
          by_cases hsame : other = id
          · subst hsame
            cases (Lifecycle.connections_setConnection _ _ _).symm.trans hat
            exact absurd hlock' (afterwards_ne_lock msg msg')
          · have hbefore :=
              (Lifecycle.connections_setConnection_of_ne _ hsame _).symm.trans hat
            have hclient := clients_clientDisconnected_subset _ _ hother
            exact (List.mem_cons.mp
              (hwait other hclient found msg' hbefore hlock')).resolve_left hsame
        obtain ⟨next, hnext, hgoal⟩ :=
          @ih (s.unlocked id conn' msg) hplace rfl hrest
        exact ⟨next, hreach.trans hnext, hgoal⟩
      · refine ih hplace hfree fun other hother conn msg hfound hlock => ?_
        rcases List.mem_cons.mp (hwait other hother conn msg hfound hlock)
          with rfl | hmem
        · exact absurd ⟨conn, msg, hfound, hlock⟩ hwaits
        · exact hmem

theorem canReach_test_of_lock (h : s.Orderly) (hplace : s.place = .lock) :
    ∃ next rest, CanReach step s next ∧ next.place = .test rest ∧
      ¬ next.Trapped := by
  obtain ⟨freed, hfreed⟩ := h.canFree (by rw [hplace]; rfl)
  obtain ⟨last, hlast, hat, hfree, hquiet⟩ :=
    canReach_lock freed.server.registry.clients (hfreed.place.trans hplace)
      hfreed.free fun id hid _ _ _ _ => hid
  obtain ⟨server, shuttingDown, place⟩ := last
  dsimp only at hat hfree hquiet
  subst hat
  have hstep : step ⟨server, shuttingDown, .lock⟩ .destroy =
      some (⟨{ server with lock := some .cleanup }, shuttingDown,
        .test server.registry.clients⟩, []) := if_pos hfree
  refine ⟨_, _, (hfreed.reach.trans hlast).trans (.first _ hstep (.refl _)), rfl,
    ?_⟩
  rintro ⟨id, hid, conn, msg, hfound, hlock⟩
  exact hquiet id hid conn msg hfound hlock

theorem canReach_test_of_join {rest : List Nat} (h : s.Orderly)
    (hplace : s.place = .join id rest) (hfreely : ¬ s.Trapped) :
    ∃ next, CanReach step s next ∧ next.place = .test rest ∧ ¬ next.Trapped := by
  have hahead : id ∈ s.place.ahead := by
    rw [hplace]
    exact List.mem_cons_self
  obtain ⟨conn, hfound⟩ := Option.ne_none_iff_exists'.mp
    (h.known id (.inl (h.listed id hahead)))
  have hlock : ∀ msg, conn.receiving ≠ .lock msg := fun msg hlock =>
    hfreely ⟨id, hahead, conn, msg, hfound, hlock⟩
  have hunlock : conn.receiving.holds = false := by
    by_contra hholds
    have hloop := (h.held (.receive id)).mpr
      ((holding_of_found _ _ hfound).trans (by simpa using hholds))
    rw [(h.held .cleanup).mpr (ShutdownAt.holds_of_mem_ahead hahead)] at hloop
    cases hloop
  obtain ⟨conn', hended, hreach⟩ := loopReaches_ended
    (h.flagged (by simp [hplace])) hfound hlock hunlock
  have hstep : (s.set id conn').step .destroy =
      some ({ s.set id conn' with place := .test rest }, []) := by
    simp only [step, destroy, set, hplace, Lifecycle.connections_setConnection]
    exact if_pos hended
  refine ⟨_, hreach.trans (.first _ hstep (.refl _)), rfl, ?_⟩
  rintro ⟨other, hother, found, msg, hat, hwaits⟩
  by_cases hsame : other = id
  · subst hsame
    cases (connections_set s other conn').symm.trans hat
    rw [hended] at hwaits
    cases hwaits
  · have hbefore :=
      (Lifecycle.connections_setConnection_of_ne _ hsame _).symm.trans hat
    refine hfreely ⟨other, ?_, found, msg, hbefore, hwaits⟩
    rw [hplace]
    exact List.mem_cons_of_mem _ hother

theorem canReach_join_of_disconnect {rest : List Nat} (h : s.Orderly)
    (hplace : s.place = .disconnect id rest) (hfreely : ¬ s.Trapped) :
    ∃ next, CanReach step s next ∧ next.place = .join id rest ∧ ¬ next.Trapped := by
  have hahead : id ∈ s.place.ahead := by
    rw [hplace]
    exact List.mem_cons_self
  obtain ⟨conn, hfound⟩ := Option.ne_none_iff_exists'.mp
    (h.known id (.inl (h.listed id hahead)))
  have hstep : s.step .destroy =
      some ({ s.set id { conn with usable := false } with
        place := .join id rest }, []) := by
    simp only [step, destroy, hplace, hfound]
    rfl
  refine ⟨_, .first _ hstep (.refl _), rfl, ?_⟩
  rintro ⟨other, hother, found, msg, hat, hwaits⟩
  by_cases hsame : other = id
  · subst hsame
    cases (connections_set s other _).symm.trans hat
    exact hfreely ⟨other, hahead, conn, msg, hfound, hwaits⟩
  · have hbefore :=
      (Lifecycle.connections_setConnection_of_ne _ hsame _).symm.trans hat
    refine hfreely ⟨other, ?_, found, msg, hbefore, hwaits⟩
    rw [hplace]
    exact hother

/-- The destructor gets through the list when no loop on it is trapped. -/
theorem canReach_drop_of_test (rest : List Nat) (h : s.Orderly)
    (hplace : s.place = .test rest) (hfreely : ¬ s.Trapped) :
    ∃ next, CanReach step s next ∧ next.place = .drop := by
  induction rest generalizing s with
  | nil =>
      have hstep : s.step .destroy = some ({ s with
          server := { s.server with lock := none }
          place := .drop }, []) := by
        simp only [step, destroy, hplace]
      exact ⟨_, .first _ hstep (.refl _), rfl⟩
  | cons id rest ih =>
      have hstep : s.step .destroy =
          some ({ s with place := .disconnect id rest }, []) := by
        simp only [step, destroy, hplace]
      have hsame : ¬ Trapped { s with place := .disconnect id rest } := by
        rintro ⟨other, hother, hwaits⟩
        refine hfreely ⟨other, ?_, hwaits⟩
        rw [hplace]
        exact hother
      obtain ⟨joining, hjoining, hat, hfree⟩ :=
        canReach_join_of_disconnect (h.kept hstep) rfl hsame
      have horderly := (h.kept hstep).of_reach hjoining
      obtain ⟨testing, htesting, hat', hfree'⟩ :=
        canReach_test_of_join horderly hat hfree
      obtain ⟨last, hlast, hdrop⟩ :=
        ih (horderly.of_reach htesting) hat' hfree'
      exact ⟨last, (CanReach.first _ hstep hjoining).trans
        (htesting.trans hlast), hdrop⟩

/-! The queue is destroyed when the lock is free again. -/

/-- A receive loop that has not ended is not that of a listed client. -/
theorem Orderly.clientDisconnected_eq (h : s.Orderly)
    (hbegun : s.place.begun = true) (hahead : s.place.ahead = [])
    (hfound : s.server.connections id = some conn)
    (hmoves : conn.receiving ≠ .ended) :
    s.server.registry.clientDisconnected id = s.server.registry := by
  apply ServerClients.clientDisconnected_of_not_mem
  intro hid
  rcases h.joined hbegun id hid with hin | hended
  · rw [hahead] at hin
    cases hin
  · rw [hfound, Option.all_some, decide_eq_true_iff] at hended
    exact hmoves hended

/-- While the queue is destroyed, the receive loop of any connection can
end, and no client joins the queue. -/
theorem canReach_ended (h : s.Orderly) (hbegun : s.place.begun = true)
    (hholds : s.place.holds = false) (hahead : s.place.ahead = [])
    (hfound : s.server.connections id = some conn) :
    ∃ next conn', CanReach step s next ∧ next.place = s.place ∧
      next.server.registry = s.server.registry ∧
      next.server.connections id = some conn' ∧ conn'.receiving = .ended := by
  have hflag : s.shuttingDown = true := by
    apply h.flagged
    intro heq
    rw [heq] at hbegun
    cases hbegun
  cases hplace : conn.receiving with
  | unlock msg =>
      have hsame := h.clientDisconnected_eq hbegun hahead hfound (by simp [hplace])
      obtain ⟨conn', hended, hreach⟩ :=
        @loopReaches_of_afterwards (s.unlocked id conn msg) id _ msg hflag
          (Lifecycle.connections_setConnection _ _ _) rfl
      exact ⟨_, conn', (canReach_unlocked hfound hplace).trans hreach, rfl, hsame,
        connections_set _ _ _, hended⟩
  | lock msg =>
      obtain ⟨freed, hfreed⟩ := h.canFree hholds
      have hsame : freed.server.registry = s.server.registry := by
        rcases hfreed.registry with hsame | ⟨other, found, hat, hheld, hchanged⟩
        · exact hsame
        · rw [hchanged]
          refine h.clientDisconnected_eq hbegun hahead hat fun hended => ?_
          rw [hended] at hheld
          cases hheld
      have hat := hfreed.others id conn hfound (by rw [hplace]; rfl)
      have horderly := h.of_reach hfreed.reach
      obtain ⟨taken, hunlocked⟩ :=
        canReach_unlocked_of_lock hfreed.free hat hplace
      have hsame' := horderly.clientDisconnected_eq
        (by rw [hfreed.place]; exact hbegun)
        (by rw [hfreed.place]; exact hahead) hat (by simp [hplace])
      have hflag' : freed.shuttingDown = true := by
        apply horderly.flagged
        intro heq
        rw [← hfreed.place, heq] at hbegun
        cases hbegun
      obtain ⟨conn', hended, hreach⟩ :=
        @loopReaches_of_afterwards (freed.unlocked id taken msg) id _ msg hflag'
          (Lifecycle.connections_setConnection _ _ _) rfl
      exact ⟨_, conn', (hfreed.reach.trans hunlocked).trans hreach, hfreed.place,
        hsame'.trans hsame, connections_set _ _ _, hended⟩
  | _ =>
      obtain ⟨conn', hended, hreach⟩ := loopReaches_ended hflag hfound
        (by simp [hplace]) (by rw [hplace]; rfl)
      exact ⟨_, conn', hreach, rfl, rfl, connections_set _ _ _, hended⟩

theorem canReach_drop_of_dropJoin (h : s.Orderly)
    (hplace : s.place = .dropJoin id) :
    ∃ next, CanReach step s next ∧ next.place = .drop ∧
      next.server.registry = s.server.registry := by
  have hknown : s.server.connections id ≠ none := by
    apply h.known
    rw [hplace]
    exact .inr (.inr List.mem_cons_self)
  obtain ⟨conn, hfound⟩ := Option.ne_none_iff_exists'.mp hknown
  obtain ⟨ended, conn', hreach, hat, hsame, hfound', hended⟩ :=
    canReach_ended h (by rw [hplace]; rfl) (by rw [hplace]; rfl)
      (by rw [hplace]; rfl) hfound
  have hstep : ended.step .destroy =
      some ({ ended with place := .drop }, []) := by
    simp only [step, destroy, hat, hplace, hfound']
    exact if_pos hended
  exact ⟨_, hreach.trans (.first _ hstep (.refl _)), rfl, hsame⟩

theorem canReach_drop_of_dropDisconnect (h : s.Orderly)
    (hplace : s.place = .dropDisconnect id) :
    ∃ next, CanReach step s next ∧ next.place = .drop ∧
      next.server.registry = s.server.registry := by
  have hknown : s.server.connections id ≠ none := by
    apply h.known
    rw [hplace]
    exact .inr (.inr List.mem_cons_self)
  obtain ⟨conn, hfound⟩ := Option.ne_none_iff_exists'.mp hknown
  have hstep : s.step .destroy =
      some ({ s.set id { conn with usable := false } with
        place := .dropJoin id }, []) := by
    simp only [step, destroy, hplace, hfound]
    rfl
  obtain ⟨next, hnext, hdrop, hsame⟩ :=
    canReach_drop_of_dropJoin (h.kept hstep) rfl
  exact ⟨next, .first _ hstep hnext, hdrop, hsame⟩

theorem canReach_drop_of_clearHandler (h : s.Orderly)
    (hplace : s.place = .clearHandler id) :
    ∃ next, CanReach step s next ∧ next.place = .drop ∧
      next.server.registry = s.server.registry := by
  have hknown : s.server.connections id ≠ none := by
    apply h.known
    rw [hplace]
    exact .inr (.inr List.mem_cons_self)
  obtain ⟨conn, hfound⟩ := Option.ne_none_iff_exists'.mp hknown
  have hstep : s.step .destroy =
      some ({ s.set id { conn with handler := false } with
        place := .dropDisconnect id }, []) := by
    simp only [step, destroy, hplace, hfound]
    rfl
  obtain ⟨next, hnext, hdrop, hsame⟩ :=
    canReach_drop_of_dropDisconnect (h.kept hstep) rfl
  exact ⟨next, .first _ hstep hnext, hdrop, hsame⟩

/-- Every client of the queue is destroyed. -/
theorem canReach_finished_of_drop (queue : List Nat) (h : s.Orderly)
    (hplace : s.place = .drop) (hqueue : s.server.registry.disconnected = queue) :
    ∃ next, CanReach step s next ∧ next.place = .finished := by
  induction queue generalizing s with
  | nil =>
      have hstep : s.step .destroy = some ({ s with place := .finished }, []) := by
        simp only [step, destroy, hplace, hqueue]
      exact ⟨_, .first _ hstep (.refl _), rfl⟩
  | cons id queue ih =>
      let registry := { s.server.registry with disconnected := queue }
      let popped : Shutdown := { s with
        server := { s.server with registry := registry }
        place := .clearHandler id }
      have hstep : s.step .destroy = some (popped, []) := by
        simp only [step, destroy, hplace, hqueue]
        rfl
      have hpopped : popped.Orderly := h.kept hstep
      obtain ⟨dropping, hdropping, hat, hsame⟩ :=
        canReach_drop_of_clearHandler hpopped rfl
      obtain ⟨last, hlast, hfinished⟩ := ih (hpopped.of_reach hdropping) hat
        (by rw [hsame])
      exact ⟨last, .first _ hstep (hdropping.trans hlast), hfinished⟩

/-- When no loop is trapped, the destructor can come to its end. -/
theorem canReach_finished (h : s.Orderly) (hfreely : ¬ s.Trapped) :
    ∃ next, CanReach step s next ∧ next.place = .finished := by
  have hfromDrop : ∀ {s : Shutdown}, s.Orderly → s.place = .drop →
      ∃ next, CanReach step s next ∧ next.place = .finished :=
    fun h hplace => canReach_finished_of_drop _ h hplace rfl
  have hfromTest : ∀ {s : Shutdown} {rest}, s.Orderly → s.place = .test rest →
      ¬ s.Trapped → ∃ next, CanReach step s next ∧ next.place = .finished := by
    intro s rest h hplace hfreely
    obtain ⟨middle, hreach, hat⟩ := canReach_drop_of_test rest h hplace hfreely
    obtain ⟨last, hlast, hfinished⟩ := hfromDrop (h.of_reach hreach) hat
    exact ⟨last, hreach.trans hlast, hfinished⟩
  have hfromLock : ∀ {s : Shutdown}, s.Orderly → s.place = .lock →
      ∃ next, CanReach step s next ∧ next.place = .finished := by
    intro s h hplace
    obtain ⟨middle, rest, hreach, hat, hfree⟩ := canReach_test_of_lock h hplace
    obtain ⟨last, hlast, hfinished⟩ := hfromTest (h.of_reach hreach) hat hfree
    exact ⟨last, hreach.trans hlast, hfinished⟩
  cases hplace : s.place with
  | setFlag =>
      have hstep : s.step .destroy = some ({ s with
          shuttingDown := true
          place := .lock }, []) := by
        simp only [step, destroy, hplace]
      obtain ⟨last, hlast, hfinished⟩ := hfromLock (h.kept hstep) rfl
      exact ⟨last, .first _ hstep hlast, hfinished⟩
  | lock => exact hfromLock h hplace
  | test rest => exact hfromTest h hplace hfreely
  | disconnect id rest =>
      obtain ⟨joining, hjoining, hat, hfree⟩ :=
        canReach_join_of_disconnect h hplace hfreely
      have hjoin := h.of_reach hjoining
      obtain ⟨middle, hreach, hat', hfree'⟩ :=
        canReach_test_of_join hjoin hat hfree
      obtain ⟨last, hlast, hfinished⟩ :=
        hfromTest (hjoin.of_reach hreach) hat' hfree'
      exact ⟨last, hjoining.trans (hreach.trans hlast), hfinished⟩
  | join id rest =>
      obtain ⟨middle, hreach, hat, hfree⟩ :=
        canReach_test_of_join h hplace hfreely
      obtain ⟨last, hlast, hfinished⟩ := hfromTest (h.of_reach hreach) hat hfree
      exact ⟨last, hreach.trans hlast, hfinished⟩
  | drop => exact hfromDrop h hplace
  | clearHandler id =>
      obtain ⟨middle, hreach, hat, -⟩ := canReach_drop_of_clearHandler h hplace
      obtain ⟨last, hlast, hfinished⟩ := hfromDrop (h.of_reach hreach) hat
      exact ⟨last, hreach.trans hlast, hfinished⟩
  | dropDisconnect id =>
      obtain ⟨middle, hreach, hat, -⟩ := canReach_drop_of_dropDisconnect h hplace
      obtain ⟨last, hlast, hfinished⟩ := hfromDrop (h.of_reach hreach) hat
      exact ⟨last, hreach.trans hlast, hfinished⟩
  | dropJoin id =>
      obtain ⟨middle, hreach, hat, -⟩ := canReach_drop_of_dropJoin h hplace
      obtain ⟨last, hlast, hfinished⟩ := hfromDrop (h.of_reach hreach) hat
      exact ⟨last, hreach.trans hlast, hfinished⟩
  | finished => exact ⟨s, .refl s, hplace⟩

/-- The server can still come to its end if and only if no loop is trapped. -/
theorem Orderly.canFinish_iff (h : s.Orderly) :
    (∃ more final later, run step s more = some (final, later) ∧
      final.place = .finished) ↔ ¬ s.Trapped := by
  constructor
  · rintro ⟨more, final, later, hmore, hfinished⟩ htrapped
    obtain ⟨id, hid, -⟩ := htrapped.of_run h hmore
    rw [hfinished] at hid
    cases hid
  · intro hfreely
    obtain ⟨final, ⟨later, more, hmore⟩, hfinished⟩ := canReach_finished h hfreely
    exact ⟨more, final, later, hmore, hfinished⟩

end Shutdown

/-- However the threads are scheduled, the server can still come to its end if
and only if, when the destructor of the registry took the lock, no receive loop
of a client on the list was waiting for it.  Otherwise it never ends: it joins
a receive loop that waits for its lock. -/
theorem shutdown_finishes_iff {server : Lifecycle}
    {before : List LifecycleEvent} {effects : List Effect}
    (hserver : run Lifecycle.step {} before = some (server, effects))
    (hlistening : server.listening = .accept)
    (hcleanup : server.cleanup = .idle) {s : Shutdown}
    {events : List ShutdownEvent} {outs : List Effect}
    (hrun : run Shutdown.step { server := server } events = some (s, outs)) :
    (∃ more final later, run Shutdown.step s more = some (final, later) ∧
      final.place = .finished) ↔
    AllSteps Shutdown.step LocksApart { server := server } events := by
  have hstart := Shutdown.orderly_start hserver hlistening hcleanup
  have hfreely : ¬ Shutdown.Trapped { server := server } :=
    fun ⟨_, hid, _⟩ => nomatch hid
  rw [(hstart.of_reach ⟨outs, events, hrun⟩).canFinish_iff]
  exact Shutdown.not_trapped_iff_apart hstart hfreely hrun

/-- A peer closes its connection while the server is being stopped: the receive
loop finds that the server is not shutting down, and then the destructor takes
the lock. -/
def closedWhileStopping : List ShutdownEvent :=
  [.receive 0 (some fssMessageClosed), .loop 0 ⟨emptyDb, 0⟩,
    .loop 0 ⟨emptyDb, 0⟩, .destroy, .destroy]

theorem shutdown_finishes_iff_closedWhileStopping :
    ∃ (server : Lifecycle) (effects : List Effect) (s : Shutdown)
      (outs : List Effect),
      run Lifecycle.step {} (registered [] true) = some (server, effects) ∧
      run Shutdown.step { server := server } closedWhileStopping =
        some (s, outs) ∧
      ¬ ∃ more final later, run Shutdown.step s more = some (final, later) ∧
        final.place = .finished := by
  refine ⟨_, _, _, _, rfl, rfl, ?_⟩
  rw [@shutdown_finishes_iff _ (registered [] true) _ rfl rfl rfl _
    closedWhileStopping _ rfl]
  intro hall
  have hreceived := hall.2 _ _ rfl
  have htested := hreceived.2 _ _ rfl
  have hprocessed := htested.2 _ _ rfl
  have hflagged := hprocessed.2 _ _ rfl
  exact hflagged.1 rfl 0 List.mem_cons_self _ (some fssMessageClosed) rfl rfl

end FlightSafety.Server
