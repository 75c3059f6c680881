/-
The end of the server.  The listen thread has been joined and the main loop has
been left, and the registry is destroyed.  Its destructor holds the lock while
it joins the receive loops of the clients on the list; a loop that has found
that the server is not shutting down is going to wait for that lock.
-/
import FlightSafety.Server.RegistryLock

namespace FlightSafety.Server

open Octets Machine

/-- Where the destructor of `server_clients` is, with the clients that it has
still to disconnect.  After its body the queue is destroyed. -/
inductive ShutdownAt where
  | setFlag
  | lock
  | test (rest : List Nat)
  | disconnect (id : Nat) (rest : List Nat)
  | join (id : Nat) (rest : List Nat)
  | drop
  | clearHandler (id : Nat)
  | dropDisconnect (id : Nat)
  | dropJoin (id : Nat)
  | finished
deriving Repr, DecidableEq

/-- The threads of the server and the destructor, which takes the lock as the
main thread.  `shutting_down` is apart from the registry: it is read before the
lock is taken. -/
structure Shutdown where
  server : Lifecycle
  shuttingDown : Bool := false
  place : ShutdownAt := .setFlag

inductive ShutdownEvent where
  | receive (id : Nat) (msg : Option FssMessage)
  | loop (id : Nat) (env : Env)
  | destroy

namespace Shutdown

/-- The next step of a receive loop.  When it is told to disconnect its client
while the server is shutting down, it goes on at once. -/
def loop (s : Shutdown) (id : Nat) (conn : Served) (env : Env) :
    Option (Shutdown × List Effect) :=
  let goesOn := (s.server.loop id conn env).map fun (server, effects) =>
    ({ s with server := server }, effects)
  match conn.receiving with
  | .process msg =>
      let (client, effects) := conn.client.processMessage env msg
      if s.shuttingDown = true ∧ .clientDisconnected ∈ effects then
        let conn := { conn with client := client }
        some ({ s with server := s.server.receiveAt id conn (.afterwards msg) },
          effects)
      else goesOn
  | _ => goesOn

/-- The next step of the destructor.  A client that has been disconnected has
no connection left that its own destructor would join. -/
def destroy (s : Shutdown) : Option (Shutdown × List Effect) :=
  match s.place with
  | .setFlag => some ({ s with shuttingDown := true, place := .lock }, [])
  | .lock =>
      if s.server.lock = none then
        some ({ s with
          server := { s.server with lock := some .cleanup }
          place := .test s.server.registry.clients }, [])
      else none
  | .test [] =>
      some ({ s with
        server := { s.server with lock := none }
        place := .drop }, [])
  | .test (id :: rest) => some ({ s with place := .disconnect id rest }, [])
  | .disconnect id rest =>
      match s.server.connections id with
      | none => none
      | some conn =>
          some ({ s with
            server := s.server.setConnection id { conn with usable := false }
            place := .join id rest }, [])
  | .join id rest =>
      match s.server.connections id with
      | none => none
      | some conn =>
          if conn.receiving = .ended then
            some ({ s with place := .test rest }, [])
          else none
  | .drop =>
      match s.server.registry.disconnected with
      | [] => some ({ s with place := .finished }, [])
      | id :: disconnected =>
          let registry :=
            { s.server.registry with disconnected := disconnected }
          some ({ s with
            server := { s.server with registry := registry }
            place := .clearHandler id }, [])
  | .clearHandler id =>
      match s.server.connections id with
      | none => none
      | some conn =>
          some ({ s with
            server := s.server.setConnection id { conn with handler := false }
            place := .dropDisconnect id }, [])
  | .dropDisconnect id =>
      match s.server.connections id with
      | none => none
      | some conn =>
          some ({ s with
            server := s.server.setConnection id { conn with usable := false }
            place := .dropJoin id }, [])
  | .dropJoin id =>
      match s.server.connections id with
      | none => none
      | some conn =>
          if conn.receiving = .ended then some ({ s with place := .drop }, [])
          else none
  | .finished => none

/-- Of a connection that has been disconnected nothing is received but that it
is closed, after a message that was cut off. -/
def step : Step Shutdown ShutdownEvent Effect
  | s, .receive id msg =>
      match s.server.connections id with
      | none => none
      | some conn =>
          if conn.receiving = .receive ∧
              (conn.usable = true ∨ msg = none ∨ isClosed msg = true) then
            some ({ s with server := s.server.receiveAt id conn (.test msg) }, [])
          else none
  | s, .loop id env =>
      match s.server.connections id with
      | none => none
      | some conn => s.loop id conn env
  | s, .destroy => s.destroy

end Shutdown

namespace ShutdownAt

/-- The destructor is between taking and releasing the lock. -/
def holds : ShutdownAt → Bool
  | .test _ | .disconnect _ _ | .join _ _ => true
  | _ => false

/-- The listed clients that the destructor has still to join. -/
def ahead : ShutdownAt → List Nat
  | .test rest => rest
  | .disconnect id rest | .join id rest => id :: rest
  | _ => []

/-- The client of the queue that is being destroyed. -/
def dropped : ShutdownAt → List Nat
  | .clearHandler id | .dropDisconnect id | .dropJoin id => [id]
  | _ => []

/-- The destructor has taken the lock. -/
def begun : ShutdownAt → Bool
  | .setFlag | .lock => false
  | _ => true

theorem holds_of_mem_ahead {place : ShutdownAt} {id : Nat}
    (h : id ∈ place.ahead) : place.holds = true := by
  cases place with
  | test | disconnect | join => rfl
  | _ => cases h

end ShutdownAt

/-- Clients have connections; those that the destructor has to join are on the
list, and those that it has joined have no receive loop any more. -/
structure Shutdown.Orderly (s : Shutdown) : Prop where
  flagged : s.place ≠ .setFlag → s.shuttingDown = true
  held : HeldBy s.server.lock
    (holding s.server.connections false s.place.holds)
  known : ∀ id, id ∈ s.server.registry.clients ∨
    id ∈ s.server.registry.disconnected ∨ id ∈ s.place.dropped →
      s.server.connections id ≠ none
  listed : ∀ id ∈ s.place.ahead, id ∈ s.server.registry.clients
  joined : s.place.begun = true → ∀ id ∈ s.server.registry.clients,
    id ∈ s.place.ahead ∨
      (s.server.connections id).all fun conn => conn.receiving = .ended

/-- What a step of a receive loop changes. -/
structure Shutdown.LoopTaken (s next : Shutdown) (id : Nat)
    (conn conn' : Served) : Prop where
  found : s.server.connections id = some conn
  connections : next.server.connections =
    (s.server.setConnection id conn').connections
  moves : conn.receiving ≠ .ended
  place : next.place = s.place
  shuttingDown : next.shuttingDown = s.shuttingDown
  registry : next.server.registry = s.server.registry ∨
    conn.receiving.holds = true ∧
      next.server.registry = s.server.registry.clientDisconnected id
  locks : ∀ msg, conn.receiving = .lock msg → s.server.lock = none
  heads : ∀ msg, conn'.receiving = .lock msg → s.shuttingDown = false
  held : ∀ main,
    HeldBy s.server.lock (holding s.server.connections false main) →
      HeldBy next.server.lock (holding next.server.connections false main)

/-- Only a receive loop that holds the lock changes the registry. -/
theorem registry_of_loop {s next : Lifecycle} {id : Nat} {conn : Served}
    {env : Env} {out : List Effect}
    (hloop : s.loop id conn env = some (next, out)) :
    next.registry = s.registry ∨ conn.receiving.holds = true ∧
      next.registry = s.registry.clientDisconnected id := by
  unfold Lifecycle.loop at hloop
  split at hloop
  · cases hloop
  · cases hloop
  · split at hloop <;> cases hloop <;> exact .inl rfl
  · cases hloop
    exact .inl rfl
  · dsimp only at hloop
    split at hloop <;> cases hloop <;> exact .inl rfl
  · split at hloop
    · cases hloop
      exact .inl rfl
    · cases hloop
  · next msg hunlock =>
      cases hloop
      exact .inr ⟨by rw [hunlock]; rfl, rfl⟩

theorem lock_of_loop {s : Lifecycle} {id : Nat} {conn : Served} {env : Env}
    {msg : Option FssMessage} (hloop : s.loop id conn env ≠ none)
    (hlock : conn.receiving = .lock msg) : s.lock = none := by
  by_contra hheld
  apply hloop
  simp only [Lifecycle.loop, hlock]
  exact if_neg hheld

namespace Shutdown

variable {s next : Shutdown} {id : Nat} {conn conn' : Served}

theorem taken_of_receive {msg : Option FssMessage} {out : List Effect}
    (h : s.step (.receive id msg) = some (next, out)) :
    ∃ conn conn', LoopTaken s next id conn conn' := by
  simp only [step] at h
  split at h
  · cases h
  · next conn hfound =>
      split at h
      · next hreceive =>
          cases h
          refine ⟨conn, _, hfound, rfl, by simp [hreceive.1], rfl, rfl,
            .inl rfl, by simp [hreceive.1], fun _ hlock => (nomatch hlock),
            fun main hheld => ?_⟩
          apply heldBy_setConnection hheld
          rw [holding_of_found _ _ hfound, hreceive.1]
          rfl
      · cases h

theorem afterwards_ne_lock (msg msg' : Option FssMessage) :
    ReceiveAt.afterwards msg ≠ .lock msg' := by
  rw [ReceiveAt.afterwards]
  split
  · exact ReceiveAt.noConfusion
  · exact ReceiveAt.noConfusion

/-- A loop heads for the lock when it has processed a message that makes its
client leave. -/
theorem leaves_of_goes {msg : Option FssMessage}
    (h : LoopGoes conn conn'.receiving) (hlock : conn'.receiving = .lock msg) :
    conn.receiving = .process msg ∧ conn.client.leaves msg = true := by
  rw [hlock] at h
  generalize hplace : ReceiveAt.lock msg = place at h
  cases h with
  | leaving process leaves =>
      cases hplace
      exact ⟨process, leaves⟩
  | pushed push => exact absurd hplace.symm (afterwards_ne_lock _ _)
  | processed process stays => exact absurd hplace.symm (afterwards_ne_lock _ _)
  | unlocked unlock => exact absurd hplace.symm (afterwards_ne_lock _ _)
  | _ => cases hplace

theorem taken_of_loop {env : Env} {out : List Effect}
    (h : s.step (.loop id env) = some (next, out)) :
    ∃ conn conn', LoopTaken s next id conn conn' := by
  have hgoesOn : ∀ {conn}, s.server.connections id = some conn →
      (∀ msg, conn.receiving = .process msg → conn.client.leaves msg = true →
        s.shuttingDown = false) →
      ((s.server.loop id conn env).map fun (server, effects) =>
        ({ s with server := server }, effects)) = some (next, out) →
      ∃ conn conn', LoopTaken s next id conn conn' := by
    intro conn hfound hleaves hmap
    obtain ⟨⟨server, effects⟩, hloop, heq⟩ := Option.map_eq_some_iff.mp hmap
    cases heq
    obtain ⟨conn', htaken⟩ := Server.taken_of_loop hloop
    refine ⟨conn, conn', hfound, htaken.connections, ?_, rfl, rfl,
      registry_of_loop hloop, fun msg hlock => ?_, fun msg hlock => ?_,
      fun main hheld => heldBy_loop hheld hfound hloop⟩
    · intro hended
      simp only [Lifecycle.loop, hended] at hloop
      cases hloop
    · exact lock_of_loop (by rw [hloop]; exact Option.some_ne_none _) hlock
    · obtain ⟨hprocess, hleave⟩ := leaves_of_goes htaken.goes hlock
      exact hleaves msg hprocess hleave
  simp only [step] at h
  split at h
  · cases h
  · next conn hfound =>
      unfold loop at h
      dsimp only at h
      split at h
      · next msg hprocess =>
          split at h
          · cases h
            refine ⟨conn, _, hfound, rfl, by simp [hprocess], rfl, rfl,
              .inl rfl, by simp [hprocess],
              fun msg' hlock => absurd hlock (afterwards_ne_lock msg msg'),
              fun main hheld => ?_⟩
            apply heldBy_setConnection hheld
            rw [holding_of_found _ _ hfound, hprocess]
            exact holds_afterwards msg
          · next hstays =>
              refine hgoesOn hfound (fun msg' hprocess' hleave => ?_) h
              rw [hprocess] at hprocess'
              cases hprocess'
              rw [← clientDisconnected_mem_iff env] at hleave
              by_contra hflag
              exact hstays ⟨by simpa using hflag, hleave⟩
      · next hnot =>
          exact hgoesOn hfound (fun msg hprocess _ =>
            absurd hprocess (hnot msg)) h

theorem clients_clientDisconnected_subset (r : ServerClients Nat) (id : Nat) :
    (r.clientDisconnected id).clients ⊆ r.clients :=
  (r.sublist_clientDisconnected id).subset

theorem mem_disconnected_clientDisconnected {r : ServerClients Nat}
    {id other : Nat} (h : other ∈ (r.clientDisconnected id).disconnected) :
    other ∈ r.disconnected ∨ other = id := by
  unfold ServerClients.clientDisconnected at h
  split at h
  · exact .inl h
  · split at h
    · simpa using h
    · exact .inl h

/-- A step of a receive loop keeps the clients in order. -/
theorem Orderly.loops (h : s.Orderly) (ht : LoopTaken s next id conn conn') :
    next.Orderly := by
  have hconnections : ∀ other, s.server.connections other ≠ none →
      next.server.connections other ≠ none := by
    intro other hother
    rw [ht.connections]
    exact Lifecycle.connections_setConnection_ne_none _ hother
  have hclients : next.server.registry.clients ⊆ s.server.registry.clients := by
    rcases ht.registry with hsame | ⟨-, hchanged⟩
    · rw [hsame]
      exact List.Subset.refl _
    · rw [hchanged]
      exact clients_clientDisconnected_subset _ _
  constructor
  case flagged =>
    rw [ht.place, ht.shuttingDown]
    exact h.flagged
  case held =>
    rw [ht.place]
    exact ht.held _ h.held
  case known =>
    rw [ht.place]
    intro other hother
    rcases hother with hother | hother | hother
    · exact hconnections other (h.known other (.inl (hclients hother)))
    · rcases ht.registry with hsame | ⟨-, hchanged⟩
      · rw [hsame] at hother
        exact hconnections other (h.known other (.inr (.inl hother)))
      · rw [hchanged] at hother
        rcases mem_disconnected_clientDisconnected hother with hother | rfl
        · exact hconnections other (h.known other (.inr (.inl hother)))
        · apply hconnections
          rw [ht.found]
          exact Option.some_ne_none _
    · exact hconnections other (h.known other (.inr (.inr hother)))
  case listed =>
    rw [ht.place]
    intro other hother
    rcases ht.registry with hsame | ⟨hholds, -⟩
    · rw [hsame]
      exact h.listed other hother
    · -- The destructor holds the lock, so that this receive loop does not.
      have hmain := (h.held .cleanup).mpr (ShutdownAt.holds_of_mem_ahead hother)
      have hloop := (h.held (.receive id)).mpr
        ((holding_of_found _ _ ht.found).trans hholds)
      rw [hmain] at hloop
      cases hloop
  case joined =>
    rw [ht.place]
    intro hbegun other hother
    rcases h.joined hbegun other (hclients hother) with hahead | hended
    · exact .inl hahead
    · refine .inr ?_
      have hne : other ≠ id := by
        rintro rfl
        rw [ht.found, Option.all_some, decide_eq_true_iff] at hended
        exact ht.moves hended
      rw [ht.connections, Lifecycle.connections_setConnection_of_ne _ hne]
      exact hended

/-- The same connections, with their receive loops at the same places. -/
def SameLoops (s next : Lifecycle) : Prop :=
  ∀ id, (next.connections id).map (·.receiving) =
    (s.connections id).map (·.receiving)

theorem sameLoops_setConnection {server : Lifecycle}
    (hfound : server.connections id = some conn)
    (hsame : conn'.receiving = conn.receiving) :
    SameLoops server (server.setConnection id conn') := by
  intro other
  by_cases hother : other = id
  · subst hother
    rw [Lifecycle.connections_setConnection, hfound, Option.map_some,
      Option.map_some, hsame]
  · rw [Lifecycle.connections_setConnection_of_ne _ hother]

theorem SameLoops.ne_none {server server' : Lifecycle}
    (h : SameLoops server server') {id : Nat}
    (hid : server.connections id ≠ none) : server'.connections id ≠ none := by
  intro hnone
  have hsame := h id
  rw [hnone, Option.map_none] at hsame
  exact hid (Option.map_eq_none_iff.mp hsame.symm)

theorem SameLoops.all_ended {server server' : Lifecycle}
    (h : SameLoops server server') (id : Nat) :
    ((server'.connections id).all fun conn => conn.receiving = .ended) =
      (server.connections id).all fun conn => conn.receiving = .ended := by
  have hsame := h id
  cases hold : server.connections id <;> cases hnew : server'.connections id <;>
    simp_all

theorem SameLoops.holding {server server' : Lifecycle}
    (h : SameLoops server server') (main : Bool) :
    holding server'.connections false main =
      holding server.connections false main := by
  funext holder
  cases holder with
  | receive id =>
      have hsame := h id
      cases hold : server.connections id <;>
        cases hnew : server'.connections id <;>
          simp_all [Server.holding]
  | _ => rfl

/-- The destructor goes on, without taking or releasing the lock. -/
theorem Orderly.goesOn (h : s.Orderly) {server : Lifecycle}
    {place : ShutdownAt} (hbegun : s.place.begun = true)
    (hholds : place.holds = s.place.holds)
    (hlock : server.lock = s.server.lock)
    (hclients : server.registry.clients = s.server.registry.clients)
    (hqueue : ∀ id, id ∈ server.registry.disconnected ∨ id ∈ place.dropped →
      id ∈ s.server.registry.disconnected ∨ id ∈ s.place.dropped)
    (hloops : SameLoops s.server server)
    (hahead : place.ahead ⊆ s.place.ahead)
    (hjoined : ∀ id ∈ s.place.ahead, id ∈ place.ahead ∨
      (s.server.connections id).all fun conn => conn.receiving = .ended) :
    Orderly { s with server := server, place := place } := by
  have hflag : s.place ≠ .setFlag := by
    intro heq
    rw [heq] at hbegun
    cases hbegun
  constructor
  case flagged => exact fun _ => h.flagged hflag
  case held =>
    change HeldBy server.lock (holding server.connections false place.holds)
    rw [hholds, hlock, hloops.holding]
    exact h.held
  case known =>
    intro id hid
    apply hloops.ne_none (h.known id _)
    rcases hid with hid | hid
    · exact .inl (hclients ▸ hid)
    · exact .inr (hqueue id hid)
  case listed =>
    intro id hid
    change id ∈ server.registry.clients
    rw [hclients]
    exact h.listed id (hahead hid)
  case joined =>
    intro _ id hid
    change id ∈ server.registry.clients at hid
    rw [hclients] at hid
    change _ ∨ ((server.connections id).all _) = true
    rw [hloops.all_ended]
    rcases h.joined hbegun id hid with hid | hended
    · exact hjoined id hid
    · exact .inr hended

theorem Orderly.destroys {out : List Effect} (h : s.Orderly)
    (hstep : s.destroy = some (next, out)) : next.Orderly := by
  obtain ⟨server, shuttingDown, place⟩ := s
  have hsame : SameLoops server server := fun _ => rfl
  cases place with
  | setFlag =>
      cases hstep
      exact ⟨fun _ => rfl, h.held, h.known, fun _ hid => (nomatch hid),
        fun hbegun => (by cases hbegun)⟩
  | lock =>
      simp only [destroy] at hstep
      split at hstep
      · next hfree =>
          cases hstep
          have hheld := h.held
          dsimp only at hheld
          rw [hfree] at hheld
          exact ⟨fun _ => h.flagged (by simp),
            hheld.take rfl fun _ hother => holding_of_ne_cleanup _ _ _ _ hother,
            h.known, fun _ hid => hid, fun _ _ hid => .inl hid⟩
      · cases hstep
  | test rest =>
      cases rest with
      | nil =>
          cases hstep
          exact ⟨fun _ => h.flagged (by simp),
            @HeldBy.release _ _ _ _ .cleanup h.held rfl rfl
              fun _ hother => holding_of_ne_cleanup _ _ _ _ hother,
            h.known, fun _ hid => (nomatch hid), h.joined⟩
      | cons id rest =>
          cases hstep
          exact h.goesOn rfl rfl rfl rfl (fun _ hid => hid) hsame
            (List.Subset.refl _) fun _ hid => .inl hid
  | disconnect id rest =>
      simp only [destroy] at hstep
      split at hstep
      · cases hstep
      · next conn hfound =>
          cases hstep
          exact h.goesOn rfl rfl rfl rfl (fun _ hid => hid)
            (sameLoops_setConnection hfound rfl) (List.Subset.refl _)
            fun _ hid => .inl hid
  | join id rest =>
      simp only [destroy] at hstep
      split at hstep
      · cases hstep
      · next conn hfound =>
          split at hstep
          · next hended =>
              cases hstep
              refine h.goesOn rfl rfl rfl rfl (fun _ hid => hid) hsame
                (List.subset_cons_self _ _) ?_
              intro other hother
              rcases List.mem_cons.mp hother with rfl | hother
              · refine .inr ?_
                rw [hfound, Option.all_some, decide_eq_true_iff]
                exact hended
              · exact .inl hother
          · cases hstep
  | drop =>
      simp only [destroy] at hstep
      split at hstep
      · cases hstep
        exact h.goesOn rfl rfl rfl rfl (fun _ hid => hid) hsame
          (List.Subset.refl _) fun _ hid => .inl hid
      · next id disconnected hqueue =>
          cases hstep
          refine h.goesOn rfl rfl rfl rfl ?_ hsame (List.Subset.refl _)
            fun _ hid => .inl hid
          intro other hother
          dsimp only at hother ⊢
          rw [hqueue]
          rcases hother with hother | hother
          · exact .inl (List.mem_cons_of_mem _ hother)
          · rw [List.mem_singleton.mp hother]
            exact .inl List.mem_cons_self
  | clearHandler id =>
      simp only [destroy] at hstep
      split at hstep
      · cases hstep
      · next conn hfound =>
          cases hstep
          exact h.goesOn rfl rfl rfl rfl (fun _ hid => hid)
            (sameLoops_setConnection hfound rfl) (List.Subset.refl _)
            fun _ hid => .inl hid
  | dropDisconnect id =>
      simp only [destroy] at hstep
      split at hstep
      · cases hstep
      · next conn hfound =>
          cases hstep
          exact h.goesOn rfl rfl rfl rfl (fun _ hid => hid)
            (sameLoops_setConnection hfound rfl) (List.Subset.refl _)
            fun _ hid => .inl hid
  | dropJoin id =>
      simp only [destroy] at hstep
      split at hstep
      · cases hstep
      · split at hstep
        · cases hstep
          exact h.goesOn rfl rfl rfl rfl
            (fun _ hid => .inl (hid.resolve_right List.not_mem_nil)) hsame
            (List.Subset.refl _) fun _ hid => .inl hid
        · cases hstep
  | finished => cases hstep

theorem Orderly.kept {e : ShutdownEvent} {out : List Effect} (h : s.Orderly)
    (hstep : s.step e = some (next, out)) : next.Orderly := by
  cases e with
  | receive id msg =>
      obtain ⟨conn, conn', ht⟩ := taken_of_receive hstep
      exact h.loops ht
  | loop id env =>
      obtain ⟨conn, conn', ht⟩ := taken_of_loop hstep
      exact h.loops ht
  | destroy => exact h.destroys hstep

/-- The destructor runs when the listen thread and the main loop are over. -/
theorem orderly_start {server : Lifecycle} {events : List LifecycleEvent}
    {outs : List Effect}
    (hrun : run Lifecycle.step {} events = some (server, outs))
    (hlistening : server.listening = .accept)
    (hcleanup : server.cleanup = .idle) :
    Orderly { server := server } := by
  have hheld := Lifecycle.LockHeld.of_run hrun
  have hconsistent : Consistent server :=
    @run_invariant_always _ _ _ _ (fun s _ => Consistent s) _ _ [] _ _ hrun
      consistent_start fun h hstep => h.kept hstep
  unfold Lifecycle.LockHeld at hheld
  rw [hlistening, hcleanup] at hheld
  refine ⟨fun h => absurd rfl h, hheld, fun id hid => ?_,
    fun _ hid => (nomatch hid), fun hbegun => (by cases hbegun)⟩
  apply hconsistent.known
  rw [Lifecycle.leaving, hcleanup]
  rcases hid with hid | hid | hid
  · exact List.mem_append_left _ hid
  · exact List.mem_append_right _ (List.mem_append_left _ hid)
  · cases hid

/-- A receive loop that the destructor has still to join waits for the lock
that the destructor holds. -/
def Trapped (s : Shutdown) : Prop :=
  ∃ id ∈ s.place.ahead, ∃ conn msg, s.server.connections id = some conn ∧
    conn.receiving = .lock msg

theorem Trapped.loops (h : s.Orderly) (htrapped : s.Trapped)
    (ht : LoopTaken s next id conn conn') : next.Trapped := by
  obtain ⟨other, hother, found, msg, hfound, hlock⟩ := htrapped
  have hmain := (h.held .cleanup).mpr (ShutdownAt.holds_of_mem_ahead hother)
  have hne : other ≠ id := by
    rintro rfl
    rw [ht.found] at hfound
    cases hfound
    rw [ht.locks msg hlock] at hmain
    cases hmain
  refine ⟨other, ht.place ▸ hother, found, msg, ?_, hlock⟩
  rw [ht.connections, Lifecycle.connections_setConnection_of_ne _ hne]
  exact hfound

theorem Trapped.destroys {out : List Effect} (htrapped : s.Trapped)
    (hstep : s.destroy = some (next, out)) : next.Trapped := by
  obtain ⟨server, shuttingDown, place⟩ := s
  obtain ⟨id, hid, conn, msg, hfound, hlock⟩ := htrapped
  dsimp only at hid hfound
  cases place with
  | test rest =>
      cases rest with
      | nil => cases hid
      | cons other rest =>
          cases hstep
          exact ⟨id, hid, conn, msg, hfound, hlock⟩
  | disconnect other rest =>
      simp only [destroy] at hstep
      split at hstep
      · cases hstep
      · next found hother =>
          cases hstep
          by_cases hsame : id = other
          · subst hsame
            rw [hfound] at hother
            cases hother
            exact ⟨id, hid, { conn with usable := false }, msg,
              Lifecycle.connections_setConnection _ _ _, hlock⟩
          · refine ⟨id, hid, conn, msg, ?_, hlock⟩
            exact (Lifecycle.connections_setConnection_of_ne _ hsame _).trans
              hfound
  | join other rest =>
      simp only [destroy] at hstep
      split at hstep
      · cases hstep
      · next found hother =>
          split at hstep
          · next hended =>
              cases hstep
              rcases List.mem_cons.mp hid with rfl | hrest
              · rw [hfound] at hother
                cases hother
                rw [hlock] at hended
                cases hended
              · exact ⟨id, hrest, conn, msg, hfound, hlock⟩
          · cases hstep
  | _ => cases hid

theorem Trapped.kept {e : ShutdownEvent} {out : List Effect} (h : s.Orderly)
    (htrapped : s.Trapped) (hstep : s.step e = some (next, out)) :
    next.Trapped := by
  cases e with
  | receive id msg =>
      obtain ⟨conn, conn', ht⟩ := taken_of_receive hstep
      exact htrapped.loops h ht
  | loop id env =>
      obtain ⟨conn, conn', ht⟩ := taken_of_loop hstep
      exact htrapped.loops h ht
  | destroy => exact htrapped.destroys hstep

/-- The destructor never gets past a loop that waits for its lock. -/
theorem Trapped.of_run {events : List ShutdownEvent} {outs : List Effect}
    (h : s.Orderly) (htrapped : s.Trapped)
    (hrun : run step s events = some (next, outs)) : next.Trapped := by
  have hboth : next.Orderly ∧ next.Trapped :=
    @run_invariant_always _ _ _ _ (fun s _ => s.Orderly ∧ s.Trapped) _ _ [] _ _
      hrun ⟨h, htrapped⟩ fun ⟨h, htrapped⟩ hstep =>
        ⟨h.kept hstep, htrapped.kept h hstep⟩
  exact hboth.2

end Shutdown

/-- When the destructor takes the lock, no receive loop of a client on the list
waits for it. -/
def LocksApart (s : Shutdown) : ShutdownEvent → Prop
  | .destroy => s.place = .lock → ∀ id ∈ s.server.registry.clients,
      ∀ conn msg, s.server.connections id = some conn →
        conn.receiving ≠ .lock msg
  | _ => True

namespace Shutdown

variable {s next : Shutdown} {id : Nat} {conn conn' : Served}

/-- A loop does not get trapped later. -/
theorem not_trapped_of_loops (h : s.Orderly) (hfreely : ¬ s.Trapped)
    (ht : LoopTaken s next id conn conn') : ¬ next.Trapped := by
  rintro ⟨other, hother, found, msg, hat, hlock⟩
  rw [ht.place] at hother
  rw [ht.connections] at hat
  by_cases hsame : other = id
  · subst hsame
    cases (Lifecycle.connections_setConnection _ _ _).symm.trans hat
    have hflag : s.shuttingDown = true := by
      apply h.flagged
      intro hplace
      rw [hplace] at hother
      cases hother
    rw [ht.heads msg hlock] at hflag
    cases hflag
  · rw [Lifecycle.connections_setConnection_of_ne _ hsame] at hat
    exact hfreely ⟨other, hother, found, msg, hat, hlock⟩

theorem not_trapped_of_destroys {out : List Effect} (hfreely : ¬ s.Trapped)
    (hapart : LocksApart s .destroy)
    (hstep : s.destroy = some (next, out)) : ¬ next.Trapped := by
  obtain ⟨server, shuttingDown, place⟩ := s
  rintro ⟨other, hother, found, msg, hat, hlock⟩
  cases place with
  | lock =>
      simp only [destroy] at hstep
      split at hstep
      · cases hstep
        exact hapart rfl other hother found msg hat hlock
      · cases hstep
  | test rest =>
      cases rest <;> cases hstep
      · cases hother
      · exact hfreely ⟨other, hother, found, msg, hat, hlock⟩
  | disconnect id rest =>
      simp only [destroy] at hstep
      split at hstep
      · cases hstep
      · next conn hfound =>
          cases hstep
          by_cases hsame : other = id
          · subst hsame
            cases (Lifecycle.connections_setConnection _ _ _).symm.trans hat
            exact hfreely ⟨other, hother, conn, msg, hfound, hlock⟩
          · rw [Lifecycle.connections_setConnection_of_ne _ hsame] at hat
            exact hfreely ⟨other, hother, found, msg, hat, hlock⟩
  | join id rest =>
      simp only [destroy] at hstep
      split at hstep
      · cases hstep
      · split at hstep
        · cases hstep
          exact hfreely
            ⟨other, List.mem_cons_of_mem _ hother, found, msg, hat, hlock⟩
        · cases hstep
  | setFlag =>
      cases hstep
      cases hother
  | finished => cases hstep
  | _ =>
      simp only [destroy] at hstep
      repeat' split at hstep
      all_goals
        cases hstep
      all_goals
        cases hother

theorem not_trapped_of_step {e : ShutdownEvent} {out : List Effect}
    (h : s.Orderly) (hfreely : ¬ s.Trapped) (hapart : LocksApart s e)
    (hstep : s.step e = some (next, out)) : ¬ next.Trapped := by
  cases e with
  | receive id msg =>
      obtain ⟨conn, conn', ht⟩ := taken_of_receive hstep
      exact not_trapped_of_loops h hfreely ht
  | loop id env =>
      obtain ⟨conn, conn', ht⟩ := taken_of_loop hstep
      exact not_trapped_of_loops h hfreely ht
  | destroy => exact not_trapped_of_destroys hfreely hapart hstep

/-- Where the destructor does not take the lock apart, a loop is trapped. -/
theorem trapped_of_not_apart {e : ShutdownEvent} {out : List Effect}
    (hmixed : ¬ LocksApart s e) (hstep : s.step e = some (next, out)) :
    next.Trapped := by
  cases e with
  | destroy =>
      simp only [LocksApart, not_forall, not_not] at hmixed
      obtain ⟨hplace, id, hid, conn, msg, hfound, hlock⟩ := hmixed
      simp only [step, destroy, hplace] at hstep
      split at hstep
      · cases hstep
        exact ⟨id, hid, conn, msg, hfound, hlock⟩
      · cases hstep
  | _ => exact absurd trivial hmixed

theorem not_trapped_iff_apart {events : List ShutdownEvent}
    {outs : List Effect} (h : s.Orderly) (hfreely : ¬ s.Trapped)
    (hrun : run step s events = some (next, outs)) :
    ¬ next.Trapped ↔ AllSteps step LocksApart s events := by
  induction events generalizing s outs with
  | nil =>
      cases hrun
      exact ⟨fun _ => trivial, fun _ => hfreely⟩
  | cons e events ih =>
      obtain ⟨middle, out, later, hstep, hlater, rfl⟩ :=
        run_cons_eq_some.mp hrun
      have horderly := h.kept hstep
      by_cases hapart : LocksApart s e
      · have hmiddle := not_trapped_of_step h hfreely hapart hstep
        rw [ih horderly hmiddle hlater]
        exact ⟨fun hrest => .cons hapart hstep hrest,
          fun hall => hall.2 middle out hstep⟩
      · have htrapped := trapped_of_not_apart hapart hstep
        exact ⟨fun hnot => absurd (htrapped.of_run horderly hlater) hnot,
          fun hall => absurd hall.1 hapart⟩

end Shutdown

end FlightSafety.Server
