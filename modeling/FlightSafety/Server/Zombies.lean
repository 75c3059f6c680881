/-
A client leaves the list through a message its receive loop processes.  A
client that is put on the list when its receive loop has nothing to process
any more, or never had, stays there.
-/
import FlightSafety.Server.CleanupLock

namespace FlightSafety.Server

open Octets Machine

/-- A connection whose receive loop runs and has not handed the closed message
to anything but its handler. -/
def Served.lives (conn : Served) : Bool :=
  conn.usable &&
    match conn.receiving with
    | .ended => false
    | .push msg => !isClosed msg
    | _ => true

/-- The client that is about to be put on the list, if there is one, lives. -/
def Lifecycle.registersLiving (s : Lifecycle) : Bool :=
  match s.listening with
  | .unlockConnected id => (s.connections id).all Served.lives
  | _ => true

/-- The listen thread only puts clients on the list that live. -/
def RegistersLiving (s : Lifecycle) : LifecycleEvent → Prop
  | .listen _ => s.registersLiving = true
  | _ => True

instance (s : Lifecycle) : (e : LifecycleEvent) →
    Decidable (RegistersLiving s e)
  | .listen _ => inferInstanceAs (Decidable (_ = _))
  | .accept _ _ _ => .isTrue trivial
  | .receive _ _ => .isTrue trivial
  | .loop _ _ => .isTrue trivial
  | .cleanup => .isTrue trivial

/-- No accept callback, delivery or clean-up is pending. -/
structure Settled (s : Lifecycle) : Prop where
  listening : s.listening = .accept
  receiving : ∀ id conn, s.connections id = some conn →
    conn.receiving = .receive ∨ conn.receiving = .ended
  cleanup : s.cleanup = .idle
  disconnected : s.registry.disconnected = []

/-- Every client on the list has a usable connection whose receive loop is
running. -/
def NoZombies (s : Lifecycle) : Prop :=
  ∀ id ∈ s.registry.clients, ∃ conn, s.connections id = some conn ∧
    conn.usable = true ∧ conn.receiving ≠ .ended

/-- The clients on the list live and have their handler, and the constructor
of a client has stored it. -/
structure Living (s : Lifecycle) : Prop where
  consistent : Consistent s
  listed : ∀ id ∈ s.registry.clients, ∀ conn, s.connections id = some conn →
    conn.lives = true ∧ conn.handler = true
  stored : ∀ id conn, s.listening.id? = some id → s.listening.Stored →
    s.connections id = some conn → conn.handler = true

theorem living_start : Living {} where
  consistent := consistent_start
  listed _ h := absurd h List.not_mem_nil
  stored _ _ h := by cases h

theorem leaves_of_isClosed {c : FssClient} {msg : Option FssMessage}
    (h : isClosed msg = true) : c.leaves msg = true := by
  cases msg with
  | none => cases h
  | some m =>
      obtain ⟨id, type, body⟩ := m
      have htype : type = .closed := by simpa [isClosed] using h
      rw [htype]
      rfl

theorem lives_of_afterwards {conn : Served} {msg : Option FssMessage}
    (husable : conn.usable = true) (hmsg : isClosed msg = false)
    (h : conn.receiving = .afterwards msg) : conn.lives = true := by
  simp [Served.lives, husable, h, ReceiveAt.afterwards, hmsg]

/-- A receive loop with a handler lives on, unless it has disconnected its
client. -/
theorem LoopGoes.lives {conn conn' : Served}
    (h : LoopGoes conn conn'.receiving) (husable : conn'.usable = conn.usable)
    (hlives : conn.lives = true) (hhandler : conn.handler = true)
    (hunlock : ∀ msg, conn.receiving ≠ .unlock msg) : conn'.lives = true := by
  have husable' : conn'.usable = true := by
    rw [husable]
    simp only [Served.lives, Bool.and_eq_true] at hlives
    exact hlives.1
  generalize hplace : conn'.receiving = place at h
  cases h with
  | handled test handler => simp [Served.lives, hplace, husable']
  | unhandled test handler =>
      rw [hhandler] at handler
      cases handler
  | pushed push =>
      simp [Served.lives, push] at hlives
      exact lives_of_afterwards husable' hlives.2 hplace
  | leaving process leaves => simp [Served.lives, hplace, husable']
  | @processed msg process stays =>
      refine lives_of_afterwards husable' ?_ hplace
      cases hmsg : isClosed msg with
      | false => rfl
      | true =>
          rw [leaves_of_isClosed hmsg] at stays
          cases stays
  | locked lock => simp [Served.lives, hplace, husable']
  | unlocked unlock => exact absurd unlock (hunlock _)

/-- Nobody comes onto the list by leaving. -/
theorem clients_subset {before after : ServerClients Nat} {id : Nat}
    (h : after = before ∨ after = before.clientDisconnected id) :
    after.clients ⊆ before.clients := by
  rcases h with rfl | rfl
  · exact List.Subset.refl _
  · exact (ServerClients.sublist_clientDisconnected before id).subset

/-- A step that changes no client on the list and not the connection of the
listen thread. -/
theorem Living.congr {s next : Lifecycle} (h : Living s)
    (hnext : Consistent next)
    (hclients : next.registry.clients ⊆ s.registry.clients)
    (hlistening : next.listening = s.listening)
    (hconnections : ∀ id, id ∈ s.registry.clients ∨
      s.listening.id? = some id → next.connections id = s.connections id) :
    Living next where
  consistent := hnext
  listed id hid conn hconn := by
    rw [hconnections id (.inl (hclients hid))] at hconn
    exact h.listed id (hclients hid) conn hconn
  stored id conn hid hstored hconn := by
    rw [hlistening] at hid hstored
    rw [hconnections id (.inr hid)] at hconn
    exact h.stored id conn hid hstored hconn

/-- A step of a receive loop. -/
theorem Living.set {s next : Lifecycle} {id : Nat} {conn conn' : Served}
    (h : Living s) (hnext : Consistent next)
    (hclients : next.registry.clients ⊆ s.registry.clients)
    (hlistening : next.listening = s.listening)
    (hconnections : next.connections = (s.setConnection id conn').connections)
    (hfound : s.connections id = some conn)
    (hhandler : conn'.handler = conn.handler)
    (hlives : id ∈ next.registry.clients → conn.lives = true →
      conn.handler = true → conn'.lives = true) : Living next where
  consistent := hnext
  listed other hother found hat := by
    rw [hconnections] at hat
    by_cases heq : other = id
    · subst heq
      rw [Lifecycle.connections_setConnection] at hat
      cases hat
      obtain ⟨hlive, hset⟩ := h.listed other (hclients hother) conn hfound
      exact ⟨hlives hother hlive hset, hhandler.trans hset⟩
    · rw [Lifecycle.connections_setConnection_of_ne s heq] at hat
      exact h.listed other (hclients hother) found hat
  stored other found hid hstored hat := by
    rw [hlistening] at hid hstored
    rw [hconnections] at hat
    by_cases heq : other = id
    · subst heq
      rw [Lifecycle.connections_setConnection] at hat
      cases hat
      exact hhandler.trans (h.stored other conn hid hstored hfound)
    · rw [Lifecycle.connections_setConnection_of_ne s heq] at hat
      exact h.stored other found hid hstored hat

theorem Living.listen {s next : Lifecycle} (h : Living s)
    (hnext : Consistent next) (hguard : s.registersLiving = true)
    (htaken : ListenTaken s next) : Living next := by
  cases htaken with
  | @works id conn conn' place found connections usable receiving handler
      listening registry cleanup =>
      have hout := (h.consistent.accepted id place).2
      have hothers : ∀ other, other ≠ id →
          next.connections other = s.connections other := by
        intro other hne
        rw [connections]
        exact Lifecycle.connections_setConnection_of_ne s hne _
      refine ⟨hnext, fun other hother found' hat => ?_, ?_⟩
      · rw [registry] at hother
        rw [hothers other] at hat
        · exact h.listed other hother found' hat
        · rintro rfl
          exact hout (List.mem_append_left _ hother)
      · intro other found' hother _ hat
        rw [listening] at hother
        cases hother
        rw [connections, Lifecycle.connections_setConnection] at hat
        cases hat
        rcases handler with hset | ⟨hstored, hsame⟩
        · exact hset
        · exact hsame.trans (h.stored id conn place hstored found)
  | @goesOn id place stored connections listening registry cleanup =>
      have hclients := clients_subset registry
      refine ⟨hnext, fun other hother found' hat => ?_, ?_⟩
      · rw [connections] at hat
        exact h.listed other (hclients hother) found' hat
      · intro other found' hother _ hat
        rw [listening] at hother
        cases hother
        rw [connections] at hat
        exact h.stored id found' place stored hat
  | @registers id place connections listening registry cleanup =>
      refine ⟨hnext, fun other hother found' hat => ?_, ?_⟩
      · rw [connections] at hat
        rw [registry] at hother
        rcases List.mem_append.mp hother with hother | hother
        · exact h.listed other hother found' hat
        · rw [List.mem_singleton.mp hother] at hat
          rw [Lifecycle.registersLiving, place] at hguard
          have hlives : found'.lives = true := by
            simpa [hat] using hguard
          refine ⟨hlives, h.stored id found' ?_ ?_ hat⟩
          · rw [place]
            rfl
          · rw [place]
            trivial
      · intro other found' hother
        rw [listening] at hother
        cases hother

theorem Living.cleanUp {s next : Lifecycle} (h : Living s)
    (hnext : Consistent next) (htaken : CleanupTaken s next) :
    Living next := by
  cases htaken with
  | @works id conn conn' place found connections receiving client registry
      listening =>
      have hleaving : id ∈ s.leaving := by
        apply List.mem_append_right
        rcases place with ⟨before, -, -⟩ | ⟨before, -, -⟩
        · rw [before]
          exact List.mem_cons_self
        · rw [before]
          exact List.mem_cons_self
      refine h.congr hnext (by rw [registry]; exact List.Subset.refl _)
        listening fun other hother => ?_
      rw [connections]
      apply Lifecycle.connections_setConnection_of_ne
      rintro rfl
      rcases hother with hother | hother
      · exact h.consistent.apart other hleaving hother
      · exact (h.consistent.accepted other hother).2
          (List.mem_append_right _ hleaving)
  | pops place queue connections cleanup registry listening =>
      exact h.congr hnext (by rw [registry]; exact List.Subset.refl _)
        listening fun other _ => by rw [connections]
  | goesOn connections before after registry listening =>
      exact h.congr hnext (by rw [registry]; exact List.Subset.refl _)
        listening fun other _ => by rw [connections]

theorem Living.kept {s next : Lifecycle} {e : LifecycleEvent}
    {out : List Effect} (h : Living s) (hguard : RegistersLiving s e)
    (hstep : s.step e = some (next, out)) : Living next := by
  have hnext := h.consistent.kept hstep
  cases e with
  | accept id clientNames usable =>
      obtain ⟨hfresh, conn, rfl⟩ := of_step_accept hstep
      refine ⟨hnext, fun other hother found hat => ?_,
        fun _ _ _ hstored => False.elim hstored⟩
      have hne : other ≠ id := by
        rintro rfl
        exact h.consistent.known other (List.mem_append_left _ hother) hfresh
      change (s.setConnection id conn).connections other = some found at hat
      rw [Lifecycle.connections_setConnection_of_ne s hne] at hat
      exact h.listed other hother found hat
  | receive id msg =>
      obtain ⟨conn, hfound, hreceive, rfl⟩ := of_step_receive hstep
      refine @Living.set s _ id conn _ h hnext (List.Subset.refl _) rfl rfl
        hfound rfl fun _ hlives _ => ?_
      simp [Served.lives, hreceive] at hlives
      simp [Served.lives, hlives]
  | loop id env =>
      obtain ⟨conn, conn', hfound, htaken⟩ := of_step_loop hstep
      have hclients := clients_subset (htaken.registry.imp_left And.left)
      refine h.set hnext hclients htaken.listening htaken.connections hfound
        htaken.handler fun hmem hlives hhandler => ?_
      rcases htaken.registry with ⟨-, hunlock⟩ | registry
      · exact htaken.goes.lives htaken.usable hlives hhandler hunlock
      · rw [registry] at hmem
        exact absurd hmem (ServerClients.not_mem_clientDisconnected
          h.consistent.running id)
  | listen env => exact h.listen hnext hguard (taken_of_listen hstep)
  | cleanup => exact h.cleanUp hnext (taken_of_cleanUp hstep)

/-- In a run that only puts living clients on the list, no client on it has
lost its receive loop, whenever nothing is pending. -/
theorem noZombies {events : List LifecycleEvent} {final : Lifecycle}
    {outs : List Effect}
    (hrun : run Lifecycle.step {} events = some (final, outs))
    (hguard : AllSteps Lifecycle.step RegistersLiving {} events) :
    NoZombies final := by
  have h : Living final := run_keeps Living hrun hguard living_start
    fun h hok hstep => h.kept hok hstep
  intro id hid
  obtain ⟨conn, hconn⟩ := Option.ne_none_iff_exists'.mp
    (h.consistent.known id (List.mem_append_left _ hid))
  obtain ⟨hlives, -⟩ := h.listed id hid conn hconn
  refine ⟨conn, hconn, ?_⟩
  simp only [Served.lives, Bool.and_eq_true] at hlives
  refine ⟨hlives.1, fun hended => ?_⟩
  rw [hended] at hlives
  cases hlives.2

theorem noZombies_closed :
    ∃ final outs,
      run Lifecycle.step {} (registered [] true ++
        .receive 0 (some fssMessageClosed) :: loops 4) = some (final, outs) ∧
      NoZombies final := by
  refine ⟨_, _, rfl, ?_⟩
  apply @noZombies (registered [] true ++
    .receive 0 (some fssMessageClosed) :: loops 4)
  · rfl
  · decide

/-- The TLS setup of a connection fails. -/
def setupFails : List LifecycleEvent :=
  registered [] false

/-- The peer closes before the constructor stores the handler. -/
def closedEarly : List LifecycleEvent :=
  .accept 0 [] true :: .receive 0 (some fssMessageClosed) :: loops 2 ++
    List.replicate 9 (.listen ⟨emptyDb, 0⟩)

theorem zombies_setupFails_closedEarly :
    (∃ final outs,
      run Lifecycle.step {} setupFails = some (final, outs) ∧
      Settled final ∧ ¬ NoZombies final) ∧
    ∃ final outs,
      run Lifecycle.step {} closedEarly = some (final, outs) ∧
      Settled final ∧ ¬ NoZombies final := by
  refine ⟨⟨_, _, rfl, ⟨rfl, fun id conn h => ?_, rfl, rfl⟩, fun h => ?_⟩,
    ⟨_, _, rfl, ⟨rfl, fun id conn h => ?_, rfl, rfl⟩, fun h => ?_⟩⟩
  · cases id with
    | zero =>
        cases h
        exact .inr rfl
    | succ id => cases h
  · obtain ⟨conn, hconn, -, hreceiving⟩ := h 0 (by decide)
    cases hconn
    exact hreceiving rfl
  · cases id with
    | zero =>
        cases h
        exact .inr rfl
    | succ id => cases h
  · obtain ⟨conn, hconn, -, hreceiving⟩ := h 0 (by decide)
    cases hconn
    exact hreceiving rfl

end FlightSafety.Server
