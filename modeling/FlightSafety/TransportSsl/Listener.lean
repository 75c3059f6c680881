/-
The listening socket of the server.  The constructor of the base class starts
the thread that accepts connections and its destructor joins it, so that the
thread also runs before the derived class, which makes TLS connections, is
there, and after it has gone.
-/
import FlightSafety.Lib.Simulation
import FlightSafety.Server.Client
import FlightSafety.TransportSsl.Setup

namespace FlightSafety.TransportSsl

open Octets Machine

/-- Where the life of a `transport_ssl::fss_listen` is: in `startListening`,
after the constructor of the base class, with the members of the derived class
made one by one, in use, with the members gone, and in the destructor of the
base class. -/
inductive LifeAt where
  | opening
  | binding
  | listening
  | starting
  | baseMade
  | membersMade
  | inUse
  | membersGone
  | baseLeft
  | closing
  | joining
  | gone
deriving Repr, DecidableEq

/-- A connection that `newConnection` makes.  Nothing is known of one that is
made by the derived class without its members. -/
inductive Made where
  | plain (fd : Int)
  | tls (fd : Int) (files : Files)
  | undefined (fd : Int)

/-- Where the accepting thread is. -/
inductive ThreadAt where
  | none
  | test
  | load
  | accept (fd : Int)
  | newConnection (fd : Int)
  | callBack (made : Made)
  | ended

structure Listener where
  life : LifeAt := .opening
  fd : Int := -1
  /-- The socket is bound and listens. -/
  listens : Bool := false
  thread : ThreadAt := .none

/-- What `accept` returns: a descriptor, `EBADF` or another error. -/
inductive Accepted where
  | connection (fd : Int)
  | badFd
  | failed

/-- A step of the thread that owns the listener, with what a system call in it
returns, or of the accepting thread. -/
inductive ListenerEvent where
  | live (ret : Int)
  | thread
  | accept (accepted : Accepted)

inductive ListenerOutput where
  | made (made : Made)
  | handed (made : Made)
  | closed (fd : Int)

/-- Which `newConnection` is called depends on how far the object is made. -/
def LifeAt.newConnection (files : Files) : LifeAt → Int → Made
  | .inUse, fd => .tls fd files
  | .membersMade, fd | .membersGone, fd => .undefined fd
  | _, fd => .plain fd

namespace Listener

/-- The next step of the constructor or of the destructor.  What
`startListening` returns is not looked at. -/
def live (s : Listener) (ret : Int) : Option Listener :=
  match s.life with
  | .opening => some { s with fd := ret, life := .binding }
  | .binding =>
      if s.fd < 0 ∨ ret < 0 then some { s with life := .baseMade }
      else some { s with life := .listening }
  | .listening =>
      if ret < 0 then some { s with life := .baseMade }
      else some { s with listens := true, life := .starting }
  | .starting => some { s with thread := .test, life := .baseMade }
  | .baseMade => some { s with life := .membersMade }
  | .membersMade => some { s with life := .inUse }
  | .inUse => some { s with life := .membersGone }
  | .membersGone => some { s with life := .baseLeft }
  | .baseLeft =>
      if s.fd ≠ -1 then some { s with fd := -1, life := .closing }
      else some { s with life := .joining }
  | .closing => some { s with listens := false, life := .joining }
  | .joining =>
      match s.thread with
      | .none | .ended => some { s with life := .gone }
      | _ => none
  | .gone => none

/-- The next step of the accepting thread, apart from `accept`. -/
def goOn (files : Files) (s : Listener) :
    Option (Listener × List ListenerOutput) :=
  match s.thread with
  | .test =>
      if s.fd ≥ 0 then some ({ s with thread := .load }, [])
      else some ({ s with thread := .ended }, [])
  | .load => some ({ s with thread := .accept s.fd }, [])
  | .newConnection fd =>
      let made := s.life.newConnection files fd
      some ({ s with thread := .callBack made }, [.made made])
  | .callBack made => some ({ s with thread := .test }, [.handed made])
  | .none | .accept _ | .ended => none

/-- `accept` gets a connection as long as the socket listens, and is told that
the descriptor is bad when it is closed or none.  Without a callback the
connection is closed. -/
def accepts (callback : Bool) (s : Listener) (accepted : Accepted) :
    Option (Listener × List ListenerOutput) :=
  match s.thread, accepted with
  | .accept fd, .connection newfd =>
      if fd ≥ 0 ∧ s.listens = true then
        if callback then some ({ s with thread := .newConnection newfd }, [])
        else some ({ s with thread := .test }, [.closed newfd])
      else none
  | .accept fd, .badFd =>
      if fd < 0 ∨ s.listens = false then some ({ s with thread := .ended }, [])
      else none
  | .accept _, .failed => some ({ s with thread := .test }, [])
  | _, _ => none

def step (files : Files) (callback : Bool) :
    Step Listener ListenerEvent ListenerOutput
  | s, .live ret => (s.live ret).map fun next => (next, [])
  | s, .thread => s.goOn files
  | s, .accept accepted => s.accepts callback accepted

end Listener

/-- The descriptors that were accepted. -/
def acceptedFds (events : List ListenerEvent) : List Int :=
  events.filterMap fun
    | .accept (.connection fd) => some fd
    | _ => none

def Made.fd : Made → Int
  | .plain fd | .tls fd _ | .undefined fd => fd

/-- The descriptors that were handed to the callback or closed. -/
def doneFds (outs : List ListenerOutput) : List Int :=
  outs.filterMap fun
    | .made _ => none
    | .handed made => some made.fd
    | .closed fd => some fd

/-- The descriptor that the accepting thread has in hand. -/
def ThreadAt.pending : ThreadAt → List Int
  | .newConnection fd => [fd]
  | .callBack made => [made.fd]
  | _ => []

/-- Steps of the owner that are left before it joins the accepting thread. -/
def LifeAt.left : LifeAt → Nat
  | .opening => 10
  | .binding => 9
  | .listening => 8
  | .starting => 7
  | .baseMade => 6
  | .membersMade => 5
  | .inUse => 4
  | .membersGone => 3
  | .baseLeft => 2
  | .closing => 1
  | .joining | .gone => 0

section
variable {files : Files} {callback : Bool} {s next : Listener}

theorem fd_newConnection (files : Files) (life : LifeAt) (fd : Int) :
    (life.newConnection files fd).fd = fd := by
  cases life <;> rfl

/-- All that a step of the accepting thread can be. -/
inductive ThreadTaken (files : Files) (callback : Bool) (s : Listener) :
    ListenerEvent → ThreadAt → List ListenerOutput → Prop where
  | tested (place : s.thread = .test) (isOpen : 0 ≤ s.fd) :
      ThreadTaken files callback s .thread .load []
  | ended (place : s.thread = .test) (isClosed : s.fd < 0) :
      ThreadTaken files callback s .thread .ended []
  | loaded (place : s.thread = .load) :
      ThreadTaken files callback s .thread (.accept s.fd) []
  | made (fd : Int) (place : s.thread = .newConnection fd) :
      ThreadTaken files callback s .thread
        (.callBack (s.life.newConnection files fd))
        [.made (s.life.newConnection files fd)]
  | handed (made : Made) (place : s.thread = .callBack made) :
      ThreadTaken files callback s .thread .test [.handed made]
  | accepted (fd newfd : Int) (place : s.thread = .accept fd)
      (called : callback = true) :
      ThreadTaken files callback s (.accept (.connection newfd))
        (.newConnection newfd) []
  | closed (fd newfd : Int) (place : s.thread = .accept fd)
      (uncalled : callback = false) :
      ThreadTaken files callback s (.accept (.connection newfd)) .test
        [.closed newfd]
  | badFd (fd : Int) (place : s.thread = .accept fd) :
      ThreadTaken files callback s (.accept .badFd) .ended []
  | failed (fd : Int) (place : s.thread = .accept fd) :
      ThreadTaken files callback s (.accept .failed) .test []

theorem threadTaken_of_goOn {out : List ListenerOutput}
    (h : s.goOn files = some (next, out)) :
    ∃ thread, next = { s with thread := thread } ∧
      ThreadTaken files callback s .thread thread out := by
  unfold Listener.goOn at h
  split at h
  · next hplace =>
      split at h
      · next hopen =>
          cases h
          exact ⟨_, rfl, .tested hplace hopen⟩
      · next hclosed =>
          cases h
          exact ⟨_, rfl, .ended hplace (not_le.mp hclosed)⟩
  · next hplace =>
      cases h
      exact ⟨_, rfl, .loaded hplace⟩
  · next fd hplace =>
      cases h
      exact ⟨_, rfl, .made fd hplace⟩
  · next made hplace =>
      cases h
      exact ⟨_, rfl, .handed made hplace⟩
  · cases h
  · cases h
  · cases h

theorem threadTaken_of_accepts {accepted : Accepted}
    {out : List ListenerOutput}
    (h : s.accepts callback accepted = some (next, out)) :
    ∃ thread, next = { s with thread := thread } ∧
      ThreadTaken files callback s (.accept accepted) thread out := by
  unfold Listener.accepts at h
  split at h
  · next fd newfd hplace =>
      split at h
      · split at h
        · next hcalled =>
            cases h
            exact ⟨_, rfl, .accepted fd newfd hplace hcalled⟩
        · next huncalled =>
            cases h
            exact ⟨_, rfl, .closed fd newfd hplace (by simpa using huncalled)⟩
      · cases h
  · next fd hplace =>
      split at h <;> cases h
      exact ⟨_, rfl, .badFd fd hplace⟩
  · next fd hplace =>
      cases h
      exact ⟨_, rfl, .failed fd hplace⟩
  · cases h

/-- The accepting thread and what it is about to do are not the business of
the thread that owns the listener. -/
theorem thread_of_live {ret : Int} (h : s.live ret = some next) :
    next.thread = s.thread ∨ s.life = .starting ∧ next.thread = .test := by
  unfold Listener.live at h
  split at h
  case h_4 hplace =>
    cases h
    exact .inr ⟨hplace, rfl⟩
  all_goals
    repeat' split at h
    all_goals
      cases h
    all_goals
      exact .inl rfl

theorem ThreadTaken.fds {e : ListenerEvent} {thread : ThreadAt}
    {out : List ListenerOutput}
    (h : ThreadTaken files callback s e thread out) :
    s.thread.pending ++ acceptedFds [e] = doneFds out ++ thread.pending := by
  cases h with
  | tested place | ended place | loaded place => rw [place]; rfl
  | handed made place => rw [place]; rfl
  | accepted fd newfd place | closed fd newfd place => rw [place]; rfl
  | badFd fd place | failed fd place => rw [place]; rfl
  | made fd place =>
      rw [place]
      change [fd] = [(s.life.newConnection files fd).fd]
      rw [fd_newConnection]

/-- Where the listener is in its life says what has been set up. -/
def Listener.Founded (s : Listener) : Prop :=
  match s.life with
  | .opening | .binding => s.listens = false ∧ s.thread = .none
  | .listening => s.listens = false ∧ s.thread = .none ∧ 0 ≤ s.fd
  | .starting => s.thread = .none ∧ 0 ≤ s.fd
  | .baseMade | .membersMade | .inUse | .membersGone | .baseLeft =>
      s.listens = true → 0 ≤ s.fd
  | .closing => s.fd = -1
  | .joining => s.fd = -1 ∧ s.listens = false
  | .gone =>
      s.fd = -1 ∧ s.listens = false ∧
        (s.thread = .none ∨ s.thread = .ended)

namespace Listener

theorem founded_start : Founded {} := ⟨rfl, rfl⟩

theorem Founded.thread_of_starting (h : s.Founded)
    (hlife : s.life = .starting) : s.thread = .none := by
  rw [Founded, hlife] at h
  exact h.1

theorem Founded.live {ret : Int} (h : s.Founded)
    (hstep : s.live ret = some next) : next.Founded := by
  obtain ⟨life, fd, listens, thread⟩ := s
  cases life with
  | opening =>
      cases hstep
      exact h
  | binding =>
      simp only [Listener.live] at hstep
      split at hstep
      · cases hstep
        intro hlistens
        rw [h.1] at hlistens
        cases hlistens
      · next hbound =>
          cases hstep
          exact ⟨h.1, h.2, not_lt.mp fun hfd => hbound (.inl hfd)⟩
  | listening =>
      simp only [Listener.live] at hstep
      split at hstep <;> cases hstep
      · exact fun _ => h.2.2
      · exact ⟨h.2.1, h.2.2⟩
  | starting =>
      cases hstep
      exact fun _ => h.2
  | baseMade | membersMade | inUse | membersGone =>
      cases hstep
      exact h
  | baseLeft =>
      simp only [Listener.live] at hstep
      split at hstep
      · cases hstep
        rfl
      · next hnone =>
          cases hstep
          have hfd : fd = -1 := by simpa using hnone
          refine ⟨hfd, ?_⟩
          by_contra hlistens
          have hopen : 0 ≤ fd := h (by simpa using hlistens)
          omega
  | closing =>
      cases hstep
      exact ⟨h, rfl⟩
  | joining =>
      simp only [Listener.live] at hstep
      split at hstep
      · next hthread =>
          cases hstep
          exact ⟨h.1, h.2, .inl rfl⟩
      · next hthread =>
          cases hstep
          exact ⟨h.1, h.2, .inr rfl⟩
      · cases hstep
  | gone => cases hstep

/-- A thread that takes a step has been started and has not ended. -/
theorem runs_of_taken {e : ListenerEvent} {thread : ThreadAt}
    {out : List ListenerOutput}
    (h : ThreadTaken files callback s e thread out) :
    s.thread ≠ .none ∧ s.thread ≠ .ended := by
  cases h with
  | tested place | ended place | loaded place => simp [place]
  | made fd place => simp [place]
  | handed made place => simp [place]
  | accepted fd newfd place | closed fd newfd place => simp [place]
  | badFd fd place | failed fd place => simp [place]

theorem Founded.thread {e : ListenerEvent} {thread : ThreadAt}
    {out : List ListenerOutput} (h : s.Founded)
    (htaken : ThreadTaken files callback s e thread out) :
    Founded { s with thread := thread } := by
  obtain ⟨hstarted, hnotEnded⟩ := runs_of_taken htaken
  obtain ⟨life, fd, listens, thread'⟩ := s
  cases life with
  | opening | binding => exact absurd h.2 hstarted
  | listening => exact absurd h.2.1 hstarted
  | starting => exact absurd h.1 hstarted
  | baseMade | membersMade | inUse | membersGone | baseLeft => exact h
  | closing => exact h
  | joining => exact h
  | gone => exact absurd h.2.2 (not_or.mpr ⟨hstarted, hnotEnded⟩)

/-- A step is one of the owner of the listener or one of its thread. -/
theorem taken_of_step {e : ListenerEvent} {out : List ListenerOutput}
    (h : s.step files callback e = some (next, out)) :
    (∃ ret, e = .live ret ∧ out = [] ∧ s.live ret = some next) ∨
      ∃ thread, next = { s with thread := thread } ∧
        ThreadTaken files callback s e thread out := by
  cases e with
  | live ret =>
      obtain ⟨_, hlive, heq⟩ := Option.map_eq_some_iff.mp h
      cases heq
      exact .inl ⟨ret, rfl, rfl, hlive⟩
  | thread => exact .inr (threadTaken_of_goOn h)
  | accept accepted => exact .inr (threadTaken_of_accepts h)

theorem Founded.kept {e : ListenerEvent} {out : List ListenerOutput}
    (h : s.Founded) (hstep : s.step files callback e = some (next, out)) :
    next.Founded := by
  rcases taken_of_step hstep with ⟨ret, -, -, hlive⟩ | ⟨thread, rfl, htaken⟩
  · exact h.live hlive
  · exact h.thread htaken

/-- A descriptor that is taken in hand stays there until it is done. -/
theorem Founded.fds {e : ListenerEvent} {out : List ListenerOutput}
    (h : s.Founded) (hstep : s.step files callback e = some (next, out)) :
    s.thread.pending ++ acceptedFds [e] =
      doneFds out ++ next.thread.pending := by
  rcases taken_of_step hstep with ⟨ret, rfl, rfl, hlive⟩ |
    ⟨thread, rfl, htaken⟩
  · have hsame : next.thread.pending = s.thread.pending := by
      rcases thread_of_live hlive with hthread | ⟨hlife, hthread⟩
      · rw [hthread]
      · rw [hthread, h.thread_of_starting hlife]
        rfl
    rw [hsame]
    exact List.append_nil _
  · exact htaken.fds

theorem Founded.fds_of_run {events : List ListenerEvent} {outs : List ListenerOutput}
    (h : s.Founded)
    (hrun : run (Listener.step files callback) s events = some (next, outs)) :
    s.thread.pending ++ acceptedFds events =
      doneFds outs ++ next.thread.pending := by
  induction events generalizing s outs with
  | nil =>
      cases hrun
      exact List.append_nil _
  | cons e events ih =>
      obtain ⟨middle, out, later, hstep, hlater, rfl⟩ :=
        run_cons_eq_some.mp hrun
      have hfirst := h.fds hstep
      have hrest := ih (h.kept hstep) hlater
      calc s.thread.pending ++ acceptedFds (e :: events)
          = s.thread.pending ++ (acceptedFds [e] ++ acceptedFds events) := by
            rw [acceptedFds, acceptedFds, acceptedFds, ← List.filterMap_append]
            rfl
        _ = doneFds out ++ (middle.thread.pending ++ acceptedFds events) := by
            rw [← List.append_assoc, hfirst, List.append_assoc]
        _ = doneFds (out ++ later) ++ next.thread.pending := by
            rw [hrest, doneFds, doneFds, doneFds, List.filterMap_append,
              List.append_assoc]

/-- Until it joins the thread, nothing keeps the owner waiting. -/
theorem exists_live (hleft : s.life.left ≠ 0) :
    ∃ next, s.live (-1) = some next ∧ next.life.left < s.life.left := by
  obtain ⟨life, fd, listens, thread⟩ := s
  cases life with
  | opening => exact ⟨_, rfl, by simp [LifeAt.left]⟩
  | binding =>
      have hfailed : fd < 0 ∨ (-1 : Int) < 0 := .inr (by decide)
      exact ⟨_, if_pos hfailed, by simp [LifeAt.left]⟩
  | listening | starting => exact ⟨_, rfl, by simp [LifeAt.left]⟩
  | baseMade | membersMade => exact ⟨_, rfl, by simp [LifeAt.left]⟩
  | inUse | membersGone => exact ⟨_, rfl, by simp [LifeAt.left]⟩
  | baseLeft =>
      by_cases hfd : fd = -1
      · exact ⟨_, if_neg (not_not.mpr hfd), by simp [LifeAt.left]⟩
      · exact ⟨_, if_pos hfd, by simp [LifeAt.left]⟩
  | closing => exact ⟨_, rfl, by simp [LifeAt.left]⟩
  | joining | gone => exact absurd rfl hleft

theorem canReach_noneLeft (s : Listener) :
    ∃ next, CanReach (Listener.step files callback) s next ∧
      next.life.left = 0 := by
  generalize hcount : s.life.left = count
  induction count using Nat.strongRecOn generalizing s with
  | ind count ih =>
      by_cases hleft : s.life.left = 0
      · exact ⟨s, .refl s, hleft⟩
      · obtain ⟨middle, hlive, hless⟩ := exists_live hleft
        rw [hcount] at hless
        obtain ⟨next, hreach, hnone⟩ := ih _ hless middle rfl
        have hstep : s.step files callback (.live (-1)) = some (middle, []) := by
          rw [Listener.step, hlive, Option.map_some]
        exact ⟨next, .first _ hstep hreach, hnone⟩

/-- Once the descriptor is taken away the thread comes to its end. -/
theorem canEnd_thread {life : LifeAt} {thread : ThreadAt}
    (hstarted : thread ≠ .none) :
    CanReach (Listener.step files callback) ⟨life, -1, false, thread⟩
      ⟨life, -1, false, .ended⟩ := by
  have htest : CanReach (Listener.step files callback)
      ⟨life, -1, false, .test⟩ ⟨life, -1, false, .ended⟩ :=
    .first .thread rfl (.refl _)
  have hcallBack (made : Made) : CanReach (Listener.step files callback)
      ⟨life, -1, false, .callBack made⟩ ⟨life, -1, false, .ended⟩ :=
    .first .thread rfl htest
  have haccept (fd : Int) : CanReach (Listener.step files callback)
      ⟨life, -1, false, .accept fd⟩ ⟨life, -1, false, .ended⟩ :=
    .first (.accept .failed) rfl htest
  cases thread with
  | none => exact absurd rfl hstarted
  | test => exact htest
  | load => exact .first .thread rfl (haccept (-1))
  | accept fd => exact haccept fd
  | newConnection fd => exact .first .thread rfl (hcallBack _)
  | callBack made => exact hcallBack made
  | ended => exact .refl _

theorem Founded.canReach_gone (h : s.Founded) :
    ∃ final, CanReach (Listener.step files callback) s final ∧
      final.life = .gone := by
  obtain ⟨next, hreach, hnone⟩ : ∃ next,
      CanReach (Listener.step files callback) s next ∧ next.life.left = 0 :=
    canReach_noneLeft s
  have hnext : next.Founded := hreach.keeps Founded h fun h hstep => h.kept hstep
  obtain ⟨life, fd, listens, thread⟩ := next
  cases life with
  | joining =>
      obtain ⟨rfl, rfl⟩ := hnext
      by_cases hstarted : thread = .none
      · subst hstarted
        exact ⟨⟨.gone, -1, false, .none⟩,
          hreach.trans (.first (.live 0) rfl (.refl _)), rfl⟩
      · have hended : CanReach (Listener.step files callback)
            ⟨.joining, -1, false, thread⟩ ⟨.joining, -1, false, .ended⟩ :=
          canEnd_thread hstarted
        exact ⟨⟨.gone, -1, false, .ended⟩,
          hreach.trans (hended.trans (.first (.live 0) rfl (.refl _))), rfl⟩
  | gone => exact ⟨_, hreach, rfl⟩
  | opening | binding | listening | starting => cases hnone
  | baseMade | membersMade | inUse => cases hnone
  | membersGone | baseLeft | closing => cases hnone

/-- Nothing runs on a listener that has gone. -/
theorem Founded.step_gone (h : s.Founded) (hgone : s.life = .gone)
    (e : ListenerEvent) : s.step files callback e = none := by
  obtain ⟨life, fd, listens, thread⟩ := s
  cases hgone
  obtain ⟨-, -, hthread⟩ := h
  rcases hthread with rfl | rfl
  · cases e with
    | live | thread | accept => rfl
  · cases e with
    | live | thread | accept => rfl

theorem Founded.pending_gone (h : s.Founded) (hgone : s.life = .gone) :
    s.thread.pending = [] := by
  rw [Founded, hgone] at h
  rcases h.2.2 with hthread | hthread
  · rw [hthread]
    rfl
  · rw [hthread]
    rfl

theorem founded_of_run {events : List ListenerEvent}
    {outs : List ListenerOutput}
    (hrun : run (Listener.step files callback) {} events = some (s, outs)) :
    s.Founded :=
  CanReach.keeps ⟨outs, events, hrun⟩ Founded founded_start
    fun h hstep => h.kept hstep

end Listener

/-- A socket is opened, bound and listens, and the thread starts. -/
def startedListening : List ListenerEvent :=
  [.live 3, .live 0, .live 0, .live 0, .thread, .thread]

/-- A client comes before the listener is destroyed. -/
def lateClient : List ListenerEvent :=
  startedListening ++ [.live 0, .live 0, .accept (.connection 7), .thread] ++
    [.live 0, .live 0, .live 0, .live 0, .thread, .thread, .live 0]

/-- In every run of a listener, its destructor can still come to an end.  Once
it has, nothing runs and no accepted connection is left over. -/
theorem listener_ends {events : List ListenerEvent} {s : Listener}
    {outs : List ListenerOutput}
    (hrun : run (Listener.step files callback) {} events = some (s, outs)) :
    (∃ final, CanReach (Listener.step files callback) s final ∧
      final.life = .gone) ∧
    (s.life = .gone → s.fd = -1 ∧ acceptedFds events = doneFds outs ∧
      ∀ e, s.step files callback e = none) := by
  have hfounded : s.Founded := Listener.founded_of_run hrun
  refine ⟨hfounded.canReach_gone, fun hgone => ⟨?_, ?_, ?_⟩⟩
  · rw [Listener.Founded, hgone] at hfounded
    exact hfounded.1
  · have hfds : [] ++ acceptedFds events =
        doneFds outs ++ s.thread.pending :=
      Listener.founded_start.fds_of_run hrun
    rw [hfounded.pending_gone hgone, List.append_nil] at hfds
    exact hfds
  · exact hfounded.step_gone hgone

/-- The destructor ends while a connection is being handed to the callback. -/
theorem listener_ends_lateClient :
    acceptedFds lateClient = [7] ∧
      ∀ e, Listener.step ⟨[], [], []⟩ true ⟨.gone, -1, false, .ended⟩ e =
        none := by
  have hrun : run (Listener.step ⟨[], [], []⟩ true) {} lateClient =
      some (⟨.gone, -1, false, .ended⟩,
        [.made (.tls 7 ⟨[], [], []⟩), .handed (.tls 7 ⟨[], [], []⟩)]) := rfl
  obtain ⟨-, hgone⟩ := listener_ends hrun
  obtain ⟨-, hfds, hnone⟩ := hgone rfl
  exact ⟨hfds, hnone⟩

end

end FlightSafety.TransportSsl
