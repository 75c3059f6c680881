/-
Code under a lock.  Any number of threads call it; a call waits for the lock,
runs its statements and gives the lock back with the last of them.  Other code
may change what is shared without taking the lock.  However the threads are
scheduled, they do what a single caller does that makes the calls one after
the other, in the order in which the lock was taken.
-/
import Mathlib.Data.List.Induction
import FlightSafety.Lib.Simulation

namespace Machine

/-! A lock that knows its holder. -/

/-- The lock is held by the one that is between taking and releasing it, and
there is no other. -/
def HeldBy {η : Type} (lock : Option η) (holds : η → Bool) : Prop :=
  ∀ holder, lock = some holder ↔ holds holder = true

namespace HeldBy

variable {η : Type} {lock : Option η} {holds holds' : η → Bool} {holder : η}

theorem congr (h : HeldBy lock holds) (hsame : holds' = holds) :
    HeldBy lock holds' := by
  rwa [hsame]

theorem take (h : HeldBy none holds) (hnow : holds' holder = true)
    (hothers : ∀ other, other ≠ holder → holds' other = holds other) :
    HeldBy (some holder) holds' := by
  intro other
  by_cases hother : other = holder
  · subst hother
    exact ⟨fun _ => hnow, fun _ => rfl⟩
  · rw [hothers other hother, ← h other]
    constructor
    · intro heq
      exact absurd (Option.some.inj heq).symm hother
    · intro hnone
      cases hnone

theorem release (h : HeldBy lock holds) (hheld : holds holder = true)
    (hnow : holds' holder = false)
    (hothers : ∀ other, other ≠ holder → holds' other = holds other) :
    HeldBy none holds' := by
  have hlock : lock = some holder := (h holder).mpr hheld
  subst hlock
  intro other
  constructor
  · intro hnone
    cases hnone
  · intro hother
    by_cases hsame : other = holder
    · rw [hsame, hnow] at hother
      cases hother
    · rw [hothers other hsame] at hother
      cases (h other).mpr hother
      exact absurd rfl hsame

end HeldBy

/-- Where a call with some arguments starts, what a statement does and where
the call goes on, and what happens outside the lock.  A statement is told what
it meets; a call that goes on nowhere is over. -/
structure Critical (σ ι κ α φ ω : Type) where
  enter : ι → κ
  act : σ → κ → α → Option ((σ × Option κ) × List ω)
  free : σ → φ → Option (σ × List ω)

variable {σ ι κ α φ ω τ : Type}

/-- One caller, with the place in the call it is making. -/
structure Solo (σ κ : Type) where
  shared : σ
  inside : Option κ := none
deriving DecidableEq

inductive SoloEvent (ι α φ : Type) where
  | enter (call : ι)
  | act (met : α)
  | free (change : φ)

/-- Threads, some of them waiting for the lock with a call and one perhaps
holding it. -/
structure Threads (σ ι κ τ : Type) where
  shared : σ
  waiting : τ → Option ι := fun _ => none
  holder : Option (τ × κ) := none

inductive ThreadsEvent (ι α φ τ : Type) where
  | call (thread : τ) (call : ι)
  | lock (thread : τ)
  | act (thread : τ) (met : α)
  | free (change : φ)

namespace Critical

def solo (c : Critical σ ι κ α φ ω) : Step (Solo σ κ) (SoloEvent ι α φ) ω
  | s, .enter call =>
      match s.inside with
      | some _ => none
      | none => some ({ s with inside := some (c.enter call) }, [])
  | s, .act met =>
      match s.inside with
      | none => none
      | some place =>
          match c.act s.shared place met with
          | none => none
          | some ((shared, inside), out) => some (⟨shared, inside⟩, out)
  | s, .free change =>
      match c.free s.shared change with
      | none => none
      | some (shared, out) => some ({ s with shared := shared }, out)

/-- A thread that neither waits nor holds the lock can call. -/
def threads [DecidableEq τ] (c : Critical σ ι κ α φ ω) :
    Step (Threads σ ι κ τ) (ThreadsEvent ι α φ τ) ω
  | s, .call thread call =>
      if s.waiting thread = none ∧ s.holder.map Prod.fst ≠ some thread then
        some ({ s with
          waiting := fun t => if t = thread then some call else s.waiting t },
          [])
      else none
  | s, .lock thread =>
      match s.holder, s.waiting thread with
      | none, some call =>
          some ({ s with
            waiting := fun t => if t = thread then none else s.waiting t
            holder := some (thread, c.enter call) }, [])
      | _, _ => none
  | s, .act thread met =>
      match s.holder with
      | none => none
      | some (holder, place) =>
          if holder = thread then
            match c.act s.shared place met with
            | none => none
            | some ((shared, inside), out) =>
                some ({ s with
                  shared := shared
                  holder := inside.map fun place => (thread, place) }, out)
          else none
  | s, .free change =>
      match c.free s.shared change with
      | none => none
      | some (shared, out) => some ({ s with shared := shared }, out)

variable {c : Critical σ ι κ α φ ω}

/-- All that a step of a single caller can be. -/
inductive SoloTaken (c : Critical σ ι κ α φ ω) (s : Solo σ κ) :
    SoloEvent ι α φ → Solo σ κ × List ω → Prop where
  | enter (call : ι) (outside : s.inside = none) :
      SoloTaken c s (.enter call) (⟨s.shared, some (c.enter call)⟩, [])
  | act (met : α) (place : κ) (shared : σ) (inside : Option κ) (out : List ω)
      (at_ : s.inside = some place)
      (acts : c.act s.shared place met = some ((shared, inside), out)) :
      SoloTaken c s (.act met) (⟨shared, inside⟩, out)
  | free (change : φ) (shared : σ) (out : List ω)
      (changes : c.free s.shared change = some (shared, out)) :
      SoloTaken c s (.free change) (⟨shared, s.inside⟩, out)

theorem soloTaken_of_step {s next : Solo σ κ} {e : SoloEvent ι α φ}
    {out : List ω} (h : c.solo s e = some (next, out)) :
    SoloTaken c s e (next, out) := by
  cases e with
  | enter call =>
      simp only [solo] at h
      split at h
      · cases h
      · cases h
        exact .enter call ‹_›
  | act met =>
      simp only [solo] at h
      split at h
      · cases h
      · split at h
        · cases h
        · cases h
          exact .act met _ _ _ _ ‹_› ‹_›
  | free change =>
      simp only [solo] at h
      split at h
      · cases h
      · cases h
        exact .free change _ _ ‹_›

/-- All that a step of the threads can be. -/
inductive ThreadsTaken [DecidableEq τ] (c : Critical σ ι κ α φ ω)
    (s : Threads σ ι κ τ) :
    ThreadsEvent ι α φ τ → Threads σ ι κ τ × List ω → Prop where
  | call (thread : τ) (call : ι) (idle : s.waiting thread = none) :
      ThreadsTaken c s (.call thread call)
        ({ s with
          waiting := fun t => if t = thread then some call else s.waiting t },
          [])
  | lock (thread : τ) (call : ι) (open_ : s.holder = none)
      (waits : s.waiting thread = some call) :
      ThreadsTaken c s (.lock thread)
        ({ s with
          waiting := fun t => if t = thread then none else s.waiting t
          holder := some (thread, c.enter call) }, [])
  | act (thread : τ) (met : α) (place : κ) (shared : σ) (inside : Option κ)
      (out : List ω) (holds : s.holder = some (thread, place))
      (acts : c.act s.shared place met = some ((shared, inside), out)) :
      ThreadsTaken c s (.act thread met)
        ({ s with
          shared := shared
          holder := inside.map fun place => (thread, place) }, out)
  | free (change : φ) (shared : σ) (out : List ω)
      (changes : c.free s.shared change = some (shared, out)) :
      ThreadsTaken c s (.free change) ({ s with shared := shared }, out)

theorem threadsTaken_of_step [DecidableEq τ] {s next : Threads σ ι κ τ}
    {e : ThreadsEvent ι α φ τ} {out : List ω}
    (h : c.threads s e = some (next, out)) :
    ThreadsTaken c s e (next, out) := by
  cases e with
  | call thread call =>
      simp only [threads] at h
      split at h
      next hidle =>
          cases h
          exact .call thread call hidle.1
      · cases h
  | lock thread =>
      simp only [threads] at h
      split at h
      · cases h
        exact .lock thread _ ‹_› ‹_›
      · cases h
  | act thread met =>
      simp only [threads] at h
      split at h
      · cases h
      · split at h
        next hholder =>
            subst hholder
            split at h
            · cases h
            · cases h
              exact .act _ met _ _ _ _ ‹_› ‹_›
        · cases h
  | free change =>
      simp only [threads] at h
      split at h
      · cases h
      · cases h
        exact .free change _ _ ‹_›

/-! A guard on the arguments of the calls, on what statements meet and on the
changes outside the lock. -/

/-- What is taken for granted of the calls and of what they meet. -/
structure Guard (σ ι κ α φ : Type) where
  call : ι → Prop
  act : σ → κ → α → Prop
  free : σ → φ → Prop

def Guard.solo (g : Guard σ ι κ α φ) (s : Solo σ κ) :
    SoloEvent ι α φ → Prop
  | .enter call => g.call call
  | .act met => ∀ place, s.inside = some place → g.act s.shared place met
  | .free change => g.free s.shared change

def Guard.threads (g : Guard σ ι κ α φ) (s : Threads σ ι κ τ) :
    ThreadsEvent ι α φ τ → Prop
  | .call _ call => g.call call
  | .lock _ => True
  | .act _ met => ∀ thread place, s.holder = some (thread, place) →
      g.act s.shared place met
  | .free change => g.free s.shared change

/-- The threads as the single caller sees them. -/
structure SeenAs (g : Guard σ ι κ α φ) (s : Threads σ ι κ τ)
    (s' : Solo σ κ) : Prop where
  shared : s'.shared = s.shared
  inside : s'.inside = s.holder.map Prod.snd
  waiting : ∀ thread call, s.waiting thread = some call → g.call call

theorem seenAs_start (g : Guard σ ι κ α φ) (shared : σ) :
    SeenAs g ({ shared := shared } : Threads σ ι κ τ) ⟨shared, none⟩ where
  shared := rfl
  inside := rfl
  waiting _ _ h := by cases h

/-- Threads under a lock do what a single caller does. -/
theorem threads_simulates_solo [DecidableEq τ] (c : Critical σ ι κ α φ ω)
    (g : Guard σ ι κ α φ) :
    Simulates (c.threads (τ := τ)) g.threads c.solo g.solo some (SeenAs g) := by
  rintro s ⟨shared', inside'⟩ e next out ⟨hshared, hinside, hwaiting⟩ hok hstep
  have htaken := threadsTaken_of_step hstep
  subst hshared hinside
  cases htaken with
  | call thread call hidle =>
      refine .hidden ⟨rfl, rfl, fun t i hi => ?_⟩ rfl
      dsimp only at hi
      split at hi
      · cases hi
        exact hok
      · exact hwaiting t i hi
  | lock thread call hopen hwaits =>
      have hoff : s.holder.map Prod.snd = none := by rw [hopen]; rfl
      apply Matched.one (.enter call) (hwaiting thread call hwaits)
      · simp only [solo, hoff]
        rfl
      · rfl
      · refine ⟨rfl, rfl, fun t i hi => ?_⟩
        dsimp only at hi
        split at hi
        · cases hi
        · exact hwaiting t i hi
  | act thread met place shared inside out hholds hacts =>
      have hat : s.holder.map Prod.snd = some place := by rw [hholds]; rfl
      apply Matched.one (.act met)
      · intro place' hplace'
        cases hat.symm.trans hplace'
        exact hok thread place hholds
      · simp only [solo, hat, hacts]
        rfl
      · exact List.filterMap_some
      · refine ⟨rfl, ?_, hwaiting⟩
        cases inside <;> rfl
  | free change shared out hchanges =>
      apply Matched.one (.free change) hok
      · simp only [solo, hchanges]
        rfl
      · exact List.filterMap_some
      · exact ⟨rfl, rfl, hwaiting⟩

/-! Where nothing is changed outside the lock, whole calls follow one
another. -/

/-- The statements of a call, until it is over. -/
def statements (c : Critical σ ι κ α φ ω) : Step (σ × Option κ) α ω
  | (_, none), _ => none
  | (s, some place), met => c.act s place met

/-- A call of a thread, with what its statements met. -/
structure Made (ι α τ : Type) where
  thread : τ
  call : ι
  mets : List α

/-- A whole call as one step. -/
def whole (c : Critical σ ι κ α φ ω) : Step σ (Made ι α τ) ω :=
  fun s made =>
    match run c.statements (s, some (c.enter made.call)) made.mets with
    | some ((s, none), out) => some (s, out)
    | _ => none

theorem whole_eq_some {s next : σ} {made : Made ι α τ} {out : List ω} :
    c.whole s made = some (next, out) ↔
      run c.statements (s, some (c.enter made.call)) made.mets =
        some ((next, none), out) := by
  unfold whole
  constructor
  · intro h
    split at h
    · next hrun =>
        cases h
        exact hrun
    · cases h
  · intro h
    simp only [h]

section
variable [DecidableEq τ]

/-- What a thread has called, in its order. -/
def calledBy (thread : τ) (events : List (ThreadsEvent ι α φ τ)) : List ι :=
  events.filterMap fun
    | .call t call => if t = thread then some call else none
    | _ => none

/-- What a thread has been given the lock for. -/
def madeBy (thread : τ) (made : List (Made ι α τ)) : List ι :=
  (made.filter (·.thread = thread)).map (·.call)

theorem calledBy_append (thread : τ)
    (first second : List (ThreadsEvent ι α φ τ)) :
    calledBy thread (first ++ second) =
      calledBy thread first ++ calledBy thread second :=
  List.filterMap_append

theorem calledBy_call (thread t : τ) (call : ι) :
    calledBy thread [(.call t call : ThreadsEvent ι α φ τ)] =
      if t = thread then [call] else [] := by
  by_cases h : t = thread <;> simp [calledBy, h]

theorem madeBy_append (thread : τ) (first second : List (Made ι α τ)) :
    madeBy thread (first ++ second) =
      madeBy thread first ++ madeBy thread second := by
  simp [madeBy]

theorem madeBy_singleton (thread : τ) (made : Made ι α τ) :
    madeBy thread [made] =
      if made.thread = thread then [made.call] else [] := by
  by_cases h : made.thread = thread <;> simp [madeBy, h]

/-- Whole calls have been made, one after the other, and perhaps the first
statements of one more.  They are the calls that the threads made, each thread
in its order, apart from those that wait. -/
inductive Serial (c : Critical σ ι κ α φ ω) (start : σ)
    (events : List (ThreadsEvent ι α φ τ)) :
    Threads σ ι κ τ → List ω → Prop where
  | between {made : List (Made ι α τ)} {shared : σ} {waiting : τ → Option ι}
      {outs : List ω} (hmade : run c.whole start made = some (shared, outs))
      (hcalls : ∀ t, calledBy t events = madeBy t made ++ (waiting t).toList) :
      Serial c start events ⟨shared, waiting, none⟩ outs
  | within {made : List (Made ι α τ)} {middle shared : σ}
      {waiting : τ → Option ι} {early late : List ω} {thread : τ} {call : ι}
      {mets : List α} {place : κ}
      (hmade : run c.whole start made = some (middle, early))
      (hrest : run c.statements (middle, some (c.enter call)) mets =
        some ((shared, some place), late))
      (hcalls : ∀ t, calledBy t events =
        madeBy t (made ++ [⟨thread, call, mets⟩]) ++ (waiting t).toList) :
      Serial c start events ⟨shared, waiting, some (thread, place)⟩
        (early ++ late)

/-- A call goes to the end of what its thread has called. -/
theorem calledBy_snoc_call {events : List (ThreadsEvent ι α φ τ)}
    {waiting : τ → Option ι} {made : τ → List ι}
    (h : ∀ t, calledBy t events = made t ++ (waiting t).toList) {thread : τ}
    (hidle : waiting thread = none) (call : ι) (t : τ) :
    calledBy t (events ++ [.call thread call]) =
      made t ++ (if t = thread then some call else waiting t).toList := by
  rw [calledBy_append, calledBy_call, h, List.append_assoc]
  congr 1
  by_cases ht : t = thread
  · subst ht
    simp [hidle]
  · rw [if_neg (Ne.symm ht), if_neg ht, List.append_nil]

theorem Serial.kept {start : σ} {events : List (ThreadsEvent ι α φ τ)}
    {s : Threads σ ι κ τ} {past : List ω} {e : ThreadsEvent ι α φ τ}
    {worked : Threads σ ι κ τ × List ω} (h : Serial c start events s past)
    (hlocked : ∀ s change, c.free s change = none)
    (htaken : ThreadsTaken c s e worked) :
    Serial c start (events ++ [e]) worked.1 (past ++ worked.2) := by
  cases htaken with
  | call thread call hidle =>
      rw [List.append_nil]
      cases h with
      | between hmade hcalls =>
          exact .between hmade (calledBy_snoc_call hcalls hidle call)
      | within hmade hrest hcalls =>
          exact .within hmade hrest (calledBy_snoc_call hcalls hidle call)
  | lock thread call hopen hwaits =>
      rw [List.append_nil]
      cases h with
      | @between made shared waiting _ hmade hcalls =>
          have hnext : ∀ t, calledBy t (events ++ [.lock thread]) =
              madeBy t (made ++ [⟨thread, call, []⟩]) ++
                (if t = thread then none else waiting t).toList := by
            intro t
            have hquiet : calledBy t
                [(.lock thread : ThreadsEvent ι α φ τ)] = [] := rfl
            rw [calledBy_append, hquiet, List.append_nil, hcalls,
              madeBy_append, madeBy_singleton]
            by_cases ht : t = thread
            · subst ht
              have hwaits' : waiting t = some call := hwaits
              simp [hwaits']
            · simp [ht, Ne.symm ht]
          rw [← List.append_nil past]
          exact .within hmade rfl hnext
      | within hmade hrest hcalls => cases hopen
  | act thread met place shared inside out hholds hacts =>
      cases h with
      | between hmade hcalls => cases hholds
      | @within made middle _ waiting early late _ call mets _ hmade hrest
          hcalls =>
          cases hholds
          have hmets : run c.statements (middle, some (c.enter call))
              (mets ++ [met]) = some ((shared, inside), late ++ out) := by
            apply run_append_eq_some.mpr
            refine ⟨_, late, out, hrest, ?_, rfl⟩
            apply run_cons_eq_some.mpr
            exact ⟨_, out, [], hacts, rfl, (List.append_nil out).symm⟩
          have hnext : ∀ t, calledBy t (events ++ [.act thread met]) =
              madeBy t (made ++ [⟨thread, call, mets ++ [met]⟩]) ++
                (waiting t).toList := by
            intro t
            have hquiet : calledBy t
                [(.act thread met : ThreadsEvent ι α φ τ)] = [] := rfl
            rw [calledBy_append, hquiet, List.append_nil, hcalls,
              madeBy_append, madeBy_append, madeBy_singleton,
              madeBy_singleton]
          rw [List.append_assoc]
          cases inside with
          | some next => exact .within hmade hmets hnext
          | none =>
              apply Serial.between _ hnext
              apply run_append_eq_some.mpr
              refine ⟨middle, early, late ++ out, hmade, ?_, rfl⟩
              apply run_cons_eq_some.mpr
              exact ⟨shared, late ++ out, [], whole_eq_some.mpr hmets, rfl,
                (List.append_nil _).symm⟩
  | free change shared out changes =>
      rw [hlocked] at changes
      cases changes

/-- What threads do under a lock, with nothing changed outside it, is whole
calls one after the other, and perhaps the first statements of the call of the
thread that holds the lock. -/
theorem threads_serial {start : σ}
    (hlocked : ∀ s change, c.free s change = none)
    {final : Threads σ ι κ τ} {events : List (ThreadsEvent ι α φ τ)}
    {outs : List ω}
    (hrun : run c.threads { shared := start } events = some (final, outs)) :
    Serial c start events final outs := by
  induction events using List.reverseRecOn generalizing final outs with
  | nil =>
      cases hrun
      exact @Serial.between _ _ _ _ _ _ _ _ c start [] [] start _ [] rfl
        fun _ => rfl
  | append_singleton events e ih =>
      obtain ⟨middle, early, late, hearly, hlate, rfl⟩ :=
        run_append_eq_some.mp hrun
      obtain ⟨next, out, later, hstep, hend, rfl⟩ := run_cons_eq_some.mp hlate
      cases hend
      rw [List.append_nil]
      exact (ih hearly).kept hlocked (threadsTaken_of_step hstep)

end

end Critical

end Machine
