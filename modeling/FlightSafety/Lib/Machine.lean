/-
Machines that take events and emit outputs.  A step may be refused; a run is
a list of events each of which was taken.  A guard on the steps of a run is a
predicate on the state before a step and its event.
-/
import Mathlib.Data.List.Basic

namespace Machine

variable {σ ε ω : Type}

/-- What an event does to a state and what it emits, if it can happen. -/
abbrev Step (σ ε ω : Type) := σ → ε → Option (σ × List ω)

/-- The state after a list of events and all that they emitted. -/
def run (step : Step σ ε ω) : σ → List ε → Option (σ × List ω)
  | s, [] => some (s, [])
  | s, e :: events =>
      match step s e with
      | none => none
      | some (next, out) =>
          match run step next events with
          | none => none
          | some (final, outs) => some (final, out ++ outs)

/-- Every step of a run starts in a state that the guard admits for it. -/
def AllSteps (step : Step σ ε ω) (ok : σ → ε → Prop) : σ → List ε → Prop
  | _, [] => True
  | s, e :: events =>
      ok s e ∧ ∀ next out, step s e = some (next, out) →
        AllSteps step ok next events

variable {step : Step σ ε ω} {ok : σ → ε → Prop}

/-- A guard that can be decided can be decided for all the steps of a run. -/
instance decidableAllSteps [∀ s e, Decidable (ok s e)] :
    (s : σ) → (events : List ε) → Decidable (AllSteps step ok s events)
  | _, [] => .isTrue trivial
  | s, e :: events =>
      match hstep : step s e with
      | none => decidable_of_iff (ok s e) (by simp [AllSteps, hstep])
      | some (next, out) =>
          have := decidableAllSteps next events
          decidable_of_iff (ok s e ∧ AllSteps step ok next events)
            (by simp [AllSteps, hstep])

theorem run_cons_eq_some {s final : σ} {e : ε} {events : List ε}
    {outs : List ω} :
    run step s (e :: events) = some (final, outs) ↔
      ∃ next out later, step s e = some (next, out) ∧
        run step next events = some (final, later) ∧ outs = out ++ later := by
  constructor
  · intro h
    rw [run] at h
    split at h
    next hstep => cases h
    next next out hstep =>
        split at h
        next hrun => cases h
        next final' later hrun =>
            cases h
            exact ⟨next, out, later, hstep, hrun, rfl⟩
  · rintro ⟨next, out, later, hstep, hrun, rfl⟩
    simp only [run, hstep, hrun]

theorem run_append_eq_some {s final : σ} {first second : List ε}
    {outs : List ω} :
    run step s (first ++ second) = some (final, outs) ↔
      ∃ middle early late, run step s first = some (middle, early) ∧
        run step middle second = some (final, late) ∧
        outs = early ++ late := by
  induction first generalizing s outs with
  | nil =>
      constructor
      · exact fun h => ⟨s, [], outs, rfl, h, rfl⟩
      · rintro ⟨middle, early, late, hfirst, hsecond, rfl⟩
        cases hfirst
        exact hsecond
  | cons e events ih =>
      rw [List.cons_append, run_cons_eq_some]
      constructor
      · rintro ⟨next, out, later, hstep, hrun, rfl⟩
        obtain ⟨middle, early, late, hfirst, hsecond, rfl⟩ := ih.mp hrun
        refine ⟨middle, out ++ early, late, ?_, hsecond, by simp⟩
        exact run_cons_eq_some.mpr ⟨next, out, early, hstep, hfirst, rfl⟩
      · rintro ⟨middle, early, late, hfirst, hsecond, rfl⟩
        obtain ⟨next, out, later, hstep, hrun, rfl⟩ :=
          run_cons_eq_some.mp hfirst
        refine ⟨next, out, later ++ late, hstep, ?_, by simp⟩
        exact ih.mpr ⟨middle, later, late, hrun, hsecond, rfl⟩

/-- Some run leads from a state to another and emits the given outputs. -/
def Leads (step : Step σ ε ω) (s : σ) (outs : List ω) (final : σ) : Prop :=
  ∃ events, run step s events = some (final, outs)

theorem Leads.refl (s : σ) : Leads step s [] s :=
  ⟨[], rfl⟩

theorem Leads.cons {s next final : σ} (e : ε) {out outs : List ω}
    (hstep : step s e = some (next, out)) (h : Leads step next outs final) :
    Leads step s (out ++ outs) final := by
  obtain ⟨events, hrun⟩ := h
  exact ⟨e :: events, run_cons_eq_some.mpr ⟨next, out, outs, hstep, hrun, rfl⟩⟩

/-- A step that emits nothing. -/
theorem Leads.quiet {s next final : σ} (e : ε) {outs : List ω}
    (hstep : step s e = some (next, [])) (h : Leads step next outs final) :
    Leads step s outs final :=
  Leads.cons e hstep h

theorem Leads.trans {s middle final : σ} {early late : List ω}
    (h : Leads step s early middle) (h' : Leads step middle late final) :
    Leads step s (early ++ late) final := by
  obtain ⟨first, hfirst⟩ := h
  obtain ⟨second, hsecond⟩ := h'
  exact ⟨first ++ second,
    run_append_eq_some.mpr ⟨middle, early, late, hfirst, hsecond, rfl⟩⟩

/-- What holds at first and is kept, together with the outputs so far, by
every step its guard admits, holds after every run of such steps. -/
theorem run_invariant (Inv : σ → List ω → Prop) {s final : σ}
    {past outs : List ω} {events : List ε}
    (hrun : run step s events = some (final, outs))
    (hguard : AllSteps step ok s events) (hstart : Inv s past)
    (hkept : ∀ {s past e next out}, Inv s past → ok s e →
      step s e = some (next, out) → Inv next (past ++ out)) :
    Inv final (past ++ outs) := by
  induction events generalizing s past outs with
  | nil =>
      cases hrun
      rwa [List.append_nil]
  | cons e events ih =>
      obtain ⟨next, out, later, hstep, hlater, rfl⟩ :=
        run_cons_eq_some.mp hrun
      rw [← List.append_assoc]
      exact ih hlater (hguard.2 next out hstep) (hkept hstart hguard.1 hstep)

theorem allSteps_true (s : σ) (events : List ε) :
    AllSteps step (fun _ _ => True) s events := by
  induction events generalizing s with
  | nil => trivial
  | cons e events ih => exact ⟨trivial, fun next _ _ => ih next⟩

theorem AllSteps.imp {ok' : σ → ε → Prop} (himp : ∀ s e, ok s e → ok' s e)
    {s : σ} {events : List ε} (h : AllSteps step ok s events) :
    AllSteps step ok' s events := by
  induction events generalizing s with
  | nil => trivial
  | cons e events ih =>
      exact ⟨himp s e h.1, fun next out hstep => ih (h.2 next out hstep)⟩

/-- A guard that looks at the events alone. -/
theorem allSteps_of_forall_mem {P : ε → Prop} {events : List ε}
    (h : ∀ e ∈ events, P e) (s : σ) :
    AllSteps step (fun _ e => P e) s events := by
  induction events generalizing s with
  | nil => trivial
  | cons e events ih =>
      rw [List.forall_mem_cons] at h
      exact ⟨h.1, fun next _ _ => ih h.2 next⟩

/-- The rule for a machine whose every step keeps the invariant. -/
theorem run_invariant_always (Inv : σ → List ω → Prop) {s final : σ}
    {past outs : List ω} {events : List ε}
    (hrun : run step s events = some (final, outs)) (hstart : Inv s past)
    (hkept : ∀ {s past e next out}, Inv s past →
      step s e = some (next, out) → Inv next (past ++ out)) :
    Inv final (past ++ outs) :=
  run_invariant Inv hrun (allSteps_true s events) hstart
    fun hinv _ hstep => hkept hinv hstep

/-- The two rules for an invariant that does not look at the outputs. -/
theorem run_keeps (Inv : σ → Prop) {s final : σ} {events : List ε}
    {outs : List ω} (hrun : run step s events = some (final, outs))
    (hguard : AllSteps step ok s events) (hstart : Inv s)
    (hkept : ∀ {s e next out}, Inv s → ok s e →
      step s e = some (next, out) → Inv next) : Inv final :=
  @run_invariant σ ε ω step ok (fun s _ => Inv s) s final [] outs events hrun
    hguard hstart fun hinv hok hstep => hkept hinv hok hstep

theorem run_keeps_always (Inv : σ → Prop) {s final : σ} {events : List ε}
    {outs : List ω} (hrun : run step s events = some (final, outs))
    (hstart : Inv s)
    (hkept : ∀ {s e next out}, Inv s → step s e = some (next, out) →
      Inv next) : Inv final :=
  run_keeps Inv hrun (allSteps_true s events) hstart
    fun hinv _ hstep => hkept hinv hstep

/-- A run that leaves the guard leaves it at a first step, which is taken and
followed by the rest of the run. -/
theorem exists_first_unguarded {s final : σ} {events : List ε}
    {outs : List ω} (hrun : run step s events = some (final, outs))
    (hguard : ¬ AllSteps step ok s events) :
    ∃ before e after middle early next out later,
      events = before ++ e :: after ∧ outs = early ++ (out ++ later) ∧
      run step s before = some (middle, early) ∧
      AllSteps step ok s before ∧ ¬ ok middle e ∧
      step middle e = some (next, out) ∧
      run step next after = some (final, later) := by
  induction events generalizing s outs with
  | nil => exact absurd trivial hguard
  | cons e events ih =>
      obtain ⟨next, out, later, hstep, hlater, rfl⟩ := run_cons_eq_some.mp hrun
      by_cases hok : ok s e
      · have hrest : ¬ AllSteps step ok next events := by
          intro hrest
          refine hguard ⟨hok, fun next' out' hstep' => ?_⟩
          rw [hstep] at hstep'
          cases hstep'
          exact hrest
        obtain ⟨before, e', after, middle, early, next', out', late, rfl, rfl,
          hbefore, hsteps, hbad, htaken⟩ := ih hlater hrest
        refine ⟨e :: before, e', after, middle, out ++ early, next', out', late,
          rfl, by simp, ?_, ⟨hok, fun next' out' hstep' => ?_⟩, hbad, htaken⟩
        · exact run_cons_eq_some.mpr ⟨next, out, early, hstep, hbefore, rfl⟩
        · rw [hstep] at hstep'
          cases hstep'
          exact hsteps
      · exact ⟨[], e, events, s, [], next, out, later, rfl, rfl, rfl, trivial,
          hok, hstep, hlater⟩

theorem AllSteps.of_append {s : σ} {before after : List ε}
    (h : AllSteps step ok s (before ++ after)) : AllSteps step ok s before := by
  induction before generalizing s with
  | nil => trivial
  | cons e before ih =>
      exact ⟨h.1, fun next out hstep => ih (h.2 next out hstep)⟩

/-- What holds of every state that a run passes through, with the outputs that
came before it. -/
def Throughout (step : Step σ ε ω) (Inv : σ → List ω → Prop) (s : σ)
    (events : List ε) : Prop :=
  ∀ before after middle early, events = before ++ after →
    run step s before = some (middle, early) → Inv middle early

/-- An invariant that the guarded steps keep and the others break holds
throughout the runs that never leave the guard, and no others. -/
theorem throughout_iff (Inv : σ → List ω → Prop) {s final : σ}
    {events : List ε} {outs : List ω}
    (hrun : run step s events = some (final, outs)) (hstart : Inv s [])
    (hkept : ∀ {s past e next out}, Inv s past → ok s e →
      step s e = some (next, out) → Inv next (past ++ out))
    (hbroken : ∀ {s past e next out}, Inv s past → ¬ ok s e →
      step s e = some (next, out) → ¬ Inv next (past ++ out)) :
    Throughout step Inv s events ↔ AllSteps step ok s events := by
  constructor
  · intro hthrough
    by_contra hguard
    obtain ⟨before, e, after, middle, early, next, out, later, hevents, -,
      hbefore, -, hbad, hstep, -⟩ := exists_first_unguarded hrun hguard
    have htaken : run step s (before ++ [e]) = some (next, early ++ out) := by
      apply run_append_eq_some.mpr
      refine ⟨middle, early, out, hbefore, ?_, rfl⟩
      exact run_cons_eq_some.mpr
        ⟨next, out, [], hstep, rfl, (List.append_nil out).symm⟩
    apply hbroken (hthrough before (e :: after) middle early hevents hbefore)
      hbad hstep
    apply hthrough (before ++ [e]) after next (early ++ out) _ htaken
    rw [hevents, List.append_assoc]
    rfl
  · intro hguard before after middle early hevents hbefore
    rw [hevents] at hguard
    exact run_invariant Inv hbefore hguard.of_append hstart hkept

end Machine
