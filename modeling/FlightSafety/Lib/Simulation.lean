/-
Simulations between machines.  A step of one machine is matched by a run of
another, which emits what the other machine's users see of the outputs.
-/
import FlightSafety.Lib.Machine

namespace Machine

variable {σ ε ω σ' ε' ω' : Type}

/-- An admitted run of the second machine ends in a state related to `next`
and emits what is seen of `out`. -/
def Matched (step : Step σ' ε' ω') (ok : σ' → ε' → Prop) (view : ω → Option ω')
    (R : σ → σ' → Prop) (s : σ') (next : σ) (out : List ω) : Prop :=
  ∃ events final, run step s events = some (final, out.filterMap view) ∧
    AllSteps step ok s events ∧ R next final

/-- Every admitted step of the first machine is matched by the second. -/
def Simulates (step : Step σ ε ω) (ok : σ → ε → Prop) (step' : Step σ' ε' ω')
    (ok' : σ' → ε' → Prop) (view : ω → Option ω') (R : σ → σ' → Prop) :
    Prop :=
  ∀ s s' e next out, R s s' → ok s e → step s e = some (next, out) →
    Matched step' ok' view R s' next out

variable {step : Step σ ε ω} {ok : σ → ε → Prop} {step' : Step σ' ε' ω'}
  {ok' : σ' → ε' → Prop} {view : ω → Option ω'} {R : σ → σ' → Prop}

theorem AllSteps.cons {s next : σ} {e : ε} {out : List ω} {events : List ε}
    (hok : ok s e) (hstep : step s e = some (next, out))
    (h : AllSteps step ok next events) : AllSteps step ok s (e :: events) := by
  refine ⟨hok, fun next' out' hstep' => ?_⟩
  rw [hstep] at hstep'
  cases hstep'
  exact h

theorem AllSteps.append {s middle : σ} {first second : List ε}
    {early : List ω} (hfirst : AllSteps step ok s first)
    (hrun : run step s first = some (middle, early))
    (hsecond : AllSteps step ok middle second) :
    AllSteps step ok s (first ++ second) := by
  induction first generalizing s early with
  | nil =>
      cases hrun
      exact hsecond
  | cons e first ih =>
      obtain ⟨next, out, later, hstep, hlater, -⟩ := run_cons_eq_some.mp hrun
      exact .cons hfirst.1 hstep (ih (hfirst.2 next out hstep) hlater)

/-- Some steps lead from a state to another, whatever they emit. -/
def CanReach (step : Step σ ε ω) (s final : σ) : Prop :=
  ∃ outs, Leads step s outs final

theorem CanReach.refl (s : σ) : CanReach step s s :=
  ⟨[], .refl s⟩

theorem CanReach.first {s next final : σ} (e : ε) {out : List ω}
    (hstep : step s e = some (next, out)) (h : CanReach step next final) :
    CanReach step s final := by
  obtain ⟨outs, hleads⟩ := h
  exact ⟨out ++ outs, .cons e hstep hleads⟩

theorem CanReach.trans {s middle final : σ} (h : CanReach step s middle)
    (h' : CanReach step middle final) : CanReach step s final := by
  obtain ⟨early, hearly⟩ := h
  obtain ⟨late, hlate⟩ := h'
  exact ⟨early ++ late, hearly.trans hlate⟩

/-- What every step keeps holds wherever a state can lead. -/
theorem CanReach.keeps {s final : σ} (h : CanReach step s final)
    (Inv : σ → Prop) (hstart : Inv s)
    (hkept : ∀ {s e next out}, Inv s → step s e = some (next, out) → Inv next) :
    Inv final := by
  obtain ⟨outs, events, hrun⟩ := h
  exact @run_invariant_always _ _ _ step (fun s _ => Inv s) _ _ [] _ _ hrun hstart
    fun h hstep => hkept h hstep

/-- Nothing is seen of the step. -/
theorem Matched.hidden {s' : σ'} {next : σ} {out : List ω}
    (hR : R next s') (hout : out.filterMap view = []) :
    Matched step' ok' view R s' next out := by
  refine ⟨[], s', ?_, trivial, hR⟩
  rw [hout]
  rfl

/-- One step is matched by one step. -/
theorem Matched.one {s' next' : σ'} {next : σ} {out : List ω}
    {out' : List ω'} (e : ε') (hok : ok' s' e)
    (hstep : step' s' e = some (next', out'))
    (hout : out.filterMap view = out') (hR : R next next') :
    Matched step' ok' view R s' next out := by
  refine ⟨[e], next', ?_, ⟨hok, fun _ _ _ => trivial⟩, hR⟩
  rw [hout]
  exact run_cons_eq_some.mpr ⟨next', out', [], hstep, rfl, by simp⟩

/-- A matched run can be carried on. -/
theorem Matched.append {s' : σ'} {early late : List ω} {next final : σ}
    (h : Matched step' ok' view R s' next early)
    (hlater : ∀ next', R next next' →
      Matched step' ok' view R next' final late) :
    Matched step' ok' view R s' final (early ++ late) := by
  obtain ⟨first, next', hfirst, hokFirst, hnext⟩ := h
  obtain ⟨second, final', hsecond, hokSecond, hfinal⟩ := hlater next' hnext
  refine ⟨first ++ second, final', ?_, hokFirst.append hfirst hokSecond, hfinal⟩
  rw [List.filterMap_append]
  exact run_append_eq_some.mpr ⟨next', _, _, hfirst, hsecond, rfl⟩

/-- What is matched step by step is matched over whole runs. -/
theorem Simulates.run (h : Simulates step ok step' ok' view R) {s final : σ}
    {s' : σ'} {events : List ε} {outs : List ω} (hR : R s s')
    (hrun : run step s events = some (final, outs))
    (hguard : AllSteps step ok s events) :
    Matched step' ok' view R s' final outs := by
  induction events generalizing s s' outs with
  | nil =>
      cases hrun
      exact .hidden hR rfl
  | cons e events ih =>
      obtain ⟨next, out, later, hstep, hlater, rfl⟩ := run_cons_eq_some.mp hrun
      apply (h s s' e next out hR hguard.1 hstep).append
      intro next' hnext
      exact ih hnext hlater (hguard.2 next out hstep)

end Machine
