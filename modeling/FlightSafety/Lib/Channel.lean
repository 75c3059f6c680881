/-
A channel with one reader.  What is put in comes out in the order in which it
was put in, as `arrive` makes it arrive, until the reader sees it closed.
-/
import FlightSafety.Lib.Machine

namespace Machine

variable {α β : Type}

/-- What is in the channel, and whether its reader has seen it closed. -/
structure Channel (α : Type) where
  queue : List α := []
  closed : Bool := false

inductive ChannelEvent (α : Type) where
  | put (a : α)
  | take
  | close

inductive ChannelOut (α β : Type) where
  | put (a : α)
  | took (b : β)
  | closed

def channel (arrive : α → β) :
    Step (Channel α) (ChannelEvent α) (ChannelOut α β)
  | s, .put a => some ({ s with queue := s.queue ++ [a] }, [.put a])
  | s, .take =>
      if s.closed then none
      else match s.queue with
        | [] => none
        | a :: queue => some ({ s with queue := queue }, [.took (arrive a)])
  | s, .close =>
      if s.closed then none else some ({ s with closed := true }, [.closed])

/-- What has been put in. -/
def puts (outs : List (ChannelOut α β)) : List α :=
  outs.filterMap fun
    | .put a => some a
    | _ => none

/-- What the reader has got, with `none` for the end of the channel. -/
def arrivals (outs : List (ChannelOut α β)) : List (Option β) :=
  outs.filterMap fun
    | .took b => some (some b)
    | .closed => some none
    | .put _ => none

@[simp] theorem puts_append (first second : List (ChannelOut α β)) :
    puts (first ++ second) = puts first ++ puts second :=
  List.filterMap_append

@[simp] theorem arrivals_append (first second : List (ChannelOut α β)) :
    arrivals (first ++ second) = arrivals first ++ arrivals second :=
  List.filterMap_append

/-- What the reader sees of the end. -/
def Channel.ending (s : Channel α) : List (Option β) :=
  if s.closed then [none] else []

/-- Nothing is lost, repeated or overtaken: what has been put in is what has
been taken, followed by what is in the channel. -/
def Conserved (arrive : α → β) (s : Channel α)
    (past : List (ChannelOut α β)) : Prop :=
  ∃ taken, puts past = taken ++ s.queue ∧
    arrivals past = taken.map (fun a => some (arrive a)) ++ s.ending

theorem conserved_of_step {arrive : α → β} {s next : Channel α}
    {past out : List (ChannelOut α β)} {e : ChannelEvent α}
    (h : Conserved arrive s past) (hstep : channel arrive s e = some (next, out)) :
    Conserved arrive next (past ++ out) := by
  obtain ⟨taken, hputs, harrivals⟩ := h
  cases e with
  | put a =>
      cases hstep
      refine ⟨taken, ?_, ?_⟩
      · rw [puts_append, hputs, List.append_assoc]
        rfl
      · rw [arrivals_append, harrivals]
        exact List.append_nil _
  | take =>
      simp only [channel] at hstep
      split at hstep
      · cases hstep
      next hopen =>
        split at hstep
        · cases hstep
        next a queue hqueue =>
          cases hstep
          have hnone : s.ending = ([] : List (Option β)) := if_neg hopen
          refine ⟨taken ++ [a], ?_, ?_⟩
          · rw [puts_append, hputs, hqueue]
            simp [puts]
          · rw [arrivals_append, harrivals, hnone, List.map_append]
            simp [Channel.ending, hopen, arrivals]
  | close =>
      simp only [channel] at hstep
      split at hstep
      · cases hstep
      next hopen =>
        cases hstep
        have hnone : s.ending = ([] : List (Option β)) := if_neg hopen
        refine ⟨taken, ?_, ?_⟩
        · rw [puts_append, hputs]
          exact List.append_nil _
        · rw [arrivals_append, harrivals, hnone, List.append_nil]
          rfl

theorem conserved_of_run {arrive : α → β} {final : Channel α}
    {events : List (ChannelEvent α)} {outs : List (ChannelOut α β)}
    (hrun : run (channel arrive) {} events = some (final, outs)) :
    Conserved arrive final outs :=
  @run_invariant_always _ _ _ _ (Conserved arrive) _ _ [] _ _ hrun
    ⟨[], rfl, rfl⟩ fun h hstep => conserved_of_step h hstep

end Machine
