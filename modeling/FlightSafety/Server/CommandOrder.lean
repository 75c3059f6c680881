/-
The commands that two threads send to one client.  A call of `sendCommand`
reads the latest row, compares it with what was sent last, and sends; each of
the three is atomic, and the main loop and the receive loop may be in a call
at the same time while rows are inserted.
-/
import FlightSafety.Lib.Machine
import FlightSafety.Server.Client

namespace FlightSafety.Server

open Octets Machine

/-- A row of the command table: its timestamp, which is finer than the
milliseconds that are fetched, and what `asset_get_command` makes of it. -/
structure TableRow where
  stamp : Nat
  command : AssetCommand
deriving Repr, DecidableEq

/-- The threads that call `sendCommand` for a client. -/
inductive Caller where
  | mainLoop
  | receiveLoop
deriving Repr, DecidableEq

def Caller.other : Caller → Caller
  | .mainLoop => .receiveLoop
  | .receiveLoop => .mainLoop

/-- How far a thread is in a call: it is in none, it has taken the time and
read the table, or it is to send a row. -/
inductive Call where
  | idle
  | fetched (ts : UInt64) (row : Option TableRow)
  | due (row : TableRow)
deriving Repr, DecidableEq

/-- The row that a call has read and not sent. -/
def Call.held : Call → Option TableRow
  | .idle => none
  | .fetched _ row => row
  | .due row => some row

/-- The command rows of the client's asset, the client, and its calls. -/
structure CommandState where
  rows : List TableRow
  client : FssClient
  call : Caller → Call

inductive CommandEvent where
  | insert (row : TableRow)
  | getCommand (caller : Caller) (ts : UInt64) (row : Option TableRow)
  | compare (caller : Caller)
  | send (caller : Caller)
deriving Repr, DecidableEq

/-- A row that was sent, and its message. -/
structure SentCommand where
  row : TableRow
  msg : FssMessage
deriving Repr, DecidableEq

/-- The first row by descending timestamp.  A call whose client has no name
of an asset yet finds none. -/
def Latest (rows : List TableRow) : Option TableRow → Prop
  | none => True
  | some row => row ∈ rows ∧ ∀ other ∈ rows, other.stamp ≤ row.stamp

instance (rows : List TableRow) :
    (row : Option TableRow) → Decidable (Latest rows row)
  | none => .isTrue trivial
  | some _ => inferInstanceAs (Decidable (_ ∧ _))

/-- The updates of a call that is going to send. -/
def FssClient.markCommand (c : FssClient) (ts dbid : UInt64) : FssClient :=
  { c with lastCommandSendTs := ts, lastCommandDbid := dbid }

namespace CommandState

def start (client : FssClient) : CommandState where
  rows := []
  client := client
  call _ := .idle

def setCall (s : CommandState) (caller : Caller) (call : Call) : CommandState :=
  { s with call := Function.update s.call caller call }

/-- The condition of `sendCommand` and the updates behind it. -/
def compare (s : CommandState) (caller : Caller) (ts : UInt64) :
    Option TableRow → CommandState
  | none => s.setCall caller .idle
  | some row =>
      if row.command.dbid ≠ s.client.lastCommandDbid ∨
          ts > s.client.lastCommandSendTs + FssClient.timeoutTime then
        ({ s with client := s.client.markCommand ts row.command.dbid }).setCall
          caller (.due row)
      else s.setCall caller .idle

/-- An inserted row has an id of its own. -/
def step : Step CommandState CommandEvent SentCommand
  | s, .insert row =>
      if ∃ other ∈ s.rows, other.command.dbid = row.command.dbid then none
      else some ({ s with rows := s.rows ++ [row] }, [])
  | s, .getCommand caller ts row =>
      if s.call caller = .idle ∧ Latest s.rows row then
        some (s.setCall caller (.fetched ts row), [])
      else none
  | s, .compare caller =>
      match s.call caller with
      | .fetched ts row => some (s.compare caller ts row, [])
      | _ => none
  | s, .send caller =>
      match s.call caller with
      | .due row =>
          let (client, msg) :=
            s.client.sendMsg (FssClient.commandMsg row.command)
          some (({ s with client := client }).setCall caller .idle,
            [⟨row, msg⟩])
      | _ => none

end CommandState

/-- No row is sent after a newer one. -/
def InOrder (outs : List SentCommand) : Prop :=
  outs.Pairwise fun earlier later => earlier.row.stamp ≤ later.row.stamp

instance (outs : List SentCommand) : Decidable (InOrder outs) :=
  inferInstanceAs (Decidable (List.Pairwise _ _))

/-- A call is to send a row while the other one has an older one that it has
read and not sent. -/
def Call.Overtakes : Call → Option TableRow → Prop
  | .due row, some held => held.stamp < row.stamp
  | _, _ => False

instance : (call : Call) → (held : Option TableRow) →
    Decidable (call.Overtakes held)
  | .due _, some _ => inferInstanceAs (Decidable (_ < _))
  | .due _, none | .idle, _ | .fetched _ _, _ => .isFalse id

def Overtakes (s : CommandState) : CommandEvent → Prop
  | .send caller => (s.call caller).Overtakes (s.call caller.other).held
  | _ => False

instance (s : CommandState) : (e : CommandEvent) → Decidable (Overtakes s e)
  | .send _ => inferInstanceAs (Decidable (Call.Overtakes _ _))
  | .insert _ | .getCommand _ _ _ | .compare _ => .isFalse id

theorem Call.overtakes_iff {call : Call} {other : Option TableRow} :
    call.Overtakes other ↔ ∃ row held, call = .due row ∧ other = some held ∧
      held.stamp < row.stamp := by
  constructor
  · intro hover
    cases call with
    | due row =>
        cases other with
        | some held => exact ⟨row, held, rfl, rfl, hover⟩
        | none => exact hover.elim
    | _ => exact hover.elim
  · rintro ⟨row, held, rfl, rfl, hlt⟩
    exact hlt

@[simp] theorem Caller.other_other (caller : Caller) :
    caller.other.other = caller := by
  cases caller <;> rfl

theorem Caller.other_ne (caller : Caller) : caller.other ≠ caller := by
  cases caller <;> decide

/-! What a step can do. -/

/-- All that an event can do. -/
inductive CommandTaken (s : CommandState) :
    CommandEvent → CommandState → List SentCommand → Prop where
  | insert {row : TableRow}
      (fresh : ∀ other ∈ s.rows, other.command.dbid ≠ row.command.dbid) :
      CommandTaken s (.insert row) { s with rows := s.rows ++ [row] } []
  | getCommand {caller : Caller} {ts : UInt64} {row : Option TableRow}
      (idle : s.call caller = .idle) (latest : Latest s.rows row) :
      CommandTaken s (.getCommand caller ts row)
        (s.setCall caller (.fetched ts row)) []
  | skip {caller : Caller} {ts : UInt64} {row : Option TableRow}
      (fetched : s.call caller = .fetched ts row)
      (same : ∀ found, row = some found →
        found.command.dbid = s.client.lastCommandDbid) :
      CommandTaken s (.compare caller) (s.setCall caller .idle) []
  | mark {caller : Caller} {ts : UInt64} {row : TableRow}
      (fetched : s.call caller = .fetched ts (some row)) :
      CommandTaken s (.compare caller)
        (({ s with client := s.client.markCommand ts row.command.dbid }).setCall
          caller (.due row)) []
  | send {caller : Caller} {row : TableRow}
      (due : s.call caller = .due row) :
      CommandTaken s (.send caller)
        (({ s with
          client := (s.client.sendMsg
            (FssClient.commandMsg row.command)).1 }).setCall caller .idle)
        [⟨row, (s.client.sendMsg (FssClient.commandMsg row.command)).2⟩]

section Step

variable {s next : CommandState} {e : CommandEvent} {outs past : List SentCommand}

theorem commandTaken_of_step
    (h : CommandState.step s e = some (next, outs)) :
    CommandTaken s e next outs := by
  cases e with
  | insert row =>
      simp only [CommandState.step] at h
      split at h
      · cases h
      · next hfresh =>
          cases h
          exact .insert fun other hother hsame => hfresh ⟨other, hother, hsame⟩
  | getCommand caller ts row =>
      simp only [CommandState.step] at h
      split at h
      · next hread =>
          cases h
          exact .getCommand hread.1 hread.2
      · cases h
  | compare caller =>
      simp only [CommandState.step] at h
      split at h
      · next ts row hfetched =>
          cases h
          cases row with
          | none => exact .skip hfetched (by simp)
          | some row =>
              simp only [CommandState.compare]
              split
              · exact .mark hfetched
              · next hsame =>
                  refine .skip hfetched fun found hfound => ?_
                  cases hfound
                  exact not_not.mp fun hdbid => hsame (.inl hdbid)
      · cases h
  | send caller =>
      simp only [CommandState.step] at h
      split at h
      · next row hdue =>
          cases h
          exact .send hdue
      · cases h

@[simp] theorem call_setCall (s : CommandState) (caller : Caller) (call : Call) :
    (s.setCall caller call).call caller = call :=
  Function.update_self ..

@[simp] theorem call_setCall_other (s : CommandState) (caller : Caller)
    (call : Call) : (s.setCall caller call).call caller.other =
      s.call caller.other :=
  Function.update_of_ne caller.other_ne ..

/-- A call is the one that was set, or the other thread's. -/
theorem Caller.eq_or_eq_other (who caller : Caller) :
    who = caller ∨ who = caller.other := by
  cases who <;> cases caller <;> first | exact .inl rfl | exact .inr rfl

theorem held_setCall {caller who : Caller} {call : Call} {row : TableRow}
    (h : ((s.setCall caller call).call who).held = some row) :
    (who = caller ∧ call.held = some row) ∨
      (who = caller.other ∧ (s.call who).held = some row) := by
  rcases Caller.eq_or_eq_other who caller with rfl | rfl
  · rw [call_setCall] at h
    exact .inl ⟨rfl, h⟩
  · rw [call_setCall_other] at h
    exact .inr ⟨rfl, h⟩

/-- A row that is held after a step was held before, or is the latest of the
table. -/
theorem held_of_taken {who : Caller} {row : TableRow}
    (htaken : CommandTaken s e next outs)
    (h : (next.call who).held = some row) :
    (s.call who).held = some row ∨ Latest s.rows (some row) := by
  cases htaken with
  | insert fresh => exact .inl h
  | @getCommand caller ts found idle latest =>
      rcases held_setCall h with ⟨_, hread⟩ | ⟨_, hold⟩
      · change found = some row at hread
        rw [hread] at latest
        exact .inr latest
      · exact .inl hold
  | skip fetched same =>
      rcases held_setCall h with ⟨_, hnone⟩ | ⟨_, hold⟩
      · cases hnone
      · exact .inl hold
  | mark fetched =>
      rcases held_setCall h with ⟨hwho, hmarked⟩ | ⟨_, hold⟩
      · rw [hwho, fetched]
        exact .inl hmarked
      · exact .inl hold
  | send due =>
      rcases held_setCall h with ⟨_, hnone⟩ | ⟨_, hold⟩
      · cases hnone
      · exact .inl hold

theorem rows_subset (htaken : CommandTaken s e next outs) :
    s.rows ⊆ next.rows := by
  cases htaken with
  | insert fresh => exact List.subset_append_left ..
  | _ => exact List.Subset.refl _

/-- What a call holds is in the table. -/
def HeldInTable (s : CommandState) : Prop :=
  ∀ who row, (s.call who).held = some row → row ∈ s.rows

theorem HeldInTable.step (h : HeldInTable s)
    (htaken : CommandTaken s e next outs) : HeldInTable next := by
  intro who row hrow
  rcases held_of_taken htaken hrow with hold | hlatest
  · exact rows_subset htaken (h who row hold)
  · exact rows_subset htaken hlatest.1

/-- No row that is held is older than one that was sent, and those were sent
in order. -/
structure Orderly (s : CommandState) (past : List SentCommand) : Prop where
  held_mem : HeldInTable s
  sent_mem : ∀ o ∈ past, o.row ∈ s.rows
  sent_le : ∀ o ∈ past, ∀ who row, (s.call who).held = some row →
    o.row.stamp ≤ row.stamp
  order : InOrder past

theorem orderly_start (client : FssClient) : Orderly (.start client) [] where
  held_mem who row h := by cases h
  sent_mem := by simp
  sent_le := by simp
  order := List.Pairwise.nil

/-- A step changes nothing about the rows that were sent before it: what is
read is the latest row. -/
theorem Orderly.keep (h : Orderly s past)
    (htaken : CommandTaken s e next outs) : Orderly next past where
  held_mem := h.held_mem.step htaken
  sent_mem o ho := rows_subset htaken (h.sent_mem o ho)
  sent_le o ho who row hrow := by
    rcases held_of_taken htaken hrow with hold | hlatest
    · exact h.sent_le o ho who row hold
    · exact hlatest.2 o.row (h.sent_mem o ho)
  order := h.order

theorem Orderly.step (h : Orderly s past) (hguard : ¬ Overtakes s e)
    (hstep : CommandState.step s e = some (next, outs)) :
    Orderly next (past ++ outs) := by
  have htaken := commandTaken_of_step hstep
  have hpast := h.keep htaken
  cases htaken with
  | @send caller row due =>
      have hdue : (s.call caller).held = some row := by rw [due]; rfl
      refine ⟨hpast.held_mem, ?_, ?_, ?_⟩
      · rw [List.forall_mem_append, List.forall_mem_singleton]
        exact ⟨hpast.sent_mem, h.held_mem caller row hdue⟩
      · rw [List.forall_mem_append, List.forall_mem_singleton]
        refine ⟨hpast.sent_le, fun who held hwho => ?_⟩
        rcases held_setCall hwho with ⟨_, hnone⟩ | ⟨hother, hold⟩
        · cases hnone
        · rw [hother] at hold
          exact Nat.not_lt.mp fun hlt =>
            hguard (Call.overtakes_iff.mpr ⟨row, held, due, hold, hlt⟩)
      · refine List.pairwise_append.mpr ⟨h.order, List.pairwise_singleton .., ?_⟩
        intro o ho later hlater
        rw [List.mem_singleton.mp hlater]
        exact h.sent_le o ho caller row hdue
  | _ =>
      rw [List.append_nil]
      exact hpast

theorem inOrder_run {client : FssClient} {events : List CommandEvent}
    (hrun : run CommandState.step (.start client) events = some (s, outs))
    (hguard : AllSteps CommandState.step (fun s e => ¬ Overtakes s e)
      (.start client) events) : InOrder outs := by
  have horderly : Orderly s ([] ++ outs) :=
    run_invariant Orderly hrun hguard (orderly_start client)
      fun h hok hstep => h.step hok hstep
  exact horderly.order

/-! Where an older row is overtaken, it is sent by the next steps of its
call. -/

/-- While a call that fetched a row has not compared it, what was sent last is
what the other call found newer. -/
structure Marked (s : CommandState) : Prop where
  held_mem : HeldInTable s
  distinct : ∀ row ∈ s.rows, ∀ other ∈ s.rows,
    row.command.dbid = other.command.dbid → row = other
  marked : ∀ who row ts held, s.call who = .due row →
    s.call who.other = .fetched ts (some held) → held.stamp < row.stamp →
      s.client.lastCommandDbid = row.command.dbid

theorem marked_start (client : FssClient) : Marked (.start client) where
  held_mem who row h := by cases h
  distinct row h := by cases h
  marked who row ts held h := by cases h

/-- A call that has become idle is neither to send nor to compare. -/
theorem not_fetched_of_due_idle {caller who : Caller} {row : TableRow}
    {ts : UInt64} {fetched : Option TableRow}
    (hdue : (s.setCall caller .idle).call who = .due row) :
    (s.setCall caller .idle).call who.other ≠ .fetched ts fetched := by
  rcases Caller.eq_or_eq_other who caller with rfl | rfl
  · rw [call_setCall] at hdue
    cases hdue
  · rw [Caller.other_other, call_setCall]
    simp

theorem Marked.step (h : Marked s)
    (hstep : CommandState.step s e = some (next, outs)) : Marked next := by
  have htaken := commandTaken_of_step hstep
  refine ⟨h.held_mem.step htaken, ?_, ?_⟩
  · cases htaken with
    | @insert row fresh =>
        simp only [List.forall_mem_append, List.forall_mem_singleton]
        refine ⟨fun found hfound => ⟨h.distinct found hfound, fun hsame => ?_⟩,
          fun other hother hsame => ?_, fun _ => trivial⟩
        · exact absurd hsame (fresh found hfound)
        · exact absurd hsame.symm (fresh other hother)
    | _ => exact h.distinct
  · intro who newer ts' held hdue hfetched hlt
    cases htaken with
    | insert fresh => exact h.marked who newer ts' held hdue hfetched hlt
    | @getCommand caller ts row idle latest =>
        rcases Caller.eq_or_eq_other who caller with rfl | rfl
        · rw [call_setCall] at hdue
          cases hdue
        -- what is read now is no older than what the other call is to send
        · rw [call_setCall_other] at hdue
          rw [Caller.other_other, call_setCall] at hfetched
          cases hfetched
          have hmem : newer ∈ s.rows :=
            h.held_mem caller.other newer (by rw [hdue]; rfl)
          exact absurd (latest.2 newer hmem) (Nat.not_le.mpr hlt)
    | @mark caller ts row fetched =>
        rcases Caller.eq_or_eq_other who caller with rfl | rfl
        · rw [call_setCall] at hdue
          cases hdue
          rfl
        · rw [Caller.other_other, call_setCall] at hfetched
          cases hfetched
    | skip fetched same => exact absurd hfetched (not_fetched_of_due_idle hdue)
    | send due => exact absurd hfetched (not_fetched_of_due_idle hdue)

theorem marked_run {client : FssClient} {events : List CommandEvent}
    (hrun : run CommandState.step (.start client) events = some (s, outs)) :
    Marked s :=
  run_keeps_always Marked hrun (marked_start client) fun h hstep => h.step hstep

/-- A call that is to send can send. -/
theorem step_send {caller : Caller} {row : TableRow}
    (hdue : s.call caller = .due row) :
    CommandState.step s (.send caller) =
      some (({ s with
        client := (s.client.sendMsg (FssClient.commandMsg row.command)).1
        }).setCall caller .idle,
        [⟨row, (s.client.sendMsg (FssClient.commandMsg row.command)).2⟩]) := by
  simp only [CommandState.step, hdue]

/-- A call that compares another row than the one sent last is to send it. -/
theorem step_compare {caller : Caller} {ts : UInt64} {row : TableRow}
    (hfetched : s.call caller = .fetched ts (some row))
    (hnew : row.command.dbid ≠ s.client.lastCommandDbid) :
    CommandState.step s (.compare caller) =
      some (({ s with
        client := s.client.markCommand ts row.command.dbid }).setCall caller
          (.due row), []) := by
  simp only [CommandState.step, hfetched, CommandState.compare, hnew,
    ne_eq, not_false_eq_true, true_or, ↓reduceIte]

theorem not_inOrder_pair {newer older : TableRow} (hlt : older.stamp < newer.stamp)
    (first second : FssMessage) :
    ¬ InOrder [⟨newer, first⟩, ⟨older, second⟩] := by
  intro horder
  have hle := List.rel_of_pairwise_cons horder (List.mem_singleton.mpr rfl)
  exact absurd hlt (Nat.not_lt.mpr hle)

/-- The older row follows once its call is to send it. -/
theorem exists_send_older {caller : Caller} {older : TableRow}
    (hdue : s.call caller = .due older) :
    ∃ final msg, run CommandState.step s [.send caller] =
      some (final, [⟨older, msg⟩]) := by
  exact ⟨_, _, run_cons_eq_some.mpr ⟨_, _, [], step_send hdue, rfl, rfl⟩⟩

theorem exists_disorder (h : Marked s) (hover : Overtakes s e) :
    ∃ later final disorder,
      run CommandState.step s (e :: later) = some (final, disorder) ∧
        ¬ InOrder disorder := by
  cases e with
  | send caller =>
      obtain ⟨row, held, hdue, hheld, hlt⟩ := Call.overtakes_iff.mp hover
      have hsend := step_send hdue
      let sender := (s.client.sendMsg (FssClient.commandMsg row.command)).1
      let s₁ := ({ s with client := sender } : CommandState).setCall caller .idle
      have hkept : s₁.call caller.other = s.call caller.other :=
        call_setCall_other { s with client := sender } caller .idle
      cases hother : s.call caller.other with
      | idle =>
          rw [hother] at hheld
          cases hheld
      | due older =>
          rw [hother] at hheld
          cases hheld
          obtain ⟨final, msg', hrun⟩ := exists_send_older (hkept.trans hother)
          exact ⟨_, final, _, run_cons_eq_some.mpr ⟨_, _, _, hsend, hrun, rfl⟩,
            not_inOrder_pair hlt _ msg'⟩
      | fetched ts fetched =>
          rw [hother] at hheld
          change fetched = some held at hheld
          subst hheld
          -- what was sent last is the newer row, so the older one differs
          have hmarked := h.marked caller row ts held hdue hother hlt
          have hnew : held.command.dbid ≠ s₁.client.lastCommandDbid := by
            intro hsame
            have hdbids := hsame.trans hmarked
            have heq := h.distinct held (h.held_mem caller.other held
              (by rw [hother]; rfl)) row (h.held_mem caller row
              (by rw [hdue]; rfl)) hdbids
            exact absurd (heq ▸ hlt) (Nat.lt_irrefl _)
          have hcompare := step_compare (hkept.trans hother) hnew
          obtain ⟨final, msg', hrun⟩ := exists_send_older (call_setCall
            { s₁ with client := s₁.client.markCommand ts held.command.dbid }
            caller.other (.due held))
          have hafter : run CommandState.step s₁
              [.compare caller.other, .send caller.other] =
                some (final, [⟨held, msg'⟩]) :=
            run_cons_eq_some.mpr ⟨_, _, _, hcompare, hrun, rfl⟩
          exact ⟨_, final, _,
            run_cons_eq_some.mpr ⟨_, _, _, hsend, hafter, rfl⟩,
            not_inOrder_pair hlt _ msg'⟩
  | _ => exact absurd hover id

end Step

/-! The steps of a call, with nothing in between, are `sendCommand`. -/

/-- A call from its first step to its last. -/
def callEvents (caller : Caller) (ts : UInt64) (row : Option TableRow)
    (sends : Bool) : List CommandEvent :=
  [.getCommand caller ts row, .compare caller] ++
    if sends then [.send caller] else []

section Alone

variable {s : CommandState} {caller : Caller} {ts : UInt64}
  {row : Option TableRow}

/-- A call that has ended has changed no call. -/
theorem update_idle (hidle : s.call caller = .idle) (call : Call) :
    Function.update (Function.update s.call caller call) caller .idle =
      s.call := by
  rw [Function.update_idem, ← hidle, Function.update_eq_self]

/-- A call reads what is in the table, and compares it. -/
theorem run_fetch (hidle : s.call caller = .idle) (hlatest : Latest s.rows row) :
    run CommandState.step s [.getCommand caller ts row, .compare caller] =
      some ((s.setCall caller (.fetched ts row)).compare caller ts row, []) := by
  have hread : CommandState.step s (.getCommand caller ts row) =
      some (s.setCall caller (.fetched ts row), []) := if_pos ⟨hidle, hlatest⟩
  have hcompare : CommandState.step (s.setCall caller (.fetched ts row))
      (.compare caller) =
        some ((s.setCall caller (.fetched ts row)).compare caller ts row, []) := by
    simp only [CommandState.step, call_setCall]
  exact run_cons_eq_some.mpr ⟨_, [], [], hread,
    run_cons_eq_some.mpr ⟨_, [], [], hcompare, rfl, rfl⟩, rfl⟩

theorem run_callEvents {env : Env} (hidle : s.call caller = .idle)
    (hlatest : Latest s.rows row)
    (hdb : env.db.assetGetCommand s.client.name = row.map TableRow.command) :
    ∃ sends final outs, run CommandState.step s
        (callEvents caller env.now row sends) = some (final, outs) ∧
      final.call = s.call ∧ final.client = (s.client.sendCommand env).1 ∧
      outs.map (fun o => Effect.sendLookup s.client.name o.msg) =
        (s.client.sendCommand env).2 := by
  have hfetch := @run_fetch s caller env.now row hidle hlatest
  unfold FssClient.sendCommand
  rw [hdb]
  cases row with
  | none => exact ⟨false, _, [], hfetch, update_idle hidle _, rfl, rfl⟩
  | some row =>
      by_cases hdue : row.command.dbid ≠ s.client.lastCommandDbid ∨
          env.now > s.client.lastCommandSendTs + FssClient.timeoutTime
      · have hcompared : (s.setCall caller (.fetched env.now (some row))).compare
            caller env.now (some row) = _ := if_pos hdue
        rw [hcompared] at hfetch
        simp only [Option.map_some, hdue, ↓reduceIte]
        refine ⟨true, _, _, run_append_eq_some.mpr ⟨_, [], _, hfetch,
          run_cons_eq_some.mpr ⟨_, _, [], step_send (call_setCall ..), rfl,
            rfl⟩, rfl⟩, ?_, rfl, rfl⟩
        change Function.update (Function.update (Function.update s.call caller
          _) caller _) caller .idle = s.call
        rw [Function.update_idem, update_idle hidle]
      · have hcompared : (s.setCall caller (.fetched env.now (some row))).compare
            caller env.now (some row) = _ := if_neg hdue
        rw [hcompared] at hfetch
        simp only [Option.map_some, hdue, ↓reduceIte]
        exact ⟨false, _, [], hfetch, update_idle hidle _, rfl, rfl⟩

end Alone

/-- In every run in which no row is sent while the other call has an older one
in hand, the rows are sent in order; and a run in which one is can be
continued so that they are not. -/
theorem commands_inOrder (client : FssClient) :
    (∀ events s outs,
      run CommandState.step (.start client) events = some (s, outs) →
        AllSteps CommandState.step (fun s e => ¬ Overtakes s e)
          (.start client) events → InOrder outs) ∧
    ∀ events s past e,
      run CommandState.step (.start client) events = some (s, past) →
        Overtakes s e → ∃ later final outs,
          run CommandState.step (.start client) (events ++ e :: later) =
            some (final, outs) ∧ ¬ InOrder outs := by
  refine ⟨fun events s outs hrun hguard => inOrder_run hrun hguard, ?_⟩
  intro events s past e hrun hover
  obtain ⟨later, final, disorder, hlater, hdisorder⟩ :=
    exists_disorder (marked_run hrun) hover
  refine ⟨later, final, past ++ disorder,
    run_append_eq_some.mpr ⟨s, past, disorder, hrun, hlater, rfl⟩, fun horder => ?_⟩
  exact hdisorder (List.pairwise_append.mp horder).2.1

/-- A command to hold, and a later one to return. -/
def holdRow : TableRow :=
  ⟨1, ⟨1, 1000, .hold, .nan, .nan, 0⟩⟩

def returnRow : TableRow :=
  ⟨2, ⟨2, 2000, .rtl, .nan, .nan, 0⟩⟩

/-- The receive loop sends the first command before the second is given, which
the main loop then sends. -/
def orderlyEvents : List CommandEvent :=
  [.insert holdRow] ++ callEvents .receiveLoop 5000 (some holdRow) true ++
    [.insert returnRow] ++ callEvents .mainLoop 5000 (some returnRow) true

def identifiedClient : FssClient where
  clientNames := [[65]]
  identified := true
  aircraft := true
  name := [65]

theorem commands_inOrder_orderlyEvents :
    ∃ s outs, run CommandState.step (.start identifiedClient) orderlyEvents =
      some (s, outs) ∧ outs.length = 2 ∧ InOrder outs :=
  ⟨_, _, rfl, rfl, (commands_inOrder identifiedClient).1 orderlyEvents _ _ rfl
    (by decide)⟩

/-- The main loop has read the first command when the second is given, and
sends it after the receive loop has sent that. -/
def staleEvents : List CommandEvent :=
  [.insert holdRow, .getCommand .mainLoop 5000 (some holdRow),
    .insert returnRow] ++ callEvents .receiveLoop 5000 (some returnRow) true ++
    [.compare .mainLoop, .send .mainLoop]

theorem not_inOrder_staleEvents :
    ∃ s outs, run CommandState.step (.start identifiedClient) staleEvents =
      some (s, outs) ∧ ¬ InOrder outs :=
  ⟨_, _, rfl, by decide⟩

end FlightSafety.Server
