/-
When a command is sent.  The client keeps the row and the time of the last
command it sent and nothing else, and these two decide at every call whether
the latest row is sent.
-/
import FlightSafety.Lib.Machine
import FlightSafety.Server.Client

namespace FlightSafety.Server

open Octets Machine

/-- A command that was sent: when, from which row, and what was sent. -/
structure TimedSend where
  ts : UInt64
  dbid : UInt64
  effect : Effect
deriving Repr, DecidableEq

namespace FssClient

/-- The command row that a call finds. -/
def observed (env : Env) (c : FssClient) : Option AssetCommand :=
  env.db.assetGetCommand c.name

/-- What a call sends, with the time of the call and the row it found. -/
def sentBy (env : Env) (c : FssClient) : List TimedSend :=
  match c.observed env with
  | none => []
  | some ac => (c.sendCommand env).2.map fun effect =>
      ⟨env.now, ac.dbid, effect⟩

/-- One call of `sendCommand` after the other. -/
def callStep : Step FssClient Env TimedSend
  | c, env => some ((c.sendCommand env).1, c.sentBy env)

/-- The message that a call sends for a row. -/
def sentFor (env : Env) (c : FssClient) (ac : AssetCommand) : TimedSend :=
  ⟨env.now, ac.dbid,
    .sendLookup c.name ((commandMsg ac).setId (c.lastMsgId + 1))⟩

end FssClient

/-- A call at a time that a signed clock holds too, and that finds a row with
an id if it finds one. -/
def Timely (c : FssClient) (env : Env) : Prop :=
  env.now.toNat < 2 ^ 63 ∧ ∀ ac, c.observed env = some ac → ac.dbid ≠ 0

instance (c : FssClient) (env : Env) : Decidable (Timely c env) :=
  match hrow : c.observed env with
  | none => decidable_of_iff (env.now.toNat < 2 ^ 63) (by simp [Timely, hrow])
  | some ac =>
      decidable_of_iff (env.now.toNat < 2 ^ 63 ∧ ac.dbid ≠ 0)
        (by simp [Timely, hrow])

/-- The fields of a client tell what was sent last. -/
structure Linked (c : FssClient) (past : List TimedSend) : Prop where
  nothing : past = [] → c.lastCommandDbid = 0
  last : ∀ sent, past.getLast? = some sent →
    c.lastCommandDbid = sent.dbid ∧ c.lastCommandSendTs = sent.ts
  bound : c.lastCommandSendTs.toNat < 2 ^ 63

/-- What a call does after what has been sent so far: a row other than the
last one is sent, the last one is sent again once more than ten seconds have
passed, and without a row nothing is sent and nothing changes. -/
structure Disciplined (c : FssClient) (env : Env) (past : List TimedSend) :
    Prop where
  fresh : ∀ ac, c.observed env = some ac →
    (∀ sent, past.getLast? = some sent → sent.dbid ≠ ac.dbid) →
      c.sentBy env = [c.sentFor env ac]
  again : ∀ ac sent, c.observed env = some ac → past.getLast? = some sent →
    sent.dbid = ac.dbid →
      c.sentBy env =
        if sent.ts.toNat + 10000 < env.now.toNat then [c.sentFor env ac] else []
  none : c.observed env = none → c.sentBy env = [] ∧
    (c.sendCommand env).1.lastCommandDbid = c.lastCommandDbid ∧
    (c.sendCommand env).1.lastCommandSendTs = c.lastCommandSendTs

section Call

variable {c : FssClient} {env : Env} {past : List TimedSend}

/-- A row is due if it is not the last one or the last time is long ago. -/
def FssClient.Due (env : Env) (c : FssClient) (ac : AssetCommand) : Prop :=
  ac.dbid ≠ c.lastCommandDbid ∨
    env.now > c.lastCommandSendTs + FssClient.timeoutTime

theorem sendCommand_of_due {ac : AssetCommand} (hrow : c.observed env = some ac)
    (hdue : FssClient.Due env c ac) :
    c.sentBy env = [c.sentFor env ac] ∧
      (c.sendCommand env).1.lastCommandDbid = ac.dbid ∧
      (c.sendCommand env).1.lastCommandSendTs = env.now := by
  have hdb : env.db.assetGetCommand c.name = some ac := hrow
  unfold FssClient.Due at hdue
  unfold FssClient.sentBy
  rw [hrow]
  simp only [FssClient.sendCommand, hdb, hdue, ↓reduceIte]
  exact ⟨rfl, rfl, rfl⟩

theorem sendCommand_of_not_due {ac : AssetCommand}
    (hrow : c.observed env = some ac) (hdue : ¬ FssClient.Due env c ac) :
    c.sentBy env = [] ∧ (c.sendCommand env).1 = c := by
  have hdb : env.db.assetGetCommand c.name = some ac := hrow
  unfold FssClient.Due at hdue
  unfold FssClient.sentBy
  rw [hrow]
  simp only [FssClient.sendCommand, hdb, hdue, ↓reduceIte]
  exact ⟨rfl, trivial⟩

theorem sendCommand_of_none (hrow : c.observed env = none) :
    c.sentBy env = [] ∧ (c.sendCommand env).1 = c := by
  have hdb : env.db.assetGetCommand c.name = none := hrow
  unfold FssClient.sentBy
  rw [hrow]
  simp only [FssClient.sendCommand, hdb]
  exact ⟨trivial, trivial⟩

/-- The sum of the last time and the ten seconds does not wrap. -/
theorem due_iff (h : Linked c past) (ac : AssetCommand) :
    FssClient.Due env c ac ↔ ac.dbid ≠ c.lastCommandDbid ∨
      c.lastCommandSendTs.toNat + 10000 < env.now.toNat := by
  have hbound := h.bound
  have hsum : (c.lastCommandSendTs + FssClient.timeoutTime).toNat =
      c.lastCommandSendTs.toNat + 10000 := by
    rw [UInt64.toNat_add]
    apply Nat.mod_eq_of_lt
    change c.lastCommandSendTs.toNat + 10000 < 2 ^ 64
    omega
  rw [FssClient.Due, gt_iff_lt, UInt64.lt_iff_toNat_lt, hsum]

/-- A call that sends makes its row and its time the last ones. -/
theorem Linked.step (h : Linked c past) (htimely : Timely c env) :
    Linked (c.sendCommand env).1 (past ++ c.sentBy env) := by
  cases hrow : c.observed env with
  | none =>
      obtain ⟨hsent, hsame⟩ := sendCommand_of_none hrow
      rw [hsent, hsame, List.append_nil]
      exact h
  | some ac =>
      by_cases hdue : FssClient.Due env c ac
      · obtain ⟨hsent, hdbid, hts⟩ := sendCommand_of_due hrow hdue
        rw [hsent]
        refine ⟨fun hnone => ?_, fun sent hlast => ?_, hts ▸ htimely.1⟩
        · exact absurd hnone (List.append_ne_nil_of_right_ne_nil _ (by simp))
        · rw [List.getLast?_concat] at hlast
          cases hlast
          exact ⟨hdbid, hts⟩
      · obtain ⟨hsent, hsame⟩ := sendCommand_of_not_due hrow hdue
        rw [hsent, hsame, List.append_nil]
        exact h

theorem Linked.disciplined (h : Linked c past) (htimely : Timely c env) :
    Disciplined c env past where
  fresh ac hrow hother := by
    apply (sendCommand_of_due hrow _).1
    left
    cases hlast : past.getLast? with
    | none =>
        rw [h.nothing (List.getLast?_eq_none_iff.mp hlast)]
        exact htimely.2 ac hrow
    | some sent =>
        rw [(h.last sent hlast).1]
        exact (hother sent hlast).symm
  again ac sent hrow hlast hsame := by
    obtain ⟨hdbid, hts⟩ := h.last sent hlast
    have hdue := @due_iff c env past h ac
    rw [hdbid, hts, hsame, ne_self_iff_false, false_or] at hdue
    split
    next hlate => exact (sendCommand_of_due hrow (hdue.mpr hlate)).1
    next hearly =>
        exact (sendCommand_of_not_due hrow (hdue.not.mpr hearly)).1
  none hrow := by
    obtain ⟨hsent, hsame⟩ := sendCommand_of_none hrow
    rw [hsame]
    exact ⟨hsent, rfl, rfl⟩

end Call

/-- Whatever rows a client finds at whatever times, each of its calls sends as
it should after what the calls before it have sent. -/
theorem command_discipline {start c : FssClient} {calls : List Env}
    {past : List TimedSend} {env : Env} (hdbid : start.lastCommandDbid = 0)
    (hts : start.lastCommandSendTs = 0)
    (hcalls : AllSteps FssClient.callStep Timely start calls)
    (hrun : run FssClient.callStep start calls = some (c, past))
    (htimely : Timely c env) : Disciplined c env past := by
  have hstart : Linked start [] := by
    refine ⟨fun _ => hdbid, fun sent hlast => ?_, ?_⟩
    · cases hlast
    · rw [hts]
      decide
  have hlinked : Linked c ([] ++ past) := by
    apply run_invariant Linked hrun hcalls hstart
    intro c past env next out hlinked htimely hstep
    cases hstep
    exact hlinked.step htimely
  exact hlinked.disciplined htimely

/-- A call at some time that finds a row to hold under some id. -/
def holdCall (now dbid : UInt64) : Env :=
  ⟨{ emptyDb with
    assetGetCommand := fun _ => some ⟨dbid, 1000, .hold, .nan, .nan, 0⟩ }, now⟩

/-- A row is found twice in ten seconds and sent once, and again a millisecond
later. -/
theorem command_discipline_twice :
    ∃ c past, run FssClient.callStep { clientNames := [] }
        [holdCall 5000 1, holdCall 15000 1] = some (c, past) ∧
      past.length = 1 ∧ Disciplined c (holdCall 15001 1) past ∧
      (c.sentBy (holdCall 15001 1)).length = 1 :=
  ⟨_, _, rfl, rfl,
    command_discipline rfl rfl
      (by decide) (rfl : run FssClient.callStep { clientNames := [] }
        [holdCall 5000 1, holdCall 15000 1] = some _) (by decide), rfl⟩

end FlightSafety.Server
