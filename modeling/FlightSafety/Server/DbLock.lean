/-
The connection to the database, which the threads of the server share under a
lock.  One of its calls reads through a cursor and turns the autocommit off
meanwhile; a row that were inserted there would be lost with the cursor's
transaction.  What the library and the database make of a statement is not in
the source: it is a parameter here.
-/
import FlightSafety.Lib.Mutex
import FlightSafety.Server.CommandRow
import FlightSafety.Server.SmmConfig
import FlightSafety.Server.Telemetry

namespace FlightSafety.Server

open Octets Machine Critical

/-- The embedded SQL, with the variables it reads. -/
inductive Statement where
  | selectAssetId (name : Bytes)
  | insert (row : DbCall)
  | selectCommand (assetId : UInt64)
  | selectSmmSettings (assetId : UInt64)
  | setAutocommitOff
  | openCursor
  | fetch
  | closeCursor
  | setAutocommitOn

/-- What a statement meets, and what `malloc` does.  A variable that nothing is
selected into keeps its 0. -/
inductive Met where
  | assetId (id : UInt64)
  | executed (ok : Bool)
  | command (row : Option CommandRow)
  | settings (row : Option SmmRow)
  | fetched (turn : Option (ServerRow × Allocated))
  | allocated (ok : Bool)

/-- What becomes of the session of the connection when a statement is executed
and meets something. -/
abbrev Executes (σ : Type) := σ → Statement → Met → σ

/-- The calls that begin with the id of an asset. -/
inductive Lookup where
  | checkAsset
  | assetAdd (entry : UInt64 → DbCall)
  | assetGetCommand
  | assetGetSmmSettings

inductive DbRequest where
  | ofAsset (name : Bytes) (lookup : Lookup)
  | getActiveFssServers

inductive DbResult where
  | checked (found : Bool)
  | added
  | command (command : Option AssetCommand)
  | settings (settings : Option SmmSettings)
  | servers (servers : Except PointerArray.Fault (List (Bytes × UInt16)))

inductive DbOutput where
  | executed (statement : Statement) (met : Met)
  | returned (result : DbResult)

/-- What is returned when no asset has the name. -/
def Lookup.nothing : Lookup → DbResult
  | .checkAsset => .checked false
  | .assetAdd _ => .added
  | .assetGetCommand => .command none
  | .assetGetSmmSettings => .settings none

/-- The places between the statements. -/
inductive DbAt where
  | assetId (name : Bytes) (lookup : Lookup)
  | createEntry (row : DbCall)
  | commandGet (assetId : UInt64)
  | smmSettingsGet (assetId : UInt64)
  | emptyArray
  | autocommitOff (allocated : Bool)
  | openCursor (allocated : Bool)
  | fetch (allocated : Bool) (fetched : List (ServerRow × Allocated))
  | closeCursor (allocated : Bool) (fetched : List (ServerRow × Allocated))
  | autocommitOn (allocated : Bool) (fetched : List (ServerRow × Allocated))

def DbRequest.enter : DbRequest → DbAt
  | .ofAsset name lookup => .assetId name lookup
  | .getActiveFssServers => .emptyArray

/-- The id that is selected for a name, which passes as a C string. -/
def asked (name : Bytes) (id : UInt64) : DbOutput :=
  .executed (.selectAssetId (name.takeWhile (· ≠ 0))) (.assetId id)

section Session

variable {σ : Type} (execute : Executes σ)

def DbOutput.replay (s : σ) : DbOutput → σ
  | .executed statement met => execute s statement met
  | .returned _ => s

/-- What a list of statements makes of the session. -/
def replay (s : σ) (outs : List DbOutput) : σ :=
  outs.foldl (DbOutput.replay execute) s

/-- Some statements, and where the call goes on. -/
def goesOn (s : σ) (outs : List DbOutput) (place : Option DbAt) :
    Option ((σ × Option DbAt) × List DbOutput) :=
  some ((replay execute s outs, place), outs)

/-- The next statement of a call that holds the lock. -/
def DbAt.act (s : σ) :
    DbAt → Met → Option ((σ × Option DbAt) × List DbOutput)
  | .assetId name lookup, .assetId id =>
      if id ≠ 0 then
        match lookup with
        | .checkAsset =>
            goesOn execute s [asked name id, .returned (.checked true)] none
        | .assetAdd entry =>
            goesOn execute s [asked name id] (some (.createEntry (entry id)))
        | .assetGetCommand =>
            goesOn execute s [asked name id] (some (.commandGet id))
        | .assetGetSmmSettings =>
            goesOn execute s [asked name id] (some (.smmSettingsGet id))
      else goesOn execute s [asked name id, .returned lookup.nothing] none
  | .createEntry row, .executed ok =>
      goesOn execute s
        [.executed (.insert row) (.executed ok), .returned .added] none
  | .commandGet id, .command row =>
      goesOn execute s
        [.executed (.selectCommand id) (.command row),
          .returned (.command (row.map fun row =>
            .ofDb (dbAssetCommandGet row)))] none
  | .smmSettingsGet id, .settings row =>
      goesOn execute s
        [.executed (.selectSmmSettings id) (.settings row),
          .returned (.settings (row.map .ofRow))] none
  | .emptyArray, .allocated ok =>
      goesOn execute s [] (some (.autocommitOff ok))
  | .autocommitOff allocated, .executed ok =>
      goesOn execute s [.executed .setAutocommitOff (.executed ok)]
        (some (.openCursor allocated))
  | .openCursor allocated, .executed ok =>
      goesOn execute s [.executed .openCursor (.executed ok)]
        (some (.fetch allocated []))
  | .fetch allocated fetched, .fetched (some turn) =>
      goesOn execute s [.executed .fetch (.fetched (some turn))]
        (some (.fetch allocated (fetched ++ [turn])))
  -- No row is left, or the statement failed: the loop breaks.
  | .fetch allocated fetched, .fetched none =>
      goesOn execute s [.executed .fetch (.fetched none)]
        (some (.closeCursor allocated fetched))
  | .closeCursor allocated fetched, .executed ok =>
      goesOn execute s [.executed .closeCursor (.executed ok)]
        (some (.autocommitOn allocated fetched))
  | .autocommitOn allocated fetched, .executed ok =>
      goesOn execute s
        [.executed .setAutocommitOn (.executed ok),
          .returned (.servers (getActiveFssServers allocated fetched))] none
  | _, _ => none

/-- `db_connection`; nothing reaches the session without `db_lock`. -/
def dbConnection : Critical σ DbRequest DbAt Met Empty DbOutput where
  enter := DbRequest.enter
  act := DbAt.act execute
  free _ change := nomatch change

end Session

/-- The statements of the cursor, up to a `FETCH` that gets no row. -/
def cursorTurns (off opened : Bool) (fetched : List (ServerRow × Allocated)) :
    List DbOutput :=
  .executed .setAutocommitOff (.executed off) ::
    .executed .openCursor (.executed opened) ::
    fetched.map fun turn => .executed .fetch (.fetched (some turn))

/-- The calls, each with all that it does before it gives the lock back. -/
inductive Whole : DbRequest → List DbOutput → Prop where
  | unknown (name : Bytes) (lookup : Lookup) :
      Whole (.ofAsset name lookup) [asked name 0, .returned lookup.nothing]
  | checkAsset (name : Bytes) (id : UInt64) (found : id ≠ 0) :
      Whole (.ofAsset name .checkAsset)
        [asked name id, .returned (.checked true)]
  | assetAdd (name : Bytes) (entry : UInt64 → DbCall) (id : UInt64) (ok : Bool)
      (found : id ≠ 0) :
      Whole (.ofAsset name (.assetAdd entry))
        [asked name id, .executed (.insert (entry id)) (.executed ok),
          .returned .added]
  | assetGetCommand (name : Bytes) (id : UInt64) (row : Option CommandRow)
      (found : id ≠ 0) :
      Whole (.ofAsset name .assetGetCommand)
        [asked name id, .executed (.selectCommand id) (.command row),
          .returned (.command (row.map fun row =>
            .ofDb (dbAssetCommandGet row)))]
  | assetGetSmmSettings (name : Bytes) (id : UInt64) (row : Option SmmRow)
      (found : id ≠ 0) :
      Whole (.ofAsset name .assetGetSmmSettings)
        [asked name id, .executed (.selectSmmSettings id) (.settings row),
          .returned (.settings (row.map .ofRow))]
  | getActiveFssServers (allocated off opened closed on : Bool)
      (fetched : List (ServerRow × Allocated)) :
      Whole .getActiveFssServers
        (cursorTurns off opened fetched ++
          [.executed .fetch (.fetched none),
            .executed .closeCursor (.executed closed),
            .executed .setAutocommitOn (.executed on),
            .returned (.servers (getActiveFssServers allocated fetched))])

/-- How far a call is. -/
inductive Underway : DbRequest → Option DbAt → List DbOutput → Prop where
  | enter (request : DbRequest) : Underway request (some request.enter) []
  | createEntry (name : Bytes) (entry : UInt64 → DbCall) (id : UInt64)
      (found : id ≠ 0) :
      Underway (.ofAsset name (.assetAdd entry))
        (some (.createEntry (entry id))) [asked name id]
  | commandGet (name : Bytes) (id : UInt64) (found : id ≠ 0) :
      Underway (.ofAsset name .assetGetCommand) (some (.commandGet id))
        [asked name id]
  | smmSettingsGet (name : Bytes) (id : UInt64) (found : id ≠ 0) :
      Underway (.ofAsset name .assetGetSmmSettings) (some (.smmSettingsGet id))
        [asked name id]
  | autocommitOff (allocated : Bool) :
      Underway .getActiveFssServers (some (.autocommitOff allocated)) []
  | openCursor (allocated off : Bool) :
      Underway .getActiveFssServers (some (.openCursor allocated))
        [.executed .setAutocommitOff (.executed off)]
  | fetch (allocated off opened : Bool)
      (fetched : List (ServerRow × Allocated)) :
      Underway .getActiveFssServers (some (.fetch allocated fetched))
        (cursorTurns off opened fetched)
  | closeCursor (allocated off opened : Bool)
      (fetched : List (ServerRow × Allocated)) :
      Underway .getActiveFssServers (some (.closeCursor allocated fetched))
        (cursorTurns off opened fetched ++ [.executed .fetch (.fetched none)])
  | autocommitOn (allocated off opened closed : Bool)
      (fetched : List (ServerRow × Allocated)) :
      Underway .getActiveFssServers (some (.autocommitOn allocated fetched))
        (cursorTurns off opened fetched ++
          [.executed .fetch (.fetched none),
            .executed .closeCursor (.executed closed)])
  | finished {request : DbRequest} {outs : List DbOutput}
      (whole : Whole request outs) : Underway request none outs

theorem cursorTurns_append (off opened : Bool)
    (fetched : List (ServerRow × Allocated)) (turn : ServerRow × Allocated) :
    cursorTurns off opened fetched ++ [.executed .fetch (.fetched (some turn))] =
      cursorTurns off opened (fetched ++ [turn]) := by
  simp [cursorTurns]

section Calls

variable {σ : Type} {execute : Executes σ} {request : DbRequest}

theorem replay_append (s : σ) (first second : List DbOutput) :
    replay execute s (first ++ second) =
      replay execute (replay execute s first) second :=
  List.foldl_append

/-- A statement changes the session by what it is. -/
theorem replay_of_act {s next : σ} {place : DbAt} {met : Met}
    {after : Option DbAt} {out : List DbOutput}
    (h : place.act execute s met = some ((next, after), out)) :
    next = replay execute s out := by
  unfold DbAt.act at h
  split at h
  case h_1 =>
    split at h
    · split at h <;> cases h <;> rfl
    · cases h
      rfl
  case h_12 => cases h
  all_goals
    cases h
    rfl

theorem Underway.kept {s next : σ} {place : DbAt} {after : Option DbAt}
    {past out : List DbOutput} {met : Met}
    (h : Underway request (some place) past)
    (hstep : place.act execute s met = some ((next, after), out)) :
    Underway request after (past ++ out) := by
  cases h with
  | enter request =>
      cases request with
      | getActiveFssServers =>
          cases met <;> cases hstep
          exact .autocommitOff _
      | ofAsset name lookup =>
          cases met <;> try cases hstep
          next id =>
              by_cases hfound : id = 0
              · subst hfound
                cases hstep
                exact .finished (.unknown name lookup)
              · change (if id ≠ 0 then _ else _) = _ at hstep
                rw [if_pos hfound] at hstep
                cases lookup with
                | checkAsset =>
                    cases hstep
                    exact .finished (.checkAsset name id hfound)
                | assetAdd entry =>
                    cases hstep
                    exact .createEntry name entry id hfound
                | assetGetCommand =>
                    cases hstep
                    exact .commandGet name id hfound
                | assetGetSmmSettings =>
                    cases hstep
                    exact .smmSettingsGet name id hfound
  | createEntry name entry id hfound =>
      cases met <;> cases hstep
      next ok => exact .finished (.assetAdd name entry id ok hfound)
  | commandGet name id hfound =>
      cases met <;> cases hstep
      next row => exact .finished (.assetGetCommand name id row hfound)
  | smmSettingsGet name id hfound =>
      cases met <;> cases hstep
      next row => exact .finished (.assetGetSmmSettings name id row hfound)
  | autocommitOff allocated =>
      cases met <;> cases hstep
      next ok => exact .openCursor allocated ok
  | openCursor allocated off =>
      cases met <;> cases hstep
      next ok => exact .fetch allocated off ok []
  | fetch allocated off opened fetched =>
      cases met <;> try cases hstep
      next turn =>
          cases turn with
          | none =>
              cases hstep
              exact .closeCursor allocated off opened fetched
          | some turn =>
              cases hstep
              rw [cursorTurns_append]
              exact .fetch allocated off opened (fetched ++ [turn])
  | closeCursor allocated off opened fetched =>
      cases met <;> cases hstep
      next ok =>
          rw [List.append_assoc]
          exact .autocommitOn allocated off opened ok fetched
  | autocommitOn allocated off opened closed fetched =>
      cases met <;> cases hstep
      next ok =>
          rw [List.append_assoc]
          exact .finished
            (.getActiveFssServers allocated off opened closed ok fetched)

/-- The statements of a call so far, and what they have made of the session. -/
theorem underway_of_run {start s : σ} {mets : List Met} {place : Option DbAt}
    {outs : List DbOutput}
    (hrun : run (dbConnection execute).statements
      (start, some request.enter) mets = some ((s, place), outs)) :
    Underway request place outs ∧ s = replay execute start outs :=
  @run_invariant_always _ _ _ _
    (fun s past => Underway request s.2 past ∧ s.1 = replay execute start past)
    _ _ [] _ _ hrun ⟨.enter request, rfl⟩ fun {s past _ next out} h hstep => by
      obtain ⟨s, place⟩ := s
      cases place with
      | none => cases hstep
      | some place =>
          obtain ⟨hunderway, rfl⟩ := h
          refine ⟨hunderway.kept hstep, ?_⟩
          rw [replay_append]
          exact replay_of_act hstep

/-- A call that has begun can be finished. -/
theorem Underway.finish {place : DbAt} {outs : List DbOutput}
    (h : Underway request (some place) outs) :
    ∃ rest, Whole request (outs ++ rest) := by
  cases h with
  | enter request =>
      cases request with
      | ofAsset name lookup => exact ⟨_, .unknown name lookup⟩
      | getActiveFssServers =>
          exact ⟨_, .getActiveFssServers true true true true true []⟩
  | createEntry name entry id hfound =>
      exact ⟨_, .assetAdd name entry id true hfound⟩
  | commandGet name id hfound =>
      exact ⟨_, .assetGetCommand name id none hfound⟩
  | smmSettingsGet name id hfound =>
      exact ⟨_, .assetGetSmmSettings name id none hfound⟩
  | autocommitOff allocated =>
      exact ⟨_, .getActiveFssServers allocated true true true true []⟩
  | openCursor allocated off =>
      exact ⟨_, .getActiveFssServers allocated off true true true []⟩
  | fetch allocated off opened fetched =>
      exact ⟨_, .getActiveFssServers allocated off opened true true fetched⟩
  | closeCursor allocated off opened fetched =>
      refine ⟨[.executed .closeCursor (.executed true),
        .executed .setAutocommitOn (.executed true),
        .returned (.servers (getActiveFssServers allocated fetched))], ?_⟩
      rw [List.append_assoc]
      exact .getActiveFssServers allocated off opened true true fetched
  | autocommitOn allocated off opened closed fetched =>
      refine ⟨[.executed .setAutocommitOn (.executed true),
        .returned (.servers (getActiveFssServers allocated fetched))], ?_⟩
      rw [List.append_assoc]
      exact .getActiveFssServers allocated off opened closed true fetched

end Calls

/-- A call of a thread, with all that it does. -/
structure DbWork (τ : Type) where
  thread : τ
  request : DbRequest
  outs : List DbOutput
  whole : Whole request outs

variable {σ τ : Type} [DecidableEq τ]

def worksBy (thread : τ) (works : List (DbWork τ)) : List DbRequest :=
  (works.filter (·.thread = thread)).map (·.request)

theorem works_of_made {execute : Executes σ} {start s : σ}
    {made : List (Critical.Made DbRequest Met τ)} {outs : List DbOutput}
    (hrun : run (dbConnection execute).whole start made = some (s, outs)) :
    ∃ works : List (DbWork τ), (∀ t, madeBy t made = worksBy t works) ∧
      outs = works.flatMap (·.outs) ∧ s = replay execute start outs := by
  induction made generalizing start outs with
  | nil =>
      cases hrun
      exact ⟨[], fun _ => rfl, rfl, rfl⟩
  | cons first made ih =>
      obtain ⟨thread, request, mets⟩ := first
      obtain ⟨next, out, later, hwhole, hlater, rfl⟩ :=
        run_cons_eq_some.mp hrun
      obtain ⟨hunderway, rfl⟩ := underway_of_run (whole_eq_some.mp hwhole)
      cases hunderway with
      | finished whole =>
          obtain ⟨works, hmade, rfl, rfl⟩ := ih hlater
          refine ⟨⟨thread, request, out, whole⟩ :: works, ?_, rfl, ?_⟩
          · intro t
            have ht := hmade t
            unfold madeBy worksBy at ht ⊢
            by_cases hthread : thread = t <;> simp [hthread, ht]
          · rw [replay_append]

/-- Whatever threads call and however they are scheduled, the session sees
whole calls, one after the other, and perhaps the beginning of one more: those
that the threads made, each thread in its order, apart from the calls that
wait.  It is what their statements have made of it, whatever the library and
the database make of a statement. -/
theorem dbCalls_serial (execute : Executes σ) {start : σ}
    {events : List (ThreadsEvent DbRequest Met Empty τ)}
    {final : Threads σ DbRequest DbAt τ} {outs : List DbOutput}
    (hrun : run ((dbConnection execute).threads (τ := τ))
      { shared := start } events = some (final, outs)) :
    ∃ (works : List (DbWork τ)) (last : Option (DbWork τ))
      (begun : List DbOutput),
      (∀ t, calledBy t events =
        worksBy t (works ++ last.toList) ++ (final.waiting t).toList) ∧
      last.map (·.thread) = final.holder.map Prod.fst ∧
      begun <+: last.elim [] (·.outs) ∧
      outs = works.flatMap (·.outs) ++ begun ∧
      final.shared = replay execute start outs := by
  cases threads_serial (fun _ change => nomatch change) hrun with
  | between hmade hcalls =>
      obtain ⟨works, hworks, rfl, rfl⟩ := works_of_made hmade
      refine ⟨works, none, [], fun t => ?_, rfl, List.prefix_rfl,
        (List.append_nil _).symm, rfl⟩
      rw [hcalls, hworks, Option.toList_none, List.append_nil]
  | @within made middle shared waiting early late thread request mets place
      hmade hrest hcalls =>
      obtain ⟨works, hworks, rfl, rfl⟩ := works_of_made hmade
      obtain ⟨hunderway, rfl⟩ := underway_of_run hrest
      obtain ⟨rest, hwhole⟩ := hunderway.finish
      refine ⟨works, some ⟨thread, request, late ++ rest, hwhole⟩, late,
        fun t => ?_, rfl, List.prefix_append _ _, rfl, ?_⟩
      · have hworks' := hworks t
        unfold madeBy worksBy at hworks'
        rw [hcalls, madeBy, worksBy, List.filter_append, List.filter_append,
          List.map_append, List.map_append, hworks', Option.toList_some]
        by_cases hthread : thread = t <;> simp [hthread]
      · rw [replay_append]

/-- One thread asks for the servers and another one wants to insert a row
meanwhile, which it does after the cursor's transaction has ended. -/
def insertDuringCursor : List (ThreadsEvent DbRequest Met Empty Bool) :=
  [.call true .getActiveFssServers, .lock true,
    .act true (.allocated true), .act true (.executed true),
    .call false (.ofAsset [55]
      (.assetAdd fun assetId => .rttCreateEntry assetId 12)),
    .act true (.executed true), .act true (.fetched none),
    .act true (.executed false), .act true (.executed true),
    .lock false, .act false (.assetId 3), .act false (.executed true)]

/-- A session that keeps what is committed and what is not. -/
structure PlainSession where
  autocommit : Bool := true
  pending : List DbCall := []
  committed : List DbCall := []

def PlainSession.execute : Executes PlainSession
  | s, .insert row, .executed true =>
      if s.autocommit then { s with committed := s.committed ++ [row] }
      else { s with pending := s.pending ++ [row] }
  | s, .setAutocommitOff, .executed true => { s with autocommit := false }
  | s, .setAutocommitOn, .executed true =>
      ⟨true, [], s.committed ++ s.pending⟩
  | s, _, _ => s

theorem dbCalls_serial_insertDuringCursor :
    ∃ final outs,
      run (dbConnection PlainSession.execute).threads { shared := {} }
        insertDuringCursor = some (final, outs) ∧
      final.shared.committed = [.rttCreateEntry 3 12] ∧
      ∃ (works : List (DbWork Bool)) (last : Option (DbWork Bool))
        (begun : List DbOutput),
        (∀ t, calledBy t insertDuringCursor =
          worksBy t (works ++ last.toList) ++ (final.waiting t).toList) ∧
        last.map (·.thread) = final.holder.map Prod.fst ∧
        begun <+: last.elim [] (·.outs) ∧
        outs = works.flatMap (·.outs) ++ begun ∧
        final.shared = replay PlainSession.execute {} outs :=
  ⟨_, _, rfl, rfl, dbCalls_serial _ rfl⟩

/-! What becomes of the rows. -/

/-- The statements that neither write nor begin or end a transaction. -/
def Statement.Reads : Statement → Prop
  | .insert _ | .setAutocommitOff | .setAutocommitOn => False
  | _ => True

/-- What is documented of statements, in terms of the rows that are committed,
of those that wait for the end of a transaction, and of whether each statement
is a transaction of its own. -/
structure Documented (execute : Executes σ) (autocommit : σ → Prop)
    (pending committed : σ → List DbCall) : Prop where
  reads : ∀ {statement}, statement.Reads → ∀ s met,
    (autocommit (execute s statement met) ↔ autocommit s) ∧
    pending (execute s statement met) = pending s ∧
    committed (execute s statement met) = committed s
  insert : ∀ {s}, autocommit s → pending s = [] → ∀ row ok,
    autocommit (execute s (.insert row) (.executed ok)) ∧
    pending (execute s (.insert row) (.executed ok)) = [] ∧
    committed (execute s (.insert row) (.executed ok)) =
      committed s ++ if ok then [row] else []
  setAutocommitOff : ∀ s met,
    pending (execute s .setAutocommitOff met) = pending s ∧
    committed (execute s .setAutocommitOff met) = committed s
  setAutocommitOn : ∀ {s}, pending s = [] →
    autocommit (execute s .setAutocommitOn (.executed true)) ∧
    pending (execute s .setAutocommitOn (.executed true)) = [] ∧
    committed (execute s .setAutocommitOn (.executed true)) = committed s

/-- The rows that statements have inserted. -/
def inserted (outs : List DbOutput) : List DbCall :=
  outs.filterMap fun
    | .executed (.insert row) (.executed true) => some row
    | _ => none

/-- Nothing is written, and no transaction ends. -/
def DbOutput.Quiet : DbOutput → Prop
  | .executed statement _ => statement.Reads ∨ statement = .setAutocommitOff
  | .returned _ => True

theorem inserted_of_quiet {outs : List DbOutput}
    (h : ∀ out ∈ outs, out.Quiet) : inserted outs = [] := by
  rw [inserted, List.filterMap_eq_nil_iff]
  intro out hout
  have hquiet := h out hout
  cases out with
  | returned result => rfl
  | executed statement met =>
      cases statement with
      | insert row => exact absurd hquiet (by simp [DbOutput.Quiet, Statement.Reads])
      | _ => rfl

theorem quiet_cursorTurns (off opened : Bool)
    (fetched : List (ServerRow × Allocated)) :
    ∀ out ∈ cursorTurns off opened fetched, out.Quiet := by
  intro out hout
  rw [cursorTurns, List.mem_cons, List.mem_cons, List.mem_map] at hout
  rcases hout with rfl | rfl | ⟨turn, -, rfl⟩
  · exact Or.inr rfl
  · exact Or.inl trivial
  · exact Or.inl trivial

/-- No transaction is open, and these rows are committed. -/
structure RowsCommitted (autocommit : σ → Prop)
    (pending committed : σ → List DbCall) (s : σ) (rows : List DbCall) :
    Prop where
  autocommit : autocommit s
  pending : pending s = []
  committed : committed s = rows

section Documented

variable {execute : Executes σ} {autocommit : σ → Prop}
  {pending committed : σ → List DbCall} {s : σ} {rows : List DbCall}

theorem RowsCommitted.read (h : RowsCommitted autocommit pending committed s rows)
    (hdoc : Documented execute autocommit pending committed)
    (statement : Statement) (hreads : statement.Reads) (met : Met) :
    RowsCommitted autocommit pending committed (execute s statement met) rows where
  autocommit := (hdoc.reads hreads s met).1.mpr h.autocommit
  pending := (hdoc.reads hreads s met).2.1.trans h.pending
  committed := (hdoc.reads hreads s met).2.2.trans h.committed

theorem RowsCommitted.insert (h : RowsCommitted autocommit pending committed s rows)
    (hdoc : Documented execute autocommit pending committed) (row : DbCall)
    (ok : Bool) :
    RowsCommitted autocommit pending committed
      (execute s (.insert row) (.executed ok))
      (rows ++ if ok then [row] else []) := by
  obtain ⟨hauto, hpending, hcommitted⟩ :=
    hdoc.insert h.autocommit h.pending row ok
  exact ⟨hauto, hpending, h.committed ▸ hcommitted⟩

theorem Documented.replay_quiet
    (h : Documented execute autocommit pending committed)
    {outs : List DbOutput} (hquiet : ∀ out ∈ outs, out.Quiet) :
    pending (replay execute s outs) = pending s ∧
      committed (replay execute s outs) = committed s := by
  induction outs generalizing s with
  | nil => exact ⟨rfl, rfl⟩
  | cons out outs ih =>
      obtain ⟨hout, houts⟩ := List.forall_mem_cons.mp hquiet
      obtain ⟨hpending, hcommitted⟩ := @ih (out.replay execute s) houts
      have hfirst : pending (out.replay execute s) = pending s ∧
          committed (out.replay execute s) = committed s := by
        cases out with
        | returned result => exact ⟨rfl, rfl⟩
        | executed statement met =>
            rcases hout with hreads | rfl
            · exact (h.reads hreads s met).2
            · exact h.setAutocommitOff s met
      exact ⟨hpending.trans hfirst.1, hcommitted.trans hfirst.2⟩

/-- A call that finds no transaction open leaves none open, and the rows that
it inserts are committed. -/
theorem RowsCommitted.whole (h : RowsCommitted autocommit pending committed s rows)
    (hdoc : Documented execute autocommit pending committed)
    {request : DbRequest} {outs : List DbOutput} (hwhole : Whole request outs)
    (hon : .executed .setAutocommitOn (.executed false) ∉ outs) :
    RowsCommitted autocommit pending committed (replay execute s outs)
      (rows ++ inserted outs) := by
  have hasked : ∀ name id, RowsCommitted autocommit pending committed
      (execute s (.selectAssetId name) (.assetId id)) rows :=
    fun name id => h.read hdoc (.selectAssetId name) trivial (.assetId id)
  cases hwhole with
  | unknown name lookup =>
      rw [show inserted _ = [] from rfl, List.append_nil]
      exact hasked _ 0
  | checkAsset name id found =>
      rw [show inserted _ = [] from rfl, List.append_nil]
      exact hasked _ id
  | assetAdd name entry id ok found =>
      have hinserted := (hasked (name.takeWhile (· ≠ 0)) id).insert hdoc
        (entry id) ok
      cases ok with
      | true => exact hinserted
      | false => exact hinserted
  | assetGetCommand name id row found =>
      rw [show inserted _ = [] from rfl, List.append_nil]
      exact (hasked (name.takeWhile (· ≠ 0)) id).read hdoc
        (.selectCommand id) trivial (.command row)
  | assetGetSmmSettings name id row found =>
      rw [show inserted _ = [] from rfl, List.append_nil]
      exact (hasked (name.takeWhile (· ≠ 0)) id).read hdoc
        (.selectSmmSettings id) trivial (.settings row)
  | getActiveFssServers allocated off opened closed on fetched =>
      have hquiet : ∀ out ∈ cursorTurns off opened fetched ++
          [.executed .fetch (.fetched none),
            .executed .closeCursor (.executed closed)], out.Quiet := by
        refine List.forall_mem_append.mpr ⟨quiet_cursorTurns _ _ _, ?_⟩
        simp [DbOutput.Quiet, Statement.Reads]
      obtain rfl : on = true := by
        cases on with
        | true => rfl
        | false => exact absurd (List.mem_append_right _ (by simp)) hon
      obtain ⟨hpending, hcommitted⟩ :=
        @Documented.replay_quiet _ _ _ _ _ s hdoc _ hquiet
      obtain ⟨hauto, hnone, hkept⟩ :=
        hdoc.setAutocommitOn (hpending.trans h.pending)
      have hrows : inserted (cursorTurns off opened fetched ++
          [.executed .fetch (.fetched none),
            .executed .closeCursor (.executed closed),
            .executed .setAutocommitOn (.executed true),
            .returned (.servers (getActiveFssServers allocated fetched))]) =
          [] := by
        rw [inserted, List.filterMap_append, ← inserted, ← inserted,
          inserted_of_quiet (quiet_cursorTurns _ _ _)]
        rfl
      rw [hrows, List.append_nil, replay, List.foldl_append]
      rw [replay, List.foldl_append] at hauto hnone hkept hcommitted
      exact ⟨hauto, hnone, hkept.trans (hcommitted.trans h.committed)⟩

end Documented

/-! What the calls leave behind is what the handlers of messages write. -/

/-- The call that an effect of a handler is. -/
def Effect.request : Effect → Option DbRequest
  | .assetAddRtt name rtt =>
      some (.ofAsset name (.assetAdd fun assetId =>
        .rttCreateEntry assetId rtt))
  | .assetAddStatus name batPercent batMahUsed batVoltage =>
      some (.ofAsset name (.assetAdd fun assetId =>
        .statusCreateEntry assetId batPercent.toUInt16 batMahUsed batVoltage))
  | .assetAddSearchStatus name searchId completed total =>
      some (.ofAsset name (.assetAdd fun assetId =>
        .searchStatusCreateEntry assetId searchId completed total))
  | .assetAddPosition name latitude longitude altitude =>
      some (.ofAsset name (.assetAdd fun assetId =>
        .positionCreateEntry assetId latitude longitude
          altitude.toUInt32.toInt32))
  | .send _ | .sendLookup _ _ | .clientDisconnected | .relay _ => none

/-- The rows of a call, where every asset has the id that the connection finds
for its name. -/
def DbConnection.rowsOf (dbc : DbConnection) : DbRequest → List DbCall
  | .ofAsset name (.assetAdd entry) => dbc.create name entry
  | _ => []

theorem rowsOf_request (dbc : DbConnection) {effect : Effect}
    {request : DbRequest} (h : effect.request = some request) :
    dbc.rowsOf request = dbc.calls effect := by
  cases effect <;> cases h <;> rfl

omit [DecidableEq τ] in
/-- Whole calls, one after the other. -/
theorem RowsCommitted.works {execute : Executes σ} {autocommit : σ → Prop}
    {pending committed : σ → List DbCall} {s : σ} {rows : List DbCall}
    (h : RowsCommitted autocommit pending committed s rows)
    (hdoc : Documented execute autocommit pending committed)
    {works : List (DbWork τ)}
    (hon : ∀ work ∈ works,
      .executed .setAutocommitOn (.executed false) ∉ work.outs) :
    RowsCommitted autocommit pending committed
      (replay execute s (works.flatMap (·.outs)))
      (rows ++ works.flatMap fun work => inserted work.outs) := by
  induction works generalizing s rows with
  | nil =>
      rw [List.flatMap_nil, List.flatMap_nil, List.append_nil]
      exact h
  | cons work works ih =>
      obtain ⟨hfirst, hothers⟩ := List.forall_mem_cons.mp hon
      have hrest := ih (h.whole hdoc work.whole hfirst) hothers
      rw [List.flatMap_cons, List.flatMap_cons, replay_append,
        ← List.append_assoc]
      exact hrest

end FlightSafety.Server
