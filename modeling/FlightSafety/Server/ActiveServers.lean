/-
The list of active servers on its way from the database: the rows of a cursor
go into an array of C structures that grows by one at a time, and from there
into the list that the servers message is made of.  Every allocation may fail.
-/
import Mathlib.Data.List.TakeWhile
import FlightSafety.Lib.PointerArray
import FlightSafety.Lib.Octets

namespace FlightSafety.Server

open Octets PointerArray

/-- `SMM_SERVER_LEN`, which counts the NUL at the end. -/
def smmServerLen : Nat := 256

/-- A string of the database that fits an array of `char` with the NUL at its
end. -/
structure CString (size : Nat) where
  bytes : Bytes
  fits : bytes.length < size
  unbroken : 0 ∉ bytes
deriving Repr, DecidableEq

/-- A row that `FETCH` gets into its variables.  At one that it does not, and
at the end of the rows, the loop is left. -/
structure ServerRow where
  address : CString smmServerLen
  port : Int32
deriving Repr, DecidableEq

/-- An entry of the list, with the port as 16 bits. -/
def ServerRow.entry (row : ServerRow) : Bytes × UInt16 :=
  (row.address.bytes, row.port.toUInt32.toUInt16)

/-- Which allocations of one turn of the loop succeed: that of the structure,
that of its address and that of the longer array. -/
structure Allocated where
  server : Bool := true
  address : Bool := true
  array : Bool := true
deriving Repr, DecidableEq

/-- `struct fss_server_s`. -/
structure FssServerS where
  address : Option Bytes
  port : Int32
deriving Repr, DecidableEq

/-- The variables `res` and `len`. -/
structure ServerArray where
  res : Option (Block FssServerS)
  len : Nat := 0
deriving Repr, DecidableEq

/-- The structure that is allocated for a row. -/
def newServer (row : ServerRow) (allocated : Allocated) : Option FssServerS :=
  if allocated.server then
    some {
      address := if allocated.address then some row.address.bytes else none
      port := row.port }
  else none

/-- One turn of the loop, after its `FETCH`.  When the array cannot grow it is
kept as it is, and the structure is freed. -/
def storeServer (row : ServerRow) (allocated : Allocated) (a : ServerArray) :
    Except Fault ServerArray :=
  let s := newServer row allocated
  if allocated.array then do
    let res ← write (realloc a.res (a.len + 2)) a.len (.ofOption s)
    let res ← write res (a.len + 1) .null
    return { res := some res, len := a.len + 1 }
  else return a

def storeServers (a : ServerArray) :
    List (ServerRow × Allocated) → Except Fault ServerArray
  | [] => return a
  | (row, allocated) :: rest => do
      let a ← storeServer row allocated a
      storeServers a rest

/-- The array that holds its end alone, if it is allocated. -/
def emptyArray (allocated : Bool) : Except Fault (Option (Block FssServerS)) :=
  if allocated then some <$> write (malloc 1) 0 .null else pure none

/-- `db_active_fss_servers_get`. -/
def dbActiveFssServersGet (allocated : Bool)
    (fetched : List (ServerRow × Allocated)) :
    Except Fault (Option (Block FssServerS)) := do
  let res ← emptyArray allocated
  let a ← storeServers { res := res } fetched
  return a.res

/-- The arguments of `fss_server_details`: the address becomes a `std::string`
and the port a `uint16_t`. -/
def FssServerS.details (s : FssServerS) : Except Fault (Bytes × UInt16) :=
  match s.address with
  | none => .error .null
  | some address => .ok (address, s.port.toUInt32.toUInt16)

/-- `get_active_fss_servers`. -/
def getActiveFssServers (allocated : Bool)
    (fetched : List (ServerRow × Allocated)) :
    Except Fault (List (Bytes × UInt16)) := do
  match ← dbActiveFssServersGet allocated fetched with
  | none => return []
  | some servers => forEach FssServerS.details servers

/-- What is in the array when the pointers in it are those of some slots. -/
structure Holds (a : ServerArray) (slots : List (Option FssServerS)) : Prop where
  len : a.len = slots.length
  res : a.res = some (terminated slots) ∨ a.res = none ∧ slots = []

theorem Holds.store {a : ServerArray} {slots : List (Option FssServerS)}
    (h : Holds a slots) (row : ServerRow) (allocated : Allocated) :
    ∃ a', storeServer row allocated a = .ok a' ∧
      Holds a' (slots ++
        if allocated.array then [newServer row allocated] else []) := by
  by_cases harray : allocated.array = true
  · have hroom : ∃ last, realloc a.res (a.len + 2) =
        slots.map .ofOption ++ [last, .uninitialised] := by
      rw [h.len]
      rcases h.res with hres | ⟨hres, rfl⟩
      · rw [hres]
        exact ⟨_, realloc_terminated slots⟩
      · rw [hres]
        exact ⟨.uninitialised, rfl⟩
    obtain ⟨last, hroom⟩ := hroom
    have hpush := push_terminated slots (newServer row allocated) last
    refine ⟨⟨some (terminated (slots ++ [newServer row allocated])),
      a.len + 1⟩, ?_, ?_⟩
    · rw [storeServer, if_pos harray, hroom, h.len]
      have hbind := congrArg (· >>= fun res =>
        (pure { res := some res, len := slots.length + 1 } :
          Except Fault ServerArray)) hpush
      simp only [bind_assoc] at hbind
      exact hbind
    · rw [if_pos harray]
      exact ⟨by simp [h.len], .inl rfl⟩
  · refine ⟨a, if_neg harray, ?_⟩
    rw [if_neg harray, List.append_nil]
    exact h

/-- The slots that some turns of the loop fill. -/
def slotsOf (fetched : List (ServerRow × Allocated)) :
    List (Option FssServerS) :=
  (fetched.filter (·.2.array)).map fun turn => newServer turn.1 turn.2

theorem Holds.storeAll {a : ServerArray} {slots : List (Option FssServerS)}
    (h : Holds a slots) (fetched : List (ServerRow × Allocated)) :
    ∃ a', storeServers a fetched = .ok a' ∧
      Holds a' (slots ++ slotsOf fetched) := by
  induction fetched generalizing a slots with
  | nil =>
      refine ⟨a, rfl, ?_⟩
      rw [slotsOf, List.filter_nil, List.map_nil, List.append_nil]
      exact h
  | cons turn rest ih =>
      obtain ⟨a', hstore, hholds⟩ := h.store turn.1 turn.2
      obtain ⟨final, hrest, hfinal⟩ := ih hholds
      refine ⟨final, ?_, ?_⟩
      · rw [storeServers, hstore]
        exact hrest
      · rw [List.append_assoc] at hfinal
        convert hfinal using 2
        by_cases harray : turn.2.array = true <;> simp [slotsOf, harray]

/-- The entry for a row, unless its address was not allocated. -/
def entryOf (turn : ServerRow × Allocated) : Except Fault (Bytes × UInt16) :=
  if turn.2.address then .ok turn.1.entry else .error .null

/-- The turns of the loop that are listed: up to the first whose structure was
not allocated, apart from those for which the array could not grow. -/
def listed (fetched : List (ServerRow × Allocated)) :
    List (ServerRow × Allocated) :=
  (fetched.filter (·.2.array)).takeWhile (·.2.server)

theorem takeWhile_slotsOf (fetched : List (ServerRow × Allocated)) :
    (slotsOf fetched).takeWhile Option.isSome =
      (listed fetched).map fun turn => newServer turn.1 turn.2 := by
  rw [slotsOf, listed, List.takeWhile_map]
  congr 2
  funext turn
  cases hserver : turn.2.server <;> simp [newServer, hserver]

theorem mapM_details {fetched : List (ServerRow × Allocated)}
    (h : ∀ turn ∈ fetched, turn.2.server = true) :
    (fetched.map fun turn =>
        newServer turn.1 turn.2).reduceOption.mapM FssServerS.details =
      fetched.mapM entryOf := by
  induction fetched with
  | nil => rfl
  | cons turn rest ih =>
      obtain ⟨hserver, hrest⟩ := List.forall_mem_cons.mp h
      have hnew : newServer turn.1 turn.2 = some {
          address :=
            if turn.2.address then some turn.1.address.bytes else none
          port := turn.1.port } :=
        if_pos hserver
      rw [List.map_cons, hnew, List.reduceOption_cons_of_some, List.mapM_cons,
        List.mapM_cons, ih hrest]
      congr 1
      rw [entryOf]
      cases turn.2.address <;> rfl

/-- Whatever allocations fail, the array ends with a null pointer, is written
and read inside its block and holds nothing that has not been written, so that
the rows are listed as they should be. -/
theorem getActiveFssServers_eq (allocated : Bool)
    (fetched : List (ServerRow × Allocated)) :
    getActiveFssServers allocated fetched = (listed fetched).mapM entryOf := by
  have hstart : ∃ res, emptyArray allocated = .ok res ∧
      Holds { res := res } [] := by
    cases allocated with
    | false => exact ⟨none, rfl, rfl, .inr ⟨rfl, rfl⟩⟩
    | true => exact ⟨_, rfl, rfl, .inl rfl⟩
  obtain ⟨res, hres, hholds⟩ := hstart
  obtain ⟨final, hstore, hfinal⟩ := hholds.storeAll fetched
  have hget : dbActiveFssServersGet allocated fetched = .ok final.res := by
    rw [dbActiveFssServersGet, hres]
    change (storeServers { res := res } fetched >>= fun a => pure a.res) = _
    rw [hstore]
    rfl
  have hlisted : (slotsOf fetched).takeWhile Option.isSome = _ :=
    takeWhile_slotsOf fetched
  rw [getActiveFssServers, hget]
  rw [List.nil_append] at hfinal
  rcases hfinal.res with hblock | ⟨hnone, hempty⟩
  · rw [hblock]
    change forEach FssServerS.details (terminated (slotsOf fetched)) = _
    rw [forEach_terminated, hlisted, mapM_details]
    intro turn hturn
    simpa using List.mem_takeWhile_imp hturn
  · rw [hempty] at hlisted
    rw [hnone, List.map_eq_nil_iff.mp hlisted.symm]
    rfl

theorem mapM_entryOf (turns : List (ServerRow × Allocated)) :
    (∀ fault, turns.mapM entryOf = .error fault →
      fault = .null ∧ ∃ turn ∈ turns, turn.2.address = false) ∧
    ∀ entries, turns.mapM entryOf = .ok entries →
      entries = turns.map (·.1.entry) := by
  induction turns with
  | nil =>
      refine ⟨fun fault h => (by cases h), fun entries h => ?_⟩
      cases h
      rfl
  | cons turn rest ih =>
      obtain ⟨hfaults, hentries⟩ := ih
      rw [List.mapM_cons, entryOf]
      cases haddress : turn.2.address with
      | false =>
          refine ⟨fun fault h => ?_, fun entries h => (by cases h)⟩
          cases h
          exact ⟨rfl, turn, List.mem_cons_self, haddress⟩
      | true =>
          cases hrest : rest.mapM entryOf with
          | error fault =>
              obtain ⟨hnull, other, hother, hfailed⟩ := hfaults fault hrest
              refine ⟨fun fault' h => ?_, fun entries h => (by cases h)⟩
              cases h
              exact ⟨hnull, other, List.mem_cons_of_mem _ hother, hfailed⟩
          | ok entries =>
              refine ⟨fun fault h => (by cases h), fun entries' h => ?_⟩
              cases h
              rw [List.map_cons, hentries entries hrest]

/-- Whatever allocations fail, no cell is written or read outside the array or
before it has a value.  The one thing that can go wrong is that an address was
not allocated; otherwise the list has, in order, the rows up to the first whose
structure was not allocated, apart from those for which the array could not
grow. -/
theorem activeServers_inBounds (allocated : Bool)
    (fetched : List (ServerRow × Allocated)) :
    (∀ fault, getActiveFssServers allocated fetched = .error fault →
      fault = .null ∧ ∃ turn ∈ fetched, turn.2.address = false) ∧
    ∀ entries, getActiveFssServers allocated fetched = .ok entries →
      entries = ((fetched.filter (·.2.array)).takeWhile (·.2.server)).map
        (·.1.entry) := by
  obtain ⟨hfaults, hentries⟩ := mapM_entryOf (listed fetched)
  rw [getActiveFssServers_eq]
  refine ⟨fun fault h => ?_, hentries⟩
  obtain ⟨hnull, turn, hturn, hfailed⟩ := hfaults fault h
  have hkept : turn ∈ fetched :=
    List.mem_of_mem_filter ((List.takeWhile_sublist _).subset hturn)
  exact ⟨hnull, turn, hkept, hfailed⟩

end FlightSafety.Server
