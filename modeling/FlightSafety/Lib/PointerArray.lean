/-
Arrays of pointers on the heap that end with a null pointer.  A block has the
cells that were asked for, and a cell has no value until it is written.
Reading such a cell, or one that is not there, is a fault.
-/
import Mathlib.Data.List.ReduceOption

namespace PointerArray

inductive Cell (α : Type) where
  | uninitialised
  | null
  | pointer (x : α)
deriving Repr, DecidableEq

abbrev Block (α : Type) := List (Cell α)

/-- What is undefined: a cell outside the block, a cell without a value, a
null pointer that is followed. -/
inductive Fault where
  | outOfBounds
  | uninitialised
  | null
deriving Repr, DecidableEq

variable {α β : Type}

/-- A pointer, which may be null. -/
def Cell.ofOption : Option α → Cell α
  | none => .null
  | some x => .pointer x

def malloc (size : Nat) : Block α :=
  List.replicate size .uninitialised

/-- Of no block, `realloc` makes a new one. -/
def realloc (b : Option (Block α)) (size : Nat) : Block α :=
  (b.getD []).take size ++ malloc (size - (b.getD []).length)

def write (b : Block α) (i : Nat) (c : Cell α) : Except Fault (Block α) :=
  if i < b.length then .ok (b.set i c) else .error .outOfBounds

/-- The loop that ends at the first null pointer. -/
def forEach (f : α → Except Fault β) : Block α → Except Fault (List β)
  | [] => .error .outOfBounds
  | .uninitialised :: _ => .error .uninitialised
  | .null :: _ => .ok []
  | .pointer x :: rest => do
      let y ← f x
      let ys ← forEach f rest
      return y :: ys

/-- Some pointers and the null pointer at the end. -/
def terminated (slots : List (Option α)) : Block α :=
  slots.map .ofOption ++ [.null]

@[simp] theorem length_terminated (slots : List (Option α)) :
    (terminated slots).length = slots.length + 1 := by
  simp [terminated]

theorem write_of_lt {b : Block α} {i : Nat} (h : i < b.length) (c : Cell α) :
    write b i c = .ok (b.set i c) :=
  if_pos h

/-- A block with one more cell than its array. -/
theorem realloc_terminated (slots : List (Option α)) :
    realloc (some (terminated slots)) (slots.length + 2) =
      slots.map .ofOption ++ [.null, .uninitialised] := by
  have hshort : (terminated slots).length ≤ slots.length + 2 := by simp
  simp only [realloc, Option.getD_some, List.take_of_length_le hshort,
    length_terminated, malloc]
  have hone : slots.length + 2 - (slots.length + 1) = 1 := by omega
  rw [hone, terminated, List.append_assoc]
  rfl

/-- The two writes that put a pointer behind the others and move the end. -/
theorem push_terminated (slots : List (Option α)) (x : Option α)
    (last : Cell α) :
    (write (slots.map .ofOption ++ [last, .uninitialised]) slots.length
        (.ofOption x) >>= fun b => write b (slots.length + 1) .null) =
      .ok (terminated (slots ++ [x])) := by
  have hfirst : slots.length <
      (slots.map Cell.ofOption ++ [last, .uninitialised]).length := by
    simp
  have hset : (slots.map Cell.ofOption ++ [last, .uninitialised]).set
      slots.length (.ofOption x) =
        slots.map .ofOption ++ [.ofOption x, .uninitialised] := by
    simp [List.set_append_right]
  rw [write_of_lt hfirst, hset]
  change write (slots.map Cell.ofOption ++ [.ofOption x, .uninitialised])
    (slots.length + 1) .null = _
  rw [write_of_lt (by simp)]
  simp [List.set_append_right, terminated]

/-- The loop stays inside an array that has its end, and sees what stands in
front of the first null pointer. -/
theorem forEach_terminated (f : α → Except Fault β) (slots : List (Option α)) :
    forEach f (terminated slots) =
      (slots.takeWhile Option.isSome).reduceOption.mapM f := by
  induction slots with
  | nil => rfl
  | cons slot slots ih =>
      cases slot with
      | none => rfl
      | some x =>
          change (f x >>= fun y => forEach f (terminated slots) >>= fun ys =>
            pure (y :: ys)) = _
          rw [ih, List.takeWhile_cons_of_pos rfl,
            List.reduceOption_cons_of_some, List.mapM_cons]

end PointerArray
