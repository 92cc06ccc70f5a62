import DataAccess.Fault

/-!
This module contains cancellation. A signal is a flag that work looks at; a handle is what its holder
cancels by. The first cancellation of a handle runs the handle's action, unless the handle has been
disarmed, and an action can set signals and cancel further handles. Main statement: cancelling always
comes to an end, as every handle is cancelled for the first time only once.
-/

namespace DataAccess

/-- How an action refers to a signal or handle: by number, or by a name that is looked up when the
action runs. -/
inductive CancelRef where
  | number (n : Nat)
  | name (s : String)
deriving DecidableEq, Repr

inductive CancelStep where
  | signal (r : CancelRef)
  | handle (r : CancelRef)
  | count (label : String)
deriving DecidableEq, Repr

structure CancelHandle where
  cancelled : Bool
  /-- What the first cancellation does; nothing once it was done or the handle was disarmed. -/
  action : List CancelStep
deriving DecidableEq, Repr

structure Cancellation where
  signals : List Bool
  handles : List CancelHandle
  signalNames : List (String × Nat)
  handleNames : List (String × Nat)
  runs : List String
deriving DecidableEq, Repr

namespace Cancellation

def empty : Cancellation :=
  ⟨[], [], [], [], []⟩

def newSignal (c : Cancellation) : Nat × Cancellation :=
  (c.signals.length, { c with signals := c.signals ++ [false] })

def newHandle (c : Cancellation) (action : List CancelStep) : Nat × Cancellation :=
  (c.handles.length, { c with handles := c.handles ++ [⟨false, action⟩] })

/-- Names a signal; an earlier one of that name loses it. -/
def nameSignal (c : Cancellation) (name : String) (n : Nat) : Cancellation :=
  { c with signalNames := (name, n) :: c.signalNames }

/-- Names a handle; an earlier one of that name loses it. -/
def nameHandle (c : Cancellation) (name : String) (n : Nat) : Cancellation :=
  { c with handleNames := (name, n) :: c.handleNames }

def resolve (names : List (String × Nat)) : CancelRef → Option Nat
  | .number n => some n
  | .name s => names.lookup s

def isSet (c : Cancellation) (signal : Nat) : Bool :=
  c.signals[signal]?.getD false

def isCancelled (c : Cancellation) (handle : Nat) : Bool :=
  (c.handles[handle]?.map (·.cancelled)).getD false

def setSignal (c : Cancellation) (signal : Nat) : Cancellation :=
  { c with signals := c.signals.set signal true }

def setSignalRef (c : Cancellation) (r : CancelRef) : Cancellation :=
  match resolve c.signalNames r with
  | some n => c.setSignal n
  | none => c

def check (c : Cancellation) (signal : Nat) : Except Fault Unit :=
  if c.isSet signal then .error .cancelled else .ok ()

def disarm (c : Cancellation) (handle : Nat) : Cancellation :=
  match c.handles[handle]? with
  | some h => { c with handles := c.handles.set handle { h with action := [] } }
  | none => c

def handle? (c : Cancellation) (r : CancelRef) : Option (Nat × CancelHandle) := do
  let n ← resolve c.handleNames r
  return (n, ← c.handles[n]?)

def pending (c : Cancellation) : Nat :=
  c.handles.countP (!·.cancelled)

def take (c : Cancellation) (handle : Nat) : Cancellation :=
  { c with handles := c.handles.set handle ⟨true, []⟩ }

theorem getElem_of_handle? {c : Cancellation} {r : CancelRef} {n : Nat} {h : CancelHandle}
    (found : c.handle? r = some (n, h)) : c.handles[n]? = some h := by
  unfold handle? at found
  cases hr : resolve c.handleNames r with
  | none => simp [hr] at found
  | some m =>
    cases hm : c.handles[m]? with
    | none => simp [hr, hm] at found
    | some g =>
      simp only [hr, hm, Option.bind_eq_bind, Option.bind_some, Option.pure_def,
        Option.some.injEq, Prod.mk.injEq] at found
      rw [← found.1, ← found.2, hm]

theorem pending_take {c : Cancellation} {n : Nat} {h : CancelHandle}
    (found : c.handles[n]? = some h) (fresh : h.cancelled = false) :
    (c.take n).pending < c.pending := by
  obtain ⟨lt, rfl⟩ := List.getElem?_eq_some_iff.1 found
  have pos : 0 < c.pending := List.countP_pos_iff.2 ⟨_, List.getElem_mem lt, by simp [fresh]⟩
  have drop : (c.take n).pending = c.pending - 1 := by
    simp only [take, pending]
    rw [List.countP_set lt]
    simp [fresh]
  omega

theorem pending_setSignalRef (c : Cancellation) (r : CancelRef) :
    (c.setSignalRef r).pending = c.pending := by
  unfold setSignalRef
  split <;> rfl

/-- Does steps in order. The steps of an action are done where the handle is cancelled, in front of
the steps that wait. -/
def run (c : Cancellation) : List CancelStep → Cancellation
  | [] => c
  | .signal r :: rest => (c.setSignalRef r).run rest
  | .count label :: rest => { c with runs := label :: c.runs }.run rest
  | .handle r :: rest =>
    match _found : c.handle? r with
    | none => c.run rest
    | some (n, h) =>
      if _fresh : h.cancelled = true then c.run rest else (c.take n).run (h.action ++ rest)
termination_by steps => (c.pending, steps.length)
decreasing_by
  . rw [pending_setSignalRef]
    exact Prod.Lex.right _ (Nat.lt_succ_self _)
  . exact Prod.Lex.right _ (Nat.lt_succ_self _)
  . exact Prod.Lex.right _ (Nat.lt_succ_self _)
  . exact Prod.Lex.right _ (Nat.lt_succ_self _)
  . exact Prod.Lex.left _ _ (pending_take (getElem_of_handle? _found) (by simpa using _fresh))

def cancel (c : Cancellation) (handle : Nat) : Cancellation :=
  c.run [.handle (.number handle)]

end Cancellation

end DataAccess
