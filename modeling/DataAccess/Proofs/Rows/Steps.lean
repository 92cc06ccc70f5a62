import DataAccess.Proofs.Database.Signals
import Mathlib.Tactic.Tauto

/-!
This module contains the history of a cursor, the latest act first: it goes from row to row, is read, closed and
dropped, and signals are set. Main statement: the steps that succeed make the rows current one after the other,
until a step finds none or the cursor is released, which runs its hook once.
-/

namespace DataAccess

namespace Cursor

section

variable {c : Cursor} {signals : Cancellation}

theorem next_of_closed (hclosed : c.closed = true) : c.next signals = (.ok false, c) := by
  simp [next, hclosed]

theorem next_of_open (hopen : c.closed = false) (hset : c.signal.any signals.isSet = false)
    : c.next signals = (.ok (!c.rest.isEmpty), { c with current := c.rest.head?, rest := c.rest.tail }) := by
  simp [next, hopen, hset]

end

/-- Something that is done with a cursor, or a signal that is set meanwhile. -/
inductive Act where
  | next
  | get (t : ColumnType) (index : Nat)
  | isNull (index : Nat)
  | columnIndex (name : String)
  | close
  | drop
  | cancel (signal : Nat)
deriving DecidableEq

namespace Act

def apply : Act → Cursor × Cancellation → Cursor × Cancellation
  | next, (c, signals) => ((c.next signals).2, signals)
  | get _ _, now | isNull _, now | columnIndex _, now => now
  | close, (c, signals) | drop, (c, signals) => (c.close, signals)
  | cancel signal, (c, signals) => (c, signals.setSignal signal)

/-- Whether an act only looks at the cursor. -/
def reads : Act → Bool
  | get _ _ | isNull _ | columnIndex _ => true
  | next | close | drop | cancel _ => false

end Act

end Cursor

/-- What a cursor is opened with, and the signals that there are then. -/
structure Opening where
  columns : List String
  rows : List RowValues
  signal : Option Nat
  hooked : Bool
  signals : Cancellation

namespace Opening

open Cursor (Act)

def cursor (o : Opening) : Cursor :=
  let c := Cursor.new o.columns o.rows o.signal
  if o.hooked then c.onClose else c

def after (o : Opening) (past : List Act) : Cursor × Cancellation :=
  past.foldr Act.apply (o.cursor, o.signals)

def step (o : Opening) (past : List Act) : Except Fault Bool × Cursor :=
  (o.after past).1.next (o.after past).2

def visited (o : Opening) : List Act → List (Option RowValues)
  | .next :: past =>
    match o.step past with
    | (.ok true, c) => o.visited past ++ [c.current]
    | (.ok false, _) | (.error _, _) => o.visited past
  | _ :: past => o.visited past
  | [] => []

def Released (past : List Act) : Prop :=
  .close ∈ past ∨ .drop ∈ past

instance (past : List Act) : Decidable (Released past) :=
  inferInstanceAs (Decidable (_ ∨ _))

def Cancelled (o : Opening) (past : List Act) : Prop :=
  ∃ n, o.signal = some n ∧ (o.signals.isSet n = true ∨ .cancel n ∈ past)

def Ended (o : Opening) (past : List Act) : Prop :=
  ∃ newer older, past = newer ++ .next :: older ∧ (o.step older).1 = .ok false

section

variable {o : Opening} {past : List Act} {a : Act}

theorem released_cons : Released (a :: past) ↔ (a = .close ∨ a = .drop) ∨ Released past := by
  unfold Released
  simp only [List.mem_cons, eq_comm]
  tauto

theorem ended_cons : o.Ended (a :: past) ↔ a = .next ∧ (o.step past).1 = .ok false ∨ o.Ended past := by
  constructor
  . rintro ⟨newer, older, hpast, hstep⟩
    cases newer with
    | nil =>
      obtain ⟨rfl, rfl⟩ := List.cons.inj hpast
      exact .inl ⟨rfl, hstep⟩
    | cons first newer =>
      obtain ⟨rfl, rfl⟩ := List.cons.inj hpast
      exact .inr ⟨newer, older, rfl, hstep⟩
  . rintro (⟨rfl, hstep⟩ | ⟨newer, older, rfl, hstep⟩)
    . exact ⟨[], past, rfl, hstep⟩
    . exact ⟨a :: newer, older, rfl, hstep⟩

end

/-- How a cursor stands that was opened, has been released or not, has ended or not, and has been at some rows. -/
structure Stands (o : Opening) (released ended : Prop) (seen : List (Option RowValues)) (c : Cursor) : Prop where
  columns : c.columns = o.columns
  count : c.count = o.rows.length
  signal : c.signal = o.signal
  hooked : c.hooked = o.hooked
  closed : c.closed = true ↔ released
  hookRuns : c.hookRuns = (c.closed && c.hooked).toNat
  visited : seen = (o.rows.take seen.length).map some
  rest : c.closed = false → c.rest = o.rows.drop seen.length
  current : c.closed = false → ¬ended → c.current = seen.getLast?.join
  gone : c.closed = true ∨ ended → c.current = none
  ended : c.closed = false → ended → c.rest = []

namespace Stands

variable {o : Opening} {released ended : Prop} {seen : List (Option RowValues)} {c : Cursor}

theorem opened (o : Opening) : o.Stands False False [] o.cursor := by
  unfold cursor
  cases hhooked : o.hooked with
  | true | false => constructor <;> simp [Cursor.new, Cursor.onClose, hhooked]

theorem close (h : o.Stands released ended seen c) : o.Stands True ended seen c.close := by
  unfold Cursor.close
  cases hclosed : c.closed with
  | true =>
    rw [if_pos rfl]
    exact { h with closed := by simp [hclosed] }
  | false =>
    have hruns := h.hookRuns
    rw [hclosed] at hruns
    rw [if_neg nofun]
    exact {
      columns := h.columns
      count := h.count
      signal := h.signal
      hooked := h.hooked
      closed := by simp
      hookRuns := by
        change (if c.hooked = true then c.hookRuns + 1 else c.hookRuns) = (true && c.hooked).toNat
        rw [hruns]
        cases c.hooked with
        | true | false => rfl
      visited := h.visited
      rest := nofun
      current := nofun
      gone := fun _ => rfl
      ended := nofun }

theorem endAgain (h : o.Stands released ended seen c) (hclosed : c.closed = true) : o.Stands released True seen c :=
  { h with
    current := fun hopen => absurd (hclosed.symm.trans hopen) (by decide)
    gone := fun _ => h.gone (.inl hclosed)
    ended := fun hopen => absurd (hclosed.symm.trans hopen) (by decide) }

theorem stop (h : o.Stands released ended seen c) (hopen : c.closed = false) (hrest : c.rest = [])
    : o.Stands released True seen { c with current := none, rest := [] } where
  columns := h.columns
  count := h.count
  signal := h.signal
  hooked := h.hooked
  closed := h.closed
  hookRuns := h.hookRuns
  visited := h.visited
  rest _ := hrest ▸ h.rest hopen
  current _ hended := absurd trivial hended
  gone _ := rfl
  ended _ _ := rfl

theorem go (h : o.Stands released ended seen c) (hopen : c.closed = false) {row : RowValues} {more : List RowValues}
    (hrest : c.rest = row :: more)
    : o.Stands released ended (seen ++ [some row]) { c with current := some row, rest := more } := by
  have hdrop : o.rows.drop seen.length = row :: more := (h.rest hopen).symm.trans hrest
  have hrow : o.rows[seen.length]? = some row := by rw [← List.head?_drop, hdrop]; rfl
  have hended : ¬ended := fun hended => by simp [h.ended hopen hended] at hrest
  exact {
    columns := h.columns
    count := h.count
    signal := h.signal
    hooked := h.hooked
    closed := h.closed
    hookRuns := h.hookRuns
    visited := by
      rw [List.length_append, List.length_singleton, List.take_add_one, hrow, List.map_append, ← h.visited]
      rfl
    rest := fun _ => by
      rw [List.length_append, List.length_singleton, ← List.tail_drop, hdrop]
      rfl
    current := fun _ _ => by simp
    gone := by simp [hopen, hended]
    ended := fun _ h => absurd h hended }

theorem congr {released' ended' : Prop} (h : o.Stands released ended seen c) (hreleased : released ↔ released')
    (hended : ended ↔ ended') : o.Stands released' ended' seen c :=
  propext hreleased ▸ propext hended ▸ h

end Stands

section

variable {o : Opening} {past : List Act}

theorem visited_next_of_ok {c : Cursor} (h : o.step past = (.ok true, c))
    : o.visited (.next :: past) = o.visited past ++ [c.current] := by
  rw [visited, h]

theorem visited_next_of_ne (h : (o.step past).1 ≠ .ok true) : o.visited (.next :: past) = o.visited past := by
  rw [visited]
  split
  . next hstep => exact absurd (congrArg Prod.fst hstep) h
  . rfl
  . rfl

theorem ended_next : o.Ended (.next :: past) ↔ (o.step past).1 = .ok false ∨ o.Ended past := by
  simp [ended_cons]

theorem stands_next (h : o.Stands (Released past) (o.Ended past) (o.visited past) (o.after past).1)
    : o.Stands (Released (.next :: past)) (o.Ended (.next :: past)) (o.visited (.next :: past)) (o.step past).2 := by
  have hreleased : Released past ↔ Released (.next :: past) := by simp [released_cons]
  cases hclosed : (o.after past).1.closed with
  | true =>
    have hstep : o.step past = (.ok false, (o.after past).1) := Cursor.next_of_closed hclosed
    have hended : True ↔ o.Ended (.next :: past) := by simp [ended_next, hstep]
    rw [visited_next_of_ne (by simp [hstep]), hstep]
    exact (h.endAgain hclosed).congr hreleased hended
  | false =>
    cases hset : (o.after past).1.signal.any (o.after past).2.isSet with
    | true =>
      have hstep : o.step past = (.error .cancelled, (o.after past).1) := Cursor.next_of_cancelled hclosed hset
      have hended : o.Ended past ↔ o.Ended (.next :: past) := by simp [ended_next, hstep]
      rw [visited_next_of_ne (by simp [hstep]), hstep]
      exact h.congr hreleased hended
    | false =>
      have hnext := Cursor.next_of_open hclosed hset
      cases hrest : (o.after past).1.rest with
      | nil =>
        rw [hrest] at hnext
        have hstep : o.step past = (.ok false, _) := hnext
        have hended : True ↔ o.Ended (.next :: past) := by simp [ended_next, hstep]
        rw [visited_next_of_ne (by simp [hstep]), hstep]
        exact (h.stop hclosed hrest).congr hreleased hended
      | cons row more =>
        rw [hrest] at hnext
        have hstep : o.step past = (.ok true, _) := hnext
        have hended : o.Ended past ↔ o.Ended (.next :: past) := by simp [ended_next, hstep]
        rw [visited_next_of_ok hstep, hstep]
        exact (h.go hclosed hrest).congr hreleased hended

theorem stands_after (o : Opening) (past : List Act)
    : o.Stands (Released past) (o.Ended past) (o.visited past) (o.after past).1 := by
  induction past with
  | nil =>
    apply (Stands.opened o).congr
    . simp [Released]
    . simp [Ended]
  | cons a past ih =>
    have hended (ha : a ≠ .next) : o.Ended past ↔ o.Ended (a :: past) := by simp [ended_cons, ha]
    cases a with
    | next => exact stands_next ih
    | get | isNull | columnIndex | cancel => exact ih.congr (by simp [released_cons]) (hended nofun)
    | close | drop => exact ih.close.congr (by simp [released_cons]) (hended nofun)

theorem length_signals_after (o : Opening) (past : List Act)
    : (o.after past).2.signals.length = o.signals.signals.length := by
  induction past with
  | nil => rfl
  | cons a past ih =>
    cases a with
    | cancel signal => exact (List.length_set ..).trans ih
    | next | get | isNull | columnIndex | close | drop => exact ih

theorem isSet_after {n : Nat} (hn : n < o.signals.signals.length) (past : List Act)
    : (o.after past).2.isSet n = true ↔ o.signals.isSet n = true ∨ .cancel n ∈ past := by
  induction past with
  | nil => simp [after]
  | cons a past ih =>
    cases a with
    | cancel signal =>
      have hlength : n < (o.after past).2.signals.length := by rwa [length_signals_after]
      change ((o.after past).2.setSignal signal).isSet n = true ↔ _
      rw [Cancellation.isSet_setSignal_iff, ih]
      simp only [hlength, and_true, List.mem_cons, Act.cancel.injEq]
      tauto
    | next | get | isNull | columnIndex | close | drop =>
      refine ih.trans ?_
      simp

theorem cancelled_iff (hsignal : ∀ n ∈ o.signal, n < o.signals.signals.length) (past : List Act)
    : o.Cancelled past ↔ (o.after past).1.signal.any (o.after past).2.isSet = true := by
  rw [(stands_after o past).signal]
  unfold Cancelled
  cases hn : o.signal with
  | none => simp
  | some n => simp [isSet_after (hsignal n hn)]

theorem after_append_of_reads {a : Act} (ha : a.reads = true) (newer past : List Act)
    : o.after (newer ++ a :: past) = o.after (newer ++ past) := by
  unfold after
  rw [List.foldr_append, List.foldr_append, List.foldr_cons]
  cases a with
  | get | isNull | columnIndex => rfl
  | next | close | drop | cancel => cases ha

end

/-- The steps that succeed make the rows current one after the other. A step is refused while the signal is set,
finds no row behind the last one or when the cursor was released, and then nothing is current any more. Looking at
the current row changes nothing and keeps to the row. The hook is run when the cursor is released for the first
time. -/
theorem yields_each_row_once (o : Opening) (hsignal : ∀ n ∈ o.signal, n < o.signals.signals.length)
    (past : List Act)
    : let c := (o.after past).1
      let seen := o.visited past
      seen = (o.rows.take seen.length).map some ∧
        (Released past → o.step past = (.ok false, c)) ∧
        (¬Released past → o.Cancelled past → o.step past = (.error .cancelled, c)) ∧
        (¬Released past → ¬o.Cancelled past →
          (o.step past).1 = .ok (decide (seen.length < o.rows.length)) ∧
            (o.step past).2.current = o.rows[seen.length]? ∧
            (o.step past).2.rest = o.rows.drop (seen.length + 1)) ∧
        (Released past ∨ o.Ended past → ∀ t index, c.get t index = .error .noCurrentRow) ∧
        (¬Released past → c.rest = o.rows.drop seen.length ∧ (¬o.Ended past → c.current = seen.getLast?.join)) ∧
        (∀ row index, c.current = some row →
          (∀ t, ∀ h : index < row.length, c.get t index = (t.read row[index]).mapError (.ofConversion index)) ∧
            (∀ t, row.length ≤ index → c.get t index = .error (.missingColumn ("#" ++ toString index))) ∧
            c.isNull index = row[index]?.all Value.isNull) ∧
        (∀ a : Act, a.reads = true → ∀ newer, o.after (newer ++ a :: past) = o.after (newer ++ past)) ∧
        c.count = o.rows.length ∧ c.columns = o.columns ∧
        c.hookRuns = if o.hooked = true ∧ Released past then 1 else 0 := by
  intro c seen
  have h := stands_after o past
  have hopen (hreleased : ¬Released past) : c.closed = false :=
    Bool.eq_false_iff.2 fun hclosed => hreleased (h.closed.1 hclosed)
  refine ⟨h.visited, fun hreleased => ?_, fun hreleased hcancelled => ?_, fun hreleased hcancelled => ?_,
    fun hover t index => ?_, fun hreleased => ?_, fun row index hrow => ?_, ?_, h.count, h.columns, ?_⟩
  . exact Cursor.next_of_closed (h.closed.2 hreleased)
  . exact Cursor.next_of_cancelled (hopen hreleased) ((cancelled_iff hsignal past).1 hcancelled)
  . rw [cancelled_iff hsignal, Bool.not_eq_true] at hcancelled
    have hstep : o.step past = _ := Cursor.next_of_open (hopen hreleased) hcancelled
    rw [hstep, h.rest (hopen hreleased), List.head?_drop, List.tail_drop]
    refine ⟨congrArg Except.ok ?_, rfl, rfl⟩
    rw [Bool.eq_iff_iff]
    simp [seen]
  . unfold Cursor.get
    rw [h.gone (hover.imp_left h.closed.2)]
  . exact ⟨h.rest (hopen hreleased), h.current (hopen hreleased)⟩
  . unfold Cursor.get Cursor.isNull
    rw [hrow]
    refine ⟨fun t hlt => ?_, fun t hle => ?_, ?_⟩
    . simp [hlt]
    . simp [hle]
    . cases hcell : row[index]? with
      | none | some => simp [hcell]
  . exact fun a ha newer => after_append_of_reads ha newer past
  . rw [h.hookRuns, h.hooked]
    cases o.hooked with
    | false => simp
    | true =>
      by_cases hreleased : Released past
      . rw [h.closed.2 hreleased]
        simp [hreleased]
      . rw [show (o.after past).1.closed = false from hopen hreleased]
        simp [hreleased]

def twoUsers : Opening :=
  ⟨["id"], [[.integer 1], [.integer 2]], some 0, true, Cancellation.empty.newSignal.2⟩

def refusedStep : List Act :=
  [.next, .get (.int .i8) 7, .cancel 0, .next]

theorem yields_each_row_once_refused
    : (∀ n ∈ twoUsers.signal, n < twoUsers.signals.signals.length) ∧
        twoUsers.visited refusedStep = [some [.integer 1]] ∧
        (¬Released refusedStep ∧ twoUsers.Cancelled refusedStep) ∧
        twoUsers.step refusedStep = (.error .cancelled, (twoUsers.after refusedStep).1) ∧
        (twoUsers.after refusedStep).1.rest = [[.integer 2]] ∧
        Released (.drop :: .close :: refusedStep) ∧
        (twoUsers.step (.drop :: .close :: refusedStep)).1 = .ok false ∧
        (twoUsers.after (.drop :: .close :: refusedStep)).1.hookRuns = 1 := by
  have hsignal : ∀ n ∈ twoUsers.signal, n < twoUsers.signals.signals.length := by
    intro n hn
    cases hn
    decide
  have hopen : ¬Released refusedStep := by decide
  have hcancelled : twoUsers.Cancelled refusedStep := ⟨0, rfl, .inr (by decide)⟩
  have hreleased : Released (.drop :: .close :: refusedStep) := by decide
  obtain ⟨_, _, hrefused, _, _, hstill, _⟩ := yields_each_row_once twoUsers hsignal refusedStep
  obtain ⟨_, hover, _, _, _, _, _, _, _, _, hruns⟩ :=
    yields_each_row_once twoUsers hsignal (.drop :: .close :: refusedStep)
  exact ⟨hsignal, rfl, ⟨hopen, hcancelled⟩, hrefused hopen hcancelled, (hstill hopen).1, hreleased,
    congrArg Prod.fst (hover hreleased), hruns.trans (if_pos ⟨rfl, hreleased⟩)⟩

end Opening

end DataAccess
