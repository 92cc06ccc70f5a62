import DataAccess.Proofs.Binding.Prepared
import DataAccess.Proofs.Statement.Leases

/-!
This module contains what the statement of a new lease looks like. Values are cleared when the shared
instance is leased again, but slots that were bound beyond the declared ones stay. Main statement: a lease
is the same as a new statement, unless it gets the shared instance after such a slot was bound in it.
-/

namespace DataAccess

theorem Statement.Fits.bind_max {s : Statement} {sql : String} {slots : Nat} (h : s.Fits sql slots)
    (index : Nat) (v : Value) : (s.bind index v).Fits sql (max slots index) := by
  cases index with
  | zero =>
    rw [Nat.max_zero]
    exact h
  | succ slot => exact ⟨h.1, (argCount_bind s slot v).trans (by rw [h.2])⟩

namespace LeaseBook

/-- The slot that is bound in the shared instance. There is no slot zero. -/
def Use.sharedSlot (b : LeaseBook) : Use → Nat
  | bind name index _ => if (b.lease? name).any (·.shared) then index else 0
  | acquire _ | release _ => 0

def highestShared : LeaseBook → List Use → Nat
  | _, [] => 0
  | b, u :: rest => max (u.sharedSlot b) (highestShared (b.use u) rest)

/-- The shared instance has the text of its prepared statement and a number of slots, whether it is leased
or not, and will have as many as are declared if it is still to be made. -/
structure Spans (b : LeaseBook) (slots : Nat) : Prop where
  shared : ∀ l ∈ b.sharedLeases, l.2.statement.Fits b.statement.sql slots
  cached : ∀ t ∈ b.statement.cached, t.Fits b.statement.sql slots
  unmade : b.sharedLeases = [] → b.statement.cached = none → slots = b.statement.argCount

variable {b : LeaseBook} {slots : Nat}

theorem newQuery_use (b : LeaseBook) (u : Use) : (b.use u).statement.newQuery = b.statement.newQuery := by
  have hrelease (b : LeaseBook) (name : String)
      : (b.release name).statement.newQuery = b.statement.newQuery := by
    cases hl : b.lease? name with
    | none => rw [release_of_none hl]
    | some l =>
      rw [statement_release hl]
      unfold SharedStatement.release
      split
      . rfl
      . rfl
  cases u with
  | bind => rfl
  | release name => exact hrelease b name
  | acquire name =>
    refine (hrelease ⟨b.statement.acquire.2, b.leases⟩ name).trans ?_
    unfold SharedStatement.acquire
    dsimp only
    split
    . rfl
    . rfl

namespace Spans

theorem new (sql : String) (argCount : Nat) : (LeaseBook.new sql argCount).Spans argCount where
  shared := by simp [LeaseBook.new, sharedLeases]
  cached := by simp [LeaseBook.new, SharedStatement.new]
  unmade _ _ := rfl

theorem statement_acquire (h : b.Spans slots) (hsound : b.Sound)
    : b.statement.acquire.1.statement
        =
      .acquire b.statement.sql (if b.sharedLeases = [] then slots else b.statement.argCount) := by
  have hleased := hsound.leased
  unfold SharedStatement.acquire
  by_cases hb : b.sharedLeases = []
  . rw [if_neg (by simp [hleased, hb]), if_pos hb]
    dsimp only
    cases hc : b.statement.cached with
    | none => rw [h.unmade hb hc, SharedStatement.newQuery]
    | some t => exact Statement.clear_eq_acquire (h.cached t hc)
  . rw [if_pos (hleased.2 hb), if_neg hb]
    rfl

theorem release (h : b.Spans slots) (hsound : b.Sound) (name : String)
    : (b.release name).Spans slots := by
  cases hl : b.lease? name with
  | none =>
    rw [release_of_none hl]
    exact h
  | some l =>
    have hleases := hsound.sharedLeases_release hl
    have hstatement := statement_release hl
    by_cases hshared : l.shared = true
    . rw [if_pos hshared] at hleases
      unfold SharedStatement.release at hstatement
      rw [if_pos hshared] at hstatement
      have hmem : (name, l) ∈ b.sharedLeases := List.mem_filter.2 ⟨mem_of_lease? hl, hshared⟩
      constructor
      . simp [hleases]
      . rw [hstatement]
        simpa using h.shared (name, l) hmem
      . rw [hstatement]
        intro _ hnone
        cases hnone
    . rw [if_neg hshared] at hleases
      unfold SharedStatement.release at hstatement
      rw [if_neg hshared] at hstatement
      constructor
      . rw [hleases, hstatement]
        exact h.shared
      . rw [hstatement]
        exact h.cached
      . rw [hleases, hstatement]
        exact h.unmade

theorem acquire (h : b.Spans slots) (hsound : b.Sound) (name : String)
    : (b.acquire name).2.Spans slots := by
  by_cases hb : b.sharedLeases = []
  . have hleases := hsound.sharedLeases_acquire_of_free hb name
    have hbook := hsound.acquire_of_free hb name
    constructor
    . rw [hleases, hbook]
      intro l hl
      rw [List.mem_singleton.1 hl]
      dsimp only
      rw [h.statement_acquire hsound, if_pos hb]
      exact ⟨rfl, Statement.argCount_acquire _ slots⟩
    . rw [hbook]
      intro t ht
      cases ht
    . rw [hleases]
      intro hnone
      cases hnone
  . have hrest := h.release hsound name
    rw [hsound.acquire_of_held hb]
    exact ⟨hrest.shared, hrest.cached, hrest.unmade⟩

/-- Binding widens the shared instance if it is a lease of it that is bound. -/
theorem bind (h : b.Spans slots) (hsound : b.Sound) (name : String) (index : Nat) (v : Value)
    : (b.bind name index v).Spans (max slots ((Use.bind name index v).sharedSlot b)) := by
  change Spans _ (max slots (if (b.lease? name).any (·.shared) then index else 0))
  by_cases hname : ∃ l, b.lease? name = some l ∧ l.shared = true
  . obtain ⟨l, hl, hshared⟩ := hname
    have honly := hsound.sharedLeases_eq_singleton hl hshared
    have hleases := hsound.sharedLeases_bind_of_shared hl hshared index v
    have htaken : b.statement.cached = none := hsound.taken (honly ▸ List.cons_ne_nil _ _)
    rw [hl, Option.any_some, if_pos hshared]
    constructor
    . intro m hm
      rw [hleases, List.mem_singleton] at hm
      rw [hm]
      exact (h.shared (name, l) (honly ▸ List.mem_singleton_self _)).bind_max index v
    . intro t ht
      cases htaken.symm.trans ht
    . intro hnil
      cases hleases.symm.trans hnil
  . have hother (l : Lease) (hl : b.lease? name = some l) : l.shared = false :=
      Bool.eq_false_iff.2 fun hshared => hname ⟨l, hl, hshared⟩
    have hleases := hsound.sharedLeases_bind_of_not_shared hother index v
    have hany : (b.lease? name).any (·.shared) = false := by
      cases hl : b.lease? name with
      | none => rfl
      | some l => exact hother l hl
    rw [hany, if_neg Bool.false_ne_true, Nat.max_zero]
    exact ⟨hleases ▸ h.shared, h.cached, hleases ▸ h.unmade⟩

theorem use (h : b.Spans slots) (hsound : b.Sound) (u : Use)
    : (b.use u).Spans (max slots (u.sharedSlot b)) := by
  cases u with
  | acquire name =>
    rw [Use.sharedSlot, Nat.max_zero]
    exact h.acquire hsound name
  | bind name index v => exact h.bind hsound name index v
  | release name =>
    rw [Use.sharedSlot, Nat.max_zero]
    exact h.release hsound name

theorem useAll (h : b.Spans slots) (hsound : b.Sound) (uses : List Use)
    : (uses.foldl LeaseBook.use b).Spans (max slots (b.highestShared uses)) := by
  induction uses generalizing b slots with
  | nil =>
    rw [highestShared, Nat.max_zero]
    exact h
  | cons u rest ih =>
    rw [highestShared, ← Nat.max_assoc]
    exact ih (h.use hsound u) (hsound.use u)

end Spans

theorem newQuery_useAll (b : LeaseBook) (uses : List Use)
    : (uses.foldl use b).statement.newQuery = b.statement.newQuery := by
  induction uses generalizing b with
  | nil => rfl
  | cons u rest ih => exact (ih (b.use u)).trans (newQuery_use b u)

end LeaseBook

theorem Statement.acquire_injective {sql : String} {slots slots' : Nat}
    (h : acquire sql slots = acquire sql slots') : slots = slots' := by
  have hcount := congrArg argCount h
  rwa [argCount_acquire, argCount_acquire] at hcount

namespace LeaseDesk

/-- However a prepared statement and its clones were leased and bound before, a new lease of it has its text
and nothing but absent values. It has as many slots as were declared, or, if it gets the shared instance, as
many as were ever bound in that one if these are more. So it is the same as a new statement if and only if it
does not get the shared instance or no slot beyond the declared ones was bound in that. -/
theorem acquired_blank (earlier later : List LeaseEvent) (sql : String) (argCount : Nat)
    : let place := (empty.run earlier).books.length
      let prepared := (empty.run earlier).step (.prepare sql argCount)
      let d := prepared.run later
      let highest := (LeaseBook.new sql argCount).highestShared (usesOf place prepared later)
      ∃ b, d.books[place]? = some b ∧ b.statement.newQuery = .acquire sql argCount ∧
        ∀ handle name, d.handles[handle]? = some place →
          ∃ l, (d.step (.acquire handle name)).lease? place name = some l ∧
            l.statement = .acquire sql (if l.shared then max argCount highest else argCount) ∧
            (l.statement = b.statement.newQuery ↔ l.shared = false ∨ highest ≤ argCount) := by
  intro place prepared d highest
  let b := (usesOf place prepared later).foldl LeaseBook.use (.new sql argCount)
  have hb : d.books[place]? = some b := books_run (books_prepare _ sql argCount) later
  have hnew : b.statement.newQuery = .acquire sql argCount := LeaseBook.newQuery_useAll _ _
  have hsound : b.Sound := (LeaseBook.Sound.new sql argCount).useAll _
  have hspans : b.Spans (max argCount highest) :=
    (LeaseBook.Spans.new sql argCount).useAll (LeaseBook.Sound.new sql argCount) _
  have hsql : b.statement.sql = sql := congrArg Statement.sql hnew
  have hcount : b.statement.argCount = argCount := by
    have h := congrArg Statement.argCount hnew
    rwa [SharedStatement.newQuery, Statement.argCount_acquire, Statement.argCount_acquire] at h
  have hlease : b.statement.acquire.1.statement
      = .acquire sql (if b.statement.acquire.1.shared then max argCount highest else argCount) := by
    rw [hspans.statement_acquire hsound, hsql, hcount]
    simp only [hsound.shared_acquire]
  refine ⟨b, hb, hnew, ?_⟩
  intro handle name hhandle
  refine ⟨_, lease?_step_acquire hb hhandle name, hlease, ?_⟩
  rw [hlease, hnew]
  cases b.statement.acquire.1.shared with
  | false => simp
  | true =>
    constructor
    . intro h
      right
      have hslots := Statement.acquire_injective h
      rw [if_pos rfl] at hslots
      omega
    . rintro (h | h)
      . cases h
      . rw [if_pos rfl, Nat.max_eq_left h]

/-- A slot beyond the declared one is bound in a lease that does not hold the shared instance, and nobody
sees it again. -/
theorem acquired_blank_deleteUser
    : let prepared := (empty.run []).step (.prepare "DELETE FROM users WHERE id = ?" 1)
      let events : List LeaseEvent :=
        [.clone 0, .acquire 0 "first", .acquire 1 "second", .bind 0 "second" 3 (.integer 5),
          .bind 0 "first" 1 (.integer 7), .release 0 "first"]
      let d := prepared.run events
      d.handles[1]? = some 0 ∧
        (LeaseBook.new "DELETE FROM users WHERE id = ?" 1).highestShared (usesOf 0 prepared events) = 1 ∧
        ∃ l, (d.step (.acquire 1 "third")).lease? 0 "third" = some l ∧ l.shared = true ∧
          l.statement = .acquire "DELETE FROM users WHERE id = ?" 1 := by
  intro prepared events d
  obtain ⟨b, _, _, hacquire⟩ := acquired_blank [] events "DELETE FROM users WHERE id = ?" 1
  obtain ⟨l, hl, hlease, _⟩ := hacquire 1 "third" rfl
  refine ⟨rfl, rfl, l, hl, ?_⟩
  cases hl
  exact ⟨rfl, hlease⟩

/-- A slot beyond the declared one is bound in the shared instance, and the next lease of it has two slots
where a new statement has one. -/
theorem reused_wider_deleteUser
    : let d := (empty.step (.prepare "DELETE FROM users WHERE id = ?" 1)).run
        [.acquire 0 "first", .bind 0 "first" 2 (.integer 7), .release 0 "first"]
      ∃ b, d.books[0]? = some b ∧
        b.statement.newQuery = ⟨"DELETE FROM users WHERE id = ?", [.null]⟩ ∧
        (d.step (.acquire 0 "second")).lease? 0 "second"
          = some ⟨true, ⟨"DELETE FROM users WHERE id = ?", [.null, .null]⟩⟩ :=
  ⟨_, rfl, rfl, rfl⟩

end LeaseDesk

end DataAccess
