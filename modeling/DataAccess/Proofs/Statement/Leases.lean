import DataAccess.Statement.Lease
import Mathlib.Data.List.Nodup

/-!
This module contains programs that use prepared statements: they prepare some, clone the handles on them,
and acquire, bind and release leases in any order. Main statement: leases are exclusive and isolated,
whichever clones they were acquired through.
-/

namespace DataAccess

namespace LeaseBook

def sharedLeases (b : LeaseBook) : List (String × Lease) :=
  b.leases.filter (·.2.shared)

/-- The leases that are out have names of their own. At most one of them holds the shared instance, and as
long as it does the statement counts as leased and does not have the instance itself. -/
structure Sound (b : LeaseBook) : Prop where
  names : (b.leases.map Prod.fst).Nodup
  leased : b.statement.leased = true ↔ b.sharedLeases ≠ []
  taken : b.sharedLeases ≠ [] → b.statement.cached = none
  once : b.sharedLeases.length ≤ 1

theorem lookup_cons (name other : String) (l : Lease) (leases : List (String × Lease))
    : ((name, l) :: leases).lookup other = if other = name then some l else leases.lookup other := by
  rw [List.lookup_cons]
  by_cases h : other = name
  . simp [h]
  . simp [h, beq_eq_false_iff_ne.2 h]

theorem lookup_filter_ne (leases : List (String × Lease)) (name other : String)
    : (leases.filter (·.1 != name)).lookup other
        =
      if other = name then none else leases.lookup other := by
  induction leases with
  | nil => simp
  | cons first rest ih =>
    obtain ⟨n, l⟩ := first
    rw [List.filter_cons, lookup_cons]
    by_cases hn : n = name
    . rw [if_neg (by simp [hn]), ih, hn]
      split
      . rfl
      . rfl
    . rw [if_pos (by simp [hn]), lookup_cons, ih]
      by_cases hother : other = n
      . rw [if_pos hother, if_neg (hother ▸ hn), if_pos hother]
      . rw [if_neg hother, if_neg hother]

theorem lookup_map_second (f : String → Lease → Lease) (leases : List (String × Lease)) (name : String)
    : (leases.map fun (n, l) => (n, f n l)).lookup name = (leases.lookup name).map (f name) := by
  induction leases with
  | nil => rfl
  | cons first rest ih =>
    obtain ⟨n, l⟩ := first
    rw [List.map_cons, lookup_cons, lookup_cons, ih]
    split
    . next h => rw [h, Option.map_some]
    . rfl

variable {b : LeaseBook}

theorem filter_ne_of_lookup_eq_none {leases : List (String × Lease)} {name : String}
    (h : leases.lookup name = none) : leases.filter (·.1 != name) = leases := by
  apply List.filter_eq_self.2
  intro l hl
  rw [bne_comm]
  exact List.lookup_eq_none_iff.1 h l hl

theorem release_of_none {name : String} (h : b.lease? name = none) : b.release name = b := by
  unfold release
  rw [h]

theorem statement_release {name : String} {l : Lease} (h : b.lease? name = some l)
    : (b.release name).statement = b.statement.release l := by
  unfold release
  rw [h]

theorem leases_release (b : LeaseBook) (name : String)
    : (b.release name).leases = b.leases.filter (·.1 != name) := by
  unfold release
  split
  . rfl
  . next h => exact (filter_ne_of_lookup_eq_none h).symm

theorem lease?_release (b : LeaseBook) (name other : String)
    : (b.release name).lease? other = if other = name then none else b.lease? other := by
  unfold lease?
  rw [leases_release, lookup_filter_ne]

theorem lease?_acquire (b : LeaseBook) (name other : String)
    : (b.acquire name).2.lease? other
        =
      if other = name then some b.statement.acquire.1 else b.lease? other := by
  change ((name, b.statement.acquire.1) :: (release ⟨b.statement.acquire.2, b.leases⟩ name).leases).lookup
    other = _
  rw [leases_release, lookup_cons, lookup_filter_ne]
  split
  . rfl
  . rfl

theorem lease?_bind (b : LeaseBook) (name other : String) (index : Nat) (v : Value)
    : (b.bind name index v).lease? other
        =
      (b.lease? other).map fun l =>
        if other = name then { l with statement := l.statement.bind index v } else l :=
  lookup_map_second
    (fun n l => if n = name then { l with statement := l.statement.bind index v } else l) b.leases other

theorem sharedLeases_bind (b : LeaseBook) (name : String) (index : Nat) (v : Value)
    : (b.bind name index v).sharedLeases = b.sharedLeases.map fun (n, l) =>
        (n, if n = name then { l with statement := l.statement.bind index v } else l) := by
  unfold sharedLeases bind
  rw [List.filter_map]
  congr 1
  apply List.filter_congr
  intro (n, l) _
  dsimp only [Function.comp_apply]
  split
  . rfl
  . rfl

theorem mem_of_lease? {name : String} {l : Lease} (h : b.lease? name = some l)
    : (name, l) ∈ b.leases := by
  obtain ⟨_, _, hleases, _⟩ := List.lookup_eq_some_iff.1 h
  rw [hleases]
  simp

theorem Sound.lease?_of_mem (h : b.Sound) {name : String} {l : Lease} (hl : (name, l) ∈ b.leases)
    : b.lease? name = some l := by
  have hnames := h.names
  obtain ⟨before, after, hleases⟩ := List.append_of_mem hl
  rw [hleases, List.map_append, List.map_cons] at hnames
  refine List.lookup_eq_some_iff.2 ⟨before, after, hleases, ?_⟩
  intro p hp
  rw [bne_iff_ne]
  rintro rfl
  have hdisjoint := (List.nodup_append.1 hnames).2.2
  exact hdisjoint p.1 (List.mem_map_of_mem hp) p.1 (List.mem_cons_self ..) rfl

theorem Sound.sharedLeases_eq_singleton (h : b.Sound) {name : String} {l : Lease}
    (hl : b.lease? name = some l) (hshared : l.shared = true) : b.sharedLeases = [(name, l)] := by
  have hmem : (name, l) ∈ b.sharedLeases := List.mem_filter.2 ⟨mem_of_lease? hl, hshared⟩
  have hone : b.sharedLeases.length = 1 := by
    have := h.once
    have := List.length_pos_of_mem hmem
    omega
  obtain ⟨only, honly⟩ := List.length_eq_one_iff.1 hone
  rw [honly, List.mem_singleton] at hmem
  rw [honly, ← hmem]

theorem Sound.ne_of_mem_sharedLeases (h : b.Sound) {name : String}
    (hname : ∀ l, b.lease? name = some l → l.shared = false) {l : String × Lease}
    (hl : l ∈ b.sharedLeases) : l.1 ≠ name := by
  obtain ⟨hmem, hshared⟩ := List.mem_filter.1 hl
  rintro rfl
  have hfalse := hname l.2 (h.lease?_of_mem hmem)
  rw [hshared] at hfalse
  cases hfalse

theorem Sound.sharedLeases_release (h : b.Sound) {name : String} {l : Lease}
    (hl : b.lease? name = some l)
    : (b.release name).sharedLeases = if l.shared then [] else b.sharedLeases := by
  have hsame : (b.release name).sharedLeases = b.sharedLeases.filter (·.1 != name) := by
    unfold sharedLeases
    rw [leases_release, List.filter_comm]
  rw [hsame]
  split
  . next hshared =>
    rw [h.sharedLeases_eq_singleton hl hshared]
    simp
  . next hshared =>
    apply List.filter_eq_self.2
    intro m hm
    rw [bne_iff_ne]
    refine h.ne_of_mem_sharedLeases (fun l' hl' => ?_) hm
    cases hl.symm.trans hl'
    exact Bool.eq_false_iff.2 hshared

namespace Sound

theorem new (sql : String) (argCount : Nat) : (LeaseBook.new sql argCount).Sound where
  names := List.nodup_nil
  leased := by simp [LeaseBook.new, SharedStatement.new, sharedLeases]
  taken _ := rfl
  once := Nat.zero_le 1

theorem names_release (h : b.Sound) (name : String)
    : ((b.release name).leases.map Prod.fst).Nodup := by
  rw [leases_release]
  exact h.names.sublist (List.filter_sublist.map _)

theorem release (h : b.Sound) (name : String) : (b.release name).Sound := by
  cases hl : b.lease? name with
  | none =>
    rw [release_of_none hl]
    exact h
  | some l =>
    have hshared := h.sharedLeases_release hl
    have hstatement := statement_release hl
    refine ⟨h.names_release name, ?_, ?_, ?_⟩
    . rw [hshared, hstatement]
      unfold SharedStatement.release
      split
      . simp
      . exact h.leased
    . rw [hshared, hstatement]
      unfold SharedStatement.release
      split
      . exact fun hne => absurd rfl hne
      . exact h.taken
    . rw [hshared]
      split
      . exact Nat.zero_le 1
      . exact h.once

theorem bind (h : b.Sound) (name : String) (index : Nat) (v : Value) : (b.bind name index v).Sound := by
  have hshared := b.sharedLeases_bind name index v
  refine ⟨?_, ?_, ?_, ?_⟩
  . have hnames : (b.bind name index v).leases.map Prod.fst = b.leases.map Prod.fst := by
      unfold LeaseBook.bind
      rw [List.map_map]
      rfl
    rw [hnames]
    exact h.names
  . rw [hshared, Ne, List.map_eq_nil_iff]
    exact h.leased
  . rw [hshared, Ne, List.map_eq_nil_iff]
    exact h.taken
  . rw [hshared, List.length_map]
    exact h.once

theorem sharedLeases_bind_of_shared (h : b.Sound) {name : String} {l : Lease}
    (hl : b.lease? name = some l) (hshared : l.shared = true) (index : Nat) (v : Value)
    : (b.bind name index v).sharedLeases
        =
      [(name, { l with statement := l.statement.bind index v })] := by
  rw [sharedLeases_bind, h.sharedLeases_eq_singleton hl hshared, List.map_singleton]
  dsimp only
  rw [if_pos rfl]

theorem sharedLeases_bind_of_not_shared (h : b.Sound) {name : String}
    (hname : ∀ l, b.lease? name = some l → l.shared = false) (index : Nat) (v : Value)
    : (b.bind name index v).sharedLeases = b.sharedLeases := by
  rw [sharedLeases_bind]
  refine (List.map_congr_left fun m hm => ?_).trans (List.map_id _)
  obtain ⟨n, l⟩ := m
  dsimp only
  rw [if_neg (h.ne_of_mem_sharedLeases hname hm)]
  rfl

theorem shared_acquire (h : b.Sound)
    : b.statement.acquire.1.shared = true ↔ b.sharedLeases = [] := by
  have hleased := h.leased
  unfold SharedStatement.acquire
  cases hb : b.statement.leased with
  | true =>
    rw [hb] at hleased
    simpa using hleased
  | false =>
    rw [hb] at hleased
    simpa using hleased

/-- While the shared instance is held, nothing but the new lease and the one that it replaces changes. -/
theorem acquire_of_held (h : b.Sound) (hheld : b.sharedLeases ≠ []) (name : String)
    : (b.acquire name).2
        =
      ⟨(b.release name).statement,
        (name, ⟨false, b.statement.newQuery⟩) :: (b.release name).leases⟩ := by
  unfold LeaseBook.acquire SharedStatement.acquire
  rw [if_pos (h.leased.2 hheld)]

theorem acquire_of_free (h : b.Sound) (hfree : b.sharedLeases = []) (name : String)
    : (b.acquire name).2
        =
      ⟨{ b.statement with leased := true, cached := none },
        (name, b.statement.acquire.1) :: b.leases.filter (·.1 != name)⟩ := by
  have hleased : b.statement.leased = false := by
    rw [← Bool.not_eq_true, h.leased]
    exact not_not_intro hfree
  have hstatement : b.statement.acquire.2 = { b.statement with leased := true, cached := none } := by
    unfold SharedStatement.acquire
    rw [if_neg (by simp [hleased])]
  have hrelease : (LeaseBook.release ⟨b.statement.acquire.2, b.leases⟩ name).statement
      = b.statement.acquire.2 := by
    cases hl : LeaseBook.lease? ⟨b.statement.acquire.2, b.leases⟩ name with
    | none => rw [release_of_none hl]
    | some l =>
      -- The lease that is replaced does not hold the shared instance.
      have hmem : (name, l) ∉ b.sharedLeases := hfree ▸ List.not_mem_nil
      have hshared : ¬l.shared = true := fun hshared =>
        hmem (List.mem_filter.2 ⟨mem_of_lease? hl, hshared⟩)
      rw [statement_release hl]
      unfold SharedStatement.release
      rw [if_neg hshared]
  change LeaseBook.mk (LeaseBook.release ⟨b.statement.acquire.2, b.leases⟩ name).statement
    ((name, b.statement.acquire.1) :: (LeaseBook.release _ name).leases) = _
  rw [hrelease, hstatement, leases_release]

theorem sharedLeases_acquire_of_free (h : b.Sound) (hfree : b.sharedLeases = []) (name : String)
    : (b.acquire name).2.sharedLeases = [(name, b.statement.acquire.1)] := by
  rw [h.acquire_of_free hfree, sharedLeases, List.filter_cons, if_pos (h.shared_acquire.2 hfree),
    List.filter_comm]
  change _ :: List.filter _ b.sharedLeases = _
  rw [hfree, List.filter_nil]

theorem acquire (h : b.Sound) (name : String) : (b.acquire name).2.Sound := by
  have hnames := h.names_release name
  rw [leases_release] at hnames
  have hfresh : name ∉ (b.leases.filter (·.1 != name)).map Prod.fst := by
    simp
  by_cases hb : b.sharedLeases = []
  . have hshared := h.sharedLeases_acquire_of_free hb name
    refine ⟨?_, ?_, ?_, ?_⟩
    . rw [h.acquire_of_free hb]
      exact List.nodup_cons.2 ⟨hfresh, hnames⟩
    . rw [hshared, h.acquire_of_free hb]
      simp
    . rw [h.acquire_of_free hb]
      exact fun _ => rfl
    . rw [hshared]
      exact Nat.le_refl 1
  . have hrest := h.release name
    rw [h.acquire_of_held hb]
    refine ⟨?_, hrest.leased, hrest.taken, hrest.once⟩
    rw [leases_release]
    exact List.nodup_cons.2 ⟨hfresh, hnames⟩

end Sound

/-- What is done with a prepared statement or with a lease of it. -/
inductive Use where
  | acquire (name : String)
  | bind (name : String) (index : Nat) (v : Value)
  | release (name : String)

def use (b : LeaseBook) : Use → LeaseBook
  | .acquire name => (b.acquire name).2
  | .bind name index v => b.bind name index v
  | .release name => b.release name

def Use.bound (name : String) (s : Statement) : Use → Statement
  | bind n index v => if n = name then s.bind index v else s
  | acquire _ | release _ => s

/-- A lease is taken back: it is released, or another one is acquired under its name. -/
def Use.Takes (name : String) : Use → Prop
  | acquire n | release n => n = name
  | bind _ _ _ => False

instance (name : String) (u : Use) : Decidable (u.Takes name) :=
  match u with
  | .acquire n | .release n => inferInstanceAs (Decidable (n = name))
  | .bind _ _ _ => inferInstanceAs (Decidable False)

theorem Sound.use (h : b.Sound) (u : Use) : (b.use u).Sound := by
  cases u with
  | acquire name => exact h.acquire name
  | bind name index v => exact h.bind name index v
  | release name => exact h.release name

theorem Sound.useAll (h : b.Sound) (uses : List Use) : (uses.foldl LeaseBook.use b).Sound := by
  induction uses generalizing b with
  | nil => exact h
  | cons u rest ih => exact ih (h.use u)

theorem lease?_use {name : String} {l : Lease} (hl : b.lease? name = some l) {u : Use}
    (h : ¬u.Takes name)
    : (b.use u).lease? name = some { l with statement := u.bound name l.statement } := by
  cases u with
  | acquire n =>
    change (b.acquire n).2.lease? name = _
    rw [lease?_acquire, if_neg fun hn => h hn.symm]
    exact hl
  | bind n index v =>
    change (b.bind n index v).lease? name = some { l with statement := if n = name then _ else _ }
    rw [lease?_bind, hl, Option.map_some]
    by_cases hn : name = n
    . rw [if_pos hn, if_pos hn.symm]
    . rw [if_neg hn, if_neg fun hn' => hn hn'.symm]
  | release n =>
    change (b.release n).lease? name = _
    rw [lease?_release, if_neg fun hn => h hn.symm]
    exact hl

theorem lease?_useAll {name : String} {l : Lease} (hl : b.lease? name = some l) {uses : List Use}
    (h : ∀ u ∈ uses, ¬u.Takes name)
    : (uses.foldl use b).lease? name
        =
      some { l with statement := uses.foldl (Use.bound name) l.statement } := by
  induction uses generalizing b l with
  | nil => exact hl
  | cons u rest ih =>
    have hnext := lease?_use hl (h u List.mem_cons_self)
    exact ih hnext fun v hv => h v (List.mem_cons_of_mem u hv)

end LeaseBook

structure LeaseDesk where
  books : List LeaseBook
  /-- The place of the statement that each handle leads to. -/
  handles : List Nat

/-- What a program does with prepared statements. Statements are leased through handles, and a lease is
found by the place of its statement and its name. -/
inductive LeaseEvent where
  | prepare (sql : String) (argCount : Nat)
  | clone (handle : Nat)
  | acquire (handle : Nat) (name : String)
  | bind (place : Nat) (name : String) (index : Nat) (v : Value)
  | bindNull (place : Nat) (name : String) (index : Nat)
  | release (place : Nat) (name : String)

def LeaseEvent.use? (handles : List Nat) (place : Nat) : LeaseEvent → Option LeaseBook.Use
  | prepare _ _ | clone _ => none
  | acquire handle name => if handles[handle]? = some place then some (.acquire name) else none
  | bind p name index v => if p = place then some (.bind name index v) else none
  | bindNull p name index => if p = place then some (.bind name index .null) else none
  | release p name => if p = place then some (.release name) else none

namespace LeaseDesk

def empty : LeaseDesk :=
  ⟨[], []⟩

def use (place : Nat) (u : LeaseBook.Use) (d : LeaseDesk) : LeaseDesk :=
  { d with books := d.books.modify place (·.use u) }

def step (d : LeaseDesk) : LeaseEvent → LeaseDesk
  | .prepare sql argCount =>
    ⟨d.books ++ [.new sql argCount], d.handles ++ [d.books.length]⟩
  | .clone handle => { d with handles := d.handles ++ d.handles[handle]?.toList }
  | .acquire handle name =>
    match d.handles[handle]? with
    | some place => d.use place (.acquire name)
    | none => d
  | .bind place name index v => d.use place (.bind name index v)
  | .bindNull place name index => d.use place (.bind name index .null)
  | .release place name => d.use place (.release name)

def run (events : List LeaseEvent) (d : LeaseDesk) : LeaseDesk :=
  events.foldl step d

def usesOf (place : Nat) : LeaseDesk → List LeaseEvent → List LeaseBook.Use
  | _, [] => []
  | d, e :: rest => (e.use? d.handles place).toList ++ usesOf place (d.step e) rest

def lease? (d : LeaseDesk) (place : Nat) (name : String) : Option Lease :=
  d.books[place]?.bind (·.lease? name)

variable {d : LeaseDesk} {place : Nat} {b : LeaseBook}

theorem books_use (hb : d.books[place]? = some b) (p : Nat) (u : LeaseBook.Use)
    : (d.use p u).books[place]? = some (if p = place then b.use u else b) := by
  unfold use
  rw [List.getElem?_modify, hb]
  rfl

/-- A step uses a statement as its event says, and no other. -/
theorem books_step (hb : d.books[place]? = some b) (e : LeaseEvent)
    : (d.step e).books[place]? = some ((e.use? d.handles place).toList.foldl LeaseBook.use b) := by
  have hused (p : Nat) (u : LeaseBook.Use) : (d.use p u).books[place]?
      = some ((if p = place then some u else none).toList.foldl LeaseBook.use b) := by
    rw [books_use hb]
    split
    . rfl
    . rfl
  cases e with
  | prepare sql argCount =>
    have hplace : place < d.books.length := (List.getElem?_eq_some_iff.1 hb).1
    exact (List.getElem?_append_left hplace).trans hb
  | clone handle => exact hb
  | acquire handle name =>
    cases hp : d.handles[handle]? with
    | none =>
      have hstep : d.step (.acquire handle name) = d := by
        unfold step
        dsimp only
        rw [hp]
      rw [hstep]
      change _ = some ((if d.handles[handle]? = some place then _ else none).toList.foldl _ b)
      rw [hp, if_neg (by simp)]
      exact hb
    | some p =>
      have hstep : d.step (.acquire handle name) = d.use p (.acquire name) := by
        unfold step
        dsimp only
        rw [hp]
      rw [hstep, hused]
      change _ = some ((if d.handles[handle]? = some place then _ else none).toList.foldl _ b)
      rw [hp]
      simp only [Option.some.injEq]
  | bind p name index v => exact hused p _
  | bindNull p name index => exact hused p _
  | release p name => exact hused p _

theorem books_run (hb : d.books[place]? = some b) (events : List LeaseEvent)
    : (d.run events).books[place]? = some ((usesOf place d events).foldl LeaseBook.use b) := by
  induction events generalizing d b with
  | nil => exact hb
  | cons e rest ih =>
    unfold usesOf
    rw [List.foldl_append]
    exact ih (books_step hb e)

theorem lease?_eq (hb : d.books[place]? = some b) (name : String)
    : d.lease? place name = b.lease? name := by
  unfold lease?
  rw [hb]
  rfl

theorem lease?_run {name : String} {l : Lease} (hl : d.lease? place name = some l)
    {events : List LeaseEvent} (h : ∀ u ∈ usesOf place d events, ¬u.Takes name)
    : (d.run events).lease? place name
        =
      some { l with
        statement := (usesOf place d events).foldl (LeaseBook.Use.bound name) l.statement } := by
  obtain ⟨b, hb, hlease⟩ := Option.bind_eq_some_iff.1 hl
  rw [lease?_eq (books_run hb events)]
  exact LeaseBook.lease?_useAll hlease h

theorem lease?_step_acquire (hb : d.books[place]? = some b) {handle : Nat}
    (hhandle : d.handles[handle]? = some place) (name : String)
    : (d.step (.acquire handle name)).lease? place name = some b.statement.acquire.1 := by
  rw [lease?_eq (books_step hb _)]
  unfold LeaseEvent.use?
  dsimp only
  rw [if_pos hhandle]
  exact (LeaseBook.lease?_acquire b name name).trans (if_pos rfl)

theorem books_prepare (d : LeaseDesk) (sql : String) (argCount : Nat)
    : (d.step (.prepare sql argCount)).books[d.books.length]? = some (.new sql argCount) :=
  List.getElem?_concat_length

/-- However a prepared statement is leased, through the handle it was prepared with or through clones, at
most one lease that is out holds the shared instance, and a new lease gets it if and only if no other one
holds it. Only releasing the lease that holds it makes it available again. While a lease is out, what is
done with any statement changes its own only by binding values to this very lease. -/
theorem leases_exclusive_isolated (earlier later : List LeaseEvent) (sql : String) (argCount : Nat)
    : let place := (empty.run earlier).books.length
      let d := ((empty.run earlier).step (.prepare sql argCount)).run later
      ∃ b, d.books[place]? = some b ∧
        b.sharedLeases.length ≤ 1 ∧
        (∀ handle name, d.handles[handle]? = some place →
          ∃ l, (d.step (.acquire handle name)).lease? place name = some l ∧
            (l.shared = true ↔ b.sharedLeases = [])) ∧
        (∀ name l, d.lease? place name = some l →
          ∃ b', (d.step (.release place name)).books[place]? = some b' ∧
            b'.sharedLeases = if l.shared then [] else b.sharedLeases) ∧
        ∀ name l events, d.lease? place name = some l →
          (∀ u ∈ usesOf place d events, ¬u.Takes name) →
          (d.run events).lease? place name
            = some { l with
                statement := (usesOf place d events).foldl (LeaseBook.Use.bound name) l.statement } := by
  intro place d
  let b := (usesOf place ((empty.run earlier).step (.prepare sql argCount)) later).foldl LeaseBook.use
    (.new sql argCount)
  have hb : d.books[place]? = some b := books_run (books_prepare _ sql argCount) later
  have hsound : b.Sound := (LeaseBook.Sound.new sql argCount).useAll _
  refine ⟨b, hb, hsound.once, ?_, ?_, ?_⟩
  . intro handle name hhandle
    exact ⟨_, lease?_step_acquire hb hhandle name, hsound.shared_acquire⟩
  . intro name l hl
    rw [lease?_eq hb] at hl
    refine ⟨b.release name, ?_, hsound.sharedLeases_release hl⟩
    have hreleased := books_use hb place (.release name)
    rw [if_pos rfl] at hreleased
    exact hreleased
  . intro name l events hl huntaken
    exact lease?_run hl huntaken

/-- Of two clones, the first one is used for the shared instance, and the second one in the meantime. -/
theorem leases_exclusive_isolated_setValue
    : let place := (empty.run [.prepare "SELECT 1" 0]).books.length
      let d := ((empty.run [.prepare "SELECT 1" 0]).step (.prepare "UPDATE t SET v = ?" 1)).run
        [.clone 1, .acquire 1 "first", .bind 1 "first" 1 (.integer 1), .acquire 2 "second"]
      let events : List LeaseEvent :=
        [.release 1 "second", .acquire 2 "third", .bindNull 1 "third" 1, .acquire 0 "first"]
      place = 1 ∧ d.handles[2]? = some place ∧
        d.lease? place "second" = some ⟨false, ⟨"UPDATE t SET v = ?", [.null]⟩⟩ ∧
        (∃ l, (d.step (.acquire 2 "third")).lease? place "third" = some l ∧ l.shared = false) ∧
        (∃ b, (d.step (.release place "second")).books[place]? = some b ∧
          b.sharedLeases = [("first", ⟨true, ⟨"UPDATE t SET v = ?", [.integer 1]⟩⟩)]) ∧
        d.lease? place "first" = some ⟨true, ⟨"UPDATE t SET v = ?", [.integer 1]⟩⟩ ∧
        (∀ u ∈ usesOf place d events, ¬u.Takes "first") ∧
        (d.run events).lease? place "first"
          = some ⟨true, ⟨"UPDATE t SET v = ?", [.integer 1]⟩⟩ := by
  intro place d events
  have huntaken : ∀ u ∈ usesOf place d events, ¬u.Takes "first" := by decide
  obtain ⟨b, hb, _, hacquire, hrelease, hisolated⟩ :=
    leases_exclusive_isolated [.prepare "SELECT 1" 0]
      [.clone 1, .acquire 1 "first", .bind 1 "first" 1 (.integer 1), .acquire 2 "second"]
      "UPDATE t SET v = ?" 1
  cases hb
  refine ⟨rfl, rfl, rfl, ?_, hrelease "second" _ rfl, rfl, huntaken,
    hisolated "first" _ events rfl huntaken⟩
  obtain ⟨l, hl, hshared⟩ := hacquire 2 "third" rfl
  refine ⟨l, hl, ?_⟩
  rw [← Bool.not_eq_true, hshared]
  exact List.cons_ne_nil _ _

end LeaseDesk

end DataAccess
