import DataAccess.Proofs.Binding.Meaning
import DataAccess.Proofs.Compile.Fields

/-!
This module contains the use of a prepared statement by code that binds no slot which the statement does
not have: at any time a lease of it is the same as a new statement. It also contains what is requested
for a write query, namely such a prepared statement or, for a query with collections, nothing.
-/

namespace DataAccess

/-- The leases of a prepared statement, as far as they are only bound in its slots. -/
inductive InUse (sql : String) (slots : Nat) : LeaseBook → Prop where
  | new : InUse sql slots (.new sql slots)
  | acquire (h : InUse sql slots b) (name : String) : InUse sql slots (b.acquire name).2
  | bind (h : InUse sql slots b) (name : String) (hslot : slot ≤ slots) (v : Value) :
    InUse sql slots (b.bind name slot v)
  | release (h : InUse sql slots b) (name : String) : InUse sql slots (b.release name)

/-- A statement with a text and a number of slots. -/
def Statement.Fits (s : Statement) (sql : String) (slots : Nat) : Prop :=
  s.sql = sql ∧ s.argCount = slots

structure SharedStatement.Fits (s : SharedStatement) (sql : String) (slots : Nat) : Prop where
  sql_eq : s.sql = sql
  argCount_eq : s.argCount = slots
  cached : ∀ t ∈ s.cached, t.Fits sql slots

variable {sql : String} {slots : Nat}

theorem Statement.clear_eq_acquire {s : Statement} (h : s.Fits sql slots)
    : s.clear = .acquire sql slots := by
  obtain ⟨rfl, rfl⟩ := h
  simp [clear, acquire, argCount, List.map_const']

theorem Statement.Fits.bind {s : Statement} {slot : Nat} (h : s.Fits sql slots) (hslot : slot ≤ slots)
    (v : Value) : (s.bind slot v).Fits sql slots := by
  cases slot with
  | zero => exact h
  | succ slot =>
    constructor
    . exact h.1
    . rw [argCount_bind, h.2]
      omega

namespace SharedStatement.Fits

variable {s : SharedStatement}

theorem statement_acquire (h : s.Fits sql slots) : s.acquire.1.statement = .acquire sql slots := by
  unfold acquire
  split
  . simp [newQuery, h.sql_eq, h.argCount_eq]
  . cases hc : s.cached with
    | none => simp [newQuery, h.sql_eq, h.argCount_eq]
    | some t => exact Statement.clear_eq_acquire (h.cached t hc)

theorem acquire (h : s.Fits sql slots) : s.acquire.2.Fits sql slots := by
  unfold SharedStatement.acquire
  split
  . exact h
  . exact ⟨h.sql_eq, h.argCount_eq, by simp⟩

theorem release (h : s.Fits sql slots) {l : Lease} (hl : l.statement.Fits sql slots)
    : (s.release l).Fits sql slots := by
  unfold SharedStatement.release
  split
  . refine ⟨h.sql_eq, h.argCount_eq, ?_⟩
    simpa using hl
  . exact h

end SharedStatement.Fits

structure LeaseBook.Fits (b : LeaseBook) (sql : String) (slots : Nat) : Prop where
  statement : b.statement.Fits sql slots
  leases : ∀ l ∈ b.leases, l.2.statement.Fits sql slots

theorem LeaseBook.Fits.release {b : LeaseBook} (h : b.Fits sql slots) (name : String)
    : (b.release name).Fits sql slots := by
  unfold LeaseBook.release
  split
  . next l hl =>
    constructor
    . apply h.statement.release
      obtain ⟨_, _, hb, _⟩ := List.lookup_eq_some_iff.1 hl
      apply h.leases (name, l)
      rw [hb]
      simp
    . intro other hother
      exact h.leases other (List.mem_filter.1 hother).1
  . exact h

theorem InUse.fits {b : LeaseBook} (h : InUse sql slots b) : b.Fits sql slots := by
  induction h with
  | new => exact ⟨⟨rfl, rfl, by simp [LeaseBook.new, SharedStatement.new]⟩, by simp [LeaseBook.new]⟩
  | @acquire b _ name ih =>
    have hbook : LeaseBook.Fits ⟨b.statement.acquire.2, b.leases⟩ sql slots :=
      ⟨ih.statement.acquire, ih.leases⟩
    -- The new lease takes the place of an earlier one of that name.
    have hrest := hbook.release name
    constructor
    . exact hrest.statement
    . intro l hl
      rcases List.mem_cons.1 hl with hl | hl
      . rw [hl]
        change b.statement.acquire.1.statement.Fits sql slots
        rw [ih.statement.statement_acquire]
        exact ⟨rfl, Statement.argCount_acquire sql slots⟩
      . exact hrest.leases l hl
  | bind _ name hslot v ih =>
    constructor
    . exact ih.statement
    . intro l hl
      obtain ⟨⟨n, m⟩, hm, rfl⟩ := List.mem_map.1 hl
      dsimp
      split
      . exact (ih.leases _ hm).bind hslot v
      . exact ih.leases _ hm
  | release _ name ih => exact ih.release name

namespace WriteQuery

theorem source_expandable (q : WriteQuery) (m : Method) (d : Draft)
    (h : q.statement.isExpandable = true) : (q.source m).run.run d = (.ok .fresh, d) := by
  unfold source
  rw [if_pos h]
  rfl

/-- The field that a query without collections asks for prepares its statement. -/
theorem source_prepared {q : WriteQuery} {m : Method} {d e : Draft} {source : StatementSource}
    (hd : d.Sound) (h : q.statement.isExpandable = false)
    (hr : (q.source m).run.run d = (.ok source, e))
    : ∃ f ∈ e.fields,
        f.key = "prepared:" ++ m.name ∧
        Code.prepared? f.value
          = some (.new q.statement.positionalSql q.statement.argCount) ∧
        (source = .shared f.name ∨ source = .copy f.name) := by
  have he := (Drafting.keeps_source q m d hd).sound
  rw [hr] at he
  unfold WriteQuery.source at hr
  rw [if_neg (by simp [h])] at hr
  obtain ⟨name, d', hfield, hsource⟩ := Drafting.bind_eq_ok hr
  have hsource : (.ok (if m.delivery == .direct then .shared name else .copy name), d')
      = (Except.ok source, e) := hsource
  cases hsource
  have hrequest := Drafting.request_eq_ok hfield
  -- The field may be there from an earlier request, but then the fingerprints are equal.
  obtain ⟨f, hf, hkey, hfingerprint, rfl⟩ := Draft.field_of_request hrequest
  obtain ⟨sql, slots, hprepares⟩ := he.keyed f hf m.name hkey
  have hwanted : Prepares f.fingerprint (preparedRequest m q.statement).value
      q.statement.positionalSql q.statement.argCount := ⟨hfingerprint, rfl⟩
  obtain ⟨rfl, rfl⟩ := hprepares.unique hwanted
  refine ⟨f, hf, hkey, ?_, ?_⟩
  . rw [hprepares.value_eq]
    rfl
  . split
    . exact Or.inl rfl
    . exact Or.inr rfl

theorem setup_of_deliver {w : Work} {m : Method} {category : String} {body : Code.Block}
    (hw : w.inTransaction = false) (h : w.deliver m category = .ok body)
    : w.setup <+: body.statements := by
  unfold Work.deliver at h
  split at h
  . cases h
    unfold Work.direct
    rw [if_neg (by simp [hw])]
    apply List.prefix_append
  . cases h
    exact List.prefix_rfl
  . cases h
    apply List.prefix_append
  . cases h

theorem lower_eq_ok {q : WriteQuery} {m : Method} {d e : Draft} {body : Code.Block}
    (h : (q.lower m).run.run d = (.ok body, e))
    : ∃ source, (q.source m).run.run d = (.ok source, e) ∧
        q.statement.emit source <+: body.statements := by
  unfold lower at h
  obtain ⟨source, d', hsource, hrest⟩ := Drafting.bind_eq_ok h
  obtain ⟨hdeliver, rfl⟩ := Drafting.ofExcept_eq_ok hrest
  exact ⟨source, hsource, setup_of_deliver rfl hdeliver⟩

theorem fields_draftMethod_expandable (q : WriteQuery) (m : Method) (unused : List Parameter)
    (i : Interface) (d : Draft) (h : q.statement.isExpandable = true)
    : ((i.draftMethod ⟨m, .write q, unused⟩).run.run d).2.fields = d.fields := by
  let noted := d.noteConverters (m.params.filterMap (·.converter))
  have hlower : ((q.lower m).run.run noted).2 = noted := by
    unfold lower
    rw [Drafting.state_bind _ (fun source => Drafting.state_ofExcept _), q.source_expandable m noted h]
  have hdraft : ((i.draftMethod ⟨m, .write q, unused⟩).run.run d).2
      = ((q.lower m).run.run noted).2 := Drafting.state_bind (q.lower m) (fun _ _ => rfl) noted
  rw [hdraft, hlower, Drafting.fields_noteConverters]

theorem draftMethod_eq_ok {q : WriteQuery} {m : Method} {unused : List Parameter} {i : Interface}
    {d e : Draft} {planned : MethodPlan}
    (h : (i.draftMethod ⟨m, .write q, unused⟩).run.run d = (.ok planned, e))
    : ∃ d' : Draft, d'.fields = d.fields ∧ (q.lower m).run.run d' = (.ok planned.body, e) := by
  unfold Interface.draftMethod at h
  obtain ⟨_, d', hnote, hrest⟩ := Drafting.bind_eq_ok h
  obtain ⟨body, e', hlower, hplan⟩ := Drafting.bind_eq_ok hrest
  cases hnote
  cases hplan
  exact ⟨_, Drafting.fields_noteConverters d _, hlower⟩

end WriteQuery

end DataAccess
