import DataAccess.Proofs.Binding.Prepared
import DataAccess.Proofs.Compile.Classified
import DataAccess.Proofs.Compile.Keys

/-!
This module contains when an interface has no plan although each of its methods has a category: if and only
if two write queries of one name prepare statements that differ. All other helpers that share a key mean
the same structure, because an interface has one entity under each name, and all work can be delivered.
-/

namespace DataAccess

namespace Interface

def WellNamed (i : Interface) : Prop :=
  ∀ e ∈ i.entities, PlainName e.name

end Interface

def Method.Prepares (m : Method) (s : BoundStatement) : Prop :=
  (∃ sql, m.kind = .write sql ∧ BoundStatement.resolve m sql = .ok s) ∧
    ∀ p ∈ s.params, p.multiple = false

/-- Two write queries of one name prepare statements that differ. -/
def Interface.PreparedClash (i : Interface) : Prop :=
  ∃ m ∈ i.methods, ∃ m' ∈ i.methods, ∃ s s',
    m.name = m'.name ∧ m.Prepares s ∧ m'.Prepares s' ∧
    (s.positionalSql ≠ s'.positionalSql ∨ s.argCount ≠ s'.argCount)

def Problem.IsPreparedCollision (p : Problem) : Prop :=
  ∃ name first second, p = .helperCollision ("prepared:" ++ name) first second

/-- A fingerprint is the one that an interface gives to everything of that key. A prepared statement has
the fingerprint of some method of its name. -/
structure Interface.Accounts (i : Interface) (key fingerprint : String) : Prop where
  adapter : ∀ op (t : ResolvedTarget), t.Known i → key = (adapterRequest op t.entity t.table).key →
    fingerprint = (adapterRequest op t.entity t.table).fingerprint
  prepared : ∀ name, key = "prepared:" ++ name →
    ∃ m ∈ i.methods, ∃ s, m.name = name ∧ m.Prepares s ∧
      fingerprint = (preparedRequest m s).fingerprint

structure Draft.Consistent (i : Interface) (d : Draft) : Prop where
  keys : (d.fields.map HelperField.key).Nodup
  fields : ∀ f ∈ d.fields, i.Accounts f.key f.fingerprint
  rows : ∀ r ∈ d.rowAdapters, ∀ e, i.entity? r.entity = some e → r.fingerprint = e.fingerprint

theorem fingerprint_adapterRequest (op : ShortcutOp) (e : Entity) (table : String)
    : (adapterRequest op e table).fingerprint = table ++ ":" ++ e.fingerprint := by
  cases op with
  | insert | delete | update | upsert => rfl

theorem fingerprint_preparedRequest_eq_iff {m m' : Method} {s s' : BoundStatement}
    : (preparedRequest m s).fingerprint = (preparedRequest m' s').fingerprint ↔
        s.positionalSql = s'.positionalSql ∧ s.argCount = s'.argCount := by
  constructor
  . intro h
    have hprepares : Prepares (preparedRequest m' s').fingerprint (preparedRequest m s).value
        s.positionalSql s.argCount := ⟨h.symm, rfl⟩
    have hprepares' : Prepares (preparedRequest m' s').fingerprint (preparedRequest m' s').value
        s'.positionalSql s'.argCount := ⟨rfl, rfl⟩
    exact hprepares.unique hprepares'
  . rintro ⟨hsql, hcount⟩
    change s.positionalSql ++ "/" ++ toString s.argCount = s'.positionalSql ++ "/" ++ _
    rw [hsql, hcount]

namespace Interface

variable {i : Interface}

/-- The key of an adapter tells its entity, and the entity tells the table. -/
theorem accounts_adapterRequest (hnames : i.WellNamed) (op : ShortcutOp) {t : ResolvedTarget}
    (ht : t.Known i)
    : i.Accounts (adapterRequest op t.entity t.table).key
        (adapterRequest op t.entity t.table).fingerprint where
  adapter op' t' ht' hkey := by
    have hname (t : ResolvedTarget) (ht : t.Known i) (op : ShortcutOp)
        : nameInKey (adapterRequest op t.entity t.table).key.toList = t.entity.name.toList := by
      apply nameInKey_adapterRequest
      exact hnames t.entity (List.mem_of_find?_eq_some ht.entity)
    have hnames : t.entity.name = t'.entity.name := by
      apply String.ext
      rw [← hname t ht op, ← hname t' ht' op', hkey]
    have hentity : t.entity = t'.entity := by
      have hfound := ht.entity
      rw [hnames, ht'.entity] at hfound
      exact (Option.some.inj hfound).symm
    have htable : t.table = t'.table := by
      have hfound := ht.table
      rw [hentity, ht'.table] at hfound
      exact (Option.some.inj hfound).symm
    rw [fingerprint_adapterRequest, fingerprint_adapterRequest, hentity, htable]
  prepared _ hkey := absurd hkey (key_adapterRequest_ne op t.entity t.table _)

theorem accounts_preparedRequest {m : Method} {s : BoundStatement} (hm : m ∈ i.methods)
    (hs : m.Prepares s)
    : i.Accounts (preparedRequest m s).key (preparedRequest m s).fingerprint where
  adapter op t _ hkey := absurd hkey.symm (key_adapterRequest_ne op t.entity t.table m.name)
  prepared _ hkey := ⟨m, hm, s, (String.append_right_inj _).1 hkey, hs, rfl⟩

end Interface

/-- A field of the same key and another fingerprint is the only reason to refuse a helper. -/
theorem Draft.request_eq_error {d : Draft} {r : HelperRequest} {p : Problem}
    (h : d.request r = .error p)
    : ∃ f ∈ d.fields, f.key = r.key ∧ f.fingerprint ≠ r.fingerprint ∧
        p = .helperCollision r.key f.fingerprint r.fingerprint := by
  unfold Draft.request at h
  split at h
  . next f hfound =>
    split at h
    . cases h
    . next hne =>
      cases h
      refine ⟨f, List.mem_of_find?_eq_some hfound, ?_, hne, rfl⟩
      simpa using List.find?_some hfound
  . cases h

theorem Draft.rowAdapters_noteConverters (d : Draft) (converters : List Code.Path)
    : (d.noteConverters converters).rowAdapters = d.rowAdapters := by
  unfold noteConverters
  induction converters generalizing d with
  | nil => rfl
  | cons c rest ih => exact ih (d.noteConverter c)

namespace Draft.Consistent

variable {i : Interface} {d : Draft}

theorem empty (i : Interface) : Draft.empty.Consistent i where
  keys := List.nodup_nil
  fields := by simp [Draft.empty]
  rows := by simp [Draft.empty]

theorem congr {e : Draft} (h : d.Consistent i) (hfields : e.fields = d.fields)
    (hrows : e.rowAdapters = d.rowAdapters) : e.Consistent i where
  keys := hfields ▸ h.keys
  fields := hfields ▸ h.fields
  rows := hrows ▸ h.rows

theorem request {e : Draft} {r : HelperRequest} {name : String} (h : d.Consistent i)
    (hr : i.Accounts r.key r.fingerprint) (he : d.request r = .ok (name, e)) : e.Consistent i := by
  unfold Draft.request at he
  split at he
  . split at he
    . cases he
      exact h
    . cases he
  . next hnone =>
    cases he
    constructor
    . simp only [report, List.map_append, List.map_cons, List.map_nil]
      rw [← List.concat_eq_append]
      apply h.keys.concat
      intro hmem
      obtain ⟨f, hf, hkey⟩ := List.mem_map.1 hmem
      have hother := List.find?_eq_none.1 hnone f hf
      simp [hkey] at hother
    . intro f hf
      rcases List.mem_append.1 hf with hf | hf
      . exact h.fields f hf
      . cases List.mem_singleton.1 hf
        exact hr
    . exact h.rows

theorem noteConverters (h : d.Consistent i) (converters : List Code.Path)
    : (d.noteConverters converters).Consistent i :=
  h.congr (Drafting.fields_noteConverters d converters) (rowAdapters_noteConverters d converters)

theorem requestRow {adapter : RowAdapter} {e : Entity} (h : d.Consistent i)
    (he : i.entity? adapter.entity = some e) (hadapter : adapter.fingerprint = e.fingerprint)
    (converters : List Code.Path)
    : ∃ name d', d.requestRow adapter converters = .ok (name, d') ∧ d'.Consistent i := by
  unfold Draft.requestRow
  split
  . next existing hfound =>
    have hentity : existing.entity = adapter.entity := by simpa using List.find?_some hfound
    have hfingerprint : existing.fingerprint = adapter.fingerprint := by
      rw [hadapter]
      exact h.rows existing (List.mem_of_find?_eq_some hfound) e (hentity ▸ he)
    rw [if_pos hfingerprint]
    exact ⟨_, _, rfl, h⟩
  . refine ⟨_, _, rfl, ?_⟩
    have hnoted := h.noteConverters converters
    refine ⟨hnoted.keys, hnoted.fields, ?_⟩
    intro r hr e' he'
    rcases List.mem_append.1 hr with hr | hr
    . exact hnoted.rows r hr e' he'
    . cases List.mem_singleton.1 hr
      rw [he] at he'
      cases he'
      exact hadapter

end Draft.Consistent

namespace Drafting

/-- Work that keeps a draft consistent. If it finds a problem, then it is that of two prepared
statements. -/
def Obeys (i : Interface) (act : Drafting α) : Prop :=
  ∀ d : Draft, d.Consistent i →
    (act.run.run d).2.Consistent i ∧
      ∀ p, (act.run.run d).1 = .error p → i.PreparedClash ∧ p.IsPreparedCollision

variable {i : Interface}

theorem obeys_ok (a : α) : Obeys i (MonadExcept.ofExcept (.ok a : Except Problem α) : Drafting α) :=
  fun _ hd => ⟨hd, fun _ h => by cases h⟩

theorem obeys_bind {act : Drafting α} {next : α → Drafting β} (h : Obeys i act)
    (hnext : ∀ a, Obeys i (next a)) : Obeys i (act >>= next) := by
  intro d hd
  have hact := h d hd
  change Draft.Consistent i (ExceptT.bindCont next (act.run.run d).1 (act.run.run d).2).2 ∧
    ∀ p, (ExceptT.bindCont next (act.run.run d).1 (act.run.run d).2).1 = .error p → _
  cases hr : (act.run.run d).1 with
  | error p =>
    refine ⟨hact.1, fun q hq => ?_⟩
    cases hq
    exact hact.2 p hr
  | ok a => exact hnext a _ hact.1

theorem obeys_pure (a : α) : Obeys i (pure a) :=
  fun _ hd => ⟨hd, fun _ h => by cases h⟩

theorem obeys_modify {f : Draft → Draft} (h : ∀ d, d.Consistent i → (f d).Consistent i)
    : Obeys i (modify f : Drafting PUnit) :=
  fun d hd => ⟨h d hd, fun _ h => by cases h⟩

theorem obeys_mapM {act : α → Drafting β} {l : List α} (h : ∀ a ∈ l, Obeys i (act a))
    : Obeys i (l.mapM act) := by
  induction l with
  | nil => exact obeys_pure []
  | cons a rest ih =>
    rw [List.mapM_cons]
    apply obeys_bind (h a (by simp))
    intro b
    apply obeys_bind
    . apply ih
      intro a ha
      exact h a (by simp [ha])
    . intro more
      exact obeys_pure _

theorem obeys_request {r : HelperRequest} (hr : i.Accounts r.key r.fingerprint)
    (hcollides : ∀ other, i.Accounts r.key other → other ≠ r.fingerprint →
      i.PreparedClash ∧ (Problem.helperCollision r.key other r.fingerprint).IsPreparedCollision)
    : Obeys i (request r) := by
  intro d hd
  cases hreq : d.request r with
  | error p =>
    rw [run_request_error hreq]
    refine ⟨hd, fun q hq => ?_⟩
    cases hq
    obtain ⟨f, hf, hkey, hne, rfl⟩ := Draft.request_eq_error hreq
    exact hcollides f.fingerprint (hkey ▸ hd.fields f hf) hne
  | ok found =>
    rw [run_request hreq]
    exact ⟨hd.request hr hreq, fun _ h => by cases h⟩

theorem obeys_requestRow {adapter : RowAdapter} {converters : List Code.Path} {e : Entity}
    (he : i.entity? adapter.entity = some e) (hfingerprint : adapter.fingerprint = e.fingerprint)
    : Obeys i (requestRow adapter converters) := by
  intro d hd
  unfold requestRow
  rw [run_get_bind]
  obtain ⟨name, d', hreq, hd'⟩ := hd.requestRow he hfingerprint converters
  rw [hreq]
  exact ⟨hd', fun _ h => by cases h⟩

theorem obeys_adapterField (hnames : i.WellNamed) (op : ShortcutOp) {t : ResolvedTarget}
    (ht : t.Known i) : Obeys i (adapterField op t) := by
  unfold adapterField
  apply obeys_bind
  . apply obeys_modify
    intro d hd
    exact hd.noteConverters t.entity.converters
  . intro
    have haccounts := Interface.accounts_adapterRequest hnames op ht
    apply obeys_request haccounts
    intro other hother hne
    exact absurd (hother.adapter op t ht rfl) hne

theorem obeys_preparedField {m : Method} {s : BoundStatement} (hm : m ∈ i.methods)
    (hs : m.Prepares s) : Obeys i (preparedField m s) := by
  apply obeys_request (Interface.accounts_preparedRequest hm hs)
  intro other hother hne
  refine ⟨?_, m.name, other, _, rfl⟩
  obtain ⟨m', hm', s', hname, hs', rfl⟩ := hother.prepared m.name rfl
  refine ⟨m', hm', m, hm, s', s, hname, hs', hs, ?_⟩
  rw [← not_and_or]
  rintro ⟨hsql, hcount⟩
  apply hne
  simp [preparedRequest, hsql, hcount]

theorem obeys_readingBody (delivery : Delivery) (s : ReadStatement) {shape : Shape}
    (hrow : shape.row.Known i) (tables : List String) (inTransaction : Bool)
    : Obeys i (Reading.body delivery s shape tables inTransaction) := by
  unfold Reading.body
  apply obeys_bind
  . unfold rowRead
    split
    . next e hentity =>
      rw [hentity] at hrow
      apply obeys_bind
      . exact obeys_requestRow hrow rfl
      . intro
        apply obeys_pure
    . apply obeys_pure
  . intro
    apply obeys_pure

theorem obeys_lower (hnames : i.WellNamed) {c : Classified} (hmem : c.method ∈ i.methods)
    (hknown : c.category.Known i c.method)
    (hsupports : c.category.supports c.method.delivery = true)
    : Obeys i (c.lower i.name) := by
  have delivered (w : Work) (category : String) (hdelivery : c.method.delivery ≠ .stream)
      : Obeys i (MonadExcept.ofExcept (w.deliver c.method category) : Drafting Code.Block) := by
    unfold Work.deliver
    split
    . apply obeys_ok
    . apply obeys_ok
    . apply obeys_ok
    . contradiction
  unfold Classified.lower
  split
  . next q hq =>
    rw [hq] at hknown
    exact obeys_readingBody _ _ hknown _ _
  . next q hq =>
    rw [hq] at hknown hsupports
    apply obeys_bind
    . unfold WriteQuery.source
      split
      . apply obeys_pure
      . next hscalar =>
        apply obeys_bind
        . apply obeys_preparedField hmem
          refine ⟨hknown, ?_⟩
          simpa [BoundStatement.isExpandable] using hscalar
        . intro
          apply obeys_pure
    . intro source
      apply delivered
      simpa [Category.supports] using hsupports
  . next s hs =>
    rw [hs] at hknown hsupports
    apply obeys_bind
    . apply obeys_mapM
      intro t ht
      exact obeys_adapterField hnames s.op (hknown t ht)
    . intro fields
      apply delivered
      simpa [Category.supports] using hsupports
  . next function hfunction =>
    rw [hfunction] at hsupports
    apply delivered
    simpa [Category.supports] using hsupports
  . next q hq =>
    rw [hq] at hknown
    unfold RawQuery.lower
    split
    . apply obeys_bind
      . apply obeys_modify
        intro d hd
        exact hd.congr rfl rfl
      . intro
        exact obeys_readingBody _ _ hknown _ _
    . exact obeys_readingBody _ _ hknown _ _
  . apply obeys_pure

theorem obeys_draftMethod (hnames : i.WellNamed) {c : Classified} {m : Method} (hm : m ∈ i.methods)
    (hc : i.classify m = .ok c) : Obeys i (i.draftMethod c) := by
  obtain ⟨rfl, hresolve, hsupports⟩ := Interface.classify_eq_ok hc
  unfold Interface.draftMethod
  apply obeys_bind
  . apply obeys_modify
    intro d hd
    exact hd.noteConverters _
  . intro
    apply obeys_bind
    . exact obeys_lower hnames hm (Interface.known_of_resolve hresolve) hsupports
    . intro
      apply obeys_pure

end Drafting

/-- Drafting methods keeps a draft consistent, and all problems are those of two prepared statements. -/
theorem Draft.Consistent.draftMethods {i : Interface} {d : Draft} (hd : d.Consistent i)
    (hnames : i.WellNamed) {methods : List Classified}
    (h : ∀ c ∈ methods, ∃ m ∈ i.methods, i.classify m = .ok c)
    : ((i.draftMethods methods).run d).2.Consistent i ∧
        ∀ p, .error p ∈ ((i.draftMethods methods).run d).1 → i.PreparedClash ∧ p.IsPreparedCollision := by
  induction methods generalizing d with
  | nil => exact ⟨hd, fun p hp => by cases hp⟩
  | cons c rest ih =>
    obtain ⟨m, hm, hc⟩ := h c (by simp)
    have hfirst := Drafting.obeys_draftMethod hnames hm hc d hd
    obtain ⟨hrest, hproblems⟩ := ih hfirst.1 fun c hc => h c (by simp [hc])
    refine ⟨hrest, fun p hp => ?_⟩
    rcases List.mem_cons.1 hp with hp | hp
    . exact hfirst.2 p hp.symm
    . exact hproblems p hp

theorem Problem.mem_flattenAll {problems : List Problem} {q : Problem}
    : q ∈ flattenAll problems ↔ ∃ p ∈ problems, q ∈ p.flatten := by
  induction problems with
  | nil => simp [flattenAll]
  | cons p rest ih => simp [flattenAll, ih]

theorem mem_filterMap_error {results : List (Except Problem α)} {error? : Except Problem α → Option Problem}
    {problems : List Problem} (h : results.filterMap error? = problems)
    (hok : ∀ a, error? (.ok a) = none) (herror : ∀ p, error? (.error p) = some p) (p : Problem)
    : p ∈ problems ↔ .error p ∈ results := by
  rw [← h, List.mem_filterMap]
  constructor
  . rintro ⟨r, hr, hsome⟩
    cases r with
    | ok a => simp [hok] at hsome
    | error q =>
      rw [herror] at hsome
      cases hsome
      exact hr
  . intro hp
    exact ⟨_, hp, herror p⟩

theorem collect_eq_error {results : List (Except Problem α)} {p : Problem}
    (h : collect results = .error p)
    : (∃ r, .error r ∈ results) ∧ ∀ q ∈ p.flatten, ∃ r, .error r ∈ results ∧ q ∈ r.flatten := by
  unfold collect at h
  dsimp only at h
  split at h
  . next p' hp =>
    cases h
    generalize hproblems : results.filterMap _ = problems at hp
    have hmem := mem_filterMap_error hproblems (fun _ => rfl) (fun _ => rfl)
    constructor
    . cases problems with
      | nil => cases hp
      | cons r rest => exact ⟨r, (hmem r).1 (by simp)⟩
    . intro q hq
      rw [Problem.flatten_of_combine hp] at hq
      obtain ⟨r, hr, hq⟩ := Problem.mem_flattenAll.1 hq
      exact ⟨r, (hmem r).1 hr, hq⟩
  . cases h

theorem collect_eq_ok {results : List (Except Problem α)} {l : List α} (h : collect results = .ok l)
    : results = l.map .ok := by
  unfold collect at h
  dsimp only at h
  split at h
  . cases h
  . next hnone =>
    have hempty := (Problem.combine_eq_none_iff _).1 hnone
    have hmem := mem_filterMap_error hempty (fun _ => rfl) (fun _ => rfl)
    cases h
    clear hnone hempty
    induction results with
    | nil => rfl
    | cons r rest ih =>
      cases r with
      | ok a =>
        have hrest := ih fun p => by simpa using hmem p
        exact congrArg (.ok a :: ·) hrest
      | error p => exact absurd ((hmem p).2 (by simp)) (by simp)

end DataAccess
