import DataAccess.Proofs.Compile.Needs

/-!
This module contains what becomes of a draft that is asked for helpers, the latest request first. The fields may
be found by an index that is kept along with them. Main statement: a key stands for the helper that was first
asked for under it, whose field has the preferred name or the first free one after it, and nothing that is asked
later changes this.
-/

namespace DataAccess

namespace Draft

/-- The search for a free name goes through the candidates in order, and it ends. -/
theorem exists_freeName (taken : List String) (base : String)
    : ∃ k, freeName taken base = candidate base k ∧ candidate base k ∉ taken ∧
        ∀ j < k, candidate base j ∈ taken := by
  have hfree := freeName_not_mem taken base
  unfold freeName at hfree ⊢
  cases hk : (List.range (taken.length + 1)).find? fun k => !taken.contains (candidate base k) with
  | none =>
    have hbase := List.find?_eq_none.1 hk 0 (by simp)
    rw [hk] at hfree
    exact absurd (by simpa using hbase) hfree
  | some k =>
    rw [hk] at hfree
    obtain ⟨_, _, hbefore⟩ := List.find?_range_eq_some.1 hk
    refine ⟨k, rfl, hfree, fun j hj => ?_⟩
    simpa using hbefore j hj

theorem freeName_of_not_mem {taken : List String} {base : String} (h : base ∉ taken)
    : freeName taken base = base := by
  obtain ⟨k, hname, _, hbefore⟩ := exists_freeName taken base
  cases k with
  | zero => exact hname
  | succ k => exact absurd (hbefore 0 k.succ_pos) h

theorem exists_freeName_of_mem {taken : List String} {base : String} (h : base ∈ taken)
    : ∃ k, 0 < k ∧ freeName taken base = base ++ "_" ++ toString k ∧
        ∀ j, 0 < j → j < k → base ++ "_" ++ toString j ∈ taken := by
  obtain ⟨k, hname, hfree, hbefore⟩ := exists_freeName taken base
  cases k with
  | zero => exact absurd h hfree
  | succ k =>
    refine ⟨k + 1, k.succ_pos, hname, fun j hj hlt => ?_⟩
    obtain ⟨i, rfl⟩ := Nat.exists_eq_succ_of_ne_zero hj.ne'
    exact hbefore (i + 1) hlt

def names (d : Draft) : List String :=
  d.fields.map HelperField.name

def ask (d : Draft) (r : HelperRequest) : Except Problem String × Draft :=
  (Drafting.request r).run.run d

def declare (d : Draft) (r : HelperRequest) : Draft :=
  let name := freeName d.names r.name
  { d with
    fields := d.fields ++ [r.field name]
    events := d.events ++ [.registeredHelper r.key name] }

def answer (existing : HelperField) (r : HelperRequest) : Except Problem String :=
  if existing.fingerprint = r.fingerprint then .ok existing.name
  else .error (.helperCollision r.key existing.fingerprint r.fingerprint)

section

variable {d : Draft} {r : HelperRequest} {f : HelperField} {key : String}

theorem ask_of_some (h : d.field? r.key = some f) : d.ask r = (answer f r, d) := by
  unfold answer
  split
  . next hsame =>
    apply Drafting.run_request
    simp [request, h, hsame]
  . next hother =>
    apply Drafting.run_request_error
    simp [request, h, hother]

theorem ask_of_none (h : d.field? r.key = none) : d.ask r = (.ok (freeName d.names r.name), d.declare r) := by
  apply Drafting.run_request
  simp only [request, h]
  rfl

theorem field?_declare
    : (d.declare r).field? key
        = (d.field? key).or (if r.key = key then some (r.field (freeName d.names r.name)) else none) := by
  unfold declare field?
  rw [List.find?_append, List.find?_singleton]
  simp only [HelperRequest.field, beq_iff_eq]

theorem field?_ask_of_some (h : d.field? key = some f) : (d.ask r).2.field? key = some f := by
  cases hr : d.field? r.key with
  | some g => rw [ask_of_some hr, h]
  | none => rw [ask_of_none hr, field?_declare, h, Option.some_or]

theorem field?_ask_of_ne (h : r.key ≠ key) : (d.ask r).2.field? key = d.field? key := by
  cases hr : d.field? r.key with
  | some g => rw [ask_of_some hr]
  | none => rw [ask_of_none hr, field?_declare, if_neg h, Option.or_none]

theorem field?_eq_none_iff : d.field? key = none ↔ key ∉ d.fields.map HelperField.key := by
  unfold field?
  simp

theorem nodup_ask (hkeys : (d.fields.map HelperField.key).Nodup) (hnames : d.names.Nodup)
    : ((d.ask r).2.fields.map HelperField.key).Nodup ∧ (d.ask r).2.names.Nodup := by
  cases hr : d.field? r.key with
  | some g =>
    rw [ask_of_some hr]
    exact ⟨hkeys, hnames⟩
  | none =>
    have hkey : (d.declare r).fields.map HelperField.key = (d.fields.map HelperField.key).concat r.key := by
      simp [declare, HelperRequest.field]
    have hname : (d.declare r).names = d.names.concat (freeName d.names r.name) := by
      simp [names, declare, HelperRequest.field]
    rw [ask_of_none hr, hkey, hname]
    exact ⟨hkeys.concat (field?_eq_none_iff.1 hr), hnames.concat (freeName_not_mem _ _)⟩

end

def after (past : List HelperRequest) : Draft :=
  past.foldr (fun r d => (d.ask r).2) .empty

theorem nodup_after (past : List HelperRequest)
    : ((after past).fields.map HelperField.key).Nodup ∧ (after past).names.Nodup := by
  induction past with
  | nil => exact ⟨List.nodup_nil, List.nodup_nil⟩
  | cons r past ih => exact nodup_ask ih.1 ih.2

def Known (past : List HelperRequest) (key : String) : Prop :=
  ∃ q ∈ past, q.key = key

def First (past : List HelperRequest) (key : String) (first : HelperRequest) (older : List HelperRequest) : Prop :=
  (∃ newer, past = newer ++ first :: older) ∧ first.key = key ∧ ¬Known older key

section

variable {past older : List HelperRequest} {first : HelperRequest} {key : String}

theorem exists_first (h : Known past key) : ∃ first older, First past key first older := by
  induction past with
  | nil =>
    obtain ⟨q, hq, _⟩ := h
    cases hq
  | cons r past ih =>
    by_cases hpast : Known past key
    . obtain ⟨first, older, ⟨newer, rfl⟩, hfirst⟩ := ih hpast
      exact ⟨first, older, ⟨r :: newer, rfl⟩, hfirst⟩
    . obtain ⟨q, hq, hkey⟩ := h
      rcases List.mem_cons.1 hq with rfl | hq
      . exact ⟨q, past, ⟨[], rfl⟩, hkey, hpast⟩
      . exact absurd ⟨q, hq, hkey⟩ hpast

theorem field?_after_of_not_known (h : ¬Known past key) : (after past).field? key = none := by
  induction past with
  | nil => rfl
  | cons r past ih =>
    have hr : r.key ≠ key := fun hr => h ⟨r, List.mem_cons_self, hr⟩
    have hpast : ¬Known past key := fun ⟨q, hq, hkey⟩ => h ⟨q, List.mem_cons_of_mem _ hq, hkey⟩
    exact (field?_ask_of_ne hr).trans (ih hpast)

theorem field?_after_of_first (h : First past key first older)
    : (after past).field? key = some (first.field (freeName (after older).names first.name)) := by
  obtain ⟨⟨newer, rfl⟩, hkey, hnew⟩ := h
  induction newer with
  | nil =>
    change ((after older).ask first).2.field? key = _
    have hnone := field?_after_of_not_known hnew
    rw [ask_of_none (hkey ▸ hnone), field?_declare, hnone, if_pos hkey, Option.none_or]
  | cons r newer ih => exact field?_ask_of_some ih

end

end Draft

/-- A draft with an index of the fields' numbers by key. -/
structure IndexedDraft where
  draft : Draft
  index : String → Option Nat

namespace IndexedDraft

/-- Asks for a helper, whose field is looked up in the index. If the index leads to no field, this crashes. -/
def ask (x : IndexedDraft) (r : HelperRequest) : Option (Except Problem String × IndexedDraft) :=
  match x.index r.key with
  | some n => (x.draft.fields[n]?).map fun existing => (Draft.answer existing r, x)
  | none =>
    let index := Function.update x.index r.key (some x.draft.fields.length)
    some (.ok (Draft.freeName x.draft.names r.name), ⟨x.draft.declare r, index⟩)

/-- The draft and its index after some requests, if there was no crash. -/
def after : List HelperRequest → Option IndexedDraft
  | [] => some ⟨.empty, fun _ => none⟩
  | r :: past => do
    let x ← after past
    let (_, y) ← x.ask r
    return y

def Points (x : IndexedDraft) : Prop :=
  ∀ key n, x.index key = some n ↔ (x.draft.fields[n]?).map HelperField.key = some key

section

variable {x : IndexedDraft} {r : HelperRequest}

theorem Points.field? (h : x.Points) (key : String)
    : (x.index key).bind (x.draft.fields[·]?) = x.draft.field? key := by
  cases hindex : x.index key with
  | none =>
    symm
    rw [Option.bind_none, Draft.field?_eq_none_iff]
    intro hmem
    obtain ⟨f, hf, hkey⟩ := List.mem_map.1 hmem
    obtain ⟨n, hn⟩ := List.mem_iff_getElem?.1 hf
    have hpoints := (h key n).2 (by simp [hn, hkey])
    rw [hindex] at hpoints
    cases hpoints
  | some n =>
    obtain ⟨f, hf, hkey⟩ := Option.map_eq_some_iff.1 ((h key n).1 hindex)
    cases hfound : x.draft.field? key with
    | none =>
      exact absurd (List.mem_map.2 ⟨f, List.mem_of_getElem? hf, hkey⟩) (Draft.field?_eq_none_iff.1 hfound)
    | some g =>
      have hg : g.key = key := by simpa using List.find?_some hfound
      obtain ⟨m, hm⟩ := List.mem_iff_getElem?.1 (List.mem_of_find?_eq_some hfound)
      have hpoints := (h key m).2 (by simp [hm, hg])
      obtain rfl : n = m := Option.some.inj (hindex.symm.trans hpoints)
      exact hm

theorem Points.declare (h : x.Points) (hnew : x.index r.key = none)
    : Points ⟨x.draft.declare r, Function.update x.index r.key (some x.draft.fields.length)⟩ := by
  intro key n
  change Function.update x.index r.key (some x.draft.fields.length) key = some n
    ↔ ((x.draft.fields ++ [r.field (Draft.freeName x.draft.names r.name)])[n]?).map HelperField.key = some key
  have hold : x.index key = some n ↔ _ := h key n
  rcases Nat.lt_trichotomy n x.draft.fields.length with hn | rfl | hn
  . rw [List.getElem?_append_left hn, ← hold]
    by_cases hkey : key = r.key
    . subst hkey
      simp [hnew, hn.ne']
    . rw [Function.update_of_ne hkey]
  . rw [List.getElem?_concat_length, Option.map_some, Option.some.injEq]
    by_cases hkey : key = r.key
    . simp [hkey, HelperRequest.field]
    . rw [Function.update_of_ne hkey, hold]
      simp [HelperRequest.field, Ne.symm hkey]
  . have hnone : (x.draft.fields ++ [r.field (Draft.freeName x.draft.names r.name)])[n]? = none := by
      simpa using hn
    rw [hnone]
    by_cases hkey : key = r.key
    . simp [hkey, hn.ne]
    . rw [Function.update_of_ne hkey, hold, List.getElem?_eq_none hn.le]

/-- The index changes neither what a request is answered with nor what is drafted, and only a request of a new key
changes the index. -/
theorem ask_eq (h : x.Points) (r : HelperRequest)
    : ∃ index, x.ask r = some ((x.draft.ask r).1, ⟨(x.draft.ask r).2, index⟩) ∧
        Points ⟨(x.draft.ask r).2, index⟩ ∧ (x.draft.field? r.key ≠ none → index = x.index) := by
  have hfield := h.field? r.key
  cases hindex : x.index r.key with
  | some n =>
    obtain ⟨f, hf, _⟩ := Option.map_eq_some_iff.1 ((h r.key n).1 hindex)
    rw [hindex, Option.bind_some, hf] at hfield
    rw [Draft.ask_of_some hfield.symm]
    refine ⟨x.index, ?_, h, fun _ => rfl⟩
    simp [ask, hindex, hf]
  | none =>
    rw [hindex, Option.bind_none] at hfield
    rw [Draft.ask_of_none hfield.symm]
    refine ⟨_, ?_, h.declare hindex, fun hne => absurd hfield.symm hne⟩
    simp [ask, hindex]

end

theorem after_eq (past : List HelperRequest)
    : ∃ index, after past = some ⟨Draft.after past, index⟩ ∧ Points ⟨Draft.after past, index⟩ := by
  induction past with
  | nil =>
    refine ⟨_, rfl, fun key n => ?_⟩
    simp [Draft.after, Draft.empty]
  | cons r past ih =>
    obtain ⟨index, hafter, hpoints⟩ := ih
    obtain ⟨index', hask, hpoints', _⟩ := ask_eq hpoints r
    refine ⟨index', ?_, hpoints'⟩
    rw [after, hafter, Option.bind_eq_bind, Option.bind_some, hask]
    rfl

end IndexedDraft

namespace Draft

/-- After any requests the keys and the names of the fields are distinct, and the index leads from each key to its
field. A request under a known key is answered as the first one was, or refused if it means another structure, and
changes nothing. A request under a new key adds one field, with the first free name. -/
theorem requests_answered (past : List HelperRequest) (r : HelperRequest)
    : let d := after past
      (d.fields.map HelperField.key).Nodup ∧ d.names.Nodup ∧
        (∃ index index', IndexedDraft.after past = some ⟨d, index⟩ ∧
          (∀ key n, index key = some n ↔ (d.fields[n]?).map HelperField.key = some key) ∧
          IndexedDraft.ask ⟨d, index⟩ r = some ((d.ask r).1, ⟨(d.ask r).2, index'⟩) ∧
          (Known past r.key → index' = index)) ∧
        (Known past r.key → ∃ first older name, First past r.key first older ∧
          ((after older).ask first).1 = .ok name ∧
          d.ask r =
            (if first.fingerprint = r.fingerprint then .ok name
              else .error (.helperCollision r.key first.fingerprint r.fingerprint), d)) ∧
        (¬Known past r.key → ∃ name,
          d.ask r =
            (.ok name,
              { d with
                fields := d.fields ++ [⟨name, r.type, r.value, r.key, r.fingerprint⟩]
                events := d.events ++ [.registeredHelper r.key name] }) ∧
          (r.name ∉ d.names → name = r.name) ∧
          (r.name ∈ d.names → ∃ k, 0 < k ∧ name = r.name ++ "_" ++ toString k ∧ name ∉ d.names ∧
            ∀ j, 0 < j → j < k → r.name ++ "_" ++ toString j ∈ d.names)) := by
  intro d
  obtain ⟨hkeys, hnames⟩ := nodup_after past
  refine ⟨hkeys, hnames, ?_, fun hknown => ?_, fun hnew => ?_⟩
  . obtain ⟨index, hafter, hpoints⟩ := IndexedDraft.after_eq past
    obtain ⟨index', hask, _, hsame⟩ := IndexedDraft.ask_eq hpoints r
    refine ⟨index, index', hafter, hpoints, hask, fun hknown => hsame ?_⟩
    obtain ⟨first, older, hfirst⟩ := exists_first hknown
    rw [field?_after_of_first hfirst]
    nofun
  . obtain ⟨first, older, hfirst⟩ := exists_first hknown
    have hanswer := ask_of_some (field?_after_of_first hfirst)
    have hthen : (after older).field? first.key = none := hfirst.2.1 ▸ field?_after_of_not_known hfirst.2.2
    refine ⟨first, older, freeName (after older).names first.name, hfirst, ?_, hanswer⟩
    rw [ask_of_none hthen]
  . refine ⟨freeName d.names r.name, ask_of_none (field?_after_of_not_known hnew), freeName_of_not_mem, fun hmem => ?_⟩
    obtain ⟨k, hk, hname, hbefore⟩ := exists_freeName_of_mem hmem
    exact ⟨k, hk, hname, freeName_not_mem d.names r.name, hbefore⟩

def suffixed : List HelperRequest :=
  [⟨"second", "users", "adapter_1", .sharedStatement, .number 0 false⟩,
    ⟨"first", "users", "adapter", .sharedStatement, .number 0 false⟩]

theorem names_suffixed : (after suffixed).names = ["adapter", "adapter_1"] := by cbv

theorem answer_suffixed_third
    : ((after suffixed).ask ⟨"third", "users", "adapter", .sharedStatement, .number 0 false⟩).1 = .ok "adapter_2" := by
  cbv

theorem answer_suffixed_first
    : ((after suffixed).ask ⟨"first", "tags", "adapter", .sharedStatement, .number 0 false⟩).1
        = .error (.helperCollision "first" "users" "tags") := by cbv

theorem requests_answered_suffixed
    : let third : HelperRequest := ⟨"third", "users", "adapter", .sharedStatement, .number 0 false⟩
      let changed : HelperRequest := ⟨"first", "tags", "adapter", .sharedStatement, .number 0 false⟩
      let d := after suffixed
      ¬Known suffixed third.key ∧ third.name ∈ d.names ∧ (d.ask third).1 = .ok "adapter_2" ∧
        (∃ k, 0 < k ∧ "adapter_2" = "adapter" ++ "_" ++ toString k ∧
          ∀ j, 0 < j → j < k → "adapter" ++ "_" ++ toString j ∈ d.names) ∧
        Known suffixed changed.key ∧
        d.ask changed = (.error (.helperCollision "first" "users" "tags"), d) := by
  intro third changed d
  have hthird : ¬Known suffixed third.key := by
    rintro ⟨q, hq, hkey⟩
    simp only [suffixed, List.mem_cons, List.not_mem_nil, or_false] at hq
    rcases hq with rfl | rfl
    . exact absurd hkey (by decide)
    . exact absurd hkey (by decide)
  have hchanged : Known suffixed changed.key := ⟨_, List.mem_cons_of_mem _ List.mem_cons_self, rfl⟩
  have hname : third.name ∈ d.names := by
    change "adapter" ∈ (after suffixed).names
    rw [names_suffixed]
    exact List.mem_cons_self
  obtain ⟨_, _, _, _, hnew⟩ := requests_answered suffixed third
  obtain ⟨_, _, _, hknown, _⟩ := requests_answered suffixed changed
  obtain ⟨name, hask, _, hsuffix⟩ := hnew hthird
  obtain ⟨_, _, _, _, _, hcollision⟩ := hknown hchanged
  have hanswer : name = "adapter_2" :=
    Except.ok.inj ((congrArg Prod.fst hask).symm.trans answer_suffixed_third)
  obtain ⟨k, hk, hcandidate, _, hbefore⟩ := hsuffix hname
  have hsame : (d.ask changed).2 = d := by rw [hcollision]
  refine ⟨hthird, hname, answer_suffixed_third, ⟨k, hk, hanswer ▸ hcandidate, hbefore⟩, hchanged, ?_⟩
  exact Prod.ext answer_suffixed_first hsame

end Draft

end DataAccess
