import DataAccess.Proofs.Compile.Needs
import DataAccess.Proofs.Lists

/-!
This module contains what a draft declares once it has answered the needs of an interface's methods. Main
statement: it has one declaration for each signature, in the order in which they were first asked for, and
each need is answered with the declaration that it would have got on its own.
-/

namespace DataAccess

open Code (Block Reference ownField)

namespace Need

def request? : Need → Option HelperRequest
  | adapter op e table => some (adapterRequest op e table)
  | prepared m s => some (preparedRequest m s)
  | row _ => none

def read? : Need → Option Entity
  | row e => some e
  | adapter _ _ _ | prepared _ _ => none

/-- What is needed refers to what an interface has. -/
def Known (i : Interface) : Need → Prop
  | adapter _ e table => i.entity? e.name = some e ∧ i.writtenTable? e = some table
  | prepared _ _ => True
  | row e => i.entity? e.name = some e

end Need

theorem Interface.WellNamed.plainName {i : Interface} (h : i.WellNamed) {e : Entity}
    (he : i.entity? e.name = some e) : PlainName e.name :=
  h e (List.mem_of_find?_eq_some he)

theorem same_of_key {i : Interface} (hnames : i.WellNamed) {op op' : ShortcutOp} {e e' : Entity}
    {table table' : String} (h : (Need.adapter op e table).Known i)
    (h' : (Need.adapter op' e' table').Known i)
    (hkey : (adapterRequest op e table).key = (adapterRequest op' e' table').key)
    : op = op' ∧ e = e' ∧ table = table' := by
  have hname : e.name = e'.name := by
    apply String.ext
    rw [← nameInKey_adapterRequest op e table (hnames.plainName h.1), hkey,
      nameInKey_adapterRequest op' e' table' (hnames.plainName h'.1)]
  obtain rfl : e = e' := Option.some.inj (h.1.symm.trans ((congrArg _ hname).trans h'.1))
  obtain rfl : table = table' := Option.some.inj (h.2.symm.trans h'.2)
  exact ⟨op_of_key hkey, rfl, rfl⟩

/-- Known needs of one signature and one fingerprint are declared in the same way. -/
theorem Need.declaration_eq {i : Interface} (hnames : i.WellNamed) {n n' : Need} (hn : n.Known i)
    (hn' : n'.Known i) (hsignature : n.signature = n'.signature)
    (hfingerprint : n.fingerprint = n'.fingerprint) (name : String)
    : n.declaration name = n'.declaration name := by
  cases n with
  | adapter op e table =>
    cases n' with
    | adapter op' e' table' =>
      obtain ⟨rfl, rfl, rfl⟩ := same_of_key hnames hn hn' (Signature.helper.inj hsignature)
      rfl
    | prepared m s =>
      exact absurd (Signature.helper.inj hsignature) (key_adapterRequest_ne op e table m.name)
    | row => cases hsignature
  | prepared m s =>
    cases n' with
    | adapter op e table =>
      exact absurd (Signature.helper.inj hsignature).symm (key_adapterRequest_ne op e table m.name)
    | prepared m' s' =>
      have hname : m.name = m'.name := (String.append_right_inj _).1 (Signature.helper.inj hsignature)
      obtain ⟨hsql, hcount⟩ := fingerprint_preparedRequest_eq_iff.1 hfingerprint
      simp [declaration, HelperRequest.field, preparedRequest, hname, hsql, hcount]
    | row => cases hsignature
  | row e =>
    cases n' with
    | adapter | prepared => cases hsignature
    | row e' =>
      have hname : e.name = e'.name := Signature.row.inj hsignature
      have hentity : e = e' := Option.some.inj (hn.symm.trans ((congrArg _ hname).trans hn'))
      rw [hentity]

theorem Need.newName_not_mem (d : Draft) {n : Need} {key : String} (h : n.signature = .helper key)
    : n.newName d ∉ d.fields.map (·.name) := by
  cases n with
  | adapter | prepared => exact Draft.freeName_not_mem _ _
  | row => cases h

theorem Need.newName_ne_db (d : Draft) {n : Need} {key : String} (h : n.signature = .helper key)
    : n.newName d ≠ "__db" := by
  have long (base : String) (taken : List String) (hbase : ∀ rest, base.toList ++ rest ≠ "__db".toList)
      : Draft.freeName taken base ≠ "__db" := by
    obtain ⟨k, hcandidate⟩ : ∃ k, Draft.freeName taken base = Draft.candidate base k := ⟨_, rfl⟩
    rw [hcandidate]
    intro heq
    have hchars := congrArg String.toList heq
    cases k with
    | zero => exact hbase [] ((List.append_nil _).trans hchars)
    | succ k =>
      simp only [Draft.candidate, String.toList_append, List.append_assoc] at hchars
      exact hbase _ hchars
  cases n with
  | adapter op e table =>
    apply long
    intro rest
    cases op with
    | insert | delete | update | upsert => simp [adapterRequest]
  | prepared m s =>
    apply long
    intro rest
    simp [preparedRequest]
  | row => cases h

theorem Need.helper_or_row (n : Need)
    : (∃ r, n.request? = some r ∧ n.read? = none ∧ n.signature = .helper r.key ∧
        ∀ name, n.declaration name = .field (r.field name)) ∨
      ∃ e, n = .row e := by
  cases n with
  | adapter | prepared => exact Or.inl ⟨_, rfl, rfl, rfl, fun _ => rfl⟩
  | row e => exact Or.inr ⟨e, rfl⟩

def helperNames (answers : List (Need × String)) : List String :=
  answers.filterMap fun (n, name) => n.request?.map fun _ => name

def helperKeys (answers : List (Need × String)) : List String :=
  answers.filterMap fun (n, _) => n.request?.map HelperRequest.key

def readEntities (answers : List (Need × String)) : List Entity :=
  answers.filterMap fun (n, _) => n.read?

section Concat

variable (answers : List (Need × String)) (n : Need) (name : String)

theorem helperNames_concat
    : helperNames (answers ++ [(n, name)])
        = helperNames answers ++ (n.request?.map fun _ => name).toList := by
  unfold helperNames
  rw [List.filterMap_append]
  cases hrequest : n.request? with
  | none => simp [hrequest]
  | some => simp [hrequest]

theorem helperKeys_concat
    : helperKeys (answers ++ [(n, name)])
        = helperKeys answers ++ (n.request?.map HelperRequest.key).toList := by
  unfold helperKeys
  rw [List.filterMap_append]
  cases hrequest : n.request? with
  | none => simp [hrequest]
  | some => simp [hrequest]

theorem readEntities_concat
    : readEntities (answers ++ [(n, name)]) = readEntities answers ++ n.read?.toList := by
  unfold readEntities
  rw [List.filterMap_append]
  cases hread : n.read? with
  | none => simp [hread]
  | some => simp [hread]

end Concat

structure Draft.Gives (d : Draft) (n : Need) (name : String) : Prop where
  has : d.Has (n.declaration name)
  name : (n.declaration name).name = name

/-- A draft declares what was answered, each once and in the order of the first use. -/
structure Draft.Answered (i : Interface) (d : Draft) (answers : List (Need × String)) : Prop where
  names : d.fields.map (·.name) = (helperNames answers).eraseDups
  keys : d.fields.map (·.key) = (helperKeys answers).eraseDups
  entities : d.rowAdapters.map (·.entity) = ((readEntities answers).map Entity.name).eraseDups
  /-- Nothing is declared but what is needed and known. -/
  declares : ∀ x, d.Has x → ∃ n : Need, n.Known i ∧ x = n.declaration x.name
  gives : ∀ a ∈ answers, d.Gives a.1 a.2
  handle : ∀ f ∈ d.fields, f.name ≠ "__db"

namespace Draft.Answered

variable {i : Interface} {d e : Draft} {answers : List (Need × String)}

theorem empty (i : Interface) : Draft.empty.Answered i [] where
  names := rfl
  keys := rfl
  entities := rfl
  declares x hx := by
    cases x with
    | field | function => cases hx
  gives a ha := by cases ha
  handle f hf := by cases hf

theorem of_alike (h : d.Answered i answers) (he : e.Alike d) : e.Answered i answers where
  names := he.fields ▸ h.names
  keys := he.fields ▸ h.keys
  entities := he.rowAdapters ▸ h.entities
  declares x hx := h.declares x (he.has_iff.1 hx)
  gives a ha := ⟨he.has_iff.2 (h.gives a ha).has, (h.gives a ha).name⟩
  handle := he.fields ▸ h.handle

theorem gives_concat (h : d.Answered i answers) (hkept : ∀ x, d.Has x → e.Has x) {n : Need}
    {name : String} (hgives : e.Gives n name) : ∀ a ∈ answers ++ [(n, name)], e.Gives a.1 a.2 := by
  intro a ha
  rcases List.mem_append.1 ha with ha | ha
  . exact ⟨hkept _ (h.gives a ha).has, (h.gives a ha).name⟩
  . rw [List.mem_singleton.1 ha]
    exact hgives

theorem again (h : d.Answered i answers) {n : Need} {name : String} (hgives : d.Gives n name)
    : d.Answered i (answers ++ [(n, name)]) := by
  have hall := h.gives_concat (fun _ hx => hx) hgives
  have hhas := hgives.has
  rcases n.helper_or_row with ⟨r, hrequest, hread, _, hdeclaration⟩ | ⟨entity, rfl⟩
  . have hfield : r.field name ∈ d.fields := by
      rw [hdeclaration] at hhas
      exact hhas
    refine ⟨?_, ?_, ?_, h.declares, hall, h.handle⟩
    . rw [helperNames_concat, hrequest, h.names]
      apply (eraseDups_concat_of_mem _).symm
      rw [← List.mem_eraseDups, ← h.names]
      exact List.mem_map_of_mem (f := (·.name)) hfield
    . rw [helperKeys_concat, hrequest, h.keys]
      apply (eraseDups_concat_of_mem _).symm
      rw [← List.mem_eraseDups, ← h.keys]
      exact List.mem_map_of_mem (f := (·.key)) hfield
    . rw [readEntities_concat, hread, h.entities]
      exact congrArg List.eraseDups (congrArg _ (List.append_nil _).symm)
  . have hrow : RowCode.adapter entity ∈ d.rowAdapters := hhas
    refine ⟨?_, ?_, ?_, h.declares, hall, h.handle⟩
    . rw [helperNames_concat, h.names]
      exact congrArg List.eraseDups (List.append_nil _).symm
    . rw [helperKeys_concat, h.keys]
      exact congrArg List.eraseDups (List.append_nil _).symm
    . rw [readEntities_concat, List.map_append, h.entities]
      apply (eraseDups_concat_of_mem _).symm
      rw [← List.mem_eraseDups, ← h.entities]
      exact List.mem_map_of_mem (f := (·.entity)) hrow

theorem not_mem_of_find?_eq_none {signature : Signature} (h : d.find? signature = none)
    : (∀ key, signature = .helper key → key ∉ d.fields.map (·.key)) ∧
      ∀ entity, signature = .row entity → entity ∉ d.rowAdapters.map (·.entity) := by
  constructor
  . rintro key rfl hmem
    obtain ⟨f, hf, hkey⟩ := List.mem_map.1 hmem
    have hnone := List.find?_eq_none.1 (Option.map_eq_none_iff.1 h) f hf
    simp [hkey] at hnone
  . rintro entity rfl hmem
    obtain ⟨r, hr, hentity⟩ := List.mem_map.1 hmem
    have hnone := List.find?_eq_none.1 (Option.map_eq_none_iff.1 h) r hr
    simp [hentity] at hnone

theorem anew (h : d.Answered i answers) {n : Need} (hn : n.Known i) (hnew : d.find? n.signature = none)
    (hgains : e.Gains d (n.declaration (n.newName d)))
    : e.Answered i (answers ++ [(n, n.newName d)]) := by
  have hgives : e.Gives n (n.newName d) :=
    ⟨hgains.has_iff.2 (Or.inr rfl), n.name_declaration_newName d⟩
  have hall := h.gives_concat (fun _ hx => hgains.has_iff.2 (Or.inl hx)) hgives
  obtain ⟨hkeyNew, hentityNew⟩ := not_mem_of_find?_eq_none hnew
  have hdeclares : ∀ x, e.Has x → ∃ n : Need, n.Known i ∧ x = n.declaration x.name := by
    intro x hx
    rcases hgains.has_iff.1 hx with hx | rfl
    . exact h.declares x hx
    . refine ⟨n, hn, ?_⟩
      rw [n.name_declaration_newName]
  rcases n.helper_or_row with ⟨r, hrequest, hread, hsignature, hdeclaration⟩ | ⟨entity, rfl⟩
  . have hnameNew := Need.newName_not_mem d hsignature
    rw [hdeclaration] at hgains
    obtain ⟨hfields, hrows⟩ := hgains
    refine ⟨?_, ?_, ?_, hdeclares, hall, ?_⟩
    . rw [helperNames_concat, hrequest, hfields, List.map_append, h.names]
      apply (eraseDups_concat_of_not_mem _).symm
      rw [← List.mem_eraseDups, ← h.names]
      exact hnameNew
    . rw [helperKeys_concat, hrequest, hfields, List.map_append, h.keys]
      apply (eraseDups_concat_of_not_mem _).symm
      rw [← List.mem_eraseDups, ← h.keys]
      exact hkeyNew r.key hsignature
    . rw [readEntities_concat, hread, hrows, h.entities]
      exact congrArg List.eraseDups (congrArg _ (List.append_nil _).symm)
    . intro f hf
      rw [hfields] at hf
      rcases List.mem_append.1 hf with hf | hf
      . exact h.handle f hf
      . rw [List.mem_singleton.1 hf]
        exact n.newName_ne_db d hsignature
  . cases hgains with
    | function hfields hrows =>
      refine ⟨?_, ?_, ?_, hdeclares, hall, hfields ▸ h.handle⟩
      . rw [helperNames_concat, hfields, h.names]
        exact congrArg List.eraseDups (List.append_nil _).symm
      . rw [helperKeys_concat, hfields, h.keys]
        exact congrArg List.eraseDups (List.append_nil _).symm
      . rw [readEntities_concat, List.map_append, hrows, List.map_append, h.entities]
        apply (eraseDups_concat_of_not_mem _).symm
        rw [← List.mem_eraseDups, ← h.entities]
        exact hentityNew entity.name rfl

theorem ask (h : d.Answered i answers) (hnames : i.WellNamed) {n : Need} {name : String} (hn : n.Known i)
    (hask : n.ask.run.run d = (.ok name, e)) : e.Answered i (answers ++ [(n, name)]) := by
  have hcases := n.ask_cases d
  cases hfound : d.find? n.signature with
  | some found =>
    rw [hfound] at hcases
    obtain ⟨hanswer, rfl⟩ := Prod.mk.inj (hask.symm.trans hcases)
    obtain ⟨hfingerprint, rfl⟩ := Need.answer_eq_ok hanswer.symm
    obtain ⟨hhas, hsignature⟩ := Draft.has_of_find? hfound
    obtain ⟨n', hn', hdeclared⟩ := h.declares found hhas
    have hsame : n.declaration found.name = found := by
      rw [hdeclared] at hsignature hfingerprint
      rw [Need.signature_declaration] at hsignature
      rw [Need.fingerprint_declaration] at hfingerprint
      rw [Need.declaration_eq hnames hn hn' hsignature.symm hfingerprint.symm]
      exact hdeclared.symm
    have hgives : d.Gives n found.name := ⟨hsame.symm ▸ hhas, congrArg Declaration.name hsame⟩
    exact (h.again hgives).of_alike (d.alike_noted n)
  | none =>
    rw [hfound] at hcases
    obtain ⟨e', hrun, hgains⟩ := hcases
    cases hask.symm.trans hrun
    exact h.anew hn hfound hgains

end Draft.Answered

end DataAccess
