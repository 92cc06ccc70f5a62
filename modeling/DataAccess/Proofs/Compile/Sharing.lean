import DataAccess.Proofs.Compile.Needs

/-!
This module contains what a draft shares that is asked for one thing after the other, for arbitrary
entities and tables. Main statement: the first one to ask under a signature gets its own code, and a later
one gets the code of the first one if and only if both are for the same tables and columns; nothing else
of the entities is compared.
-/

namespace DataAccess

/-- Names that are joined by commas can be told apart if none of them is empty or has a comma. -/
theorem intercalate_comma_inj {l l' : List String} (h : ∀ s ∈ l, s ≠ "" ∧ ',' ∉ s.toList)
    (h' : ∀ s ∈ l', s ≠ "" ∧ ',' ∉ s.toList) (heq : ",".intercalate l = ",".intercalate l') : l = l' := by
  have nil_of_eq {l : List String} (h : ∀ s ∈ l, s ≠ "" ∧ ',' ∉ s.toList)
      (heq : ",".intercalate l = "") : l = [] := by
    cases l with
    | nil => rfl
    | cons s rest =>
      cases rest with
      | nil => simp [h s (by simp)] at heq
      | cons => simp at heq
  by_cases hnil : l = []
  . rw [hnil] at heq ⊢
    exact (nil_of_eq h' heq.symm).symm
  by_cases hnil' : l' = []
  . rw [hnil'] at heq
    exact absurd (nil_of_eq h heq) hnil
  have split {l : List String} (h : ∀ s ∈ l, s ≠ "" ∧ ',' ∉ s.toList) (hnil : l ≠ [])
      : ((",".intercalate l).toList.splitOn ',') = l.map String.toList := by
    rw [String.toList_intercalate]
    apply List.splitOn_intercalate
    . intro chars hchars
      obtain ⟨s, hs, rfl⟩ := List.mem_map.1 hchars
      exact (h s hs).2
    . simpa using hnil
  have hparts : l.map String.toList = l'.map String.toList := by
    rw [← split h hnil, heq, split h' hnil']
  exact List.map_injective_iff.2 (fun _ _ => String.ext) hparts

namespace Entity

/-- Names in an entity that fingerprints and keys keep apart. -/
structure Plain (e : Entity) : Prop where
  name : PlainName e.name
  table : '(' ∉ e.table.toList
  columns : ∀ f ∈ e.fields, f.column ≠ "" ∧ ',' ∉ f.column.toList

/-- Two entities are in the same table and have the same columns. -/
def SameColumns (e e' : Entity) : Prop :=
  e.table = e'.table ∧ e.fields.map (·.column) = e'.fields.map (·.column)

/-- Two entities are in the same table and have the same fields and the same key. -/
def SameStructure (e e' : Entity) : Prop :=
  e.table = e'.table ∧ e.fields = e'.fields ∧ e.primaryKey = e'.primaryKey

theorem fingerprint_eq_iff {e e' : Entity} (h : e.Plain) (h' : e'.Plain)
    : e.fingerprint = e'.fingerprint ↔ e.SameColumns e' := by
  constructor
  . intro heq
    have hchars := congrArg String.toList heq
    unfold fingerprint at hchars
    simp only [String.toList_append, List.append_assoc] at hchars
    obtain ⟨htable, hrest⟩ := eq_of_append_cons_eq h.table h'.table hchars
    have hcolumns := String.ext (List.append_cancel_right hrest)
    refine ⟨String.ext htable, intercalate_comma_inj ?_ ?_ hcolumns⟩
    . simpa using h.columns
    . simpa using h'.columns
  . rintro ⟨htable, hcolumns⟩
    unfold fingerprint
    rw [htable, hcolumns]

end Entity

namespace Need

/-- The entities and tables of a need have names that are kept apart. -/
def Plain : Need → Prop
  | adapter _ e table => e.Plain ∧ ':' ∉ table.toList
  | prepared _ _ => True
  | row e => e.Plain

/-- Two needs are for the same tables and columns, or for the same statement. -/
def SameColumns : Need → Need → Prop
  | adapter _ e table, adapter _ e' table' => table = table' ∧ e.SameColumns e'
  | prepared _ s, prepared _ s' => s.positionalSql = s'.positionalSql ∧ s.argCount = s'.argCount
  | row e, row e' => e.SameColumns e'
  | _, _ => False

/-- Two needs are for entities of the same structure, or for the same statement. -/
def SameStructure : Need → Need → Prop
  | adapter _ e table, adapter _ e' table' => table = table' ∧ e.SameStructure e'
  | prepared _ s, prepared _ s' => s.positionalSql = s'.positionalSql ∧ s.argCount = s'.argCount
  | row e, row e' => e.SameStructure e'
  | _, _ => False

variable {n n' : Need}

theorem fingerprint_eq_iff (h : n.Plain) (h' : n'.Plain) (hsignature : n.signature = n'.signature)
    : n.fingerprint = n'.fingerprint ↔ n.SameColumns n' := by
  cases n with
  | adapter op e table =>
    cases n' with
    | adapter op' e' table' =>
      change (adapterRequest op e table).fingerprint = (adapterRequest op' e' table').fingerprint ↔
        table = table' ∧ e.SameColumns e'
      rw [fingerprint_adapterRequest, fingerprint_adapterRequest, ← Entity.fingerprint_eq_iff h.1 h'.1]
      constructor
      . intro heq
        have hchars := congrArg String.toList heq
        simp only [String.toList_append, List.append_assoc] at hchars
        obtain ⟨htable, hrest⟩ := eq_of_append_cons_eq h.2 h'.2 hchars
        exact ⟨String.ext htable, String.ext hrest⟩
      . rintro ⟨rfl, hfingerprint⟩
        rw [hfingerprint]
    | prepared m s =>
      exact absurd (Signature.helper.inj hsignature) (key_adapterRequest_ne op e table m.name)
    | row => cases hsignature
  | prepared m s =>
    cases n' with
    | adapter op e table =>
      exact absurd (Signature.helper.inj hsignature).symm (key_adapterRequest_ne op e table m.name)
    | prepared m' s' => exact fingerprint_preparedRequest_eq_iff
    | row => cases hsignature
  | row e =>
    cases n' with
    | adapter | prepared => cases hsignature
    | row e' => exact Entity.fingerprint_eq_iff h h'

theorem adapterRequest_eq {op : ShortcutOp} {e e' : Entity} {table : String} (hname : e.name = e'.name)
    (h : e.SameStructure e') (hkey : (adapterRequest op e table).key = (adapterRequest op e' table).key)
    : adapterRequest op e table = adapterRequest op e' table := by
  obtain ⟨_, _, _, _, whole⟩ := e
  obtain ⟨_, _, _, _, whole'⟩ := e'
  obtain ⟨htable, hfields, hprimaryKey⟩ := h
  cases hname
  cases htable
  cases hfields
  cases hprimaryKey
  cases op with
  | insert | delete | update | upsert =>
    unfold adapterRequest at hkey ⊢
    exact congrArg (fun key => (⟨key, _, _, _, _⟩ : HelperRequest)) hkey

theorem declaration_eq_of_sameStructure (hplain : n.Plain) (hplain' : n'.Plain)
    (hsignature : n.signature = n'.signature) (h : n.SameStructure n') (name : String)
    : n.declaration name = n'.declaration name := by
  cases n with
  | adapter op e table =>
    cases n' with
    | adapter op' e' table' =>
      have hkey := Signature.helper.inj hsignature
      obtain rfl := op_of_key hkey
      have hname : e.name = e'.name := by
        apply String.ext
        rw [← nameInKey_adapterRequest op e table hplain.1.name, hkey,
          nameInKey_adapterRequest op e' table' hplain'.1.name]
      obtain ⟨rfl, hsame⟩ : table = table' ∧ e.SameStructure e' := h
      have hrequest := adapterRequest_eq hname hsame hkey
      exact congrArg (fun r : HelperRequest => Declaration.field (r.field name)) hrequest
    | prepared | row => cases h
  | prepared m s =>
    cases n' with
    | prepared m' s' =>
      have hname : m.name = m'.name := (String.append_right_inj _).1 (Signature.helper.inj hsignature)
      simp [declaration, HelperRequest.field, preparedRequest, hname, h.1, h.2]
    | adapter | row => cases h
  | row e =>
    cases n' with
    | row e' =>
      have hname : e.name = e'.name := Signature.row.inj hsignature
      obtain ⟨htable, hfields, _⟩ : e.SameStructure e' := h
      have hadapter : RowCode.adapter e = RowCode.adapter e' := by
        unfold RowCode.adapter RowCode.body Entity.fingerprint
        rw [hname, htable, hfields]
      exact congrArg Declaration.function hadapter
    | adapter | prepared => cases h

end Need

namespace Draft

def asked (d : Draft) (needs : List Need) : Draft :=
  needs.foldl (fun d n => (n.ask.run.run d).2) d

theorem asked_concat (d : Draft) (needs : List Need) (n : Need)
    : d.asked (needs ++ [n]) = (n.ask.run.run (d.asked needs)).2 := by
  unfold asked
  rw [List.foldl_append]
  rfl

def Follows (d : Draft) (needs : List Need) : Prop :=
  ∀ signature, match needs.find? (·.signature = signature) with
    | none => d.find? signature = none
    | some first =>
      ∃ name, d.find? signature = some (first.declaration name) ∧ (first.declaration name).name = name

variable {d e : Draft} {needs : List Need} {n : Need}

theorem follows_empty : empty.Follows [] := by
  intro signature
  cases signature with
  | helper | row => rfl

/-- Asking once more keeps what was declared, and what is new is what was asked for. -/
theorem Follows.ask (h : d.Follows needs) : ((n.ask.run.run d).2).Follows (needs ++ [n]) := by
  intro signature
  have hbefore := h signature
  have hcases := n.ask_cases d
  rw [List.find?_append]
  cases hfound : d.find? n.signature with
  | some found =>
    rw [hfound] at hcases
    rw [hcases, (d.alike_noted n).find?_eq]
    cases hfirst : needs.find? (·.signature = signature) with
    | some first =>
      rw [hfirst] at hbefore
      exact hbefore
    | none =>
      rw [hfirst] at hbefore
      have hother : n.signature ≠ signature := by
        rintro rfl
        rw [hfound] at hbefore
        cases hbefore
      simpa [List.find?_cons, hother] using hbefore
  | none =>
    rw [hfound] at hcases
    obtain ⟨e, hrun, hgains⟩ := hcases
    rw [hrun, hgains.find?_eq, n.signature_declaration]
    cases hfirst : needs.find? (·.signature = signature) with
    | some first =>
      rw [hfirst] at hbefore
      obtain ⟨name, hname, hnamed⟩ := hbefore
      rw [hname]
      exact ⟨name, rfl, hnamed⟩
    | none =>
      rw [hfirst] at hbefore
      dsimp only at hbefore
      by_cases hsame : n.signature = signature
      . simpa [List.find?_cons, hsame, hbefore] using ⟨_, rfl, n.name_declaration_newName d⟩
      . simp [hsame, hbefore]

theorem follows_asked (needs : List Need) : (empty.asked needs).Follows needs := by
  induction needs using List.reverseRecOn with
  | nil => exact follows_empty
  | append_singleton needs n ih =>
    rw [asked_concat]
    exact ih.ask

end Draft

/-- The first one to ask under a signature gets a declaration of its own. All later ones get that
declaration if their fingerprints are the same, and a collision if they are not; nothing is declared then.
Fingerprints are the same if and only if tables and columns are. -/
theorem Draft.shares_iff_sameColumns (needs : List Need) (n : Need)
    : let d := Draft.empty.asked needs
      match needs.find? (·.signature = n.signature) with
      | none =>
        ∃ e, n.ask.run.run d = (.ok (n.newName d), e) ∧ e.Gains d (n.declaration (n.newName d))
      | some first =>
        ∃ name, d.find? n.signature = some (first.declaration name) ∧
          (first.fingerprint = n.fingerprint → n.ask.run.run d = (.ok name, n.noted d)) ∧
          (first.fingerprint ≠ n.fingerprint →
            n.ask.run.run d
              = (.error (.helperCollision n.signature.text first.fingerprint n.fingerprint),
                n.noted d)) ∧
          (n.noted d).Alike d ∧
          (first.Plain → n.Plain →
            (first.fingerprint = n.fingerprint ↔ first.SameColumns n) ∧
            (first.SameStructure n → first.declaration name = n.declaration name)) := by
  intro d
  have hfollows := Draft.follows_asked needs n.signature
  have hcases := n.ask_cases d
  cases hfirst : needs.find? (·.signature = n.signature) with
  | none =>
    rw [hfirst] at hfollows
    change d.find? n.signature = none at hfollows
    rw [hfollows] at hcases
    exact hcases
  | some first =>
    rw [hfirst] at hfollows
    obtain ⟨name, hfound, hname⟩ := hfollows
    change d.find? n.signature = some (first.declaration name) at hfound
    rw [hfound] at hcases
    have hsignature : first.signature = n.signature := by simpa using List.find?_some hfirst
    dsimp only [Need.answer] at hcases
    rw [first.fingerprint_declaration, hname] at hcases
    refine ⟨name, hfound, ?_, ?_, d.alike_noted n, ?_⟩
    . intro hsame
      rw [hcases, if_pos hsame]
    . intro hdiffer
      rw [hcases, if_neg hdiffer]
    . intro hplain hplain'
      refine ⟨Need.fingerprint_eq_iff hplain hplain' hsignature, ?_⟩
      intro hstructure
      exact Need.declaration_eq_of_sameStructure hplain hplain' hsignature hstructure name

def namedUser : Entity :=
  ⟨"User", "users", [⟨"name", "name", false, none⟩], ["name"], none⟩

def convertedUser : Entity :=
  ⟨"User", "users", [⟨"name", "name", true, some ⟨false, [.mk "Trimmed" .none]⟩⟩], ["name"], none⟩

def mailedUser : Entity :=
  ⟨"User", "users", [⟨"name", "mail", false, none⟩], ["name"], none⟩

theorem plain_users : namedUser.Plain ∧ mailedUser.Plain := by
  have plainName : PlainName "User" := plainName_of_isIdent (by decide)
  exact ⟨⟨plainName, by decide, by decide⟩, ⟨plainName, by decide, by decide⟩⟩

/-- Another column is noticed. -/
theorem shares_iff_sameColumns_mailedUser
    : (Need.row namedUser).Plain ∧ (Need.row mailedUser).Plain ∧
      (Need.row mailedUser).ask.run.run (Draft.empty.asked [.row namedUser])
        = (.error (.helperCollision "row:User" "users(name)" "users(mail)"),
          Draft.empty.asked [.row namedUser]) := by
  have hfirst : [Need.row namedUser].find? (·.signature = (Need.row mailedUser).signature)
      = some (.row namedUser) := rfl
  have hshares := Draft.shares_iff_sameColumns [.row namedUser] (.row mailedUser)
  rw [hfirst] at hshares
  obtain ⟨_, _, _, hrefused, _, hcompared⟩ := hshares
  obtain ⟨hsame, _⟩ := hcompared plain_users.1 plain_users.2
  have hcolumns : ¬namedUser.SameColumns mailedUser := by
    rintro ⟨_, hcolumns⟩
    revert hcolumns
    decide
  exact ⟨plain_users.1, plain_users.2, hrefused (mt hsame.1 hcolumns)⟩

/-- Another structure is not noticed as long as the column has the same name: the second adapter and the
second function are those of the first entity, not of the second one. -/
theorem shares_convertedUser
    : let insert (e : Entity) := Need.adapter (.insert .abort) e "users"
      let inserts := Draft.empty.asked [insert namedUser]
      let reads := Draft.empty.asked [.row namedUser]
      (∃ name, ((insert convertedUser).ask.run.run inserts).1 = .ok name ∧
        inserts.find? (insert convertedUser).signature = some ((insert namedUser).declaration name)) ∧
      (∃ name, ((Need.row convertedUser).ask.run.run reads).1 = .ok name ∧
        reads.find? (.row "User") = some ((Need.row namedUser).declaration name)) ∧
      (∀ name, (insert namedUser).declaration name ≠ (insert convertedUser).declaration name) ∧
      ∀ name, (Need.row namedUser).declaration name ≠ (Need.row convertedUser).declaration name := by
  intro insert inserts reads
  refine ⟨⟨_, rfl, rfl⟩, ⟨_, rfl, rfl⟩, ?_, ?_⟩
  . intro name h
    have hvalue : AdapterCode.insert namedUser "users" (some .abort)
        = AdapterCode.insert convertedUser "users" (some .abort) :=
      congrArg HelperField.value (Declaration.field.inj h)
    simp [AdapterCode.insert, AdapterCode.build, AdapterCode.binder, AdapterCode.bindFields,
      AdapterCode.bindField, namedUser, convertedUser] at hvalue
  . intro name h
    have hbody : RowCode.body namedUser = RowCode.body convertedUser :=
      congrArg RowAdapter.body (Declaration.function.inj h)
    simp [RowCode.body, RowCode.readField, namedUser, convertedUser] at hbody

end DataAccess
