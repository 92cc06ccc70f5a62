import DataAccess.Compile.AdapterCode
import DataAccess.Proofs.Lists

/-!
This module contains what can be read off the key of a helper. As names are identifiers, they end where
the punctuation of a key starts, so that no two entities share the key of an adapter.
-/

namespace DataAccess

def PlainName (name : String) : Prop :=
  ∀ c ∈ name.toList, c ≠ ':' ∧ c ≠ '>'

theorem plainName_of_isIdent {name : String} (h : Code.isIdent name = true) : PlainName name := by
  intro c hc
  have hcontinues : Text.continuesIdent c = true := by
    unfold Code.isIdent at h
    split at h
    . cases h
    . next first rest hname =>
      rw [Bool.and_eq_true, List.all_eq_true] at h
      rw [hname] at hc
      rcases List.mem_cons.1 hc with rfl | hc
      . unfold Text.continuesIdent
        rw [h.1]
        rfl
      . exact h.2 c hc
  constructor
  . rintro rfl
    revert hcontinues
    decide
  . rintro rfl
    revert hcontinues
    decide

/-- The name of an entity in a key: what stands between the first colon and the next punctuation. -/
def nameInKey (key : List Char) : List Char :=
  (key.dropWhile (· != ':')).tail.takeWhile fun c => c != ':' && c != '>'

/-- A key has the name of its entity behind the first colon, with punctuation or nothing behind it. -/
theorem key_adapterRequest (op : ShortcutOp) (e : Entity) (table : String)
    : ∃ stem rest,
        (adapterRequest op e table).key.toList = stem ++ ':' :: (e.name.toList ++ rest) ∧
        ':' ∉ stem ∧ ∀ c ∈ rest.head?, c = ':' ∨ c = '>' := by
  obtain ⟨part, hlabel, hpart⟩ : ∃ part, e.label.toList = e.name.toList ++ part ∧
      ∀ rest : List Char, (∀ c ∈ rest.head?, c = ':') →
        ∀ c ∈ (part ++ rest).head?, c = ':' ∨ c = '>' := by
    unfold Entity.label
    split
    . next full _ =>
      refine ⟨'>' :: full.toList, by simp, ?_⟩
      simp
    . refine ⟨[], by simp, ?_⟩
      intro rest hrest c hc
      exact Or.inl (hrest c hc)
  have keyed (stem : List Char) (rest : List Char) (hstem : ':' ∉ stem)
      (hrest : ∀ c ∈ rest.head?, c = ':')
      : ∃ stem' rest', stem ++ ':' :: (e.label.toList ++ rest)
            = stem' ++ ':' :: (e.name.toList ++ rest') ∧
          ':' ∉ stem' ∧ ∀ c ∈ rest'.head?, c = ':' ∨ c = '>' := by
    refine ⟨stem, part ++ rest, ?_, hstem, hpart rest hrest⟩
    rw [hlabel, List.append_assoc]
  cases op with
  | insert policy =>
    have hkey := keyed "insert".toList (':' :: policy.keyword.toList) (by simp) (by simp)
    simpa [adapterRequest] using hkey
  | delete =>
    have hkey := keyed "delete".toList [] (by simp) (by simp)
    simpa [adapterRequest] using hkey
  | update policy =>
    have hkey := keyed "update".toList (':' :: policy.keyword.toList) (by simp) (by simp)
    simpa [adapterRequest] using hkey
  | upsert =>
    have hkey := keyed "upsert".toList [] (by simp) (by simp)
    simpa [adapterRequest] using hkey

theorem nameInKey_adapterRequest (op : ShortcutOp) (e : Entity) (table : String)
    (h : PlainName e.name)
    : nameInKey (adapterRequest op e table).key.toList = e.name.toList := by
  obtain ⟨stem, rest, hkey, hstem, hrest⟩ := key_adapterRequest op e table
  unfold nameInKey
  rw [hkey, List.dropWhile_append_of_pos, List.dropWhile_cons_of_neg (by simp), List.tail_cons,
    List.takeWhile_append_of_pos]
  . have hend : rest.takeWhile (fun c => c != ':' && c != '>') = [] := by
      cases rest with
      | nil => rfl
      | cons c more =>
        rcases hrest c rfl with rfl | rfl
        . rfl
        . rfl
    rw [hend, List.append_nil]
  . intro c hc
    simpa using h c hc
  . intro c hc
    rw [bne_iff_ne]
    rintro rfl
    exact hstem hc

/-- What stands behind the last colon of a key tells the policy. -/
theorem policy_of_key {policy policy' : ConflictPolicy} {stem stem' : String}
    (h : stem ++ ":" ++ policy.keyword = stem' ++ ":" ++ policy'.keyword) : policy = policy' := by
  have plain (policy : ConflictPolicy) : ':' ∉ policy.keyword.toList.reverse := by
    cases policy with
    | abort | replace | ignore | rollback | fail => decide
  have hreverse := congrArg (fun key => key.toList.reverse) h
  simp only [String.toList_append, List.reverse_append, List.append_assoc] at hreverse
  obtain ⟨hkeyword, _⟩ := eq_of_append_cons_eq (plain policy) (plain policy') hreverse
  replace hkeyword := String.ext (List.reverse_injective hkeyword)
  cases policy with
  | abort | replace | ignore | rollback | fail =>
    cases policy' with
    | abort | replace | ignore | rollback | fail =>
      first
      | rfl
      | exact absurd hkeyword (by decide)

theorem op_of_key {op op' : ShortcutOp} {e e' : Entity} {table table' : String}
    (h : (adapterRequest op e table).key = (adapterRequest op' e' table').key) : op = op' := by
  have hstart := congrArg (fun key => key.toList.take 3) h
  cases op with
  | insert policy =>
    cases op' with
    | insert policy' => exact congrArg ShortcutOp.insert (policy_of_key h)
    | delete | update | upsert => simp [adapterRequest] at hstart
  | delete =>
    cases op' with
    | delete => rfl
    | insert | update | upsert => simp [adapterRequest] at hstart
  | update policy =>
    cases op' with
    | update policy' => exact congrArg ShortcutOp.update (policy_of_key h)
    | insert | delete | upsert => simp [adapterRequest] at hstart
  | upsert =>
    cases op' with
    | upsert => rfl
    | insert | delete | update => simp [adapterRequest] at hstart

theorem key_adapterRequest_ne (op : ShortcutOp) (e : Entity) (table name : String)
    : (adapterRequest op e table).key ≠ "prepared:" ++ name := by
  intro h
  have hhead := congrArg (fun key => key.toList.head?) h
  cases op with
  | insert | delete | update | upsert => simp [adapterRequest] at hhead

end DataAccess
