import DataAccess.Proofs.Sql.FromLists
import DataAccess.Proofs.Sql.Grammar

/-!
This module contains the places of a statement where tables are named. Main statement: the tables of a statement
are named in such places, each is listed once, and those that are written or joined are all listed.
-/

namespace DataAccess.Sql

inductive NameAt : List Token → String → Prop where
  | plain (name : NameToken) : NameAt (name.token :: rest) name.text
  | qualified (schema name : NameToken) :
    NameAt (schema.token :: .symbol '.' :: name.token :: rest) name.text

/-- The tokens begin with a name that is not that of a schema, possibly behind one that is. -/
inductive TableAt : List Token → String → Prop where
  | plain (name : NameToken) (hend : rest.head? ≠ some (.symbol '.')) :
    TableAt (name.token :: rest) name.text
  | qualified (schema name : NameToken) :
    TableAt (schema.token :: .symbol '.' :: name.token :: rest) name.text

/-- The tokens begin with what introduces one table, and this is the place behind it. Behind `UPDATE OR` there is
one token of a kind. -/
inductive Introduces (kind : Token → Prop) : List Token → List Token → Prop where
  | word (h : t.keyword = some "INTO" ∨ t.keyword = some "JOIN" ∨ t.keyword = some "UPDATE") :
    Introduces kind (t :: place) place
  | policy (hupdate : t.keyword = some "UPDATE") (hor : u.keyword = some "OR") (hkind : kind w) :
    Introduces kind (t :: u :: w :: place) place

inductive InList : List Token → List Token → Prop where
  | first (h : t.keyword = some "FROM") : InList (t :: place) place
  | next (r : TableRef) (h : InList tokens (r.tokens ++ .symbol ',' :: place)) : InList tokens place

def Mentioned (kind : Token → Prop) (tokens : List Token) (name : String) : Prop :=
  ∃ front rest place,
    tokens = front ++ rest ∧ (Introduces kind rest place ∨ InList rest place) ∧ NameAt place name

section

variable {t : Token} {tokens rest more : List Token} {name : String}

theorem plainName_eq_some (h : plainName tokens = some (name, rest))
    : ∃ n : NameToken, n.text = name ∧ tokens = n.token :: rest := by
  cases tokens with
  | nil => cases h
  | cons t tokens =>
    obtain ⟨text, htext, heq⟩ := Option.map_eq_some_iff.1 h
    cases heq
    exact ⟨⟨t, name, htext⟩, rfl, rfl⟩

theorem plainName_token (n : NameToken) (rest : List Token)
    : plainName (n.token :: rest) = some (n.text, rest) := by
  rw [plainName, n.name?_eq]
  rfl

theorem tableName_of_tableAt (h : TableAt tokens name) : ∃ rest, tableName tokens = some (name, rest) := by
  cases h with
  | @plain rest n hend => exact ⟨rest, tableName_tokens ⟨none, n, .none⟩ rest hend⟩
  | @qualified rest schema n =>
    refine ⟨rest, ?_⟩
    unfold tableName
    simp only [plainName_token, Option.some_or]

theorem tableName_eq_some (h : tableName tokens = some (name, rest))
    : ∃ schema n, n.text = name ∧ tokens = (TableRef.mk schema n .none).tokens ++ rest := by
  unfold tableName at h
  split at h
  . next first qualified hfirst =>
    obtain ⟨schema, rfl, rfl⟩ := plainName_eq_some hfirst
    cases hq : plainName qualified with
    | none =>
      rw [hq, Option.none_or] at h
      cases h
      exact ⟨none, schema, rfl, rfl⟩
    | some found =>
      rw [hq, Option.some_or] at h
      cases h
      obtain ⟨n, rfl, rfl⟩ := plainName_eq_some hq
      exact ⟨some schema, n, rfl, rfl⟩
  . obtain ⟨n, rfl, rfl⟩ := plainName_eq_some h
    exact ⟨none, n, rfl, rfl⟩

theorem nameAt_of_tableName (h : tableName tokens = some (name, rest)) : NameAt tokens name := by
  obtain ⟨_ | schema, n, rfl, rfl⟩ := tableName_eq_some h
  . exact .plain n
  . exact .qualified schema n

/-- What is dropped in front of another token is an alias. -/
theorem dropAlias_eq_cons (h : dropAlias tokens = t :: more) : ∃ a : Alias, tokens = a.tokens ++ t :: more := by
  unfold dropAlias at h
  split at h
  . next has =>
    obtain ⟨word, hhead, hword⟩ := Option.bind_eq_some_iff.1 has
    obtain ⟨behind, rfl⟩ := List.head?_eq_some_iff.1 hhead
    cases behind with
    | nil => cases h
    | cons named behind =>
      obtain rfl : behind = t :: more := h
      exact ⟨.as word hword named, rfl⟩
  . split at h
    . next hname =>
      obtain ⟨n, _, rfl⟩ := plainName_eq_some hname
      rw [h]
      exact ⟨.bare n, rfl⟩
    . exact ⟨.none, h⟩

theorem inList_of_mem_tableList {place : List Token} (h : InList tokens place) (hname : name ∈ tableList place)
    : ∃ place, InList tokens place ∧ NameAt place name := by
  fun_induction tableList place with
  | case1 => cases hname
  | case2 place found rest hfound more hmore ih =>
    rcases List.mem_cons.1 hname with rfl | hlater
    . exact ⟨place, h, nameAt_of_tableName hfound⟩
    . obtain ⟨schema, n, rfl, rfl⟩ := tableName_eq_some hfound
      obtain ⟨a, rfl⟩ := dropAlias_eq_cons hmore
      refine ih (.next ⟨schema, n, a⟩ ?_) hlater
      cases schema with
      | _ => simpa [TableRef.tokens, Alias.tokens] using h
  | case3 place found rest hfound =>
    obtain rfl := List.mem_singleton.1 hname
    exact ⟨place, h, nameAt_of_tableName hfound⟩

namespace Mentioned

variable {kind : Token → Prop}

theorem head {place : List Token} (h : Introduces kind tokens place ∨ InList tokens place)
    (hname : NameAt place name) : Mentioned kind tokens name :=
  ⟨[], tokens, place, rfl, h, hname⟩

theorem later (h : Mentioned kind rest name) : Mentioned kind (t :: rest) name := by
  obtain ⟨front, rest, place, rfl, h⟩ := h
  exact ⟨t :: front, rest, place, rfl, h⟩

end Mentioned

/-- The tokens begin with the name itself, or with a schema and a period. -/
theorem NameAt.head (h : NameAt tokens name)
    : tokens.head?.bind Token.name? = some name ∨ tokens[1]? = some (.symbol '.') := by
  cases h with
  | plain n => exact .inl n.name?_eq
  | qualified schema n => exact .inr rfl

theorem InList.keyword_head {place : List Token} (h : InList tokens place)
    : tokens.head?.bind Token.keyword = some "FROM" := by
  induction h with
  | first h => exact h
  | next _ _ ih => exact ih

theorem Mentioned.exists_introduces {kind : Token → Prop} (h : Mentioned kind tokens name)
    : ∃ t ∈ tokens, t.introduces = true := by
  have hintroduces {t : Token} {keyword : String} (ht : t.keyword = some keyword)
      (hkeyword : keyword ∈ ["FROM", "INTO", "JOIN", "UPDATE"]) : t.introduces = true := by
    rw [Token.introduces, ht]
    exact decide_eq_true hkeyword
  obtain ⟨front, rest, place, rfl, hplace, _⟩ := h
  have hhead : ∃ t, rest.head? = some t ∧ t.introduces = true := by
    rcases hplace with hplace | hplace
    . cases hplace with
      | word ht =>
        rcases ht with ht | ht | ht
        all_goals exact ⟨_, rfl, hintroduces ht (by decide)⟩
      | policy ht => exact ⟨_, rfl, hintroduces ht (by decide)⟩
    . obtain ⟨t, hhead, ht⟩ := Option.bind_eq_some_iff.1 hplace.keyword_head
      exact ⟨t, hhead, hintroduces ht (by decide)⟩
  obtain ⟨t, hhead, ht⟩ := hhead
  exact ⟨t, List.mem_append_right _ (List.mem_of_head? hhead), ht⟩

theorem mentioned_of_mem_tablesAfter {keyword : String} (ht : t.keyword = some keyword)
    (h : name ∈ tablesAfter keyword rest) : Mentioned (fun _ => True) (t :: rest) name := by
  have hsingle {place : List Token} (hplace : Introduces (fun _ => True) (t :: rest) place)
      (h : name ∈ (tableName place).toList.map Prod.fst) : Mentioned (fun _ => True) (t :: rest) name := by
    obtain ⟨⟨found, behind⟩, hfound, rfl⟩ := List.mem_map.1 h
    exact .head (.inl hplace) (nameAt_of_tableName (Option.mem_toList.1 hfound))
  unfold tablesAfter at h
  split at h
  . split at h
    . next hor =>
      obtain ⟨u, hhead, hu⟩ := Option.bind_eq_some_iff.1 hor
      obtain ⟨behind, rfl⟩ := List.head?_eq_some_iff.1 hhead
      cases behind with
      | nil => cases h
      | cons w place => exact hsingle (.policy ht hu trivial) h
    . exact hsingle (.word (.inr (.inr ht))) h
  . exact hsingle (.word (.inl ht)) h
  . exact hsingle (.word (.inr (.inl ht))) h
  . obtain ⟨place, hplace, hname⟩ := inList_of_mem_tableList (.first ht) h
    exact .head (.inr hplace) hname
  . cases h

theorem mentioned_of_mem (h : name ∈ mentions tokens) : Mentioned (fun _ => True) tokens name := by
  induction tokens with
  | nil => cases h
  | cons t rest ih =>
    rcases List.mem_append.1 h with h | h
    . cases ht : t.keyword with
      | none =>
        rw [ht] at h
        cases h
      | some keyword =>
        rw [ht] at h
        exact mentioned_of_mem_tablesAfter ht h
    . exact (ih h).later

theorem mem_mentions_cons {keyword : String} (ht : t.keyword = some keyword)
    (h : name ∈ tablesAfter keyword rest) : name ∈ mentions (t :: rest) := by
  change name ∈ (t.keyword.map _).getD [] ++ _
  rw [ht]
  exact List.mem_append_left _ h

theorem mem_mentions {kind : Token → Prop} {place : List Token} (h : Introduces kind tokens place)
    (hor : place.head?.bind Token.keyword ≠ some "OR") (hname : TableAt place name)
    : name ∈ mentions tokens := by
  obtain ⟨behind, hfound⟩ := tableName_of_tableAt hname
  have hsingle : name ∈ (tableName place).toList.map Prod.fst := by
    rw [hfound]
    exact List.mem_singleton_self name
  cases h with
  | word ht =>
    rcases ht with ht | ht | ht
    . exact mem_mentions_cons ht hsingle
    . exact mem_mentions_cons ht hsingle
    . apply mem_mentions_cons ht
      rw [tablesAfter, if_neg hor]
      exact hsingle
  | policy ht hu _ =>
    apply mem_mentions_cons ht
    rw [tablesAfter, if_pos]
    . exact hsingle
    . exact hu

end

section

variable {tables : List String} {name : String}

theorem mem_of_mem_foldl_addTable {names : List String} (h : name ∈ names.foldl addTable tables)
    : name ∈ tables ++ names := by
  induction names generalizing tables with
  | nil => rwa [List.append_nil]
  | cons first names ih =>
    have hadded : ∀ x ∈ addTable tables first, x ∈ tables ++ [first] := by
      unfold addTable
      split
      . exact fun x hx => List.mem_append_left _ hx
      . exact fun x hx => hx
    rcases List.mem_append.1 (ih h) with h | h
    . rw [List.append_cons]
      exact List.mem_append_left _ (hadded name h)
    . exact List.mem_append_right _ (List.mem_cons_of_mem first h)

theorem pairwise_foldl_addTable (names : List String) (h : tables.Pairwise fun a b => sameName a b = false)
    : (names.foldl addTable tables).Pairwise fun a b => sameName a b = false := by
  induction names generalizing tables with
  | nil => exact h
  | cons first names ih =>
    apply ih
    unfold addTable
    split
    . exact h
    . next hnew =>
      rw [Bool.not_eq_true, List.any_eq_false] at hnew
      refine List.pairwise_append.2 ⟨h, List.pairwise_singleton _ _, fun a ha b hb => ?_⟩
      rw [List.mem_singleton.1 hb]
      exact Bool.eq_false_iff.2 (hnew a ha)

end

/-- A statement is cut into lexemes, and white space and comments are no tokens. Where `INTO`, `JOIN`, `UPDATE` or
`UPDATE OR` with one more token introduces a table whose name is not the bare word `OR`, the table is listed in
some spelling. No two tables that are listed differ in ASCII case only. Each of them is named, possibly behind
a schema, where one of these introduces it, behind `FROM`, or behind a comma of the list that `FROM` begins. -/
theorem tables_mentioned (sql : String)
    : (∃ after, ReadsAs [] none sql.toList (Template.ofString sql).lexemes after) ∧
        (∀ front rest place name,
          (Template.ofString sql).tokens = front ++ rest → Introduces (fun _ => True) rest place →
            place.head?.bind Token.keyword ≠ some "OR" → TableAt place name →
              Listed name (Template.ofString sql).tables) ∧
        ((Template.ofString sql).tables.Pairwise fun a b => sameName a b = false) ∧
        ∀ name ∈ (Template.ofString sql).tables,
          Mentioned (fun _ => True) (Template.ofString sql).tokens name := by
  refine ⟨ReadsAs.of_scan none sql.toList, ?_, pairwise_foldl_addTable _ .nil, ?_⟩
  . intro front rest place name htokens hplace hor hname
    have hall := Passing.sublist.related_append front rest fun _ _ => trivial
    rw [Listed.tables_iff, htokens]
    exact .of_mem (hall.subset (mem_mentions hplace hor hname))
  . intro name hname
    exact mentioned_of_mem (mem_of_mem_foldl_addTable hname)

/-- A table of a schema is updated. -/
theorem tables_mentioned_update
    : let t := Template.ofString "UPDATE OR FAIL a.[b c] SET d='INTO e'"
      Listed "b c" t.tables ∧ (t.tables.Pairwise fun a b => sameName a b = false) ∧ t.tables = ["b c"] := by
  intro t
  obtain ⟨_, hlisted, hpairwise, _⟩ := tables_mentioned "UPDATE OR FAIL a.[b c] SET d='INTO e'"
  let place : List Token := [.word "a", .symbol '.', .quoted "b c", .word "SET", .word "d", .symbol '=', .literal]
  have htokens : t.tokens = [] ++ .word "UPDATE" :: .word "OR" :: .word "FAIL" :: place := by decide +kernel
  have htables : t.tables = ["b c"] := by
    rw [Template.tables, htokens]
    decide +kernel
  have hplace : Introduces (fun _ => True) (.word "UPDATE" :: .word "OR" :: .word "FAIL" :: place) place :=
    .policy (by decide +kernel) (by decide +kernel) trivial
  have hor : (Token.word "a").keyword ≠ some "OR" := by decide +kernel
  have hname : TableAt place "b c" :=
    .qualified ⟨.word "a", "a", by decide +kernel⟩ ⟨.quoted "b c", "b c", rfl⟩
  exact ⟨hlisted [] _ place "b c" htokens hplace hor hname, hpairwise, htables⟩

/-- Where a placeholder stands for the name of a policy, a table is listed that no word introduces. -/
theorem tables_behind_placeholder
    : let t := Template.ofString "UPDATE OR ? users SET name = 'a'"
      "users" ∈ t.tables ∧ ¬Mentioned (fun w => w.keyword.isSome = true) t.tokens "users" := by
  intro t
  have htokens : t.tokens = .word "UPDATE" :: [.word "OR", .literal, .word "users", .word "SET",
      .word "name", .symbol '=', .literal] := by decide +kernel
  refine ⟨by decide +kernel, ?_⟩
  rw [htokens]
  rintro ⟨front, rest, place, hrest, hplace, hname⟩
  cases front with
  | nil =>
    obtain rfl := hrest
    rcases hplace with hplace | hplace
    . cases hplace with
      | word =>
        rcases hname.head with hhead | hperiod
        . exact absurd hhead (by decide +kernel)
        . exact absurd hperiod (by decide)
      | policy _ _ hkind => cases hkind
    . exact absurd hplace.keyword_head (by decide +kernel)
  | cons first front =>
    -- None of the tokens behind the first one introduces a table.
    have hlater : Mentioned _ _ "users" := ⟨front, rest, place, (List.cons.inj hrest).2, hplace, hname⟩
    exact absurd hlater.exists_introduces (by decide +kernel)

end DataAccess.Sql
