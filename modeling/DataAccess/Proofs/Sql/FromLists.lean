import DataAccess.Proofs.Compile.Classified
import DataAccess.Sql.Tables

/-!
This module contains statements with `FROM` clauses as syntax trees. A clause lists tables and selects in
parentheses, which have clauses of their own. Main statement: what is found of a list are its tables in front
of the first select, and what is found in the lists of its selects. The tables behind a select are missed.
-/

namespace DataAccess.Sql

structure NameToken where
  token : Token
  text : String
  name?_eq : token.name? = some text

inductive Alias where
  | none
  | bare (name : NameToken)
  | as (word : Token) (hword : word.keyword = some "AS") (name : Token)

structure TableRef where
  schema : Option NameToken
  name : NameToken
  aliased : Alias

def EndsList (tokens : List Token) : Prop :=
  ∀ t, tokens.head? = some t →
    t.name? = none ∧ t.keyword ≠ some "AS" ∧ t ≠ .symbol '.' ∧ t ≠ .symbol ','

mutual

inductive FromItem where
  | table (t : TableRef)
  /-- A select in parentheses. It has clauses, and other tokens in front of the first one. -/
  | select (front : List Token) (clauses : Clauses) (aliased : Alias)

inductive FromList where
  | last (item : FromItem)
  | cons (item : FromItem) (rest : FromList)

/-- `FROM` clauses, each with the tokens behind it and the clauses that come after these. -/
inductive Clauses where
  | nil
  | cons (word : Token) (hword : word.keyword = some "FROM") (list : FromList) (behind : List Token)
    (hbehind : EndsList behind) (more : Clauses)

end

def Alias.tokens : Alias → List Token
  | none => []
  | bare name => [name.token]
  | as word _ name => [word, name]

def TableRef.tokens (t : TableRef) : List Token :=
  match t.schema with
  | some schema => schema.token :: .symbol '.' :: t.name.token :: t.aliased.tokens
  | none => t.name.token :: t.aliased.tokens

mutual

def FromItem.tokens : FromItem → List Token
  | .table t => t.tokens
  | .select front clauses a => .symbol '(' :: (front ++ (clauses.tokens ++ .symbol ')' :: a.tokens))

def FromList.tokens : FromList → List Token
  | .last item => item.tokens
  | .cons item rest => item.tokens ++ .symbol ',' :: rest.tokens

def Clauses.tokens : Clauses → List Token
  | .nil => []
  | .cons word _ list behind _ more => word :: (list.tokens ++ (behind ++ more.tokens))

end

mutual

def FromItem.others : FromItem → List Token
  | .table t => t.tokens
  | .select front clauses a => .symbol '(' :: (front ++ (clauses.others ++ .symbol ')' :: a.tokens))

def FromList.others : FromList → List Token
  | .last item => item.others
  | .cons item rest => item.others ++ .symbol ',' :: rest.others

def Clauses.others : Clauses → List Token
  | .nil => []
  | .cons _ _ list behind _ more => list.others ++ (behind ++ more.others)

end

def FromItem.name? : FromItem → Option String
  | table t => some t.name.text
  | select _ _ _ => none

namespace FromList

def items : FromList → List FromItem
  | .last item => [item]
  | .cons item rest => item :: rest.items

def tables (l : FromList) : List String :=
  l.items.filterMap FromItem.name?

def front (l : FromList) : List String :=
  (l.items.takeWhile (·.name?.isSome)).filterMap FromItem.name?

/-- The tables behind the first select. -/
def behind (l : FromList) : List String :=
  (l.items.dropWhile (·.name?.isSome)).filterMap FromItem.name?

theorem tables_eq (l : FromList) : l.tables = l.front ++ l.behind := by
  unfold tables front behind
  rw [← List.filterMap_append, List.takeWhile_append_dropWhile]

end FromList

mutual

def FromItem.gather (own : FromList → List String) : FromItem → List String
  | .table _ => []
  | .select _ clauses _ => clauses.gather own

def FromList.gather (own : FromList → List String) : FromList → List String
  | .last item => item.gather own
  | .cons item rest => item.gather own ++ rest.gather own

def Clauses.gather (own : FromList → List String) : Clauses → List String
  | .nil => []
  | .cons _ _ list _ _ more => own list ++ (list.gather own ++ more.gather own)

end

namespace Clauses

def names (c : Clauses) : List String :=
  c.gather FromList.tables

def found (c : Clauses) : List String :=
  c.gather FromList.front

def missed (c : Clauses) : List String :=
  c.gather FromList.behind

end Clauses

def Token.introduces (t : Token) : Bool :=
  t.keyword.any fun k => k ∈ ["FROM", "INTO", "JOIN", "UPDATE"]

def Listed (name : String) (tables : List String) : Prop :=
  ∃ t ∈ tables, sameName name t = true

section

theorem perm_regroup {a b c d e f : List String} (h : a.Perm (b ++ c)) (h' : d.Perm (e ++ f))
    : (a ++ d).Perm ((b ++ e) ++ (c ++ f)) := by
  have hmiddle := (List.perm_append_comm_assoc c e f).append_left b
  simpa only [List.append_assoc] using (h.append h').trans (by simpa only [List.append_assoc] using hmiddle)

variable {own part rest : FromList → List String}

mutual

theorem FromItem.gather_perm (h : ∀ l, (own l).Perm (part l ++ rest l)) (i : FromItem)
    : (i.gather own).Perm (i.gather part ++ i.gather rest) := by
  cases i with
  | table t => exact .nil
  | select front clauses a => exact clauses.gather_perm h

theorem FromList.gather_perm (h : ∀ l, (own l).Perm (part l ++ rest l)) (l : FromList)
    : (l.gather own).Perm (l.gather part ++ l.gather rest) := by
  cases l with
  | last item => exact item.gather_perm h
  | cons item more => exact perm_regroup (item.gather_perm h) (more.gather_perm h)

theorem Clauses.gather_perm (h : ∀ l, (own l).Perm (part l ++ rest l)) (c : Clauses)
    : (c.gather own).Perm (c.gather part ++ c.gather rest) := by
  cases c with
  | nil => exact .nil
  | cons word hword list behind hbehind more =>
    exact perm_regroup (h list) (perm_regroup (list.gather_perm h) (more.gather_perm h))

end

theorem Clauses.names_perm (c : Clauses) : c.names.Perm (c.found ++ c.missed) :=
  c.gather_perm fun l => .of_eq l.tables_eq

end

section

variable {t : Token} {tokens rest more : List Token}

theorem Token.ne_symbol_of_name? {text : String} (h : t.name? = some text) (c : Char)
    : t ≠ .symbol c := by
  rintro rfl
  cases h

theorem Token.keyword_of_name? {text keyword : String} (h : t.name? = some text)
    (hreserved : keyword ∈ reservedWords) : t.keyword ≠ some keyword := by
  intro hkeyword
  cases t with
  | word letters =>
    obtain rfl := Option.some.inj hkeyword
    simp [name?, hreserved] at h
  | _ => cases hkeyword

theorem Token.name?_of_keyword {keyword : String} (h : t.keyword = some keyword)
    (hreserved : keyword ∈ reservedWords) : t.name? = none := by
  cases hname : t.name? with
  | none => rfl
  | some text => exact absurd h (keyword_of_name? hname hreserved)

namespace EndsList

theorem nil : EndsList [] := by
  intro t ht
  cases ht

theorem symbol {c : Char} (hdot : c ≠ '.') (hcomma : c ≠ ',') (rest : List Token)
    : EndsList (.symbol c :: rest) := by
  intro t ht
  obtain rfl := Option.some.inj ht
  refine ⟨rfl, nofun, ?_, ?_⟩
  . simpa using hdot
  . simpa using hcomma

theorem append (h : EndsList tokens) (hrest : EndsList rest) : EndsList (tokens ++ rest) := by
  cases tokens with
  | nil => exact hrest
  | cons => exact h

end EndsList

theorem Clauses.endsList (c : Clauses) (h : EndsList rest) : EndsList (c.tokens ++ rest) := by
  cases c with
  | nil => exact h
  | cons word hword =>
    intro t ht
    obtain rfl := Option.some.inj ht
    refine ⟨Token.name?_of_keyword hword (by decide), ?_, ?_, ?_⟩
    . rw [hword]
      decide
    . rintro rfl
      cases hword
    . rintro rfl
      cases hword

theorem Alias.head_ne_period (a : Alias) (h : rest.head? ≠ some (.symbol '.'))
    : (a.tokens ++ rest).head? ≠ some (.symbol '.') := by
  cases a with
  | none => exact h
  | bare name => simpa [tokens] using Token.ne_symbol_of_name? name.name?_eq '.'
  | as word hword =>
    intro hhead
    obtain rfl := Option.some.inj hhead
    cases hword

theorem dropAlias_tokens (a : Alias) (rest : List Token)
    (hname : ∀ t, rest.head? = some t → t.name? = none)
    (has : ∀ t, rest.head? = some t → t.keyword ≠ some "AS")
    : dropAlias (a.tokens ++ rest) = rest := by
  cases a with
  | none =>
    cases rest with
    | nil => rfl
    | cons t rest => simp [dropAlias, Alias.tokens, plainName, hname t rfl, has t rfl]
  | bare name =>
    have hkeyword : name.token.keyword ≠ some "AS" :=
      Token.keyword_of_name? name.name?_eq (by decide)
    simp [dropAlias, Alias.tokens, plainName, name.name?_eq, hkeyword]
  | as word hword name => simp [dropAlias, Alias.tokens, hword]

theorem tableName_tokens (r : TableRef) (rest : List Token) (h : rest.head? ≠ some (.symbol '.'))
    : tableName (r.tokens ++ rest) = some (r.name.text, r.aliased.tokens ++ rest) := by
  obtain ⟨schema, name, a⟩ := r
  have hplain (rest : List Token) : plainName (name.token :: rest) = some (name.text, rest) := by
    simp [plainName, name.name?_eq]
  cases schema with
  | none =>
    unfold tableName TableRef.tokens
    dsimp only
    rw [List.cons_append, hplain]
    split
    . next hsome =>
      have hhead := a.head_ne_period h
      rw [(Prod.mk.inj (Option.some.inj hsome)).2] at hhead
      exact absurd rfl hhead
    . rfl
  | some schema =>
    unfold tableName TableRef.tokens
    simp [plainName, schema.name?_eq, name.name?_eq]

theorem tableList_of_tableName {name : String} (h : tableName tokens = some (name, rest))
    : tableList tokens
        =
      match dropAlias rest with
      | .symbol ',' :: more => name :: tableList more
      | _ => [name] := by
  rw [tableList]
  split
  . next hnone => cases hnone.symm.trans h
  . next hsome =>
    cases hsome.symm.trans h
    split
    . next hmore => simp only [hmore]
    . next hother =>
      split
      . next hmore => exact absurd hmore (hother _)
      . rfl

theorem tableList_of_tableName_none (h : tableName tokens = none) : tableList tokens = [] := by
  rw [tableList]
  split
  . rfl
  . next hsome => cases hsome.symm.trans h

/-- Of a list, its tables in front of the first select are found. -/
theorem tableList_tokens (l : FromList) (h : EndsList rest) : tableList (l.tokens ++ rest) = l.front := by
  match l with
  | .last (.table t) =>
    have hname := tableName_tokens t rest fun hhead => (h _ hhead).2.2.1 rfl
    have halias := dropAlias_tokens t.aliased rest (fun t ht => (h t ht).1) fun t ht => (h t ht).2.1
    change tableList (t.tokens ++ rest) = [t.name.text]
    rw [tableList_of_tableName hname, halias]
    split
    . exact absurd rfl (h _ rfl).2.2.2
    . rfl
  | .last (.select front clauses a) => exact tableList_of_tableName_none rfl
  | .cons (.table t) more =>
    have hname := tableName_tokens t (.symbol ',' :: (more.tokens ++ rest)) nofun
    have halias := dropAlias_tokens t.aliased (.symbol ',' :: (more.tokens ++ rest))
      (by rintro _ ⟨⟩; rfl) (by rintro _ ⟨⟩; nofun)
    change tableList ((t.tokens ++ .symbol ',' :: more.tokens) ++ rest) = t.name.text :: more.front
    rw [List.append_assoc, List.cons_append, tableList_of_tableName hname, halias]
    exact congrArg _ (tableList_tokens more h)
  | .cons (.select front clauses a) more => exact tableList_of_tableName_none rfl

end

structure Passing (passed : Token → Prop) (related : List String → List String → Prop) : Prop where
  refl : related a a
  trans : related a b → related b c → related a c
  append_left : related a b → related (front ++ a) (front ++ b)
  pass : passed t → related (mentions rest) (mentions (t :: rest))

namespace Passing

variable {passed : Token → Prop} {related : List String → List String → Prop} {rest : List Token}

theorem related_append (p : Passing passed related) (tokens rest : List Token)
    (h : ∀ t ∈ tokens, passed t)
    : related (mentions rest) (mentions (tokens ++ rest)) := by
  induction tokens with
  | nil => exact p.refl
  | cons t tokens ih =>
    obtain ⟨ht, htokens⟩ := List.forall_mem_cons.1 h
    exact p.trans (ih htokens) (p.pass ht)

mutual

/-- If the tokens besides the words that introduce lists are passed, the mentions in an item are what is
found in the lists of its select. -/
theorem related_item (p : Passing passed related) (i : FromItem) (rest : List Token)
    (h : ∀ t ∈ i.others, passed t)
    : related (i.gather FromList.front ++ mentions rest) (mentions (i.tokens ++ rest)) := by
  cases i with
  | table t => exact p.related_append _ _ h
  | select front clauses a =>
    obtain ⟨hopen, h⟩ := List.forall_mem_cons.1 h
    obtain ⟨hfront, h⟩ := List.forall_mem_append.1 h
    obtain ⟨hclauses, h⟩ := List.forall_mem_append.1 h
    have hends := EndsList.symbol (c := ')') (by decide) (by decide) (a.tokens ++ rest)
    have hbody := p.related_clauses clauses _ hends hclauses
    have hbehind := p.related_append _ rest h
    change related (clauses.found ++ _) (mentions (.symbol '(' :: (_ ++ (_ ++ _)) ++ rest))
    simp only [List.append_assoc, List.cons_append] at hbehind ⊢
    exact p.trans (p.append_left hbehind) (p.trans hbody (p.trans (p.related_append _ _ hfront) (p.pass hopen)))

theorem related_list (p : Passing passed related) (l : FromList) (rest : List Token)
    (h : ∀ t ∈ l.others, passed t)
    : related (l.gather FromList.front ++ mentions rest) (mentions (l.tokens ++ rest)) := by
  cases l with
  | last i => exact p.related_item i rest h
  | cons i more =>
    obtain ⟨hitem, h⟩ := List.forall_mem_append.1 h
    obtain ⟨hcomma, hmore⟩ := List.forall_mem_cons.1 h
    have hrest := p.trans (p.related_list more rest hmore) (p.pass hcomma)
    have hfirst := p.related_item i (.symbol ',' :: (more.tokens ++ rest)) hitem
    change related ((_ ++ _) ++ _) (mentions ((_ ++ .symbol ',' :: _) ++ rest))
    simp only [List.append_assoc, List.cons_append]
    exact p.trans (p.append_left hrest) hfirst

theorem related_clauses (p : Passing passed related) (c : Clauses) (rest : List Token) (hrest : EndsList rest)
    (h : ∀ t ∈ c.others, passed t)
    : related (c.found ++ mentions rest) (mentions (c.tokens ++ rest)) := by
  cases c with
  | nil => exact p.refl
  | cons word hword list behind hbehind more =>
    obtain ⟨hlist, h⟩ := List.forall_mem_append.1 h
    obtain ⟨hpassed, hmore⟩ := List.forall_mem_append.1 h
    have hends := hbehind.append (more.endsList hrest)
    have hown : mentions (word :: (list.tokens ++ (behind ++ (more.tokens ++ rest))))
        = list.front ++ mentions (list.tokens ++ (behind ++ (more.tokens ++ rest))) := by
      change (word.keyword.map _).getD [] ++ _ = _
      rw [hword, ← tableList_tokens list hends]
      rfl
    have hlater := p.trans (p.related_clauses more rest hrest hmore) (p.related_append _ _ hpassed)
    have hwhole := p.trans (p.append_left hlater) (p.related_list list _ hlist)
    change related ((_ ++ (_ ++ _)) ++ _) (mentions ((_ :: (_ ++ (_ ++ _))) ++ rest))
    simp only [List.append_assoc, List.cons_append]
    rw [hown]
    exact p.append_left hwhole

end

/-- Whatever is passed, no mention behind it is lost. -/
theorem sublist : Passing (fun _ => True) List.Sublist where
  refl := .refl _
  trans := .trans
  append_left h := h.append_left _
  pass _ := List.sublist_append_right _ _

theorem eq : Passing (fun t => t.introduces = false) Eq where
  refl := rfl
  trans := .trans
  append_left h := congrArg _ h
  pass {t rest} h := by
    change _ = (t.keyword.map (tablesAfter · rest)).getD [] ++ mentions rest
    cases hkeyword : t.keyword with
    | none => rfl
    | some keyword =>
      simp only [Token.introduces, hkeyword, Option.any_some, decide_eq_false_iff_not, List.mem_cons,
        List.not_mem_nil, or_false, not_or] at h
      obtain ⟨hfrom, hinto, hjoin, hupdate⟩ := h
      change _ = tablesAfter keyword rest ++ _
      unfold tablesAfter
      split
      . exact absurd rfl hupdate
      . exact absurd rfl hinto
      . exact absurd rfl hjoin
      . exact absurd rfl hfrom
      . rfl

end Passing

namespace Listed

theorem sameName_trans {a b c : String} (h : sameName a b = true) (h' : sameName b c = true)
    : sameName a c = true := by
  unfold sameName at h h' ⊢
  rw [beq_iff_eq] at h h' ⊢
  exact h.trans h'

variable {x : String} {names tables : List String}

theorem mono (h : Listed x names) (hsub : names ⊆ tables) : Listed x tables :=
  h.imp fun _ ⟨hmem, hsame⟩ => ⟨hsub hmem, hsame⟩

theorem of_mem (h : x ∈ names) : Listed x names :=
  ⟨x, h, beq_self_eq_true _⟩

theorem addTable_iff (name : String) : Listed x (addTable tables name) ↔ Listed x (tables ++ [name]) := by
  unfold addTable
  split
  . next hany =>
    obtain ⟨t, ht, hsame⟩ := List.any_eq_true.1 hany
    constructor
    . exact fun h => h.mono (List.subset_append_left _ _)
    . rintro ⟨y, hy, hxy⟩
      rcases List.mem_append.1 hy with hy | hy
      . exact ⟨y, hy, hxy⟩
      . obtain rfl := List.mem_singleton.1 hy
        have hsym : sameName y t = true := by
          unfold sameName at hsame ⊢
          rw [beq_iff_eq] at hsame ⊢
          exact hsame.symm
        exact ⟨t, ht, sameName_trans hxy hsym⟩
  . rfl

theorem foldl_addTable_iff : Listed x (names.foldl addTable tables) ↔ Listed x (tables ++ names) := by
  induction names generalizing tables with
  | nil => rw [List.foldl_nil, List.append_nil]
  | cons name names ih =>
    have hsplit {l : List String} : Listed x (l ++ names) ↔ Listed x l ∨ Listed x names := by
      simp only [Listed, List.mem_append, or_and_right, exists_or]
    rw [List.foldl_cons, ih, hsplit, addTable_iff, ← hsplit, List.append_assoc, List.singleton_append]

theorem tables_iff (t : Template) : Listed x t.tables ↔ Listed x (mentions t.tokens) :=
  foldl_addTable_iff

end Listed

theorem observed_of_resolveRead {i : Interface} {m : Method} {sql : String} {shape : Option ResultShape}
    {inTransaction : Bool} {q : ReadQuery}
    (h : i.resolveRead m sql shape [] inTransaction = .ok (.read q))
    : q.tables = (Template.ofString sql).tables := by
  obtain ⟨statement, hstatement, h⟩ := exists_of_bind_eq_ok h
  obtain ⟨_, h⟩ := ok_of_guard h
  obtain ⟨shape, _, h⟩ := exists_of_bind_eq_ok h
  cases h
  rw [← (BoundStatement.slotsOf_of_resolve hstatement).1]
  rfl

/-- A statement with `FROM` clauses has in its tables, in some spelling, all that are in front of the first
select of their list. These are all tables of its lists, unless one comes behind a select. If no other words
introduce tables, those behind a select are not in its tables, unless they are found elsewhere. A query
that declares no tables observes these. -/
theorem from_lists_scanned (sql : String) (front : List Token) (clauses : Clauses)
    (htokens : (Template.ofString sql).tokens = front ++ clauses.tokens)
    : let tables := (Template.ofString sql).tables
      clauses.names.Perm (clauses.found ++ clauses.missed) ∧
        (∀ x ∈ clauses.found, Listed x tables) ∧
        (clauses.missed = [] → ∀ x ∈ clauses.names, Listed x tables) ∧
        ((∀ t ∈ front ++ clauses.others, t.introduces = false) →
          tables = clauses.found.foldl addTable [] ∧
            ∀ x ∈ clauses.names, Listed x tables ↔ Listed x clauses.found) ∧
        ∀ i m shape inTransaction q,
          Interface.resolveRead i m sql shape [] inTransaction = .ok (.read q) → q.tables = tables := by
  intro tables
  have hfound (x : String) (hx : x ∈ clauses.found) : Listed x tables := by
    have hclauses := Passing.sublist.related_clauses clauses [] .nil fun _ _ => trivial
    have hfront := Passing.sublist.related_append front clauses.tokens fun _ _ => trivial
    simp only [mentions, List.append_nil] at hclauses
    rw [Listed.tables_iff, htokens]
    exact Listed.of_mem ((hclauses.trans hfront).subset hx)
  refine ⟨clauses.names_perm, hfound, fun hmissed x hx => ?_, fun hothers => ?_, ?_⟩
  . apply hfound
    have hmem := clauses.names_perm.mem_iff.1 hx
    rwa [hmissed, List.append_nil] at hmem
  . obtain ⟨hfront, hothers⟩ := List.forall_mem_append.1 hothers
    have hclauses := Passing.eq.related_clauses clauses [] .nil hothers
    simp only [mentions, List.append_nil] at hclauses
    have hmentions := hclauses.trans (Passing.eq.related_append _ _ hfront)
    rw [← htokens] at hmentions
    refine ⟨congrArg (List.foldl addTable []) hmentions.symm, fun x _ => ?_⟩
    rw [Listed.tables_iff, hmentions]
  . exact fun i m shape inTransaction q => observed_of_resolveRead

/-- A list with a select in its middle: `FROM main.users AS u, (SELECT * FROM [posts] p, tags) n, links`. -/
def mixedList : Clauses :=
  .cons (.word "FROM") (by decide +kernel)
    (.cons
      (.table ⟨some ⟨.word "main", "main", by decide +kernel⟩,
        ⟨.word "users", "users", by decide +kernel⟩, .as (.word "AS") (by decide +kernel) (.word "u")⟩)
      (.cons
        (.select [.word "SELECT", .symbol '*']
          (.cons (.word "FROM") (by decide +kernel)
            (.cons
              (.table ⟨none, ⟨.quoted "posts", "posts", rfl⟩, .bare ⟨.word "p", "p", by decide +kernel⟩⟩)
              (.last (.table ⟨none, ⟨.word "tags", "tags", by decide +kernel⟩, .none⟩)))
            [] .nil .nil)
          (.bare ⟨.word "n", "n", by decide +kernel⟩))
        (.last (.table ⟨none, ⟨.word "links", "links", by decide +kernel⟩, .none⟩))))
    [] .nil .nil

theorem from_lists_scanned_mixedList
    : let tables := (Template.ofString
        "SELECT * FROM main.users AS u, (SELECT * FROM [posts] p, tags) n, links").tables
      mixedList.names.Perm (["users", "posts", "tags"] ++ ["links"]) ∧
        (∀ x ∈ ["users", "posts", "tags"], Listed x tables) ∧
        tables = ["users", "posts", "tags"] := by
  obtain ⟨hperm, hfound, _, hexact, _⟩ := from_lists_scanned
    "SELECT * FROM main.users AS u, (SELECT * FROM [posts] p, tags) n, links"
    [.word "SELECT", .symbol '*'] mixedList (by decide +kernel)
  have htables := (hexact (by decide +kernel)).1
  have hfold : mixedList.found.foldl addTable [] = ["users", "posts", "tags"] := by decide +kernel
  exact ⟨hperm, hfound, htables.trans hfold⟩

/-- The table behind a select is missed. -/
theorem tables_behind_select
    : let t := Template.ofString "SELECT * FROM (SELECT 1) AS n, users"
      ∃ front clauses,
        t.tokens = front ++ Clauses.tokens clauses ∧ "users" ∈ clauses.names ∧
          ¬Listed "users" t.tables := by
  intro t
  have htables : t.tables = [] := by decide +kernel
  refine ⟨[.word "SELECT", .symbol '*'],
    .cons (.word "FROM") (by decide +kernel)
      (.cons
        (.select [.word "SELECT", .literal] .nil
          (.as (.word "AS") (by decide +kernel) (.word "n")))
        (.last (.table ⟨none, ⟨.word "users", "users", by decide +kernel⟩, .none⟩)))
      [] .nil .nil, by decide +kernel, by decide +kernel, ?_⟩
  rw [htables]
  rintro ⟨_, hmem, _⟩
  cases hmem

end DataAccess.Sql
