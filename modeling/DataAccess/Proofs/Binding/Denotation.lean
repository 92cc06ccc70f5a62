import DataAccess.Compile.Binding

/-!
This module contains what the placeholders of a statement denote, said on the list of placeholders
alone, and shows that matching finds exactly that. The number of an anonymous placeholder is not
capped here: a method has fewer parameters than there are numbers of slots, and a number above all
parameters denotes none of them.
-/

namespace DataAccess

open Sql (Placeholder Section Template)

def highestNumber : List Placeholder → Nat
  | [] => 0
  | .anonymous :: earlier => highestNumber earlier + 1
  | .numbered n :: earlier => max n (highestNumber earlier)
  | .named _ _ :: earlier => highestNumber earlier

def numberedPosition (params : List Parameter) (n : Nat) : Option Nat :=
  if 0 < n ∧ n ≤ params.length then some (n - 1) else none

def denotedIndex (params : List Parameter) (earlier : List Placeholder) : Placeholder → Option Nat
  | .anonymous => numberedPosition params (highestNumber earlier + 1)
  | .numbered n => numberedPosition params n
  | .named _ name => params.findIdx? (·.name == name)

def denotationsFrom (params : List Parameter) (earlier : List Placeholder) :
    List Placeholder → List (Option Nat)
  | [] => []
  | p :: rest => denotedIndex params earlier p :: denotationsFrom params (p :: earlier) rest

namespace Method

def denotations (m : Method) (sql : String) : List (Option Nat) :=
  denotationsFrom m.params [] (Template.ofString sql).placeholders

def firstUnmatched (m : Method) (sql : String) : Option Placeholder :=
  (((Template.ofString sql).placeholders.zip (m.denotations sql)).find? (·.2.isNone)).map Prod.fst

def undenoted (m : Method) (sql : String) : List Parameter :=
  (m.params.zipIdx.filter fun (_, i) => !(m.denotations sql).contains (some i)).map Prod.fst

end Method

namespace BoundStatement

variable {params : List Parameter} {earlier : List Placeholder}

theorem denotedIndex_lt {p : Placeholder} {i : Nat} (h : denotedIndex params earlier p = some i)
    : i < params.length := by
  cases p with
  | anonymous | numbered =>
    simp only [denotedIndex, numberedPosition, Option.ite_none_right_eq_some, Option.some.injEq] at h
    omega
  | named _ name =>
    obtain ⟨hi, _⟩ := List.findIdx?_eq_some_iff_getElem.1 h
    exact hi

theorem highestNumber_cons_le {p : Placeholder} {i : Nat} (h : denotedIndex params earlier p = some i)
    (he : highestNumber earlier ≤ params.length)
    : highestNumber (p :: earlier) ≤ params.length := by
  cases p with
  | anonymous | numbered =>
    simp only [denotedIndex, numberedPosition, Option.ite_none_right_eq_some] at h
    simp only [highestNumber]
    omega
  | named _ _ => exact he

theorem position_highest (p : Placeholder) (h : highestNumber earlier < Sql.maxSlot)
    : (position params (highestNumber earlier) p).2 = highestNumber (p :: earlier) := by
  cases p with
  | anonymous =>
    simp only [position, highestNumber]
    omega
  | numbered n =>
    simp only [position, highestNumber]
    omega
  | named _ _ => rfl

/-- As long as the numbers are not used up, a placeholder takes the parameter that it denotes. -/
theorem position_found (p : Placeholder) (h : highestNumber earlier < Sql.maxSlot)
    : (position params (highestNumber earlier) p).1.filter (· < params.length)
        =
      denotedIndex params earlier p := by
  cases p with
  | anonymous =>
    -- Below the limit, the next number is not cut off.
    have : min Sql.maxSlot (highestNumber earlier + 1) - 1 = highestNumber earlier := by omega
    simp only [position, denotedIndex, numberedPosition, this]
    by_cases hlt : highestNumber earlier < params.length
    . rw [if_pos (by omega)]
      simp [hlt]
    . rw [if_neg (by omega), Option.filter_some_neg]
      simpa using hlt
  | numbered n =>
    simp only [position, denotedIndex, numberedPosition]
    by_cases hn : n = 0
    . simp [hn]
    . by_cases hlt : n ≤ params.length
      . have : n - 1 < params.length := by omega
        rw [if_neg hn, if_pos (by omega)]
        simp [this]
      . have : ¬n - 1 < params.length := by omega
        rw [if_neg hn, if_neg (by omega), Option.filter_some_neg]
        simpa using this
  | named _ name =>
    simp only [position, denotedIndex]
    cases hi : params.findIdx? (·.name == name) with
    | none => rfl
    | some i =>
      obtain ⟨hlt, _⟩ := List.findIdx?_eq_some_iff_getElem.1 hi
      simp [hlt]

def denoted (params : List Parameter) (earlier : List Placeholder) (p : Placeholder)
    : Option Parameter :=
  (denotedIndex params earlier p).bind (params[·]?)

theorem denoted_eq_some {p : Placeholder} {param : Parameter}
    (h : denoted params earlier p = some param)
    : ∃ i, denotedIndex params earlier p = some i ∧ params[i]? = some param := by
  exact Option.bind_eq_some_iff.1 h

theorem denoted_eq_none_iff {p : Placeholder}
    : denoted params earlier p = none ↔ denotedIndex params earlier p = none := by
  unfold denoted
  cases h : denotedIndex params earlier p with
  | none => simp
  | some i => simp [denotedIndex_lt h]

theorem slotsOf_placeholder (p : Placeholder) (rest : List Section)
    (h : highestNumber earlier < Sql.maxSlot)
    : slotsOf params (highestNumber earlier) (.placeholder p :: rest)
        =
      match denoted params earlier p with
      | some param => do
        return .param param :: (← slotsOf params (highestNumber (p :: earlier)) rest)
      | none => .error p := by
  have hfound := @position_found params earlier p h
  have hhighest := @position_highest params earlier p h
  -- The filter is the check of the position that matching makes by itself.
  rw [slotsOf, denoted, ← hfound, ← hhighest]
  rcases position params (highestNumber earlier) p with ⟨_ | i, highest⟩
  . rfl
  . by_cases hi : i < params.length
    . simp [Option.filter, hi]
    . simp [Option.filter, hi]

theorem takenPositions_placeholder (p : Placeholder) (rest : List Section)
    (h : highestNumber earlier < Sql.maxSlot) {i : Nat} (hi : denotedIndex params earlier p = some i)
    : takenPositions params (highestNumber earlier) (.placeholder p :: rest)
        =
      i :: takenPositions params (highestNumber (p :: earlier)) rest := by
  have hfound := @position_found params earlier p h
  have hhighest := @position_highest params earlier p h
  rw [hi] at hfound
  rw [takenPositions, ← hhighest]
  -- A position is taken without a check, but one that is denoted would pass it.
  change (position params (highestNumber earlier) p).1.toList ++ _ = _
  rw [(Option.filter_eq_some_iff.1 hfound).1]
  rfl

inductive Matched (params : List Parameter) : List Placeholder → List Section → List Slot → Prop where
  | nil {before : List Placeholder} : Matched params before [] []
  | text {before : List Placeholder} (h : Matched params before rest found) :
    Matched params before (.text chars :: rest) (.text chars :: found)
  | placeholder {before : List Placeholder} (hp : denoted params before p = some param)
      (h : Matched params (p :: before) rest found) :
    Matched params before (.placeholder p :: rest) (.param param :: found)

def placeholdersIn (sections : List Section) : List Placeholder :=
  sections.filterMap fun
    | .placeholder p => some p
    | .text _ => none

theorem placeholdersIn_placeholder (p : Placeholder) (rest : List Section)
    : placeholdersIn (.placeholder p :: rest) = p :: placeholdersIn rest := rfl

theorem cons_eq_ok_iff {e : Except ε (List α)} {a : α} {l : List α}
    : (do return a :: (← e)) = Except.ok l ↔ ∃ t, e = .ok t ∧ a :: t = l := by
  cases e with
  | error => simp [Functor.map, Except.map]
  | ok t => simp [Functor.map, Except.map]

theorem cons_eq_error_iff {e : Except ε (List α)} {a : α} {q : ε}
    : (do return a :: (← e)) = Except.error q ↔ e = .error q := by
  cases e with
  | error => simp [Functor.map, Except.map]
  | ok t => simp [Functor.map, Except.map]

variable {sections : List Section} {found : List Slot}

theorem slotsOf_of_resolve {m : Method} {sql : String} {s : BoundStatement}
    (h : resolve m sql = .ok s)
    : s.template = Template.ofString sql ∧
        slotsOf m.params 0 (Template.ofString sql).sections = .ok s.slots := by
  unfold resolve at h
  dsimp only at h
  split at h
  . next slots hslots =>
    cases h
    exact ⟨rfl, hslots⟩
  . cases h

theorem mem_of_slotsOf {highest : Nat} (h : slotsOf params highest sections = .ok found)
    {p : Parameter} (hp : .param p ∈ found) : p ∈ params := by
  induction sections generalizing highest found with
  | nil =>
    cases h
    cases hp
  | cons s rest ih =>
    cases s with
    | text chars =>
      rw [slotsOf] at h
      obtain ⟨more, hmore, rfl⟩ := cons_eq_ok_iff.1 h
      rcases List.mem_cons.1 hp with heq | hp
      . cases heq
      . exact ih hmore hp
    | placeholder q =>
      unfold slotsOf at h
      split at h
      . split at h
        . next param hparam =>
          obtain ⟨more, hmore, rfl⟩ := cons_eq_ok_iff.1 h
          rcases List.mem_cons.1 hp with heq | hp
          . cases heq
            exact List.mem_of_getElem? hparam
          . exact ih hmore hp
        . cases h
      . cases h

theorem params_subset_of_resolve {m : Method} {sql : String} {s : BoundStatement}
    (h : resolve m sql = .ok s) : s.params ⊆ m.params := by
  intro p hp
  obtain ⟨slot, hslot, hparam⟩ := List.mem_filterMap.1 hp
  cases slot with
  | text => cases hparam
  | param =>
    cases hparam
    exact mem_of_slotsOf (slotsOf_of_resolve h).2 hslot

theorem matched_of_slotsOf (hm : params.length < Sql.maxSlot)
    (he : highestNumber earlier ≤ params.length)
    (h : slotsOf params (highestNumber earlier) sections = .ok found)
    : Matched params earlier sections found := by
  induction sections generalizing earlier found with
  | nil =>
    cases h
    exact .nil
  | cons s rest ih =>
    cases s with
    | text chars =>
      rw [slotsOf] at h
      obtain ⟨more, hmore, rfl⟩ := cons_eq_ok_iff.1 h
      exact .text (ih he hmore)
    | placeholder p =>
      -- All numbers so far are those of parameters, so they are not used up.
      rw [slotsOf_placeholder p rest (by omega)] at h
      cases hp : denoted params earlier p with
      | none =>
        rw [hp] at h
        cases h
      | some param =>
        rw [hp] at h
        obtain ⟨more, hmore, rfl⟩ := cons_eq_ok_iff.1 h
        obtain ⟨i, hi, _⟩ := denoted_eq_some hp
        exact .placeholder hp (ih (highestNumber_cons_le hi he) hmore)

theorem first_of_slotsOf (hm : params.length < Sql.maxSlot)
    (he : highestNumber earlier ≤ params.length) {q : Placeholder}
    (h : slotsOf params (highestNumber earlier) sections = .error q)
    : let ps := placeholdersIn sections
      (ps.zip (denotationsFrom params earlier ps)).find? (·.2.isNone) = some (q, none) := by
  induction sections generalizing earlier with
  | nil => cases h
  | cons s rest ih =>
    cases s with
    | text chars =>
      rw [slotsOf] at h
      exact ih he (cons_eq_error_iff.1 h)
    | placeholder p =>
      rw [slotsOf_placeholder p rest (by omega)] at h
      simp only [placeholdersIn_placeholder, denotationsFrom, List.zip_cons_cons]
      cases hp : denoted params earlier p with
      | none =>
        rw [hp] at h
        cases h
        rw [denoted_eq_none_iff.1 hp]
        rfl
      | some param =>
        rw [hp] at h
        obtain ⟨i, hi, _⟩ := denoted_eq_some hp
        rw [hi, List.find?_cons_of_neg (by simp)]
        exact ih (highestNumber_cons_le hi he) (cons_eq_error_iff.1 h)

namespace Matched

theorem params_eq (h : Matched params earlier sections found) (t : Template)
    : (BoundStatement.mk t found).params.map some
        =
      (denotationsFrom params earlier (placeholdersIn sections)).map (·.bind (params[·]?)) := by
  induction h with
  | nil => rfl
  | text _ ih => exact ih
  | placeholder hp _ ih =>
    simp only [placeholdersIn_placeholder, denotationsFrom, List.map_cons]
    rw [← ih]
    change some _ :: _ = denoted params _ _ :: _
    rw [hp]
    rfl

theorem all_denoted (h : Matched params earlier sections found)
    : none ∉ denotationsFrom params earlier (placeholdersIn sections) := by
  induction h with
  | nil => simp [placeholdersIn, denotationsFrom]
  | text _ ih => exact ih
  | placeholder hp _ ih =>
    obtain ⟨i, hi, _⟩ := denoted_eq_some hp
    simp only [placeholdersIn_placeholder, denotationsFrom, hi]
    simpa using ih

theorem takenPositions_eq (h : Matched params earlier sections found)
    (hm : params.length < Sql.maxSlot) (he : highestNumber earlier ≤ params.length)
    : (takenPositions params (highestNumber earlier) sections).map some
        =
      denotationsFrom params earlier (placeholdersIn sections) := by
  induction h with
  | nil => rfl
  | text _ ih => exact ih he
  | placeholder hp _ ih =>
    obtain ⟨i, hi, _⟩ := denoted_eq_some hp
    rw [takenPositions_placeholder _ _ (by omega) hi, List.map_cons,
      ih (highestNumber_cons_le hi he), ← hi]
    rfl

end Matched

end BoundStatement

end DataAccess
