/-!
This module contains strictly sorted lists of names. The order is that of the characters' code
points, which is also the order of the names' UTF-8 bytes.
-/

namespace DataAccess

abbrev NameSet := List String

namespace NameSet

def insert (s : String) : NameSet → NameSet
  | [] => [s]
  | t :: rest =>
    if s < t then s :: t :: rest
    else if s = t then t :: rest
    else t :: insert s rest

def insertAll (names : List String) (set : NameSet) : NameSet :=
  names.foldl (fun set s => insert s set) set

def ofNames (names : List String) : NameSet :=
  insertAll names []

def inter (a b : NameSet) : NameSet :=
  a.filter b.contains

theorem mem_insert {s x : String} (set : NameSet) : x ∈ insert s set ↔ x = s ∨ x ∈ set := by
  fun_induction insert s set <;> simp_all
  rename_i ih
  constructor
  . rintro (h | h | h) <;> simp [h]
  . rintro (h | h | h) <;> simp [h]

theorem mem_insertAll {x : String} (names : List String) (set : NameSet) :
    x ∈ insertAll names set ↔ x ∈ names ∨ x ∈ set := by
  induction names generalizing set with
  | nil => simp [insertAll]
  | cons s rest ih =>
    have step : insertAll (s :: rest) set = insertAll rest (insert s set) := rfl
    rw [step, ih, mem_insert]
    simp only [List.mem_cons]
    constructor
    . rintro (h | h | h) <;> simp [h]
    . rintro ((h | h) | h) <;> simp [h]

theorem mem_ofNames {x : String} (names : List String) : x ∈ ofNames names ↔ x ∈ names := by
  simp [ofNames, mem_insertAll]

theorem pairwise_insert (s : String) {set : NameSet} (h : set.Pairwise (· < ·)) :
    (insert s set).Pairwise (· < ·) := by
  induction set with
  | nil => exact List.pairwise_singleton _ s
  | cons t rest ih =>
    obtain ⟨hhead, hrest⟩ := List.pairwise_cons.1 h
    unfold insert
    split
    . next hlt =>
      refine List.pairwise_cons.2 ⟨fun x hx => ?_, h⟩
      rcases List.mem_cons.1 hx with rfl | hx
      . exact hlt
      . exact String.lt_trans hlt (hhead x hx)
    . next hnlt =>
      split
      . exact h
      . next hne =>
        refine List.pairwise_cons.2 ⟨fun x hx => ?_, ih hrest⟩
        rcases (mem_insert rest).1 hx with rfl | hx
        . exact Std.lt_of_le_of_ne (String.not_lt.1 hnlt) (Ne.symm hne)
        . exact hhead x hx

theorem pairwise_insertAll (names : List String) {set : NameSet} (h : set.Pairwise (· < ·)) :
    (insertAll names set).Pairwise (· < ·) := by
  induction names generalizing set with
  | nil => exact h
  | cons s rest ih => exact ih (pairwise_insert s h)

theorem pairwise_ofNames (names : List String) : (ofNames names).Pairwise (· < ·) :=
  pairwise_insertAll names List.Pairwise.nil

end NameSet

end DataAccess
