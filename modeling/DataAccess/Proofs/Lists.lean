import Mathlib.Data.List.Basic
import Mathlib.Data.List.Forall2
import Mathlib.Data.List.Induction
import Mathlib.Data.List.Nodup

/-!
This module contains facts on lists of anything, and on what is done for each of their members.
-/

namespace DataAccess

theorem eq_of_append_cons_eq {front front' rest rest' : List α} {a : α} (hfront : a ∉ front)
    (hfront' : a ∉ front') (h : front ++ a :: rest = front' ++ a :: rest')
    : front = front' ∧ rest = rest' := by
  obtain ⟨between, rfl, hrest⟩ | ⟨between, rfl, hrest⟩ := List.append_eq_append_iff.1 h
  . cases between with
    | nil => simpa using hrest
    | cons b more =>
      obtain ⟨rfl, _⟩ := List.cons.inj hrest
      simp at hfront'
  . cases between with
    | nil => simpa [eq_comm] using hrest
    | cons b more =>
      obtain ⟨rfl, _⟩ := List.cons.inj hrest
      simp at hfront

theorem eq_map_of_forall₂ {P : α → β → Prop} {Q : α → γ → Prop} {f : β → γ} {l : List α}
    {bs : List β} {cs : List γ} (hbs : List.Forall₂ P l bs) (hcs : List.Forall₂ Q l cs)
    (h : ∀ a b c, P a b → Q a c → c = f b) : cs = bs.map f := by
  induction hbs generalizing cs with
  | nil => exact List.forall₂_nil_left_iff.1 hcs
  | cons hb _ ih =>
    obtain ⟨c, rest, hc, hrest, rfl⟩ := List.forall₂_cons_left_iff.1 hcs
    rw [h _ _ _ hb hc, ih hrest, List.map_cons]

theorem eq_zipWith {f : α → β → γ} {l : List α} {bs : List β} {cs : List γ}
    (hbs : bs.length = l.length) (hcs : cs.length = l.length)
    (h : ∀ a b c, (a, b) ∈ l.zip bs → (a, c) ∈ l.zip cs → c = f a b) : cs = List.zipWith f l bs := by
  induction l generalizing bs cs with
  | nil => rw [List.length_eq_zero_iff.1 hcs, List.zipWith_nil_left]
  | cons a rest ih =>
    cases bs with
    | nil => cases hbs
    | cons b bs =>
      cases cs with
      | nil => cases hcs
      | cons c cs =>
        simp only [List.zip_cons_cons] at h
        have hrest := ih (Nat.succ.inj hbs) (Nat.succ.inj hcs) fun a b c hb hc =>
          h a b c (List.mem_cons_of_mem _ hb) (List.mem_cons_of_mem _ hc)
        rw [List.zipWith_cons_cons, ← hrest, ← h a b c List.mem_cons_self List.mem_cons_self]

theorem find?_of_nodup (key : α → String) {l : List α} (h : (l.map key).Nodup) {a : α} (ha : a ∈ l)
    : l.find? (key · == key a) = some a := by
  cases hfound : l.find? (key · == key a) with
  | none =>
    have hother := List.find?_eq_none.1 hfound a ha
    simp at hother
  | some b =>
    have hkey : key b = key a := by simpa using List.find?_some hfound
    exact congrArg some (List.inj_on_of_nodup_map h (List.mem_of_find?_eq_some hfound) ha hkey)

theorem find?_of_perm {l l' : List α} {key : α → String} (h : (l.map key).Nodup) (hperm : l.Perm l')
    (k : String) : l'.find? (key · == k) = l.find? (key · == k) := by
  cases hfound : l.find? (key · == k) with
  | none =>
    rw [List.find?_eq_none] at hfound ⊢
    intro a ha
    exact hfound a (hperm.mem_iff.2 ha)
  | some a =>
    have hkey : key a = k := by simpa using List.find?_some hfound
    rw [← hkey]
    exact find?_of_nodup key ((hperm.map key).nodup_iff.1 h)
      (hperm.mem_iff.1 (List.mem_of_find?_eq_some hfound))

section

variable [BEq α] [LawfulBEq α] {l : List α} {a : α}

theorem eraseDups_concat_of_mem (h : a ∈ l) : (l ++ [a]).eraseDups = l.eraseDups := by
  rw [List.eraseDups_append]
  simp [List.removeAll, h]

theorem eraseDups_concat_of_not_mem (h : a ∉ l) : (l ++ [a]).eraseDups = l.eraseDups ++ [a] := by
  rw [List.eraseDups_append]
  simp [List.removeAll, h, List.eraseDups_cons]

theorem nodup_eraseDups (l : List α) : l.eraseDups.Nodup := by
  induction l using List.reverseRecOn with
  | nil => exact List.nodup_nil
  | append_singleton l a ih =>
    by_cases h : a ∈ l
    . rw [eraseDups_concat_of_mem h]
      exact ih
    . rw [eraseDups_concat_of_not_mem h, ← List.concat_eq_append]
      apply ih.concat
      rwa [List.mem_eraseDups]

end

section

variable {α β γ : Type} {separator : List α} {part : γ → List α}

theorem intercalate_induction {P : List γ → List α → Prop} (hnil : P [] []) (hone : ∀ c, P [c] (part c))
    (hmore : ∀ c next more s, P (next :: more) s → P (c :: next :: more) (part c ++ separator ++ s))
    (cs : List γ) : P cs (separator.intercalate (cs.map part)) := by
  induction cs with
  | nil => exact hnil
  | cons c more ih =>
    cases more with
    | nil => simpa using hone c
    | cons next more =>
      rw [List.map_cons, List.map_cons, List.intercalate_cons_cons]
      exact hmore c next more _ ih

theorem flatMap_intercalate (f : α → List β) (cs : List γ)
    : (separator.intercalate (cs.map part)).flatMap f
        =
      (separator.flatMap f).intercalate (cs.map fun c => (part c).flatMap f) := by
  apply intercalate_induction
    (P := fun cs s => s.flatMap f = (separator.flatMap f).intercalate (cs.map fun c => (part c).flatMap f))
  . rfl
  . simp
  . intro c next more s h
    simp [h]

theorem filterMap_intercalate {f : α → Option β} {g : γ → Option β}
    (hseparator : separator.filterMap f = []) (hpart : ∀ c, (part c).filterMap f = (g c).toList)
    (cs : List γ) : (separator.intercalate (cs.map part)).filterMap f = cs.filterMap g := by
  have hcons (c : γ) (cs : List γ) : (c :: cs).filterMap g = (g c).toList ++ cs.filterMap g := by
    cases hc : g c with
    | none => simp [hc]
    | some b => simp [hc]
  apply intercalate_induction (P := fun cs s => s.filterMap f = cs.filterMap g)
  . rfl
  . intro c
    rw [hpart, hcons]
    exact (List.append_nil _).symm
  . intro c next more s h
    rw [List.filterMap_append, List.filterMap_append, hpart, hseparator, List.append_nil, h, hcons c]

variable {holds : α → Prop}

theorem forall_mem_intercalate (hseparator : ∀ a ∈ separator, holds a)
    (hpart : ∀ c, ∀ a ∈ part c, holds a) (cs : List γ)
    : ∀ a ∈ separator.intercalate (cs.map part), holds a := by
  apply intercalate_induction (P := fun _ s => ∀ a ∈ s, holds a) (List.forall_mem_nil _) hpart
  intro c next more s h
  rw [List.forall_mem_append, List.forall_mem_append]
  exact ⟨⟨hpart c, hseparator⟩, h⟩

theorem forall_getLast?_append {front back : List α} (hfront : ∀ a ∈ front.getLast?, holds a)
    (hback : ∀ a ∈ back.getLast?, holds a) : ∀ a ∈ (front ++ back).getLast?, holds a := by
  cases hlast : back.getLast? with
  | none =>
    rw [List.getLast?_eq_none_iff.1 hlast, List.append_nil]
    exact hfront
  | some b =>
    rw [List.getLast?_append, hlast]
    rw [hlast] at hback
    exact hback

theorem forall_getLast?_intercalate (hseparator : ∀ a ∈ separator.getLast?, holds a)
    (hpart : ∀ c, ∀ a ∈ (part c).getLast?, holds a) (cs : List γ)
    : ∀ a ∈ (separator.intercalate (cs.map part)).getLast?, holds a := by
  apply intercalate_induction (P := fun _ s => ∀ a ∈ s.getLast?, holds a) nofun hpart
  intro c next more s h
  exact forall_getLast?_append (forall_getLast?_append (hpart c) hseparator) h

end

theorem exists_of_bind_eq_ok {r : Except ε α} {next : α → Except ε β} {b : β}
    (h : r >>= next = .ok b) : ∃ a, r = .ok a ∧ next a = .ok b := by
  cases r with
  | error => cases h
  | ok a => exact ⟨a, rfl, h⟩

theorem ok_of_guard {p : Prop} [Decidable p] {e : ε} {next : PUnit → Except ε β} {b : β}
    (h : (if p then throw e >>= next else next ⟨⟩) = .ok b) : ¬p ∧ next ⟨⟩ = .ok b := by
  split at h
  . cases h
  . next hp => exact ⟨hp, h⟩

theorem forall₂_of_mapM_eq_ok {f : α → Except ε β} {l : List α} {l' : List β} (h : l.mapM f = .ok l')
    : List.Forall₂ (fun a b => f a = .ok b) l l' := by
  induction l generalizing l' with
  | nil =>
    cases h
    exact .nil
  | cons a rest ih =>
    rw [List.mapM_cons] at h
    obtain ⟨b, hb, h⟩ := exists_of_bind_eq_ok h
    obtain ⟨others, hothers, h⟩ := exists_of_bind_eq_ok h
    cases h
    exact .cons hb (ih hothers)

theorem exists_of_forall₂ {P : α → β → Prop} {as : List α} {bs : List β} (h : List.Forall₂ P as bs)
    {b : β} (hb : b ∈ bs) : ∃ a ∈ as, P a b := by
  induction h with
  | nil => cases hb
  | cons hfirst _ ih =>
    rcases List.mem_cons.1 hb with rfl | hb
    . exact ⟨_, List.mem_cons_self, hfirst⟩
    . obtain ⟨a, ha, hab⟩ := ih hb
      exact ⟨a, List.mem_cons_of_mem _ ha, hab⟩

theorem eq_append_of_map_ok {front l : List α} {rest : List (Except ε α)}
    (h : front.map .ok ++ rest = l.map .ok) : ∃ back, l = front ++ back ∧ rest = back.map .ok := by
  obtain ⟨first, back, rfl, hfirst, hback⟩ := List.append_eq_map_iff.1 h
  rw [List.map_inj_right fun _ _ => Except.ok.inj] at hfirst
  exact ⟨back, by rw [hfirst], hback.symm⟩

section

variable {m : Type → Type} [Monad m] [LawfulMonad m]

theorem forM_map_unit (f : α → m β) (l : List α)
    : l.forM (fun a => (fun _ => ()) <$> f a) = (fun _ => ()) <$> l.mapM f := by
  induction l with
  | nil => simp
  | cons a rest ih =>
    rw [List.forM_eq_forM, List.forM_cons, ← List.forM_eq_forM, ih, List.mapM_cons]
    simp

theorem mapM_eq_pure_map {l : List α} {f : α → m β} {g : α → β} (h : ∀ a ∈ l, f a = pure (g a))
    : l.mapM f = pure (l.map g) := by
  induction l with
  | nil => exact List.mapM_nil
  | cons a rest ih =>
    rw [List.mapM_cons, h a List.mem_cons_self, ih fun b hb => h b (List.mem_cons_of_mem _ hb)]
    simp only [pure_bind, List.map_cons]

end

end DataAccess
