import Mathlib.Data.List.Basic
import Mathlib.Data.List.Forall2

/-!
# Traversals that may fail

A step that may fail, taken over a list from left to right, fails with the first failure.
-/

namespace DocumentLayout

section

variable {ε α β : Type} {f : α → Except ε β}

theorem mapM_eq_ok {g : α → β} {l : List α} (h : ∀ a ∈ l, f a = .ok (g a)) :
    l.mapM f = .ok (l.map g) := by
  induction l with
  | nil => rfl
  | cons a l ih =>
    rw [List.mapM_cons, h a (List.mem_cons_self ..), ih fun b hb => h b (List.mem_cons_of_mem _ hb)]
    rfl

theorem mapM_eq_error {before after : List α} {a : α} {error : ε}
    (hbefore : ∀ b ∈ before, ∃ value, f b = .ok value) (ha : f a = .error error) :
    (before ++ a :: after).mapM f = .error error := by
  induction before with
  | nil =>
    rw [List.nil_append, List.mapM_cons, ha]
    rfl
  | cons b before ih =>
    obtain ⟨value, hvalue⟩ := hbefore b (List.mem_cons_self ..)
    rw [List.cons_append, List.mapM_cons, hvalue,
      ih fun c hc => hbefore c (List.mem_cons_of_mem _ hc)]
    rfl

theorem mapM_congr {g : α → Except ε β} {l : List α} (h : ∀ a ∈ l, f a = g a) :
    l.mapM f = l.mapM g := by
  induction l with
  | nil => rfl
  | cons a l ih =>
    rw [List.mapM_cons, List.mapM_cons, h a (List.mem_cons_self ..),
      ih fun b hb => h b (List.mem_cons_of_mem _ hb)]

-- What is said of the first failure may as well be said of every failure.
theorem mapM_mapError {ε' : Type} (g : ε → ε') (f : α → Except ε β) (l : List α) :
    (l.mapM fun a => (f a).mapError g) = (l.mapM f).mapError g := by
  induction l with
  | nil => rfl
  | cons a l ih =>
    rw [List.mapM_cons, List.mapM_cons, ih]
    cases f a with
    | error error => rfl
    | ok value => cases l.mapM f <;> rfl

theorem exists_of_mapM_cons {a : α} {l : List α} {r : List β} (h : (a :: l).mapM f = .ok r) :
    ∃ first others, f a = .ok first ∧ l.mapM f = .ok others ∧ r = first :: others := by
  rw [List.mapM_cons] at h
  cases hfirst : f a with
  | error error => simp [hfirst, bind, Except.bind] at h
  | ok first =>
    cases hothers : l.mapM f with
    | error error => simp [hfirst, hothers, bind, Except.bind] at h
    | ok others =>
      refine ⟨first, others, rfl, rfl, ?_⟩
      simpa [hfirst, hothers, bind, Except.bind, pure, Except.pure, eq_comm] using h

theorem forall₂_of_mapM_eq_ok {l : List α} {r : List β} (h : l.mapM f = .ok r) :
    List.Forall₂ (fun a b => f a = .ok b) l r := by
  induction l generalizing r with
  | nil =>
    obtain rfl : r = [] := by simpa [pure, Except.pure, eq_comm] using h
    exact .nil
  | cons a l ih =>
    obtain ⟨first, others, hfirst, hothers, rfl⟩ := exists_of_mapM_cons h
    exact .cons hfirst (ih hothers)

theorem exists_mapM_eq_ok_iff {l : List α} :
    (∃ r, l.mapM f = .ok r) ↔ ∀ a ∈ l, ∃ b, f a = .ok b := by
  induction l with
  | nil => simp [pure, Except.pure]
  | cons a l ih =>
    rw [List.forall_mem_cons, ← ih]
    constructor
    · rintro ⟨r, h⟩
      obtain ⟨first, others, hfirst, hothers, -⟩ := exists_of_mapM_cons h
      exact ⟨⟨first, hfirst⟩, others, hothers⟩
    · rintro ⟨⟨first, hfirst⟩, others, hothers⟩
      rw [List.mapM_cons, hfirst, hothers]
      exact ⟨_, rfl⟩

theorem eq_map_of_mapM_eq_ok {g : α → β} (hf : ∀ a b, f a = .ok b → b = g a) {l : List α}
    {r : List β} (h : l.mapM f = .ok r) : r = l.map g := by
  rw [← List.forall₂_eq_eq_eq, List.forall₂_map_right_iff]
  exact (forall₂_of_mapM_eq_ok h).flip.imp fun b a hab => hf a b hab

end

/-- Either all of a list satisfies a property, or there is a first member that does not. -/
theorem forall_or_exists_first {α : Type} (p : α → Prop) (l : List α) :
    (∀ a ∈ l, p a) ∨
      ∃ before a after, l = before ++ a :: after ∧ (∀ b ∈ before, p b) ∧ ¬ p a := by
  induction l with
  | nil => exact .inl (by simp)
  | cons a l ih =>
    by_cases ha : p a
    · rcases ih with hall | ⟨before, b, after, rfl, hbefore, hb⟩
      · exact .inl (List.forall_mem_cons.2 ⟨ha, hall⟩)
      · exact .inr ⟨a :: before, b, after, rfl, List.forall_mem_cons.2 ⟨ha, hbefore⟩, hb⟩
    · exact .inr ⟨[], a, l, rfl, by simp, ha⟩

/-- Of two lists that belong together member by member, another relation may hold for a reason that
lies in the first list alone. -/
theorem forall₂_iff_forall {α β : Type} {r s : α → β → Prop} {p : α → Prop} {l : List α}
    {l' : List β} (h : List.Forall₂ r l l') (hiff : ∀ a ∈ l, ∀ b, r a b → (s a b ↔ p a)) :
    List.Forall₂ s l l' ↔ ∀ a ∈ l, p a := by
  induction h with
  | nil => simp
  | cons hab _ ih =>
    rw [List.forall₂_cons, List.forall_mem_cons, hiff _ (List.mem_cons_self ..) _ hab,
      ih fun a ha => hiff a (List.mem_cons_of_mem _ ha)]

theorem map_eq_error_iff {ε α β : Type} {f : α → β} {result : Except ε α} {error : ε} :
    result.map f = .error error ↔ result = .error error := by
  cases result <;> simp [Except.map]

theorem exists_map_eq_ok_iff {ε α β : Type} {f : α → β} {result : Except ε α} :
    (∃ value, result.map f = .ok value) ↔ ∃ inner, result = .ok inner := by
  cases result <;> simp [Except.map]

theorem exists_of_map_eq_ok {ε α β : Type} {f : α → β} {result : Except ε α} {value : β}
    (h : result.map f = .ok value) : ∃ inner, result = .ok inner ∧ value = f inner := by
  cases result with
  | error error => simp [Except.map] at h
  | ok inner => exact ⟨inner, rfl, (Except.ok.inj h).symm⟩

theorem exists_of_mapError_eq_error {ε ε' α : Type} {f : ε → ε'} {result : Except ε α} {error : ε'}
    (h : result.mapError f = .error error) : ∃ inner, result = .error inner ∧ f inner = error := by
  cases result with
  | error inner => exact ⟨inner, rfl, Except.error.inj h⟩
  | ok value => simp [Except.mapError] at h

theorem exists_ok_of_any {ε α : Type} {result : Except ε α} {p : α → Bool}
    (h : result.toOption.any p = true) : ∃ value, result = .ok value ∧ p value = true := by
  cases result with
  | error error => simp [Except.toOption] at h
  | ok value => exact ⟨value, rfl, by simpa [Except.toOption] using h⟩

end DocumentLayout
