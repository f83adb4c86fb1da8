import DocumentLayout.Text.Named
import Mathlib.Data.Char
import Mathlib.Data.List.Induction
import Mathlib.Data.List.Lex

/-!
# Things in the order of their names

Things that are put in order one after another end up with one for each name. It is the last of that
name, and nothing gets lost exactly when no two have the same name.
-/

namespace DocumentLayout

namespace Named

variable {α : Type}

/-! ## One thing more -/

/-- The things stand in the order of their names, no two of which are equal. -/
def IsSorted (all : Named α) : Prop := all.Pairwise fun a b => a.1 < b.1

theorem IsSorted.nodup {all : Named α} (h : all.IsSorted) : (all.map (·.1)).Nodup := by
  apply List.pairwise_map.2
  apply List.Pairwise.imp _ h
  intro a b hab
  exact hab.ne

variable {name : Text} {value : α} {thing : Text × α}

theorem mem_insert_iff {all : Named α} (h : all.IsSorted) :
    thing ∈ insert name value all ↔ thing = (name, value) ∨ thing ∈ all ∧ thing.1 ≠ name := by
  induction all with
  | nil => simp [insert]
  | cons first rest ih =>
    obtain ⟨other, old⟩ := first
    obtain ⟨hfirst, hrest⟩ := List.pairwise_cons.1 h
    have hother : ∀ thing ∈ rest, thing.1 ≠ other := by
      intro thing hthing
      exact (hfirst thing hthing).ne'
    unfold insert
    by_cases hname : name = other
    · -- The thing of this name is replaced, and no other has it.
      subst hname
      rw [if_pos rfl, List.mem_cons, List.mem_cons]
      constructor
      · rintro (rfl | hthing)
        · exact .inl rfl
        · exact .inr ⟨.inr hthing, hother thing hthing⟩
      · rintro (rfl | ⟨rfl | hthing, hne⟩)
        · exact .inl rfl
        · exact absurd rfl hne
        · exact .inr hthing
    · rw [if_neg hname]
      by_cases hbefore : name < other
      · -- The name stands in front of all others.
        have hnew : ∀ thing ∈ (other, old) :: rest, thing.1 ≠ name := by
          intro thing hthing hthis
          rcases List.mem_cons.1 hthing with rfl | hthing
          · exact hname hthis.symm
          · exact (hbefore.trans (hfirst thing hthing)).ne' hthis
        rw [if_pos hbefore, List.mem_cons]
        constructor
        · rintro (rfl | hthing)
          · exact .inl rfl
          · exact .inr ⟨hthing, hnew thing hthing⟩
        · rintro (rfl | ⟨hthing, -⟩)
          · exact .inl rfl
          · exact .inr hthing
      · rw [if_neg hbefore, List.mem_cons, ih hrest, List.mem_cons]
        constructor
        · rintro (rfl | rfl | ⟨hthing, hne⟩)
          · exact .inr ⟨.inl rfl, Ne.symm hname⟩
          · exact .inl rfl
          · exact .inr ⟨.inr hthing, hne⟩
        · rintro (rfl | ⟨rfl | hthing, hne⟩)
          · exact .inr (.inl rfl)
          · exact .inl rfl
          · exact .inr (.inr ⟨hthing, hne⟩)

theorem IsSorted.insert {all : Named α} (h : all.IsSorted) (name : Text) (value : α) :
    (Named.insert name value all).IsSorted := by
  induction all with
  | nil => exact List.pairwise_singleton ..
  | cons first rest ih =>
    obtain ⟨other, old⟩ := first
    obtain ⟨hfirst, hrest⟩ := List.pairwise_cons.1 h
    unfold Named.insert
    by_cases hname : name = other
    · subst hname
      rw [if_pos rfl]
      exact List.pairwise_cons.2 ⟨hfirst, hrest⟩
    · rw [if_neg hname]
      by_cases hbefore : name < other
      · rw [if_pos hbefore]
        refine List.pairwise_cons.2 ⟨?_, h⟩
        intro thing hthing
        rcases List.mem_cons.1 hthing with rfl | hthing
        · exact hbefore
        · exact hbefore.trans (hfirst thing hthing)
      · rw [if_neg hbefore]
        refine List.pairwise_cons.2 ⟨?_, ih hrest⟩
        intro thing hthing
        rcases (mem_insert_iff hrest).1 hthing with rfl | ⟨hthing, -⟩
        · exact lt_of_le_of_ne (not_lt.1 hbefore) (Ne.symm hname)
        · exact hfirst thing hthing

/-! ## All things of a list -/

theorem ofList_concat (things : List (Text × α)) (name : Text) (value : α) :
    ofList (things ++ [(name, value)]) = insert name value (ofList things) := by
  unfold ofList
  rw [List.foldl_append]
  rfl

theorem isSorted_ofList (things : List (Text × α)) : (ofList things).IsSorted := by
  induction things using List.reverseRecOn with
  | nil => exact List.Pairwise.nil
  | append_singleton things thing ih =>
    rw [ofList_concat]
    exact ih.insert ..

/-- Of the things of one name the last is kept. -/
theorem mem_ofList_iff {things : List (Text × α)} :
    thing ∈ ofList things ↔ things.reverse.lookup thing.1 = some thing.2 := by
  induction things using List.reverseRecOn with
  | nil => simp [ofList]
  | append_singleton things last ih =>
    obtain ⟨name, value⟩ := last
    rw [ofList_concat, mem_insert_iff (isSorted_ofList things), ih, List.reverse_concat,
      List.lookup_cons]
    by_cases hname : thing.1 = name
    · obtain ⟨_, found⟩ := thing
      obtain rfl := hname
      simp [eq_comm]
    · rw [beq_eq_false_iff_ne.2 hname]
      constructor
      · rintro (rfl | ⟨hfound, -⟩)
        · exact absurd rfl hname
        · exact hfound
      · exact fun hfound => .inr ⟨hfound, hname⟩

theorem perm_insert {all : Named α} (h : name ∉ all.map (·.1)) :
    (insert name value all).Perm ((name, value) :: all) := by
  induction all with
  | nil => exact List.Perm.refl _
  | cons first rest ih =>
    obtain ⟨other, old⟩ := first
    rw [List.map_cons, List.mem_cons, not_or] at h
    unfold insert
    rw [if_neg h.1]
    split
    · exact List.Perm.refl _
    · exact ((ih h.2).cons _).trans (List.Perm.swap ..)

/-- Things with different names are all kept. -/
theorem perm_ofList {things : List (Text × α)} (h : (things.map (·.1)).Nodup) :
    (ofList things).Perm things := by
  induction things using List.reverseRecOn with
  | nil => exact List.Perm.refl _
  | append_singleton things last ih =>
    obtain ⟨name, value⟩ := last
    rw [List.map_append, List.map_singleton, List.nodup_append] at h
    obtain ⟨hthings, -, hlast⟩ := h
    have hperm := ih hthings
    have hname : name ∉ (ofList things).map (·.1) := by
      intro hmem
      rw [(hperm.map _).mem_iff] at hmem
      exact hlast name hmem name (List.mem_singleton.2 rfl) rfl
    rw [ofList_concat]
    calc (insert name value (ofList things)).Perm ((name, value) :: ofList things) :=
          perm_insert hname
      List.Perm _ ((name, value) :: things) := hperm.cons _
      List.Perm _ (things ++ [(name, value)]) := (List.perm_append_singleton ..).symm

-- Names that do not repeat tell where each thing belongs.
theorem eq_of_perm {things others : List (Text × α)} (hperm : things.Perm others)
    (hnames : things.map (·.1) = others.map (·.1)) (h : (things.map (·.1)).Nodup) :
    things = others := by
  induction things generalizing others with
  | nil => exact hperm.nil_eq
  | cons thing things ih =>
    cases others with
    | nil => simp at hnames
    | cons other others =>
      rw [List.map_cons, List.map_cons, List.cons.injEq] at hnames
      obtain ⟨hname, hnames⟩ := hnames
      rw [List.map_cons, List.nodup_cons] at h
      have hmem : thing ∈ other :: others := hperm.subset (List.mem_cons_self ..)
      rcases List.mem_cons.1 hmem with rfl | hmem
      · rw [ih hperm.cons_inv hnames h.2]
      · apply absurd _ h.1
        rw [hnames]
        exact List.mem_map_of_mem hmem

end Named

end DocumentLayout
