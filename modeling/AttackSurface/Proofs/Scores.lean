import AttackSurface.Scores

/-! Scores by name. A change of scores is told by what is found under each name after it, and the
names listed are those under which something is found. -/
namespace AttackSurface

/-! ## Pairs in ascending order -/

theorem lookup_cons_eq_ite {α : Type} (name first : String) (value : α)
    (rest : List (String × α)) : ((first, value) :: rest).lookup name =
      if name = first then some value else rest.lookup name := by
  rw [List.lookup_cons]
  split
  · rename_i heq
    rw [if_pos (beq_iff_eq.1 heq)]
  · rename_i hne
    rw [if_neg (beq_eq_false_iff_ne.1 hne)]

theorem lookup_putPair {α : Type} {combine : α → α → α} {pairs : List (String × α)}
    (h : AscendingNames pairs) (name other : String) (value : α) :
    (putPair combine name value pairs).lookup other =
      if other = name then (pairs.lookup name).merge combine (some value)
      else pairs.lookup other := by
  induction pairs with
  | nil => simp only [putPair, lookup_cons_eq_ite, List.lookup_nil, Option.merge_none_left]
  | cons head rest ih =>
    obtain ⟨first, old⟩ := head
    obtain ⟨hhead, hrest⟩ := List.pairwise_cons.1 h
    unfold putPair
    split
    case isTrue hlt =>
      -- All names from `first` on are greater, so `name` is new.
      have hnone : ((first, old) :: rest).lookup name = none := by
        apply List.lookup_eq_none_iff.2
        intro pair hpair
        apply bne_iff_ne.2
        rcases List.mem_cons.1 hpair with rfl | hlater
        · exact String.ne_of_lt hlt
        · exact String.ne_of_lt (String.lt_trans hlt (hhead pair hlater))
      rw [hnone, Option.merge_none_left, lookup_cons_eq_ite]
    case isFalse hge =>
      split
      case isTrue heq =>
        subst heq
        simp only [lookup_cons_eq_ite, if_true, Option.merge_some_some]
        split <;> rfl
      case isFalse hne =>
        simp only [lookup_cons_eq_ite, ih hrest, if_neg hne]
        by_cases hother : other = name
        · rw [hother, if_neg hne, if_pos rfl, if_pos rfl]
        · rw [if_neg hother, if_neg hother]

namespace Scores

variable {α : Type} {a b c : Scores α} {name : String} {value : α}

/-! ## What is found after a change -/

theorem get?_set (a : Scores α) (name other : String) (value : α) :
    (a.set name value).get? other = if other = name then some value else a.get? other := by
  rw [get?, set, lookup_putPair a.ascending]
  split
  · cases a.pairs.lookup name <;> rfl
  · rfl

theorem get?_addNew (a : Scores α) (name other : String) (value : α) :
    (a.addNew name value).get? other =
      if other = name then (a.get? name).or (some value) else a.get? other := by
  rw [get?, addNew, lookup_putPair a.ascending]
  split
  · rw [get?]
    cases a.pairs.lookup name <;> rfl
  · rfl

theorem get?_merge (a b : Scores α) (name : String) :
    (a.merge b).get? name = (a.get? name).or (b.get? name) := by
  have hlookup : b.get? name = b.pairs.lookup name := rfl
  rw [hlookup, merge]
  generalize b.pairs = pairs
  induction pairs generalizing a with
  | nil => rw [List.foldl_nil, List.lookup_nil, Option.or_none]
  | cons pair rest ih =>
    rw [List.foldl_cons, ih, get?_addNew, lookup_cons_eq_ite]
    split
    · rename_i hname
      rw [hname, Option.or_assoc, Option.some_or]
    · rfl

/-! ## Scores are what is found -/

theorem get?_eq_some : a.get? name = some value ↔ (name, value) ∈ a.pairs := by
  unfold get?
  rw [List.lookup_eq_some_iff]
  constructor
  · rintro ⟨before, after, hsplit, -⟩
    rw [hsplit]
    exact List.mem_append_right _ List.mem_cons_self
  · intro hmem
    obtain ⟨before, after, hsplit⟩ := List.append_of_mem hmem
    refine ⟨before, after, hsplit, fun pair hpair => bne_iff_ne.2 ?_⟩
    have hascending := a.ascending
    rw [hsplit] at hascending
    have hlt := (List.pairwise_append.1 hascending).2.2 pair hpair _ List.mem_cons_self
    exact (String.ne_of_lt hlt).symm

theorem ext_get? (h : ∀ name, a.get? name = b.get? name) : a = b := by
  apply ext
  -- The same pairs in ascending order are the same list.
  have hnodup (scores : Scores α) : scores.pairs.Nodup := by
    apply scores.ascending.imp
    rintro x y hlt rfl
    exact String.lt_irrefl x.1 hlt
  have hperm : a.pairs.Perm b.pairs := by
    rw [List.perm_ext_iff_of_nodup (hnodup a) (hnodup b)]
    intro pair
    rw [← get?_eq_some, ← get?_eq_some, h]
  apply hperm.eq_of_pairwise _ a.ascending b.ascending
  intro x y _ _ hxy hyx
  exact absurd hyx (String.lt_asymm hxy)

theorem merge_self (a : Scores α) : a.merge a = a := by
  apply ext_get?
  intro name
  rw [get?_merge, Option.or_self]

theorem merge_assoc (a b c : Scores α) : (a.merge b).merge c = a.merge (b.merge c) := by
  apply ext_get?
  intro name
  simp only [get?_merge, Option.or_assoc]

/-! ## The names listed -/

theorem mem_names : name ∈ a.names ↔ (a.get? name).isSome := by
  rw [names, List.mem_map, Option.isSome_iff_exists]
  simp only [get?_eq_some]
  constructor
  · rintro ⟨⟨_, value⟩, hmem, rfl⟩
    exact ⟨value, hmem⟩
  · rintro ⟨value, hmem⟩
    exact ⟨(name, value), hmem, rfl⟩

theorem nodup_names (a : Scores α) : a.names.Nodup := by
  apply List.pairwise_map.2
  exact a.ascending.imp String.ne_of_lt

end Scores

end AttackSurface
