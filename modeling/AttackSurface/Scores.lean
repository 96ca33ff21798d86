/-!
Named scores of a node.

Scores are kept sorted by name, one for each name, so two of them are equal exactly when they
hold the same values under the same names.
-/
namespace AttackSurface

/-- The pairs are in strictly ascending order of their names. -/
abbrev AscendingNames {α : Type} (pairs : List (String × α)) : Prop :=
  pairs.Pairwise fun a b => a.1 < b.1

/-- Puts `value` under `name`; `merge old value` stands there if the name has a value already. -/
def putPair {α : Type} (merge : α → α → α) (name : String) (value : α) :
    List (String × α) → List (String × α)
  | [] => [(name, value)]
  | (other, old) :: rest =>
    if name < other then (name, value) :: (other, old) :: rest
    else if name = other then (name, merge old value) :: rest
    else (other, old) :: putPair merge name value rest

theorem mem_putPair {α : Type} {merge : α → α → α} {name : String} {value : α}
    {pairs : List (String × α)} {pair : String × α} (h : pair ∈ putPair merge name value pairs) :
    pair.1 = name ∨ pair ∈ pairs := by
  induction pairs with
  | nil => simp_all [putPair]
  | cons head rest ih =>
    obtain ⟨other, old⟩ := head
    unfold putPair at h
    split at h
    · rcases List.mem_cons.1 h with h | h
      · exact .inl (by rw [h])
      · exact .inr h
    · split at h
      · rcases List.mem_cons.1 h with h | h
        · exact .inl (by rw [h])
        · exact .inr (List.mem_cons_of_mem _ h)
      · rcases List.mem_cons.1 h with h | h
        · exact .inr (h ▸ List.mem_cons_self ..)
        · exact (ih h).imp id (List.mem_cons_of_mem _)

theorem ascendingNames_putPair {α : Type} (merge : α → α → α) (name : String) (value : α)
    {pairs : List (String × α)} (h : AscendingNames pairs) :
    AscendingNames (putPair merge name value pairs) := by
  induction pairs with
  | nil => simp [AscendingNames, putPair]
  | cons head rest ih =>
    obtain ⟨other, old⟩ := head
    obtain ⟨hhead, hrest⟩ := List.pairwise_cons.1 h
    unfold putPair
    split
    case isTrue hlt =>
      refine List.pairwise_cons.2 ⟨fun pair hpair => ?_, h⟩
      rcases List.mem_cons.1 hpair with rfl | hpair
      · exact hlt
      · exact String.lt_trans hlt (hhead _ hpair)
    case isFalse hlt =>
      split
      case isTrue heq =>
        exact List.pairwise_cons.2 ⟨fun pair hpair => heq ▸ hhead _ hpair, hrest⟩
      case isFalse hne =>
        refine List.pairwise_cons.2 ⟨fun pair hpair => ?_, ih hrest⟩
        rcases mem_putPair hpair with hname | hpair
        · exact hname ▸ Decidable.byContradiction fun hge =>
            hne (String.le_antisymm (String.not_lt.1 hge) (String.not_lt.1 hlt))
        · exact hhead _ hpair

/-- Named scores, sorted by name. -/
structure Scores (α : Type) where
  pairs : List (String × α)
  ascending : AscendingNames pairs

namespace Scores

variable {α : Type}

def empty : Scores α := ⟨[], .nil⟩

instance : Inhabited (Scores α) := ⟨empty⟩

theorem ext {a b : Scores α} (h : a.pairs = b.pairs) : a = b := by
  cases a; cases b; cases h; rfl

def get? (scores : Scores α) (name : String) : Option α := scores.pairs.lookup name

def names (scores : Scores α) : List String := scores.pairs.map (·.1)

def set (scores : Scores α) (name : String) (value : α) : Scores α :=
  ⟨putPair (fun _ new => new) name value scores.pairs, ascendingNames_putPair _ _ _ scores.ascending⟩

/-- Puts a value under a name that has none yet. -/
def addNew (scores : Scores α) (name : String) (value : α) : Scores α :=
  ⟨putPair (fun old _ => old) name value scores.pairs, ascendingNames_putPair _ _ _ scores.ascending⟩

/-- The scores of both; where both have one, the first stays. -/
def merge (scores other : Scores α) : Scores α :=
  other.pairs.foldl (fun kept pair => kept.addNew pair.1 pair.2) scores

end Scores

end AttackSurface
