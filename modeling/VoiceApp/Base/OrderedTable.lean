import Mathlib.Data.Finset.Sort
import VoiceApp.Base.Table

/-! # Tables iterated in the order of their keys

A table filled by insertions alone is iterated in the order of the insertions exactly if
every key was greater than the one before.
-/
namespace Table
variable {K V : Type} [DecidableEq K]

/-- The table after these insertions. -/
def insertAll (t : Table K V) (l : List (K × V)) : Table K V :=
  l.foldl (fun t e => t.insert e.1 e.2) t

theorem insertAll_concat (t : Table K V) (l : List (K × V)) (e : K × V) :
    t.insertAll (l ++ [e]) = (t.insertAll l).insert e.1 e.2 := by
  rw [insertAll,List.foldl_append]
  rfl

/-- Insertions under different keys are all still there. -/
theorem enumerates_insertAll {l : List (K × V)} (h : (l.map Prod.fst).Nodup) :
    Enumerates ((∅ : Table K V).insertAll l) l := by
  induction l using List.reverseRecOn with
  | nil => exact .nil
  | append_singleton rest e ih =>
    obtain ⟨k,v⟩ := e
    rw [List.map_append,List.nodup_append] at h
    obtain ⟨hrest,_,hnew⟩ := h
    have hold := ih hrest
    refine ⟨?_,fun k' v' => ?_⟩
    · rw [List.map_append,List.nodup_append]
      exact ⟨hrest,List.nodup_singleton _,hnew⟩
    · rw [insertAll_concat,lookup_insert_eq,List.mem_append,List.mem_singleton,hold.mem_iff]
      by_cases hk : k' = k
      · subst hk
        have hnone : ((∅ : Table K V).insertAll rest).lookup k' ≠ some v' := by
          rw [Ne,← hold.mem_iff]
          intro hmem
          exact hnew k' (List.mem_map_of_mem hmem) k' List.mem_cons_self rfl
        simp [hnone,eq_comm]
      · simp [hk]

section Ascending
variable [LE K] [DecidableLE K] [IsTrans K (· ≤ ·)] [Std.Antisymm fun a b : K => a ≤ b]
  [Std.Total fun a b : K => a ≤ b]

/-- The entries in ascending order of their keys. -/
def ascending (t : Table K V) : List (K × V) :=
  (t.keys.sort (· ≤ ·)).filterMap fun k => (t.lookup k).map fun v => (k,v)

theorem ascending_keys (t : Table K V) : t.ascending.map Prod.fst = t.keys.sort (· ≤ ·) := by
  have hpresent : ∀ l : List K, (∀ k ∈ l, k ∈ t) →
      (l.filterMap fun k => (t.lookup k).map fun v => (k,v)).map Prod.fst = l := by
    intro l
    induction l with
    | nil => exact fun _ => rfl
    | cons k rest ih =>
      intro hall
      obtain ⟨hk,hrest⟩ := List.forall_mem_cons.mp hall
      obtain ⟨v,hv⟩ := Option.isSome_iff_exists.mp (Finmap.lookup_isSome.mpr hk)
      simp only [List.filterMap_cons,hv,Option.map_some,List.map_cons,ih hrest]
  exact hpresent _ fun k hk => Finmap.mem_keys.mp ((Finset.mem_sort _).mp hk)

theorem ascending_enumerates (t : Table K V) : Enumerates t t.ascending := by
  constructor
  · rw [ascending_keys]
    exact Finset.sort_nodup _ _
  · intro k v
    rw [ascending,List.mem_filterMap]
    constructor
    · rintro ⟨k',_,h⟩
      obtain ⟨v',hv',he⟩ := Option.map_eq_some_iff.mp h
      cases he
      exact hv'
    · intro h
      have hmem : k ∈ t := Finmap.lookup_isSome.mp (by rw [h]; rfl)
      refine ⟨k,(Finset.mem_sort _).mpr (Finmap.mem_keys.mpr hmem),?_⟩
      rw [h]
      rfl

theorem ascending_sorted (t : Table K V) : (t.ascending.map Prod.fst).Pairwise (· ≤ ·) := by
  rw [ascending_keys]
  exact Finset.pairwise_sort _ _

/-- The iteration in ascending order is the only sorted enumeration. -/
theorem ascending_eq_iff {t : Table K V} {l : List (K × V)} :
    t.ascending = l ↔ Enumerates t l ∧ (l.map Prod.fst).Pairwise (· ≤ ·) := by
  constructor
  · rintro rfl
    exact ⟨t.ascending_enumerates,t.ascending_sorted⟩
  · rintro ⟨hl,hsorted⟩
    have hsort : ∀ {l' : List (K × V)}, (l'.map Prod.fst).Pairwise (· ≤ ·) →
        l'.Pairwise fun e e' => e.1 ≤ e'.1 := fun h => List.pairwise_map.mp h
    refine List.Perm.eq_of_pairwise ?_ (hsort t.ascending_sorted) (hsort hsorted) ?_
    · rintro ⟨k,v⟩ ⟨k',v'⟩ he he' hle hge
      have hk : k = k' := antisymm hle hge
      subst hk
      have hv := (t.ascending_enumerates.mem_iff k v).mp he
      have hv' := (hl.mem_iff k v').mp he'
      cases hv.symm.trans hv'
      rfl
    · rw [List.perm_ext_iff_of_nodup t.ascending_enumerates.nodup.of_map hl.nodup.of_map]
      rintro ⟨k,v⟩
      rw [hl.mem_iff,t.ascending_enumerates.mem_iff]

/-- A table filled by insertions is iterated as it was filled, exactly if the keys were new
and ascending. -/
theorem ascending_insertAll_iff {l : List (K × V)} :
    ((∅ : Table K V).insertAll l).ascending = l ↔
      (l.map Prod.fst).Pairwise (· ≤ ·) ∧ (l.map Prod.fst).Nodup := by
  rw [ascending_eq_iff]
  constructor
  · rintro ⟨hl,hsorted⟩
    exact ⟨hsorted,hl.nodup⟩
  · rintro ⟨hsorted,hnodup⟩
    exact ⟨enumerates_insertAll hnodup,hsorted⟩

end Ascending
end Table
