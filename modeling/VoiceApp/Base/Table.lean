import Mathlib.Data.Finmap

/-! # Finite tables and their enumerations

A concurrent hash map is a finite map. Iterating over one visits its entries once
each in an order the program does not control, so an iteration is any enumeration.
-/

abbrev Table (K V : Type) := Finmap fun _ : K => V

namespace Table
variable {K V : Type} [DecidableEq K]

theorem lookup_insert_eq (t : Table K V) (k k' : K) (v : V) :
    Finmap.lookup k' (t.insert k v) = if k' = k then some v else Finmap.lookup k' t := by
  by_cases h : k' = k
  · subst h
    rw [Finmap.lookup_insert,if_pos rfl]
  · rw [Finmap.lookup_insert_of_ne t h,if_neg h]

theorem lookup_erase_eq (t : Table K V) (k k' : K) :
    Finmap.lookup k' (t.erase k) = if k' = k then none else Finmap.lookup k' t := by
  by_cases h : k' = k
  · subst h
    rw [Finmap.lookup_erase,if_pos rfl]
  · rw [Finmap.lookup_erase_ne h,if_neg h]

/-- Change the entry of a key, if there is one. -/
def modify (t : Table K V) (k : K) (f : V → V) : Table K V :=
  match t.lookup k with
  | some v => t.insert k (f v)
  | none => t

theorem lookup_modify (t : Table K V) (k k' : K) (f : V → V) :
    Finmap.lookup k' (t.modify k f) =
      if k' = k then (Finmap.lookup k t).map f else Finmap.lookup k' t := by
  unfold modify
  cases h : t.lookup k with
  | none =>
    by_cases hk : k' = k
    · rw [if_pos hk,hk,h]
      rfl
    · rw [if_neg hk]
  | some v =>
    rw [lookup_insert_eq]
    rfl

/-! ## What holds of all entries -/

/-- Every entry meets a condition. -/
def All (t : Table K V) (P : K → V → Prop) : Prop := ∀ k v, t.lookup k = some v → P k v

namespace All
variable {t t' : Table K V} {P Q : K → V → Prop}

theorem empty : All (∅ : Table K V) P := by
  intro k v h
  simp at h

theorem mono (h : t.All P) (hPQ : ∀ k v, P k v → Q k v) : t.All Q :=
  fun k v hv => hPQ k v (h k v hv)

theorem insert (h : t.All P) {k : K} {v : V} (hnew : P k v) : All (t.insert k v) P := by
  intro k' v' hv
  rw [lookup_insert_eq] at hv
  split at hv
  · rename_i hk
    cases hv
    rw [hk]
    exact hnew
  · exact h k' v' hv

theorem erase (h : t.All P) (k : K) : All (t.erase k) fun k' v => k' ≠ k ∧ P k' v := by
  intro k' v hv
  rw [lookup_erase_eq] at hv
  split at hv
  · cases hv
  · exact ⟨‹_›,h k' v hv⟩

/-- A table whose keys are all in a list is no larger than the list. -/
theorem card_keys_le {l : List K} (h : t.All fun k _ => k ∈ l) : t.keys.card ≤ l.length := by
  apply le_trans _ l.toFinset_card_le
  apply Finset.card_le_card
  intro k hk
  rw [Finmap.mem_keys,Finmap.mem_iff] at hk
  obtain ⟨v,hv⟩ := hk
  exact List.mem_toFinset.mpr (h k v hv)

end All

/-- A list that visits every entry of the table exactly once. -/
structure Enumerates (t : Table K V) (l : List (K × V)) : Prop where
  nodup : (l.map Prod.fst).Nodup
  mem_iff : ∀ k v, (k,v) ∈ l ↔ t.lookup k = some v

theorem exists_enumeration (t : Table K V) : ∃ l, Enumerates t l := by
  induction t using Finmap.induction_on with
  | H s =>
    refine ⟨s.entries.map fun e => (e.1,e.2),?_,?_⟩
    · have h := s.nodupKeys
      rw [List.map_map]
      exact h
    · intro k v
      rw [Finmap.lookup_toFinmap,List.mem_map]
      constructor
      · rintro ⟨⟨k',v'⟩,he,h⟩
        cases h
        exact AList.mem_lookup_iff.mpr he
      · intro h
        exact ⟨⟨k,v⟩,AList.mem_lookup_iff.mp h,rfl⟩

namespace Enumerates
variable {t : Table K V} {l : List (K × V)}

theorem nil : Enumerates (∅ : Table K V) [] :=
  ⟨List.nodup_nil,fun k v => by simp⟩

/-- A search finds some entry with the property whenever there is one. -/
theorem find?_some (h : Enumerates t l) {p : K × V → Bool} {e : K × V} (he : l.find? p = some e) :
    t.lookup e.1 = some e.2 ∧ p e = true :=
  ⟨(h.mem_iff e.1 e.2).mp (List.mem_of_find?_eq_some he),List.find?_some he⟩

theorem find?_none (h : Enumerates t l) {p : K × V → Bool} (he : l.find? p = none) {k : K} {v : V}
    (hv : t.lookup k = some v) : p (k,v) = false := by
  have := List.find?_eq_none.mp he (k,v) ((h.mem_iff k v).mpr hv)
  simpa using this

/-- A new or overwritten entry may be visited first. -/
theorem insert (h : Enumerates t l) (k : K) (v : V) :
    Enumerates (t.insert k v) ((k,v) :: l.filter fun e => e.1 != k) := by
  constructor
  · have hsub : ((l.filter fun e => e.1 != k).map Prod.fst).Nodup :=
      h.nodup.sublist (List.filter_sublist.map _)
    refine List.nodup_cons.mpr ⟨?_,hsub⟩
    intro hk
    obtain ⟨e,he,hek⟩ := List.mem_map.mp hk
    have hne := (List.mem_filter.mp he).2
    simp only [hek,bne_self_eq_false,Bool.false_eq_true] at hne
  · intro k' v'
    rw [lookup_insert_eq,List.mem_cons,List.mem_filter,h.mem_iff]
    by_cases hk : k' = k
    · subst hk
      simp [eq_comm]
    · simp [hk]

theorem erase (h : Enumerates t l) (k : K) :
    Enumerates (t.erase k) (l.filter fun e => e.1 != k) := by
  refine ⟨h.nodup.sublist (List.filter_sublist.map _),fun k' v => ?_⟩
  rw [lookup_erase_eq,List.mem_filter,h.mem_iff]
  by_cases hk : k' = k
  · simp [hk]
  · simp [hk]

end Enumerates

section Collect
variable {A B : Type} (f : A → Option B)

/-- Reading a field of every entry visited fails exactly when one entry lacks it. -/
theorem mapM_eq_none {l : List A} : l.mapM f = none ↔ ∃ a ∈ l, f a = none := by
  induction l with
  | nil => simp
  | cons a rest ih =>
    rw [List.mapM_cons]
    cases ha : f a with
    | none => simp [ha]
    | some b =>
      cases hrest : rest.mapM f with
      | none =>
        obtain ⟨a',hmem,hnone⟩ := ih.mp hrest
        simp only [Option.bind_eq_bind,Option.bind_some,Option.bind_none,true_iff]
        exact ⟨a',List.mem_cons_of_mem a hmem,hnone⟩
      | some bs =>
        have hall : ¬ ∃ a' ∈ rest, f a' = none := fun h => by simp [ih.mpr h] at hrest
        simpa [ha] using hall

theorem mapM_eq_some {l : List A} {bs : List B} (h : l.mapM f = some bs) :
    l.map f = bs.map some := by
  induction l generalizing bs with
  | nil =>
    simp only [List.mapM_nil,Option.pure_def,Option.some.injEq] at h
    rw [← h]
    rfl
  | cons a rest ih =>
    rw [List.mapM_cons] at h
    cases ha : f a with
    | none => simp [ha] at h
    | some b =>
      cases hrest : rest.mapM f with
      | none => simp [ha,hrest] at h
      | some bs' =>
        simp only [ha,hrest,Option.bind_eq_bind,Option.bind_some,Option.pure_def,
          Option.some.injEq] at h
        rw [← h,List.map_cons,List.map_cons,ha,ih hrest]

end Collect
end Table
