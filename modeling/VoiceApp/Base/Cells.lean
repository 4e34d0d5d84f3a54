import VoiceApp.Base.Table

/-! # A table of shared cells

A key is entered with a tag and the place of a cell; whoever holds the place can still reach
the cell when the key is entered anew or is taken out. As long as every entry has a cell of
its own, the table is one of values.
-/

/-- `cells` is every cell ever made, in the order of their making. -/
structure Cells (K A V : Type) where
  cells : List V
  table : Table K (A × ℕ)

namespace Cells
variable {K A V : Type} [DecidableEq K]

def new : Cells K A V := ⟨[],∅⟩

/-- Enter a key with a new cell. -/
def alloc (c : Cells K A V) (k : K) (a : A) (v : V) : Cells K A V :=
  ⟨c.cells ++ [v],c.table.insert k (a,c.cells.length)⟩

def erase (c : Cells K A V) (k : K) : Cells K A V := { c with table := c.table.erase k }

def clear (c : Cells K A V) : Cells K A V := { c with table := ∅ }

def setCell (c : Cells K A V) (n : ℕ) (v : V) : Cells K A V := { c with cells := c.cells.set n v }

/-- The value that a key is entered with. -/
def value (c : Cells K A V) (k : K) : Option (A × V) :=
  (c.table.lookup k).bind fun e => (c.cells[e.2]?).map fun v => (e.1,v)

/-- Every entry has a cell of its own. -/
structure Separate (c : Cells K A V) : Prop where
  inside : ∀ k a n, c.table.lookup k = some (a,n) → n < c.cells.length
  apart : ∀ k k' a a' n, c.table.lookup k = some (a,n) → c.table.lookup k' = some (a',n) → k = k'

theorem separate_new : Separate (new : Cells K A V) := by
  constructor
  · intro k a n h
    simp [new] at h
  · intro k k' a a' n h
    simp [new] at h

variable {c : Cells K A V}

theorem Separate.alloc (h : Separate c) (k : K) (a : A) (v : V) : Separate (c.alloc k a v) := by
  have hlength : (c.cells ++ [v]).length = c.cells.length + 1 := List.length_append
  constructor
  · intro k' a' n hl
    change Finmap.lookup k' (c.table.insert k _) = _ at hl
    rw [Table.lookup_insert_eq] at hl
    change n < (c.cells ++ [v]).length
    split at hl
    · cases hl
      omega
    · have hlt := h.inside k' a' n hl
      omega
  · intro k' k'' a' a'' n hl' hl''
    change Finmap.lookup _ (c.table.insert k _) = _ at hl' hl''
    rw [Table.lookup_insert_eq] at hl' hl''
    split at hl' <;> split at hl''
    · rename_i hk' hk''
      rw [hk',hk'']
    · cases hl'
      exact (h.inside k'' a'' _ hl'').false.elim
    · cases hl''
      exact (h.inside k' a' _ hl').false.elim
    · exact h.apart k' k'' a' a'' n hl' hl''

theorem Separate.erase (h : Separate c) (k : K) : Separate (c.erase k) := by
  have hkept : ∀ k' e, (c.erase k).table.lookup k' = some e → c.table.lookup k' = some e := by
    intro k' e hl
    change Finmap.lookup k' (c.table.erase k) = _ at hl
    rw [Table.lookup_erase_eq] at hl
    split at hl
    · cases hl
    · exact hl
  exact ⟨fun k' a n hl => h.inside k' a n (hkept _ _ hl),
    fun k' k'' a a' n hl hl' => h.apart k' k'' a a' n (hkept _ _ hl) (hkept _ _ hl')⟩

theorem separate_clear (c : Cells K A V) : Separate c.clear := by
  constructor
  · intro k a n h
    simp [clear] at h
  · intro k k' a a' n h
    simp [clear] at h

theorem Separate.setCell (h : Separate c) (n : ℕ) (v : V) : Separate (c.setCell n v) := by
  refine ⟨?_,h.apart⟩
  intro k a m hl
  change m < (c.cells.set n v).length
  rw [List.length_set]
  exact h.inside k a m hl

/-- An entry whose cell is there has its value. -/
theorem value_of_lookup {k : K} {a : A} {n : ℕ} {v : V} (hl : c.table.lookup k = some (a,n))
    (hv : c.cells[n]? = some v) : c.value k = some (a,v) := by
  rw [value,hl,Option.bind_some,hv,Option.map_some]

theorem Separate.exists_value (h : Separate c) {k : K} {a : A} {n : ℕ}
    (hl : c.table.lookup k = some (a,n)) : ∃ v, c.cells[n]? = some v ∧ c.value k = some (a,v) := by
  have hv := List.getElem?_eq_getElem (h.inside k a n hl)
  exact ⟨_,hv,value_of_lookup hl hv⟩

theorem value_eq_none {k : K} (hl : c.table.lookup k = none) : c.value k = none := by
  rw [value,hl,Option.bind_none]

/-- Every value has its tag from the table. -/
theorem Separate.value_tag (h : Separate c) (k : K) :
    (c.value k).map Prod.fst = (c.table.lookup k).map Prod.fst := by
  cases hl : c.table.lookup k with
  | none => rw [value_eq_none hl,Option.map_none,Option.map_none]
  | some e =>
    obtain ⟨v,_,hv⟩ := h.exists_value hl
    rw [hv,Option.map_some,Option.map_some]

/-- A cell that has been made and that no key is entered with. -/
structure Unreached (c : Cells K A V) (n : ℕ) : Prop where
  made : n < c.cells.length
  apart : ∀ k a, c.table.lookup k ≠ some (a,n)

/-- No entry ever comes back to such a cell. -/
theorem Unreached.alloc {n : ℕ} (h : Unreached c n) (k : K) (a : A) (v : V) : Unreached (c.alloc k a v) n := by
  constructor
  · change n < (c.cells ++ [v]).length
    rw [List.length_append]
    exact Nat.lt_add_right _ h.made
  · intro k' a' hl
    change Finmap.lookup k' (c.table.insert k _) = _ at hl
    rw [Table.lookup_insert_eq] at hl
    split at hl
    · cases hl
      exact absurd h.made (Nat.lt_irrefl _)
    · exact h.apart k' a' hl

theorem Unreached.erase {n : ℕ} (h : Unreached c n) (k : K) : Unreached (c.erase k) n := by
  refine ⟨h.made,fun k' a' hl => ?_⟩
  change Finmap.lookup k' (c.table.erase k) = _ at hl
  rw [Table.lookup_erase_eq] at hl
  split at hl
  · cases hl
  · exact h.apart k' a' hl

theorem Unreached.clear {n : ℕ} (h : Unreached c n) : Unreached c.clear n :=
  ⟨h.made,fun k a hl => by simp [Cells.clear] at hl⟩

theorem Unreached.setCell {n : ℕ} (h : Unreached c n) (m : ℕ) (v : V) : Unreached (c.setCell m v) n := by
  refine ⟨?_,h.apart⟩
  change n < (c.cells.set m v).length
  rw [List.length_set]
  exact h.made

/-- A key that is entered anew leaves its cell behind. -/
theorem Separate.alloc_unreached (h : Separate c) {k : K} {a : A} {n : ℕ} (hl : c.table.lookup k = some (a,n))
    (a' : A) (v : V) : Unreached (c.alloc k a' v) n := by
  have hmade := h.inside k a n hl
  constructor
  · change n < (c.cells ++ [v]).length
    rw [List.length_append]
    exact Nat.lt_add_right _ hmade
  · intro k' a'' hl'
    change Finmap.lookup k' (c.table.insert k _) = _ at hl'
    rw [Table.lookup_insert_eq] at hl'
    split at hl'
    · cases hl'
      exact absurd hmade (Nat.lt_irrefl _)
    · rename_i hk
      exact hk (h.apart k' k a'' a n hl' hl)

theorem value_alloc (h : Separate c) (k k' : K) (a : A) (v : V) :
    (c.alloc k a v).value k' = if k' = k then some (a,v) else c.value k' := by
  by_cases hk : k' = k
  · rw [if_pos hk,hk]
    apply value_of_lookup (n := c.cells.length)
    · exact (Table.lookup_insert_eq _ _ _ _).trans (if_pos rfl)
    · exact List.getElem?_concat_length
  · rw [if_neg hk]
    have hlookup : (c.alloc k a v).table.lookup k' = c.table.lookup k' :=
      (Table.lookup_insert_eq _ _ _ _).trans (if_neg hk)
    unfold value
    rw [hlookup]
    cases hl : c.table.lookup k' with
    | none => rfl
    | some e =>
      have hlt := h.inside k' e.1 e.2 hl
      rw [Option.bind_some,Option.bind_some]
      change ((c.cells ++ [v])[e.2]?).map _ = _
      rw [List.getElem?_append_left hlt]

theorem value_erase (c : Cells K A V) (k k' : K) :
    (c.erase k).value k' = if k' = k then none else c.value k' := by
  have hlookup : (c.erase k).table.lookup k' = if k' = k then none else c.table.lookup k' :=
    Table.lookup_erase_eq _ _ _
  unfold value
  rw [hlookup]
  split <;> rfl

@[simp] theorem value_clear (c : Cells K A V) (k : K) : c.clear.value k = none := by
  simp [value,clear]

/-- A cell is written over through its entry. -/
theorem value_setCell (h : Separate c) {k : K} {a : A} {n : ℕ} (hl : c.table.lookup k = some (a,n))
    (k' : K) (v : V) : (c.setCell n v).value k' = if k' = k then some (a,v) else c.value k' := by
  by_cases hk : k' = k
  · rw [if_pos hk,hk]
    exact value_of_lookup hl (List.getElem?_set_self (h.inside k a n hl))
  · rw [if_neg hk]
    unfold value
    change (c.table.lookup k').bind (fun e => ((c.cells.set n v)[e.2]?).map _) = _
    cases hl' : c.table.lookup k' with
    | none => rfl
    | some e =>
      have hne : n ≠ e.2 := by
        intro hn
        rw [hn] at hl
        exact hk (h.apart k' k e.1 a e.2 hl' hl)
      rw [Option.bind_some,Option.bind_some,List.getElem?_set_ne hne]

end Cells
