import VoiceApp.Base.Segmentation

/-! # Blocks of a fixed size

A loop that takes blocks of one size off the front of a buffer is a receive loop whose
frames are the blocks. What it takes off does not depend on how the stream was cut.
-/
namespace Framing

/-- Blocks of `size` items; a shorter buffer is waited on. -/
def blocks {β : Type} (size : ℕ) (hsize : 0 < size) : Framer β (List β) Unit where
  decode b := if size ≤ b.length then .ok (b.take size,size) else .error ()
  waits _ := true
  decode_pos {b a n} h := by
    split at h
    · cases h
      exact hsize
    · cases h
  decode_le {b a n} h := by
    split at h
    · cases h
      assumption
    · cases h

namespace Blocks
variable {β : Type} {size : ℕ} {hsize : 0 < size} {b : List β}

theorem decode_short (h : b.length < size) : (blocks size hsize).decode b = .error () :=
  if_neg (Nat.not_le.mpr h)

theorem decode_long (h : size ≤ b.length) : (blocks size hsize).decode b = .ok (b.take size,size) :=
  if_pos h

theorem split_short (h : b.length < size) : (blocks size hsize).split b = ([],b) :=
  (blocks size hsize).split_waits (decode_short h) rfl

theorem split_long (h : size ≤ b.length) : (blocks size hsize).split b =
    (b.take size :: ((blocks size hsize).split (b.drop size)).1,
      ((blocks size hsize).split (b.drop size)).2) :=
  (blocks size hsize).split_ok (decode_long h)

/-- Strong induction along the blocks of a buffer. -/
theorem block_induction {P : List β → Prop} (hsize : 0 < size) (hshort : ∀ b, b.length < size → P b)
    (hlong : ∀ b, size ≤ b.length → P (b.drop size) → P b) (b : List β) : P b := by
  induction hn : b.length using Nat.strongRecOn generalizing b with
  | ind len ih =>
    by_cases h : b.length < size
    · exact hshort b h
    · have hlt : (b.drop size).length < len := by
        rw [List.length_drop]
        omega
      exact hlong b (Nat.not_lt.mp h) (ih _ hlt (b.drop size) rfl)

/-- Less than a block is left over. -/
theorem rest_length_lt (b : List β) : ((blocks size hsize).split b).2.length < size := by
  induction b using block_induction hsize with
  | hshort b h => rwa [split_short h]
  | hlong b h ih => rwa [split_long h]

/-- Every block is full. -/
theorem length_of_mem {x : List β} (b : List β) (h : x ∈ ((blocks size hsize).split b).1) :
    x.length = size := by
  induction b using block_induction hsize with
  | hshort b hb =>
    rw [split_short hb] at h
    cases h
  | hlong b hb ih =>
    rw [split_long hb] at h
    rcases List.mem_cons.mp h with rfl | h
    · exact List.length_take_of_le hb
    · exact ih h

theorem stable : (blocks size hsize : Framer β (List β) Unit).Stable where
  nil_waits := ⟨(),decode_short hsize,rfl⟩
  accepted_append {b a n} h s := by
    have hlong : size ≤ b.length := by
      by_contra hshort
      have herror : (blocks size hsize).decode b = .error () := decode_short (Nat.not_le.mp hshort)
      cases herror.symm.trans h
    have hblock : (blocks size hsize).decode b = .ok (b.take size,size) := decode_long hlong
    cases hblock.symm.trans h
    have hlonger : size ≤ (b ++ s).length := by
      rw [List.length_append]
      omega
    rw [decode_long hlonger,List.take_append_of_le_length hlong]
  rejected_append _ hw := by cases hw

/-- Nothing is ever thrown away. -/
theorem not_rejects (b : List β) : (blocks size hsize).rejects b = false := by
  induction b using block_induction hsize with
  | hshort b h => exact Framer.rejects_error _ (decode_short h)
  | hlong b h ih => rwa [Framer.rejects_ok _ (decode_long h)]

/-- The blocks of a longer buffer begin with those of the shorter one. -/
theorem split_append (b s : List β) : (blocks size hsize).split (b ++ s) =
    (((blocks size hsize).split b).1 ++
      ((blocks size hsize).split (((blocks size hsize).split b).2 ++ s)).1,
      ((blocks size hsize).split (((blocks size hsize).split b).2 ++ s)).2) :=
  (stable.split_append (not_rejects b) s).2

/-- Whole blocks in front of a buffer are its first blocks. -/
theorem split_flatten {xs : List (List β)} (hfull : ∀ x ∈ xs, x.length = size) (b : List β) :
    (blocks size hsize).split (xs.flatten ++ b) =
      (xs ++ ((blocks size hsize).split b).1,((blocks size hsize).split b).2) := by
  induction xs with
  | nil => rfl
  | cons x xs ih =>
    have hlen := hfull x List.mem_cons_self
    have hlong : size ≤ (x ++ (xs.flatten ++ b)).length := by
      rw [List.length_append,hlen]
      omega
    rw [List.flatten_cons,List.append_assoc,split_long hlong,List.take_left' hlen,List.drop_left' hlen,
      ih fun y hy => hfull y (List.mem_cons_of_mem x hy)]
    rfl

/-- However a stream is cut, its blocks are taken off one after the other. -/
theorem feedAll_eq (reads : List (List β)) :
    (blocks size hsize).feedAll reads = (blocks size hsize).split reads.flatten := by
  rw [stable.feedAll_stretches,stable.stretches_clean (not_rejects _)]
  rfl

/-- The block with this number. -/
theorem eq_of_getElem? {i : ℕ} {x : List β} (b : List β) (h : ((blocks size hsize).split b).1[i]? = some x) :
    x = (b.drop (i * size)).take size := by
  induction i generalizing b with
  | zero =>
    rcases Nat.lt_or_ge b.length size with hb | hb
    · rw [split_short hb] at h
      cases h
    · rw [split_long hb] at h
      cases h
      rw [Nat.zero_mul,List.drop_zero]
  | succ i ih =>
    rcases Nat.lt_or_ge b.length size with hb | hb
    · rw [split_short hb] at h
      cases h
    · rw [split_long hb,List.getElem?_cons_succ] at h
      rw [ih _ h,List.drop_drop,Nat.succ_mul,Nat.add_comm size]

end Blocks
end Framing
