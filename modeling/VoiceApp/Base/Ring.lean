import Mathlib.Data.List.Basic

/-! # Receiving from a bounded ring

A sender appends to a ring that keeps the last `cap` messages. A receiver takes them in
order; one that has fallen further behind skips what has been overwritten. What became of
every message is recorded beside it, in the order of sending.
-/

variable {M : Type}

/-- Of the messages sent, `got` have been received and `pending` are still to come. What
was skipped had at least `cap` messages sent behind it, and the receiver was `lagged`. -/
def Received (cap : ℕ) (lagged : Prop) (sent got pending : List M) : Prop :=
  ∃ fates : List (M × Bool), sent = fates.map Prod.fst ++ pending ∧
    got = (fates.filter Prod.snd).map Prod.fst ∧
    ∀ pre m post, fates = pre ++ (m,false) :: post → lagged ∧ cap ≤ post.length + pending.length

namespace Received
variable {cap : ℕ} {lagged : Prop} {sent got pending : List M}

theorem nil : Received cap lagged ([] : List M) [] [] :=
  ⟨[],rfl,rfl,fun pre m post h => by simp at h⟩

theorem send (h : Received cap lagged sent got pending) (new : List M) :
    Received cap lagged (sent ++ new) got (pending ++ new) := by
  obtain ⟨fates,hsent,hgot,hskipped⟩ := h
  refine ⟨fates,by rw [hsent,List.append_assoc],hgot,fun pre m post hcut => ?_⟩
  obtain ⟨hlagged,hcap⟩ := hskipped pre m post hcut
  refine ⟨hlagged,?_⟩
  rw [List.length_append]
  omega

theorem recv {m : M} (h : Received cap lagged sent got (m :: pending)) :
    Received cap lagged sent (got ++ [m]) pending := by
  obtain ⟨fates,hsent,hgot,hskipped⟩ := h
  refine ⟨fates ++ [(m,true)],?_,?_,fun pre m' post hcut => ?_⟩
  · rw [hsent,List.map_append,List.append_assoc]
    rfl
  · rw [hgot,List.filter_append,List.map_append]
    rfl
  · -- the cut is in front of the message just received
    rcases List.eq_nil_or_concat post with rfl | ⟨rest,last,rfl⟩
    · have hlast := (List.append_inj' hcut rfl).2
      cases hlast
    · rw [List.concat_eq_append] at hcut ⊢
      have hcut' : fates ++ [(m,true)] = (pre ++ (m',false) :: rest) ++ [last] := by
        rw [hcut,List.append_assoc,List.cons_append]
      obtain ⟨hfront,_⟩ := List.append_inj' hcut' rfl
      obtain ⟨hlagged,hcap⟩ := hskipped pre m' rest hfront
      refine ⟨hlagged,?_⟩
      simp only [List.length_append,List.length_cons,List.length_nil] at hcap ⊢
      omega

/-- The receiver is told that it lags, and goes on at a message that is still there. -/
theorem skip (h : Received cap lagged sent got pending) {n : ℕ}
    (hkept : cap ≤ (pending.drop n).length) : Received cap True sent got (pending.drop n) := by
  obtain ⟨fates,hsent,hgot,hskipped⟩ := h
  refine ⟨fates ++ (pending.take n).map fun m => (m,false),?_,?_,fun pre m post _ => ?_⟩
  · rw [List.map_append,List.map_map,List.append_assoc]
    change sent = fates.map Prod.fst ++ ((pending.take n).map id ++ pending.drop n)
    rw [List.map_id,List.take_append_drop,hsent]
  · have hnone : ((pending.take n).map fun m => (m,false)).filter Prod.snd = [] := by
      rw [List.filter_eq_nil_iff]
      intro e he
      obtain ⟨m,_,rfl⟩ := List.mem_map.mp he
      exact Bool.false_ne_true
    rw [List.filter_append,hnone,List.append_nil,hgot]
  · exact ⟨trivial,by omega⟩

theorem mono {lagged' : Prop} (h : Received cap lagged sent got pending) (hl : lagged → lagged') :
    Received cap lagged' sent got pending := by
  obtain ⟨fates,hsent,hgot,hskipped⟩ := h
  refine ⟨fates,hsent,hgot,fun pre m post hcut => ?_⟩
  obtain ⟨hlagged,hcap⟩ := hskipped pre m post hcut
  exact ⟨hl hlagged,hcap⟩

/-- A receiver that never lagged has got everything up to where it is. -/
theorem complete (h : Received cap lagged sent got pending) (hnever : ¬ lagged) :
    sent = got ++ pending := by
  obtain ⟨fates,hsent,hgot,hskipped⟩ := h
  have hall : fates.filter Prod.snd = fates := by
    rw [List.filter_eq_self]
    rintro ⟨m,fate⟩ hmem
    cases fate with
    | true => rfl
    | false =>
      obtain ⟨pre,post,hcut⟩ := List.append_of_mem hmem
      exact (hnever (hskipped pre m post hcut).1).elim
  rw [hsent,hgot,hall]

end Received
