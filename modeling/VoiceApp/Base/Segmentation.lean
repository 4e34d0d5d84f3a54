import VoiceApp.Base.Framing

/-! # Cutting an arbitrary byte stream

A decoder whose verdicts stand, whatever arrives later, sees the same frames in a stream
however it is cut, up to the first frame it rejects. A rejection drops what has been
received by then, so the reads fall into stretches, and the outcome is a matter of the
stretches alone.
-/
namespace Framing
namespace Framer
variable {β α ε : Type} (F : Framer β α ε)

/-- A verdict other than waiting does not change when more bytes arrive. -/
structure Stable : Prop where
  nil_waits : ∃ e, F.decode [] = .error e ∧ F.waits e = true
  accepted_append : ∀ {b a n}, F.decode b = .ok (a,n) → ∀ s, F.decode (b ++ s) = .ok (a,n)
  rejected_append : ∀ {b e}, F.decode b = .error e → F.waits e = false → ∀ s,
    ∃ e', F.decode (b ++ s) = .error e' ∧ F.waits e' = false

/-- The decoder comes to a frame that it rejects. -/
def rejects (b : List β) : Bool :=
  match _h : F.decode b with
  | .ok (_,n) => rejects (b.drop n)
  | .error e => !F.waits e
termination_by b.length
decreasing_by exact F.drop_length_lt _h

theorem rejects_ok {b : List β} {a : α} {n : ℕ} (h : F.decode b = .ok (a,n)) :
    F.rejects b = F.rejects (b.drop n) := by
  rw [rejects]
  split
  · rename_i he
    cases h.symm.trans he
    rfl
  · rename_i he
    cases h.symm.trans he

theorem rejects_error {b : List β} {e : ε} (h : F.decode b = .error e) : F.rejects b = !F.waits e := by
  rw [rejects]
  split
  · rename_i he
    cases h.symm.trans he
  · rename_i he
    cases h.symm.trans he
    rfl

/-- One read: the stretches that are over, and the bytes received since the last of them. -/
def stretch (s : List (List β) × List β) (chunk : List β) : List (List β) × List β :=
  if F.rejects (s.2 ++ chunk) then (s.1 ++ [s.2 ++ chunk],[]) else (s.1,s.2 ++ chunk)

/-- The bytes of the reads, cut after each read in which a frame is rejected. -/
def stretches (reads : List (List β)) : List (List β) × List β := reads.foldl F.stretch ([],[])

theorem stretches_concat (reads : List (List β)) (chunk : List β) :
    F.stretches (reads ++ [chunk]) = F.stretch (F.stretches reads) chunk := by
  rw [stretches,List.foldl_append]
  rfl

variable {F}

/-- A rejected frame drops the buffer. -/
theorem split_rejected {b : List β} (h : F.rejects b = true) : (F.split b).2 = [] := by
  induction hn : b.length using Nat.strongRecOn generalizing b with
  | ind len ih =>
    cases hd : F.decode b with
    | ok r =>
      obtain ⟨a,n⟩ := r
      rw [F.rejects_ok hd] at h
      rw [F.split_ok hd]
      exact ih _ (hn ▸ F.drop_length_lt hd) h rfl
    | error e =>
      rw [F.rejects_error hd,Bool.not_eq_true'] at h
      rw [F.split_error hd,h]
      rfl

namespace Stable
variable (hF : F.Stable)
include hF

theorem split_nil : F.split [] = ([],[]) := by
  obtain ⟨e,he,hw⟩ := hF.nil_waits
  exact F.split_waits he hw

theorem rejects_nil : F.rejects [] = false := by
  obtain ⟨e,he,hw⟩ := hF.nil_waits
  rw [F.rejects_error he,hw]
  rfl

/-- An accepted frame is accepted with whatever comes behind it. -/
theorem split_accepted {b : List β} {a : α} {n : ℕ} (hd : F.decode b = .ok (a,n)) (s : List β) :
    F.rejects (b ++ s) = F.rejects (b.drop n ++ s) ∧
      F.split (b ++ s) = (a :: (F.split (b.drop n ++ s)).1,(F.split (b.drop n ++ s)).2) := by
  have hlong := hF.accepted_append hd s
  have hdrop : (b ++ s).drop n = b.drop n ++ s := List.drop_append_of_le_length (F.decode_le hd)
  rw [F.rejects_ok hlong,F.split_ok hlong,hdrop]
  exact ⟨rfl,rfl⟩

/-- Behind a rejected frame nothing is looked at. -/
theorem rejected_append_eq {b : List β} (h : F.rejects b = true) (s : List β) :
    F.rejects (b ++ s) = true ∧ (F.split (b ++ s)).1 = (F.split b).1 := by
  induction hn : b.length using Nat.strongRecOn generalizing b with
  | ind len ih =>
    cases hd : F.decode b with
    | ok r =>
      obtain ⟨a,n⟩ := r
      obtain ⟨hfirst,hrest⟩ := hF.split_accepted hd s
      rw [F.rejects_ok hd] at h
      obtain ⟨hrejects,hsplit⟩ := ih _ (hn ▸ F.drop_length_lt hd) h rfl
      rw [hfirst,hrest,F.split_ok hd,hsplit]
      exact ⟨hrejects,rfl⟩
    | error e =>
      rw [F.rejects_error hd,Bool.not_eq_true'] at h
      obtain ⟨e',hlong,hw⟩ := hF.rejected_append hd h s
      rw [F.rejects_error hlong,F.split_error hlong,F.split_error hd,hw]
      exact ⟨rfl,rfl⟩

/-- As long as no frame is rejected, reading on in two steps is reading on in one. -/
theorem split_append {b : List β} (h : F.rejects b = false) (s : List β) :
    F.rejects (b ++ s) = F.rejects ((F.split b).2 ++ s) ∧
      F.split (b ++ s) = ((F.split b).1 ++ (F.split ((F.split b).2 ++ s)).1,
        (F.split ((F.split b).2 ++ s)).2) := by
  induction hn : b.length using Nat.strongRecOn generalizing b with
  | ind len ih =>
    cases hd : F.decode b with
    | ok r =>
      obtain ⟨a,n⟩ := r
      obtain ⟨hfirst,hrest⟩ := hF.split_accepted hd s
      rw [F.rejects_ok hd] at h
      obtain ⟨hrejects,hsplit⟩ := ih _ (hn ▸ F.drop_length_lt hd) h rfl
      rw [hfirst,hrest,F.split_ok hd,hsplit]
      exact ⟨hrejects,rfl⟩
    | error e =>
      rw [F.rejects_error hd,Bool.not_eq_false'] at h
      rw [F.split_waits hd h]
      exact ⟨rfl,rfl⟩

/-- No stretch that is going on holds a rejected frame. -/
theorem stretches_going (reads : List (List β)) : F.rejects (F.stretches reads).2 = false := by
  induction reads using List.reverseRecOn with
  | nil => exact hF.rejects_nil
  | append_singleton reads chunk ih =>
    rw [F.stretches_concat,stretch]
    split
    · exact hF.rejects_nil
    · rename_i h
      exact Bool.eq_false_iff.mpr h

/-- Each stretch hands on the frames in front of its rejected one, and the last stretch
hands on what is complete and keeps the rest. -/
theorem feedAll_stretches (reads : List (List β)) :
    F.feedAll reads = ((F.stretches reads).1.flatMap (fun b => (F.split b).1) ++
      (F.split (F.stretches reads).2).1,(F.split (F.stretches reads).2).2) := by
  induction reads using List.reverseRecOn with
  | nil =>
    change (([],[]) : List α × List β) = ([] ++ (F.split []).1,(F.split []).2)
    rw [hF.split_nil]
    rfl
  | append_singleton reads chunk ih =>
    obtain ⟨_,hsplit⟩ := hF.split_append (hF.stretches_going reads) chunk
    rw [F.feedAll_concat,ih,F.stretches_concat,feed,stretch]
    split
    · rename_i hrejects
      have hkept : (F.split ((F.split (F.stretches reads).2).2 ++ chunk)).2 = [] := by
        have hdropped := split_rejected hrejects
        rwa [hsplit] at hdropped
      simp only [hsplit,hF.split_nil,hkept,List.flatMap_append,List.flatMap_singleton,
        List.append_nil,List.append_assoc]
    · rw [hsplit,List.append_assoc]

/-- A stream without a rejected frame is one stretch. -/
theorem stretches_clean {reads : List (List β)} (h : F.rejects reads.flatten = false) :
    F.stretches reads = ([],reads.flatten) := by
  induction reads using List.reverseRecOn with
  | nil => rfl
  | append_singleton reads chunk ih =>
    rw [List.flatten_append,List.flatten_singleton] at h ⊢
    have hbefore : F.rejects reads.flatten = false := by
      by_contra hne
      rw [(hF.rejected_append_eq (eq_true_of_ne_false hne) chunk).1] at h
      cases h
    rw [F.stretches_concat,ih hbefore,stretch,h]
    rfl

/-- A stream with a rejected frame: the read that shows it ends the first stretch, and the
reads behind it are fed as to a new loop. -/
theorem feedAll_rejected {reads : List (List β)} (h : F.rejects reads.flatten = true) :
    ∃ before chunk rest, reads = before ++ chunk :: rest ∧ F.rejects before.flatten = false ∧
      F.rejects (before.flatten ++ chunk) = true ∧
      ∀ s : List α, reads.foldl F.feed (s,[]) =
        rest.foldl F.feed (s ++ (F.split reads.flatten).1,[]) := by
  induction reads using List.reverseRecOn with
  | nil =>
    rw [List.flatten_nil,hF.rejects_nil] at h
    cases h
  | append_singleton reads chunk ih =>
    rw [List.flatten_append,List.flatten_singleton] at h ⊢
    cases hbefore : F.rejects reads.flatten with
    | true =>
      obtain ⟨before,chunk',rest,hreads,hclean,hshown,hfeed⟩ := ih hbefore
      refine ⟨before,chunk',rest ++ [chunk],?_,hclean,hshown,fun s => ?_⟩
      · rw [hreads]
        simp only [List.append_assoc,List.cons_append]
      · rw [List.foldl_append,List.foldl_append,hfeed s,(hF.rejected_append_eq hbefore chunk).2]
    | false =>
      refine ⟨reads,chunk,[],rfl,hbefore,h,fun s => ?_⟩
      obtain ⟨_,hsplit⟩ := hF.split_append hbefore chunk
      have hkept : (F.split ((F.split reads.flatten).2 ++ chunk)).2 = [] := by
        have hdropped := split_rejected h
        rwa [hsplit] at hdropped
      have hfed : reads.foldl F.feed ([],[]) = F.split reads.flatten := by
        have hall := hF.feedAll_stretches reads
        rw [hF.stretches_clean hbefore] at hall
        exact hall
      have hpre := F.foldl_feed_append s reads ([],[])
      rw [List.append_nil] at hpre
      rw [List.foldl_append,hpre,hfed,List.foldl_cons,List.foldl_nil,feed,hsplit,hkept,
        List.append_assoc]
      rfl

end Stable
end Framer
end Framing
