import Mathlib.Data.List.Forall2
import Mathlib.Data.List.Induction

/-! # Frames cut out of a byte stream

A receive loop keeps a buffer, appends what a read delivers, and hands on frames as
long as the decoder accepts one at the front. On an error it either waits with the
buffer kept or drops the buffer. The loop is written over an arbitrary monad, so
that the handler of a frame may fail, block or write.
-/
namespace Framing

theorem exists_of_mem_right {α β : Type} {r : α → β → Prop} {as : List α} {bs : List β}
    (h : List.Forall₂ r as bs) {b : β} (hb : b ∈ bs) : ∃ a ∈ as, r a b := by
  induction h with
  | nil => cases hb
  | cons hhead _ ih =>
    rcases List.mem_cons.mp hb with rfl | hb
    · exact ⟨_,List.mem_cons_self,hhead⟩
    · obtain ⟨a,ha,hr⟩ := ih hb
      exact ⟨a,List.mem_cons_of_mem _ ha,hr⟩

/-- A decoder of one frame at the front of a buffer; a frame is never empty. -/
structure Framer (β α ε : Type) where
  decode : List β → Except ε (α × ℕ)
  waits : ε → Bool
  decode_pos : ∀ {b a n}, decode b = .ok (a,n) → 0 < n
  decode_le : ∀ {b a n}, decode b = .ok (a,n) → n ≤ b.length

namespace Framer
variable {β α ε : Type} (F : Framer β α ε)

theorem drop_length_lt {b : List β} {a : α} {n : ℕ} (h : F.decode b = .ok (a,n)) :
    (b.drop n).length < b.length := by
  have hpos := F.decode_pos h
  have hle := F.decode_le h
  rw [List.length_drop]
  omega

/-- The frames at the front of a buffer, and the bytes kept after them. -/
def split (b : List β) : List α × List β :=
  match _h : F.decode b with
  | .ok (a,n) => (a :: (split (b.drop n)).1,(split (b.drop n)).2)
  | .error e => ([],if F.waits e then b else [])
termination_by b.length
decreasing_by all_goals exact F.drop_length_lt _h

theorem split_ok {b : List β} {a : α} {n : ℕ} (h : F.decode b = .ok (a,n)) :
    F.split b = (a :: (F.split (b.drop n)).1,(F.split (b.drop n)).2) := by
  rw [split]
  split
  · rename_i he
    cases h.symm.trans he
    rfl
  · rename_i he
    cases h.symm.trans he

theorem split_error {b : List β} {e : ε} (h : F.decode b = .error e) :
    F.split b = ([],if F.waits e then b else []) := by
  rw [split]
  split
  · rename_i he
    cases h.symm.trans he
  · rename_i he
    cases h.symm.trans he
    rfl

theorem split_waits {b : List β} {e : ε} (h : F.decode b = .error e) (hw : F.waits e = true) :
    F.split b = ([],b) := by
  rw [F.split_error h,if_pos hw]

/-- One read of the outer loop: frames handed on so far, and the kept bytes. -/
def feed (s : List α × List β) (chunk : List β) : List α × List β :=
  (s.1 ++ (F.split (s.2 ++ chunk)).1,(F.split (s.2 ++ chunk)).2)

def feedAll (reads : List (List β)) : List α × List β := reads.foldl F.feed ([],[])

theorem feedAll_concat (reads : List (List β)) (chunk : List β) :
    F.feedAll (reads ++ [chunk]) = F.feed (F.feedAll reads) chunk := by
  rw [feedAll,List.foldl_append]
  rfl

/-- Frames handed on before make no difference to the reads that follow. -/
theorem foldl_feed_append (before : List α) (reads : List (List β)) (s : List α × List β) :
    reads.foldl F.feed (before ++ s.1,s.2) =
      (before ++ (reads.foldl F.feed s).1,(reads.foldl F.feed s).2) := by
  induction reads generalizing s with
  | nil => rfl
  | cons chunk rest ih =>
    rw [List.foldl_cons,List.foldl_cons,← ih (F.feed s chunk),feed,feed,List.append_assoc]

section Loop
variable {m : Type → Type} [Monad m] (deliver : α → m Unit)

/-- The inner loop of a receiver: hand on every frame at the front of the buffer. -/
def drain (b : List β) : m (List β) :=
  match _h : F.decode b with
  | .ok (a,n) => do
    deliver a
    drain (b.drop n)
  | .error e => pure (if F.waits e then b else [])
termination_by b.length
decreasing_by all_goals exact F.drop_length_lt _h

theorem drain_ok {b : List β} {a : α} {n : ℕ} (h : F.decode b = .ok (a,n)) :
    F.drain deliver b = (do
      deliver a
      F.drain deliver (b.drop n)) := by
  rw [drain]
  split
  · rename_i he
    cases h.symm.trans he
    rfl
  · rename_i he
    cases h.symm.trans he

theorem drain_error {b : List β} {e : ε} (h : F.decode b = .error e) :
    F.drain deliver b = pure (if F.waits e then b else []) := by
  rw [drain]
  split
  · rename_i he
    cases h.symm.trans he
  · rename_i he
    cases h.symm.trans he
    rfl

/-- The outer loop over the reads, starting from an empty buffer. -/
def receive (reads : List (List β)) : m (List β) :=
  reads.foldlM (fun buf chunk => F.drain deliver (buf ++ chunk)) []

variable [LawfulMonad m]

/-- Whatever handling a frame does, the loop handles the split in order and keeps
the remainder. -/
theorem drain_eq (b : List β) :
    F.drain deliver b = (do
      forM (F.split b).1 deliver
      pure (F.split b).2) := by
  induction hn : b.length using Nat.strongRecOn generalizing b with
  | ind len ih =>
    cases h : F.decode b with
    | ok r =>
      obtain ⟨a,n⟩ := r
      have hlt := F.drop_length_lt h
      rw [F.drain_ok deliver h,F.split_ok h,ih _ (hn ▸ hlt) (b.drop n) rfl]
      simp only [List.forM_cons,bind_assoc]
    | error e =>
      rw [F.drain_error deliver h,F.split_error h]
      simp only [List.forM_nil,pure_bind]

theorem receive_eq (reads : List (List β)) :
    F.receive deliver reads = (do
      forM (F.feedAll reads).1 deliver
      pure (F.feedAll reads).2) := by
  induction reads using List.reverseRecOn with
  | nil => simp only [receive,feedAll,List.foldlM_nil,List.foldl_nil,List.forM_nil,pure_bind]
  | append_singleton reads chunk ih =>
    rw [receive] at ih
    rw [receive,List.foldlM_append,ih,F.feedAll_concat]
    simp only [List.foldlM_cons,List.foldlM_nil,bind_pure,bind_assoc,pure_bind,F.drain_eq,feed,
      List.forM_append]

end Loop

/-! ## Well-formed streams -/

/-- `enc` writes frames that the decoder takes whole, and waits for when cut. -/
structure Encodes (enc : α → Option (List β)) : Prop where
  decode_append : ∀ {a w}, enc a = some w → ∀ s, F.decode (w ++ s) = .ok (a,w.length)
  decode_cut : ∀ {a w b}, enc a = some w → b <+: w → b.length < w.length →
    ∃ e, F.decode b = .error e ∧ F.waits e = true
  decode_nil : ∃ e, F.decode [] = .error e ∧ F.waits e = true

variable {F} {enc : α → Option (List β)}

/-- The encodings of a list of frames. -/
abbrev Encoded (enc : α → Option (List β)) : List α → List (List β) → Prop :=
  List.Forall₂ fun a w => enc a = some w

/-- An initial part of a stream is empty, inside its first frame, or past it. -/
theorem stream_front {w b rest : List β} (h : b <+: w ++ rest) :
    (b <+: w ∧ b.length < w.length) ∨ ∃ b', b = w ++ b' ∧ b' <+: rest := by
  obtain ⟨t,ht⟩ := h
  by_cases hlt : b.length < w.length
  · left
    have hp : b <+: w := List.prefix_of_prefix_length_le ⟨t,ht⟩ (List.prefix_append w rest) (by omega)
    exact ⟨hp,hlt⟩
  · right
    have hp : w <+: b :=
      List.prefix_of_prefix_length_le (List.prefix_append w rest) ⟨t,ht⟩ (by omega)
    obtain ⟨b',rfl⟩ := hp
    refine ⟨b',rfl,t,?_⟩
    rw [List.append_assoc] at ht
    exact List.append_cancel_left ht

theorem Encodes.split_append (hF : F.Encodes enc) {a : α} {w : List β} (h : enc a = some w)
    (s : List β) : F.split (w ++ s) = (a :: (F.split s).1,(F.split s).2) := by
  rw [F.split_ok (hF.decode_append h s),List.drop_left]

theorem Encodes.split_cut (hF : F.Encodes enc) {a : α} {w b : List β} (h : enc a = some w)
    (hp : b <+: w) (hlt : b.length < w.length) : F.split b = ([],b) := by
  obtain ⟨e,he,hw⟩ := hF.decode_cut h hp hlt
  exact F.split_waits he hw

theorem Encodes.split_nil (hF : F.Encodes enc) : F.split [] = ([],[]) := by
  obtain ⟨e,he,hw⟩ := hF.decode_nil
  exact F.split_waits he hw

/-- Reading on in two steps is reading on in one. -/
theorem Encodes.split_more (hF : F.Encodes enc) {as : List α} {ws : List (List β)}
    (h : Encoded enc as ws) {b chunk : List β} (hb : b ++ chunk <+: ws.flatten) :
    F.split (b ++ chunk) =
      ((F.split b).1 ++ (F.split ((F.split b).2 ++ chunk)).1,(F.split ((F.split b).2 ++ chunk)).2) := by
  induction h generalizing b with
  | nil =>
    obtain ⟨rfl,rfl⟩ := List.append_eq_nil_iff.mp (List.prefix_nil.mp hb)
    simp only [List.append_nil,hF.split_nil]
  | cons ha _ ih =>
    rw [List.flatten_cons] at hb
    rcases stream_front ((List.prefix_append b chunk).trans hb) with ⟨hp,hlt⟩ | ⟨b',rfl,_⟩
    · simp only [hF.split_cut ha hp hlt,List.nil_append]
    · rw [List.append_assoc] at hb
      have hi := ih ((List.prefix_append_right_inj _).mp hb)
      rw [List.append_assoc,hF.split_append ha,hF.split_append ha,hi]
      rfl

/-- What has been handed on and what is kept, `k` frames into a stream. -/
structure Reached (as : List α) (ws : List (List β)) (b : List β) (k : ℕ) (kept : List β) : Prop where
  le : k ≤ as.length
  bytes : (ws.take k).flatten ++ kept = b
  cut : ∀ w, ws[k]? = some w → kept.length < w.length
  all : k = as.length → kept = []

/-- At the end of the stream everything has been handed on. -/
theorem Reached.complete {as : List α} {ws : List (List β)} {k : ℕ} {kept : List β}
    (h : Reached as ws ws.flatten k kept) (hlen : as.length = ws.length) :
    k = as.length ∧ kept = [] := by
  have hk : k = as.length := by
    by_contra hne
    have hlt : k < ws.length := by
      have := h.le
      omega
    have hkept : kept = (ws.drop k).flatten := by
      have hb := h.bytes
      rw [← List.take_append_drop k ws,List.flatten_append,List.take_left' (by simp; omega)] at hb
      exact List.append_cancel_left hb
    have hcut := h.cut ws[k] (List.getElem?_eq_getElem hlt)
    rw [hkept,List.drop_eq_getElem_cons hlt,List.flatten_cons,List.length_append] at hcut
    omega
  exact ⟨hk,h.all hk⟩

/-- Exactly the frames whose last byte has arrived are split off. -/
theorem Encodes.split_stream (hF : F.Encodes enc) {as : List α} {ws : List (List β)}
    (h : Encoded enc as ws) {b : List β} (hb : b <+: ws.flatten) :
    ∃ k kept, F.split b = (as.take k,kept) ∧ Reached as ws b k kept := by
  induction h generalizing b with
  | nil =>
    obtain rfl := List.prefix_nil.mp hb
    exact ⟨0,[],hF.split_nil,⟨Nat.le_refl 0,rfl,by simp,fun _ => rfl⟩⟩
  | cons ha _ ih =>
    rw [List.flatten_cons] at hb
    rcases stream_front hb with ⟨hp,hlt⟩ | ⟨b',rfl,hb'⟩
    · refine ⟨0,b,hF.split_cut ha hp hlt,⟨Nat.zero_le _,rfl,?_,fun h0 => by cases h0⟩⟩
      intro w hw
      cases hw
      exact hlt
    · obtain ⟨k,kept,hs,hr⟩ := ih hb'
      refine ⟨k + 1,kept,by rw [hF.split_append ha,hs]; rfl,?_⟩
      refine ⟨Nat.succ_le_succ hr.le,?_,hr.cut,fun hk => hr.all (Nat.succ.inj hk)⟩
      rw [List.take_succ_cons,List.flatten_cons,List.append_assoc,hr.bytes]

/-- However a well-formed stream is cut into reads, feeding them splits the bytes
received so far. -/
theorem Encodes.feedAll_eq (hF : F.Encodes enc) {as : List α} {ws : List (List β)}
    (h : Encoded enc as ws) {reads : List (List β)} (hr : reads.flatten <+: ws.flatten) :
    F.feedAll reads = F.split reads.flatten := by
  induction reads using List.reverseRecOn with
  | nil => exact hF.split_nil.symm
  | append_singleton reads chunk ih =>
    rw [List.flatten_append,List.flatten_singleton] at hr ⊢
    rw [F.feedAll_concat,ih ((List.prefix_append _ _).trans hr),hF.split_more h hr]
    rfl

end Framer
end Framing
