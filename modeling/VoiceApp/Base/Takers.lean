import Mathlib.Data.List.Perm.Basic
import VoiceApp.Base.LabelledRun

/-! # Several takers of one queue

Each taker has a hand: it takes the oldest item of a shared queue and passes its image on,
and may be overtaken in between. The images come out in the order of the items as long as
what is in the hands at one time makes the same output.
-/

/-- `sent` is everything ever put into the queue and `taken` counts what was taken from it;
`hands` has what each taker holds. -/
structure Takers (A B : Type) where
  sent : List A
  taken : ℕ
  hands : List (Option A)
  out : List B

namespace Takers
variable {A B : Type}

def new : Takers A B := ⟨[],0,[],[]⟩

inductive Move (A : Type)
  | join
  | send (a : A)
  | take (k : ℕ)
  | pass (k : ℕ)

/-- One step of the senders or of a taker. -/
inductive Step (f : A → Option B) : Takers A B → Move A → Takers A B → Prop
  | join {s} : Step f s .join { s with hands := s.hands ++ [none] }
  | send {s a} : Step f s (.send a) { s with sent := s.sent ++ [a] }
  | take {s k a} (hk : s.hands[k]? = some none) (ha : s.sent[s.taken]? = some a) :
      Step f s (.take k) { s with taken := s.taken + 1, hands := s.hands.set k (some a) }
  | pass {s k a} (hk : s.hands[k]? = some (some a)) :
      Step f s (.pass k) { s with hands := s.hands.set k none, out := s.out ++ (f a).toList }

section Image
variable (f : A → Option B) (s : Takers A B)

/-- The outputs still to come from the hands. -/
def held : List B := s.hands.filterMap fun hand => hand.bind f

/-- The outputs still to come from the queue. -/
def queued : List B := (s.sent.drop s.taken).filterMap f

/-- Nothing is in the queue or in a hand. -/
def Idle : Prop := s.taken = s.sent.length ∧ ∀ hand ∈ s.hands, hand = none

/-- What is taken makes no output, or the same one as everything in the hands. -/
def Careful (s : Takers A B) : Move A → Prop
  | .take _ => ∀ a b, s.sent[s.taken]? = some a → f a = some b → ∀ b' ∈ s.held f, b' = b
  | _ => True

/-- The outputs so far are those of the oldest items, and all that is in the hands makes the
same output. -/
structure InOrder : Prop where
  bounded : s.taken ≤ s.sent.length
  same : ∀ b ∈ s.held f, ∀ b' ∈ s.held f, b = b'
  order : s.out ++ s.held f ++ s.queued f = s.sent.filterMap f

end Image

variable {f : A → Option B} {s s' : Takers A B}

theorem filterMap_set {C : Type} {g : C → Option B} {l : List C} {k : ℕ} {c : C} (c' : C)
    (hk : l[k]? = some c) :
    ((g c).toList ++ (l.set k c').filterMap g).Perm ((g c').toList ++ l.filterMap g) := by
  obtain ⟨hlt,rfl⟩ := List.getElem?_eq_some_iff.mp hk
  have hcons : ∀ c : C, ∀ rest : List C, (c :: rest).filterMap g = (g c).toList ++ rest.filterMap g := by
    intro c rest
    rw [List.filterMap_cons]
    cases g c <;> rfl
  have hset := (List.set_perm_cons_eraseIdx hlt c').filterMap g
  have hold := (List.getElem_cons_eraseIdx_perm hlt).filterMap g
  rw [hcons] at hset hold
  refine (hset.append_left _).trans (List.Perm.trans ?_ (hold.append_left _))
  rw [← List.append_assoc,← List.append_assoc]
  exact List.perm_append_comm.append_right _

theorem queued_send (h : s.taken ≤ s.sent.length) (a : A) :
    queued f { s with sent := s.sent ++ [a] } = s.queued f ++ (f a).toList := by
  rw [queued,List.drop_append_of_le_length h,List.filterMap_append]
  cases hfa : f a <;> simp [hfa,queued]

theorem queued_take {a : A} (ha : s.sent[s.taken]? = some a) :
    s.queued f = (f a).toList ++ (s.sent.drop (s.taken + 1)).filterMap f := by
  obtain ⟨hlt,rfl⟩ := List.getElem?_eq_some_iff.mp ha
  rw [queued,List.drop_eq_getElem_cons hlt,List.filterMap_cons]
  cases f s.sent[s.taken] <;> rfl

/-- A list of equal elements is the only arrangement of them. -/
theorem perm_const {l l' : List B} (h : l.Perm l') (hsame : ∀ b ∈ l, ∀ b' ∈ l, b = b') : l = l' :=
  have hall : ∀ k : List B, k.Pairwise fun _ _ => True := fun _ =>
    List.pairwise_of_forall fun _ _ => trivial
  List.Perm.eq_of_pairwise (fun b b' hb hb' _ _ => hsame b hb b' (h.mem_iff.mpr hb')) (hall l) (hall l') h

theorem inOrder_new : InOrder f (new : Takers A B) :=
  ⟨Nat.le_refl 0,fun b hb => by simp [held,new] at hb,rfl⟩

theorem step_inOrder {move : Move A} (h : s.InOrder f) (hstep : Guarded (Careful f) (Step f) s move s') :
    s'.InOrder f := by
  obtain ⟨hguard,hstep⟩ := hstep
  cases hstep with
  | join =>
    have hheld : held f { s with hands := s.hands ++ [none] } = s.held f := by simp [held]
    refine ⟨h.bounded,?_,?_⟩
    · rw [hheld]
      exact h.same
    · rw [hheld]
      exact h.order
  | @send a =>
    refine ⟨?_,h.same,?_⟩
    · rw [List.length_append]
      exact Nat.le_add_right_of_le h.bounded
    · rw [queued_send h.bounded,← List.append_assoc]
      change s.out ++ s.held f ++ s.queued f ++ _ = _
      rw [h.order,List.filterMap_append]
      cases hfa : f a <;> simp [hfa]
  | @take k a hk ha =>
    have hperm := filterMap_set (g := fun hand : Option A => hand.bind f) (some a) hk
    change (held f { s with taken := s.taken + 1, hands := s.hands.set k (some a) }).Perm
      ((f a).toList ++ s.held f) at hperm
    have hsame : ∀ b ∈ (f a).toList ++ s.held f, ∀ b' ∈ (f a).toList ++ s.held f, b = b' := by
      cases hfa : f a with
      | none => exact h.same
      | some b =>
        have hall : ∀ b' ∈ b :: s.held f, b' = b :=
          List.forall_mem_cons.mpr ⟨rfl,hguard a b ha hfa⟩
        intro b₁ h₁ b₂ h₂
        rw [hall b₁ h₁,hall b₂ h₂]
    have hcomm := perm_const (@List.perm_append_comm B (f a).toList (s.held f)) hsame
    have hheld := perm_const hperm.symm hsame
    refine ⟨(List.getElem?_eq_some_iff.mp ha).1,?_,?_⟩
    · rw [← hheld]
      exact hsame
    · have horder := h.order
      rw [queued_take ha,← List.append_assoc,List.append_assoc s.out,← hcomm,hheld] at horder
      exact horder
  | @pass k a hk =>
    have hperm := filterMap_set (g := fun hand : Option A => hand.bind f) none hk
    change ((f a).toList ++ held f { s with hands := s.hands.set k none,out := s.out ++ (f a).toList }).Perm
      (s.held f) at hperm
    have hheld := perm_const hperm.symm h.same
    refine ⟨h.bounded,?_,?_⟩
    · intro b hb b' hb'
      exact h.same b (hperm.subset (List.mem_append_right _ hb)) b'
        (hperm.subset (List.mem_append_right _ hb'))
    · have horder := h.order
      rw [hheld,← List.append_assoc] at horder
      exact horder

theorem run_inOrder {trace : List (Move A)} (hr : Run (Guarded (Careful f) (Step f)) new trace s) :
    s.InOrder f :=
  hr.preserves (fun _ _ _ h hstep => step_inOrder h hstep) inOrder_new

/-- What has come out are the first outputs, and all of them when nothing is under way. -/
theorem InOrder.out_front (h : s.InOrder f) : s.out <+: s.sent.filterMap f := by
  rw [← h.order,List.append_assoc]
  exact List.prefix_append _ _

theorem InOrder.out_eq (h : s.InOrder f) (hidle : s.Idle) : s.out = s.sent.filterMap f := by
  have hnone : s.held f = [] := List.filterMap_eq_nil_iff.mpr fun hand hmem => by
    rw [hidle.2 hand hmem]
    rfl
  have hempty : s.queued f = [] := by
    rw [queued,hidle.1,List.drop_length]
    rfl
  rw [← h.order,hnone,hempty,List.append_nil,List.append_nil]

/-- An item that is taken and passed on at once keeps the order exactly if it was taken
carefully. -/
theorem careful_iff (h : s.InOrder f) {k : ℕ} (hstep : Step f s (.take k) s') :
    Careful f s (.take k) ↔ ∀ t, Step f s' (.pass k) t → t.out <+: t.sent.filterMap f := by
  constructor
  · intro hcareful t hpass
    have hpassed : Guarded (Careful f) (Step f) s' (.pass k) t := ⟨trivial,hpass⟩
    exact (step_inOrder (step_inOrder h ⟨hcareful,hstep⟩) hpassed).out_front
  · intro hall a b ha hfa b' hb'
    cases hstep with
    | @take _ a' hk ha' =>
      cases ha.symm.trans ha'
      have hlt := (List.getElem?_eq_some_iff.mp hk).1
      have hout := hall _ (.pass (List.getElem?_set_self hlt))
      change s.out ++ (f a).toList <+: s.sent.filterMap f at hout
      rw [hfa,← h.order,List.append_assoc,List.prefix_append_right_inj] at hout
      -- the oldest output is that of the hands
      obtain ⟨b₀,rest,hheld⟩ := List.exists_cons_of_ne_nil (List.ne_nil_of_mem hb')
      rw [hheld] at hout
      have hfirst := (List.cons_prefix_cons.mp hout).1
      rw [hfirst]
      exact h.same b' hb' b₀ (by rw [hheld]; exact List.mem_cons_self)

end Takers
