import Mathlib.Logic.Basic

/-! # Programs made of atomic operations

A program either returns or asks for one operation and goes on with its answer, so that
other programs may run between any two operations. Reasoning about one program among
many is by rely and guarantee over a ghost state of its own: between two operations the
ghost state may drift along the rely relation, and at each operation the proof names the
ghost state after it.
-/

/-- A program over operations `Op`, each with its own type of answers. -/
inductive Proc (Op : Type) (Res : Op → Type) (A : Type) : Type
  | ret (a : A)
  | op (o : Op) (k : Res o → Proc Op Res A)

namespace Proc
variable {Op : Type} {Res : Op → Type} {A B : Type}

protected def bind : Proc Op Res A → (A → Proc Op Res B) → Proc Op Res B
  | ret a, f => f a
  | op o k, f => op o fun r => (k r).bind f

instance : Monad (Proc Op Res) where
  pure := ret
  bind := Proc.bind

/-- Ask for one operation. -/
def call (o : Op) : Proc Op Res (Res o) := op o ret

@[simp] theorem pure_eq (a : A) : (pure a : Proc Op Res A) = ret a := rfl

@[simp] theorem ret_bind (a : A) (f : A → Proc Op Res B) : ret a >>= f = f a := rfl

@[simp] theorem op_bind (o : Op) (k : Res o → Proc Op Res A) (f : A → Proc Op Res B) :
    op o k >>= f = op o fun r => k r >>= f := rfl

@[simp] theorem call_bind (o : Op) (f : Res o → Proc Op Res B) : call o >>= f = op o f := rfl

theorem bind_ret (p : Proc Op Res A) : p >>= ret = p := by
  induction p with
  | ret a => rfl
  | op o k ih =>
    rw [op_bind]
    exact congrArg (op o) (funext ih)

theorem bind_bind {C : Type} (p : Proc Op Res A) (f : A → Proc Op Res B) (g : B → Proc Op Res C) :
    p >>= f >>= g = p >>= fun a => f a >>= g := by
  induction p with
  | ret a => rfl
  | op o k ih =>
    simp only [op_bind]
    exact congrArg (op o) (funext ih)

instance : LawfulMonad (Proc Op Res) :=
  LawfulMonad.mk' (Proc Op Res) (fun p => bind_ret p) (fun _ _ => rfl) bind_bind

/-- Answers among those admitted lead the program to this operation. -/
inductive Reaches (admits : (o : Op) → Res o → Prop) : Proc Op Res A → Op → Prop
  | here {o k} : Reaches admits (op o k) o
  | there {o o' k} (r : Res o) (hr : admits o r) (h : Reaches admits (k r) o') :
      Reaches admits (op o k) o'

section Reaches
variable {admits : (o : Op) → Res o → Prop}

@[simp] theorem reaches_ret (a : A) (o : Op) : ¬ Reaches admits (ret a : Proc Op Res A) o := by
  rintro ⟨⟩

@[simp] theorem reaches_op (o o' : Op) (k : Res o → Proc Op Res A) :
    Reaches admits (op o k) o' ↔ o = o' ∨ ∃ r, admits o r ∧ Reaches admits (k r) o' := by
  constructor
  · intro h
    cases h with
    | here => exact .inl rfl
    | there r hr h => exact .inr ⟨r,hr,h⟩
  · rintro (rfl | ⟨r,hr,h⟩)
    · exact .here
    · exact .there r hr h

/-- What a first part does not reach is reached after one of its results. -/
theorem Reaches.of_bind {p : Proc Op Res A} {f : A → Proc Op Res B} {o : Op}
    (h : Reaches admits (p >>= f) o) : Reaches admits p o ∨ ∃ a, Reaches admits (f a) o := by
  induction p with
  | ret a => exact .inr ⟨a,h⟩
  | op o' k ih =>
    rw [op_bind,reaches_op] at h
    rcases h with rfl | ⟨r,hr,h⟩
    · exact .inl .here
    · exact (ih r h).imp (.there r hr) id

theorem Reaches.of_mapM {C : Type} {f : C → Proc Op Res A} {o : Op} {l : List C}
    (h : Reaches admits (l.mapM f) o) : ∃ c ∈ l, Reaches admits (f c) o := by
  induction l with
  | nil => exact (reaches_ret _ _ h).elim
  | cons c rest ih =>
    rw [List.mapM_cons] at h
    rcases h.of_bind with h | ⟨a,h⟩
    · exact ⟨c,List.mem_cons_self,h⟩
    · rcases h.of_bind with h | ⟨as,h⟩
      · obtain ⟨c',hmem,h⟩ := ih h
        exact ⟨c',List.mem_cons_of_mem c hmem,h⟩
      · exact (reaches_ret _ _ h).elim

end Reaches

/-- From the state the program performs operations with nothing in between, until this much
of it is left in that state. -/
inductive Alone {S : Type} (answers : S → (o : Op) → Res o → Prop) (act : S → Op → S) :
    S → Proc Op Res A → S → Proc Op Res A → Prop
  | refl {s p} : Alone answers act s p s p
  | op {s o k s' p'} (r : Res o) (hr : answers s o r) (h : Alone answers act (act s o) (k r) s' p') :
      Alone answers act s (op o k) s' p'

section Alone
variable {S : Type} {answers : S → (o : Op) → Res o → Prop} {act : S → Op → S} {s s' : S}
  {o o' : Op} {k : Res o → Proc Op Res A} {k' : Res o' → Proc Op Res A}

theorem Alone.ret {a : A} (h : Alone answers act s (.ret a) s' (.op o' k')) : False := by
  cases h

/-- The next operation is performed, or it is the one that is waited for. -/
theorem Alone.step (h : Alone answers act s (.op o k) s' (.op o' k')) :
    o = o' ∧ s' = s ∨ ∃ r, answers s o r ∧ Alone answers act (act s o) (k r) s' (.op o' k') := by
  cases h with
  | refl => exact .inl ⟨rfl,rfl⟩
  | op r hr h => exact .inr ⟨r,hr,h⟩

theorem Alone.trans {p p' p'' : Proc Op Res A} {s'' : S} (h : Alone answers act s p s' p')
    (h' : Alone answers act s' p' s'' p'') : Alone answers act s p s'' p'' := by
  induction h with
  | refl => exact h'
  | op r hr _ ih => exact .op r hr (ih h')

end Alone

end Proc

/-- What a program may rely on and must keep to, in terms of its ghost state `G`:
`answers g o r` when `r` is a possible answer, `effect g o r g'` when the operation is
allowed and `g'` is a ghost state to go on from. -/
structure Discipline (Op : Type) (Res : Op → Type) (G : Type) where
  rely : G → G → Prop
  answers : G → (o : Op) → Res o → Prop
  effect : G → (o : Op) → Res o → G → Prop
  rely_refl : ∀ g, rely g g
  rely_trans : ∀ {g g' g''}, rely g g' → rely g' g'' → rely g g''

namespace Discipline
variable {Op : Type} {Res : Op → Type} {G A B : Type} (D : Discipline Op Res G)

/-- From the ghost state every operation of the program is allowed, whatever the others
do in between, and every result satisfies `post`. -/
def wp (post : A → G → Prop) : Proc Op Res A → G → Prop
  | .ret a, g => ∀ g', D.rely g g' → post a g'
  | .op o k, g => ∀ g', D.rely g g' → ∀ r, D.answers g' o r →
      ∃ g'', D.effect g' o r g'' ∧ wp post (k r) g''

variable {D} {post post' : A → G → Prop} {g g' : G} {p : Proc Op Res A}

theorem wp_stable (h : D.wp post p g) (hr : D.rely g g') : D.wp post p g' := by
  cases p with
  | ret a => exact fun g'' hr' => h g'' (D.rely_trans hr hr')
  | op o k => exact fun g'' hr' => h g'' (D.rely_trans hr hr')

theorem wp_mono (hpost : ∀ a g, post a g → post' a g) (h : D.wp post p g) : D.wp post' p g := by
  induction p generalizing g with
  | ret a => exact fun g' hr => hpost a g' (h g' hr)
  | op o k ih =>
    intro g' hr r hans
    obtain ⟨g'',heff,hk⟩ := h g' hr r hans
    exact ⟨g'',heff,ih r hk⟩

theorem wp_bind {post : B → G → Prop} {f : A → Proc Op Res B}
    (h : D.wp (fun a g => D.wp post (f a) g) p g) : D.wp post (p >>= f) g := by
  induction p generalizing g with
  | ret a => exact h g (D.rely_refl g)
  | op o k ih =>
    intro g' hr r hans
    obtain ⟨g'',heff,hk⟩ := h g' hr r hans
    exact ⟨g'',heff,ih r hk⟩

/-- The next operation, with nothing in between. -/
theorem wp_op {o : Op} {k : Res o → Proc Op Res A} {r : Res o} (h : D.wp post (.op o k) g)
    (hans : D.answers g o r) : ∃ g', D.effect g o r g' ∧ D.wp post (k r) g' :=
  h g (D.rely_refl g) r hans

/-- Results that are stable under the rely need no drifting. -/
theorem wp_ret {a : A} (hstable : ∀ g g', D.rely g g' → post a g → post a g') (h : post a g) :
    D.wp post (.ret a) g :=
  fun g' hr => hstable g g' hr h

/-- A loop over a list keeps an invariant on what is left of the list. -/
theorem wp_forM {f : A → Proc Op Res PUnit} (I : List A → G → Prop)
    (hstable : ∀ l g g', D.rely g g' → I l g → I l g')
    (hstep : ∀ a rest g, I (a :: rest) g → D.wp (fun _ g => I rest g) (f a) g) :
    ∀ l g, I l g → D.wp (fun _ g => I [] g) (forM l f) g := by
  intro l
  induction l with
  | nil =>
    intro g h
    exact wp_ret (hstable []) h
  | cons a rest ih =>
    intro g h
    rw [List.forM_cons]
    exact wp_bind (wp_mono (fun _ g h => ih g h) (hstep a rest g h))

/-- A list of programs keeps an invariant on what is left of the list and on the results
so far. -/
theorem wp_mapM {C : Type} {f : C → Proc Op Res A} (I : List C → List A → G → Prop)
    (hstable : ∀ l as g g', D.rely g g' → I l as g → I l as g')
    (hstep : ∀ c rest as g, I (c :: rest) as g → D.wp (fun a g => I rest (as ++ [a]) g) (f c) g) :
    ∀ l as g, I l as g → D.wp (fun as' g => I [] (as ++ as') g) (l.mapM f) g := by
  intro l
  induction l with
  | nil =>
    intro as g h
    rw [List.mapM_nil]
    refine wp_ret (fun g g' => hstable [] (as ++ []) g g') ?_
    rwa [List.append_nil]
  | cons c rest ih =>
    intro as g h
    rw [List.mapM_cons]
    refine wp_bind (wp_mono (fun a g h => ?_) (hstep c rest as g h))
    refine wp_bind (wp_mono (fun as' g h => ?_) (ih (as ++ [a]) g h))
    rw [List.append_assoc] at h
    exact wp_ret (fun g g' => hstable [] (as ++ a :: as') g g') h

end Discipline
