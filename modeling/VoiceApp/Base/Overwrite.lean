import Mathlib.Data.List.Infix

/-! # Replaying a log on top of a newer value

A value changes by actions that are logged in order. Somebody who takes the value late
and then replays older entries of the log ends up with the value again, if every action
overwrites what it writes. No order between taking the value and the entries is needed.
-/

section Overwrite
variable {E X : Type} {act : X → E → X} {e : E} {log : List E} {x : X}

/-- What `e` leaves behind depends only on a part of the value that `e` itself keeps and
that every action changes on its own terms; the part is given by its kernel `R`. -/
def Overwrites (act : X → E → X) (e : E) : Prop :=
  ∃ R : X → X → Prop, (∀ x, R (act x e) x) ∧ (∀ o a b, R a b → R (act a o) (act b o)) ∧
    ∀ a b, R a b → act a e = act b e

/-- Replaying any last part of the log does not change the value. -/
def Replayable (act : X → E → X) (log : List E) (x : X) : Prop :=
  ∀ tail, tail <:+ log → tail.foldl act x = x

namespace Overwrites

/-- An action that assigns the whole value. -/
theorem of_const (h : ∀ a b, act a e = act b e) : Overwrites act e :=
  ⟨fun _ _ => True,fun _ => trivial,fun _ _ _ _ => trivial,fun a b _ => h a b⟩

/-- An action that does nothing. -/
theorem of_id (h : ∀ a, act a e = a) : Overwrites act e :=
  ⟨Eq,h,fun o _ _ hab => congrArg (fun a => act a o) hab,fun _ _ hab => congrArg (act · e) hab⟩

/-- An action that assigns everything outside a view of the value. -/
theorem of_view {Y : Type} (view : X → Y) (hkeep : ∀ x, view (act x e) = view x)
    (hact : ∀ o a b, view a = view b → view (act a o) = view (act b o))
    (hview : ∀ a b, view a = view b → act a e = act b e) : Overwrites act e :=
  ⟨fun a b => view a = view b,hkeep,hact,hview⟩

end Overwrites

namespace Replayable

theorem nil : Replayable act [] x := by
  intro tail htail
  rw [List.suffix_nil.mp htail]
  rfl

/-- One more action, applied and logged. -/
theorem snoc (h : Replayable act log x) (he : Overwrites act e) :
    Replayable act (log ++ [e]) (act x e) := by
  obtain ⟨R,hkeep,hact,heq⟩ := he
  intro tail htail
  rcases List.suffix_concat_iff.mp htail with rfl | ⟨before,rfl,hbefore⟩
  · rfl
  · have hrel : R (before.foldl act (act x e)) (before.foldl act x) :=
      List.foldl_rel (hkeep x) fun o _ a b => hact o a b
    rw [h before hbefore] at hrel
    rw [List.foldl_append]
    exact heq _ _ hrel

theorem append {more : List E} (h : Replayable act log x) (he : ∀ e ∈ more, Overwrites act e) :
    Replayable act (log ++ more) (more.foldl act x) := by
  induction more generalizing log x with
  | nil => rwa [List.append_nil]
  | cons e rest ih =>
    have hnext := ih (h.snoc (he e List.mem_cons_self)) fun o ho => he o (List.mem_cons_of_mem e ho)
    rwa [List.append_assoc] at hnext

end Replayable
end Overwrite
