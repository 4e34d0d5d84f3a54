import VoiceApp.Base.LabelledRun

/-! # A value that is written back

A value is kept in memory and is stored from time to time. A flag says that it may differ
from what is stored: a change sets it, and so does a write that fails, which may leave
anything behind.
-/

/-- `stored` is what the store reads as, if it can be read. -/
structure WriteBack (V : Type) where
  value : V
  dirty : Bool
  stored : Option V

namespace WriteBack
variable {V : Type} {w w' : WriteBack V}

inductive Action (V : Type)
  | change (value : V)
  | written
  | failed (left : Option V)

inductive Step (w : WriteBack V) : Action V → WriteBack V → Prop
  | change (value : V) : Step w (.change value) ⟨value,true,w.stored⟩
  | written : Step w .written ⟨w.value,false,some w.value⟩
  | failed (left : Option V) : Step w (.failed left) ⟨w.value,true,left⟩

/-- What is not stored is marked. -/
def Kept (w : WriteBack V) : Prop := w.dirty = true ∨ w.stored = some w.value

theorem Kept.stored (h : w.Kept) (hclean : w.dirty = false) : w.stored = some w.value := by
  simpa [Kept,hclean] using h

/-- Whatever is done to the value. -/
theorem step_kept {action : Action V} (hstep : Step w action w') : w'.Kept := by
  cases hstep with
  | change => exact .inl rfl
  | written => exact .inr rfl
  | failed => exact .inl rfl

/-- In every run from a value that is stored or marked. -/
theorem run_kept {actions : List (Action V)} (h : Run Step w actions w') (h0 : w.Kept) : w'.Kept := by
  apply Run.preserves _ h h0
  intro t action u _ hstep
  exact step_kept hstep

end WriteBack
