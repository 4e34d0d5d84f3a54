import Mathlib.Data.List.Induction

/-! # Runs of labelled transition systems

A run is the list of labels along it, newest last, so that a statement about a run
may refer to its whole history. Restricting a system to steps that meet a condition
gives the runs in which every step meets it.
-/

variable {S L : Type}

/-- `Run step s trace t`: from `s` the labels of `trace` lead to `t`. -/
inductive Run (step : S → L → S → Prop) (s : S) : List L → S → Prop
  | refl : Run step s [] s
  | snoc {trace t label u} (hr : Run step s trace t) (hs : step t label u) :
      Run step s (trace ++ [label]) u

/-- The steps of a system that meet a condition on the state and the label. -/
def Guarded (guard : S → L → Prop) (step : S → L → S → Prop) (s : S) (label : L) (t : S) : Prop :=
  guard s label ∧ step s label t

namespace Run
variable {step : S → L → S → Prop} {s t u : S}

theorem single {label : L} (h : step s label t) : Run step s [label] t := Run.snoc .refl h

/-- Cut a run in front of any part of its trace. -/
theorem split {pre post : List L} (h : Run step s (pre ++ post) u) :
    ∃ t, Run step s pre t ∧ Run step t post u := by
  induction post using List.reverseRecOn generalizing u with
  | nil => exact ⟨u,by simpa using h,.refl⟩
  | append_singleton post label ih =>
    rw [← List.append_assoc] at h
    generalize htrace : pre ++ post ++ [label] = trace at h
    cases h with
    | refl => simp at htrace
    | snoc hr hs =>
      obtain ⟨rfl,he⟩ := List.append_inj' htrace rfl
      cases he
      obtain ⟨t,hpre,hpost⟩ := ih hr
      exact ⟨t,hpre,hpost.snoc hs⟩

theorem append {pre post : List L} (h : Run step s pre t) (h' : Run step t post u) :
    Run step s (pre ++ post) u := by
  induction h' with
  | refl =>
    rw [List.append_nil]
    exact h
  | snoc _ hs ih =>
    rw [← List.append_assoc]
    exact ih.snoc hs

theorem nil_eq (h : Run step s [] t) : s = t := by
  generalize htrace : ([] : List L) = trace at h
  cases h with
  | refl => rfl
  | snoc => simp at htrace

theorem single_step {label : L} (h : Run step s [label] t) : step s label t := by
  generalize htrace : [label] = one at h
  cases h with
  | refl => cases htrace
  | snoc hr hs =>
    have hinj := List.append_inj' (show [] ++ [label] = _ from htrace) rfl
    obtain ⟨hnil,hone⟩ := hinj
    cases hone
    rw [← hnil] at hr
    rw [hr.nil_eq]
    exact hs

/-- The step taken at a given point of a run. -/
theorem step_at {pre post : List L} {label : L} (h : Run step s (pre ++ label :: post) u) :
    ∃ t t', Run step s pre t ∧ step t label t' ∧ Run step t' post u := by
  obtain ⟨t,hpre,hrest⟩ := h.split
  have hcons : label :: post = [label] ++ post := rfl
  rw [hcons] at hrest
  obtain ⟨t',hone,hpost⟩ := hrest.split
  exact ⟨t,t',hpre,hone.single_step,hpost⟩

/-- In the run to `u` the step `label` is taken from `t`, after `pre`. -/
def At (step : S → L → S → Prop) (s : S) (trace : List L) (u : S) (pre : List L) (t : S)
    (label : L) : Prop :=
  ∃ post, trace = pre ++ label :: post ∧ Run step s pre t ∧ Run step t (label :: post) u

theorem At.before {trace pre : List L} {label : L} (h : At step s trace u pre t label) :
    Run step s pre t := by
  obtain ⟨post,_,hpre,_⟩ := h
  exact hpre

theorem At.taken {trace pre : List L} {label : L} (h : At step s trace u pre t label) :
    ∃ t', step t label t' := by
  obtain ⟨post,_,_,hpost⟩ := h
  have hcut : Run step t ([] ++ label :: post) u := hpost
  obtain ⟨t0,t',hnil,hone,_⟩ := hcut.step_at
  rw [hnil.nil_eq]
  exact ⟨t',hone⟩

/-- What holds at the end of a run and not at its start has come about in one of its steps. -/
theorem introduced {P : S → Prop} {trace : List L} (h : Run step s trace u) (h0 : ¬P s) (hu : P u) :
    ∃ pre label post t t', trace = pre ++ label :: post ∧ Run step s pre t ∧ step t label t' ∧
      Run step t' post u ∧ ¬P t ∧ P t' := by
  induction h with
  | refl => exact (h0 hu).elim
  | @snoc trace t label u hr hs ih =>
    by_cases ht : P t
    · obtain ⟨pre,label',post,v,v',rfl,hpre,hone,hpost,hv,hv'⟩ := ih ht
      exact ⟨pre,label',post ++ [label],v,v',by simp,hpre,hone,hpost.snoc hs,hv,hv'⟩
    · exact ⟨trace,label,[],t,u,rfl,hr,hs,.refl,ht,hu⟩

/-- What every step preserves, a run preserves. -/
theorem preserves {P : S → Prop} (hstep : ∀ t label u, P t → step t label u → P u)
    {trace : List L} (h : Run step s trace t) (h0 : P s) : P t := by
  induction h with
  | refl => exact h0
  | snoc _ hs ih => exact hstep _ _ _ ih hs

/-- Every label of a run is that of a step. -/
theorem taken {trace : List L} (h : Run step s trace t) {label : L} (hmem : label ∈ trace) :
    ∃ u v, step u label v := by
  obtain ⟨pre,post,rfl⟩ := List.append_of_mem hmem
  obtain ⟨u,v,_,hone,_⟩ := h.step_at
  exact ⟨u,v,hone⟩

/-- A component of the state takes the steps whose labels `g` gives it, and stays as it is
in the others. -/
theorem project {T M : Type} {step' : T → M → T → Prop} (f : S → T) (g : L → Option M)
    (hown : ∀ {t label u m}, step t label u → g label = some m → step' (f t) m (f u))
    (hother : ∀ {t label u}, step t label u → g label = none → f u = f t)
    {trace : List L} (h : Run step s trace t) : Run step' (f s) (trace.filterMap g) (f t) := by
  induction h with
  | refl => exact .refl
  | @snoc trace t label u _ hs ih =>
    rw [List.filterMap_append]
    cases hg : g label with
    | none =>
      rw [hother hs hg,List.filterMap_cons_none hg,List.filterMap_nil,List.append_nil]
      exact ih
    | some m =>
      rw [List.filterMap_cons_some hg,List.filterMap_nil]
      exact ih.snoc (hown hs hg)

/-- A system whose steps another one can follow is followed over whole runs. -/
theorem simulates {T M : Type} {step' : T → M → T → Prop} (f : S → T)
    (hstep : ∀ {t label u}, step t label u → ∃ trace', Run step' (f t) trace' (f u))
    {trace : List L} (h : Run step s trace t) : ∃ trace', Run step' (f s) trace' (f t) := by
  induction h with
  | refl => exact ⟨[],.refl⟩
  | snoc _ hs ih =>
    obtain ⟨pre,hpre⟩ := ih
    obtain ⟨post,hpost⟩ := hstep hs
    exact ⟨pre ++ post,hpre.append hpost⟩

/-- A run all of whose labels meet a condition. -/
theorem guarded {P : L → Prop} {trace : List L} (h : Run step s trace t) (hP : ∀ label ∈ trace, P label) :
    Run (Guarded (fun _ => P) step) s trace t := by
  induction h with
  | refl => exact .refl
  | @snoc trace t label u _ hs ih =>
    have ih := ih fun label hmem => hP label (List.mem_append_left _ hmem)
    exact ih.snoc ⟨hP label (List.mem_append_right _ List.mem_cons_self),hs⟩

theorem mono {step' : S → L → S → Prop} (hsub : ∀ t label u, step t label u → step' t label u)
    {trace : List L} (h : Run step s trace t) : Run step' s trace t := by
  induction h with
  | refl => exact .refl
  | snoc _ hs ih => exact ih.snoc (hsub _ _ _ hs)

end Run
