import Mathlib.Data.List.Basic

namespace Parodus.Foundation.Runs

variable {σ α : Type*} {step : σ → α → σ → Prop}

/-- A finite run, recorded as the actions taken together with the state each
was taken in. -/
inductive Run (step : σ → α → σ → Prop) : σ → List (σ × α) → σ → Prop
  | nil (s : σ) : Run step s [] s
  | cons {s t u : σ} {a : α} {tr : List (σ × α)} :
      step s a t → Run step t tr u → Run step s ((s, a) :: tr) u

def Throughout (P : σ → Prop) (tr : List (σ × α)) (t : σ) : Prop :=
  (∀ x ∈ tr, P x.1) ∧ P t

def Every (ok : σ → α → Prop) (tr : List (σ × α)) : Prop :=
  ∀ x ∈ tr, ok x.1 x.2

theorem Run.invariant {P : σ → Prop} (hstep : ∀ s a t, P s → step s a t → P t)
    {s t : σ} {tr : List (σ × α)} (h : Run step s tr t) (hs : P s) : Throughout P tr t := by
  induction h with
  | nil => exact ⟨by simp, hs⟩
  | @cons s t u a tr hst _ ih =>
    obtain ⟨htr, hu⟩ := ih (hstep s a t hs hst)
    exact ⟨List.forall_mem_cons.mpr ⟨hs, htr⟩, hu⟩

theorem Run.start {P : σ → Prop} {s t : σ} {tr : List (σ × α)} (h : Run step s tr t)
    (hex : Throughout P tr t) : P s := by
  cases h with
  | nil => exact hex.2
  | cons _ _ => exact hex.1 _ List.mem_cons_self

/-- When a step out of an invariant behind the property keeps it if it meets the condition, and
leads out of the property if not, a run keeps the property exactly if all its steps meet the
condition. -/
theorem Run.throughout_iff_of_invariant {P Inv : σ → Prop} {ok : σ → α → Prop}
    (hinv : ∀ s, Inv s → P s) (hkeep : ∀ s a t, Inv s → ok s a → step s a t → Inv t)
    (hbreak : ∀ s a t, Inv s → ¬ ok s a → step s a t → ¬ P t)
    {s t : σ} {tr : List (σ × α)} (h : Run step s tr t) (hs : Inv s) :
    Throughout P tr t ↔ Every ok tr := by
  induction h with
  | nil => simp [Throughout, Every, hinv _ hs]
  | @cons s t u a tr hst hrun ih =>
    constructor
    · intro hex
      have hrest : Throughout P tr u := ⟨(List.forall_mem_cons.mp hex.1).2, hex.2⟩
      have ha : ok s a := by
        by_contra hnot
        exact hbreak s a t hs hnot hst (hrun.start hrest)
      exact List.forall_mem_cons.mpr ⟨ha, (ih (hkeep s a t hs ha hst)).mp hrest⟩
    · intro hex
      obtain ⟨ha, hok⟩ := List.forall_mem_cons.mp hex
      obtain ⟨htr, hu⟩ := (ih (hkeep s a t hs ha hst)).mpr hok
      exact ⟨List.forall_mem_cons.mpr ⟨hinv s hs, htr⟩, hu⟩

/-- The same where the property is its own invariant. -/
theorem Run.throughout_iff {P : σ → Prop} {ok : σ → α → Prop}
    (hstep : ∀ s a t, P s → step s a t → (P t ↔ ok s a))
    {s t : σ} {tr : List (σ × α)} (h : Run step s tr t) (hs : P s) :
    Throughout P tr t ↔ Every ok tr :=
  h.throughout_iff_of_invariant (fun _ ↦ id) (fun s a t hs ha hst ↦ (hstep s a t hs hst).mpr ha)
    (fun s a t hs hnot hst ht ↦ hnot ((hstep s a t hs hst).mp ht)) hs

/-- The direction from the condition to the property needs no more. -/
theorem Run.throughout_of_every {P Inv : σ → Prop} {ok : σ → α → Prop}
    (hinv : ∀ s, Inv s → P s) (hkeep : ∀ s a t, Inv s → ok s a → step s a t → Inv t)
    {s t : σ} {tr : List (σ × α)} (h : Run step s tr t) (hs : Inv s) (hok : Every ok tr) :
    Throughout P tr t := by
  induction h with
  | nil => exact ⟨by simp, hinv _ hs⟩
  | @cons s t u a tr hst _ ih =>
    obtain ⟨ha, hrest⟩ := List.forall_mem_cons.mp hok
    obtain ⟨htr, hu⟩ := ih (hkeep s a t hs ha hst) hrest
    exact ⟨List.forall_mem_cons.mpr ⟨hinv s hs, htr⟩, hu⟩

section Observed

variable {γ : Type*}

/-- A step watched by an observer that keeps a record of its own. -/
def Observed (step : σ → α → σ → Prop) (observe : σ → α → γ → γ) (s : σ × γ) (a : α)
    (t : σ × γ) : Prop :=
  step s.1 a t.1 ∧ t.2 = observe s.1 a s.2

end Observed

theorem Run.mono {step' : σ → α → σ → Prop} (himp : ∀ s a t, step s a t → step' s a t)
    {s t : σ} {tr : List (σ × α)} (h : Run step s tr t) : Run step' s tr t := by
  induction h with
  | nil => exact .nil _
  | cons hst _ ih => exact .cons (himp _ _ _ hst) ih

section Exec

/-- The states and actions of a run of a step function, and where it ends. -/
def exec (next : σ → α → Option σ) : σ → List α → Option (List (σ × α) × σ)
  | s, [] => some ([], s)
  | s, a :: as =>
    match next s a with
    | none => none
    | some t => (exec next t as).map fun r ↦ ((s, a) :: r.1, r.2)

theorem run_of_exec {next : σ → α → Option σ} {s t : σ} {as : List α} {tr : List (σ × α)}
    (h : exec next s as = some (tr, t)) : Run (fun s a t ↦ next s a = some t) s tr t := by
  induction as generalizing s tr with
  | nil =>
    obtain ⟨rfl, rfl⟩ := Prod.mk.inj (Option.some.inj h)
    exact .nil s
  | cons a as ih =>
    unfold exec at h
    split at h
    · cases h
    · rename_i u hu
      obtain ⟨r, hr, heq⟩ := Option.map_eq_some_iff.mp h
      obtain ⟨rfl, rfl⟩ := Prod.mk.inj heq
      exact .cons hu (ih hr)

/-- The step function of a machine and its observer. -/
def watch {γ : Type*} (next : σ → α → Option σ) (observe : σ → α → γ → γ) (x : σ × γ) (a : α) :
    Option (σ × γ) :=
  (next x.1 a).map fun t ↦ (t, observe x.1 a x.2)

theorem run_of_exec_watch {γ : Type*} {next : σ → α → Option σ} {observe : σ → α → γ → γ}
    {x y : σ × γ} {as : List α} {tr : List ((σ × γ) × α)}
    (h : exec (watch next observe) x as = some (tr, y)) :
    Run (Observed (fun s a t ↦ next s a = some t) observe) x tr y := by
  refine (run_of_exec h).mono ?_
  intro x a y hxy
  obtain ⟨t, ht, rfl⟩ := Option.map_eq_some_iff.mp hxy
  exact ⟨ht, rfl⟩

end Exec

end Parodus.Foundation.Runs
