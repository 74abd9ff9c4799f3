import Mathlib.Control.Monad.Writer

namespace Parodus.Foundation

/-- A computation over arrays that logs the indices at which it reads or writes. -/
abbrev Access (ι : Type) : Type → Type := Writer (List ι)

namespace Access

variable {ι α β : Type} {P Q : ι → Prop} {m : Access ι α} {f : α → Access ι β}

def value (m : Access ι α) : α := m.run.1

def touched (m : Access ι α) : List ι := m.run.2

def touch (i : ι) : Access ι Unit := WriterT.mk ((), [i])

def read (a : ι → α) (i : ι) : Access ι α := do
  touch i
  pure (a i)

def write [DecidableEq ι] (a : ι → α) (i : ι) (x : α) : Access ι (ι → α) := do
  touch i
  pure (Function.update a i x)

/-- Every index the computation touches has the property. -/
def Within (P : ι → Prop) (m : Access ι α) : Prop := ∀ i ∈ m.touched, P i

@[simp] theorem value_pure (x : α) : (pure x : Access ι α).value = x := rfl

@[simp] theorem value_bind (m : Access ι α) (f : α → Access ι β) :
    (m >>= f).value = (f m.value).value := rfl

@[simp] theorem value_map (g : α → β) (m : Access ι α) : (g <$> m).value = g m.value := rfl

@[simp] theorem value_read (a : ι → α) (i : ι) : (read a i).value = a i := rfl

@[simp] theorem value_write [DecidableEq ι] (a : ι → α) (i : ι) (x : α) :
    (write a i x).value = Function.update a i x := rfl

theorem touched_bind (m : Access ι α) (f : α → Access ι β) :
    (m >>= f).touched = m.touched ++ (f m.value).touched := rfl

@[simp] theorem within_pure (x : α) : Within P (pure x : Access ι α) := List.forall_mem_nil _

@[simp] theorem within_bind : Within P (m >>= f) ↔ Within P m ∧ Within P (f m.value) := by
  simp only [Within, touched_bind, List.forall_mem_append]

@[simp] theorem within_map {g : α → β} : Within P (g <$> m) ↔ Within P m := Iff.rfl

@[simp] theorem within_touch {i : ι} : Within P (touch i) ↔ P i := List.forall_mem_singleton

@[simp] theorem within_read {a : ι → α} {i : ι} : Within P (read a i) ↔ P i := by
  rw [read, within_bind, within_touch]
  exact and_iff_left (within_pure _)

@[simp] theorem within_write [DecidableEq ι] {a : ι → α} {i : ι} {x : α} :
    Within P (write a i x) ↔ P i := by
  rw [write, within_bind, within_touch]
  exact and_iff_left (within_pure _)

theorem Within.mono (h : Within P m) (hPQ : ∀ i, P i → Q i) : Within Q m :=
  fun i hi ↦ hPQ i (h i hi)

/-- A read in a condition, made when the condition before it holds. -/
def andThen (c : Bool) (m : Access ι Bool) : Access ι Bool := if c then m else pure false

@[simp] theorem value_andThen (c : Bool) (m : Access ι Bool) :
    (andThen c m).value = (c && m.value) := by
  cases c <;> rfl

@[simp] theorem within_andThen {c : Bool} {m : Access ι Bool} :
    Within P (andThen c m) ↔ (c = true → Within P m) := by
  cases c
  · exact iff_of_true (within_pure _) (fun h ↦ by cases h)
  · exact ⟨fun h _ ↦ h, fun h ↦ h rfl⟩

end Access

end Parodus.Foundation
