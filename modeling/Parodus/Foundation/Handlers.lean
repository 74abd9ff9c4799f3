import Mathlib.Data.List.Basic
import Mathlib.Logic.Function.Basic
import Parodus.Foundation.Potential

namespace Parodus.Foundation.Handlers

open Runs

/-- The acts of a routine between which it can be interrupted. A `wait` gives its mutex up and goes
on as `asleep`, which is a `lock` again when it is woken; `notify` wakes all that sleep. -/
inductive Op (M A : Type*)
  | act (a : A)
  | lock (m : M)
  | unlock (m : M)
  | wait (m : M)
  | asleep (m : M)
  | notify (m : M)
  deriving DecidableEq

section Code

variable {M A : Type*}

/-- The mutex that is held before these acts. -/
def held : List (Op M A) → Option M
  | [] => none
  | .act _ :: code | .notify _ :: code => held code
  | .lock _ :: _ | .asleep _ :: _ => none
  | .unlock m :: _ | .wait m :: _ => some m

/-- Mutexes are taken one at a time and given up before the end. -/
def Sound : List (Op M A) → Prop
  | [] => True
  | .act _ :: code | .notify _ :: code => Sound code
  | .lock m :: code | .wait m :: code | .asleep m :: code => held code = some m ∧ Sound code
  | .unlock _ :: code => held code = none ∧ Sound code

/-- What is left of the code when its first act is done. -/
def advance : Op M A → List (Op M A) → List (Op M A)
  | .wait m, code => .asleep m :: code
  | .asleep m, code => .lock m :: code
  | _, code => code

def Op.weight : Op M A → ℕ
  | .wait _ => 3
  | .asleep _ => 2
  | _ => 1

variable {op : Op M A} {code : List (Op M A)} {m : M}

theorem Sound.advance (h : Sound (op :: code)) : Sound (advance op code) := by
  cases op with
  | act | notify | wait | asleep => exact h
  | lock | unlock => exact h.2

/-- Only its own act takes a mutex out of the code of those that it will lock. -/
theorem mem_advance (hne : op ≠ .lock m) (h : .lock m ∈ op :: code) :
    .lock m ∈ advance op code := by
  have hmem : .lock m ∈ code := (List.mem_cons.mp h).resolve_left hne.symm
  cases op with
  | wait | asleep => exact List.mem_cons_of_mem _ hmem
  | _ => exact hmem

theorem held_advance_ne (hsound : Sound (op :: code)) (hne : op ≠ .lock m)
    (h : held (op :: code) ≠ some m) : held (advance op code) ≠ some m := by
  cases op with
  | act | notify => exact h
  | wait | asleep => exact nofun
  | lock m' =>
    rw [show held (advance (.lock m') code) = some m' from hsound.1]
    rintro ⟨⟩
    exact hne rfl
  | unlock m' =>
    rw [show held (advance (.unlock m') code) = none from hsound.1]
    exact nofun

theorem weight_advance (op : Op M A) (code : List (Op M A)) :
    ((advance op code).map Op.weight).sum < ((op :: code).map Op.weight).sum := by
  cases op <;> simp [Handlers.advance, Op.weight]

end Code

/-- A routine under way, and the signal that it handles if it is a handler. -/
structure Frame (K M A : Type*) where
  signal : Option K
  code : List (Op M A)
  deriving DecidableEq

section Frames

variable {K M A : Type*}

/-- The mutex held by the innermost frame. -/
def top : List (Frame K M A) → Option M
  | [] => none
  | frame :: _ => held frame.code

def weight (stack : List (Frame K M A)) : ℕ :=
  (stack.map fun frame ↦ 1 + (frame.code.map Op.weight).sum).sum

theorem weight_cons (signal : Option K) (code : List (Op M A)) (stack : List (Frame K M A)) :
    weight (⟨signal, code⟩ :: stack) = 1 + (code.map Op.weight).sum + weight stack := by
  rw [weight, List.map_cons, List.sum_cons, weight]

/-- The next act of the innermost frame is to take the mutex. -/
def Wants (m : M) (stack : List (Frame K M A)) : Prop :=
  ∃ signal code rest, stack = ⟨signal, .lock m :: code⟩ :: rest

/-- No more is left to do, and a mutex that was wanted is still wanted. -/
structure Lighter (stack stack' : List (Frame K M A)) : Prop where
  weight_le : weight stack' ≤ weight stack
  wants : ∀ m, Wants m stack → Wants m stack'

theorem Lighter.refl (stack : List (Frame K M A)) : Lighter stack stack :=
  ⟨Nat.le_refl _, fun _ ↦ id⟩

theorem Lighter.trans {stack stack' stack'' : List (Frame K M A)} (h : Lighter stack stack')
    (h' : Lighter stack' stack'') : Lighter stack stack'' :=
  ⟨h'.weight_le.trans h.weight_le, fun m hm ↦ h'.wants m (h.wants m hm)⟩

variable [DecidableEq M]

def Frame.wake (m : M) (frame : Frame K M A) : Frame K M A :=
  match frame.code with
  | .asleep m' :: code => if m' = m then { frame with code := .lock m :: code } else frame
  | _ => frame

theorem Frame.wake_cases (m : M) (frame : Frame K M A) :
    frame.wake m = frame ∨
      ∃ code, frame.code = .asleep m :: code ∧ frame.wake m = ⟨frame.signal, .lock m :: code⟩ := by
  obtain ⟨signal, code⟩ := frame
  unfold wake
  split
  · rename_i m' code heq
    by_cases h : m' = m
    · subst h
      exact .inr ⟨code, heq, if_pos rfl⟩
    · exact .inl (if_neg h)
  · exact .inl rfl

@[simp] theorem Frame.held_wake (m : M) (frame : Frame K M A) :
    held (frame.wake m).code = held frame.code := by
  obtain h | ⟨code, hcode, h⟩ := frame.wake_cases m
  · rw [h]
  · rw [h, hcode]
    rfl

@[simp] theorem Frame.sound_wake (m : M) (frame : Frame K M A) :
    Sound (frame.wake m).code ↔ Sound frame.code := by
  obtain h | ⟨code, hcode, h⟩ := frame.wake_cases m
  · rw [h]
  · rw [h, hcode]
    rfl

theorem Frame.mem_wake {m m' : M} {frame : Frame K M A} (h : .lock m ∈ frame.code) :
    .lock m ∈ (frame.wake m').code := by
  obtain h' | ⟨code, hcode, h'⟩ := frame.wake_cases m'
  · rwa [h']
  · rw [hcode] at h
    rw [h']
    exact List.mem_cons_of_mem _ ((List.mem_cons.mp h).resolve_left nofun)

theorem Frame.weight_wake (m : M) (frame : Frame K M A) :
    ((frame.wake m).code.map Op.weight).sum ≤ (frame.code.map Op.weight).sum := by
  obtain h | ⟨code, hcode, h⟩ := frame.wake_cases m
  · exact (congrArg (fun frame ↦ (frame.code.map Op.weight).sum) h).le
  · rw [h, hcode]
    simp [Op.weight]

theorem top_map_wake (m : M) (stack : List (Frame K M A)) :
    top (stack.map (Frame.wake m)) = top stack := by
  cases stack with
  | nil => rfl
  | cons frame rest => exact frame.held_wake m

theorem lighter_map_wake (m : M) (stack : List (Frame K M A)) :
    Lighter stack (stack.map (Frame.wake m)) := by
  constructor
  · induction stack with
    | nil => exact Nat.le_refl _
    | cons frame rest ih =>
      have hframe := frame.weight_wake m
      simp only [weight, List.map_cons, List.sum_cons] at ih ⊢
      omega
  · rintro m' ⟨signal, code, rest, rfl⟩
    exact ⟨signal, code, rest.map (Frame.wake m), rfl⟩

end Frames

/-- The routines that the threads call, and the handlers of the signals. -/
structure Program (R K M A : Type*) where
  routine : R → List (Op M A)
  handler : K → List (Op M A)
  routine_sound : ∀ r, Sound (routine r) ∧ held (routine r) = none
  handler_sound : ∀ k, Sound (handler k) ∧ held (handler k) = none

/-- The stack of a thread has its innermost frame first. -/
structure State (T K M A G : Type*) where
  holder : M → Option T
  frames : T → List (Frame K M A)
  globals : G

inductive Action (T R K : Type*)
  | exec (thread : T)
  | wakeUp (thread : T)
  | call (thread : T) (r : R)
  | interrupt (thread : T) (k : K)
  deriving DecidableEq

section Step

variable {T R K M A G : Type*}

def State.wake [DecidableEq M] (s : State T K M A G) (m : M) : State T K M A G :=
  { s with frames := fun thread ↦ (s.frames thread).map (Frame.wake m) }

section Put

variable [DecidableEq T]

def State.put (s : State T K M A G) (thread : T) (stack : List (Frame K M A)) :
    State T K M A G :=
  { s with frames := Function.update s.frames thread stack }

/-- A mutex is taken when it is free: the thread that holds it waits for itself. -/
def State.ready (s : State T K M A G) (thread : T) : Op M A → Bool
  | .act _ | .notify _ => true
  | .lock m => decide (s.holder m = none)
  | .unlock m | .wait m => decide (s.holder m = some thread)
  | .asleep _ => false

variable {s : State T K M A G} {thread other : T} {op : Op M A}

@[simp] theorem State.put_frames (s : State T K M A G) (thread : T)
    (stack : List (Frame K M A)) : (s.put thread stack).frames thread = stack :=
  Function.update_self ..

theorem State.put_frames_of_ne (s : State T K M A G) (stack : List (Frame K M A))
    (h : other ≠ thread) : (s.put thread stack).frames other = s.frames other :=
  Function.update_of_ne h ..

theorem State.put_forall {P : T → List (Frame K M A) → Prop} {stack : List (Frame K M A)}
    (hself : P thread stack) (hother : ∀ other ≠ thread, P other (s.frames other)) (other : T) :
    P other ((s.put thread stack).frames other) := by
  by_cases hne : other = thread
  · subst hne
    rwa [State.put_frames]
  · rw [State.put_frames_of_ne _ _ hne]
    exact hother other hne

@[simp] theorem State.put_ready (s : State T K M A G) (stack : List (Frame K M A)) :
    (s.put other stack).ready thread op = s.ready thread op := by
  cases op <;> rfl

/-- A wake-up without `notify`, as at the end of a timed wait. -/
def wakeUp (thread : T) (s : State T K M A G) : Option (State T K M A G) :=
  match s.frames thread with
  | ⟨signal, .asleep m :: code⟩ :: rest => some (s.put thread (⟨signal, .lock m :: code⟩ :: rest))
  | _ => none

theorem wakeUp_cases {t : State T K M A G} (h : wakeUp thread s = some t) :
    ∃ signal m code rest, s.frames thread = ⟨signal, .asleep m :: code⟩ :: rest ∧
      t = s.put thread (⟨signal, .lock m :: code⟩ :: rest) := by
  unfold wakeUp at h
  split at h
  · rename_i signal m code rest heq
    exact ⟨signal, m, code, rest, heq, (Option.some.inj h).symm⟩
  · cases h

end Put

variable [DecidableEq M]

def State.hold (s : State T K M A G) (m : M) (holder : Option T) : State T K M A G :=
  { s with holder := Function.update s.holder m holder }

theorem State.hold_holder (s : State T K M A G) (m : M) (holder : Option T) :
    (s.hold m holder).holder m = holder :=
  Function.update_self ..

theorem State.hold_holder_of_ne {m m' : M} (s : State T K M A G) (holder : Option T)
    (h : m ≠ m') : (s.hold m' holder).holder m = s.holder m :=
  Function.update_of_ne h ..

/-- A thread that held one mutex and gives it up holds none. -/
theorem State.hold_none_ne {s : State T K M A G} {thread : T} {m' : M}
    (h : ∀ m, s.holder m = some thread ↔ some m' = some m)
    (m : M) : (s.hold m' none).holder m ≠ some thread := by
  by_cases hm : m = m'
  · subst hm
    rw [hold_holder]
    exact nofun
  · rw [hold_holder_of_ne _ _ hm]
    exact fun hmine ↦ hm (Option.some.inj ((h m).mp hmine)).symm

def State.perform (s : State T K M A G) (effect : A → G → G) (thread : T) :
    Op M A → State T K M A G
  | .act a => { s with globals := effect a s.globals }
  | .lock m => s.hold m (some thread)
  | .unlock m | .wait m => s.hold m none
  | .asleep _ => s
  | .notify m => s.wake m

/-- A thread that holds just what its next act expects holds just what the act after it
expects. -/
theorem State.perform_holder {s : State T K M A G} {effect : A → G → G} {thread : T} {op : Op M A}
    {code : List (Op M A)} (hsound : Sound (op :: code))
    (h : ∀ m, s.holder m = some thread ↔ held (op :: code) = some m) (m : M) :
    (s.perform effect thread op).holder m = some thread ↔ held (advance op code) = some m := by
  cases op with
  | act | notify | asleep => exact h m
  | lock m' =>
    have hcode : held (advance (.lock m') code) = some m' := hsound.1
    rw [hcode]
    by_cases hm : m = m'
    · subst hm
      exact iff_of_true (hold_holder ..) rfl
    · rw [perform, hold_holder_of_ne _ _ hm]
      exact iff_of_false (fun hmine ↦ nomatch (h m).mp hmine)
        (fun heq ↦ hm (Option.some.inj heq).symm)
  | unlock m' =>
    have hcode : held (advance (.unlock m') code) ≠ some m := by
      rw [show held (advance (.unlock m') code) = none from hsound.1]
      exact nofun
    exact iff_of_false (State.hold_none_ne h m) hcode
  | wait m' => exact iff_of_false (State.hold_none_ne h m) nofun

/-- Besides the frame whose act it is, an act changes frames only by waking them. -/
theorem State.perform_frames {P : List (Frame K M A) → Prop} {s : State T K M A G}
    {effect : A → G → G} {thread other : T} {op : Op M A}
    (hwake : ∀ m stack, P stack → P (stack.map (Frame.wake m))) (h : P (s.frames other)) :
    P ((s.perform effect thread op).frames other) := by
  cases op with
  | notify m => exact hwake m _ h
  | _ => exact h

theorem State.perform_top (s : State T K M A G) (effect : A → G → G) (thread other : T)
    (op : Op M A) : top ((s.perform effect thread op).frames other) = top (s.frames other) :=
  State.perform_frames (P := fun stack ↦ top stack = top (s.frames other))
    (fun m stack h ↦ (top_map_wake m stack).trans h) rfl

theorem State.perform_lighter (s : State T K M A G) (effect : A → G → G) (thread other : T)
    (op : Op M A) : Lighter (s.frames other) ((s.perform effect thread op).frames other) :=
  State.perform_frames (fun m stack h ↦ h.trans (lighter_map_wake m stack)) (.refl _)

variable [DecidableEq T] {effect : A → G → G} {s t : State T K M A G} {thread other : T}
  {op : Op M A}

theorem State.perform_holder_of_ne (hready : s.ready thread op = true) (hne : other ≠ thread)
    (m : M) : (s.perform effect thread op).holder m = some other ↔ s.holder m = some other := by
  cases op with
  | act | notify | asleep => exact Iff.rfl
  | lock m' =>
    have hfree : s.holder m' = none := of_decide_eq_true hready
    by_cases hm : m = m'
    · subst hm
      rw [perform, hold_holder, hfree]
      exact iff_of_false (fun heq ↦ hne (Option.some.inj heq).symm) nofun
    · rw [perform, hold_holder_of_ne _ _ hm]
  | unlock m' | wait m' =>
    have hmine : s.holder m' = some thread := of_decide_eq_true hready
    by_cases hm : m = m'
    · subst hm
      rw [perform, hold_holder, hmine]
      exact iff_of_false nofun (fun heq ↦ hne (Option.some.inj heq).symm)
    · rw [perform, hold_holder_of_ne _ _ hm]

/-- Who holds a mutex keeps it until an act of its own gives it up. -/
theorem State.perform_holder_of_held {code : List (Op M A)} {m : M}
    (hready : s.ready thread op = true) (hheld : held (op :: code) ≠ some m)
    (h : s.holder m = some other) : (s.perform effect thread op).holder m = some other := by
  cases op with
  | act | notify | asleep => exact h
  | lock m' =>
    have hfree : s.holder m' = none := of_decide_eq_true hready
    have hm : m ≠ m' := fun heq ↦ nomatch (heq ▸ h).symm.trans hfree
    exact (hold_holder_of_ne _ _ hm).trans h
  | unlock m' | wait m' =>
    have hm : m ≠ m' := fun heq ↦ hheld (congrArg some heq.symm)
    exact (hold_holder_of_ne _ _ hm).trans h

/-- One act of the innermost frame of a thread. -/
def exec (effect : A → G → G) (thread : T) (s : State T K M A G) : Option (State T K M A G) :=
  match s.frames thread with
  | [] => none
  | ⟨_, []⟩ :: rest => some (s.put thread rest)
  | ⟨signal, op :: code⟩ :: rest =>
    if s.ready thread op then
      some ((s.put thread (⟨signal, advance op code⟩ :: rest)).perform effect thread op)
    else none

theorem exec_cases (h : exec effect thread s = some t) :
    (∃ signal rest, s.frames thread = ⟨signal, []⟩ :: rest ∧ t = s.put thread rest) ∨
      ∃ signal op code rest, s.frames thread = ⟨signal, op :: code⟩ :: rest ∧
        s.ready thread op = true ∧
        t = (s.put thread (⟨signal, advance op code⟩ :: rest)).perform effect thread op := by
  unfold exec at h
  split at h
  · cases h
  · rename_i signal rest heq
    exact .inl ⟨signal, rest, heq, (Option.some.inj h).symm⟩
  · rename_i signal op code rest heq
    split at h
    · rename_i hready
      exact .inr ⟨signal, op, code, rest, heq, hready, (Option.some.inj h).symm⟩
    · cases h

variable [DecidableEq K]

/-- A signal is not delivered to its own handler, and a handler that does nothing is no frame. -/
def step (program : Program R K M A) (effect : A → G → G) (s : State T K M A G) :
    Action T R K → Option (State T K M A G)
  | .exec thread => exec effect thread s
  | .wakeUp thread => wakeUp thread s
  | .call thread r =>
    if (s.frames thread).isEmpty then some (s.put thread [⟨none, program.routine r⟩]) else none
  | .interrupt thread k =>
    if (s.frames thread).any (fun frame ↦ frame.signal == some k) then none
    else if (program.handler k).isEmpty then some s
    else some (s.put thread (⟨some k, program.handler k⟩ :: s.frames thread))

def Step (program : Program R K M A) (effect : A → G → G) (s : State T K M A G)
    (a : Action T R K) (t : State T K M A G) : Prop :=
  step program effect s a = some t

def start (g : G) : State T K M A G := ⟨fun _ ↦ none, fun _ ↦ [], g⟩

/-- A handler that does something finds its thread without a mutex. -/
def Clear (program : Program R K M A) (s : State T K M A G) : Action T R K → Prop
  | .interrupt thread k => program.handler k = [] ∨ ∀ m, s.holder m ≠ some thread
  | _ => True

def CanReturn (program : Program R K M A) (effect : A → G → G) (s : State T K M A G)
    (thread : T) : Prop :=
  ∃ tr t, Run (Step program effect) s tr t ∧ t.frames thread = []

/-- Every handler that does something takes every mutex. -/
def Program.Greedy (program : Program R K M A) : Prop :=
  ∀ k, program.handler k ≠ [] → ∀ m, .lock m ∈ program.handler k

section Cases

variable {program : Program R K M A}

theorem call_cases {r : R} (h : step program effect s (.call thread r) = some t) :
    s.frames thread = [] ∧ t = s.put thread [⟨none, program.routine r⟩] := by
  simp only [step] at h
  split at h
  · rename_i hempty
    exact ⟨List.isEmpty_iff.mp hempty, (Option.some.inj h).symm⟩
  · cases h

theorem interrupt_cases {k : K} (h : step program effect s (.interrupt thread k) = some t) :
    program.handler k = [] ∧ t = s ∨ program.handler k ≠ [] ∧
      t = s.put thread (⟨some k, program.handler k⟩ :: s.frames thread) := by
  simp only [step] at h
  split at h
  · cases h
  · split at h
    · rename_i hempty
      exact .inl ⟨List.isEmpty_iff.mp hempty, (Option.some.inj h).symm⟩
    · rename_i hempty
      exact .inr ⟨fun hnil ↦ hempty (List.isEmpty_iff.mpr hnil), (Option.some.inj h).symm⟩

theorem globals_step (a : Action T R K) (h : Step program effect s a t) :
    t.globals = s.globals ∨ ∃ x, t.globals = effect x s.globals := by
  cases a with
  | exec thread =>
    obtain ⟨signal, rest, -, rfl⟩ | ⟨signal, op, code, rest, -, -, rfl⟩ := exec_cases h
    · exact .inl rfl
    · cases op with
      | act x => exact .inr ⟨x, rfl⟩
      | _ => exact .inl rfl
  | wakeUp thread =>
    obtain ⟨signal, m, code, rest, -, rfl⟩ := wakeUp_cases h
    exact .inl rfl
  | call thread r =>
    obtain ⟨-, rfl⟩ := call_cases h
    exact .inl rfl
  | interrupt thread k =>
    obtain ⟨-, rfl⟩ | ⟨-, rfl⟩ := interrupt_cases h
    · exact .inl rfl
    · exact .inl rfl

end Cases

end Step

end Parodus.Foundation.Handlers
