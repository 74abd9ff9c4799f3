import Parodus.Foundation.Handlers

namespace Parodus.Foundation.Handlers

open Runs

section Orderly

variable {T R K M A G : Type*}

/-- Every frame gives up what it takes, and only the innermost holds a mutex. -/
structure Tidy (stack : List (Frame K M A)) : Prop where
  sound : ∀ frame ∈ stack, Sound frame.code
  below : ∀ frame ∈ stack.tail, held frame.code = none

variable {frame frame' : Frame K M A} {stack : List (Frame K M A)} {m : M}

theorem Tidy.tail (h : Tidy (frame :: stack)) : Tidy stack :=
  ⟨fun f hf ↦ h.sound f (List.mem_cons_of_mem _ hf), fun f hf ↦ h.below f (List.mem_of_mem_tail hf)⟩

theorem Tidy.top_tail (h : Tidy (frame :: stack)) : top stack = none := by
  cases stack with
  | nil => rfl
  | cons f rest => exact h.below f List.mem_cons_self

theorem Tidy.push (h : Tidy stack) (htop : top stack = none) (hframe : Sound frame.code) :
    Tidy (frame :: stack) := by
  refine ⟨List.forall_mem_cons.mpr ⟨hframe, h.sound⟩, ?_⟩
  intro f hf
  cases stack with
  | nil => cases hf
  | cons g rest =>
    obtain rfl | hf := List.mem_cons.mp hf
    · exact htop
    · exact h.below f hf

theorem Tidy.replace (h : Tidy (frame :: stack)) (hframe : Sound frame'.code) :
    Tidy (frame' :: stack) :=
  h.tail.push h.top_tail hframe

section Wake

variable [DecidableEq M]

theorem Tidy.map_wake (h : Tidy stack) (m : M) : Tidy (stack.map (Frame.wake m)) := by
  refine ⟨List.forall_mem_map.mpr fun f hf ↦ (f.sound_wake m).mpr (h.sound f hf), ?_⟩
  rw [← List.map_tail]
  exact List.forall_mem_map.mpr fun f hf ↦ (f.held_wake m).trans (h.below f hf)

theorem Tidy.perform {s : State T K M A G} {effect : A → G → G} {thread other : T} {op : Op M A}
    (h : Tidy (s.frames other)) : Tidy ((s.perform effect thread op).frames other) :=
  State.perform_frames (fun m _ h ↦ h.map_wake m) h

end Wake

variable {program : Program R K M A} {effect : A → G → G} {s t : State T K M A G}
  {thread other : T}

/-- The mutexes are held as the innermost frames say. -/
structure Orderly (s : State T K M A G) : Prop where
  tidy : ∀ thread, Tidy (s.frames thread)
  holds : ∀ m thread, s.holder m = some thread ↔ top (s.frames thread) = some m

theorem orderly_start (g : G) : Orderly (start g : State T K M A G) :=
  ⟨fun _ ↦ ⟨nofun, nofun⟩, fun _ _ ↦ ⟨nofun, nofun⟩⟩

variable [DecidableEq T]

theorem Orderly.put (h : Orderly s) (hstack : Tidy stack)
    (htop : top stack = top (s.frames thread)) : Orderly (s.put thread stack) := by
  constructor
  · exact State.put_forall (P := fun _ ↦ Tidy) hstack fun other _ ↦ h.tidy other
  · intro m
    refine State.put_forall (P := fun other stack ↦ s.holder m = some other ↔ top stack = some m)
      ?_ fun other _ ↦ h.holds m other
    rw [htop]
    exact h.holds m thread

theorem Orderly.of_wakeUp (h : Orderly s) (hst : wakeUp thread s = some t) : Orderly t := by
  obtain ⟨signal, m, code, rest, hframes, rfl⟩ := wakeUp_cases hst
  have htidy := h.tidy thread
  rw [hframes] at htidy
  have hsound : Sound (.asleep m :: code) := htidy.sound _ List.mem_cons_self
  refine h.put (htidy.replace hsound) ?_
  rw [hframes]
  rfl

variable [DecidableEq M]

theorem Orderly.act {signal : Option K} {op : Op M A} {code : List (Op M A)} (h : Orderly s)
    (hframes : s.frames thread = ⟨signal, op :: code⟩ :: stack)
    (hready : s.ready thread op = true) :
    Orderly ((s.put thread (⟨signal, advance op code⟩ :: stack)).perform effect thread op) := by
  have htidy := h.tidy thread
  rw [hframes] at htidy
  have hsound : Sound (op :: code) := htidy.sound _ List.mem_cons_self
  constructor
  · intro other
    apply Tidy.perform
    exact State.put_forall (P := fun _ ↦ Tidy) (htidy.replace hsound.advance)
      (fun other _ ↦ h.tidy other) other
  · intro m other
    rw [State.perform_top]
    by_cases hne : other = thread
    · subst hne
      rw [State.put_frames]
      refine State.perform_holder hsound ?_ m
      intro m'
      have hholds := h.holds m' other
      rwa [hframes] at hholds
    · rw [State.put_frames_of_ne _ _ hne,
        State.perform_holder_of_ne (by rwa [State.put_ready]) hne]
      exact h.holds m other

theorem Orderly.of_exec (h : Orderly s) (hst : exec effect thread s = some t) : Orderly t := by
  obtain ⟨signal, rest, hframes, rfl⟩ | ⟨signal, op, code, rest, hframes, hready, rfl⟩ :=
    exec_cases hst
  · have htidy := h.tidy thread
    rw [hframes] at htidy
    refine h.put htidy.tail ?_
    rw [hframes, htidy.top_tail]
    rfl
  · exact h.act hframes hready

theorem Orderly.of_step [DecidableEq K] (a : Action T R K) (h : Orderly s)
    (hclear : Clear program s a) (hst : Step program effect s a t) : Orderly t := by
  cases a with
  | exec thread => exact h.of_exec hst
  | wakeUp thread => exact h.of_wakeUp hst
  | call thread r =>
    obtain ⟨hframes, rfl⟩ := call_cases hst
    obtain ⟨hsound, hheld⟩ := program.routine_sound r
    refine h.put (Tidy.push ⟨nofun, nofun⟩ rfl hsound) ?_
    rw [hframes]
    exact hheld
  | interrupt thread k =>
    obtain ⟨_, rfl⟩ | ⟨hne, rfl⟩ := interrupt_cases hst
    · exact h
    · obtain ⟨hsound, hheld⟩ := program.handler_sound k
      have hfree : ∀ m, s.holder m ≠ some thread := hclear.resolve_left hne
      have htop : top (s.frames thread) = none :=
        Option.eq_none_iff_forall_ne_some.mpr fun m heq ↦ hfree m ((h.holds m thread).mpr heq)
      exact h.put ((h.tidy thread).push htop hsound) (hheld.trans htop.symm)

end Orderly

section Liveness

variable {T R K M A G : Type*} [DecidableEq T] {s t : State T K M A G} {thread : T}

theorem weight_wakeUp_lt (h : wakeUp thread s = some t) :
    weight (t.frames thread) < weight (s.frames thread) := by
  obtain ⟨signal, m, code, rest, hframes, rfl⟩ := wakeUp_cases h
  have hadvance := weight_advance (.asleep m) code
  rw [State.put_frames, hframes, weight_cons, weight_cons]
  exact Nat.add_lt_add_right (Nat.add_lt_add_left hadvance 1) _

theorem Orderly.ready_of_held {signal : Option K} {op : Op M A} {code : List (Op M A)}
    {stack : List (Frame K M A)} {m : M} (h : Orderly s)
    (hframes : s.frames thread = ⟨signal, op :: code⟩ :: stack)
    (hheld : held (op :: code) = some m) : s.ready thread op = true := by
  have hholder : s.holder m = some thread := by
    rw [h.holds, hframes]
    exact hheld
  cases op with
  | act | notify => rfl
  | lock | asleep => cases hheld
  | unlock | wait =>
    obtain rfl := Option.some.inj hheld
    exact decide_eq_true hholder

variable [DecidableEq M] {program : Program R K M A} {effect : A → G → G}

theorem weight_exec_lt (h : exec effect thread s = some t) :
    weight (t.frames thread) < weight (s.frames thread) := by
  obtain ⟨signal, rest, hframes, rfl⟩ | ⟨signal, op, code, rest, hframes, -, rfl⟩ := exec_cases h
  · rw [State.put_frames, hframes, weight_cons]
    omega
  · refine (State.perform_lighter ..).weight_le.trans_lt ?_
    have hadvance := weight_advance op code
    rw [State.put_frames, hframes, weight_cons, weight_cons]
    omega

theorem lighter_exec {other : T} (h : exec effect thread s = some t) (hne : other ≠ thread) :
    Lighter (s.frames other) (t.frames other) := by
  obtain ⟨signal, rest, -, rfl⟩ | ⟨signal, op, code, rest, -, -, rfl⟩ := exec_cases h
  · rw [State.put_frames_of_ne _ _ hne]
    exact .refl _
  · have hperform := State.perform_lighter
      (s.put thread (⟨signal, advance op code⟩ :: rest)) effect thread other op
    rwa [State.put_frames_of_ne _ _ hne] at hperform

variable (effect)

theorem exec_of_ready {signal : Option K} {op : Op M A} {code : List (Op M A)}
    {stack : List (Frame K M A)} (hframes : s.frames thread = ⟨signal, op :: code⟩ :: stack)
    (hready : s.ready thread op = true) :
    exec effect thread s =
      some ((s.put thread (⟨signal, advance op code⟩ :: stack)).perform effect thread op) := by
  unfold exec
  rw [hframes]
  exact if_pos hready

/-- The holder of a mutex can do its next act, and no other thread takes the mutex by it. -/
theorem Orderly.exists_exec {m : M} (h : Orderly s) (hm : s.holder m = some thread) :
    ∃ t, exec effect thread s = some t ∧
      ∀ other, t.holder m = some other → other = thread := by
  have htop := (h.holds m thread).mp hm
  match hframes : s.frames thread with
  | [] =>
    rw [hframes] at htop
    cases htop
  | ⟨_, []⟩ :: _ =>
    rw [hframes] at htop
    cases htop
  | ⟨signal, op :: code⟩ :: rest =>
    rw [hframes] at htop
    have hready := h.ready_of_held hframes htop
    refine ⟨_, exec_of_ready effect hframes hready, ?_⟩
    intro other hother
    by_contra hne
    have hready' : (s.put thread (⟨signal, advance op code⟩ :: rest)).ready thread op = true := by
      rwa [State.put_ready]
    have hholder : s.holder m = some other :=
      (State.perform_holder_of_ne hready' hne m).mp hother
    exact hne (Option.some.inj (hholder.symm.trans hm))

variable [DecidableEq K] (program)

/-- A thread that holds a mutex gives it up by acts of its own, and holds up no other. -/
theorem Orderly.release {m : M} (h : Orderly s) (hm : s.holder m = some thread) :
    ∃ tr t, Run (Step program effect) s tr t ∧ Orderly t ∧ t.holder m = none ∧
      ∀ other ≠ thread, Lighter (s.frames other) (t.frames other) := by
  generalize hn : weight (s.frames thread) = n
  induction n using Nat.strong_induction_on generalizing s with
  | _ n ih =>
    obtain ⟨t, hst, hother⟩ := h.exists_exec effect hm
    have ht : Orderly t := h.of_exec hst
    cases hholder : t.holder m with
    | none =>
      exact ⟨[(s, .exec thread)], t, .cons hst (.nil t), ht, hholder,
        fun o ho ↦ lighter_exec hst ho⟩
    | some other =>
      obtain rfl := hother other hholder
      obtain ⟨tr, u, hrun, hu, hfree, hlighter⟩ := ih _ (hn ▸ weight_exec_lt hst) ht hholder rfl
      exact ⟨_, u, .cons (show Step program effect s (.exec other) t from hst) hrun, hu, hfree,
        fun o ho ↦ (lighter_exec hst ho).trans (hlighter o ho)⟩

theorem Orderly.exec_lt (h : Orderly s) (hst : exec effect thread s = some t) :
    ∃ tr t, Run (Step program effect) s tr t ∧ Orderly t ∧
      weight (t.frames thread) < weight (s.frames thread) :=
  ⟨[(s, .exec thread)], t, .cons hst (.nil t), h.of_exec hst, weight_exec_lt hst⟩

/-- Whoever holds the mutex that a thread waits for gives it up. -/
theorem Orderly.acquire {m : M} (h : Orderly s) (hwants : Wants m (s.frames thread)) :
    ∃ tr t, Run (Step program effect) s tr t ∧ Orderly t ∧
      weight (t.frames thread) < weight (s.frames thread) := by
  obtain ⟨tr, t, hrun, ht, hfree, hlighter⟩ : ∃ tr t, Run (Step program effect) s tr t ∧
      Orderly t ∧ t.holder m = none ∧ Lighter (s.frames thread) (t.frames thread) := by
    cases hholder : s.holder m with
    | none => exact ⟨[], s, .nil s, h, hholder, .refl _⟩
    | some other =>
      have hne : thread ≠ other := by
        rintro rfl
        obtain ⟨signal, code, rest, hframes⟩ := hwants
        have htop := (h.holds m thread).mp hholder
        rw [hframes] at htop
        cases htop
      obtain ⟨tr, t, hrun, ht, hfree, hlighter⟩ :=
        h.release program effect hholder
      exact ⟨tr, t, hrun, ht, hfree, hlighter thread hne⟩
  obtain ⟨signal, code, rest, hframes⟩ := hlighter.wants m hwants
  have hready : t.ready thread (.lock m : Op M A) = true := decide_eq_true hfree
  obtain ⟨tr', u, hrun', hu, hlt⟩ :=
    ht.exec_lt program effect (exec_of_ready effect hframes hready)
  exact ⟨_, u, hrun.append hrun', hu, hlt.trans_le hlighter.weight_le⟩

/-- A thread that is in a routine gets on. -/
theorem Orderly.getsOn (h : Orderly s) (hne : s.frames thread ≠ []) :
    ∃ tr t, Run (Step program effect) s tr t ∧ Orderly t ∧
      weight (t.frames thread) < weight (s.frames thread) := by
  match hframes : s.frames thread with
  | [] => exact absurd hframes hne
  | ⟨signal, []⟩ :: rest =>
    have hst : exec effect thread s = some (s.put thread rest) := by
      unfold exec
      rw [hframes]
    rw [← hframes]
    exact h.exec_lt program effect hst
  | ⟨signal, op :: code⟩ :: rest =>
    rw [← hframes]
    cases op with
    | act | notify => exact h.exec_lt program effect (exec_of_ready effect hframes rfl)
    | unlock | wait =>
      have hready := h.ready_of_held hframes rfl
      exact h.exec_lt program effect (exec_of_ready effect hframes hready)
    | lock m => exact h.acquire program effect ⟨signal, code, rest, hframes⟩
    | asleep m =>
      have hst : wakeUp thread s = some (s.put thread (⟨signal, .lock m :: code⟩ :: rest)) := by
        unfold wakeUp
        rw [hframes]
      exact ⟨[(s, .wakeUp thread)], _, .cons hst (.nil _), h.of_wakeUp hst, weight_wakeUp_lt hst⟩

theorem Orderly.canReturn (h : Orderly s) (thread : T) : CanReturn program effect s thread := by
  generalize hn : weight (s.frames thread) = n
  induction n using Nat.strong_induction_on generalizing s with
  | _ n ih =>
    by_cases hnil : s.frames thread = []
    · exact ⟨[], s, .nil s, hnil⟩
    · obtain ⟨tr, t, hrun, ht, hlt⟩ := h.getsOn program effect hnil
      obtain ⟨tr', u, hrun', hu⟩ := ih _ (hn ▸ hlt) ht rfl
      exact ⟨_, u, hrun.append hrun', hu⟩

end Liveness

section Deadlock

variable {T R K M A G : Type*} {m : M} {frame : Frame K M A} {stack : List (Frame K M A)}

/-- No act of the frame gives up a mutex that it has not taken itself. -/
def Barred (m : M) (frame : Frame K M A) : Prop := Sound frame.code ∧ held frame.code ≠ some m

/-- A frame waits for a mutex that it and the frames above it cannot give up. -/
inductive Waits (m : M) : List (Frame K M A) → Prop
  | here {frame : Frame K M A} {below : List (Frame K M A)} :
      Barred m frame → .lock m ∈ frame.code → Waits m (frame :: below)
  | under {frame : Frame K M A} {below : List (Frame K M A)} :
      Barred m frame → Waits m below → Waits m (frame :: below)

theorem Waits.barred (h : Waits m (frame :: stack)) : Barred m frame := by
  cases h with
  | here hbarred _ => exact hbarred
  | under hbarred _ => exact hbarred

theorem Waits.pop {signal : Option K} (h : Waits m (⟨signal, []⟩ :: stack)) : Waits m stack := by
  cases h with
  | here _ hmem => cases hmem
  | under _ hwaits => exact hwaits

theorem Waits.advance {signal : Option K} {op : Op M A} {code : List (Op M A)}
    (hne : op ≠ .lock m) (h : Waits m (⟨signal, op :: code⟩ :: stack)) :
    Waits m (⟨signal, advance op code⟩ :: stack) := by
  have hbarred : Barred m (⟨signal, Handlers.advance op code⟩ : Frame K M A) :=
    ⟨Sound.advance h.barred.1, held_advance_ne h.barred.1 hne h.barred.2⟩
  cases h with
  | here _ hmem => exact .here hbarred (mem_advance hne hmem)
  | under _ hwaits => exact .under hbarred hwaits

section Wake

variable [DecidableEq M]

theorem Barred.wake (h : Barred m frame) (m' : M) : Barred m (frame.wake m') := by
  rw [Barred, Frame.sound_wake, Frame.held_wake]
  exact h

theorem Waits.map_wake (h : Waits m stack) (m' : M) : Waits m (stack.map (Frame.wake m')) := by
  induction h with
  | here hbarred hmem => exact .here (hbarred.wake m') (Frame.mem_wake hmem)
  | under hbarred _ ih => exact .under (hbarred.wake m') ih

theorem Waits.perform {s : State T K M A G} {effect : A → G → G} {thread other : T} {op : Op M A}
    (h : Waits m (s.frames other)) : Waits m ((s.perform effect thread op).frames other) :=
  State.perform_frames (fun m' _ h ↦ h.map_wake m') h

end Wake

/-- The thread waits for a mutex that it holds itself. -/
structure Stuck (thread : T) (m : M) (s : State T K M A G) : Prop where
  holder : s.holder m = some thread
  waits : Waits m (s.frames thread)

variable [DecidableEq T] {program : Program R K M A} {effect : A → G → G}
  {s t : State T K M A G} {thread : T}

theorem Stuck.put {other : T} (h : Stuck thread m s)
    (hstack : thread = other → Waits m stack) : Stuck thread m (s.put other stack) := by
  refine ⟨h.holder, ?_⟩
  by_cases heq : thread = other
  · subst heq
    rw [State.put_frames]
    exact hstack rfl
  · rw [State.put_frames_of_ne _ _ heq]
    exact h.waits

variable [DecidableEq M]

theorem Stuck.act {other : T} {signal : Option K} {op : Op M A} {code : List (Op M A)}
    (h : Stuck thread m s) (hframes : s.frames other = ⟨signal, op :: code⟩ :: stack)
    (hready : s.ready other op = true) :
    Stuck thread m
      ((s.put other (⟨signal, advance op code⟩ :: stack)).perform effect other op) := by
  have hready' : (s.put other (⟨signal, advance op code⟩ :: stack)).ready other op = true := by
    rwa [State.put_ready]
  by_cases heq : thread = other
  · subst heq
    have hwaits := h.waits
    rw [hframes] at hwaits
    have hne : op ≠ .lock m := by
      rintro rfl
      have hfree : s.holder m = none := of_decide_eq_true hready
      exact nomatch h.holder.symm.trans hfree
    refine ⟨State.perform_holder_of_held hready' hwaits.barred.2 h.holder, Waits.perform ?_⟩
    rw [State.put_frames]
    exact hwaits.advance hne
  · refine ⟨(State.perform_holder_of_ne hready' heq m).mpr h.holder, Waits.perform ?_⟩
    rw [State.put_frames_of_ne _ _ heq]
    exact h.waits

theorem Stuck.of_step [DecidableEq K] (a : Action T R K) (h : Stuck thread m s)
    (hst : Step program effect s a t) : Stuck thread m t := by
  have hwaits := h.waits
  cases a with
  | exec other =>
    obtain ⟨signal, rest, hframes, rfl⟩ | ⟨signal, op, code, rest, hframes, hready, rfl⟩ :=
      exec_cases hst
    · refine h.put ?_
      rintro rfl
      rw [hframes] at hwaits
      exact hwaits.pop
    · exact h.act hframes hready
  | wakeUp other =>
    obtain ⟨signal, m', code, rest, hframes, rfl⟩ := wakeUp_cases hst
    refine h.put ?_
    rintro rfl
    rw [hframes] at hwaits
    have hnext : Waits m (⟨signal, advance (.asleep m') code⟩ :: rest) := hwaits.advance nofun
    exact hnext
  | call other r =>
    obtain ⟨hframes, rfl⟩ := call_cases hst
    refine h.put ?_
    rintro rfl
    rw [hframes] at hwaits
    cases hwaits
  | interrupt other k =>
    obtain ⟨-, rfl⟩ | ⟨-, rfl⟩ := interrupt_cases hst
    · exact h
    · refine h.put ?_
      rintro rfl
      obtain ⟨hsound, hheld⟩ := program.handler_sound k
      exact .under ⟨hsound, hheld ▸ nofun⟩ hwaits

theorem Stuck.not_canReturn [DecidableEq K] (h : Stuck thread m s) :
    ¬ CanReturn program effect s thread := by
  rintro ⟨tr, t, hrun, hframes⟩
  have ht : Stuck thread m t := (hrun.invariant (fun _ a _ ↦ Stuck.of_step a) h).2
  have hwaits := ht.waits
  rw [hframes] at hwaits
  cases hwaits

theorem stuck_of_not_clear [DecidableEq K] (a : Action T R K) (hgreedy : program.Greedy)
    (hclear : ¬ Clear program s a) (hst : Step program effect s a t) :
    ∃ thread m, Stuck thread m t := by
  cases a with
  | exec | wakeUp | call => exact absurd trivial hclear
  | interrupt thread k =>
    obtain ⟨hne, hholds⟩ := not_or.mp hclear
    obtain ⟨m, hm⟩ := not_forall.mp hholds
    obtain ⟨hnil, -⟩ | ⟨-, rfl⟩ := interrupt_cases hst
    · exact absurd hnil hne
    · obtain ⟨hsound, hheld⟩ := program.handler_sound k
      refine ⟨thread, m, not_not.mp hm, ?_⟩
      rw [State.put_frames]
      exact .here ⟨hsound, hheld ▸ nofun⟩ (hgreedy k hne m)

/-- Every thread can always return exactly if no handler interrupts a thread that holds one of
the mutexes. -/
theorem canReturn_iff_clear [DecidableEq K] (hgreedy : program.Greedy) {g : G}
    {tr : List (State T K M A G × Action T R K)} (h : Run (Step program effect) (start g) tr t) :
    Throughout (fun s ↦ ∀ thread, CanReturn program effect s thread) tr t ↔
      Every (Clear program) tr := by
  refine h.throughout_iff_of_invariant (fun _ hs ↦ hs.canReturn program effect)
    (fun _ a _ hs ha hst ↦ hs.of_step a ha hst) ?_ (orderly_start g)
  intro s a t _ hclear hst hreturn
  obtain ⟨thread, m, hstuck⟩ := stuck_of_not_clear a hgreedy hclear hst
  exact hstuck.not_canReturn (hreturn thread)

end Deadlock

end Parodus.Foundation.Handlers
