import Parodus.Clients.Interleaving

namespace Parodus.Clients.Pointers

open Foundation Foundation.Runs Cells

/-- The node that a step of a thread frees. -/
def freedNode (s : State) (thread : ℕ) : Option ℕ :=
  match s.pcs thread with
  | .delete temp _ (some currNode) =>
    match s.memory.cells temp, s.memory.cells currNode with
    | some node, some curr =>
      if curr.val.serviceName.text = node.val.serviceName.text then some currNode else none
    | _, _ => none
  | _ => none

/-- The node whose url a thread is about to log without the lock. -/
def Pc.logged : Pc → Option ℕ
  | logUrl temp => some temp
  | _ => none

/-- No node is freed whose url a thread is about to log without the lock. -/
def SparesLogged (s : State) : Action → Prop
  | .start _ _ => True
  | .step thread _ => ∀ p ∈ freedNode s thread, ∀ other, p ∉ (s.pcs other).logged

/-- The pointers of all threads, and those of the list, point to memory that is allocated, and no
other memory was touched. -/
structure Safe (s : State) : Prop where
  pointers : ∀ thread, ∀ p ∈ (s.pcs thread).pointers, (s.memory.cells p).isSome = true
  head : ∀ p ∈ s.memory.gHead, (s.memory.cells p).isSome = true
  links : ∀ p cell q, s.memory.cells p = some cell → cell.next = some q →
    (s.memory.cells q).isSome = true
  faults : s.faults = []

/-- What a thread that logs a url without the lock relies on. -/
def LogsLive (s : State) : Prop :=
  ∀ thread, ∀ p ∈ (s.pcs thread).logged, (s.memory.cells p).isSome = true

/-- What the step of a thread does to the memory and the threads. -/
structure Effect (s : State) (thread : ℕ) (s' : State) : Prop where
  pcs : ∃ pc, s'.pcs = Function.update s.pcs thread pc ∧
    ∀ p ∈ pc.logged, s.pcs thread = .leaveLog p
  cells : ∀ p, (s.memory.cells p).isSome = true →
    (s'.memory.cells p).isSome = true ∨ freedNode s thread = some p
  faults : s'.faults = s.faults ∨ s'.faults = s.faults ++ [s.pcs thread]

variable {s s' : State} {m : Memory} {nodes nodes' : Nodes} {thread p temp newNode : ℕ} {pc : Pc}
  {a : Action} {nbytes byte : ℤ} {use : Cell RegListItem → State} {io : RegistrationIO}
  {reg : RegMsg} {prevNode : Option ℕ}

section Pointers

/-- A pointer that a thread holds with the lock points to a node. -/
theorem At.pointers (h : At m nodes pc) (hlinked : Linked m.cells m.gHead nodes)
    (hp : p ∈ pc.pointers) : (m.cells p).isSome = true := by
  have hmem : ∀ p ∈ ids nodes, (m.cells p).isSome = true := fun p hp ↦
    Option.isSome_iff_exists.mpr (hlinked.cell_of_mem hp)
  have hwalk : ∀ {front back temp}, Split m.cells nodes front back temp → p ∈ temp.toList →
      (m.cells p).isSome = true := by
    intro front back temp hsplit hp
    obtain rfl := Option.mem_toList.mp hp
    exact hmem p hsplit.mem
  cases pc with
  | idle | logUrl | relock => exact h.elim
  | leave | resync | add => cases hp
  | found | leaveLog =>
    obtain rfl := List.mem_singleton.mp hp
    exact hmem p h.2
  | search =>
    obtain ⟨_, _, hsplit, _⟩ := Searching.passed h
    exact hwalk hsplit hp
  | alive =>
    obtain ⟨_, _, _, hsplit⟩ := h
    exact hwalk hsplit hp
  | reconnect =>
    obtain ⟨_, _, hsplit, _⟩ := Walking.passed h
    exact hwalk hsplit hp
  | delete temp prevNode currNode =>
    obtain ⟨node, rfl, hat⟩ := h
    obtain ⟨front, back, hsplit, rfl, _⟩ := hat.passed
    rcases List.mem_cons.mp hp with rfl | hp
    · exact hmem _ (mem_ids hat.mem)
    rcases List.mem_append.mp hp with hprev | hcurr
    · refine hmem p ?_
      rw [hsplit.eq, ids_append]
      exact List.mem_append_left _ (List.mem_of_getLast? (Option.mem_toList.mp hprev))
    · exact hwalk hsplit hcurr
  | link io reg newNode temp =>
    have hat : Linking m nodes io reg newNode temp := h
    obtain ⟨_, _, hsplit⟩ := hat.passed
    rcases List.mem_cons.mp hp with rfl | hp
    · rw [hat.cell]
      rfl
    · obtain rfl := List.mem_singleton.mp hp
      exact hmem p hsplit.mem

/-- A node that is allocated is on the list, or new. -/
theorem At.only (h : At m nodes pc) {cell : Cell RegListItem} (hcell : m.cells p = some cell) :
    p ∈ ids nodes ∨ cell.next = none := by
  have hsome : (m.cells p).isSome = true := Option.isSome_iff_exists.mpr ⟨cell, hcell⟩
  cases pc with
  | idle | logUrl | relock => exact h.elim
  | leave | resync => exact .inl ((Settled.agrees h).only p hsome)
  | found | leaveLog | alive => exact .inl (h.1.agrees.only p hsome)
  | search => exact .inl ((Searching.agrees h).only p hsome)
  | delete =>
    obtain ⟨_, _, hat⟩ := h
    exact .inl (hat.agrees.only p hsome)
  | reconnect => exact .inl (Walking.only h p hsome)
  | add => exact .inl (h.2 p hsome)
  | link io reg newNode temp =>
    have hat : Linking m nodes io reg newNode temp := h
    rcases hat.only p hsome with rfl | hmem
    · rw [hat.cell] at hcell
      exact .inr (Option.some.inj hcell ▸ rfl)
    · exact .inl hmem

theorem Inv.only (h : Inv s nodes) {cell : Cell RegListItem}
    (hcell : s.memory.cells p = some cell) : p ∈ ids nodes ∨ cell.next = none := by
  cases hmut : s.clientMut with
  | none =>
    exact .inl ((h.free hmut).agrees.only p (Option.isSome_iff_exists.mpr ⟨cell, hcell⟩))
  | some thread => exact (h.held thread hmut).only hcell

/-- The lock makes all pointers safe but those that are used without it. -/
theorem Inv.safe (h : Inv s nodes) (hlogs : LogsLive s) (hfaults : s.faults = []) : Safe s where
  pointers thread p hp := by
    cases hholds : (s.pcs thread).holds with
    | true =>
      exact (h.held thread ((h.locked thread).mp hholds)).pointers h.shaped.linked hp
    | false =>
      cases hpc : s.pcs thread with
      | logUrl temp =>
        rw [hpc] at hp
        obtain rfl := List.mem_singleton.mp hp
        refine hlogs thread p ?_
        rw [hpc]
        rfl
      | idle | relock =>
        rw [hpc] at hp
        cases hp
      | _ =>
        rw [hpc] at hholds
        cases hholds
  head p hp := by
    have hsplit := h.shaped.linked.split
    have hhead : s.memory.gHead = some p := hp
    rw [hhead] at hsplit
    exact Option.isSome_iff_exists.mpr (h.shaped.linked.cell_of_mem hsplit.mem)
  links p cell q hcell hnext := by
    rcases h.only hcell with hmem | hnone
    · obtain ⟨x, hx, rfl⟩ := List.mem_map.mp hmem
      obtain ⟨val, next⟩ := cell
      obtain rfl : next = some q := hnext
      have hq := h.shaped.linked.next_mem hx hcell
      exact Option.isSome_iff_exists.mpr (h.shaped.linked.cell_of_mem hq)
    · rw [hnone] at hnext
      cases hnext
  faults := hfaults

end Pointers

section Effects

/-- Nothing has been freed, and no thread has moved. -/
structure Keeps (s s' : State) : Prop where
  pcs : s'.pcs = s.pcs
  faults : s'.faults = s.faults
  cells : ∀ p, (s.memory.cells p).isSome = true → (s'.memory.cells p).isSome = true

theorem Keeps.refl (s : State) : Keeps s s := ⟨rfl, rfl, fun _ ↦ id⟩

theorem Keeps.write (h : Keeps s s')
    (hcells : ∀ p, (s'.memory.cells p).isSome = true → (m.cells p).isSome = true) :
    Keeps s (s'.write m) := ⟨h.pcs, h.faults, fun p hp ↦ hcells p (h.cells p hp)⟩

theorem Keeps.moves (h : Keeps s s') (hpc : ∀ p ∈ pc.logged, s.pcs thread = .leaveLog p) :
    Effect s thread (s'.goto thread pc) where
  pcs := by
    refine ⟨pc, ?_, hpc⟩
    unfold State.goto
    rw [h.pcs]
  cells p hp := .inl (h.cells p hp)
  faults := .inl h.faults

theorem Keeps.goto (h : Keeps s s') (hpc : pc.logged = none) :
    Effect s thread (s'.goto thread pc) := by
  refine h.moves fun p hp ↦ ?_
  rw [hpc] at hp
  cases hp

theorem Keeps.access (h : Keeps s s')
    (huse : ∀ cell, s'.memory.cells p = some cell → Effect s thread (use cell)) :
    Effect s thread (s'.access thread p use) := by
  cases hcell : s'.memory.cells p with
  | none =>
    rw [State.access_none hcell]
    refine ⟨⟨.idle, ?_, fun _ hlog ↦ absurd hlog (Option.not_mem_none _)⟩,
      fun p hp ↦ .inl (h.cells p hp), .inr ?_⟩
    · unfold State.goto
      rw [h.pcs]
    · unfold State.goto
      rw [h.pcs, h.faults]
  | some cell =>
    rw [State.access_some hcell]
    exact huse cell hcell

theorem Keeps.addOrLeave (h : Keeps s s') : Effect s thread (s'.addOrLeave thread io reg) := by
  unfold State.addOrLeave
  split
  · exact h.goto rfl
  · exact h.goto rfl

theorem Keeps.count (h : Keeps s s') : Effect s thread (s'.count thread io reg newNode) := by
  unfold State.count
  refine h.access fun cell _ ↦ Keeps.goto (h.write fun p hp ↦ ?_) rfl
  unfold Memory.count
  dsimp only
  split <;> exact hp

theorem isSome_alloc_of_isSome {cells : Cells RegListItem} {new : ℕ} {item : RegListItem}
    (h : (cells p).isSome = true) : ((cells.alloc new item) p).isSome = true :=
  isSome_alloc.mpr (.inr h)

theorem effect_add (s : State) (thread : ℕ) (io : RegistrationIO) (reg : RegMsg) :
    Effect s thread (s.add thread io reg) := by
  unfold State.add
  split
  · dsimp only
    split
    · exact Keeps.count ((Keeps.refl s).write fun _ ↦ isSome_alloc_of_isSome)
    · exact Keeps.goto ((Keeps.refl s).write fun _ ↦ isSome_alloc_of_isSome) rfl
  · exact Keeps.goto ((Keeps.refl s).write fun _ ↦ id) rfl

theorem effect_reconnect (s : State) (thread i temp : ℕ) (io : RegistrationIO) (reg : RegMsg)
    (cell : Cell RegListItem) : Effect s thread (s.reconnect thread io reg i temp cell) := by
  unfold State.reconnect
  dsimp only
  split
  · exact Keeps.addOrLeave ((Keeps.refl s).write fun p hp ↦ isSome_setVal.trans hp)
  · exact Keeps.goto ((Keeps.refl s).write fun p hp ↦ isSome_setVal.trans hp) rfl

theorem freedNode_eq {currNode : ℕ} {node curr : Cell RegListItem}
    (hpc : s.pcs thread = .delete temp prevNode (some currNode))
    (hnode : s.memory.cells temp = some node) (hcurr : s.memory.cells currNode = some curr)
    (hname : curr.val.serviceName.text = node.val.serviceName.text) :
    freedNode s thread = some currNode := by
  unfold freedNode
  rw [hpc]
  simp only [hnode, hcurr, if_pos hname]

theorem effect_unlink {currNode : ℕ} {next : Option ℕ} {name : CString}
    (hfreed : freedNode s thread = some currNode) :
    Effect s thread (s.unlink thread name prevNode currNode next) := by
  have hremove : ∀ m : Memory, (∀ p, (s.memory.cells p).isSome = true → (m.cells p).isSome = true) →
      Effect s thread ((s.write (m.remove name currNode)).goto thread .resync) := by
    intro m hcells
    refine ⟨⟨.resync, rfl, fun _ hlog ↦ absurd hlog (Option.not_mem_none _)⟩, fun p hp ↦ ?_,
      .inl rfl⟩
    by_cases heq : p = currNode
    · rw [heq]
      exact .inr hfreed
    · exact .inl (isSome_free.mpr ⟨heq, hcells p hp⟩)
  unfold State.unlink
  cases prevNode with
  | none => exact hremove _ fun _ ↦ id
  | some prevNode =>
    exact (Keeps.refl s).access fun _ _ ↦ hremove _ fun p hp ↦ isSome_setNext.trans hp

theorem effect_begin (s : State) (thread : ℕ) (task : Task) :
    Effect s thread (s.begin thread task) := by
  have hlock : Keeps s (s.lock thread) := ⟨rfl, rfl, fun _ ↦ id⟩
  unfold State.begin
  cases task with
  | search caller dest =>
    exact Keeps.goto (hlock.write fun _ ↦ id) rfl
  | serviceAlive =>
    refine hlock.goto ?_
    split <;> rfl
  | register io reg =>
    dsimp only
    split
    · exact Keeps.goto (hlock.write fun _ ↦ id) rfl
    · exact Keeps.addOrLeave (hlock.write fun _ ↦ id)

theorem advance_effect (h : s.advance thread nbytes byte = some s') : Effect s thread s' := by
  have hkeep := Keeps.refl s
  have hunlock : Keeps s s.unlock := ⟨rfl, rfl, fun _ ↦ id⟩
  have hlock : Keeps s (s.lock thread) := ⟨rfl, rfl, fun _ ↦ id⟩
  unfold State.advance at h
  cases hpc : s.pcs thread with
  | idle =>
    rw [hpc] at h
    cases h
  | search caller dest temp =>
    rw [hpc] at h
    cases temp with
    | none =>
      obtain rfl := Option.some.inj h
      exact Keeps.goto (hkeep.write fun _ ↦ id) rfl
    | some temp =>
      obtain rfl := Option.some.inj h
      refine hkeep.access fun cell _ ↦ ?_
      split
      · refine Keeps.goto (hkeep.write fun _ ↦ id) ?_
        split <;> rfl
      · exact hkeep.goto rfl
  | found caller temp =>
    rw [hpc] at h
    obtain rfl := Option.some.inj h
    refine hkeep.access fun cell _ ↦ hkeep.goto ?_
    split <;> rfl
  | leave =>
    rw [hpc] at h
    obtain rfl := Option.some.inj h
    exact hunlock.goto rfl
  | leaveLog temp =>
    rw [hpc] at h
    obtain rfl := Option.some.inj h
    exact hunlock.moves fun p hp ↦ Option.some.inj hp ▸ hpc
  | logUrl temp =>
    rw [hpc] at h
    obtain rfl := Option.some.inj h
    exact hkeep.access fun cell _ ↦ hkeep.goto rfl
  | alive temp =>
    rw [hpc] at h
    cases temp with
    | none =>
      obtain rfl := Option.some.inj h
      exact hkeep.goto rfl
    | some temp =>
      obtain rfl := Option.some.inj h
      refine hkeep.access fun cell _ ↦ ?_
      split
      · exact hkeep.goto rfl
      · exact Keeps.goto (hkeep.write fun _ ↦ id) rfl
  | delete temp prevNode currNode =>
    rw [hpc] at h
    cases currNode with
    | none =>
      obtain rfl := Option.some.inj h
      exact hkeep.access fun cell _ ↦
        Keeps.goto (hkeep.write fun _ ↦ id) rfl
    | some currNode =>
      obtain rfl := Option.some.inj h
      refine hkeep.access fun node hnode ↦ hkeep.access fun curr hcurr ↦ ?_
      split
      · rename_i hname
        exact effect_unlink (freedNode_eq hpc hnode hcurr hname)
      · exact hkeep.goto rfl
  | resync =>
    rw [hpc] at h
    obtain rfl := Option.some.inj h
    exact hunlock.goto rfl
  | relock =>
    rw [hpc] at h
    obtain ⟨_, heq⟩ := Option.ite_none_right_eq_some.mp h
    obtain rfl := Option.some.inj heq
    exact hlock.goto rfl
  | reconnect io reg i temp =>
    rw [hpc] at h
    cases temp with
    | none =>
      obtain rfl := Option.some.inj h
      exact hkeep.addOrLeave
    | some temp =>
      obtain rfl := Option.some.inj h
      refine hkeep.access fun cell _ ↦ ?_
      split
      · exact effect_reconnect s thread i temp io reg cell
      · exact hkeep.goto rfl
  | add io reg =>
    rw [hpc] at h
    obtain rfl := Option.some.inj h
    exact effect_add s thread io reg
  | link io reg newNode temp =>
    rw [hpc] at h
    obtain rfl := Option.some.inj h
    refine hkeep.access fun cell _ ↦ ?_
    cases cell.next with
    | none => exact Keeps.count (hkeep.write fun p hp ↦ isSome_setNext.trans hp)
    | some next => exact hkeep.goto rfl

end Effects

theorem freedNode_cases (h : freedNode s thread = some p) :
    ∃ temp prevNode node curr, s.pcs thread = .delete temp prevNode (some p) ∧
      s.memory.cells temp = some node ∧ s.memory.cells p = some curr ∧
      curr.val.serviceName.text = node.val.serviceName.text := by
  unfold freedNode at h
  split at h
  · rename_i temp prevNode currNode hpc
    split at h
    · rename_i node curr hnode hcurr
      obtain ⟨hname, heq⟩ := Option.ite_none_right_eq_some.mp h
      obtain rfl := Option.some.inj heq
      exact ⟨temp, prevNode, node, curr, hpc, hnode, hcurr, hname⟩
    · cases h
  · cases h

/-- The node is gone behind the step. -/
theorem Inv.freed (h : Inv s nodes) (hfreed : freedNode s thread = some p)
    (hstep : s.advance thread nbytes byte = some s') : s'.memory.cells p = none := by
  obtain ⟨temp, prevNode, node, curr, hpc, hnode, hcurr, hname⟩ := freedNode_cases hfreed
  unfold State.advance at hstep
  rw [hpc] at hstep
  dsimp only at hstep
  rw [State.access_some hnode, State.access_some hcurr, if_pos hname] at hstep
  obtain rfl := Option.some.inj hstep
  unfold State.unlink
  cases prevNode with
  | none => exact Function.update_self ..
  | some prevNode =>
    have hprev : (s.memory.cells prevNode).isSome = true := by
      refine (h.place hpc rfl).pointers h.shaped.linked ?_
      exact List.mem_cons_of_mem _ List.mem_cons_self
    obtain ⟨cell, hcell⟩ := Option.isSome_iff_exists.mp hprev
    dsimp only
    rw [State.access_some hcell]
    exact Function.update_self ..

/-- All that a step can do is to take from a thread what it is about to log. -/
theorem Inv.logsLive (h : Inv s nodes) (h' : Inv s' nodes') (hlogs : LogsLive s)
    (hfaults : s.faults = []) (heffect : Effect s thread s')
    (hspares : ∀ p ∈ freedNode s thread, ∀ other, p ∉ (s.pcs other).logged)
    (hlogged : ∀ temp, s.pcs thread = .logUrl temp → s'.faults = s.faults) :
    LogsLive s' ∧ s'.faults = [] := by
  obtain ⟨pc, hpcs, hpc⟩ := heffect.pcs
  constructor
  · intro other p hp
    rw [hpcs] at hp
    by_cases hother : other = thread
    · rw [hother, Function.update_self] at hp
      have hleave := hpc p hp
      obtain ⟨_, hmem⟩ := h.place hleave rfl
      have hsome := Option.isSome_iff_exists.mpr (h.shaped.linked.cell_of_mem hmem)
      refine (heffect.cells p hsome).resolve_right fun hfreed ↦ ?_
      obtain ⟨_, _, _, _, hdelete, _⟩ := freedNode_cases hfreed
      rw [hleave] at hdelete
      cases hdelete
    · rw [Function.update_of_ne hother] at hp
      exact (heffect.cells p (hlogs other p hp)).resolve_right fun hfreed ↦
        hspares p hfreed other hp
  · rcases heffect.faults with hsame | hfault
    · rw [hsame, hfaults]
    · obtain ⟨temp, htemp⟩ := h'.faults (s.pcs thread)
        (hfault ▸ List.mem_append_right _ List.mem_cons_self)
      rw [hlogged temp htemp, hfaults]

theorem advance_logUrl (hlogs : LogsLive s) (hpc : s.pcs thread = .logUrl temp)
    (hstep : s.advance thread nbytes byte = some s') : s'.faults = s.faults := by
  have hsome : (s.memory.cells temp).isSome = true := by
    refine hlogs thread temp ?_
    rw [hpc]
    rfl
  obtain ⟨cell, hcell⟩ := Option.isSome_iff_exists.mp hsome
  unfold State.advance at hstep
  rw [hpc] at hstep
  dsimp only at hstep
  rw [State.access_some hcell] at hstep
  obtain rfl := Option.some.inj hstep
  rfl

theorem logged_subset (hp : p ∈ pc.logged) : p ∈ pc.pointers := by
  cases pc with
  | logUrl temp => exact List.mem_singleton.mpr (Option.some.inj hp).symm
  | _ => cases hp

structure Intact (s : State) : Prop where
  inv : ∃ nodes, Inv s nodes
  logs : LogsLive s
  faults : s.faults = []

theorem Intact.safe (h : Intact s) : Safe s := by
  obtain ⟨nodes, hinv⟩ := h.inv
  exact hinv.safe h.logs h.faults

theorem Intact.step (h : Intact s) (hok : SparesLogged s a) (hstep : Step nbytes s a s') :
    Intact s' := by
  obtain ⟨nodes, hinv⟩ := h.inv
  obtain ⟨nodes', hinv'⟩ := hinv.step hstep
  cases a with
  | start thread task =>
    obtain ⟨⟨hidle, _⟩, heq⟩ := Option.ite_none_right_eq_some.mp hstep
    obtain rfl := Option.some.inj heq
    obtain ⟨hlogs, hfaults⟩ := hinv.logsLive hinv' h.logs h.faults (effect_begin s thread task)
      (fun p hfreed ↦ by
        obtain ⟨_, _, _, _, hpc, _⟩ := freedNode_cases hfreed
        rw [hpc] at hidle
        cases hidle)
      (fun temp hpc ↦ by
        rw [hpc] at hidle
        cases hidle)
    exact ⟨⟨nodes', hinv'⟩, hlogs, hfaults⟩
  | step thread byte =>
    obtain ⟨hlogs, hfaults⟩ := hinv.logsLive hinv' h.logs h.faults (advance_effect hstep) hok
      fun temp hpc ↦ advance_logUrl h.logs hpc hstep
    exact ⟨⟨nodes', hinv'⟩, hlogs, hfaults⟩

/-- A deletion of what is about to be logged leaves a pointer to freed memory. -/
theorem Intact.not_safe (h : Intact s) (hnot : ¬ SparesLogged s a) (hstep : Step nbytes s a s') :
    ¬ Safe s' := by
  obtain ⟨nodes, hinv⟩ := h.inv
  intro hsafe
  cases a with
  | start thread task => exact hnot trivial
  | step thread byte =>
    apply hnot
    intro p hfreed other hp
    have hgone : s'.memory.cells p = none := hinv.freed hfreed hstep
    obtain ⟨pc, hpcs, _⟩ := (advance_effect hstep).pcs
    have hother : other ≠ thread := by
      intro heq
      obtain ⟨_, _, _, _, hpc, _⟩ := freedNode_cases hfreed
      rw [heq, hpc] at hp
      cases hp
    have hsame : s'.pcs other = s.pcs other := by
      rw [hpcs]
      exact Function.update_of_ne hother _ _
    have hsome := hsafe.pointers other p (hsame ▸ logged_subset hp)
    rw [hgone] at hsome
    cases hsome

theorem intact_start : Intact start :=
  ⟨⟨[], inv_start⟩, fun _ _ hp ↦ absurd hp (Option.not_mem_none _), rfl⟩

/-- Over any run, every pointer of the threads and of the list is good, and no freed memory is
touched, exactly when no deletion frees a node that another thread has found for
`sendMsgtoRegisteredClients` and whose url it is about to log without the lock. -/
theorem run_safe_iff {tr : List (State × Action)} (h : Run (Step nbytes) start tr s) :
    Throughout Safe tr s ↔ Every SparesLogged tr := by
  have hkeep : ∀ s a t, Intact s → SparesLogged s a → Step nbytes s a t → Intact t :=
    fun s a t hs hok hstep ↦ hs.step hok hstep
  have hbreak : ∀ s a t, Intact s → ¬ SparesLogged s a → Step nbytes s a t → ¬ Safe t :=
    fun s a t hs hnot hstep ↦ hs.not_safe hnot hstep
  exact h.throughout_iff_of_invariant (fun _ ↦ Intact.safe) hkeep hbreak intact_start

/-- The node of `racing` is freed between the lookup and the log. -/
theorem run_safe_iff_racing :
    ∃ tr s, exec (proceed 7) start racing = some (tr, s) ∧ s.faults = [.logUrl 0] ∧
      ¬ Throughout Safe tr s ∧ ¬ Every SparesLogged tr := by
  obtain ⟨tr, s, hexec, hfaults⟩ : ∃ tr s, exec (proceed 7) start racing = some (tr, s) ∧
      s.faults = [.logUrl 0] := ⟨_, _, rfl, rfl⟩
  have hiff := run_safe_iff (run_of_exec hexec)
  have hnot : ¬ Throughout Safe tr s := by
    intro hsafe
    have hnil := hsafe.2.faults
    rw [hfaults] at hnil
    cases hnil
  exact ⟨tr, s, hexec, hfaults, hnot, fun hok ↦ hnot (hiff.mpr hok)⟩

end Parodus.Clients.Pointers
