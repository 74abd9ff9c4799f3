import Parodus.Clients.Pointers

namespace Parodus.Clients.Pointers

open Foundation Foundation.Runs Cells

variable {s s' : State} {m : Memory} {nodes nodes' front back rest : Nodes} {thread i : ℕ} {pc : Pc}
  {p new temp currNode : ℕ} {prevNode next : Option ℕ} {a : Action} {nbytes byte : ℤ}
  {use : Cell RegListItem → State} {cell : Cell RegListItem} {ev : Event} {io : RegistrationIO}
  {reg : RegMsg} {caller : Search} {dest name : CString} {node x : Owned RegListItem}
  {l : ClientList}

section Operations

theorem unlink_append {node : RegListItem} (hname : node.serviceName.text = name)
    (hfront : ∀ other ∈ front, other.val.serviceName.text ≠ name) (rest : List RegListItem) :
    Clients.unlink name (front.map Owned.val ++ node :: rest) =
      some (front.map Owned.val ++ rest) := by
  induction front with
  | nil => exact if_pos hname
  | cons other front ih =>
    obtain ⟨hother, hfront⟩ := List.forall_mem_cons.mp hfront
    rw [List.map_cons, List.cons_append, Clients.unlink, if_neg hother, ih hfront]
    rfl

theorem addToList_of_links (h : io.add.Links) (reg : RegMsg) (l : ClientList) :
    (addToList io.add reg l).2 =
      ⟨if (newNode io.add reg).serviceName.text = reg.serviceName ∧
          (newNode io.add reg).url.text = reg.url then l.numOfClients + 1 else l.numOfClients,
        l.gHead ++ [newNode io.add reg]⟩ := by
  obtain ⟨⟨hsocket, hconnect⟩, hallocated⟩ := h
  unfold addToList
  rw [if_neg (Int.not_lt.mpr hsocket), if_neg (Int.not_lt.mpr hconnect), if_pos hallocated]
  dsimp only
  split <;> rfl

theorem addToList_of_not_links (h : ¬ io.add.Links) (reg : RegMsg) (l : ClientList) :
    (addToList io.add reg l).2 = l := by
  rcases addToList_cases io.add reg l with ⟨_, hsame⟩ | ⟨hlinks, _⟩ | ⟨hlinks, _⟩
  · exact hsame
  · exact absurd hlinks h
  · exact absurd hlinks h

theorem processRegistration_flag (io : RegistrationIO) (reg : RegMsg) (r : Registry) :
    (processRegistration io reg r).matchFlag = (walked io reg r).2 := by
  by_cases hadd : (walked io reg r).2 = false ∨ r.clients.numOfClients = 0
  · exact congrArg Registry.matchFlag (if_pos hadd)
  · exact congrArg Registry.matchFlag (if_neg hadd)

/-- A node is taken out of the list of the registry. -/
theorem Agrees.remove (h : Agrees m (front ++ node :: rest))
    (hname : node.val.serviceName.text = name)
    (hfront : ∀ other ∈ front, other.val.serviceName.text ≠ name) {m' : Memory}
    (hdone : m'.done = m.done) (hcount : m'.numOfClients = m.numOfClients)
    (hflag : m'.matchFlag = m.matchFlag) (honly : (m'.remove name p).Only (front ++ rest)) :
    Agrees (m'.remove name p) (front ++ rest) := by
  have hregistry : (m'.remove name p).registry =
      handle m.registry (.deleteFromList (some name)) := by
    unfold Memory.remove
    rw [Memory.registry_commit]
    unfold Memory.registry
    rw [hdone]
    rfl
  have hdelete : (deleteFromList (some name) m.registry.clients).2 =
      ⟨m.registry.clients.numOfClients - 1, front.map Owned.val ++ rest.map Owned.val⟩ := by
    have hhead := h.clients
    rw [List.map_append, List.map_cons] at hhead
    unfold deleteFromList
    simp only [← hhead, unlink_append hname hfront]
  refine ⟨?_, ?_, ?_, honly⟩
  · rw [hregistry, handle, hdelete, List.map_append]
  · rw [hregistry, handle, hdelete, ← h.count, ← hcount]
    rfl
  · rw [hregistry, handle, ← h.flag, ← hflag]
    rfl

/-- A new node is put at the end of the list of the registry. -/
theorem Adding.counted (h : Adding m nodes io reg) (hlinks : io.add.Links)
    (hnodes : nodes'.map Owned.val = nodes.map Owned.val ++ [newNode io.add reg])
    (honly : m.Only nodes') : Settled (m.count io reg (newNode io.add reg)) nodes' := by
  have hregistry : (m.count io reg (newNode io.add reg)).registry =
      processRegistration io reg m.registry := by
    unfold Memory.count
    rw [Memory.registry_commit]
    unfold Memory.registry
    split <;> rfl
  have howes : (m.count io reg (newNode io.add reg)).Owes [] := by
    unfold Memory.count
    refine Memory.Owes.commit ?_
    split <;> exact h.owes
  have hclients := processRegistration_eq io reg m.registry
  rw [if_pos h.needs, addToList_of_links hlinks] at hclients
  refine ⟨⟨?_, ?_, ?_, ?_⟩, howes⟩
  · rw [hregistry, hclients, hnodes, h.clients]
  · rw [hregistry, hclients]
    dsimp only
    rw [← h.count]
    unfold Memory.count
    dsimp only
    split <;> rfl
  · rw [hregistry, processRegistration_flag, ← h.flag]
    unfold Memory.count
    dsimp only
    split <;> rfl
  · unfold Memory.count
    dsimp only
    split <;> exact honly

/-- No node is added, since a call fails. -/
theorem Adding.failed (h : Adding m nodes io reg) (honly : m.Only nodes)
    (hlinks : ¬ io.add.Links) : Settled (m.commit (.event (.register io reg))) nodes := by
  have hclients := processRegistration_eq io reg m.registry
  rw [if_pos h.needs, addToList_of_not_links hlinks] at hclients
  refine ⟨⟨?_, ?_, ?_, honly⟩, h.owes.commit⟩
  · rw [Memory.registry_commit, Op.apply, handle, hclients]
    exact h.clients
  · rw [Memory.registry_commit, Op.apply, handle, hclients]
    exact h.count
  · rw [Memory.registry_commit, Op.apply, handle, processRegistration_flag]
    exact h.flag

/-- The walk of a registration has reconnected a node. -/
theorem Walking.reconnected {temp : Option ℕ} (h : Walking m nodes io reg i temp) {m' : Memory}
    (hwalk : reRegister io.reconnect reg 0 m.registry.clients.gHead =
      (nodes'.map Owned.val, true))
    (hdone : m'.done = m.done) (hasked : m'.asked = m.asked)
    (hcount : m'.numOfClients = m.numOfClients) (hflag : m'.matchFlag = true)
    (honly : m'.Only nodes') : Settled (m'.commit (.event (.register io reg))) nodes' := by
  have hnum : m.registry.clients.numOfClients ≠ 0 := h.count ▸ h.counted
  have hwalked : walked io reg m.registry = (nodes'.map Owned.val, true) := by
    unfold walked
    rw [if_pos hnum, hwalk]
  have hneeds : needsNode io reg m.registry = false := by
    unfold needsNode
    rw [hwalked, beq_eq_false_iff_ne.mpr hnum]
    rfl
  have hclients := processRegistration_eq io reg m.registry
  rw [hneeds, if_neg Bool.false_ne_true, hwalked] at hclients
  have hregistry : (m'.commit (.event (.register io reg))).registry =
      processRegistration io reg m.registry := by
    rw [Memory.registry_commit]
    unfold Memory.registry
    rw [hdone]
    rfl
  have howes : m'.Owes [.event (.register io reg)] := by
    have howed := h.owes
    unfold Memory.Owes at howed ⊢
    rwa [hasked, hdone]
  refine ⟨⟨?_, ?_, ?_, honly⟩, howes.commit⟩
  · rw [hregistry, hclients]
  · rw [hregistry, hclients, ← h.count, ← hcount]
    rfl
  · rw [hregistry, processRegistration_flag, hwalked, ← hflag]
    rfl

/-- The lookup finds the client the walk has come to. -/
theorem Agrees.lookup_found (h : Agrees m (front ++ node :: rest))
    (hfront : ∀ other ∈ front, other.val.serviceName.text ≠ node.val.serviceName.text) :
    some node.val.sock = lookup node.val.serviceName.text m.registry.clients := by
  unfold lookup
  rw [← h.clients, List.map_append, List.map_cons, List.find?_append]
  have hnone : (front.map Owned.val).find?
      (fun other ↦ other.serviceName.text == node.val.serviceName.text) = none := by
    refine List.find?_eq_none.mpr fun item hitem ↦ ?_
    obtain ⟨other, hother, rfl⟩ := List.mem_map.mp hitem
    rw [beq_iff_eq]
    exact hfront other hother
  have hhere : (node.val :: rest.map Owned.val).find?
      (fun other ↦ other.serviceName.text == node.val.serviceName.text) = some node.val :=
    List.find?_cons_of_pos (beq_self_eq_true _)
  rw [hnone, hhere]
  rfl

theorem Agrees.lookup_none (h : Agrees m nodes)
    (hnodes : ∀ other ∈ nodes, other.val.serviceName.text ≠ dest) :
    none = lookup dest m.registry.clients := by
  unfold lookup
  rw [← h.clients]
  have hnone : (nodes.map Owned.val).find? (fun other ↦ other.serviceName.text == dest) = none := by
    refine List.find?_eq_none.mpr fun item hitem ↦ ?_
    obtain ⟨other, hother, rfl⟩ := List.mem_map.mp hitem
    rw [beq_iff_eq]
    exact hnodes other hother
  rw [hnone]
  rfl

/-- A lookup changes nothing. -/
theorem Agrees.looked (h : Agrees m nodes) (sock : Option ℤ) :
    Agrees (m.commit (.lookup dest sock)) nodes := by
  have hregistry : (m.commit (.lookup dest sock)).registry = m.registry :=
    Memory.registry_commit _ m
  refine ⟨?_, ?_, ?_, h.only⟩
  · rw [hregistry]
    exact h.clients
  · rw [hregistry]
    exact h.count
  · rw [hregistry]
    exact h.flag

theorem forall_front_snoc {property : Owned RegListItem → Prop}
    (hfront : ∀ other ∈ front, property other) (hnode : property node) :
    ∀ other ∈ front ++ [node], property other := by
  intro other hother
  rcases List.mem_append.mp hother with hold | hnew
  · exact hfront other hold
  · rw [List.mem_singleton.mp hnew]
    exact hnode

end Operations

section Places

theorem Inv.leave (h : Inv s nodes) (hpc : s.pcs thread = .leave) :
    Inv (s.unlock.goto thread .idle) nodes :=
  h.unlock (h.mut hpc rfl) rfl (h.place hpc rfl)

theorem Inv.settle (h : Inv s nodes) (hmut : s.clientMut = some thread)
    (hsettled : Settled s.memory nodes) : Inv (s.goto thread .leave) nodes :=
  h.keep hmut rfl h.shaped hsettled

theorem Inv.search (h : Inv s nodes) {temp : Option ℕ}
    (hpc : s.pcs thread = .search caller dest temp)
    (hstep : s.advance thread nbytes byte = some s') : Inv s' nodes := by
  have hat : Searching s.memory nodes dest temp := h.place hpc rfl
  have hmut := h.mut hpc rfl
  obtain ⟨front, back, hsplit, hfront⟩ := hat.passed
  unfold State.advance at hstep
  rw [hpc] at hstep
  cases temp with
  | none =>
    obtain rfl := Option.some.inj hstep
    obtain rfl := hsplit.eq_nil
    have hall := hsplit.eq
    rw [List.append_nil] at hall
    have hanswer := hat.agrees.lookup_none (hall ▸ hfront)
    have hanswered := answered_lookup h.shaped.answered hanswer
    exact h.keep hmut rfl ⟨h.shaped.linked, h.shaped.fresh, hanswered⟩
      ⟨hat.agrees.looked none, hat.owes.commit⟩
  | some temp =>
    obtain ⟨x, rest, next, rfl, rfl, hcell, hnext⟩ := hsplit.cons
    obtain rfl := hsplit.eq
    dsimp only at hstep
    rw [State.access_some hcell] at hstep
    obtain rfl := Option.some.inj hstep
    by_cases hdest : dest = x.val.serviceName.text
    · subst hdest
      rw [if_pos rfl]
      have hshaped : (s.memory.commit (.lookup x.val.serviceName.text (some x.val.sock))).Shaped
          (front ++ x :: rest) := by
        refine ⟨h.shaped.linked, h.shaped.fresh, answered_lookup h.shaped.answered ?_⟩
        exact hat.agrees.lookup_found hfront
      have hsettled : Settled (s.memory.commit (.lookup x.val.serviceName.text (some x.val.sock)))
          (front ++ x :: rest) := ⟨hat.agrees.looked _, hat.owes.commit⟩
      by_cases hcaller : caller = .checkClientStatus
      · rw [if_pos hcaller]
        exact h.keep hmut rfl hshaped hsettled
      · rw [if_neg hcaller]
        exact h.keep hmut rfl hshaped ⟨hsettled, hsplit.mem⟩
    · rw [if_neg hdest]
      exact h.keep hmut rfl h.shaped ⟨hat.agrees, hat.owes, _, _, hnext,
        forall_front_snoc hfront (Ne.symm hdest)⟩

theorem Inv.found (h : Inv s nodes) (hpc : s.pcs thread = .found caller temp)
    (hstep : s.advance thread nbytes byte = some s') : Inv s' nodes := by
  obtain ⟨hsettled, hmem⟩ := h.place hpc rfl
  have hmut := h.mut hpc rfl
  obtain ⟨cell, hcell⟩ := h.shaped.linked.cell_of_mem hmem
  unfold State.advance at hstep
  rw [hpc] at hstep
  dsimp only at hstep
  rw [State.access_some hcell] at hstep
  obtain rfl := Option.some.inj hstep
  by_cases hcaller : caller = .sendMsgtoRegisteredClients
  · rw [if_pos hcaller]
    exact h.keep hmut rfl h.shaped ⟨hsettled, hmem⟩
  · rw [if_neg hcaller]
    exact h.settle hmut hsettled

theorem Inv.leaveLog (h : Inv s nodes) (hpc : s.pcs thread = .leaveLog temp) :
    Inv (s.unlock.goto thread (.logUrl temp)) nodes := by
  obtain ⟨hsettled, _⟩ := h.place hpc rfl
  exact h.unlock (h.mut hpc rfl) rfl hsettled

/-- The place at which freed memory may be touched. -/
theorem Inv.logUrl (h : Inv s nodes) (hpc : s.pcs thread = .logUrl temp)
    (hstep : s.advance thread nbytes byte = some s') : Inv s' nodes := by
  have hholds : (s.pcs thread).holds = false := by
    rw [hpc]
    rfl
  unfold State.advance at hstep
  rw [hpc] at hstep
  obtain rfl := Option.some.inj hstep
  cases hcell : s.memory.cells temp with
  | none =>
    rw [State.access_none hcell]
    refine h.aside hholds rfl fun pc hfault ↦ ?_
    rcases List.mem_append.mp hfault with hold | hnew
    · exact h.faults pc hold
    · rw [List.mem_singleton.mp hnew, hpc]
      exact ⟨temp, rfl⟩
  | some cell =>
    rw [State.access_some hcell]
    exact h.aside hholds rfl h.faults

theorem Inv.alive (h : Inv s nodes) {temp : Option ℕ} (hpc : s.pcs thread = .alive temp)
    (hstep : s.advance thread nbytes byte = some s') : Inv s' nodes := by
  obtain ⟨hsettled, front, back, hsplit⟩ := h.place hpc rfl
  have hmut := h.mut hpc rfl
  unfold State.advance at hstep
  rw [hpc] at hstep
  cases temp with
  | none =>
    obtain rfl := Option.some.inj hstep
    exact h.settle hmut hsettled
  | some temp =>
    obtain ⟨x, rest, next, rfl, rfl, hcell, hnext⟩ := hsplit.cons
    dsimp only at hstep
    rw [State.access_some hcell] at hstep
    obtain rfl := Option.some.inj hstep
    by_cases hbyte : byte = nbytes
    · rw [if_pos hbyte]
      exact h.keep hmut rfl h.shaped ⟨hsettled, _, _, hnext⟩
    · rw [if_neg hbyte]
      have hx : x ∈ nodes := by
        rw [hsplit.eq]
        exact List.mem_append_right _ List.mem_cons_self
      have hagrees := hsettled.agrees
      refine h.keep hmut rfl ⟨h.shaped.linked, h.shaped.fresh, h.shaped.answered⟩ ⟨x, rfl, ?_,
        hsettled.owes.ask, hx, [], nodes, h.shaped.linked.split, rfl, ?_⟩
      · exact ⟨hagrees.clients, hagrees.count, hagrees.flag, hagrees.only⟩
      · exact fun _ hnone ↦ absurd hnone List.not_mem_nil

theorem Inv.resync (h : Inv s nodes) (hpc : s.pcs thread = .resync) :
    Inv (s.unlock.goto thread .relock) nodes :=
  h.unlock (h.mut hpc rfl) rfl (h.place hpc rfl)

theorem Inv.relock (h : Inv s nodes) (hmut : s.clientMut = none) :
    Inv ((s.lock thread).goto thread (.alive s.memory.gHead)) nodes :=
  h.goto (.inr hmut) rfl h.shaped ⟨h.free hmut, _, _, h.shaped.linked.split⟩

/-- The memory behind the deletion of a node. -/
theorem Inv.remove (h : Inv s (front ++ x :: rest)) (hpc : s.pcs thread = pc)
    (hholds : pc.holds = true) (hat : Deleting s.memory (front ++ x :: rest) node prevNode next)
    (hname : x.val.serviceName.text = node.val.serviceName.text)
    (hfront : ∀ other ∈ front, other.val.serviceName.text ≠ node.val.serviceName.text)
    {head : Option ℕ} {cells : Cells RegListItem}
    (hlinked : Linked (cells.free x.id) head (front ++ rest))
    (hsome : ∀ p, (cells p).isSome = (s.memory.cells p).isSome) :
    Inv ((s.write ({ s.memory with gHead := head, cells := cells }.remove
      node.val.serviceName.text x.id)).goto thread .resync) (front ++ rest) := by
  have hagrees : Agrees ({ s.memory with gHead := head, cells := cells }.remove
      node.val.serviceName.text x.id) (front ++ rest) := by
    refine hat.agrees.remove hname hfront rfl rfl rfl fun p hp ↦ ?_
    obtain ⟨hne, hp⟩ := isSome_free.mp hp
    rw [hsome] at hp
    have hmem := hat.agrees.only p hp
    rw [ids_append, ids_cons, List.mem_append, List.mem_cons] at hmem
    rw [ids_append, List.mem_append]
    exact hmem.imp_right fun hor ↦ hor.resolve_left hne
  refine h.keep (h.mut hpc hholds) rfl ⟨hlinked, fun p hp ↦ ?_, answered_event h.shaped.answered _⟩
    ⟨hagrees, hat.owes.commit⟩
  obtain ⟨_, hp⟩ := isSome_free.mp hp
  rw [hsome] at hp
  exact h.shaped.fresh p hp

theorem Inv.delete (h : Inv s nodes) {currNode : Option ℕ}
    (hpc : s.pcs thread = .delete temp prevNode currNode)
    (hstep : s.advance thread nbytes byte = some s') : ∃ nodes', Inv s' nodes' := by
  obtain ⟨node, rfl, hat⟩ := h.place hpc rfl
  obtain ⟨front, back, hsplit, rfl, hfront⟩ := hat.passed
  obtain ⟨next, hcell⟩ := h.shaped.linked.mem hat.mem
  unfold State.advance at hstep
  rw [hpc] at hstep
  cases currNode with
  | none =>
    -- the walk ends at its own node at the latest
    have hall := hsplit.eq
    rw [hsplit.eq_nil, List.append_nil] at hall
    exact absurd rfl (hfront node (hall ▸ hat.mem))
  | some currNode =>
    obtain ⟨x, rest, next, rfl, rfl, hcurr, hnext⟩ := hsplit.cons
    obtain rfl := hsplit.eq
    dsimp only at hstep
    rw [State.access_some hcell, State.access_some hcurr] at hstep
    obtain rfl := Option.some.inj hstep
    by_cases hname : x.val.serviceName.text = node.val.serviceName.text
    · rw [if_pos hname]
      refine ⟨front ++ rest, ?_⟩
      obtain rfl | ⟨before, last, rfl⟩ := List.eq_nil_or_concat' front
      · exact h.remove hpc rfl hat hname hfront (h.shaped.linked.removeHead hcurr) fun _ ↦ rfl
      · have hlast : (ids (before ++ [last])).getLast? = some last.id := by
          rw [ids_append]
          exact List.getLast?_concat
        have hshape := h.shaped.linked
        rw [List.append_assoc, List.singleton_append] at hshape
        obtain ⟨cell, hprev⟩ := hshape.cell_of_mem
          (mem_ids (List.mem_append_right before List.mem_cons_self))
        rw [hlast]
        unfold State.unlink
        dsimp only
        rw [State.access_some hprev]
        refine h.remove hpc rfl hat hname hfront ?_ fun p ↦ isSome_setNext
        have hremoved := hshape.remove hcurr
        rwa [List.append_assoc, List.singleton_append]
    · rw [if_neg hname]
      refine ⟨front ++ x :: rest, h.keep (h.mut hpc rfl) rfl h.shaped ⟨node, rfl, hat.agrees,
        hat.owes, hat.mem, front ++ [x], rest, hnext, ?_, forall_front_snoc hfront hname⟩⟩
      rw [ids_append]
      exact List.getLast?_concat.symm

theorem Inv.addOrLeave_add (h : Inv s nodes) (hmut : s.clientMut = some thread)
    (hadd : m.matchFlag = false ∨ m.numOfClients = 0) (hshaped : m.Shaped nodes)
    (hadding : Adding m nodes io reg) (honly : m.Only nodes) :
    Inv ((s.write m).addOrLeave thread io reg) nodes := by
  unfold State.addOrLeave
  have hcond : (s.write m).memory.matchFlag = false ∨ (s.write m).memory.numOfClients = 0 := hadd
  rw [if_pos hcond]
  exact h.keep hmut rfl hshaped ⟨hadding, honly⟩

theorem Inv.addOrLeave_leave (h : Inv s nodes) (hmut : s.clientMut = some thread)
    (hflag : m.matchFlag = true) (hnum : m.numOfClients ≠ 0) (hshaped : m.Shaped nodes')
    (hsettled : Settled m nodes') : Inv ((s.write m).addOrLeave thread io reg) nodes' := by
  unfold State.addOrLeave
  have hcond : ¬ ((s.write m).memory.matchFlag = false ∨ (s.write m).memory.numOfClients = 0) := by
    intro hor
    rcases hor with hfalse | hzero
    · exact Bool.false_ne_true (hfalse.symm.trans hflag)
    · exact hnum hzero
  rw [if_neg hcond]
  exact h.keep hmut rfl hshaped hsettled

/-- The walk of a registration goes on behind a node. -/
theorem Walking.further (h : Walking s.memory nodes io reg i (some node.id))
    {item : RegListItem}
    (hwalk : reRegister io.reconnect reg 0 s.memory.registry.clients.gHead =
      (front.map Owned.val ++ (reRegister io.reconnect reg i ((node :: rest).map Owned.val)).1,
        (reRegister io.reconnect reg i ((node :: rest).map Owned.val)).2))
    (hitem : reRegister io.reconnect reg i (node.val :: rest.map Owned.val) =
      (item :: (reRegister io.reconnect reg (i + 1) (rest.map Owned.val)).1,
        (reRegister io.reconnect reg (i + 1) (rest.map Owned.val)).2))
    {cells : Cells RegListItem}
    (honly : Memory.Only { s.memory with cells := cells } (front ++ ⟨node.id, item⟩ :: rest))
    (hnext : Split cells (front ++ ⟨node.id, item⟩ :: rest) (front ++ [⟨node.id, item⟩]) rest
      next) :
    Walking { s.memory with cells := cells } (front ++ ⟨node.id, item⟩ :: rest) io reg (i + 1)
      next := by
  refine ⟨h.counted, h.count, h.flag, honly, h.owes, _, _, hnext, hwalk.trans ?_⟩
  rw [List.map_cons, hitem, List.map_append, List.append_assoc]
  rfl

theorem Memory.Shaped.setVal (h : m.Shaped (front ++ node :: rest)) (item : RegListItem) :
    Memory.Shaped { m with cells := m.cells.setVal node.id item }
      (front ++ ⟨node.id, item⟩ :: rest) := by
  refine ⟨h.linked.setVal item, fun p hp ↦ h.fresh p ?_, h.answered⟩
  have hp' : ((m.cells.setVal node.id item) p).isSome = true := hp
  rwa [isSome_setVal] at hp'

theorem Memory.Only.setVal (h : m.Only (front ++ node :: rest)) (item : RegListItem) :
    Memory.Only { m with cells := m.cells.setVal node.id item }
      (front ++ ⟨node.id, item⟩ :: rest) := by
  intro p hp
  have hp' : ((m.cells.setVal node.id item) p).isSome = true := hp
  rw [isSome_setVal] at hp'
  have hmem := h p hp'
  rw [ids_append, ids_cons] at hmem ⊢
  exact hmem

theorem Inv.reconnect (h : Inv s nodes) {temp : Option ℕ}
    (hpc : s.pcs thread = .reconnect io reg i temp)
    (hstep : s.advance thread nbytes byte = some s') : ∃ nodes', Inv s' nodes' := by
  have hat : Walking s.memory nodes io reg i temp := h.place hpc rfl
  have hmut := h.mut hpc rfl
  have hnum : s.memory.registry.clients.numOfClients ≠ 0 := hat.count ▸ hat.counted
  obtain ⟨front, back, hsplit, hwalk⟩ := hat.passed
  unfold State.advance at hstep
  rw [hpc] at hstep
  cases temp with
  | none =>
    obtain rfl := Option.some.inj hstep
    obtain rfl := hsplit.eq_nil
    have hall := hsplit.eq
    rw [List.append_nil] at hall
    have hwalked : walked io reg s.memory.registry = (nodes.map Owned.val, false) := by
      unfold walked
      rw [if_pos hnum, hwalk, hall]
      exact congrArg (·, false) (List.append_nil _)
    refine ⟨nodes, h.addOrLeave_add hmut (.inl hat.flag) h.shaped ?_ hat.only⟩
    refine ⟨?_, hat.count, ?_, ?_, hat.owes⟩
    · rw [hwalked]
    · rw [hwalked, hat.flag]
    · unfold needsNode
      rw [hwalked]
      rfl
  | some temp =>
    obtain ⟨x, rest, next, rfl, rfl, hcell, hnext⟩ := hsplit.cons
    obtain rfl := hsplit.eq
    dsimp only at hstep
    rw [State.access_some hcell] at hstep
    obtain rfl := Option.some.inj hstep
    dsimp only
    by_cases hname : x.val.serviceName.text = reg.serviceName
    · rw [if_pos hname]
      unfold State.reconnect
      dsimp only
      by_cases hconnects : 0 ≤ (io.reconnect i).socket ∧ 0 ≤ (io.reconnect i).connect
      · rw [if_pos hconnects]
        let item := { x.val with
          url := parStrncpy reg.url
          sock := (io.reconnect i).socket
          endpoint := (io.reconnect i).connect }
        have hshaped := h.shaped.setVal item
        have honly := hat.only.setVal item
        refine ⟨front ++ ⟨x.id, item⟩ :: rest, h.addOrLeave_leave hmut rfl hat.counted
          ⟨hshaped.linked, hshaped.fresh, answered_event hshaped.answered _⟩
          (hat.reconnected (hwalk.trans ?_) rfl rfl rfl rfl honly)⟩
        have hitem : reRegister io.reconnect reg i (x.val :: rest.map Owned.val) =
            (item :: rest.map Owned.val, true) := by
          rw [reRegister, if_pos hname]
          exact if_pos hconnects
        rw [List.map_cons, hitem, List.map_append]
        rfl
      · rw [if_neg hconnects]
        let item := { x.val with url := parStrncpy reg.url, sock := (io.reconnect i).socket }
        refine ⟨front ++ ⟨x.id, item⟩ :: rest, h.keep hmut rfl (h.shaped.setVal item) ?_⟩
        refine hat.further hwalk ?_ (hat.only.setVal item) ?_
        · rw [reRegister, if_pos hname]
          exact if_neg hconnects
        · exact .setVal h.shaped.linked hnext.segment item
    · rw [if_neg hname]
      refine ⟨front ++ x :: rest, h.keep hmut rfl h.shaped ?_⟩
      refine hat.further hwalk ?_ hat.only hnext
      rw [reRegister]
      exact if_neg hname

theorem Memory.Shaped.count (h : m.Shaped nodes) (node : RegListItem) :
    (m.count io reg node).Shaped nodes := by
  unfold Memory.count
  dsimp only
  split <;> exact ⟨h.linked, h.fresh, answered_event h.answered _⟩

/-- The new node is on the list, and it is counted if it is the one that was registered. -/
theorem Inv.counted (h : Inv s nodes) (hmut : s.clientMut = some thread)
    (hadding : Adding m nodes io reg) (hlinks : io.add.Links)
    (hcell : m.cells new = some ⟨newNode io.add reg, next⟩)
    (hshaped : m.Shaped (nodes ++ [⟨new, newNode io.add reg⟩]))
    (honly : ∀ p, (m.cells p).isSome = true → p = new ∨ p ∈ ids nodes) :
    Inv ((s.write m).count thread io reg new) (nodes ++ [⟨new, newNode io.add reg⟩]) := by
  unfold State.count
  rw [State.access_some hcell]
  refine h.keep hmut rfl (hshaped.count _) (hadding.counted hlinks ?_ fun p hp ↦ ?_)
  · rw [List.map_append]
    rfl
  · rw [ids_append, List.mem_append]
    rcases honly p hp with rfl | hmem
    · exact .inr List.mem_cons_self
    · exact .inl hmem

theorem Inv.fresh_not_mem (h : Inv s nodes) : s.memory.fresh ∉ ids nodes := by
  intro hmem
  obtain ⟨cell, hcell⟩ := h.shaped.linked.cell_of_mem hmem
  exact Nat.lt_irrefl _ (h.shaped.fresh _ (Option.isSome_iff_exists.mpr ⟨cell, hcell⟩))

theorem Inv.add (h : Inv s nodes) (hpc : s.pcs thread = .add io reg) :
    ∃ nodes', Inv (s.add thread io reg) nodes' := by
  obtain ⟨hadding, honly⟩ := h.place hpc rfl
  have hmut := h.mut hpc rfl
  unfold State.add
  by_cases hlinks : 0 ≤ io.add.socket ∧ 0 ≤ io.add.connect ∧ io.add.allocated = true
  · rw [if_pos hlinks]
    have hlinks' : io.add.Links := ⟨⟨hlinks.1, hlinks.2.1⟩, hlinks.2.2⟩
    let cells := s.memory.cells.alloc s.memory.fresh (newNode io.add reg)
    have hfresh : ∀ p, (cells p).isSome = true → p < s.memory.fresh + 1 := by
      intro p hp
      rcases isSome_alloc.mp hp with rfl | hold
      · exact Nat.lt_succ_self _
      · exact Nat.lt_succ_of_lt (h.shaped.fresh p hold)
    have hcells : ∀ p, (cells p).isSome = true → p = s.memory.fresh ∨ p ∈ ids nodes :=
      fun p hp ↦ (isSome_alloc.mp hp).imp_right (honly p)
    dsimp only
    cases hhead : s.memory.gHead with
    | none =>
      obtain rfl := h.shaped.linked.segment.eq_nil_iff.mp hhead
      have hfirst := Linked.first (x := ⟨s.memory.fresh, newNode io.add reg⟩) (alloc_self
        (m := s.memory.cells))
      refine ⟨_, h.counted hmut ?_ hlinks' alloc_self ⟨hfirst, hfresh, h.shaped.answered⟩
        hcells⟩
      exact ⟨hadding.clients, hadding.count, hadding.flag, hadding.needs, hadding.owes⟩
    | some temp =>
      have hlinked := h.shaped.linked
      rw [hhead] at hlinked
      refine ⟨nodes, h.keep hmut rfl ⟨hlinked.update h.fresh_not_mem, hfresh,
        h.shaped.answered⟩ ⟨?_, hlinks', alloc_self, h.fresh_not_mem, hcells, [], nodes, ?_⟩⟩
      · exact ⟨hadding.clients, hadding.count, hadding.flag, hadding.needs, hadding.owes⟩
      · exact hlinked.split.update h.fresh_not_mem
  · rw [if_neg hlinks]
    refine ⟨nodes, h.keep hmut rfl ⟨h.shaped.linked, h.shaped.fresh, answered_event
      h.shaped.answered _⟩ (hadding.failed honly ?_)⟩
    exact fun hall ↦ hlinks ⟨hall.1.1, hall.1.2, hall.2⟩

theorem Inv.link (h : Inv s nodes) (hpc : s.pcs thread = .link io reg new temp)
    (hstep : s.advance thread nbytes byte = some s') : ∃ nodes', Inv s' nodes' := by
  have hat : Linking s.memory nodes io reg new temp := h.place hpc rfl
  have hmut := h.mut hpc rfl
  obtain ⟨front, back, hsplit⟩ := hat.passed
  obtain ⟨x, rest, next, rfl, rfl, hcell, hnext⟩ := hsplit.cons
  unfold State.advance at hstep
  rw [hpc] at hstep
  dsimp only at hstep
  rw [State.access_some hcell] at hstep
  obtain rfl := Option.some.inj hstep
  cases next with
  | none =>
    obtain rfl := hnext.eq_nil
    obtain rfl := hsplit.eq
    have hne : new ≠ x.id := by
      intro heq
      exact hat.absent (heq ▸ mem_ids (List.mem_append_right _ List.mem_cons_self))
    have hnew : (s.memory.cells.setNext x.id (some new)) new = some ⟨newNode io.add reg, none⟩ :=
      (Function.update_of_ne hne _ _).trans hat.cell
    have hlinked := h.shaped.linked.append (x := ⟨new, newNode io.add reg⟩) hat.cell hat.absent
    refine ⟨_, h.counted hmut ?_ hat.links hnew ⟨hlinked, fun p hp ↦ ?_, h.shaped.answered⟩
      fun p hp ↦ ?_⟩
    · exact ⟨hat.adding.clients, hat.adding.count, hat.adding.flag, hat.adding.needs,
        hat.adding.owes⟩
    · exact h.shaped.fresh p (isSome_setNext.symm.trans hp)
    · exact hat.only p (isSome_setNext.symm.trans hp)
  | some next =>
    exact ⟨nodes, h.keep hmut rfl h.shaped
      ⟨hat.adding, hat.links, hat.cell, hat.absent, hat.only, _, _, hnext⟩⟩

theorem Inv.begin (h : Inv s nodes) (hmut : s.clientMut = none) (task : Task) :
    Inv (s.begin thread task) nodes := by
  have hsettled := h.free hmut
  have hagrees := hsettled.agrees
  have hsplit := h.shaped.linked.split
  have hshaped : ∀ request, (s.memory.ask request).Shaped nodes :=
    fun _ ↦ ⟨h.shaped.linked, h.shaped.fresh, h.shaped.answered⟩
  have hasked : ∀ request, Agrees (s.memory.ask request) nodes :=
    fun _ ↦ ⟨hagrees.clients, hagrees.count, hagrees.flag, hagrees.only⟩
  unfold State.begin
  cases task with
  | search caller dest =>
    refine h.goto (.inr hmut) rfl (hshaped _) ⟨hasked _, hsettled.owes.ask, [], nodes, hsplit, ?_⟩
    exact fun _ hnone ↦ absurd hnone List.not_mem_nil
  | serviceAlive =>
    dsimp only
    by_cases hnum : 0 < s.memory.numOfClients
    · have hcond : 0 < (s.lock thread).memory.numOfClients := hnum
      rw [if_pos hcond]
      exact h.goto (.inr hmut) rfl h.shaped ⟨hsettled, _, _, hsplit⟩
    · have hcond : ¬ 0 < (s.lock thread).memory.numOfClients := hnum
      rw [if_neg hcond]
      exact h.goto (.inr hmut) rfl h.shaped hsettled
  | register io reg =>
    dsimp only
    by_cases hnum : s.memory.numOfClients = 0
    · have hcond : ¬ (s.lock thread).memory.numOfClients ≠ 0 := not_not.mpr hnum
      let m := (s.lock thread).memory.ask (.event (.register io reg))
      have hadd : ((s.lock thread).write m).memory.matchFlag = false ∨
          ((s.lock thread).write m).memory.numOfClients = 0 := .inr hnum
      have hzero : s.memory.registry.clients.numOfClients = 0 := hagrees.count ▸ hnum
      have hwalked : walked io reg s.memory.registry =
          (s.memory.registry.clients.gHead, s.memory.registry.matchFlag) := by
        unfold walked
        exact if_neg (not_not.mpr hzero)
      rw [if_neg hcond]
      unfold State.addOrLeave
      rw [if_pos hadd]
      refine h.goto (.inr hmut) rfl (hshaped _)
        ⟨⟨?_, hagrees.count, ?_, ?_, hsettled.owes.ask⟩, hagrees.only⟩
      · exact hagrees.clients.trans (congrArg Prod.fst hwalked).symm
      · exact hagrees.flag.trans (congrArg Prod.snd hwalked).symm
      · have hneeds : needsNode io reg s.memory.registry = true := by
          unfold needsNode
          rw [hzero]
          exact Bool.or_true _
        exact hneeds
    · have hcond : (s.lock thread).memory.numOfClients ≠ 0 := hnum
      rw [if_pos hcond]
      refine h.goto (.inr hmut) rfl ⟨h.shaped.linked, h.shaped.fresh, h.shaped.answered⟩
        ⟨hnum, hagrees.count, rfl, hagrees.only, hsettled.owes.ask, [], nodes, hsplit, ?_⟩
      rw [hagrees.clients]
      rfl

end Places

/-- Whichever thread takes a step, the list stays that of the registry. -/
theorem Inv.step (h : Inv s nodes) (hstep : proceed nbytes s a = some s') :
    ∃ nodes', Inv s' nodes' := by
  cases a with
  | start thread task =>
    obtain ⟨hidle, heq⟩ := Option.ite_none_right_eq_some.mp hstep
    obtain rfl := Option.some.inj heq
    exact ⟨nodes, h.begin hidle.2 task⟩
  | step thread byte =>
    have hadvance : s.advance thread nbytes byte = some s' := hstep
    have hsame := hadvance
    unfold State.advance at hsame
    cases hpc : s.pcs thread with
    | idle =>
      rw [hpc] at hsame
      cases hsame
    | search caller dest temp => exact ⟨nodes, h.search hpc hadvance⟩
    | found caller temp => exact ⟨nodes, h.found hpc hadvance⟩
    | leave =>
      rw [hpc] at hsame
      exact ⟨nodes, Option.some.inj hsame ▸ h.leave hpc⟩
    | leaveLog temp =>
      rw [hpc] at hsame
      exact ⟨nodes, Option.some.inj hsame ▸ h.leaveLog hpc⟩
    | logUrl temp => exact ⟨nodes, h.logUrl hpc hadvance⟩
    | alive temp => exact ⟨nodes, h.alive hpc hadvance⟩
    | delete temp prevNode currNode => exact h.delete hpc hadvance
    | resync =>
      rw [hpc] at hsame
      exact ⟨nodes, Option.some.inj hsame ▸ h.resync hpc⟩
    | relock =>
      rw [hpc] at hsame
      obtain ⟨hmut, heq⟩ := Option.ite_none_right_eq_some.mp hsame
      exact ⟨nodes, Option.some.inj heq ▸ h.relock hmut⟩
    | reconnect io reg i temp => exact h.reconnect hpc hadvance
    | add io reg =>
      rw [hpc] at hsame
      obtain rfl := Option.some.inj hsame
      exact h.add hpc
    | link io reg new temp => exact h.link hpc hadvance

def Step (nbytes : ℤ) (s : State) (a : Action) (t : State) : Prop := proceed nbytes s a = some t

/-- The threads hold the lock one at a time. What they ask takes effect in the order in which they
got it, each once before the next, and with the answers of the registry, which the list is
whenever the lock is free. Freed memory is only touched where a url is logged without the lock. -/
structure Linearized (s : State) : Prop where
  exclusive : ∀ thread other, (s.pcs thread).holds = true → (s.pcs other).holds = true →
    thread = other
  answered : Answered init s.memory.done
  inOrder : ∃ owed, owed.length ≤ 1 ∧ s.memory.Owes owed
  list : s.clientMut = none → s.memory.Owes [] ∧
    ∃ nodes, Linked s.memory.cells s.memory.gHead nodes ∧ Agrees s.memory nodes
  faults : ∀ pc ∈ s.faults, ∃ temp, pc = .logUrl temp

theorem At.owes (h : At m nodes pc) : ∃ owed, owed.length ≤ 1 ∧ m.Owes owed := by
  cases pc with
  | idle | logUrl | relock => exact h.elim
  | leave | resync => exact ⟨_, Nat.zero_le _, Settled.owes h⟩
  | found | leaveLog | alive => exact ⟨_, Nat.zero_le _, h.1.owes⟩
  | search => exact ⟨_, Nat.le_refl _, Searching.owes h⟩
  | delete =>
    obtain ⟨node, _, hat⟩ := h
    exact ⟨_, Nat.le_refl _, hat.owes⟩
  | reconnect => exact ⟨_, Nat.le_refl _, Walking.owes h⟩
  | add => exact ⟨_, Nat.le_refl _, h.1.owes⟩
  | link => exact ⟨_, Nat.le_refl _, (Linking.adding h).owes⟩

theorem Inv.linearized (h : Inv s nodes) : Linearized s where
  exclusive thread other hthread hother := by
    have hmut := (h.locked thread).mp hthread
    rw [(h.locked other).mp hother] at hmut
    exact (Option.some.inj hmut).symm
  answered := h.shaped.answered
  inOrder := by
    cases hmut : s.clientMut with
    | none => exact ⟨_, Nat.zero_le _, (h.free hmut).owes⟩
    | some thread => exact (h.held thread hmut).owes
  list hmut := ⟨(h.free hmut).owes, nodes, h.shaped.linked, (h.free hmut).agrees⟩
  faults := h.faults

theorem inv_start : Inv start [] where
  shaped := ⟨⟨rfl, List.nodup_nil⟩, fun _ hnone ↦ absurd hnone Bool.false_ne_true, trivial⟩
  locked thread := iff_of_false Bool.false_ne_true (Option.some_ne_none thread ∘ Eq.symm)
  free _ := ⟨⟨rfl, rfl, rfl, fun _ hnone ↦ absurd hnone Bool.false_ne_true⟩, rfl⟩
  held thread hmut := absurd hmut.symm (Option.some_ne_none thread)
  faults _ hnone := absurd hnone List.not_mem_nil

theorem run_inv {tr : List (State × Action)} (h : Run (Step nbytes) start tr s) :
    Throughout (fun s ↦ ∃ nodes, Inv s nodes) tr s := by
  refine h.invariant (fun s a t hs hstep ↦ ?_) ⟨[], inv_start⟩
  obtain ⟨nodes, hs⟩ := hs
  exact hs.step hstep

/-- However the threads take turns, the list in memory is the registry that the operations make
one after the other. -/
theorem run_linearized {tr : List (State × Action)} (h : Run (Step nbytes) start tr s) :
    Throughout Linearized tr s := by
  obtain ⟨htr, nodes, hs⟩ := run_inv h
  refine ⟨fun x hx ↦ ?_, hs.linearized⟩
  obtain ⟨nodes, hx⟩ := htr x hx
  exact hx.linearized

section Inputs

/-- A client registers. It is found by one thread and deleted by another, before the first logs
its url. -/
def racing : List Action :=
  [.start 0 (.register ⟨fun _ ↦ refused, succeeds⟩ iot), .step 0 0, .step 0 0,
    .start 1 (.search .sendMsgtoRegisteredClients iot.serviceName), .step 1 0, .step 1 0,
    .step 1 0, .start 2 .serviceAlive, .step 2 (-1), .step 2 0, .step 1 0]

end Inputs

theorem run_linearized_racing :
    ∃ tr s, exec (proceed 7) start racing = some (tr, s) ∧ s.faults = [.logUrl 0] ∧
      Throughout Linearized tr s := by
  refine ⟨_, _, rfl, rfl, ?_⟩
  have hexec : exec (proceed 7) start racing = some (_, _) := rfl
  exact run_linearized (run_of_exec hexec)

end Parodus.Clients.Pointers
