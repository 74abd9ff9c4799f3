import Parodus.Clients.Sockets
import Parodus.Foundation.LinkedLists

namespace Parodus.Clients.Pointers

open Foundation Foundation.Runs Cells

/-- The functions that look for a client by its name. -/
inductive Search
  | listenerOnMessage
  | sendMsgtoRegisteredClients
  | checkClientStatus
  deriving DecidableEq

/-- What a thread does with the list of clients. -/
inductive Task
  | search (caller : Search) (dest : CString)
  | serviceAlive
  | register (io : RegistrationIO) (reg : RegMsg)

/-- Where a thread is, with the pointers it holds in its variables. -/
inductive Pc
  | idle
  | search (caller : Search) (dest : CString) (temp : Option ℕ)
  | found (caller : Search) (temp : ℕ)
  | leave
  | leaveLog (temp : ℕ)
  | logUrl (temp : ℕ)
  | alive (temp : Option ℕ)
  | delete (temp : ℕ) (prevNode currNode : Option ℕ)
  | resync
  | relock
  | reconnect (io : RegistrationIO) (reg : RegMsg) (i : ℕ) (temp : Option ℕ)
  | add (io : RegistrationIO) (reg : RegMsg)
  | link (io : RegistrationIO) (reg : RegMsg) (newNode temp : ℕ)

def Pc.holds : Pc → Bool
  | idle | logUrl _ | relock => false
  | _ => true

def Pc.isIdle : Pc → Bool
  | idle => true
  | _ => false

def Pc.pointers : Pc → List ℕ
  | idle | leave | resync | relock | add _ _ => []
  | search _ _ temp | alive temp | reconnect _ _ _ temp => temp.toList
  | found _ temp | leaveLog temp | logUrl temp => [temp]
  | delete temp prevNode currNode => temp :: (prevNode.toList ++ currNode.toList)
  | link _ _ newNode temp => [newNode, temp]

/-- What a thread asks of the list. -/
inductive Request
  | lookup (dest : CString)
  | event (ev : Event)

/-- A request with its answer: the socket of the client that was found. -/
inductive Op
  | lookup (dest : CString) (sock : Option ℤ)
  | event (ev : Event)

def Op.request : Op → Request
  | lookup dest _ => .lookup dest
  | event ev => .event ev

/-- The nodes with the variables of the list. One thread runs `processUpstreamMessage`, so that
there is one `matchFlag`. No variable keeps `asked`, the requests of the threads that had the lock,
and `done`, those that took effect. -/
structure Memory where
  cells : Cells RegListItem
  fresh : ℕ
  gHead : Option ℕ
  numOfClients : ℤ
  matchFlag : Bool
  asked : List Request
  done : List Op

/-- The memory, the lock with the thread that holds it, and the threads. In `faults` are the
places at which freed memory was touched. -/
structure State where
  memory : Memory
  clientMut : Option ℕ
  pcs : ℕ → Pc
  faults : List Pc

def start : State := ⟨⟨fun _ ↦ none, 0, none, 0, false, [], []⟩, none, fun _ ↦ .idle, []⟩

inductive Action
  | start (thread : ℕ) (task : Task)
  | step (thread : ℕ) (byte : ℤ)

def Memory.ask (request : Request) (m : Memory) : Memory :=
  { m with asked := m.asked ++ [request] }

def Memory.commit (op : Op) (m : Memory) : Memory := { m with done := m.done ++ [op] }

/-- What `deleteFromList` does behind the link to the node. -/
def Memory.remove (name : CString) (currNode : ℕ) (m : Memory) : Memory :=
  { m with
    cells := m.cells.free currNode
    numOfClients := m.numOfClients - 1 }.commit (.event (.deleteFromList (some name)))

/-- What `addToList` does with a node that is linked. -/
def Memory.count (io : RegistrationIO) (reg : RegMsg) (node : RegListItem) (m : Memory) : Memory :=
  let m :=
    if node.serviceName.text = reg.serviceName ∧ node.url.text = reg.url then
      { m with numOfClients := m.numOfClients + 1 }
    else m
  m.commit (.event (.register io reg))

section
variable (thread : ℕ)

def State.goto (pc : Pc) (s : State) : State :=
  { s with pcs := Function.update s.pcs thread pc }

def State.write (m : Memory) (s : State) : State := { s with memory := m }

def State.lock (s : State) : State := { s with clientMut := some thread }

def State.unlock (s : State) : State := { s with clientMut := none }

/-- A node is read or written. -/
def State.access (p : ℕ) (use : Cell RegListItem → State) (s : State) : State :=
  match s.memory.cells p with
  | none => { s with faults := s.faults ++ [s.pcs thread] }.goto thread .idle
  | some cell => use cell

/-- Behind the walk of `processUpstreamMessage`. -/
def State.addOrLeave (io : RegistrationIO) (reg : RegMsg) (s : State) : State :=
  if s.memory.matchFlag = false ∨ s.memory.numOfClients = 0 then s.goto thread (.add io reg)
  else s.goto thread .leave

def State.count (io : RegistrationIO) (reg : RegMsg) (newNode : ℕ) (s : State) : State :=
  s.access thread newNode fun node ↦
    (s.write (s.memory.count io reg node.val)).goto thread .leave

/-- `deleteFromList` has found the node. -/
def State.unlink (name : CString) (prevNode : Option ℕ) (currNode : ℕ) (next : Option ℕ)
    (s : State) : State :=
  match prevNode with
  | none =>
    (s.write ({ s.memory with gHead := next }.remove name currNode)).goto thread .resync
  | some prevNode => s.access thread prevNode fun _ ↦
      (s.write ({ s.memory with cells := s.memory.cells.setNext prevNode next }.remove
        name currNode)).goto thread .resync

/-- A registration reconnects the node it has found, or fails to. -/
def State.reconnect (io : RegistrationIO) (reg : RegMsg) (i temp : ℕ) (cell : Cell RegListItem)
    (s : State) : State :=
  let node := { cell.val with url := parStrncpy reg.url, sock := (io.reconnect i).socket }
  if 0 ≤ (io.reconnect i).socket ∧ 0 ≤ (io.reconnect i).connect then
    let node := { node with endpoint := (io.reconnect i).connect }
    let m := { s.memory with cells := s.memory.cells.setVal temp node, matchFlag := true }
    (s.write (m.commit (.event (.register io reg)))).addOrLeave thread io reg
  else
    (s.write { s.memory with cells := s.memory.cells.setVal temp node }).goto thread
      (.reconnect io reg (i + 1) cell.next)

def State.add (io : RegistrationIO) (reg : RegMsg) (s : State) : State :=
  if 0 ≤ io.add.socket ∧ 0 ≤ io.add.connect ∧ io.add.allocated = true then
    let new := s.memory.fresh
    let m := { s.memory with
      cells := s.memory.cells.alloc new (newNode io.add reg)
      fresh := new + 1 }
    match s.memory.gHead with
    | none => (s.write { m with gHead := some new }).count thread io reg new
    | some temp => (s.write m).goto thread (.link io reg new temp)
  else (s.write (s.memory.commit (.event (.register io reg)))).goto thread .leave

/-- `get_global_node`, and what the caller does first. -/
def State.begin (task : Task) (s : State) : State :=
  let s := s.lock thread
  match task with
  | .search caller dest =>
    (s.write (s.memory.ask (.lookup dest))).goto thread (.search caller dest s.memory.gHead)
  | .serviceAlive =>
    s.goto thread (if 0 < s.memory.numOfClients then .alive s.memory.gHead else .leave)
  | .register io reg =>
    let m := s.memory.ask (.event (.register io reg))
    if s.memory.numOfClients ≠ 0 then
      (s.write { m with matchFlag := false }).goto thread (.reconnect io reg 0 s.memory.gHead)
    else (s.write m).addOrLeave thread io reg

/-- One step of a thread, which looks at one node; `byte` is what `nn_send` returns. -/
def State.advance (nbytes byte : ℤ) (s : State) : Option State :=
  match s.pcs thread with
  | .idle => none
  | .search _ dest none => some ((s.write (s.memory.commit (.lookup dest none))).goto thread .leave)
  | .search caller dest (some temp) => some (s.access thread temp fun node ↦
      if dest = node.val.serviceName.text then
        (s.write (s.memory.commit (.lookup dest (some node.val.sock)))).goto thread
          (if caller = .checkClientStatus then .leave else .found caller temp)
      else s.goto thread (.search caller dest node.next))
  -- `listenerOnMessage` logs the url while it holds the lock
  | .found caller temp => some (s.access thread temp fun _ ↦
      s.goto thread (if caller = .sendMsgtoRegisteredClients then .leaveLog temp else .leave))
  | .leave => some (s.unlock.goto thread .idle)
  | .leaveLog temp => some (s.unlock.goto thread (.logUrl temp))
  -- `sendMsgtoRegisteredClients` logs it when the lock is free again
  | .logUrl temp => some (s.access thread temp fun _ ↦ s.goto thread .idle)
  | .alive none => some (s.goto thread .leave)
  | .alive (some temp) => some (s.access thread temp fun node ↦
      if byte = nbytes then s.goto thread (.alive node.next)
      else (s.write (s.memory.ask (.event (.deleteFromList (some node.val.serviceName.text))))).goto
        thread (.delete temp none s.memory.gHead))
  | .delete temp _ none => some (s.access thread temp fun node ↦
      (s.write (s.memory.commit (.event (.deleteFromList (some node.val.serviceName.text))))).goto
        thread (.alive node.next))
  -- the name that is looked for stands in the node `temp`
  | .delete temp prevNode (some currNode) => some (s.access thread temp fun node ↦
      s.access thread currNode fun curr ↦
        if curr.val.serviceName.text = node.val.serviceName.text then
          s.unlink thread node.val.serviceName.text prevNode currNode curr.next
        else s.goto thread (.delete temp (some currNode) curr.next))
  | .resync => some (s.unlock.goto thread .relock)
  | .relock =>
    if s.clientMut = none then some ((s.lock thread).goto thread (.alive s.memory.gHead))
    else none
  | .reconnect io reg _ none => some (s.addOrLeave thread io reg)
  | .reconnect io reg i (some temp) => some (s.access thread temp fun node ↦
      if node.val.serviceName.text = reg.serviceName then s.reconnect thread io reg i temp node
      else s.goto thread (.reconnect io reg (i + 1) node.next))
  | .add io reg => some (s.add thread io reg)
  | .link io reg newNode temp => some (s.access thread temp fun node ↦
      match node.next with
      | none =>
        (s.write { s.memory with cells := s.memory.cells.setNext temp (some newNode) }).count
          thread io reg newNode
      | some next => s.goto thread (.link io reg newNode next))

end

/-- A thread that is idle waits for the lock to begin. -/
def proceed (nbytes : ℤ) (s : State) : Action → Option State
  | .start thread task =>
    if (s.pcs thread).isIdle = true ∧ s.clientMut = none then
      some (s.begin thread task)
    else none
  | .step thread byte => s.advance thread nbytes byte

def Op.apply (r : Registry) : Op → Registry
  | lookup _ _ => r
  | event ev => handle r ev

/-- What the operations that took effect make of the registry. -/
def Memory.registry (m : Memory) : Registry := m.done.foldl Op.apply init

/-- The socket of the first client of the name. -/
def lookup (dest : CString) (l : ClientList) : Option ℤ :=
  (l.gHead.find? fun node ↦ node.serviceName.text == dest).map RegListItem.sock

/-- Each lookup is answered from the registry at its place among the operations. -/
def Answered : Registry → List Op → Prop
  | _, [] => True
  | r, .lookup dest sock :: ops => sock = lookup dest r.clients ∧ Answered r ops
  | r, .event ev :: ops => Answered (handle r ev) ops

abbrev Nodes := List (Owned RegListItem)

def Memory.Only (m : Memory) (nodes : Nodes) : Prop :=
  ∀ p, (m.cells p).isSome = true → p ∈ ids nodes

/-- All that was asked took effect in this order, but for what is still owed. -/
def Memory.Owes (m : Memory) (owed : List Request) : Prop :=
  m.asked = m.done.map Op.request ++ owed

/-- The list is that of the registry, and no node is lost. -/
structure Agrees (m : Memory) (nodes : Nodes) : Prop where
  clients : nodes.map Owned.val = m.registry.clients.gHead
  count : m.numOfClients = m.registry.clients.numOfClients
  flag : m.matchFlag = m.registry.matchFlag
  only : m.Only nodes

structure Settled (m : Memory) (nodes : Nodes) : Prop where
  agrees : Agrees m nodes
  owes : m.Owes []

/-- The walk of a registration has found no node to reconnect. -/
structure Adding (m : Memory) (nodes : Nodes) (io : RegistrationIO) (reg : RegMsg) : Prop where
  clients : nodes.map Owned.val = (walked io reg m.registry).1
  count : m.numOfClients = m.registry.clients.numOfClients
  flag : m.matchFlag = (walked io reg m.registry).2
  needs : needsNode io reg m.registry = true
  owes : m.Owes [.event (.register io reg)]

/-- A registration has walked to the `i`-th node. -/
structure Walking (m : Memory) (nodes : Nodes) (io : RegistrationIO) (reg : RegMsg) (i : ℕ)
    (temp : Option ℕ) : Prop where
  counted : m.numOfClients ≠ 0
  count : m.numOfClients = m.registry.clients.numOfClients
  flag : m.matchFlag = false
  only : m.Only nodes
  owes : m.Owes [.event (.register io reg)]
  passed : ∃ front back, Split m.cells nodes front back temp ∧
    reRegister io.reconnect reg 0 m.registry.clients.gHead =
      (front.map Owned.val ++ (reRegister io.reconnect reg i (back.map Owned.val)).1,
        (reRegister io.reconnect reg i (back.map Owned.val)).2)

/-- A new node is on its way to the end of the list. -/
structure Linking (m : Memory) (nodes : Nodes) (io : RegistrationIO) (reg : RegMsg)
    (new temp : ℕ) : Prop where
  adding : Adding m nodes io reg
  links : io.add.Links
  cell : m.cells new = some ⟨newNode io.add reg, none⟩
  absent : new ∉ ids nodes
  only : ∀ p, (m.cells p).isSome = true → p = new ∨ p ∈ ids nodes
  passed : ∃ front back, Split m.cells nodes front back (some temp)

/-- A lookup has passed clients of other names. -/
structure Searching (m : Memory) (nodes : Nodes) (dest : CString) (temp : Option ℕ) : Prop where
  agrees : Agrees m nodes
  owes : m.Owes [.lookup dest]
  passed : ∃ front back, Split m.cells nodes front back temp ∧
    ∀ other ∈ front, other.val.serviceName.text ≠ dest

/-- `deleteFromList` has passed clients of other names. -/
structure Deleting (m : Memory) (nodes : Nodes) (node : Owned RegListItem)
    (prevNode currNode : Option ℕ) : Prop where
  agrees : Agrees m nodes
  owes : m.Owes [.event (.deleteFromList (some node.val.serviceName.text))]
  mem : node ∈ nodes
  passed : ∃ front back, Split m.cells nodes front back currNode ∧
    prevNode = (ids front).getLast? ∧
    ∀ other ∈ front, other.val.serviceName.text ≠ node.val.serviceName.text

/-- What is true while a thread is at a place where it holds the lock. -/
def At (m : Memory) (nodes : Nodes) : Pc → Prop
  | .idle | .logUrl _ | .relock => False
  | .leave | .resync => Settled m nodes
  | .search _ dest temp => Searching m nodes dest temp
  | .alive temp => Settled m nodes ∧ ∃ front back, Split m.cells nodes front back temp
  | .found _ temp | .leaveLog temp => Settled m nodes ∧ temp ∈ ids nodes
  | .delete temp prevNode currNode =>
    ∃ node, node.id = temp ∧ Deleting m nodes node prevNode currNode
  | .reconnect io reg i temp => Walking m nodes io reg i temp
  | .add io reg => Adding m nodes io reg ∧ m.Only nodes
  | .link io reg new temp => Linking m nodes io reg new temp

structure Memory.Shaped (m : Memory) (nodes : Nodes) : Prop where
  linked : Linked m.cells m.gHead nodes
  fresh : ∀ p, (m.cells p).isSome = true → p < m.fresh
  answered : Answered init m.done

structure Inv (s : State) (nodes : Nodes) : Prop where
  shaped : s.memory.Shaped nodes
  locked : ∀ thread, (s.pcs thread).holds = true ↔ s.clientMut = some thread
  free : s.clientMut = none → Settled s.memory nodes
  held : ∀ thread, s.clientMut = some thread → At s.memory nodes (s.pcs thread)
  faults : ∀ pc ∈ s.faults, ∃ temp, pc = .logUrl temp

variable {s s' : State} {m : Memory} {nodes nodes' : Nodes} {thread : ℕ} {pc : Pc} {p : ℕ}
  {a : Action} {nbytes byte : ℤ} {use : Cell RegListItem → State} {cell : Cell RegListItem}
  {ev : Event} {io : RegistrationIO} {reg : RegMsg}

theorem State.access_some (h : s.memory.cells p = some cell) :
    s.access thread p use = use cell := by
  unfold State.access
  rw [h]

theorem State.access_none (h : s.memory.cells p = none) :
    s.access thread p use = { s with faults := s.faults ++ [s.pcs thread] }.goto thread .idle := by
  unfold State.access
  rw [h]

theorem Memory.registry_commit (op : Op) (m : Memory) :
    (m.commit op).registry = op.apply m.registry := by
  unfold Memory.registry Memory.commit
  rw [List.foldl_append]
  rfl

theorem Memory.Owes.commit {op : Op} (h : m.Owes [op.request]) : (m.commit op).Owes [] := by
  unfold Memory.Owes Memory.commit
  rw [List.map_append, List.append_nil]
  exact h

theorem Memory.Owes.ask {request : Request} (h : m.Owes []) : (m.ask request).Owes [request] := by
  unfold Memory.Owes at h ⊢
  unfold Memory.ask
  rw [h, List.append_nil]

theorem answered_append {r : Registry} {ops ops' : List Op} :
    Answered r (ops ++ ops') ↔ Answered r ops ∧ Answered (ops.foldl Op.apply r) ops' := by
  induction ops generalizing r with
  | nil => exact (and_iff_right trivial).symm
  | cons op ops ih =>
    cases op with
    | lookup dest sock => exact (and_congr_right fun _ ↦ ih).trans and_assoc.symm
    | event ev => exact ih

theorem answered_event (h : Answered init m.done) (ev : Event) :
    Answered init (m.commit (.event ev)).done := answered_append.mpr ⟨h, trivial⟩

theorem answered_lookup (h : Answered init m.done) {dest : CString} {sock : Option ℤ}
    (hsock : sock = lookup dest m.registry.clients) :
    Answered init (m.commit (.lookup dest sock)).done := answered_append.mpr ⟨h, hsock, trivial⟩

section Threads

theorem holds_update {owner owner' : Option ℕ} {pcs : ℕ → Pc}
    (h : ∀ thread, (pcs thread).holds = true ↔ owner = some thread)
    (hothers : ∀ other, other ≠ thread → (owner = some other ↔ owner' = some other))
    (hpc : pc.holds = true ↔ owner' = some thread) (other : ℕ) :
    ((Function.update pcs thread pc) other).holds = true ↔ owner' = some other := by
  by_cases heq : other = thread
  · subst heq
    rw [Function.update_self]
    exact hpc
  · rw [Function.update_of_ne heq, h, hothers other heq]

theorem Inv.mut (h : Inv s nodes) (hpc : s.pcs thread = pc) (hholds : pc.holds = true) :
    s.clientMut = some thread := by
  refine (h.locked thread).mp ?_
  rw [hpc]
  exact hholds

theorem Inv.place (h : Inv s nodes) (hpc : s.pcs thread = pc) (hholds : pc.holds = true) :
    At s.memory nodes pc := by
  have hat := h.held thread (h.mut hpc hholds)
  rwa [hpc] at hat

/-- A thread goes on with the lock, which it had, or which no thread had. -/
theorem Inv.goto (h : Inv s nodes)
    (hmut : s.clientMut = some thread ∨ s.clientMut = none) (hholds : pc.holds = true)
    (hshaped : m.Shaped nodes') (hat : At m nodes' pc) :
    Inv (((s.lock thread).write m).goto thread pc) nodes' where
  shaped := hshaped
  locked := by
    refine holds_update h.locked (fun other hother ↦ ?_) (iff_of_true hholds rfl)
    have hother' : ¬ some thread = some other := fun heq ↦ hother (Option.some.inj heq).symm
    refine iff_of_false ?_ hother'
    rcases hmut with hmut | hmut
    · rwa [hmut]
    · rw [hmut]
      exact Option.some_ne_none other ∘ Eq.symm
  free hnone := absurd hnone (Option.some_ne_none thread)
  held other hother := by
    obtain rfl := Option.some.inj hother
    have hself : (((s.lock thread).write m).goto thread pc).pcs thread = pc :=
      Function.update_self ..
    rw [hself]
    exact hat
  faults := h.faults

theorem State.lock_of_mut (hmut : s.clientMut = some thread) : s.lock thread = s := by
  unfold State.lock
  rw [← hmut]

/-- The thread that holds the lock goes on. -/
theorem Inv.keep (h : Inv s nodes) (hmut : s.clientMut = some thread) (hholds : pc.holds = true)
    (hshaped : m.Shaped nodes') (hat : At m nodes' pc) :
    Inv ((s.write m).goto thread pc) nodes' := by
  have hgoto := h.goto (.inl hmut) hholds hshaped hat
  rwa [State.lock_of_mut hmut] at hgoto

/-- The lock is released. -/
theorem Inv.unlock (h : Inv s nodes) (hmut : s.clientMut = some thread)
    (hholds : pc.holds = false) (hsettled : Settled s.memory nodes) :
    Inv (s.unlock.goto thread pc) nodes where
  shaped := h.shaped
  locked := by
    refine holds_update h.locked (fun other hother ↦ ?_) ?_
    · rw [hmut]
      exact iff_of_false (fun heq ↦ hother (Option.some.inj heq).symm)
        (Option.some_ne_none other ∘ Eq.symm)
    · rw [hholds]
      exact iff_of_false Bool.false_ne_true (Option.some_ne_none thread ∘ Eq.symm)
  free _ := hsettled
  held other hother := absurd hother.symm (Option.some_ne_none other)
  faults := h.faults

/-- A thread goes on without the lock. -/
theorem Inv.aside (h : Inv s nodes) {faults : List Pc}
    (hpc : (s.pcs thread).holds = false) (hholds : pc.holds = false)
    (hfaults : ∀ pc ∈ faults, ∃ temp, pc = .logUrl temp) :
    Inv ({ s with faults := faults }.goto thread pc) nodes where
  shaped := h.shaped
  locked := by
    refine holds_update h.locked (fun _ _ ↦ Iff.rfl) ?_
    rw [hholds, ← hpc]
    exact h.locked thread
  free := h.free
  held other hother := by
    have hne : other ≠ thread := by
      intro heq
      have hheld := (h.locked other).mpr hother
      rw [heq, hpc] at hheld
      cases hheld
    have hsame : (State.goto thread pc { s with faults := faults }).pcs other = s.pcs other :=
      Function.update_of_ne hne _ _
    rw [hsame]
    exact h.held other hother
  faults := hfaults

end Threads

end Parodus.Clients.Pointers
