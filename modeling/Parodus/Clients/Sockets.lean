import Parodus.Clients.Registration
import Parodus.Foundation.Descriptors
import Parodus.Foundation.Potential

namespace Parodus.Clients

open Foundation Foundation.Runs Foundation.Descriptors

/-- The registry with the nanomsg sockets that are open. -/
structure SocketRegistry where
  registry : Registry
  sockets : Descriptors
  deriving DecidableEq

/-- The sockets that the walk of `reRegister` closes and creates. -/
def walkSockets (io : ℕ → Attempt) (reg : RegMsg) :
    ℕ → List RegListItem → Descriptors → Option Descriptors
  | _, [], k => some k
  | i, node :: nodes, k =>
    if node.serviceName.text = reg.serviceName then
      match (k.close node.sock).opens (io i).socket with
      | none => none
      | some k =>
        if 0 ≤ (io i).socket ∧ 0 ≤ (io i).connect then some k
        else walkSockets io reg (i + 1) nodes k
    else walkSockets io reg (i + 1) nodes k

/-- In `addToList` a socket that does not connect is closed. If there is no memory for the node,
it is not. -/
def addSockets (io : Attempt) (k : Descriptors) : Option Descriptors :=
  match k.opens io.socket with
  | none => none
  | some k => some (if 0 ≤ io.socket ∧ io.connect < 0 then k.close io.socket else k)

/-- The list and the `matchFlag` behind the walk. -/
def walked (io : RegistrationIO) (reg : RegMsg) (s : Registry) : List RegListItem × Bool :=
  if s.clients.numOfClients ≠ 0 then reRegister io.reconnect reg 0 s.clients.gHead
  else (s.clients.gHead, s.matchFlag)

def needsNode (io : RegistrationIO) (reg : RegMsg) (s : Registry) : Bool :=
  !(walked io reg s).2 || s.clients.numOfClients == 0

def registerSockets (io : RegistrationIO) (reg : RegMsg) (s : Registry) (k : Descriptors) :
    Option Descriptors :=
  match (if s.clients.numOfClients ≠ 0 then walkSockets io.reconnect reg 0 s.clients.gHead k
    else some k) with
  | none => none
  | some k => if needsNode io reg s then addSockets io.add k else some k

/-- The node of `deleteFromList` closes its socket. -/
def deleteSockets (serviceName : Option CString) (l : ClientList) (k : Descriptors) :
    Descriptors :=
  match serviceName with
  | none => k
  | some name =>
    match l.gHead.find? fun node ↦ node.serviceName.text == name with
    | none => k
    | some node => k.close node.sock

/-- `deleteAllClients` closes no socket. -/
def handleSockets (s : SocketRegistry) (ev : Event) : Option SocketRegistry :=
  let sockets : Option Descriptors :=
    match ev with
    | .register io reg => registerSockets io reg s.registry s.sockets
    | .deleteFromList name => some (deleteSockets name s.registry.clients s.sockets)
    | .deleteAllClients => some s.sockets
  sockets.map fun k ↦ ⟨handle s.registry ev, k⟩

def SocketStep (s : SocketRegistry) (ev : Event) (t : SocketRegistry) : Prop :=
  handleSockets s ev = some t

def initSockets : SocketRegistry := ⟨init, start⟩

def socks (nodes : List RegListItem) : List ℤ := nodes.map RegListItem.sock

def SocketRegistry.held (s : SocketRegistry) : List ℤ := socks s.registry.clients.gHead

/-- The sockets that are left open without a node: a new one whose node finds no memory, and those
of all nodes in `deleteAllClients`. -/
def lostSockets (s : SocketRegistry) : Event → List ℤ
  | .register io reg =>
    if needsNode io reg s.registry ∧ 0 ≤ io.add.connect ∧ io.add.allocated = false then
      valid [io.add.socket]
    else []
  | .deleteFromList _ => []
  | .deleteAllClients => valid s.held

/-- Every node that has a socket has an open one, for itself alone, and no socket was closed
behind its close. -/
structure SocketsRight (s : SocketRegistry) : Prop where
  opened : ∀ node ∈ s.registry.clients.gHead, 0 ≤ node.sock → node.sock ∈ s.sockets.opened
  own : (valid s.held).Nodup
  closed : s.sockets.strays = 0

variable {s t : SocketRegistry} {k k' : Descriptors} {held lost : List ℤ} {io : ℕ → Attempt}
  {reg : RegMsg} {nodes rest : List RegListItem} {node : RegListItem} {i : ℕ} {name : CString}

theorem SocketStep.registry {ev : Event} (h : SocketStep s ev t) :
    Step s.registry ev t.registry := by
  obtain ⟨k, _, rfl⟩ := Option.map_eq_some_iff.mp h
  rfl

@[simp] theorem socks_cons (node : RegListItem) (nodes : List RegListItem) :
    socks (node :: nodes) = node.sock :: socks nodes := rfl

theorem socks_append (front back : List RegListItem) :
    socks (front ++ back) = socks front ++ socks back := List.map_append

/-- The walk hands every node of the name a new socket for the one it closes, until one
connects. -/
theorem walkSockets_covers (h : k.Covers (socks nodes ++ held) lost)
    (hwalk : walkSockets io reg i nodes k = some k') :
    k'.Covers (socks (reRegister io reg i nodes).1 ++ held) lost := by
  induction nodes generalizing i k held with
  | nil =>
    obtain rfl := Option.some.inj hwalk
    exact h
  | cons node nodes ih =>
    unfold walkSockets at hwalk
    unfold reRegister
    by_cases hname : node.serviceName.text = reg.serviceName
    · rw [if_pos hname] at hwalk
      rw [if_pos hname]
      cases hopens : (k.close node.sock).opens (io i).socket with
      | none =>
        rw [hopens] at hwalk
        cases hwalk
      | some opened =>
        rw [hopens] at hwalk
        have hopened := h.close.opens hopens
        by_cases hconnects : 0 ≤ (io i).socket ∧ 0 ≤ (io i).connect
        · simp only [if_pos hconnects] at hwalk ⊢
          obtain rfl := Option.some.inj hwalk
          exact hopened
        · simp only [if_neg hconnects] at hwalk ⊢
          have hrest := ih (hopened.of_perm List.perm_middle) hwalk
          exact hrest.of_perm List.perm_middle.symm
    · rw [if_neg hname] at hwalk
      simp only [if_neg hname]
      have hrest := ih (h.of_perm List.perm_middle) hwalk
      exact hrest.of_perm List.perm_middle.symm

theorem addToList_gHead (io : Attempt) (reg : RegMsg) (l : ClientList) :
    (addToList io reg l).2.gHead = l.gHead ++ [newNode io reg] ∧ io.Links ∨
      (addToList io reg l).2.gHead = l.gHead ∧ ¬ io.Links := by
  rcases addToList_cases io reg l with ⟨hnot, hsame⟩ | ⟨hlinks, _, hnew⟩ | ⟨hlinks, _, hnew⟩
  · exact .inr ⟨congrArg ClientList.gHead hsame, hnot⟩
  · exact .inl ⟨congrArg ClientList.gHead hnew, hlinks⟩
  · exact .inl ⟨congrArg ClientList.gHead hnew, hlinks⟩

/-- A new node gets the new socket, or the socket is closed, or lost without memory. -/
theorem addSockets_covers {io : Attempt} {l : ClientList} (h : k.Covers (socks l.gHead) lost)
    (hadd : addSockets io k = some k') :
    k'.Covers (socks (addToList io reg l).2.gHead)
      ((if 0 ≤ io.connect ∧ io.allocated = false then valid [io.socket] else []) ++ lost) := by
  unfold addSockets at hadd
  cases hopens : k.opens io.socket with
  | none =>
    rw [hopens] at hadd
    cases hadd
  | some opened =>
    rw [hopens] at hadd
    obtain rfl := Option.some.inj hadd
    have hopened := h.opens hopens
    rcases addToList_gHead io reg l with ⟨hnew, ⟨hsocket, hconnect⟩, hallocated⟩ | ⟨hsame, hnot⟩
    · have hkept : ¬ (0 ≤ io.connect ∧ io.allocated = false) := by
        intro hlost
        rw [hallocated] at hlost
        cases hlost.2
      rw [if_neg fun hclose ↦ absurd hconnect (Int.not_le.mpr hclose.2), if_neg hkept, hnew,
        socks_append]
      exact hopened.of_perm (List.perm_append_singleton _ _)
    rw [hsame]
    by_cases hsocket : 0 ≤ io.socket
    · by_cases hconnect : 0 ≤ io.connect
      · have hallocated : io.allocated = false :=
          Bool.eq_false_of_not_eq_true fun hallocated ↦ hnot ⟨⟨hsocket, hconnect⟩, hallocated⟩
        rw [if_neg fun hclose ↦ absurd hconnect (Int.not_le.mpr hclose.2),
          if_pos ⟨hconnect, hallocated⟩]
        have hlost : opened.Covers ([io.socket] ++ socks l.gHead) lost := hopened
        exact hlost.lose
      · rw [if_pos ⟨hsocket, Int.not_le.mp hconnect⟩, if_neg fun hlost ↦ hconnect hlost.1]
        exact hopened.close
    · have hnone : (if 0 ≤ io.connect ∧ io.allocated = false then valid [io.socket] else []) =
          [] := by
        rw [valid_cons_of_neg (Int.not_le.mp hsocket)]
        exact ite_self _
      rw [hnone, if_neg fun hclose ↦ hsocket hclose.1]
      exact hopened.of_neg (Int.not_le.mp hsocket)

theorem processRegistration_eq (io : RegistrationIO) (reg : RegMsg) (s : Registry) :
    (processRegistration io reg s).clients = if needsNode io reg s = true then
      (addToList io.add reg { s.clients with gHead := (walked io reg s).1 }).2
    else { s.clients with gHead := (walked io reg s).1 } := by
  have hneeds : needsNode io reg s = true ↔
      (walked io reg s).2 = false ∨ s.clients.numOfClients = 0 := by
    rw [needsNode, Bool.or_eq_true, Bool.not_eq_true', beq_iff_eq]
  by_cases hn : needsNode io reg s = true
  · rw [if_pos hn]
    exact congrArg Registry.clients (if_pos (hneeds.mp hn))
  · rw [if_neg hn]
    exact congrArg Registry.clients (if_neg (fun h ↦ hn (hneeds.mpr h)))

theorem registerSockets_covers {io : RegistrationIO} {s : Registry}
    (h : k.Covers (socks s.clients.gHead) lost) (hreg : registerSockets io reg s k = some k') :
    k'.Covers (socks (processRegistration io reg s).clients.gHead)
      (lostSockets ⟨s, k⟩ (.register io reg) ++ lost) := by
  have hwalked : ∀ {opened}, (if s.clients.numOfClients ≠ 0 then
      walkSockets io.reconnect reg 0 s.clients.gHead k else some k) = some opened →
      opened.Covers (socks (walked io reg s).1) lost := by
    intro opened hopened
    unfold walked
    by_cases hnum : s.clients.numOfClients ≠ 0
    · rw [if_pos hnum] at hopened ⊢
      rw [← List.append_nil (socks s.clients.gHead)] at h
      have hcovers := walkSockets_covers h hopened
      rwa [List.append_nil] at hcovers
    · rw [if_neg hnum] at hopened ⊢
      obtain rfl := Option.some.inj hopened
      exact h
  unfold registerSockets at hreg
  split at hreg
  · cases hreg
  · rename_i opened hopened
    rw [processRegistration_eq]
    unfold lostSockets
    by_cases hneeds : needsNode io reg s = true
    · rw [if_pos hneeds] at hreg
      simp only [hneeds, if_true, true_and]
      exact addSockets_covers (hwalked hopened) hreg
    · rw [if_neg hneeds] at hreg
      simp only [hneeds]
      obtain rfl := Option.some.inj hreg
      exact hwalked hopened

/-- The node whose socket is closed is the one that is unlinked. -/
theorem unlink_find (name : CString) (nodes : List RegListItem) :
    (nodes.find? (fun node ↦ node.serviceName.text == name) = none ∧ unlink name nodes = none) ∨
    ∃ node rest, nodes.find? (fun node ↦ node.serviceName.text == name) = some node ∧
      unlink name nodes = some rest ∧ (node :: rest).Perm nodes := by
  induction nodes with
  | nil => exact .inl ⟨rfl, rfl⟩
  | cons node nodes ih =>
    unfold unlink
    by_cases hname : node.serviceName.text = name
    · refine .inr ⟨node, nodes, ?_, if_pos hname, .refl _⟩
      exact List.find?_cons_of_pos (by simpa using hname)
    · rw [if_neg hname, List.find?_cons_of_neg (by simpa using hname)]
      rcases ih with ⟨hfind, hnone⟩ | ⟨found, rest, hfind, hrest, hperm⟩
      · exact .inl ⟨hfind, by rw [hnone]; rfl⟩
      · refine .inr ⟨found, node :: rest, hfind, by rw [hrest]; rfl, ?_⟩
        exact (List.Perm.swap node found rest).trans (hperm.cons node)

theorem deleteSockets_covers {l : ClientList} (h : k.Covers (socks l.gHead) lost)
    (serviceName : Option CString) :
    (deleteSockets serviceName l k).Covers (socks (deleteFromList serviceName l).2.gHead) lost := by
  cases serviceName with
  | none => exact h
  | some name =>
    unfold deleteSockets deleteFromList
    rcases unlink_find name l.gHead with ⟨hfind, hnone⟩ | ⟨node, rest, hfind, hrest, hperm⟩
    · simp only [hfind, hnone]
      exact h
    · simp only [hfind, hrest]
      exact (h.of_perm (hperm.map RegListItem.sock)).close

theorem handleSockets_covers {ev : Event} (h : s.sockets.Covers s.held lost)
    (hstep : SocketStep s ev t) : t.sockets.Covers t.held (lostSockets s ev ++ lost) := by
  obtain ⟨k, hk, rfl⟩ := Option.map_eq_some_iff.mp hstep
  cases ev with
  | register io reg => exact registerSockets_covers h hk
  | deleteFromList name =>
    obtain rfl := Option.some.inj hk
    exact deleteSockets_covers h name
  | deleteAllClients =>
    obtain rfl := Option.some.inj hk
    rw [← List.append_nil s.held] at h
    exact h.lose

theorem SocketsRight.of_covers (h : s.sockets.Covers s.held lost) : SocketsRight s where
  opened _ hnode hpos := h.mem (List.mem_map_of_mem hnode) hpos
  own := h.valid_nodup
  closed := h.sound

theorem run_covers {tr : List (SocketRegistry × Event)} (h : Run SocketStep s tr t)
    (hs : s.sockets.Covers s.held lost) :
    ∃ lost', t.sockets.Covers t.held lost' ∧
      lost'.length = total (fun s ev ↦ (lostSockets s ev).length) tr + lost.length := by
  induction h generalizing lost with
  | nil => exact ⟨lost, hs, (Nat.zero_add _).symm⟩
  | cons hstep _ ih =>
    obtain ⟨lost', ht, hlength⟩ := ih (handleSockets_covers hs hstep)
    refine ⟨lost', ht, ?_⟩
    rw [hlength, total_cons, List.length_append]
    omega

section Inputs

/-- The socket of a client that registers again gets the number of the one that is closed, and
gets it again for the node of the last registration, which finds no memory. -/
def reusedEvents : List Event :=
  [.register ⟨fun _ ↦ refused, succeeds⟩ iot, .register ⟨fun _ ↦ succeeds, succeeds⟩ iot,
    .deleteFromList (some iot.serviceName),
    .register ⟨fun _ ↦ refused, { succeeds with allocated := false }⟩ iot]

end Inputs

end Parodus.Clients
