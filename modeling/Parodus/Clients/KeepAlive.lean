import Mathlib.Data.Nat.Find
import Parodus.Clients.Registration
import Parodus.Foundation.Guarded
import Parodus.Foundation.Ledger

namespace Parodus.Clients.KeepAlive

open Foundation Foundation.Guarded

/-- The nodes of the list under their addresses. -/
abbrev Nodes := List (Owned RegListItem)

inductive Act
  | readCount
  | lock
  | unlock
  | readHead
  | readNode (id : ℕ)
  | send (id : ℕ) (byte : ℤ)
  | remove (id : ℕ)
  deriving DecidableEq

def Act.use : Act → Use
  | lock => .lock
  | unlock => .unlock
  | readHead | readNode _ | remove _ => .access
  -- the counter is read before the lock is taken, and is not part of the list
  | readCount | send _ _ => .other

/-- `temp` is the list from the node the pointer is at. -/
structure Round where
  gHead : Nodes
  numOfClients : ℤ
  temp : Nodes
  log : List Act
  deriving DecidableEq

/-- The first node of the name, and the list without it. -/
def unlinkNode (serviceName : CString) : Nodes → Option (Owned RegListItem × Nodes)
  | [] => none
  | node :: nodes =>
    if node.val.serviceName.text = serviceName then some (node, nodes)
    else (unlinkNode serviceName nodes).map fun r ↦ (r.1, node :: r.2)

/-- The nodes the traversal looks at. -/
def traversal (serviceName : CString) : Nodes → List Act
  | [] => []
  | node :: nodes =>
    .readNode node.id ::
      if node.val.serviceName.text = serviceName then [] else traversal serviceName nodes

def deleteFromList (serviceName : CString) (s : Round) : ℤ × Round :=
  match unlinkNode serviceName s.gHead with
  | some (node, gHead) =>
    (0, { s with
      gHead := gHead
      numOfClients := s.numOfClients - 1
      log := s.log ++ (.readHead :: traversal serviceName s.gHead ++ [.remove node.id]) })
  | none => (-1, { s with log := s.log ++ .readHead :: traversal serviceName s.gHead })

/-- What follows a failed send: the walk starts again once a node is deleted. -/
def resync (node : Owned RegListItem) (rest : Nodes) (s : Round) : Round :=
  let deleted := deleteFromList node.val.serviceName.text s
  if deleted.1 = 0 then
    { deleted.2 with
      temp := deleted.2.gHead
      log := deleted.2.log ++ [.unlock, .lock, .readHead] }
  else { deleted.2 with temp := rest }

/-- One turn of the walk, with what `nn_send` returns. -/
def turn (nbytes byte : ℤ) (s : Round) : Round :=
  match s.temp with
  | [] => s
  | node :: rest =>
    let sent := { s with
      log := s.log ++ [.readNode node.id, .send node.id byte, .readNode node.id] }
    if byte = nbytes then { sent with temp := rest } else resync node rest sent

def startRound (numOfClients : ℤ) (gHead : Nodes) : Round where
  gHead := gHead
  numOfClients := numOfClients
  temp := if 0 < numOfClients then gHead else []
  log := [.readCount, .lock, .readHead, .readCount]

section
variable (nbytes : ℤ) (sent : ℕ → ℤ)

def turns (s : Round) : ℕ → Round
  | 0 => s
  | n + 1 => turn nbytes (sent n) (turns s n)

/-- The addresses of the nodes, which differ. -/
def addressed (items : List RegListItem) : Nodes :=
  items.zipIdx.map fun entry ↦ ⟨entry.2, entry.1⟩

/-- One round of `serviceAliveTask`, if it takes at most `fuel` sends. -/
def serviceAliveRound (clients : ClientList) (fuel : ℕ) : Option Round :=
  let s := turns nbytes sent (startRound clients.numOfClients (addressed clients.gHead)) fuel
  if s.temp = [] then some { s with log := s.log ++ [.unlock] } else none

end

def Act.sendTo (id : ℕ) : Act → Option ℤ
  | send id' byte => if id' = id then some byte else none
  | _ => none

def Act.removal : Act → Option ℕ
  | remove id => some id
  | _ => none

/-- What the sends to a node returned. -/
def sendsTo (id : ℕ) (log : List Act) : List ℤ := log.filterMap (Act.sendTo id)

def removals (log : List Act) : List ℕ := log.filterMap Act.removal

structure RoundOk (nbytes : ℤ) (nodes : Nodes) (out : Round) : Prop where
  removed : ∀ id ∈ removals out.log, ∃ byte ∈ sendsTo id out.log, byte ≠ nbytes
  left : ∀ node ∈ out.gHead, (sendsTo node.id out.log).getLast? = some nbytes
  order : out.gHead.Sublist nodes
  accounted : ∀ node ∈ nodes, node ∈ out.gHead ∨ node.id ∈ removals out.log
  locked : heldAfter Act.use false out.log = some false

/-- The round ends, and it ends well. -/
def KeepsAlive (nbytes : ℤ) (sent : ℕ → ℤ) (clients : ClientList) : Prop :=
  ∃ fuel out, serviceAliveRound nbytes sent clients fuel = some out ∧
    RoundOk nbytes (addressed clients.gHead) out

/-- No node before it on the list has its name. -/
def FirstOfName (node : Owned RegListItem) (nodes : Nodes) : Prop :=
  ∃ front back, nodes = front ++ node :: back ∧
    ∀ other ∈ front, other.val.serviceName.text ≠ node.val.serviceName.text

/-- The `n`th send does not fail, or fails at the first node of its name. -/
def FailsFirst (nbytes byte : ℤ) (s : Round) : Prop :=
  ∀ node rest, s.temp = node :: rest → byte ≠ nbytes → FirstOfName node s.gHead

variable {nbytes byte : ℤ} {sent : ℕ → ℤ} {serviceName : CString} {nodes rest : Nodes}
  {node removed : Owned RegListItem} {s : Round} {id n : ℕ} {log acts : List Act}

theorem unlinkNode_val (serviceName : CString) (nodes : Nodes) :
    (unlinkNode serviceName nodes).map (fun r ↦ r.2.map Owned.val) =
      unlink serviceName (nodes.map Owned.val) := by
  induction nodes with
  | nil => rfl
  | cons node nodes ih =>
    rw [unlinkNode, List.map_cons, unlink, ← ih]
    split
    · rfl
    · rw [Option.map_map, Option.map_map]
      rfl

/-- The deletion is the one of the client list. -/
theorem deleteFromList_clients (serviceName : CString) (s : Round) :
    Clients.deleteFromList (some serviceName) ⟨s.numOfClients, s.gHead.map Owned.val⟩ =
      ((deleteFromList serviceName s).1, ⟨(deleteFromList serviceName s).2.numOfClients,
        (deleteFromList serviceName s).2.gHead.map Owned.val⟩) := by
  rw [Clients.deleteFromList, deleteFromList]
  dsimp only
  rw [← unlinkNode_val]
  cases unlinkNode serviceName s.gHead <;> rfl

theorem unlinkNode_of_mem (hmem : ∃ node ∈ nodes, node.val.serviceName.text = serviceName) :
    ∃ front removed back, nodes = front ++ removed :: back ∧
      removed.val.serviceName.text = serviceName ∧
      (∀ other ∈ front, other.val.serviceName.text ≠ serviceName) ∧
      unlinkNode serviceName nodes = some (removed, front ++ back) := by
  induction nodes with
  | nil =>
    obtain ⟨node, hnode, _⟩ := hmem
    cases hnode
  | cons node nodes ih =>
    by_cases hname : node.val.serviceName.text = serviceName
    · exact ⟨[], node, nodes, rfl, hname, fun _ h ↦ absurd h List.not_mem_nil,
        by rw [unlinkNode, if_pos hname, List.nil_append]⟩
    · obtain ⟨node', hnode', hname'⟩ := hmem
      obtain rfl | hrest := List.mem_cons.mp hnode'
      · exact absurd hname' hname
      · obtain ⟨front, removed, back, rfl, hremoved, hfront, hunlink⟩ := ih ⟨node', hrest, hname'⟩
        refine ⟨node :: front, removed, back, rfl, hremoved, ?_, ?_⟩
        · exact List.forall_mem_cons.mpr ⟨hname, hfront⟩
        · rw [unlinkNode, if_neg hname, hunlink]
          rfl

/-- The log of a turn whose send fails. -/
def failureLog (node removed : Owned RegListItem) (byte : ℤ) (nodes : Nodes) : List Act :=
  [.readNode node.id, .send node.id byte, .readNode node.id] ++
    (.readHead :: traversal node.val.serviceName.text nodes ++ [.remove removed.id] ++
      [.unlock, .lock, .readHead])

/-- What a turn does. -/
theorem turn_cases (nbytes byte : ℤ) (s : Round) (hnodes : ∀ node ∈ s.temp, node ∈ s.gHead) :
    (s.temp = [] ∧ turn nbytes byte s = s) ∨
    (∃ node rest, s.temp = node :: rest ∧ byte = nbytes ∧
      turn nbytes byte s = { s with
        temp := rest
        log := s.log ++ [.readNode node.id, .send node.id byte, .readNode node.id] }) ∨
    ∃ node rest front removed back, s.temp = node :: rest ∧ byte ≠ nbytes ∧
      s.gHead = front ++ removed :: back ∧
      removed.val.serviceName.text = node.val.serviceName.text ∧
      (∀ other ∈ front, other.val.serviceName.text ≠ node.val.serviceName.text) ∧
      turn nbytes byte s =
        ⟨front ++ back, s.numOfClients - 1, front ++ back,
          s.log ++ failureLog node removed byte s.gHead⟩ := by
  rw [turn]
  cases htemp : s.temp with
  | nil => exact .inl ⟨rfl, rfl⟩
  | cons node rest =>
    refine .inr ?_
    by_cases hbyte : byte = nbytes
    · exact .inl ⟨node, rest, rfl, hbyte, if_pos hbyte⟩
    · have hmem : node ∈ s.gHead := hnodes node (htemp ▸ List.mem_cons_self)
      obtain ⟨front, removed, back, hhead, hname, hfront, hunlink⟩ :=
        unlinkNode_of_mem ⟨node, hmem, rfl⟩
      refine .inr ⟨node, rest, front, removed, back, rfl, hbyte, hhead, hname, hfront, ?_⟩
      dsimp only
      rw [if_neg hbyte, resync, deleteFromList, hunlink]
      refine (if_pos rfl).trans ?_
      dsimp only
      rw [failureLog, List.append_assoc, List.append_assoc]

theorem traversal_access {act : Act} (h : act ∈ traversal serviceName nodes) :
    ∃ id, act = .readNode id := by
  induction nodes with
  | nil => exact absurd h List.not_mem_nil
  | cons node nodes ih =>
    rw [traversal] at h
    obtain rfl | hrest := List.mem_cons.mp h
    · exact ⟨_, rfl⟩
    · split at hrest
      · exact absurd hrest List.not_mem_nil
      · exact ih hrest

theorem sendsTo_append (id : ℕ) (log acts : List Act) :
    sendsTo id (log ++ acts) = sendsTo id log ++ sendsTo id acts := List.filterMap_append

theorem removals_append (log acts : List Act) :
    removals (log ++ acts) = removals log ++ removals acts :=
  List.filterMap_append

theorem sendsTo_traversal : sendsTo id (traversal serviceName nodes) = [] := by
  refine List.filterMap_eq_nil_iff.mpr fun act hact ↦ ?_
  obtain ⟨_, rfl⟩ := traversal_access hact
  rfl

theorem removals_traversal : removals (traversal serviceName nodes) = [] := by
  refine List.filterMap_eq_nil_iff.mpr fun act hact ↦ ?_
  obtain ⟨_, rfl⟩ := traversal_access hact
  rfl

theorem sendsTo_success (id : ℕ) (node : Owned RegListItem) (byte : ℤ) :
    sendsTo id [.readNode node.id, .send node.id byte, .readNode node.id] =
      if node.id = id then [byte] else [] := by
  by_cases hid : node.id = id <;> simp [sendsTo, List.filterMap_cons, Act.sendTo, hid]

theorem sendsTo_failureLog (id : ℕ) (node removed : Owned RegListItem) (byte : ℤ) (nodes : Nodes) :
    sendsTo id (failureLog node removed byte nodes) = if node.id = id then [byte] else [] := by
  rw [failureLog, sendsTo_append, sendsTo_success, sendsTo_append, sendsTo_append]
  have hread : sendsTo id (.readHead :: traversal node.val.serviceName.text nodes) = [] :=
    sendsTo_traversal
  rw [hread]
  exact List.append_nil _

theorem removals_failureLog (node removed : Owned RegListItem) (byte : ℤ) (nodes : Nodes) :
    removals (failureLog node removed byte nodes) = [removed.id] := by
  rw [failureLog, removals_append, removals_append, removals_append]
  have hread : removals (.readHead :: traversal node.val.serviceName.text nodes) = [] :=
    removals_traversal
  rw [hread]
  rfl

theorem heldAfter_failureLog (node removed : Owned RegListItem) (byte : ℤ) (nodes : Nodes) :
    heldAfter Act.use true (failureLog node removed byte nodes) = some true := by
  have haccess : heldAfter Act.use true
      (.readHead :: traversal node.val.serviceName.text nodes ++ [.remove removed.id]) =
        some true := by
    refine heldAfter_access fun act hact ↦ ?_
    obtain hread | hremove := List.mem_append.mp hact
    · obtain rfl | hread := List.mem_cons.mp hread
      · rfl
      · obtain ⟨_, rfl⟩ := traversal_access hread
        rfl
    · rw [List.mem_singleton.mp hremove]
      rfl
  rw [failureLog, heldAfter_append]
  change heldAfter Act.use true (_ ++ [.unlock, .lock, .readHead]) = _
  rw [heldAfter_append, haccess]
  rfl

/-- What holds on the walk whatever the sends return. -/
structure Walking (nbytes : ℤ) (nodes : Nodes) (s : Round) : Prop where
  nodup : (s.gHead.map Owned.id).Nodup
  passed : ∃ front, s.gHead = front ++ s.temp ∧
    ∀ node ∈ front, (sendsTo node.id s.log).getLast? = some nbytes
  order : s.gHead.Sublist nodes
  accounted : ∀ node ∈ nodes, node ∈ s.gHead ∨ node.id ∈ removals s.log
  locked : heldAfter Act.use false s.log = some true

/-- The nodes that were removed are those to which a send failed. -/
structure Fair (nbytes : ℤ) (s : Round) : Prop where
  removed : ∀ id ∈ removals s.log, ∃ byte ∈ sendsTo id s.log, byte ≠ nbytes
  alive : ∀ node ∈ s.gHead, ∀ byte ∈ sendsTo node.id s.log, byte = nbytes

/-- A node was removed to which no send failed. -/
def Wronged (nbytes : ℤ) (s : Round) : Prop :=
  ∃ id ∈ removals s.log, id ∉ s.gHead.map Owned.id ∧ ∀ byte ∈ sendsTo id s.log, byte = nbytes

theorem Walking.temp_subset (h : Walking nbytes nodes s) : ∀ node ∈ s.temp, node ∈ s.gHead := by
  obtain ⟨front, hhead, _⟩ := h.passed
  intro node hnode
  rw [hhead]
  exact List.mem_append_right _ hnode

theorem sendsTo_append_self {byte : ℤ} (hacts : sendsTo node.id acts = [byte]) :
    (sendsTo node.id (log ++ acts)).getLast? = some byte := by
  rw [sendsTo_append, hacts, List.getLast?_concat]

/-- A send that succeeds adds its node to those whose last send succeeded. -/
theorem sent_snoc {front : Nodes} {byte : ℤ}
    (hsent : ∀ other ∈ front, (sendsTo other.id log).getLast? = some byte) :
    ∀ other ∈ front ++ [node], (sendsTo other.id
      (log ++ [.readNode node.id, .send node.id byte, .readNode node.id])).getLast? =
        some byte := by
  intro other hother
  have hacts := sendsTo_success other.id node byte
  by_cases hid : node.id = other.id
  · rw [if_pos hid] at hacts
    exact sendsTo_append_self hacts
  · rw [if_neg hid] at hacts
    rw [sendsTo_append, hacts, List.append_nil]
    obtain hfront | hself := List.mem_append.mp hother
    · exact hsent other hfront
    · exact absurd (congrArg Owned.id (List.mem_singleton.mp hself).symm) hid

theorem sublist_of_split {front back : Nodes} (hhead : s.gHead = front ++ removed :: back) :
    (front ++ back).Sublist s.gHead :=
  hhead ▸ (List.Sublist.refl front).append (List.sublist_cons_self removed back)

/-- The address of the node that goes is that of no other. -/
theorem Walking.not_mem_of_split (h : Walking nbytes nodes s) {front back : Nodes}
    (hhead : s.gHead = front ++ removed :: back) : removed.id ∉ (front ++ back).map Owned.id := by
  have hnodup := h.nodup
  rw [hhead, List.map_append, List.map_cons] at hnodup
  rw [List.map_append]
  exact (List.nodup_middle.mp hnodup).notMem

theorem Walking.turn (h : Walking nbytes nodes s) : Walking nbytes nodes (turn nbytes byte s) := by
  obtain ⟨_, heq⟩ | ⟨node, rest, htemp, rfl, heq⟩ |
    ⟨node, rest, front, removed, back, htemp, _, hhead, _, _, heq⟩ :=
    turn_cases nbytes byte s h.temp_subset
  · rwa [heq]
  · rw [heq]
    obtain ⟨front, hpassed, hsent⟩ := h.passed
    refine ⟨h.nodup, ⟨front ++ [node], ?_, sent_snoc hsent⟩, h.order, fun other hother ↦ ?_, ?_⟩
    · rw [List.append_assoc, List.singleton_append, ← htemp]
      exact hpassed
    · exact (h.accounted other hother).imp_right fun hmem ↦
        removals_append _ _ ▸ List.mem_append_left _ hmem
    · dsimp only
      rw [heldAfter_append, h.locked]
      rfl
  · rw [heq]
    have hsublist := sublist_of_split hhead
    refine ⟨h.nodup.sublist (hsublist.map _),
      ⟨[], rfl, fun _ hnone ↦ absurd hnone List.not_mem_nil⟩,
      hsublist.trans h.order, fun other hother ↦ ?_, ?_⟩
    · dsimp only
      rw [removals_append, removals_failureLog]
      obtain hmem | hmem := h.accounted other hother
      · rw [hhead] at hmem
        obtain hmem | hmem := List.mem_append.mp hmem
        · exact .inl (List.mem_append_left _ hmem)
        · obtain rfl | hmem := List.mem_cons.mp hmem
          · exact .inr (List.mem_append_right _ List.mem_cons_self)
          · exact .inl (List.mem_append_right _ hmem)
      · exact .inr (List.mem_append_left _ hmem)
    · dsimp only
      rw [heldAfter_append, h.locked]
      exact heldAfter_failureLog node removed byte s.gHead

/-- Only one node is the first of its name. -/
theorem first_unique {front front' back back' : Nodes} {node' : Owned RegListItem}
    (h : front ++ node :: back = front' ++ node' :: back')
    (hname : node'.val.serviceName.text = node.val.serviceName.text)
    (hfront : ∀ other ∈ front, other.val.serviceName.text ≠ node.val.serviceName.text)
    (hfront' : ∀ other ∈ front', other.val.serviceName.text ≠ node.val.serviceName.text) :
    node = node' := by
  obtain ⟨t, rfl, ht⟩ | ⟨t, rfl, ht⟩ := List.append_eq_append_iff.mp h
  · cases t with
    | nil => exact (List.cons.inj ht).1
    | cons other t =>
      obtain ⟨rfl, _⟩ := List.cons.inj ht
      exact absurd rfl (hfront' node (List.mem_append_right _ List.mem_cons_self))
  · cases t with
    | nil => exact (List.cons.inj ht).1.symm
    | cons other t =>
      obtain ⟨rfl, _⟩ := List.cons.inj ht
      exact absurd hname (hfront node' (List.mem_append_right _ List.mem_cons_self))

theorem Fair.turn (h : Fair nbytes s) (hwalk : Walking nbytes nodes s)
    (hfirst : FailsFirst nbytes byte s) : Fair nbytes (turn nbytes byte s) := by
  obtain ⟨_, heq⟩ | ⟨node, rest, htemp, rfl, heq⟩ |
    ⟨node, rest, front, removed, back, htemp, hbyte, hhead, hname, hfront, heq⟩ :=
    turn_cases nbytes byte s hwalk.temp_subset
  · rwa [heq]
  · rw [heq]
    refine ⟨fun id hid ↦ ?_, fun other hother sent hsent ↦ ?_⟩
    · dsimp only at hid ⊢
      rw [removals_append] at hid
      obtain hid | hnone := List.mem_append.mp hid
      · obtain ⟨sent, hsent, hne⟩ := h.removed id hid
        exact ⟨sent, sendsTo_append _ _ _ ▸ List.mem_append_left _ hsent, hne⟩
      · exact absurd hnone List.not_mem_nil
    · dsimp only at hsent
      rw [sendsTo_append, sendsTo_success] at hsent
      obtain hold | hnew := List.mem_append.mp hsent
      · exact h.alive other hother sent hold
      · split at hnew
        · exact List.mem_singleton.mp hnew
        · exact absurd hnew List.not_mem_nil
  · obtain ⟨front', back', hhead', hfront'⟩ := hfirst node rest htemp hbyte
    obtain rfl := first_unique (hhead'.symm.trans hhead) hname hfront' hfront
    rw [heq]
    refine ⟨fun id hid ↦ ?_, fun other hother sent hsent ↦ ?_⟩
    · dsimp only at hid ⊢
      rw [removals_append, removals_failureLog] at hid
      rw [sendsTo_append, sendsTo_failureLog]
      obtain hid | hnew := List.mem_append.mp hid
      · obtain ⟨sent, hsent, hne⟩ := h.removed id hid
        exact ⟨sent, List.mem_append_left _ hsent, hne⟩
      · rw [if_pos (List.mem_singleton.mp hnew).symm]
        exact ⟨byte, List.mem_append_right _ List.mem_cons_self, hbyte⟩
    · dsimp only at hsent hother
      have hid : node.id ≠ other.id := fun hid ↦
        hwalk.not_mem_of_split hhead (hid ▸ List.mem_map_of_mem hother)
      rw [sendsTo_append, sendsTo_failureLog, if_neg hid, List.append_nil] at hsent
      exact h.alive other ((sublist_of_split hhead).mem hother) sent hsent

theorem wronged_turn (h : Fair nbytes s) (hwalk : Walking nbytes nodes s)
    (hfirst : ¬FailsFirst nbytes byte s) : Wronged nbytes (turn nbytes byte s) := by
  obtain ⟨node, rest, htemp, hbyte, hnot⟩ : ∃ node rest, s.temp = node :: rest ∧ byte ≠ nbytes ∧
      ¬FirstOfName node s.gHead := by
    simpa only [FailsFirst, not_forall, exists_prop] using hfirst
  obtain ⟨hnil, _⟩ | ⟨_, _, _, heqb, _⟩ |
    ⟨node', rest', front, removed, back, htemp', _, hhead, hname, hfront, heq⟩ :=
    turn_cases nbytes byte s hwalk.temp_subset
  · rw [htemp] at hnil
    cases hnil
  · exact absurd heqb hbyte
  · obtain ⟨rfl, _⟩ := List.cons.inj (htemp.symm.trans htemp')
    have hid : node.id ≠ removed.id := by
      intro hid
      have hremoved : removed ∈ s.gHead := hhead ▸ List.mem_append_right _ List.mem_cons_self
      obtain rfl := List.inj_on_of_nodup_map hwalk.nodup
        (hwalk.temp_subset node (htemp ▸ List.mem_cons_self)) hremoved hid
      exact hnot ⟨front, back, hhead, hfront⟩
    rw [heq]
    refine ⟨removed.id, ?_, hwalk.not_mem_of_split hhead, fun sent hsent ↦ ?_⟩
    · dsimp only
      rw [removals_append, removals_failureLog]
      exact List.mem_append_right _ List.mem_cons_self
    · dsimp only at hsent
      rw [sendsTo_append, sendsTo_failureLog, if_neg hid, List.append_nil] at hsent
      exact h.alive removed (hhead ▸ List.mem_append_right _ List.mem_cons_self) sent hsent

theorem Wronged.turn (h : Wronged nbytes s) (hwalk : Walking nbytes nodes s) :
    Wronged nbytes (turn nbytes byte s) := by
  obtain ⟨id, hid, hnot, hsent⟩ := h
  have hnode : ∀ node rest, s.temp = node :: rest → node.id ≠ id := fun node rest htemp heq ↦
    hnot (heq ▸ List.mem_map_of_mem (hwalk.temp_subset node (htemp ▸ List.mem_cons_self)))
  obtain ⟨_, heq⟩ | ⟨node, rest, htemp, rfl, heq⟩ |
    ⟨node, rest, front, removed, back, htemp, _, hhead, _, _, heq⟩ :=
    turn_cases nbytes byte s hwalk.temp_subset
  · rw [heq]
    exact ⟨id, hid, hnot, hsent⟩
  · rw [heq]
    refine ⟨id, removals_append _ _ ▸ List.mem_append_left _ hid, hnot, ?_⟩
    dsimp only
    rwa [sendsTo_append, sendsTo_success, if_neg (hnode node rest htemp), List.append_nil]
  · rw [heq]
    refine ⟨id, removals_append _ _ ▸ List.mem_append_left _ hid,
      mt (((sublist_of_split hhead).map _).mem) hnot, ?_⟩
    dsimp only
    rwa [sendsTo_append, sendsTo_failureLog, if_neg (hnode node rest htemp), List.append_nil]

theorem walking_start {numOfClients : ℤ} (hcount : 0 < numOfClients)
    (hnodup : (nodes.map Owned.id).Nodup) :
    Walking nbytes nodes (startRound numOfClients nodes) where
  nodup := hnodup
  passed := ⟨[], (if_pos hcount).symm, fun _ hnone ↦ absurd hnone List.not_mem_nil⟩
  order := List.Sublist.refl nodes
  accounted := fun _ hnode ↦ .inl hnode
  locked := rfl

theorem fair_start {numOfClients : ℤ} : Fair nbytes (startRound numOfClients nodes) :=
  ⟨fun _ hnone ↦ absurd hnone List.not_mem_nil, fun _ _ _ hnone ↦ absurd hnone List.not_mem_nil⟩

theorem Walking.turns (h : Walking nbytes nodes s) (n : ℕ) :
    Walking nbytes nodes (turns nbytes sent s n) := by
  induction n with
  | zero => exact h
  | succ n ih => exact ih.turn

theorem Fair.turns (h : Fair nbytes s) (hwalk : Walking nbytes nodes s)
    (hfirst : ∀ m < n, FailsFirst nbytes (sent m) (turns nbytes sent s m)) :
    Fair nbytes (turns nbytes sent s n) := by
  induction n with
  | zero => exact h
  | succ n ih =>
    exact (ih fun m hm ↦ hfirst m (Nat.lt_succ_of_lt hm)).turn (hwalk.turns n)
      (hfirst n (Nat.lt_succ_self n))

theorem Wronged.turns (hwalk : Walking nbytes nodes s)
    (h : Wronged nbytes (turns nbytes sent s n)) (m : ℕ) (hm : n ≤ m) :
    Wronged nbytes (turns nbytes sent s m) := by
  induction m, hm using Nat.le_induction with
  | base => exact h
  | succ m _ ih => exact ih.turn (hwalk.turns m)

theorem turns_of_nil (h : (turns nbytes sent s n).temp = []) (m : ℕ) (hm : n ≤ m) :
    turns nbytes sent s m = turns nbytes sent s n := by
  induction m, hm using Nat.le_induction with
  | base => rfl
  | succ m _ ih =>
    rw [turns, ih, turn, h]

/-- The length of the list before that of the rest of the walk. -/
def remaining (bound : ℕ) (s : Round) : ℕ := s.gHead.length * (bound + 1) + s.temp.length

theorem Walking.remaining_turn (h : Walking nbytes nodes s) (byte : ℤ) :
    s.temp = [] ∨
      remaining nodes.length (KeepAlive.turn nbytes byte s) < remaining nodes.length s := by
  obtain ⟨hnil, _⟩ | ⟨node, rest, htemp, _, heq⟩ |
    ⟨node, rest, front, removed, back, htemp, _, hhead, _, _, heq⟩ :=
    turn_cases nbytes byte s h.temp_subset
  · exact .inl hnil
  · refine .inr ?_
    rw [heq, remaining, remaining, htemp, List.length_cons]
    exact Nat.lt_succ_self _
  · have hlen := h.order.length_le
    have hsplit : s.gHead.length = (front ++ back).length + 1 := by
      rw [hhead, List.length_append, List.length_append, List.length_cons, Nat.add_assoc]
    refine .inr ?_
    rw [heq, remaining, remaining, hsplit, Nat.succ_mul]
    dsimp only
    omega

theorem Walking.remaining_turns (h : Walking nbytes nodes s) (sent : ℕ → ℤ) (n : ℕ) :
    (KeepAlive.turns nbytes sent s n).temp = [] ∨
      remaining nodes.length (KeepAlive.turns nbytes sent s n) + n ≤ remaining nodes.length s := by
  induction n with
  | zero => exact .inr (Nat.le_refl _)
  | succ n ih =>
    rw [KeepAlive.turns]
    obtain hnil | hlt := (h.turns n).remaining_turn (sent n)
    · left
      rwa [KeepAlive.turn, hnil]
    · right
      obtain hnil | hle := ih
      · rw [KeepAlive.turn, hnil] at hlt
        exact absurd hlt (Nat.lt_irrefl _)
      · omega

/-- The walk ends, whatever the sends return. -/
theorem Walking.turns_end (h : Walking nbytes nodes s) (sent : ℕ → ℤ) :
    ∃ n, (KeepAlive.turns nbytes sent s n).temp = [] := by
  refine ⟨remaining nodes.length s + 1, ?_⟩
  obtain hnil | hle := h.remaining_turns sent (remaining nodes.length s + 1)
  · exact hnil
  · omega

theorem addressed_val (items : List RegListItem) : (addressed items).map Owned.val = items := by
  rw [addressed, List.map_map]
  exact List.zipIdx_map_fst 0 items

theorem addressed_nodup (items : List RegListItem) : ((addressed items).map Owned.id).Nodup := by
  have hids : (addressed items).map Owned.id = List.range' 0 items.length := by
    rw [addressed, List.map_map]
    exact List.zipIdx_map_snd 0 items
  rw [hids]
  exact List.nodup_range'

section
variable {clients : ClientList} {fuel : ℕ} {out : Round}

/-- The state of the round after `n` sends. -/
def after (nbytes : ℤ) (sent : ℕ → ℤ) (clients : ClientList) (n : ℕ) : Round :=
  turns nbytes sent (startRound clients.numOfClients (addressed clients.gHead)) n

theorem serviceAliveRound_eq_some_iff :
    serviceAliveRound nbytes sent clients fuel = some out ↔
      (after nbytes sent clients fuel).temp = [] ∧
        { after nbytes sent clients fuel with
          log := (after nbytes sent clients fuel).log ++ [.unlock] } = out := by
  rw [serviceAliveRound, Option.ite_none_right_eq_some, Option.some_inj]
  rfl

theorem sendsTo_unlock (id : ℕ) (log : List Act) :
    sendsTo id (log ++ [.unlock]) = sendsTo id log := by
  rw [sendsTo_append]
  exact List.append_nil _

theorem removals_unlock (log : List Act) : removals (log ++ [.unlock]) = removals log := by
  rw [removals_append]
  exact List.append_nil _

theorem walking_after (nbytes : ℤ) (sent : ℕ → ℤ) (hcount : 0 < clients.numOfClients) (n : ℕ) :
    Walking nbytes (addressed clients.gHead) (after nbytes sent clients n) :=
  (walking_start hcount (addressed_nodup clients.gHead)).turns n

theorem after_of_uncounted (hcount : ¬0 < clients.numOfClients) (n : ℕ) :
    after nbytes sent clients n =
      startRound clients.numOfClients (addressed clients.gHead) := by
  have hnil : (after nbytes sent clients 0).temp = [] := if_neg hcount
  exact turns_of_nil hnil n (Nat.zero_le n)

theorem failsFirst_of_nil (h : s.temp = []) : FailsFirst nbytes byte s := by
  intro node rest htemp
  rw [h] at htemp
  cases htemp

/-- A failed send at a node that is not the first of its name takes another node away. -/
theorem KeepsAlive.failsFirst (h : KeepsAlive nbytes sent clients) (n : ℕ) :
    FailsFirst nbytes (sent n) (after nbytes sent clients n) := by
  classical
  obtain ⟨fuel, out, hround, hok⟩ := h
  obtain ⟨hnil, rfl⟩ := serviceAliveRound_eq_some_iff.mp hround
  by_cases hcount : 0 < clients.numOfClients
  · by_contra hbad
    let fails : ∃ m, ¬FailsFirst nbytes (sent m) (after nbytes sent clients m) := ⟨n, hbad⟩
    have hstart : Walking nbytes (addressed clients.gHead) _ :=
      walking_start hcount (addressed_nodup clients.gHead)
    have hfair : Fair nbytes (after nbytes sent clients (Nat.find fails)) :=
      fair_start.turns hstart fun k hk ↦ not_not.mp (Nat.find_min fails hk)
    have hwronged := wronged_turn hfair (walking_after nbytes sent hcount _) (Nat.find_spec fails)
    have hlt : Nat.find fails < fuel := by
      refine Nat.lt_of_not_le fun hle ↦ Nat.find_spec fails (failsFirst_of_nil ?_)
      rw [after, turns_of_nil hnil _ hle]
      exact hnil
    obtain ⟨id, hid, _, hsent⟩ := Wronged.turns (n := Nat.find fails + 1) hstart hwronged fuel hlt
    obtain ⟨byte, hbyte, hne⟩ := hok.removed id ((removals_unlock _).symm ▸ hid)
    rw [sendsTo_unlock] at hbyte
    exact hne (hsent byte hbyte)
  · rw [after_of_uncounted hcount]
    exact failsFirst_of_nil (if_neg hcount)

theorem KeepsAlive.counted (h : KeepsAlive nbytes sent clients) :
    0 < clients.numOfClients ∨ clients.gHead = [] := by
  obtain ⟨fuel, out, hround, hok⟩ := h
  obtain ⟨_, rfl⟩ := serviceAliveRound_eq_some_iff.mp hround
  by_cases hcount : 0 < clients.numOfClients
  · exact .inl hcount
  · rw [after_of_uncounted hcount] at hok
    right
    rw [← addressed_val clients.gHead, List.map_eq_nil_iff]
    refine List.eq_nil_iff_forall_not_mem.mpr fun node hnode ↦ ?_
    cases hok.left node hnode

theorem keepsAlive_of_failsFirst (hcount : 0 < clients.numOfClients ∨ clients.gHead = [])
    (hfirst : ∀ n, FailsFirst nbytes (sent n) (after nbytes sent clients n)) :
    KeepsAlive nbytes sent clients := by
  by_cases hpos : 0 < clients.numOfClients
  · have hstart : Walking nbytes (addressed clients.gHead) _ :=
      walking_start hpos (addressed_nodup clients.gHead)
    obtain ⟨fuel, hend⟩ := hstart.turns_end sent
    have hnil : (after nbytes sent clients fuel).temp = [] := hend
    have hwalk := walking_after nbytes sent hpos fuel
    have hfair : Fair nbytes (after nbytes sent clients fuel) :=
      fair_start.turns hstart fun m _ ↦ hfirst m
    refine ⟨fuel, _, serviceAliveRound_eq_some_iff.mpr ⟨hnil, rfl⟩, ?_, ?_, hwalk.order, ?_, ?_⟩
    · intro id hid
      rw [removals_unlock] at hid
      rw [sendsTo_unlock]
      exact hfair.removed id hid
    · intro node hnode
      obtain ⟨front, hhead, hpassed⟩ := hwalk.passed
      rw [sendsTo_unlock]
      rw [hnil, List.append_nil] at hhead
      exact hpassed node (hhead ▸ hnode)
    · intro node hnode
      rw [removals_unlock]
      exact hwalk.accounted node hnode
    · dsimp only
      rw [heldAfter_append, hwalk.locked]
      rfl
  · have hempty : addressed clients.gHead = [] := by
      rw [hcount.resolve_left hpos]
      rfl
    have hnil : (after nbytes sent clients 0).temp = [] := if_neg hpos
    refine ⟨0, _, serviceAliveRound_eq_some_iff.mpr ⟨hnil, rfl⟩, ?_⟩
    rw [after_of_uncounted hpos, hempty]
    exact ⟨fun _ hnone ↦ absurd hnone List.not_mem_nil, fun _ hnone ↦ absurd hnone List.not_mem_nil,
      List.Sublist.refl _, fun _ hnone ↦ absurd hnone List.not_mem_nil, rfl⟩

/-- A round keeps the list right if clients are counted, and each send that fails is to the first
node of its name. -/
theorem keepsAlive_iff (nbytes : ℤ) (sent : ℕ → ℤ) (clients : ClientList) :
    KeepsAlive nbytes sent clients ↔ (0 < clients.numOfClients ∨ clients.gHead = []) ∧
      ∀ n, FailsFirst nbytes (sent n) (after nbytes sent clients n) :=
  ⟨fun h ↦ ⟨h.counted, h.failsFirst⟩, fun h ↦ keepsAlive_of_failsFirst h.1 h.2⟩

/-- With no name twice, a node is the first of its name. -/
theorem firstOfName_of_nodup (hnodup : (names (nodes.map Owned.val)).Nodup) (hnode : node ∈ nodes) :
    FirstOfName node nodes := by
  obtain ⟨front, back, rfl⟩ := List.append_of_mem hnode
  refine ⟨front, back, rfl, fun other hother heq ↦ ?_⟩
  rw [names, List.map_map, List.map_append, List.map_cons] at hnodup
  have hnot := (List.nodup_middle.mp hnodup).notMem
  exact hnot (List.mem_append_left _ (List.mem_map.mpr ⟨other, hother, heq⟩))

/-- Lists with no name twice are kept right, whatever the sends return. -/
theorem keepsAlive_of_unique (hunique : (names clients.gHead).Nodup)
    (hcount : 0 < clients.numOfClients ∨ clients.gHead = []) : KeepsAlive nbytes sent clients := by
  refine keepsAlive_of_failsFirst hcount fun n ↦ ?_
  by_cases hpos : 0 < clients.numOfClients
  · intro node rest htemp _
    have hwalk := walking_after nbytes sent hpos n
    refine firstOfName_of_nodup ?_ (hwalk.temp_subset node (htemp ▸ List.mem_cons_self))
    refine List.Nodup.sublist ((hwalk.order.map Owned.val).map _) ?_
    rw [addressed_val]
    exact hunique
  · rw [after_of_uncounted hpos]
    exact failsFirst_of_nil (if_neg hpos)

end

/-- The service is registered twice, and the send to its second node fails: the first node goes. -/
theorem registeredTwice_not_keepsAlive :
    ¬∀ (tr : List (Registry × Event)) (s : Registry), Foundation.Runs.Run Step init tr s →
      ∀ (nbytes : ℤ) (sent : ℕ → ℤ), KeepsAlive nbytes sent s.clients := by
  intro h
  have hkeeps := h _ _ (.cons (a := Event.register ⟨fun _ ↦ refused, succeeds⟩ iot) rfl
    (.cons (a := Event.register ⟨fun _ ↦ refused, succeeds⟩ iot) rfl (.nil _))) 7
    (fun n ↦ if n = 1 then -1 else 7)
  have hfirst : FirstOfName ⟨1, newNode succeeds iot⟩
      [⟨0, newNode succeeds iot⟩, ⟨1, newNode succeeds iot⟩] :=
    hkeeps.failsFirst 1 _ [] rfl (by decide)
  obtain ⟨front, back, hhead, hfront⟩ := hfirst
  cases front with
  | nil => cases (List.cons.inj hhead).1
  | cons other front =>
    obtain ⟨rfl, _⟩ := List.cons.inj hhead
    exact hfront _ List.mem_cons_self rfl

end Parodus.Clients.KeepAlive
