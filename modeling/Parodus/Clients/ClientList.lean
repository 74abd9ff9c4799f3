import Parodus.Wrp

namespace Parodus.Clients

/-- `reg_list_item_t` without its link: the list is a `List`. -/
structure RegListItem where
  sock : ℤ
  endpoint : ℤ
  serviceName : CharBuf 32
  url : CharBuf 100
  deriving DecidableEq

/-- The file-scoped `numOfClients` and `g_head`. -/
structure ClientList where
  numOfClients : ℤ
  gHead : List RegListItem
  deriving DecidableEq

/-- What the calls of one connection attempt return: `nn_socket`, `nn_connect`,
`malloc`, `wrp_struct_to` of the acknowledgement and `nn_send`. -/
structure Attempt where
  socket : ℤ
  connect : ℤ
  allocated : Bool
  encoded : ℤ
  sent : ℤ
  deriving DecidableEq

def sendAuthStatus (io : Attempt) : ℤ :=
  if io.encoded < 0 then -1 else if 0 ≤ io.sent then 0 else -1

def newNode (io : Attempt) (reg : RegMsg) : RegListItem where
  sock := io.socket
  endpoint := io.connect
  serviceName := parStrncpy reg.serviceName
  url := parStrncpy reg.url

def addToList (io : Attempt) (reg : RegMsg) (l : ClientList) : ℤ × ClientList :=
  if io.socket < 0 then (-1, l)
  else if io.connect < 0 then (-1, l)
  else if io.allocated then
    let node := newNode io reg
    let gHead := l.gHead ++ [node]
    if node.serviceName.text = reg.serviceName ∧ node.url.text = reg.url then
      (sendAuthStatus io, ⟨l.numOfClients + 1, gHead⟩)
    else
      -- the node is linked already: a truncated registration stays on the list
      (-1, ⟨l.numOfClients, gHead⟩)
  else (-1, l)

/-- The traversal of `deleteFromList`: the first node of that name is unlinked. -/
def unlink (serviceName : CString) : List RegListItem → Option (List RegListItem)
  | [] => none
  | node :: nodes =>
    if node.serviceName.text = serviceName then some nodes
    else (unlink serviceName nodes).map (node :: ·)

def deleteFromList (serviceName : Option CString) (l : ClientList) : ℤ × ClientList :=
  match serviceName with
  | none => (-1, l)
  | some name =>
    match unlink name l.gHead with
    | some gHead => (0, ⟨l.numOfClients - 1, gHead⟩)
    | none => (-1, l)

def deleteAllClients (l : ClientList) : ClientList where
  numOfClients := if 0 < l.numOfClients then 0 else l.numOfClients
  gHead := []

def checkClientStatus (serviceName : CString) (l : ClientList) : ℤ :=
  if l.gHead.any (fun node ↦ node.serviceName.text == serviceName) then 1 else 0

def Attempt.Connects (io : Attempt) : Prop := 0 ≤ io.socket ∧ 0 ≤ io.connect

def Attempt.Links (io : Attempt) : Prop := io.Connects ∧ io.allocated = true

def Fits (reg : RegMsg) : Prop :=
  reg.serviceName.length < 32 ∧ reg.url.length < 100

def names (nodes : List RegListItem) : List CString := nodes.map fun node ↦ node.serviceName.text

theorem unlink_names {serviceName : CString} {nodes rest : List RegListItem}
    (h : unlink serviceName nodes = some rest) :
    names rest = (names nodes).erase serviceName ∧ rest.length + 1 = nodes.length := by
  induction nodes generalizing rest with
  | nil => simp [unlink] at h
  | cons node nodes ih =>
    by_cases hn : node.serviceName.text = serviceName
    · have he : nodes = rest := by simpa [unlink, hn] using h
      subst he
      simp [names, hn]
    · simp only [unlink, hn, if_false, Option.map_eq_some_iff] at h
      obtain ⟨rest', hrest, rfl⟩ := h
      obtain ⟨hnames, hlength⟩ := ih hrest
      refine ⟨?_, by simp only [List.length_cons, hlength]⟩
      simp only [names, List.map_cons] at hnames ⊢
      rw [List.erase_cons_tail (by simpa using hn), hnames]

theorem unlink_eq_none {serviceName : CString} {nodes : List RegListItem}
    (h : unlink serviceName nodes = none) : serviceName ∉ names nodes := by
  induction nodes with
  | nil => exact List.not_mem_nil
  | cons node nodes ih =>
    unfold unlink at h
    split at h
    · cases h
    · rename_i hne
      rw [Option.map_eq_none_iff] at h
      exact List.not_mem_cons_of_ne_of_not_mem (Ne.symm hne) (ih h)

theorem deleteFromList_cases (serviceName : CString) (l : ClientList) :
    (serviceName ∉ names l.gHead ∧ (deleteFromList (some serviceName) l).2 = l) ∨
    ∃ rest, names rest = (names l.gHead).erase serviceName ∧
      rest.length + 1 = l.gHead.length ∧
      (deleteFromList (some serviceName) l).2 = ⟨l.numOfClients - 1, rest⟩ := by
  unfold deleteFromList
  cases hu : unlink serviceName l.gHead with
  | none => exact .inl ⟨unlink_eq_none hu, by simp only [hu]⟩
  | some rest =>
    obtain ⟨hnames, hlength⟩ := unlink_names hu
    exact .inr ⟨rest, hnames, hlength, by simp only [hu]⟩

theorem names_deleteFromList (serviceName : CString) (l : ClientList) :
    names (deleteFromList (some serviceName) l).2.gHead = (names l.gHead).erase serviceName := by
  obtain ⟨hnot, heq⟩ | ⟨rest, hnames, _, heq⟩ := deleteFromList_cases serviceName l
  · rw [heq, List.erase_of_not_mem hnot]
  · rw [heq, hnames]

/-- A new node is linked exactly when the attempt gets that far, and it is
counted only if its name and url fit. -/
theorem addToList_cases (io : Attempt) (reg : RegMsg) (l : ClientList) :
    (¬ io.Links ∧ (addToList io reg l).2 = l) ∨
    (io.Links ∧ Fits reg ∧
      (addToList io reg l).2 = ⟨l.numOfClients + 1, l.gHead ++ [newNode io reg]⟩) ∨
    (io.Links ∧ ¬ Fits reg ∧
      (addToList io reg l).2 = ⟨l.numOfClients, l.gHead ++ [newNode io reg]⟩) := by
  by_cases hs : io.socket < 0
  · exact .inl ⟨fun h ↦ absurd h.1.1 (by omega), by simp [addToList, hs]⟩
  by_cases hc : io.connect < 0
  · exact .inl ⟨fun h ↦ absurd h.1.2 (by omega), by simp [addToList, hs, hc]⟩
  cases ha : io.allocated with
  | false => exact .inl ⟨fun h ↦ absurd h.2 (by simp [ha]), by simp [addToList, hs, hc, ha]⟩
  | true =>
    have hlinks : io.Links := ⟨⟨by omega, by omega⟩, ha⟩
    have hfits : ((newNode io reg).serviceName.text = reg.serviceName ∧
        (newNode io reg).url.text = reg.url) ↔ Fits reg :=
      and_congr parStrncpy_text_eq_iff parStrncpy_text_eq_iff
    by_cases hf : Fits reg
    · exact .inr (.inl ⟨hlinks, hf, by simp [addToList, hs, hc, ha, hfits, hf]⟩)
    · exact .inr (.inr ⟨hlinks, hf, by simp [addToList, hs, hc, ha, hfits, hf]⟩)

end Parodus.Clients
