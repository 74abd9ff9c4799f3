import Parodus.Clients.ClientList
import Parodus.Foundation.Runs

namespace Parodus.Clients

open Foundation.Runs

/-- The client list together with the `matchFlag` that `processUpstreamMessage`
keeps from one message to the next. -/
structure Registry where
  clients : ClientList
  matchFlag : Bool
  deriving DecidableEq

def init : Registry := ⟨⟨0, []⟩, false⟩

/-- The results of the calls made for one registration message: at the `i`-th
node of the list, and in `addToList`. -/
structure RegistrationIO where
  reconnect : ℕ → Attempt
  add : Attempt

/-- The walk over the list from its `i`-th node on. A node of the registered
name gets the new url and a new socket; the walk stops at the first of them
that connects, and its second result says whether there was one. -/
def reRegister (io : ℕ → Attempt) (reg : RegMsg) : ℕ → List RegListItem → List RegListItem × Bool
  | _, [] => ([], false)
  | i, node :: nodes =>
    if node.serviceName.text = reg.serviceName then
      let node := { node with url := parStrncpy reg.url, sock := (io i).socket }
      if 0 ≤ (io i).socket ∧ 0 ≤ (io i).connect then
        ({ node with endpoint := (io i).connect } :: nodes, true)
      else
        -- the failed node stays, with its old socket closed
        let rest := reRegister io reg (i + 1) nodes
        (node :: rest.1, rest.2)
    else
      let rest := reRegister io reg (i + 1) nodes
      (node :: rest.1, rest.2)

def processRegistration (io : RegistrationIO) (reg : RegMsg) (s : Registry) : Registry :=
  let walked : List RegListItem × Bool :=
    if s.clients.numOfClients ≠ 0 then reRegister io.reconnect reg 0 s.clients.gHead
    else (s.clients.gHead, s.matchFlag)
  let clients : ClientList := { s.clients with gHead := walked.1 }
  if walked.2 = false ∨ clients.numOfClients = 0 then
    ⟨(addToList io.add reg clients).2, walked.2⟩
  else ⟨clients, walked.2⟩

inductive Event
  | register (io : RegistrationIO) (reg : RegMsg)
  | deleteFromList (serviceName : Option CString)
  | deleteAllClients

def handle (s : Registry) : Event → Registry
  | .register io reg => processRegistration io reg s
  | .deleteFromList name => { s with clients := (Clients.deleteFromList name s.clients).2 }
  | .deleteAllClients => { s with clients := Clients.deleteAllClients s.clients }

def Step (s : Registry) (ev : Event) (t : Registry) : Prop := handle s ev = t

/-- Some node of the registered name is connected anew; the walk is only made
while clients are counted. -/
def Reconnects (s : Registry) (io : RegistrationIO) (reg : RegMsg) : Prop :=
  s.clients.numOfClients ≠ 0 ∧ ∃ i node, s.clients.gHead[i]? = some node ∧
    node.serviceName.text = reg.serviceName ∧ (io.reconnect i).Connects

def Adds (s : Registry) (io : RegistrationIO) (reg : RegMsg) : Prop :=
  ¬ Reconnects s io reg ∧ io.add.Links

theorem reRegister_names (io : ℕ → Attempt) (reg : RegMsg) (i : ℕ) (nodes : List RegListItem) :
    names (reRegister io reg i nodes).1 = names nodes := by
  induction nodes generalizing i with
  | nil => rfl
  | cons node nodes ih =>
    have h := ih (i + 1)
    simp only [names] at h
    unfold reRegister
    split_ifs <;> simp [names, h]

theorem reRegister_matched_iff (io : ℕ → Attempt) (reg : RegMsg) (i : ℕ)
    (nodes : List RegListItem) :
    (reRegister io reg i nodes).2 = true ↔ ∃ j node, nodes[j]? = some node ∧
      node.serviceName.text = reg.serviceName ∧ (io (i + j)).Connects := by
  induction nodes generalizing i with
  | nil => simp [reRegister]
  | cons node nodes ih =>
    have hcons : (∃ j n, (node :: nodes)[j]? = some n ∧
        n.serviceName.text = reg.serviceName ∧ (io (i + j)).Connects) ↔
        (node.serviceName.text = reg.serviceName ∧ (io i).Connects) ∨
          ∃ j n, nodes[j]? = some n ∧ n.serviceName.text = reg.serviceName ∧
            (io (i + 1 + j)).Connects := by
      constructor
      · intro hex
        obtain ⟨j, n, hj, hn, hc⟩ := hex
        cases j with
        | zero =>
          obtain rfl : node = n := by simpa using hj
          exact .inl ⟨hn, hc⟩
        | succ j =>
          rw [Nat.add_comm j, ← Nat.add_assoc] at hc
          exact .inr ⟨j, n, by simpa using hj, hn, hc⟩
      · intro hor
        rcases hor with ⟨hn, hc⟩ | ⟨j, n, hj, hn, hc⟩
        · exact ⟨0, node, rfl, hn, hc⟩
        · rw [Nat.add_assoc, Nat.add_comm 1] at hc
          exact ⟨j + 1, n, by simpa using hj, hn, hc⟩
    rw [hcons, ← ih (i + 1)]
    by_cases hn : node.serviceName.text = reg.serviceName
    · by_cases hc : 0 ≤ (io i).socket ∧ 0 ≤ (io i).connect
      · simp [reRegister, hn, hc, Attempt.Connects]
      · simp [reRegister, hn, hc, Attempt.Connects]
    · simp [reRegister, hn]

theorem processRegistration_cases (io : RegistrationIO) (reg : RegMsg) (s : Registry) :
    (Reconnects s io reg ∧
      (processRegistration io reg s).clients.numOfClients = s.clients.numOfClients ∧
      names (processRegistration io reg s).clients.gHead = names s.clients.gHead) ∨
    (¬ Reconnects s io reg ∧ ∃ l : ClientList, l.numOfClients = s.clients.numOfClients ∧
      names l.gHead = names s.clients.gHead ∧
      (processRegistration io reg s).clients = (addToList io.add reg l).2) := by
  by_cases h0 : s.clients.numOfClients = 0
  · refine .inr ⟨fun h ↦ h.1 h0, s.clients, rfl, rfl, ?_⟩
    have he : (⟨0, s.clients.gHead⟩ : ClientList) = s.clients := by rw [← h0]
    simp [processRegistration, h0, he]
  have hmatched := reRegister_matched_iff io.reconnect reg 0 s.clients.gHead
  simp only [Nat.zero_add] at hmatched
  have hnames := reRegister_names io.reconnect reg 0 s.clients.gHead
  cases hr : (reRegister io.reconnect reg 0 s.clients.gHead).2 with
  | true =>
    refine .inl ⟨⟨h0, hmatched.mp hr⟩, ?_, ?_⟩
    · simp [processRegistration, h0, hr]
    · simpa [processRegistration, h0, hr] using hnames
  | false =>
    refine .inr ⟨?_, ⟨s.clients.numOfClients, (reRegister io.reconnect reg 0 s.clients.gHead).1⟩,
      rfl, hnames, ?_⟩
    · intro hex
      obtain ⟨_, h⟩ := hex
      exact absurd (hmatched.mpr h) (by simp [hr])
    · simp [processRegistration, h0, hr]

theorem length_eq_of_names {l l' : List RegListItem} (h : names l = names l') :
    l.length = l'.length := by
  have hl := congrArg List.length h
  simpa [names] using hl

/-- What one event does to the counter and to the names on the list. -/
theorem register_cases (io : RegistrationIO) (reg : RegMsg) (s : Registry) :
    let t := (handle s (.register io reg)).clients
    (¬ Adds s io reg ∧ t.numOfClients = s.clients.numOfClients ∧
      names t.gHead = names s.clients.gHead) ∨
    (Adds s io reg ∧
      names t.gHead = names s.clients.gHead ++ [(parStrncpy reg.serviceName : CharBuf 32).text] ∧
      ((Fits reg ∧ t.numOfClients = s.clients.numOfClients + 1) ∨
        (¬ Fits reg ∧ t.numOfClients = s.clients.numOfClients))) := by
  intro t
  rcases processRegistration_cases io reg s with ⟨hre, hnum, hnames⟩ | ⟨hre, l, hnum, hnames, he⟩
  · exact .inl ⟨fun h ↦ h.1 hre, hnum, hnames⟩
  have ht : t = (addToList io.add reg l).2 := he
  rcases addToList_cases io.add reg l with ⟨hl, hadd⟩ | ⟨hl, hf, hadd⟩ | ⟨hl, hf, hadd⟩
  · refine .inl ⟨fun h ↦ hl h.2, ?_, ?_⟩
    · rw [ht, hadd, hnum]
    · rw [ht, hadd, hnames]
  · refine .inr ⟨⟨hre, hl⟩, ?_, .inl ⟨hf, ?_⟩⟩
    · rw [ht, hadd, ← hnames]
      simp [names, newNode]
    · rw [ht, hadd, hnum]
  · refine .inr ⟨⟨hre, hl⟩, ?_, .inr ⟨hf, ?_⟩⟩
    · rw [ht, hadd, ← hnames]
      simp [names, newNode]
    · rw [ht, hadd, hnum]

def Counted (s : Registry) : Prop := s.clients.numOfClients = s.clients.gHead.length

def CountOk (s : Registry) : Event → Prop
  | .register io reg => Adds s io reg → Fits reg
  | _ => True

theorem counted_step (s : Registry) (ev : Event) (t : Registry) (hs : Counted s)
    (h : Step s ev t) : Counted t ↔ CountOk s ev := by
  subst h
  unfold Counted at hs ⊢
  cases ev with
  | register io reg =>
    rcases register_cases io reg s with ⟨hadds, hnum, hnames⟩ | ⟨hadds, hnames, hcount⟩
    · have hlen := length_eq_of_names hnames
      refine iff_of_true ?_ (fun h ↦ absurd h hadds)
      rw [hnum, hlen, hs]
    · have hlen : (handle s (.register io reg)).clients.gHead.length =
          s.clients.gHead.length + 1 := by
        have h := congrArg List.length hnames
        simpa [names] using h
      rcases hcount with ⟨hf, hnum⟩ | ⟨hf, hnum⟩
      · refine iff_of_true ?_ (fun _ ↦ hf)
        rw [hnum, hlen, hs]
        rfl
      · refine iff_of_false ?_ (fun h ↦ hf (h hadds))
        rw [hnum, hlen, hs]
        omega
  | deleteFromList name =>
    refine iff_of_true ?_ trivial
    cases name with
    | none => exact hs
    | some name =>
      obtain ⟨_, heq⟩ | ⟨rest, _, hlen, heq⟩ := deleteFromList_cases name s.clients
      · simpa only [handle, heq] using hs
      · simp only [handle, heq]
        omega
  | deleteAllClients =>
    refine iff_of_true ?_ trivial
    simp only [handle, deleteAllClients, List.length_nil]
    split <;> omega

/-- Over any run, the counter is right in every state exactly when no
registration links a node whose name or url had to be cut off. -/
theorem numOfClients_counted_iff {tr : List (Registry × Event)} {s : Registry}
    (h : Run Step init tr s) : Throughout Counted tr s ↔ Every CountOk tr :=
  h.throughout_iff counted_step rfl

section Inputs

def succeeds : Attempt := ⟨3, 1, true, 7, 7⟩

def refused : Attempt := ⟨3, -1, true, 7, 7⟩

def iot : RegMsg := ⟨"iot".toList, "tcp://127.0.0.1:6667".toList⟩

def longName : RegMsg := ⟨List.replicate 32 'a', "tcp://127.0.0.1:6667".toList⟩

end Inputs

theorem numOfClients_counted_iot :
    Throughout Counted [(init, Event.register ⟨fun _ ↦ refused, succeeds⟩ iot)]
      ⟨⟨1, [newNode succeeds iot]⟩, false⟩ := by
  refine (numOfClients_counted_iff (.cons ?_ (.nil _))).mpr ?_
  · rfl
  · intro x hx
    obtain rfl := List.mem_singleton.mp hx
    exact fun _ ↦ ⟨by decide, by decide⟩

/-- One registration with a name of 32 bytes leaves a node that is not counted. -/
theorem numOfClients_not_counted :
    ∃ tr s, Run Step init tr s ∧ s.clients.numOfClients = 0 ∧ s.clients.gHead.length = 1 :=
  ⟨_, _, .cons (a := Event.register ⟨fun _ ↦ refused, succeeds⟩ longName) rfl (.nil _), rfl, rfl⟩

def Unique (s : Registry) : Prop :=
  ∀ serviceName : CString,
    (names s.clients.gHead).count (parStrncpy serviceName : CharBuf 32).text ≤ 1

def UniqueOk (s : Registry) : Event → Prop
  | .register io reg =>
    Adds s io reg → (parStrncpy reg.serviceName : CharBuf 32).text ∉ names s.clients.gHead
  | _ => True

theorem unique_iff_nodup (s : Registry) : Unique s ↔ (names s.clients.gHead).Nodup := by
  rw [List.nodup_iff_count_le_one]
  constructor
  · intro h name
    by_cases hname : name ∈ names s.clients.gHead
    · obtain ⟨node, _, rfl⟩ := List.mem_map.mp hname
      have hcopy := parStrncpy_text_eq_iff.mpr node.serviceName.fits
      have hcount := h node.serviceName.text
      rwa [hcopy] at hcount
    · rw [List.count_eq_zero_of_not_mem hname]
      exact Nat.zero_le 1
  · exact fun h name ↦ h _

theorem unique_step (s : Registry) (ev : Event) (t : Registry) (hs : Unique s)
    (h : Step s ev t) : Unique t ↔ UniqueOk s ev := by
  subst h
  rw [unique_iff_nodup] at hs ⊢
  cases ev with
  | register io reg =>
    rcases register_cases io reg s with ⟨hadds, _, hnames⟩ | ⟨hadds, hnames, _⟩
    · exact iff_of_true (hnames ▸ hs) (fun h ↦ absurd h hadds)
    · rw [hnames, List.nodup_append_comm, List.singleton_append, List.nodup_cons]
      exact ⟨fun h _ ↦ h.1, fun h ↦ ⟨h hadds, hs⟩⟩
  | deleteFromList name =>
    refine iff_of_true ?_ trivial
    cases name with
    | none => exact hs
    | some name =>
      have hnames := names_deleteFromList name s.clients
      simp only [handle, hnames]
      exact hs.erase name
  | deleteAllClients => exact iff_of_true List.nodup_nil trivial

/-- Over any run, no name is ever on the list twice exactly when no registration
links a node beside one of its own name, after failing to reconnect that one. -/
theorem serviceName_unique_iff {tr : List (Registry × Event)} {s : Registry}
    (h : Run Step init tr s) : Throughout Unique tr s ↔ Every UniqueOk tr :=
  h.throughout_iff unique_step (fun _ ↦ Nat.zero_le 1)

theorem serviceName_unique_iot :
    Throughout Unique [(init, Event.register ⟨fun _ ↦ refused, succeeds⟩ iot)]
      ⟨⟨1, [newNode succeeds iot]⟩, false⟩ := by
  refine (serviceName_unique_iff (.cons ?_ (.nil _))).mpr ?_
  · rfl
  · intro x hx
    obtain rfl := List.mem_singleton.mp hx
    exact fun _ ↦ List.not_mem_nil

/-- Registering again while the old node cannot be connected puts a second node
of the same name beside it. -/
theorem serviceName_not_unique :
    ∃ tr s, Run Step init tr s ∧ names s.clients.gHead = [iot.serviceName, iot.serviceName] ∧
      ¬ Unique s := by
  refine ⟨_, _, .cons (a := Event.register ⟨fun _ ↦ refused, succeeds⟩ iot) rfl
    (.cons (a := Event.register ⟨fun _ ↦ refused, succeeds⟩ iot) rfl (.nil _)), rfl, ?_⟩
  intro h
  exact absurd (h iot.serviceName) (by decide)

end Parodus.Clients
