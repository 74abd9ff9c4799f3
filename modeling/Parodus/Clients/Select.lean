import Mathlib.Data.List.InsertIdx
import Parodus.Clients.Registration
import Parodus.Downstream.Route

namespace Parodus.Clients

open Downstream Foundation.Runs Foundation.Segments

/-- The place of the client that `listenerOnMessage` sends to. -/
def listenerSelect (clients : List RegListItem) (dest : CString) : Option ℕ :=
  clients.findIdx? fun node ↦ node.serviceName.text == (destService dest).text

/-- The place of the client that `sendMsgtoRegisteredClients` sends to. -/
def sendMsgtoRegisteredClients (serviceName : CString) (clients : List RegListItem) : Option ℕ :=
  clients.findIdx? fun node ↦ node.serviceName.text == serviceName

/-- Without a service nothing is sent. -/
def getServiceNameAndSendResponse (clients : List RegListItem) (dest : CString) : Option ℕ :=
  (between '/' dest).bind fun serviceName ↦ sendMsgtoRegisteredClients serviceName clients

/-- The names that the nodes were registered by, as `reRegister` walks over them: a node that it
finds is from then on the node of the new client. -/
def renamed (io : ℕ → Attempt) (reg : RegMsg) : ℕ → List RegListItem → List CString → List CString
  | i, node :: nodes, name :: registered =>
    if node.serviceName.text = reg.serviceName then
      reg.serviceName ::
        if 0 ≤ (io i).socket ∧ 0 ≤ (io i).connect then registered
        else renamed io reg (i + 1) nodes registered
    else name :: renamed io reg (i + 1) nodes registered
  | _, _, registered => registered

def walkedNames (s : Registry) (io : RegistrationIO) (reg : RegMsg) (registered : List CString) :
    List CString :=
  if s.clients.numOfClients ≠ 0 then renamed io.reconnect reg 0 s.clients.gHead registered
  else registered

/-- The whole names, node by node, that the clients registered by. -/
def observeNames (s : Registry) (ev : Event) (registered : List CString) : List CString :=
  match ev with
  | .register io reg =>
    if s.clients.gHead.length < (handle s ev).clients.gHead.length then
      walkedNames s io reg registered ++ [reg.serviceName]
    else walkedNames s io reg registered
  | .deleteFromList none => registered
  | .deleteFromList (some serviceName) =>
    registered.eraseIdx ((names s.clients.gHead).idxOf serviceName)
  | .deleteAllClients => []

/-- Both paths select one client, whose registered name is the service of the dest. -/
structure SameClient (registered : List CString) (clients : List RegListItem) (dest : CString) :
    Prop where
  same : listenerSelect clients dest = getServiceNameAndSendResponse clients dest
  named : ∀ i, listenerSelect clients dest = some i ∨
    getServiceNameAndSendResponse clients dest = some i →
    ∃ service, between '/' dest = some service ∧ registered[i]? = some service

/-- A name was registered that begins with the service and goes on only behind what is kept. -/
def Held (registered : List CString) (service : CString) : Prop :=
  ∃ name ∈ registered, name.take 31 = service

/-- Behind the first slash stands a service, not empty and short enough to be kept. A dest that
begins with the slash has to name it twice. -/
def Plain (dest service : CString) : Prop :=
  service ≠ [] ∧ service.length < 32 ∧ ∃ front rest, '/' ∉ front ∧ '/' ∉ service ∧
    Closed '/' rest ∧ dest = front ++ '/' :: (service ++ rest) ∧
    (front = [] → ∃ second rest', token '/' rest = some (second, rest') ∧ second.take 31 = service)

/-- No client is found under either reading of the dest, or the dest is plain and the first name
that is kept as its service is the service itself. -/
def Agreeing (registered : List CString) (dest : CString) : Prop :=
  (¬ Held registered ((strtokService dest).take 31) ∧
    ∀ service, between '/' dest = some service → ¬ Held registered service) ∨
  ∃ service, ∃ i : ℕ, Plain dest service ∧ registered[i]? = some service ∧
    ∀ j < i, ∀ name : CString, registered[j]? = some name → name.take 31 ≠ service

section Readings

variable {front service rest dest : CString}

theorem strtokService_front (hne : front ≠ []) (hfront : '/' ∉ front) (hservice : service ≠ [])
    (hslash : '/' ∉ service) (hrest : Closed '/' rest) :
    strtokService (front ++ '/' :: (service ++ rest)) = service := by
  have hfirst : token '/' (front ++ '/' :: (service ++ rest)) = some (front, service ++ rest) :=
    token_append hne hfront (.inr ⟨_, rfl⟩)
  rw [strtokService, hfirst]
  dsimp only
  rw [token_append hservice hslash hrest]

theorem strtokService_slash (hservice : service ≠ []) (hslash : '/' ∉ service)
    (hrest : Closed '/' rest) : strtokService ('/' :: (service ++ rest)) =
      match token '/' rest with
      | some (second, _) => second
      | none => '/' :: service := by
  have hhead : (service ++ rest).takeWhile (· = '/') = [] := by
    obtain ⟨c, cs, rfl⟩ := List.exists_cons_of_ne_nil hservice
    have hc : c ≠ '/' := fun heq ↦ hslash (heq ▸ List.mem_cons_self)
    simp [hc]
  rw [strtokService, token_cons_sep, token_append hservice hslash hrest]
  dsimp only
  rw [token_tail hrest]
  cases token '/' rest with
  | some second => rfl
  | none => simp [hhead]

theorem strtokService_ne_nil (h : dest ≠ []) : strtokService dest ≠ [] := by
  unfold strtokService
  cases hfirst : token '/' dest with
  | none => exact h
  | some first =>
    obtain ⟨tempDest, rest⟩ := first
    dsimp only
    cases hsecond : token '/' rest with
    | none => exact List.append_ne_nil_of_right_ne_nil _ (token_ne_nil hfirst)
    | some second => exact token_ne_nil hsecond

theorem plain_iff : Plain dest service ↔
    between '/' dest = some service ∧ (strtokService dest).take 31 = service := by
  constructor
  · rintro ⟨hne, hlength, front, rest, hfront, hslash, hrest, rfl, hsecond⟩
    refine ⟨between_append hfront hslash hrest, ?_⟩
    have htake : service.take 31 = service := List.take_of_length_le (by omega)
    by_cases hnil : front = []
    · obtain ⟨second, rest', htoken, hcut⟩ := hsecond hnil
      rw [hnil, List.nil_append, strtokService_slash hne hslash hrest, htoken]
      exact hcut
    · rw [strtokService_front hnil hfront hne hslash hrest, htake]
  · rintro ⟨hbetween, hcut⟩
    obtain ⟨front, rest, hfront, hslash, hrest, rfl⟩ := between_eq_some_iff.mp hbetween
    have hne : service ≠ [] := by
      intro hnil
      rw [hnil, List.take_eq_nil_iff] at hcut
      obtain h31 | hempty := hcut
      · cases h31
      · exact strtokService_ne_nil (by simp) hempty
    have hlength : service.length < 32 := by
      have hle := congrArg List.length hcut
      rw [List.length_take] at hle
      omega
    refine ⟨hne, hlength, front, rest, hfront, hslash, hrest, rfl, ?_⟩
    rintro rfl
    rw [List.nil_append, strtokService_slash hne hslash hrest] at hcut
    cases htoken : token '/' rest with
    | some second =>
      rw [htoken] at hcut
      exact ⟨second.1, second.2, rfl, hcut⟩
    | none =>
      rw [htoken] at hcut
      have hhead : '/' ∈ service := by
        rw [← hcut]
        simp
      exact absurd hhead hslash

end Readings

section Selection

variable {registered : List CString} {clients : List RegListItem} {dest service : CString}

def Named (registered : List CString) (clients : List RegListItem) : Prop :=
  names clients = registered.map fun name ↦ name.take 31

theorem findIdx_named (h : Named registered clients) (service : CString) :
    (clients.findIdx? fun node ↦ node.serviceName.text == service) =
      registered.findIdx? fun name ↦ name.take 31 == service := by
  have hclients : (clients.findIdx? fun node ↦ node.serviceName.text == service) =
      (names clients).findIdx? (· == service) := by
    rw [names, List.findIdx?_map]
    rfl
  rw [hclients, h, List.findIdx?_map]
  rfl

theorem sendMsg_eq_none_iff (h : Named registered clients) :
    sendMsgtoRegisteredClients service clients = none ↔ ¬ Held registered service := by
  rw [sendMsgtoRegisteredClients, findIdx_named h, List.findIdx?_eq_none_iff]
  simp [Held]

theorem sendMsg_eq_some_iff (h : Named registered clients) {i : ℕ} :
    sendMsgtoRegisteredClients service clients = some i ↔
      (∃ name, registered[i]? = some name ∧ name.take 31 = service) ∧
      ∀ j < i, ∀ name : CString, registered[j]? = some name → name.take 31 ≠ service := by
  rw [sendMsgtoRegisteredClients, findIdx_named h, List.findIdx?_eq_some_iff_getElem]
  constructor
  · rintro ⟨hi, hname, hfirst⟩
    refine ⟨⟨registered[i], List.getElem?_eq_getElem hi, by simpa using hname⟩, ?_⟩
    intro j hj name hjname
    obtain ⟨_, rfl⟩ := List.getElem?_eq_some_iff.mp hjname
    simpa using hfirst j hj
  · rintro ⟨⟨name, hname, hcut⟩, hfirst⟩
    obtain ⟨hi, rfl⟩ := List.getElem?_eq_some_iff.mp hname
    refine ⟨hi, by simpa using hcut, ?_⟩
    intro j hj
    have hj' : j < registered.length := Nat.lt_trans hj hi
    simpa using hfirst j hj _ (List.getElem?_eq_getElem hj')

theorem listenerSelect_eq (clients : List RegListItem) (dest : CString) :
    listenerSelect clients dest =
      sendMsgtoRegisteredClients ((strtokService dest).take 31) clients := rfl

/-- What `listenerOnMessage` sends, it sends to the selected client. -/
theorem searchDest_client (layout : WrpMsg → CrudMsg) (calls : Calls) (msg : WrpMsg)
    (ret sock : ℤ) :
    .client sock ∈ (searchDest layout calls clients msg ret dest).delivered ↔
      ∃ i node, listenerSelect clients dest = some i ∧ clients[i]? = some node ∧
        node.sock = sock := by
  have hfind : (clients.find? fun node ↦ node.serviceName.text == (destService dest).text) =
      (clients.findIdx? fun node ↦ node.serviceName.text == (destService dest).text).bind
        (clients[·]?) := List.find?_eq_bind_findIdx?_getElem?
  rw [searchDest]
  dsimp only
  rw [hfind]
  rw [listenerSelect]
  cases hselect : clients.findIdx? fun node ↦
      node.serviceName.text == (destService dest).text with
  | none =>
    simp only [Option.bind_none]
    split_ifs <;> simp
  | some i =>
    obtain ⟨hi, _⟩ := List.findIdx?_eq_some_iff_getElem.mp hselect
    simp [List.getElem?_eq_getElem hi, eq_comm]

/-- Where the stored names are what fits of the registered ones, the paths agree exactly if the
names and the dest do. -/
theorem sameClient_iff (h : Named registered clients) (dest : CString) :
    SameClient registered clients dest ↔ Agreeing registered dest := by
  constructor
  · rintro ⟨hsame, hnamed⟩
    cases hselect : listenerSelect clients dest with
    | none =>
      rw [hselect] at hsame
      rw [listenerSelect_eq, sendMsg_eq_none_iff h] at hselect
      refine .inl ⟨hselect, fun service hservice ↦ ?_⟩
      rw [getServiceNameAndSendResponse, hservice] at hsame
      exact (sendMsg_eq_none_iff h).mp hsame.symm
    | some i =>
      obtain ⟨service, hservice, hname⟩ := hnamed i (.inl hselect)
      rw [hselect, getServiceNameAndSendResponse, hservice] at hsame
      obtain ⟨⟨name, hi, hcut⟩, hfirst⟩ := (sendMsg_eq_some_iff h).mp hsame.symm
      rw [listenerSelect_eq] at hselect
      obtain ⟨⟨name', hi', hcut'⟩, _⟩ := (sendMsg_eq_some_iff h).mp hselect
      obtain rfl : name = name' := Option.some.inj (hi.symm.trans hi')
      exact .inr ⟨service, i, plain_iff.mpr ⟨hservice, hcut'.symm.trans hcut⟩, hname, hfirst⟩
  · rintro (⟨hlistener, hbetween⟩ | ⟨service, i, hplain, hname, hfirst⟩)
    · have hdown : listenerSelect clients dest = none := (sendMsg_eq_none_iff h).mpr hlistener
      have hup : getServiceNameAndSendResponse clients dest = none := by
        rw [getServiceNameAndSendResponse]
        cases hservice : between '/' dest with
        | none => rfl
        | some service => exact (sendMsg_eq_none_iff h).mpr (hbetween service hservice)
      refine ⟨hdown.trans hup.symm, fun i hi ↦ ?_⟩
      rw [hdown, hup] at hi
      obtain hi | hi := hi <;> cases hi
    · obtain ⟨hservice, hcut⟩ := plain_iff.mp hplain
      have hfits : service.take 31 = service := by
        rw [← hcut, List.take_take, Nat.min_self]
      have hselect : sendMsgtoRegisteredClients service clients = some i :=
        (sendMsg_eq_some_iff h).mpr ⟨⟨service, hname, hfits⟩, hfirst⟩
      have hdown : listenerSelect clients dest = some i := by
        rw [listenerSelect_eq, hcut, hselect]
      have hup : getServiceNameAndSendResponse clients dest = some i := by
        rw [getServiceNameAndSendResponse, hservice]
        exact hselect
      refine ⟨hdown.trans hup.symm, fun j hj ↦ ⟨service, hservice, ?_⟩⟩
      rw [hdown, hup, or_self] at hj
      obtain rfl := Option.some.inj hj
      exact hname

theorem renamed_named (io : ℕ → Attempt) (reg : RegMsg) (i : ℕ) {nodes : List RegListItem}
    (h : Named registered nodes) : Named (renamed io reg i nodes registered) nodes := by
  induction nodes generalizing i registered with
  | nil => exact h
  | cons node nodes ih =>
    cases registered with
    | nil => cases h
    | cons name registered =>
      obtain ⟨hname, hrest⟩ := List.cons.inj h
      unfold renamed
      by_cases hfound : node.serviceName.text = reg.serviceName
      · have hfits : reg.serviceName.take 31 = reg.serviceName := by
          have := node.serviceName.fits
          rw [hfound] at this
          exact List.take_of_length_le (by omega)
        rw [if_pos hfound]
        have hhead : node.serviceName.text = reg.serviceName.take 31 := hfound.trans hfits.symm
        by_cases hconnects : 0 ≤ (io i).socket ∧ 0 ≤ (io i).connect
        · rw [if_pos hconnects]
          exact congrArg₂ List.cons hhead hrest
        · rw [if_neg hconnects]
          exact congrArg₂ List.cons hhead (ih (i + 1) hrest)
      · rw [if_neg hfound]
        exact congrArg₂ List.cons hname (ih (i + 1) hrest)

theorem walkedNames_named (io : RegistrationIO) (reg : RegMsg) {s : Registry}
    (h : Named registered s.clients.gHead) :
    Named (walkedNames s io reg registered) s.clients.gHead := by
  unfold walkedNames
  split
  · exact renamed_named _ _ _ h
  · exact h

theorem Named.link {nodes nodes' : List RegListItem} {name : CString} (h : Named registered nodes)
    (hcases : names nodes' = names nodes ∨ names nodes' = names nodes ++ [name.take 31]) :
    Named (if nodes.length < nodes'.length then registered ++ [name] else registered) nodes' := by
  obtain hsame | hlinked := hcases
  · rw [if_neg (length_eq_of_names hsame).not_gt]
    exact hsame.trans h
  · have hlength := congrArg List.length hlinked
    rw [names, names, List.length_append, List.length_map, List.length_map] at hlength
    have hlt : nodes.length < nodes'.length := by
      rw [hlength]
      exact Nat.lt_succ_self _
    rw [if_pos hlt, Named, hlinked, h, List.map_append]
    rfl

theorem named_step (x : Registry × List CString) (ev : Event) (y : Registry × List CString)
    (hs : Named x.2 x.1.clients.gHead) (h : Observed Step observeNames x ev y) :
    Named y.2 y.1.clients.gHead := by
  obtain ⟨s, registered⟩ := x
  obtain ⟨t, registered'⟩ := y
  obtain ⟨hstep, hobserve⟩ := h
  obtain rfl : handle s ev = t := hstep
  obtain rfl : registered' = observeNames s ev registered := hobserve
  cases ev with
  | register io reg =>
    refine (walkedNames_named io reg hs).link ?_
    obtain ⟨_, _, hnames⟩ | ⟨_, hnames, _⟩ := register_cases io reg s
    · exact .inl hnames
    · exact .inr hnames
  | deleteFromList serviceName =>
    cases serviceName with
    | none => exact hs
    | some serviceName =>
      have herase : (registered.eraseIdx ((names s.clients.gHead).idxOf serviceName)).map
          (fun name ↦ name.take 31) = (names s.clients.gHead).erase serviceName := by
        rw [← List.eraseIdx_map, ← hs, List.eraseIdx_idxOf_eq_erase]
      exact (names_deleteFromList serviceName s.clients).trans herase.symm
  | deleteAllClients => rfl

theorem named_run {tr : List ((Registry × List CString) × Event)}
    {x : Registry × List CString} (h : Run (Observed Step observeNames) (init, []) tr x) :
    Named x.2 x.1.clients.gHead := by
  have hinit : Named [] init.clients.gHead := rfl
  exact (h.invariant named_step hinit).2

/-- For every reachable list and every dest, the two paths select the same client, and one that
registered by the service of the dest, exactly if names and dest are agreeing. -/
theorem reachable_sameClient_iff {tr : List ((Registry × List CString) × Event)}
    {x : Registry × List CString} (h : Run (Observed Step observeNames) (init, []) tr x)
    (dest : CString) : SameClient x.2 x.1.clients.gHead dest ↔ Agreeing x.2 dest :=
  sameClient_iff (named_run h) dest

def iotListed : Registry := ⟨⟨1, [newNode succeeds iot]⟩, false⟩

theorem iotListed_run : Run (Observed Step observeNames) (init, [])
    [((init, []), Event.register ⟨fun _ ↦ refused, succeeds⟩ iot)]
    (iotListed, ["iot".toList]) := by
  have hstep : Observed Step observeNames (init, [])
      (.register ⟨fun _ ↦ refused, succeeds⟩ iot) (iotListed, ["iot".toList]) := ⟨rfl, rfl⟩
  exact .cons hstep (.nil _)

/-- An empty segment is skipped by one path and taken as the service by the other. -/
theorem reachable_not_sameClient_skipped : ∃ tr x,
    Run (Observed Step observeNames) (init, []) tr x ∧
      ¬ SameClient x.2 x.1.clients.gHead "mac:14cfe2142144//iot".toList := by
  refine ⟨_, _, iotListed_run, ?_⟩
  intro h
  have hlistener : listenerSelect iotListed.clients.gHead "mac:14cfe2142144//iot".toList =
      some 0 := by
    simp only [String.reduceToList]
    decide
  have hsend : getServiceNameAndSendResponse iotListed.clients.gHead
      "mac:14cfe2142144//iot".toList = none := by
    simp only [String.reduceToList]
    decide
  have hsame := h.same
  rw [hlistener, hsend] at hsame
  cases hsame

theorem reachable_sameClient_iot : SameClient ["iot".toList] iotListed.clients.gHead
    "mac:14cfe2142144/iot/x".toList := by
  refine (reachable_sameClient_iff iotListed_run _).mpr (.inr ⟨"iot".toList, 0, ?_, rfl, ?_⟩)
  · refine ⟨by decide, by decide, "mac:14cfe2142144".toList, "/x".toList, by decide, by decide,
      .inr ⟨"x".toList, rfl⟩, rfl, ?_⟩
    intro hnil
    cases hnil
  · intro j hj
    exact absurd hj (Nat.not_lt_zero j)

end Selection

end Parodus.Clients
