import Parodus.Foundation.Segments
import Parodus.Wrp

namespace Parodus.Upstream

open Foundation.Segments

def parodusServiceName : CString := "parodus".toList

/-- `strncmp(s, t, n) == 0`. -/
def strneq (n : ℕ) (s t : CString) : Bool := s.take n == t.take n

/-- `strncasecmp(s, t, n) == 0`. -/
def strncaseeq (n : ℕ) (s t : CString) : Bool := strcaseeq (s.take n) (t.take n)

/-- The device id with its length, which counts the terminating zero. -/
def getDeviceId (allocated : Bool) (hwMac : CString) : Option (CString × ℕ) :=
  if hwMac = [] then none
  else if allocated then some ("mac:".toList ++ hwMac, hwMac.length + 5)
  else none

/-- Where `processUpstreamMessage` hands a message; `overrun` is a read behind the end of
its dest. -/
inductive Route
  | crudQueue
  | client
  | server
  | noDeviceId
  | overrun
  deriving DecidableEq

def routeRetrieve (allocated : Bool) (hwMac dest : CString) : Route :=
  match getDeviceId allocated hwMac with
  | none => .noDeviceId
  | some (deviceId, deviceIdLen) =>
    if strncaseeq (deviceIdLen - 1) deviceId dest then
      -- `&dest[device_id_len]` skips the character behind the device id
      if dest.length < deviceIdLen then .overrun
      else if strneq (parodusServiceName.length - 1) parodusServiceName (dest.drop deviceIdLen)
        then .crudQueue
      else .client
    else .server

def routeChange (allocated : Bool) (hwMac dest : CString) : Route :=
  match getDeviceId allocated hwMac with
  | none => .noDeviceId
  | some (deviceId, deviceIdLen) =>
    if strncaseeq (deviceIdLen - 1) deviceId dest then .client else .server

def deviceIdOf (hwMac : CString) : CString := "mac:".toList ++ hwMac

/-- The dest is the device's id, with what follows it. -/
def OfDevice (hwMac dest rest : CString) : Prop :=
  ∃ id, dest = id ++ rest ∧ strcaseeq (deviceIdOf hwMac) id = true

/-- The dest is the device's id, a slash and the service, and ends there or goes on with a
slash. -/
def ForService (hwMac dest service : CString) : Prop :=
  '/' ∉ service ∧ ∃ rest, Closed '/' rest ∧ OfDevice hwMac dest ('/' :: service ++ rest)

structure RightRoute (hwMac dest : CString) (route : Route) : Prop where
  crudQueue : route = .crudQueue ↔ ForService hwMac dest parodusServiceName
  client : ∀ service, service ≠ parodusServiceName → ForService hwMac dest service →
    route = .client
  server : (∀ rest, Closed '/' rest → ¬ OfDevice hwMac dest rest) → route = .server
  inBounds : route ≠ .overrun

/-- If the dest begins with the device's id, a slash follows it, and behind that no longer
or shorter name than the service's that begins with `parodu`. -/
def Delimited (hwMac dest : CString) : Prop :=
  ∀ rest, OfDevice hwMac dest rest → ∃ path, rest = '/' :: path ∧
    ("parodu".toList <+: path → ∃ rest', path = parodusServiceName ++ rest' ∧ Closed '/' rest')

theorem strcaseeq_length {s t : CString} (h : strcaseeq s t = true) : s.length = t.length := by
  have hmap : s.map Char.toLower = t.map Char.toLower := by simpa [strcaseeq] using h
  have hlength := congrArg List.length hmap
  rwa [List.length_map, List.length_map] at hlength

variable {hwMac dest rest rest' service service' : CString} {allocated : Bool}

theorem OfDevice.unique (h : OfDevice hwMac dest rest) (h' : OfDevice hwMac dest rest') :
    rest = rest' := by
  obtain ⟨id, hdest, hid⟩ := h
  obtain ⟨id', hdest', hid'⟩ := h'
  have hlength : id.length = id'.length :=
    (strcaseeq_length hid).symm.trans (strcaseeq_length hid')
  exact (List.append_inj (hdest.symm.trans hdest') hlength).2

theorem ofDevice_iff : OfDevice hwMac dest rest ↔
    strncaseeq (deviceIdOf hwMac).length (deviceIdOf hwMac) dest = true ∧
      rest = dest.drop (deviceIdOf hwMac).length := by
  constructor
  · rintro ⟨id, rfl, hid⟩
    have hlength := strcaseeq_length hid
    rw [strncaseeq, List.take_length, hlength, List.take_left', List.drop_left']
    · exact ⟨hid, rfl⟩
    · rfl
    · rfl
  · rintro ⟨hid, rfl⟩
    rw [strncaseeq, List.take_length] at hid
    exact ⟨_, (List.take_append_drop _ dest).symm, hid⟩

theorem ForService.unique (h : ForService hwMac dest service)
    (h' : ForService hwMac dest service') : service = service' := by
  obtain ⟨hservice, rest, hrest, hdest⟩ := h
  obtain ⟨hservice', rest', hrest', hdest'⟩ := h'
  have heq : service ++ rest = service' ++ rest' := (List.cons.inj (hdest.unique hdest')).2
  exact (segment_unique heq hservice hrest hservice' hrest').1

theorem forService_takeWhile {path : CString} (h : OfDevice hwMac dest ('/' :: path)) :
    ForService hwMac dest (path.takeWhile (· ≠ '/')) := by
  refine ⟨not_mem_takeWhile '/' path, path.dropWhile (· ≠ '/'), closed_dropWhile '/' path, ?_⟩
  rw [List.cons_append, List.takeWhile_append_dropWhile]
  exact h

theorem ForService.closed (h : ForService hwMac dest service) :
    ∃ path, OfDevice hwMac dest ('/' :: path) := by
  obtain ⟨_, rest, _, hdest⟩ := h
  exact ⟨_, hdest⟩

theorem not_forService (h : ∀ path, ¬ OfDevice hwMac dest ('/' :: path)) (service : CString) :
    ¬ ForService hwMac dest service := by
  intro hservice
  obtain ⟨path, hdest⟩ := hservice.closed
  exact h path hdest

theorem strneq_parodus_iff {path : CString} :
    strneq (parodusServiceName.length - 1) parodusServiceName path = true ↔
      "parodu".toList <+: path := by
  rw [strneq, beq_iff_eq, List.prefix_iff_eq_take]
  rfl

/-- All that can become of a RETRIEVE message. -/
theorem routeRetrieve_cases (hmac : hwMac ≠ []) (dest : CString) :
    (∀ rest, ¬ OfDevice hwMac dest rest) ∧ routeRetrieve true hwMac dest = .server ∨
    OfDevice hwMac dest [] ∧ routeRetrieve true hwMac dest = .overrun ∨
    ∃ c path, OfDevice hwMac dest (c :: path) ∧
      ("parodu".toList <+: path ∧ routeRetrieve true hwMac dest = .crudQueue ∨
        ¬ "parodu".toList <+: path ∧ routeRetrieve true hwMac dest = .client) := by
  have hlen : (deviceIdOf hwMac).length = hwMac.length + 4 := by simp [deviceIdOf]
  have hroute : routeRetrieve true hwMac dest =
      if strncaseeq (deviceIdOf hwMac).length (deviceIdOf hwMac) dest then
        if dest.length < hwMac.length + 5 then .overrun
        else if strneq (parodusServiceName.length - 1) parodusServiceName
          (dest.drop (hwMac.length + 5)) then .crudQueue
        else .client
      else .server := by
    rw [hlen, routeRetrieve, getDeviceId, if_neg hmac]
    rfl
  rw [hroute]
  by_cases hid : strncaseeq (deviceIdOf hwMac).length (deviceIdOf hwMac) dest = true
  · rw [if_pos hid]
    right
    have hdevice := ofDevice_iff.mpr ⟨hid, rfl⟩
    cases hdrop : dest.drop (deviceIdOf hwMac).length with
    | nil =>
      rw [hdrop] at hdevice
      have hshort : dest.length < hwMac.length + 5 := by
        have := List.drop_eq_nil_iff.mp hdrop
        omega
      rw [if_pos hshort]
      exact .inl ⟨hdevice, rfl⟩
    | cons c path =>
      rw [hdrop] at hdevice
      have hlong : ¬ dest.length < hwMac.length + 5 := by
        have hlength := congrArg List.length hdrop
        rw [List.length_drop, List.length_cons] at hlength
        omega
      have hpath : dest.drop (hwMac.length + 5) = path := by
        rw [← List.drop_drop (i := 1) (j := hwMac.length + 4), ← hlen, hdrop]
        rfl
      rw [if_neg hlong, hpath]
      refine .inr ⟨c, path, hdevice, ?_⟩
      by_cases hparodu : "parodu".toList <+: path
      · rw [if_pos (strneq_parodus_iff.mpr hparodu)]
        exact .inl ⟨hparodu, rfl⟩
      · rw [if_neg (mt strneq_parodus_iff.mp hparodu)]
        exact .inr ⟨hparodu, rfl⟩
  · rw [if_neg hid]
    exact .inl ⟨fun rest hrest ↦ hid (ofDevice_iff.mp hrest).1, rfl⟩

/-- What the route of a RETRIEVE message depends on; without memory for the device id it is
dropped, which is right for the bare device id alone. -/
def Routable (allocated : Bool) (hwMac dest : CString) : Prop :=
  if allocated then Delimited hwMac dest else OfDevice hwMac dest []

theorem not_mem_parodus : '/' ∉ parodusServiceName := by decide

theorem forService_parodus {rest : CString} (hrest : Closed '/' rest)
    (h : OfDevice hwMac dest ('/' :: (parodusServiceName ++ rest))) :
    ForService hwMac dest parodusServiceName :=
  ⟨not_mem_parodus, rest, hrest, h⟩

theorem RightRoute.delimited (h : RightRoute hwMac dest (routeRetrieve true hwMac dest))
    (hmac : hwMac ≠ []) : Delimited hwMac dest := by
  intro rest hrest
  obtain ⟨hnone, _⟩ | ⟨_, hoverrun⟩ | ⟨c, path, hdevice, hcase⟩ := routeRetrieve_cases hmac dest
  · exact absurd hrest (hnone rest)
  · exact absurd hoverrun h.inBounds
  obtain rfl := hrest.unique hdevice
  obtain ⟨_, hcrud⟩ | ⟨hparodu, hclient⟩ := hcase
  · obtain ⟨_, rest', hclosed, hservice⟩ := h.crudQueue.mp hcrud
    obtain ⟨rfl, rfl⟩ := List.cons.inj (hdevice.unique hservice)
    exact ⟨_, rfl, fun _ ↦ ⟨rest', rfl, hclosed⟩⟩
  · have hc : c = '/' := by
      by_contra hne
      have hserver : routeRetrieve true hwMac dest = .server := by
        apply h.server
        intro rest hclosed hrest'
        obtain rfl := hrest'.unique hdevice
        obtain hnil | ⟨rest', hslash⟩ := hclosed
        · cases hnil
        · exact hne (List.cons.inj hslash).1
      rw [hclient] at hserver
      cases hserver
    exact ⟨path, by rw [hc], fun hpre ↦ absurd hpre hparodu⟩

theorem Delimited.rightRoute (h : Delimited hwMac dest) (hmac : hwMac ≠ []) :
    RightRoute hwMac dest (routeRetrieve true hwMac dest) := by
  obtain ⟨hnone, hserver⟩ | ⟨hbare, _⟩ | ⟨c, path, hdevice, hcase⟩ :=
    routeRetrieve_cases hmac dest
  · have hservice : ∀ service, ¬ ForService hwMac dest service :=
      not_forService fun path ↦ hnone ('/' :: path)
    rw [hserver]
    exact ⟨⟨nofun, fun hp ↦ absurd hp (hservice _)⟩, fun service _ hs ↦ absurd hs (hservice _),
      fun _ ↦ rfl, nofun⟩
  · obtain ⟨path, hpath, _⟩ := h [] hbare
    cases hpath
  obtain ⟨path', hpath, hname⟩ := h _ hdevice
  obtain ⟨rfl, rfl⟩ := List.cons.inj hpath
  have hthis : ¬ ∀ rest, Closed '/' rest → ¬ OfDevice hwMac dest rest :=
    fun hother ↦ hother _ (.inr ⟨_, rfl⟩) hdevice
  obtain ⟨hparodu, hcrud⟩ | ⟨hparodu, hclient⟩ := hcase
  · obtain ⟨rest', rfl, hclosed⟩ := hname hparodu
    have hparodus := forService_parodus hclosed hdevice
    rw [hcrud]
    exact ⟨⟨fun _ ↦ hparodus, fun _ ↦ rfl⟩, fun service hne hs ↦ absurd (hs.unique hparodus) hne,
      fun hother ↦ absurd hother hthis, nofun⟩
  · have hnot : ¬ ForService hwMac dest parodusServiceName := by
      rintro ⟨_, rest', _, hparodus⟩
      obtain ⟨_, rfl⟩ := List.cons.inj (hdevice.unique hparodus)
      exact hparodu ⟨'s' :: rest', rfl⟩
    rw [hclient]
    exact ⟨⟨nofun, fun hp ↦ absurd hp hnot⟩, fun _ _ _ ↦ rfl,
      fun hother ↦ absurd hother hthis, nofun⟩

theorem rightRoute_noDeviceId_iff :
    RightRoute hwMac dest .noDeviceId ↔ OfDevice hwMac dest [] := by
  constructor
  · intro h
    by_contra hbare
    have hother : ∀ rest, Closed '/' rest → ¬ OfDevice hwMac dest rest := by
      rintro rest (rfl | ⟨path, rfl⟩) hdevice
      · exact hbare hdevice
      · have hservice := forService_takeWhile hdevice
        by_cases hname : path.takeWhile (· ≠ '/') = parodusServiceName
        · rw [hname] at hservice
          cases h.crudQueue.mpr hservice
        · cases h.client _ hname hservice
    cases h.server hother
  · intro h
    have hservice : ∀ service, ¬ ForService hwMac dest service := by
      apply not_forService
      intro path hpath
      cases h.unique hpath
    exact ⟨⟨nofun, fun hp ↦ absurd hp (hservice _)⟩, fun service _ hs ↦ absurd hs (hservice _),
      fun hother ↦ absurd h (hother [] (.inl rfl)), nofun⟩

theorem rightRoute_iff (hmac : hwMac.length = 12) (allocated : Bool) (dest : CString) :
    RightRoute hwMac dest (routeRetrieve allocated hwMac dest) ↔
      Routable allocated hwMac dest := by
  have hne : hwMac ≠ [] := by
    intro hnil
    rw [hnil] at hmac
    cases hmac
  cases allocated with
  | true => exact ⟨fun h ↦ h.delimited hne, fun h ↦ Delimited.rightRoute h hne⟩
  | false =>
    have hroute : routeRetrieve false hwMac dest = .noDeviceId := by
      rw [routeRetrieve, getDeviceId, if_neg hne]
      rfl
    rw [hroute]
    exact rightRoute_noDeviceId_iff

def boxMac : CString := "14cfe2142144".toList

theorem ofDevice_boxMac (rest : CString) :
    OfDevice boxMac ("mac:14cfe2142144".toList ++ rest) rest :=
  ⟨"mac:14cfe2142144".toList, rfl, by decide⟩

/-- The last character of the service's name is not compared. -/
theorem parodux_not_rightRoute : ¬ RightRoute boxMac "mac:14cfe2142144/parodux".toList
    (routeRetrieve true boxMac "mac:14cfe2142144/parodux".toList) := by
  intro h
  have hne : boxMac ≠ [] := by decide
  obtain ⟨path, hpath, hname⟩ :=
    h.delimited hne _ (ofDevice_boxMac ('/' :: "parodux".toList))
  obtain ⟨_, rfl⟩ := List.cons.inj hpath
  obtain ⟨rest', hparodus, _⟩ := hname ⟨"x".toList, rfl⟩
  have hlast : some 'x' = some 's' := congrArg (fun path ↦ path[6]?) hparodus
  exact absurd hlast (by decide)

theorem cloudStatus_rightRoute : RightRoute boxMac "mac:14cfe2142144/parodus/cloud-status".toList
    (routeRetrieve true boxMac "mac:14cfe2142144/parodus/cloud-status".toList) := by
  refine (rightRoute_iff rfl true _).mpr ?_
  intro rest hrest
  obtain rfl := hrest.unique (ofDevice_boxMac "/parodus/cloud-status".toList)
  exact ⟨_, rfl, fun _ ↦ ⟨"/cloud-status".toList, rfl, .inr ⟨_, rfl⟩⟩⟩

end Parodus.Upstream
