import Parodus.Config.Algorithms
import Parodus.Crud.Request
import Parodus.Downstream.Route
import Parodus.Foundation.Access

namespace Parodus.Crud

open Foundation Foundation.Access Foundation.Segments Config

/-- The array `obj` at every index; `none` is an entry that was not assigned. -/
abbrev Entries := ℤ → Option (Option CString)

def unassigned : Entries := fun _ ↦ none

/-- The turns of the loop over the dest elements from the `i`th on. -/
def elementLoop (element : ℕ → Option CString) : ℕ → ℕ → Entries → ℤ → Access ℤ (Entries × ℤ)
  | 0, _, obj, rv => pure (obj, rv)
  | turns + 1, i, obj, rv => do
    let obj ← write obj i (some (element i))
    let entry ← read obj i
    if entry = some none then pure (obj, rv) else elementLoop element turns (i + 1) obj i

def freeLoop : ℕ → ℕ → Entries → Access ℤ Entries
  | 0, _, obj => pure obj
  | turns + 1, i, obj => do
    let _ ← read obj i
    let obj ← write obj i (some none)
    freeLoop turns (i + 1) obj

def freeObjArray (obj : Entries) (size : ℤ) : Access ℤ Entries := freeLoop (size + 1).toNat 0 obj

/-- The text before `e`, or null if there is none. -/
def strdupptr (text : CString) : Option CString := if text = [] then none else some text

/-- The break of the last element at its slash. -/
def breakElement (obj : Entries) (rv : ℤ) (start : CString) : Access ℤ (Entries × ℤ) :=
  match (cutAt '/' start).2 with
  | none => pure (obj, rv)
  | some rest =>
    if (cutAt '/' rest).2 = none then do
      let _ ← read obj rv
      let obj ← write obj rv (some none)
      let obj ← write obj rv (some (strdupptr (cutAt '/' start).1))
      let obj ← write obj (rv + 1) (some (some rest))
      pure (obj, rv + 1)
    else do
      let obj ← freeObjArray obj rv
      pure (obj, -1)

/-- What follows the loop; there is no level where the string functions are given no string. -/
def breakLast (obj : Entries) (rv : ℤ) : Access ℤ (Entries × Option ℤ) := do
  let start ← read obj rv
  match start.join with
  | some start => do
    let broken ← breakElement obj rv start
    pure (broken.1, some broken.2)
  | none => pure (obj, none)

/-- `parse_dest_elements_to_string` on the results of `wrp_get_msg_element`. -/
def parseDestArray (element : ℕ → Option CString) : Access ℤ (Entries × Option ℤ) := do
  let loop ← elementLoop element 4 0 unassigned (-1)
  breakLast loop.1 loop.2

/-- The elements up to the application are all there, and this is the last. -/
def Application (element : ℕ → Option CString) (text : CString) : Prop :=
  (∀ i < 3, (element i).isSome) ∧ element 3 = some text

structure RightLevel (element : ℕ → Option CString) (out : Access ℤ (Entries × Option ℤ)) :
    Prop where
  inBounds : Within (fun i ↦ 0 ≤ i ∧ i ≤ 4) out
  level : out.value.2 = some (-1) ∨ ∃ objlevel : ℕ, objlevel ≤ 4 ∧ out.value.2 = some ↑objlevel ∧
    ∀ i : ℕ, i ≤ objlevel → (out.value.1 i).isSome
  broken : ∀ a b, '/' ∉ a → '/' ∉ b → Application element (a ++ '/' :: b) →
    out.value.2 = some 4 ∧ out.value.1 3 = some (some a) ∧ out.value.1 4 = some (some b)
  unsupported : ∀ text, Application element text → 2 ≤ text.count '/' → out.value.2 = some (-1)

/-- The elements from the `i`th on before the first that is null. -/
def leading (element : ℕ → Option CString) : ℕ → ℕ → List CString
  | 0, _ => []
  | turns + 1, i =>
    match element i with
    | some text => text :: leading element turns (i + 1)
    | none => []

/-- What the loop assigns: the elements, and the null behind them where it stopped early. -/
def assigned (element : ℕ → Option CString) (turns i : ℕ) : List (Option CString) :=
  (leading element turns i).map some ++
    if (leading element turns i).length < turns then [none] else []

section Loop

variable {element : ℕ → Option CString} {turns i : ℕ} {obj : Entries} {rv : ℤ}

theorem elementLoop_null (turns : ℕ) (obj : Entries) (rv : ℤ) (h : element i = none) :
    (elementLoop element (turns + 1) i obj rv).value =
      (Function.update obj ↑i (some none), rv) := by
  simp [elementLoop, h]

theorem elementLoop_text (turns : ℕ) (obj : Entries) (rv : ℤ) {text : CString}
    (h : element i = some text) : (elementLoop element (turns + 1) i obj rv).value =
      (elementLoop element turns (i + 1) (Function.update obj ↑i (some (some text))) i).value := by
  simp [elementLoop, h]

theorem elementLoop_within (element : ℕ → Option CString) (turns i : ℕ) (obj : Entries) (rv : ℤ) :
    Within (fun j : ℤ ↦ i ≤ j ∧ j < i + turns) (elementLoop element turns i obj rv) := by
  induction turns generalizing i obj rv with
  | zero => exact within_pure _
  | succ turns ih =>
    have hi : (i : ℤ) ≤ i ∧ (i : ℤ) < i + (turns + 1 : ℕ) := by omega
    refine within_bind.mpr ⟨within_write.mpr hi, within_bind.mpr ⟨within_read.mpr hi, ?_⟩⟩
    split
    · exact within_pure _
    · refine (ih (i + 1) _ _).mono ?_
      intro j hj
      omega

theorem elementLoop_rv (element : ℕ → Option CString) (turns i : ℕ) (obj : Entries) (rv : ℤ) :
    (elementLoop element turns i obj rv).value.2 =
      if leading element turns i = [] then rv else i + (leading element turns i).length - 1 := by
  induction turns generalizing i obj rv with
  | zero => rfl
  | succ turns ih =>
    cases helement : element i with
    | none =>
      rw [elementLoop_null _ _ _ helement, leading, helement]
      exact (if_pos rfl).symm
    | some text =>
      rw [elementLoop_text _ _ _ helement, ih, leading, helement, if_neg (List.cons_ne_nil _ _),
        List.length_cons]
      cases leading element turns (i + 1) with
      | nil =>
        rw [if_pos rfl, List.length_nil]
        omega
      | cons x xs =>
        rw [if_neg (List.cons_ne_nil _ _)]
        omega

theorem elementLoop_below (element : ℕ → Option CString) (turns i : ℕ) (obj : Entries) (rv : ℤ)
    {j : ℤ} (hj : j < i) : (elementLoop element turns i obj rv).value.1 j = obj j := by
  induction turns generalizing i obj rv with
  | zero => rfl
  | succ turns ih =>
    have hne : j ≠ i := by omega
    cases helement : element i with
    | none =>
      rw [elementLoop_null _ _ _ helement]
      exact Function.update_of_ne hne _ _
    | some text =>
      rw [elementLoop_text _ _ _ helement, ih (i + 1) _ _ (by omega)]
      exact Function.update_of_ne hne _ _

theorem assigned_null (turns : ℕ) (h : element i = none) :
    assigned element (turns + 1) i = [none] := by
  simp [assigned, leading, h]

theorem assigned_text (turns : ℕ) {text : CString} (h : element i = some text) :
    assigned element (turns + 1) i = some text :: assigned element turns (i + 1) := by
  simp [assigned, leading, h]

theorem elementLoop_entry (element : ℕ → Option CString) (turns i : ℕ) (obj : Entries) (rv : ℤ)
    (k : ℕ) : (elementLoop element turns i obj rv).value.1 (i + k) =
      (assigned element turns i)[k]?.or (obj (i + k)) := by
  induction turns generalizing i obj rv k with
  | zero => simp [elementLoop, assigned, leading]
  | succ turns ih =>
    cases helement : element i with
    | none =>
      rw [elementLoop_null _ _ _ helement, assigned_null _ helement]
      cases k with
      | zero => simp
      | succ k =>
        have hne : (i : ℤ) + (k + 1 : ℕ) ≠ i := by omega
        rw [List.getElem?_cons_succ, List.getElem?_nil, Option.none_or]
        exact Function.update_of_ne hne _ _
    | some text =>
      rw [elementLoop_text _ _ _ helement, assigned_text _ helement]
      cases k with
      | zero =>
        rw [elementLoop_below _ _ _ _ _ (by omega)]
        simp
      | succ k =>
        have hnext : (i : ℤ) + (k + 1 : ℕ) = (i + 1 : ℕ) + k := by omega
        have hne : ((i + 1 : ℕ) : ℤ) + k ≠ i := by omega
        rw [hnext, ih, Function.update_of_ne hne, List.getElem?_cons_succ]

theorem leading_length_le (element : ℕ → Option CString) (turns i : ℕ) :
    (leading element turns i).length ≤ turns := by
  induction turns generalizing i with
  | zero => exact Nat.le_refl 0
  | succ turns ih =>
    rw [leading]
    split
    · exact Nat.succ_le_succ (ih (i + 1))
    · exact Nat.zero_le _

theorem assigned_isSome {k : ℕ} (hk : k < (leading element turns i).length) :
    (assigned element turns i)[k]?.isSome := by
  have hlt : k < (assigned element turns i).length := by
    rw [assigned, List.length_append, List.length_map]
    omega
  rw [List.getElem?_eq_getElem hlt]
  rfl

theorem assigned_last {front : List CString} {start : CString}
    (h : leading element turns i = front ++ [start]) :
    (assigned element turns i)[front.length]? = some (some start) := by
  rw [assigned, h, List.map_append, List.append_assoc]
  simp

theorem freeLoop_within (turns i : ℕ) (obj : Entries) :
    Within (fun j : ℤ ↦ i ≤ j ∧ j < i + turns) (freeLoop turns i obj) := by
  induction turns generalizing i obj with
  | zero => exact within_pure _
  | succ turns ih =>
    have hi : (i : ℤ) ≤ i ∧ (i : ℤ) < i + (turns + 1 : ℕ) := by omega
    refine within_bind.mpr ⟨within_read.mpr hi, within_bind.mpr ⟨within_write.mpr hi, ?_⟩⟩
    refine (ih (i + 1) _).mono ?_
    intro j hj
    omega

end Loop

section Break

variable {obj : Entries} {rv : ℤ} {start rest : CString}

theorem breakElement_whole (obj : Entries) (rv : ℤ) (h : (cutAt '/' start).2 = none) :
    breakElement obj rv start = pure (obj, rv) := by
  rw [breakElement, h]

/-- One slash: its element is cut there, and the name goes into the entry behind. -/
theorem breakElement_once (obj : Entries) (rv : ℤ) (h : (cutAt '/' start).2 = some rest)
    (hrest : (cutAt '/' rest).2 = none) : (breakElement obj rv start).value.2 = rv + 1 ∧
      ∀ k, (breakElement obj rv start).value.1 k = if k = rv + 1 then some (some rest)
        else if k = rv then some (strdupptr (cutAt '/' start).1) else obj k := by
  have hbroken : (breakElement obj rv start).value =
      (Function.update (Function.update (Function.update obj rv (some none)) rv
        (some (strdupptr (cutAt '/' start).1))) (rv + 1) (some (some rest)), rv + 1) := by
    simp [breakElement, h, hrest]
  rw [hbroken]
  refine ⟨rfl, fun k ↦ ?_⟩
  dsimp only
  rw [Function.update_idem, Function.update_apply, Function.update_apply]

theorem breakElement_rv_of_more (obj : Entries) (rv : ℤ) (h : (cutAt '/' start).2 = some rest)
    (hrest : (cutAt '/' rest).2 ≠ none) : (breakElement obj rv start).value.2 = -1 := by
  simp [breakElement, h, hrest]

theorem breakElement_within (obj : Entries) (start : CString) (hrv : 0 ≤ rv ∧ rv ≤ 3) :
    Within (fun i ↦ 0 ≤ i ∧ i ≤ 4) (breakElement obj rv start) := by
  have hlast : 0 ≤ rv ∧ rv ≤ 4 := by omega
  have hnext : 0 ≤ rv + 1 ∧ rv + 1 ≤ 4 := by omega
  rw [breakElement]
  split
  · exact within_pure _
  · split
    · simp only [within_bind, within_read, within_write, within_pure]
      exact ⟨hlast, hlast, hlast, hnext, trivial⟩
    · refine within_bind.mpr ⟨(freeLoop_within _ 0 obj).mono ?_, within_pure _⟩
      intro j hj
      omega

end Break

section Parse

variable {element : ℕ → Option CString} {front : List CString} {start rest text a b : CString}

/-- The array and the last index behind the loop. -/
def loopEnd (element : ℕ → Option CString) : Entries × ℤ :=
  (elementLoop element 4 0 unassigned (-1)).value

theorem loopEnd_entry (element : ℕ → Option CString) (k : ℕ) :
    (loopEnd element).1 k = (assigned element 4 0)[k]? := by
  have hentry := elementLoop_entry element 4 0 unassigned (-1) k
  rw [unassigned, Option.or_none, Nat.cast_zero, Int.zero_add] at hentry
  exact hentry

theorem loopEnd_rv (h : leading element 4 0 = front ++ [start]) :
    (loopEnd element).2 = front.length := by
  have hrv := elementLoop_rv element 4 0 unassigned (-1)
  rw [h, if_neg (by simp), List.length_append, List.length_singleton] at hrv
  rw [loopEnd, hrv]
  omega

theorem front_length_le (h : leading element 4 0 = front ++ [start]) : front.length ≤ 3 := by
  have hle := leading_length_le element 4 0
  rw [h, List.length_append, List.length_singleton] at hle
  omega

theorem loopEnd_start (h : leading element 4 0 = front ++ [start]) :
    (loopEnd element).1 front.length = some (some start) := by
  rw [loopEnd_entry, assigned_last h]

theorem breakLast_eq {obj : Entries} {rv : ℤ} (h : obj rv = some (some start)) :
    (breakLast obj rv).value =
      ((breakElement obj rv start).value.1, some (breakElement obj rv start).value.2) := by
  rw [breakLast, value_bind, value_read, h]
  rfl

theorem parseDestArray_value (h : leading element 4 0 = front ++ [start]) :
    (parseDestArray element).value =
      ((breakElement (loopEnd element).1 front.length start).value.1,
        some (breakElement (loopEnd element).1 front.length start).value.2) := by
  have hlast := breakLast_eq (loopEnd_start h)
  rw [← loopEnd_rv h] at hlast ⊢
  exact hlast

theorem breakLast_within {obj : Entries} {rv : ℤ} (h : obj rv = some (some start))
    (hrv : 0 ≤ rv ∧ rv ≤ 3) : Within (fun i ↦ 0 ≤ i ∧ i ≤ 4) (breakLast obj rv) := by
  rw [breakLast, within_bind, within_read, value_read, h]
  refine ⟨by omega, within_bind.mpr ⟨breakElement_within obj start hrv, within_pure _⟩⟩

theorem parseDestArray_within (h : leading element 4 0 = front ++ [start]) :
    Within (fun i ↦ 0 ≤ i ∧ i ≤ 4) (parseDestArray element) := by
  have hle := front_length_le h
  have hstart := loopEnd_start h
  rw [← loopEnd_rv h] at hstart
  refine within_bind.mpr ⟨(elementLoop_within element 4 0 unassigned (-1)).mono ?_, ?_⟩
  · intro j hj
    omega
  · apply breakLast_within hstart
    rw [loopEnd_rv h]
    omega

/-- Without a scheme the index is still -1 when the last element is read. -/
theorem parseDestArray_not_within (h : element 0 = none) :
    ¬ Within (fun i ↦ 0 ≤ i ∧ i ≤ 4) (parseDestArray element) := by
  intro hwithin
  have hread := (within_bind.mp (within_bind.mp hwithin).2).1
  rw [elementLoop_null _ _ _ h, within_read] at hread
  omega

theorem exists_leading (h : (element 0).isSome) :
    ∃ front start, leading element 4 0 = front ++ [start] := by
  have hne : leading element 4 0 ≠ [] := by
    obtain ⟨scheme, hscheme⟩ := Option.isSome_iff_exists.mp h
    rw [leading, hscheme]
    exact List.cons_ne_nil _ _
  exact ⟨_, _, (List.dropLast_append_getLast hne).symm⟩

theorem leading_of_application (h : Application element text) :
    ∃ front, front.length = 3 ∧ leading element 4 0 = front ++ [text] := by
  obtain ⟨hfront, hlast⟩ := h
  obtain ⟨scheme, hscheme⟩ := Option.isSome_iff_exists.mp (hfront 0 (by decide))
  obtain ⟨id, hid⟩ := Option.isSome_iff_exists.mp (hfront 1 (by decide))
  obtain ⟨service, hservice⟩ := Option.isSome_iff_exists.mp (hfront 2 (by decide))
  refine ⟨[scheme, id, service], rfl, ?_⟩
  simp [leading, hscheme, hid, hservice, hlast]

theorem parseDestArray_level (h : leading element 4 0 = front ++ [start]) :
    (parseDestArray element).value.2 = some (-1) ∨ ∃ objlevel : ℕ, objlevel ≤ 4 ∧
      (parseDestArray element).value.2 = some ↑objlevel ∧
      ∀ i : ℕ, i ≤ objlevel → ((parseDestArray element).value.1 i).isSome := by
  have hle := front_length_le h
  have hfront : ∀ i : ℕ, i ≤ front.length → ((loopEnd element).1 i).isSome := by
    intro i hi
    rw [loopEnd_entry]
    apply assigned_isSome
    rw [h, List.length_append, List.length_singleton]
    omega
  rw [parseDestArray_value h]
  obtain ⟨_, hwhole⟩ | ⟨tag, rest, _, rfl, hcut⟩ := cutAt_cases '/' start
  · rw [breakElement_whole _ _ hwhole]
    exact .inr ⟨front.length, by omega, rfl, hfront⟩
  obtain hrest | ⟨more, hmore⟩ := Option.eq_none_or_eq_some (cutAt '/' rest).2
  · obtain ⟨hlevel, hentry⟩ := breakElement_once (loopEnd element).1 front.length
      (congrArg Prod.snd hcut) hrest
    rw [hlevel]
    refine .inr ⟨front.length + 1, by omega, rfl, ?_⟩
    intro i hi
    dsimp only
    rw [hentry]
    split
    · rfl
    split
    · rfl
    · exact hfront i (by omega)
  · have hne : (cutAt '/' rest).2 ≠ none := by
      rw [hmore]
      exact Option.some_ne_none more
    exact .inl (congrArg some (breakElement_rv_of_more _ _ (congrArg Prod.snd hcut) hne))

theorem parseDestArray_broken (ha : '/' ∉ a) (hb : '/' ∉ b)
    (h : Application element (a ++ '/' :: b)) :
    (parseDestArray element).value.2 = some 4 ∧
      (parseDestArray element).value.1 3 = some (strdupptr a) ∧
      (parseDestArray element).value.1 4 = some (some b) := by
  obtain ⟨front, hlength, hleading⟩ := leading_of_application h
  have hrest : (cutAt '/' b).2 = none := congrArg Prod.snd (cutAt_of_not_mem hb)
  have hcut : cutAt '/' (a ++ '/' :: b) = (a, some b) := cutAt_append ha
  obtain ⟨hlevel, hentry⟩ := breakElement_once (loopEnd element).1 front.length
    (congrArg Prod.snd hcut) hrest
  rw [parseDestArray_value hleading, hlevel]
  dsimp only
  rw [hentry, hentry, hcut, hlength]
  exact ⟨rfl, rfl, rfl⟩

theorem parseDestArray_unsupported (h : Application element text) (hcount : 2 ≤ text.count '/') :
    (parseDestArray element).value.2 = some (-1) := by
  obtain ⟨front, _, hleading⟩ := leading_of_application h
  rw [parseDestArray_value hleading]
  obtain ⟨hnone, _⟩ | ⟨tag, rest, htag, rfl, hcut⟩ := cutAt_cases '/' text
  · rw [List.count_eq_zero_of_not_mem hnone] at hcount
    omega
  have hrest : (cutAt '/' rest).2 ≠ none := by
    obtain ⟨hno, _⟩ | ⟨_, _, _, _, hmore⟩ := cutAt_cases '/' rest
    · rw [List.count_append, List.count_cons_self, List.count_eq_zero_of_not_mem htag,
        List.count_eq_zero_of_not_mem hno] at hcount
      omega
    · rw [hmore]
      exact Option.some_ne_none _
  exact congrArg some (breakElement_rv_of_more _ _ (congrArg Prod.snd hcut) hrest)

end Parse

section Refines

variable {lib : Lib} {element : ℕ → Option CString} {front : List CString} {start a rest : CString}

/-- The array and the level that stand for what the handlers are given. -/
def Stands (out : Entries × Option ℤ) : Dest → Prop
  | .undefined => out.2 = none
  | .unsupported => out.2 = some (-1)
  | .elements obj objlevel => out.2 = some ↑objlevel ∧ ∀ k : ℕ, out.1 k = obj[k]?

theorem leading_eq_takeWhile (element : ℕ → Option CString) (turns i : ℕ) :
    leading element turns i =
      (((List.range' i turns).map element).takeWhile Option.isSome).reduceOption := by
  induction turns generalizing i with
  | zero => rfl
  | succ turns ih =>
    rw [List.range'_succ, List.map_cons, leading]
    cases helement : element i with
    | none => rfl
    | some text =>
      rw [List.takeWhile_cons_of_pos rfl, ih]
      rfl

theorem destElements_eq_leading (lib : Lib) (dest : CString) :
    destElements lib dest = leading (fun i ↦ lib.msgElement i dest) 4 0 := by
  rw [leading_eq_takeWhile, destElements, List.range_eq_range']

theorem getElem?_append_pair (front : List (Option CString)) (x y : Option CString) (k : ℕ) :
    (front ++ [x, y])[k]? = if k = front.length + 1 then some y
      else if k = front.length then some x else front[k]? := by
  by_cases hlt : k < front.length
  · rw [List.getElem?_append_left hlt, if_neg (by omega), if_neg (by omega)]
  obtain ⟨j, rfl⟩ := Nat.exists_eq_add_of_le (Nat.le_of_not_lt hlt)
  rw [List.getElem?_append_right (Nat.le_add_right _ _), Nat.add_sub_cancel_left]
  match j with
  | 0 => simp
  | 1 => simp
  | j + 2 =>
    have hgone : front[front.length + (j + 2)]? = none := List.getElem?_eq_none (by omega)
    rw [if_neg (by omega), if_neg (by omega), hgone]
    rfl

theorem loopEnd_entry_of_ne (h : leading element 4 0 = front ++ [start]) {k : ℕ}
    (hself : k ≠ front.length) (hnext : k ≠ front.length + 1) :
    (loopEnd element).1 k = (front.map some)[k]? := by
  have hfront : (front.map some).length = front.length := List.length_map some
  rw [loopEnd_entry, assigned, h, List.map_append, List.append_assoc]
  by_cases hlt : k < front.length
  · rw [List.getElem?_append_left (by omega)]
  have hassigned : ([start].map some ++
      if (front ++ [start]).length < 4 then [none] else []).length ≤ 2 := by
    split
    · exact Nat.le_refl 2
    · exact Nat.le_succ 1
  rw [List.getElem?_append_right (by omega), List.getElem?_eq_none (by omega),
    List.getElem?_eq_none (by omega)]

/-- The level and the elements that the handlers are given are those the loop leaves in the
array. -/
theorem parseDestElementsToString_stands (lib : Lib) (dest : CString) :
    Stands (parseDestArray fun i ↦ lib.msgElement i dest).value
      (parseDestElementsToString lib dest) := by
  unfold parseDestElementsToString
  dsimp only
  rw [destElements_eq_leading]
  cases hscheme : lib.msgElement 0 dest with
  | none =>
    have hnil : leading (fun i ↦ lib.msgElement i dest) 4 0 = [] := by
      rw [leading, hscheme]
    rw [hnil]
    have hrv : (parseDestArray fun i ↦ lib.msgElement i dest).value.2 = none := by
      rw [parseDestArray, value_bind, elementLoop_null _ _ _ hscheme]
      rfl
    exact hrv
  | some scheme =>
    have hsome : (lib.msgElement 0 dest).isSome := by
      rw [hscheme]
      rfl
    obtain ⟨front, start, hleading⟩ :=
      @exists_leading (fun i ↦ lib.msgElement i dest) hsome
    rw [hleading, List.getLast?_concat, List.dropLast_concat, parseDestArray_value hleading]
    dsimp only
    obtain ⟨hno, hwhole⟩ | ⟨tag, rest, htag, rfl, hcut⟩ := cutAt_cases '/' start
    · rw [breakElement_whole _ _ hwhole, List.splitOn_eq_singleton hno]
      refine ⟨?_, fun k ↦ ?_⟩
      · rw [List.length_append, List.length_singleton, Nat.add_sub_cancel]
        rfl
      · dsimp only
        rw [value_pure, loopEnd_entry, assigned, hleading, List.map_append, List.append_assoc]
        rfl
    rw [List.splitOn_append_cons_self_of_not_mem htag]
    obtain ⟨hno, hrest⟩ | ⟨more, rest', hmore, rfl, hcut'⟩ := cutAt_cases '/' rest
    · obtain ⟨hlevel, hentry⟩ := breakElement_once (loopEnd fun i ↦ lib.msgElement i dest).1
        front.length (congrArg Prod.snd hcut) hrest
      rw [hlevel, List.splitOn_eq_singleton hno]
      refine ⟨?_, fun k ↦ ?_⟩
      · rw [List.length_append, List.length_singleton]
        rfl
      · dsimp only
        rw [hentry, hcut, getElem?_append_pair, List.length_map]
        by_cases hnext : k = front.length + 1
        · rw [if_pos hnext, if_pos (by omega)]
        rw [if_neg hnext, if_neg (by omega)]
        by_cases hself : k = front.length
        · rw [if_pos hself, if_pos (by omega)]
          rfl
        · rw [if_neg hself, if_neg (by omega)]
          exact loopEnd_entry_of_ne hleading hself hnext
    · have hne : (cutAt '/' (more ++ '/' :: rest')).2 ≠ none := by
        rw [hcut']
        exact Option.some_ne_none _
      rw [List.splitOn_append_cons_self_of_not_mem hmore]
      cases hsplit : rest'.splitOn '/' with
      | nil => exact absurd hsplit (List.splitOn_ne_nil _ _)
      | cons x xs =>
        exact congrArg some (breakElement_rv_of_more _ _ (congrArg Prod.snd hcut) hne)

end Refines

/-- The level is right exactly if there is a scheme, and no application that is a slash and
one name. -/
theorem parseDestArray_rightLevel_iff (element : ℕ → Option CString) :
    RightLevel element (parseDestArray element) ↔
      (element 0).isSome ∧ ∀ b, '/' ∉ b → ¬ Application element ('/' :: b) := by
  constructor
  · intro h
    constructor
    · cases helement : element 0 with
      | none => exact absurd h.inBounds (parseDestArray_not_within helement)
      | some scheme => rfl
    · intro b hb happ
      have hempty := (h.broken [] b List.not_mem_nil hb happ).2.1
      rw [(parseDestArray_broken List.not_mem_nil hb happ).2.1] at hempty
      cases hempty
  · intro h
    obtain ⟨hscheme, hname⟩ := h
    obtain ⟨front, start, hleading⟩ := exists_leading hscheme
    refine ⟨parseDestArray_within hleading, parseDestArray_level hleading, ?_, ?_⟩
    · intro a b ha hb happ
      have hne : a ≠ [] := by
        rintro rfl
        exact hname b hb happ
      have hbroken := parseDestArray_broken ha hb happ
      rwa [strdupptr, if_neg hne] at hbroken
    · intro text
      exact parseDestArray_unsupported

def bareCreate : CrudMsg :=
  Downstream.plainCrud (some "123".toList) (some "dns:webpa".toList) (some "parodus".toList)

/-- A CREATE message to "parodus" is put on the CRUD queue, and its dest has no scheme. -/
theorem bareCreate_not_rightLevel :
    Downstream.listenerOnMessage .empty Downstream.alignedLayout Downstream.allAllocated []
      (.crud .create bareCreate) = .ok [.crudQueue ⟨.crud .create, bareCreate⟩] ∧
    ¬ RightLevel (fun i ↦ (bareCreate.dest.bind fun dest ↦ compactLib.msgElement i dest))
      (parseDestArray fun i ↦ bareCreate.dest.bind fun dest ↦ compactLib.msgElement i dest) := by
  constructor
  · simp only [bareCreate, String.reduceToList]
    rfl
  · intro h
    have hscheme : (bareCreate.dest.bind fun dest ↦ compactLib.msgElement 0 dest) = none := by
      simp only [bareCreate, String.reduceToList]
      decide
    exact parseDestArray_not_within hscheme h.inBounds

end Parodus.Crud
