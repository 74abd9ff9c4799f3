import Mathlib.Data.Rat.Lemmas
import Parodus.Foundation.Json

namespace Parodus.Foundation.Json

def escape (s : List Char) : List Char :=
  s.flatMap fun c ↦ if c = '"' ∨ c = '\\' then ['\\', c] else [c]

def printStr (s rest : List Char) : List Char := '"' :: (escape s ++ '"' :: rest)

/-- Whole numbers in decimal; other fractions, which JSON writes with a decimal
point, as numerator and denominator. -/
def printNum (q : ℚ) (rest : List Char) : List Char :=
  (if q.num < 0 then ['-'] else []) ++ (Nat.toDigits 10 q.num.natAbs ++
    (if q.den = 1 then rest else '/' :: (Nat.toDigits 10 q.den ++ rest)))

mutual

def printTo : Json → List Char → List Char
  | .null, rest => 'n' :: 'u' :: 'l' :: 'l' :: rest
  | .bool true, rest => 't' :: 'r' :: 'u' :: 'e' :: rest
  | .bool false, rest => 'f' :: 'a' :: 'l' :: 's' :: 'e' :: rest
  | .num q, rest => printNum q rest
  | .str s, rest => printStr s rest
  | .arr [], rest => '[' :: ']' :: rest
  | .arr (x :: xs), rest => '[' :: printTo x (printItems xs rest)
  | .obj [], rest => '{' :: '}' :: rest
  | .obj ((k, x) :: ms), rest => '{' :: printStr k (':' :: printTo x (printMembers ms rest))

def printItems : List Json → List Char → List Char
  | [], rest => ']' :: rest
  | x :: xs, rest => ',' :: printTo x (printItems xs rest)

def printMembers : List (List Char × Json) → List Char → List Char
  | [], rest => '}' :: rest
  | (k, x) :: ms, rest => ',' :: printStr k (':' :: printTo x (printMembers ms rest))

end

def print (t : Json) : List Char := printTo t []

def parseStr : List Char → Option (List Char × List Char)
  | '"' :: cs => some ([], cs)
  | '\\' :: c :: cs => (parseStr cs).map fun r ↦ (c :: r.1, r.2)
  | c :: cs => (parseStr cs).map fun r ↦ (c :: r.1, r.2)
  | [] => none

def parseNat (cs : List Char) : ℕ × List Char :=
  (Nat.ofDigitChars 10 (cs.takeWhile Char.isDigit) 0, cs.dropWhile Char.isDigit)

def parseNum (negative : Bool) (cs : List Char) : Json × List Char :=
  let n := parseNat cs
  let num : ℤ := if negative then -(n.1 : ℤ) else n.1
  match n.2 with
  | '/' :: rest => let d := parseNat rest; (.num (mkRat num d.1), d.2)
  | rest => (.num num, rest)

mutual

/-- Reads one value off the text; the first argument bounds the nesting. -/
def parseFrom : ℕ → List Char → Option (Json × List Char)
  | 0, _ => none
  | _ + 1, 'n' :: 'u' :: 'l' :: 'l' :: cs => some (.null, cs)
  | _ + 1, 't' :: 'r' :: 'u' :: 'e' :: cs => some (.bool true, cs)
  | _ + 1, 'f' :: 'a' :: 'l' :: 's' :: 'e' :: cs => some (.bool false, cs)
  | _ + 1, '"' :: cs => (parseStr cs).map fun r ↦ (.str r.1, r.2)
  | _ + 1, '[' :: ']' :: cs => some (.arr [], cs)
  | n + 1, '[' :: cs => do
    let x ← parseFrom n cs
    let xs ← parseItems n x.2
    return (.arr (x.1 :: xs.1), xs.2)
  | _ + 1, '{' :: '}' :: cs => some (.obj [], cs)
  | n + 1, '{' :: cs => do
    let m ← parseMember n cs
    let ms ← parseMembers n m.2
    return (.obj (m.1 :: ms.1), ms.2)
  | _ + 1, '-' :: cs => some (parseNum true cs)
  | _ + 1, c :: cs => if c.isDigit then some (parseNum false (c :: cs)) else none
  | _ + 1, [] => none

def parseItems : ℕ → List Char → Option (List Json × List Char)
  | _ + 1, ']' :: cs => some ([], cs)
  | n + 1, ',' :: cs => do
    let x ← parseFrom n cs
    let xs ← parseItems n x.2
    return (x.1 :: xs.1, xs.2)
  | _, _ => none

def parseMember : ℕ → List Char → Option ((List Char × Json) × List Char)
  | n + 1, '"' :: cs => do
    let k ← parseStr cs
    match k.2 with
    | ':' :: cs =>
      let x ← parseFrom n cs
      return ((k.1, x.1), x.2)
    | _ => none
  | _, _ => none

def parseMembers : ℕ → List Char → Option (List (List Char × Json) × List Char)
  | _ + 1, '}' :: cs => some ([], cs)
  | n + 1, ',' :: cs => do
    let m ← parseMember n cs
    let ms ← parseMembers n m.2
    return (m.1 :: ms.1, ms.2)
  | _, _ => none

end

def parse (text : List Char) : Option Json :=
  match parseFrom text.length text with
  | some (t, []) => some t
  | _ => none

theorem parseStr_escape (s rest : List Char) :
    parseStr (escape s ++ '"' :: rest) = some (s, rest) := by
  induction s with
  | nil => rfl
  | cons c s ih =>
    have hcons : escape (c :: s) =
        (if c = '"' ∨ c = '\\' then ['\\', c] else [c]) ++ escape s := rfl
    rw [hcons]
    split
    · simp [parseStr, ih]
    · next hc =>
      have hq : c ≠ '"' := fun h ↦ hc (.inl h)
      have hb : c ≠ '\\' := fun h ↦ hc (.inr h)
      rw [List.singleton_append, List.cons_append, parseStr, ih]
      · rfl
      · exact hq
      · exact fun _ _ h ↦ absurd h hb

/-- The text that may stand behind a number: neither a digit nor a slash. -/
def Ends (rest : List Char) : Prop := ∀ c cs, rest = c :: cs → c.isDigit = false ∧ c ≠ '/'

theorem parseNat_toDigits (n : ℕ) {rest : List Char}
    (h : ∀ c cs, rest = c :: cs → c.isDigit = false) :
    parseNat (Nat.toDigits 10 n ++ rest) = (n, rest) := by
  have hdigits : ∀ c ∈ Nat.toDigits 10 n, c.isDigit = true := fun c hc ↦
    Nat.isDigit_of_mem_toDigits (by decide) (by decide) hc
  have hrest : rest.takeWhile Char.isDigit = [] ∧ rest.dropWhile Char.isDigit = rest := by
    cases rest with
    | nil => simp
    | cons c cs => simp [h c cs rfl]
  rw [parseNat, List.takeWhile_append_of_pos hdigits, List.dropWhile_append_of_pos hdigits,
    hrest.1, hrest.2, List.append_nil, Nat.ofDigitChars_ten_toDigits]

theorem parseNum_printNum (q : ℚ) {rest : List Char} (h : Ends rest) :
    parseNum (decide (q.num < 0)) (Nat.toDigits 10 q.num.natAbs ++
      (if q.den = 1 then rest else '/' :: (Nat.toDigits 10 q.den ++ rest))) = (.num q, rest) := by
  have hnum : (if decide (q.num < 0) = true then -(q.num.natAbs : ℤ) else q.num.natAbs) =
      q.num := by
    simp only [decide_eq_true_eq]
    split <;> omega
  have hrest : ∀ c cs, rest = c :: cs → c.isDigit = false := fun c cs hc ↦ (h c cs hc).1
  by_cases hden : q.den = 1
  · have hq : (q.num : ℚ) = q := Rat.coe_int_num_of_den_eq_one hden
    simp only [parseNum, hden, if_true, parseNat_toDigits _ hrest, hnum, hq]
    cases rest with
    | nil => rfl
    | cons c cs =>
      have hc := (h c cs rfl).2
      split
      · simp_all
      · rfl
  · have hslash : ∀ c cs, '/' :: (Nat.toDigits 10 q.den ++ rest) = c :: cs →
        c.isDigit = false := by
      intro c cs hcons
      cases hcons
      decide
    simp only [parseNum, hden, if_false, parseNat_toDigits _ hslash, parseNat_toDigits _ hrest,
      hnum, Rat.mkRat_self]

theorem printNum_cases (q : ℚ) (rest : List Char) :
    (∃ cs, printNum q rest = '-' :: cs ∧ q.num < 0 ∧
      cs = Nat.toDigits 10 q.num.natAbs ++
        (if q.den = 1 then rest else '/' :: (Nat.toDigits 10 q.den ++ rest))) ∨
    (∃ c cs, printNum q rest = c :: cs ∧ c.isDigit = true ∧ ¬ q.num < 0 ∧
      c :: cs = Nat.toDigits 10 q.num.natAbs ++
        (if q.den = 1 then rest else '/' :: (Nat.toDigits 10 q.den ++ rest))) := by
  by_cases hq : q.num < 0
  · exact .inl ⟨_, by rw [printNum, if_pos hq]; rfl, hq, rfl⟩
  · have hdigits : Nat.toDigits 10 q.num.natAbs ≠ [] := Nat.toDigits_ne_nil
    obtain ⟨c, cs, hc⟩ := List.exists_cons_of_ne_nil hdigits
    have hdigit : c.isDigit = true :=
      Nat.isDigit_of_mem_toDigits (by decide) (by decide) (hc ▸ List.mem_cons_self)
    exact .inr ⟨c, _, by rw [printNum, if_neg hq, hc]; rfl, hdigit, hq, by rw [hc]; rfl⟩

theorem parseFrom_digit (n : ℕ) {c : Char} (cs : List Char) (h : c.isDigit = true) :
    parseFrom (n + 1) (c :: cs) = some (parseNum false (c :: cs)) := by
  unfold parseFrom
  split <;> simp_all [Char.isDigit]

theorem length_printStr (s rest : List Char) :
    (printStr s rest).length = (escape s).length + rest.length + 2 := by
  simp only [printStr, List.length_cons, List.length_append]
  omega

theorem length_printItems {items : List Json}
    (h : ∀ x ∈ items, ∀ rest, rest.length < (printTo x rest).length) (rest : List Char) :
    rest.length < (printItems items rest).length := by
  induction items with
  | nil => simp [printItems]
  | cons x xs ih =>
    have hx := h x List.mem_cons_self (printItems xs rest)
    have hxs := ih fun y hy ↦ h y (List.mem_cons_of_mem x hy)
    simp only [printItems, List.length_cons]
    omega

theorem length_printMembers {members : List (List Char × Json)}
    (h : ∀ m ∈ members, ∀ rest, rest.length < (printTo m.2 rest).length) (rest : List Char) :
    rest.length < (printMembers members rest).length := by
  induction members with
  | nil => simp [printMembers]
  | cons m ms ih =>
    have hm := h m List.mem_cons_self (printMembers ms rest)
    have hms := ih fun y hy ↦ h y (List.mem_cons_of_mem m hy)
    simp only [printMembers, List.length_cons, length_printStr]
    omega

theorem length_printTo (t : Json) : ∀ rest, rest.length < (printTo t rest).length := by
  induction t using ofItems with
  | null =>
    intro rest
    simp only [printTo, List.length_cons]
    omega
  | bool b =>
    intro rest
    cases b <;> simp only [printTo, List.length_cons] <;> omega
  | num q =>
    intro rest
    have hpos := Nat.length_toDigits_pos (b := 10) (n := q.num.natAbs)
    simp only [printTo, printNum, List.length_append]
    split <;> split <;> simp <;> omega
  | str s =>
    intro rest
    simp only [printTo, length_printStr]
    omega
  | arr items h =>
    intro rest
    cases items with
    | nil =>
      simp only [printTo, List.length_cons]
      omega
    | cons x xs =>
      have hx := h x List.mem_cons_self (printItems xs rest)
      have hxs := length_printItems (fun y hy ↦ h y (List.mem_cons_of_mem x hy)) rest
      simp only [printTo, List.length_cons]
      omega
  | obj members h =>
    intro rest
    cases members with
    | nil =>
      simp only [printTo, List.length_cons]
      omega
    | cons m ms =>
      have hm := h m List.mem_cons_self (printMembers ms rest)
      have hms := length_printMembers (fun y hy ↦ h y (List.mem_cons_of_mem m hy)) rest
      simp only [printTo, List.length_cons, length_printStr]
      omega

def ReadsBack (t : Json) : Prop :=
  ∀ n rest, Ends rest → (printTo t rest).length ≤ n → parseFrom n (printTo t rest) = some (t, rest)

theorem ends_cons {c : Char} (hdigit : c.isDigit = false) (hslash : c ≠ '/') (cs : List Char) :
    Ends (c :: cs) := by
  intro _ _ hcons
  cases hcons
  exact ⟨hdigit, hslash⟩

theorem ends_printItems (items : List Json) (rest : List Char) : Ends (printItems items rest) := by
  cases items with
  | nil => exact ends_cons (by decide) (by decide) _
  | cons x xs => exact ends_cons (by decide) (by decide) _

theorem ends_printMembers (members : List (List Char × Json)) (rest : List Char) :
    Ends (printMembers members rest) := by
  cases members with
  | nil => exact ends_cons (by decide) (by decide) _
  | cons m ms => exact ends_cons (by decide) (by decide) _

theorem parseItems_printItems {items : List Json} (h : ∀ x ∈ items, ReadsBack x) (n : ℕ)
    (rest : List Char) (hn : (printItems items rest).length ≤ n) :
    parseItems n (printItems items rest) = some (items, rest) := by
  induction items generalizing n with
  | nil =>
    obtain ⟨n, rfl⟩ := Nat.exists_eq_succ_of_ne_zero (Nat.ne_zero_of_lt hn)
    rfl
  | cons x xs ih =>
    simp only [printItems, List.length_cons] at hn ⊢
    obtain ⟨n, rfl⟩ := Nat.exists_eq_succ_of_ne_zero (Nat.ne_zero_of_lt hn)
    have hlt := length_printTo x (printItems xs rest)
    have hx := h x List.mem_cons_self n _ (ends_printItems xs rest) (by omega)
    have hxs := ih (fun y hy ↦ h y (List.mem_cons_of_mem x hy)) n (by omega)
    simp [parseItems, hx, hxs]

theorem parseMember_printStr {k : List Char} {x : Json} (h : ReadsBack x) (n : ℕ)
    (rest : List Char) (hrest : Ends rest)
    (hn : (printStr k (':' :: printTo x rest)).length ≤ n) :
    parseMember n (printStr k (':' :: printTo x rest)) = some ((k, x), rest) := by
  rw [length_printStr, List.length_cons] at hn
  obtain ⟨n, rfl⟩ := Nat.exists_eq_succ_of_ne_zero (Nat.ne_zero_of_lt hn)
  have hx := h n rest hrest (by omega)
  simp [printStr, parseMember, parseStr_escape, hx]

theorem parseMembers_printMembers {members : List (List Char × Json)}
    (h : ∀ m ∈ members, ReadsBack m.2) (n : ℕ) (rest : List Char)
    (hn : (printMembers members rest).length ≤ n) :
    parseMembers n (printMembers members rest) = some (members, rest) := by
  induction members generalizing n with
  | nil =>
    obtain ⟨n, rfl⟩ := Nat.exists_eq_succ_of_ne_zero (Nat.ne_zero_of_lt hn)
    rfl
  | cons m ms ih =>
    simp only [printMembers, List.length_cons] at hn ⊢
    obtain ⟨n, rfl⟩ := Nat.exists_eq_succ_of_ne_zero (Nat.ne_zero_of_lt hn)
    have hlt := length_printTo m.2 (printMembers ms rest)
    have hm := parseMember_printStr (k := m.1) (h m List.mem_cons_self) n _
      (ends_printMembers ms rest) (by omega)
    have hlen := length_printStr m.1 (':' :: printTo m.2 (printMembers ms rest))
    have hms := ih (fun y hy ↦ h y (List.mem_cons_of_mem m hy)) n (by
      rw [List.length_cons] at hlen
      omega)
    simp [parseMembers, hm, hms]

theorem printTo_ne_bracket (t : Json) (rest cs : List Char) : printTo t rest ≠ ']' :: cs := by
  cases t with
  | null => simp [printTo]
  | bool b => cases b <;> simp [printTo]
  | num q =>
    rcases printNum_cases q rest with ⟨ds, h, _⟩ | ⟨c, ds, h, hc, _⟩
    · simp [printTo, h]
    · rw [printTo, h]
      intro hcons
      cases hcons
      exact absurd hc (by decide)
  | str s => simp [printTo, printStr]
  | arr items => cases items <;> simp [printTo]
  | obj members => cases members <;> simp [printTo]

theorem parseFrom_printTo (t : Json) : ReadsBack t := by
  induction t using ofItems with
  | null =>
    intro n rest _ hn
    obtain ⟨n, rfl⟩ := Nat.exists_eq_succ_of_ne_zero (Nat.ne_zero_of_lt hn)
    simp [printTo, parseFrom]
  | bool b =>
    intro n rest _ hn
    cases b <;> obtain ⟨n, rfl⟩ := Nat.exists_eq_succ_of_ne_zero (Nat.ne_zero_of_lt hn) <;>
      simp [printTo, parseFrom]
  | num q =>
    intro n rest hrest hn
    have hq := parseNum_printNum q hrest
    rcases printNum_cases q rest with ⟨cs, h, hneg, hcs⟩ | ⟨c, cs, h, hc, hneg, hcs⟩
    · rw [printTo, h] at hn ⊢
      obtain ⟨n, rfl⟩ := Nat.exists_eq_succ_of_ne_zero (Nat.ne_zero_of_lt hn)
      rw [← hcs, decide_eq_true hneg] at hq
      simp [parseFrom, hq]
    · rw [printTo, h] at hn ⊢
      obtain ⟨n, rfl⟩ := Nat.exists_eq_succ_of_ne_zero (Nat.ne_zero_of_lt hn)
      rw [← hcs, decide_eq_false hneg] at hq
      rw [parseFrom_digit n cs hc, hq]
  | str s =>
    intro n rest _ hn
    rw [printTo, length_printStr] at hn
    obtain ⟨n, rfl⟩ := Nat.exists_eq_succ_of_ne_zero (Nat.ne_zero_of_lt hn)
    simp [printTo, printStr, parseFrom, parseStr_escape]
  | arr items h =>
    intro n rest hrest hn
    cases items with
    | nil =>
      obtain ⟨n, rfl⟩ := Nat.exists_eq_succ_of_ne_zero (Nat.ne_zero_of_lt hn)
      simp [printTo, parseFrom]
    | cons x xs =>
      simp only [printTo, List.length_cons] at hn ⊢
      obtain ⟨n, rfl⟩ := Nat.exists_eq_succ_of_ne_zero (Nat.ne_zero_of_lt hn)
      have hlt := length_printTo x (printItems xs rest)
      have hx := h x List.mem_cons_self n _ (ends_printItems xs rest) (by omega)
      have hxs := parseItems_printItems (fun y hy ↦ h y (List.mem_cons_of_mem x hy)) n rest
        (by omega)
      rw [parseFrom]
      · simp [hx, hxs]
      · exact fun cs hcs ↦ printTo_ne_bracket x _ cs hcs
  | obj members h =>
    intro n rest hrest hn
    cases members with
    | nil =>
      obtain ⟨n, rfl⟩ := Nat.exists_eq_succ_of_ne_zero (Nat.ne_zero_of_lt hn)
      simp [printTo, parseFrom]
    | cons m ms =>
      simp only [printTo, List.length_cons] at hn ⊢
      obtain ⟨n, rfl⟩ := Nat.exists_eq_succ_of_ne_zero (Nat.ne_zero_of_lt hn)
      have hlt := length_printTo m.2 (printMembers ms rest)
      have hlen := length_printStr m.1 (':' :: printTo m.2 (printMembers ms rest))
      rw [List.length_cons] at hlen
      have hm := parseMember_printStr (k := m.1) (h m List.mem_cons_self) n _
        (ends_printMembers ms rest) (by omega)
      have hms := parseMembers_printMembers (fun y hy ↦ h y (List.mem_cons_of_mem m hy)) n rest
        (by omega)
      rw [parseFrom]
      · simp [hm, hms]
      · simp [printStr]

theorem parse_print (t : Json) : parse (print t) = some t := by
  have h : parseFrom (print t).length (print t) = some (t, []) :=
    parseFrom_printTo t _ [] (by rintro _ _ ⟨⟩) le_rfl
  rw [parse, h]

example : parse (print (.obj [("a".toList, .num (-3)), ("b".toList, .arr [.str "x\"".toList])])) =
    some (.obj [("a".toList, .num (-3)), ("b".toList, .arr [.str "x\"".toList])]) := by decide

end Parodus.Foundation.Json
