import Mathlib.Data.Nat.Bitwise
import Parodus.Config.WebpaUrl

namespace Parodus.Config

/-- The algorithms of the JWT library: its table of names, and the values of its
enumeration that the code names. -/
structure JwtAlgs where
  strToEnum : CString → ℤ
  algNone : ℤ
  algRs256 : ℕ
  algRs384 : ℕ
  algRs512 : ℕ
  numAlgorithms : ℕ

/-- The table knows exact names only. -/
structure JwtAlgs.Exact (algs : JwtAlgs) : Prop where
  rs256 : ∀ s, algs.strToEnum s = algs.algRs256 ↔ s = "RS256".toList
  rs384 : ∀ s, algs.strToEnum s = algs.algRs384 ↔ s = "RS384".toList
  rs512 : ∀ s, algs.strToEnum s = algs.algRs512 ↔ s = "RS512".toList

variable (algs : JwtAlgs)

def rsaAlgorithms : ℕ :=
  1 <<< algs.algRs256 ||| 1 <<< algs.algRs384 ||| 1 <<< algs.algRs512

/-- The token, cut off where it does not fit, and the text behind the delimiter. -/
def getTok (src : CString) (delim : Char) (resultsize : ℕ) : CString × Option CString :=
  let cut := cutAt delim src
  (cut.1.take (resultsize - 1), cut.2)

/-- The bit of a token that names an allowed algorithm. -/
def tokMask (tok : CString) : Option ℕ :=
  let algVal := algs.strToEnum tok
  if algVal < 0 ∨ algVal ≥ algs.numAlgorithms then none
  else if algVal = algs.algNone then none
  else
    let maskVal := 1 <<< algVal.toNat
    if maskVal &&& rsaAlgorithms algs = 0 then none else some maskVal

/-- The loop of `get_algo_mask`, for at most `fuel` tokens. -/
def algoMaskLoop : ℕ → ℕ → Option CString → ℕ
  | _, mask, none => mask
  | 0, mask, some _ => mask
  | fuel + 1, mask, some algoStr =>
    let tok := getTok algoStr ':' 16
    match tokMask algs tok.1 with
    | none => unsignedMinusOne
    | some maskVal => algoMaskLoop fuel (mask ||| maskVal) tok.2

/-- A string has at most one token more than characters. -/
def getAlgoMask (algoStr : CString) : ℕ :=
  algoMaskLoop algs (algoStr.length + 1) 0 (some algoStr)

def rsaNames : List CString := ["RS256".toList, "RS384".toList, "RS512".toList]

variable {algs} {s tok : CString} {c : Char}

theorem cutAt_cons (x : Char) (s : CString) :
    cutAt c (x :: s) = if x = c then ([], some s) else (x :: (cutAt c s).1, (cutAt c s).2) := by
  by_cases hx : x = c <;> simp [cutAt, hx]

theorem length_cutAt_lt {rest : CString} (h : (cutAt c s).2 = some rest) :
    rest.length < s.length := by
  induction s with
  | nil => cases h
  | cons x s ih =>
    rw [cutAt_cons] at h
    by_cases hx : x = c
    · rw [if_pos hx] at h
      obtain rfl := Option.some.inj h
      exact Nat.lt_succ_self _
    · rw [if_neg hx] at h
      exact Nat.lt_succ_of_lt (ih h)

theorem splitOn_eq_cutAt (c : Char) (s : CString) :
    s.splitOn c = (cutAt c s).1 :: (((cutAt c s).2.map fun rest ↦ rest.splitOn c).getD []) := by
  induction s with
  | nil => rfl
  | cons x s ih =>
    rw [List.splitOn_cons_eq_if_modifyHead, cutAt_cons, ih]
    by_cases hx : x = c
    · subst hx
      simpa using ih.symm
    · simp [hx]

/-- The loop goes through the tokens, each cut off behind its 15th character. -/
theorem algoMaskLoop_eq {fuel : ℕ} (hfuel : s.length < fuel) (mask : ℕ) :
    algoMaskLoop algs fuel mask (some s) =
      (((s.splitOn ':').mapM fun t ↦ tokMask algs (t.take 15)).map fun masks ↦
        masks.foldl (· ||| ·) mask).getD unsignedMinusOne := by
  induction fuel generalizing s mask with
  | zero => omega
  | succ fuel ih =>
    rw [splitOn_eq_cutAt, List.mapM_cons, algoMaskLoop, getTok]
    dsimp only
    cases tokMask algs ((cutAt ':' s).1.take (16 - 1)) with
    | none => rfl
    | some maskVal =>
      cases hrest : (cutAt ':' s).2 with
      | none => cases fuel <;> rfl
      | some rest =>
        have hlength := length_cutAt_lt hrest
        dsimp only
        rw [ih (by omega)]
        simp only [Option.map_some, Option.getD_some, Option.bind_eq_bind, Option.bind_some]
        cases (rest.splitOn ':').mapM fun t ↦ tokMask algs (t.take 15) with
        | none => rfl
        | some masks => rfl

theorem getAlgoMask_eq (algs : JwtAlgs) (s : CString) :
    getAlgoMask algs s = (((s.splitOn ':').mapM fun t ↦ tokMask algs (t.take 15)).map fun masks ↦
      masks.foldl (· ||| ·) 0).getD unsignedMinusOne :=
  algoMaskLoop_eq (Nat.lt_succ_self _) 0

theorem testBit_one_shiftLeft (i j : ℕ) : (1 <<< i).testBit j = decide (i = j) := by
  rw [Nat.one_shiftLeft, Nat.testBit_two_pow]

theorem shiftLeft_and_ne_zero_iff {i m : ℕ} : (1 <<< i) &&& m ≠ 0 ↔ m.testBit i = true := by
  rw [Nat.one_shiftLeft, Nat.two_pow_and]
  cases m.testBit i <;> simp

/-- A token with a bit in the mask is the name of an RSA algorithm, and it was not cut off. -/
theorem tokMask_eq_some (hexact : algs.Exact) {maskVal : ℕ}
    (h : tokMask algs (tok.take 15) = some maskVal) :
    tok ∈ rsaNames ∧ ∃ alg : ℕ, algs.strToEnum tok = alg ∧ maskVal = 1 <<< alg := by
  obtain ⟨hrange, h⟩ := Option.ite_none_left_eq_some.mp h
  obtain ⟨_, h⟩ := Option.ite_none_left_eq_some.mp h
  obtain ⟨hrsa, h⟩ := Option.ite_none_left_eq_some.mp h
  obtain ⟨alg, halg⟩ : ∃ alg : ℕ, algs.strToEnum (tok.take 15) = alg :=
    Int.eq_ofNat_of_zero_le (by omega)
  rw [halg, Int.toNat_natCast] at hrsa h
  have hbit := shiftLeft_and_ne_zero_iff.mp hrsa
  simp only [rsaAlgorithms, Nat.testBit_or, testBit_one_shiftLeft, Bool.or_eq_true,
    decide_eq_true_eq] at hbit
  have hname : tok.take 15 ∈ rsaNames := by
    rcases hbit with (rfl | rfl) | rfl
    · rw [(hexact.rs256 _).mp halg]
      exact List.mem_cons_self
    · rw [(hexact.rs384 _).mp halg]
      exact List.mem_cons_of_mem _ List.mem_cons_self
    · rw [(hexact.rs512 _).mp halg]
      exact List.mem_cons_of_mem _ (List.mem_cons_of_mem _ List.mem_cons_self)
  have hfive : (tok.take 15).length = 5 := by
    revert hname
    generalize tok.take 15 = name
    simp only [rsaNames, List.mem_cons, List.not_mem_nil, or_false]
    rintro (rfl | rfl | rfl) <;> rfl
  have htok : tok.take 15 = tok := by
    apply List.take_of_length_le
    rw [List.length_take] at hfive
    omega
  rw [htok] at hname halg
  exact ⟨hname, alg, halg, (Option.some.inj h).symm⟩

theorem tokMasks_spec (hexact : algs.Exact) {toks : List CString} {masks : List ℕ}
    (h : (toks.mapM fun t ↦ tokMask algs (t.take 15)) = some masks) :
    (∀ t ∈ toks, t ∈ rsaNames) ∧ ∀ (i mask : ℕ), (masks.foldl (· ||| ·) mask).testBit i = true →
      mask.testBit i = true ∨ ∃ t ∈ toks, algs.strToEnum t = i := by
  induction toks generalizing masks with
  | nil =>
    obtain rfl := Option.some.inj h
    exact ⟨List.forall_mem_nil _, fun i mask hbit ↦ .inl hbit⟩
  | cons t toks ih =>
    rw [List.mapM_cons] at h
    obtain ⟨maskVal, hmask, h⟩ := Option.bind_eq_some_iff.mp h
    obtain ⟨masks', hmasks, heq⟩ := Option.bind_eq_some_iff.mp h
    obtain rfl := Option.some.inj heq
    obtain ⟨hname, alg, halg, rfl⟩ := tokMask_eq_some hexact hmask
    obtain ⟨hnames, hbits⟩ := ih hmasks
    refine ⟨List.forall_mem_cons.mpr ⟨hname, hnames⟩, fun i mask hbit ↦ ?_⟩
    rw [List.foldl_cons] at hbit
    rcases hbits i _ hbit with hor | ⟨u, hu, hval⟩
    · rw [Nat.testBit_or, testBit_one_shiftLeft, Bool.or_eq_true, decide_eq_true_eq] at hor
      rcases hor with hold | rfl
      · exact .inl hold
      · exact .inr ⟨t, List.mem_cons_self, halg⟩
    · exact .inr ⟨u, List.mem_cons_of_mem _ hu, hval⟩

/-- A mask is only made of a string of RSA names, and its bits are theirs. -/
theorem getAlgoMask_spec (hexact : algs.Exact) (h : getAlgoMask algs s ≠ unsignedMinusOne) :
    (∀ t ∈ s.splitOn ':', t ∈ rsaNames) ∧
      ∀ i : ℕ, (getAlgoMask algs s).testBit i = true →
        ∃ t ∈ s.splitOn ':', algs.strToEnum t = i := by
  rw [getAlgoMask_eq] at h ⊢
  cases hmasks : (s.splitOn ':').mapM fun t ↦ tokMask algs (t.take 15) with
  | none =>
    rw [hmasks] at h
    exact absurd rfl h
  | some masks =>
    obtain ⟨hnames, hbits⟩ := tokMasks_spec hexact hmasks
    refine ⟨hnames, fun i hbit ↦ (hbits i 0 hbit).resolve_left ?_⟩
    rw [Nat.zero_testBit]
    exact Bool.false_ne_true

end Parodus.Config
