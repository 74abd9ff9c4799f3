import Parodus.Upstream.Tasks

namespace Parodus.Upstream

/-- The local `msg`: null, what stood in it before it was first set, or the message decoded from
an entry. -/
inductive MsgPtr
  | null
  | stale (address : ℕ)
  | decoded (entry : ℕ)
  deriving DecidableEq

inductive Use
  | inspected
  | freed
  deriving DecidableEq

/-- One turn of the loop: its entry, whether `wrp_to_struct` succeeded for it, how `msg` was
used, and how the buffer was released. -/
structure Pass where
  entry : ℕ
  decodes : Bool
  uses : List (Use × MsgPtr)
  routine : Routine
  deriving DecidableEq

/-- It sets the pointer only on success. -/
def wrpToStruct (entry : ℕ) (message : UpStreamMsg) (msg : MsgPtr) : Bool × MsgPtr :=
  if message.decoded.isSome then (true, .decoded entry) else (false, msg)

/-- What is read where the pointer points to. -/
def pointed (memory : ℕ → WrpMsg) (message : UpStreamMsg) : MsgPtr → Option WrpMsg
  | .null => none
  | .stale address => some (memory address)
  | .decoded _ => message.decoded

/-- The success branch inspects the message; behind both branches `msg` is inspected and freed
unless it is null. -/
def processEntry (wire : Wire) (memory : ℕ → WrpMsg) (entry : ℕ) (message : UpStreamMsg)
    (msg : MsgPtr) : Pass :=
  let decoding := wrpToStruct entry message msg
  { entry := entry
    decodes := decoding.1
    uses := (if decoding.1 then [(.inspected, decoding.2)] else []) ++
      (if decoding.2 ≠ .null then [(.inspected, decoding.2), (.freed, decoding.2)] else [])
    routine := release wire (pointed memory message decoding.2) }

/-- The entries one by one; `msg` is null behind each of them. -/
def processEntries (wire : Wire) (memory : ℕ → WrpMsg) : ℕ → List UpStreamMsg → MsgPtr → List Pass
  | _, [], _ => []
  | entry, message :: rest, msg =>
    processEntry wire memory entry message msg ::
      processEntries wire memory (entry + 1) rest .null

/-- What stands in a local that is not initialised: a null pointer, or some address. -/
def uninitialised : Option ℕ → MsgPtr
  | none => .null
  | some address => .stale address

/-- Only a message that was decoded from the very entry is used. -/
def Pass.Right (pass : Pass) : Prop :=
  ∀ use ∈ pass.uses, pass.decodes = true ∧ use.2 = .decoded pass.entry

variable {wire : Wire} {memory : ℕ → WrpMsg} {entry : ℕ} {message : UpStreamMsg} {msg : MsgPtr}

theorem processEntry_decodes (h : message.decoded.isSome = true) :
    processEntry wire memory entry message msg =
      ⟨entry, true, [(.inspected, .decoded entry), (.inspected, .decoded entry),
        (.freed, .decoded entry)], release wire message.decoded⟩ := by
  rw [processEntry, wrpToStruct, if_pos h]
  rfl

theorem processEntry_null (h : message.decoded.isSome = false) :
    processEntry wire memory entry message .null = ⟨entry, false, [], release wire none⟩ := by
  rw [processEntry, wrpToStruct, h, if_neg Bool.false_ne_true]
  rfl

theorem processEntry_stale (h : message.decoded.isSome = false) (address : ℕ) :
    processEntry wire memory entry message (.stale address) =
      ⟨entry, false, [(.inspected, .stale address), (.freed, .stale address)],
        release wire (some (memory address))⟩ := by
  rw [processEntry, wrpToStruct, h, if_neg Bool.false_ne_true]
  rfl

theorem right_of_decodes (h : message.decoded.isSome = true) :
    (processEntry wire memory entry message msg).Right := by
  rw [processEntry_decodes h]
  intro use huse
  refine ⟨rfl, ?_⟩
  simp only [List.mem_cons, List.not_mem_nil, or_false] at huse
  obtain rfl | rfl | rfl := huse
  all_goals rfl

theorem right_of_null : (processEntry wire memory entry message .null).Right := by
  cases h : message.decoded.isSome with
  | true => exact right_of_decodes h
  | false =>
    rw [processEntry_null h]
    exact List.forall_mem_nil _

theorem not_right_of_stale (h : message.decoded.isSome = false) (address : ℕ) :
    ¬ (processEntry wire memory entry message (.stale address)).Right := by
  rw [processEntry_stale h]
  intro hright
  exact absurd (hright _ List.mem_cons_self).1 Bool.false_ne_true

/-- Behind the first entry `msg` is null, and is used rightly. -/
theorem processEntries_right (entry : ℕ) (q : List UpStreamMsg) :
    ∀ pass ∈ processEntries wire memory entry q .null, pass.Right := by
  induction q generalizing entry with
  | nil => exact List.forall_mem_nil _
  | cons message rest ih =>
    exact List.forall_mem_cons.mpr ⟨right_of_null, ih (entry + 1)⟩

/-- The decoded messages are used rightly if what stood in `msg` is null, or the first entry is
decoded. -/
theorem passes_right_iff (wire : Wire) (memory : ℕ → WrpMsg) (q : List UpStreamMsg)
    (garbage : Option ℕ) :
    (∀ pass ∈ processEntries wire memory 0 q (uninitialised garbage), pass.Right) ↔
      garbage = none ∨ ∀ message, q.head? = some message → message.decoded.isSome = true := by
  cases garbage with
  | none => exact iff_of_true (processEntries_right 0 q) (.inl rfl)
  | some address =>
    cases q with
    | nil =>
      refine iff_of_true (List.forall_mem_nil _) (.inr fun message hhead ↦ ?_)
      cases hhead
    | cons message rest =>
      rw [processEntries, List.forall_mem_cons, and_iff_left (processEntries_right 1 rest)]
      cases h : message.decoded.isSome with
      | true =>
        refine iff_of_true (right_of_decodes h) (.inr fun message' hhead ↦ ?_)
        rw [← Option.some.inj hhead, h]
      | false =>
        refine iff_of_false (not_right_of_stale h address) ?_
        rintro (hnone | hfirst)
        · cases hnone
        · exact absurd ((hfirst message rfl).symm.trans h) (by decide)

/-- Used rightly, the messages release the buffers as in the model of the tasks. -/
theorem Pass.Right.routine (h : (processEntry wire memory entry message msg).Right) :
    (processEntry wire memory entry message msg).routine = release wire message.decoded := by
  cases hdecodes : message.decoded.isSome with
  | true => rw [processEntry_decodes hdecodes]
  | false =>
    have hnone : message.decoded = none := by
      rwa [Option.isSome_eq_false_iff, Option.isNone_iff_eq_none] at hdecodes
    cases msg with
    | null => rw [processEntry_null hdecodes, hnone]
    | stale address => exact absurd h (not_right_of_stale hdecodes address)
    | decoded entry' =>
      have hpass : processEntry wire memory entry message (.decoded entry') =
          ⟨entry, false, [(.inspected, .decoded entry'), (.freed, .decoded entry')],
            release wire message.decoded⟩ := by
        rw [processEntry, wrpToStruct, hdecodes, if_neg Bool.false_ne_true]
        rfl
      rw [hpass]

/-- The first entry cannot be decoded, and what stood in `msg` is freed. -/
theorem passes_not_right :
    ¬ ∀ pass ∈ processEntries boxWire (fun _ ↦ .unknown) 0 [⟨.nanomsg, none, 0⟩]
      (uninitialised (some 4096)), pass.Right := by
  intro h
  exact not_right_of_stale rfl 4096 (h _ List.mem_cons_self)

end Parodus.Upstream
