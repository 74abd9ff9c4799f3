import Parodus.Connection.Steps
import Parodus.Upstream.Senders

namespace Parodus.Upstream.Senders

open Foundation Foundation.Runs
open Connection (Deployment quiet cloudDeployment)

/-- A binary frame begins a message, and the FIN flag ends it. -/
def frames : Framing (Frame Char) where
  first frame := decide (frame.opCode = .binaryFrame)
  last := Frame.fin

/-- A sender that has written a frame of its message on the connection, and not all of them. -/
def Pc.inside (id : ℕ) : Pc → Bool
  | write conn _ _ _ _ frameType => conn == some id && frameType == .continuationFrame
  | _ => false

/-- What a sender has written of its message on the connection. -/
def Pc.pending (id : ℕ) : Pc → CString
  | write conn msg _ length _ _ =>
    if conn = some id then msg.bytes.take (msg.bytes.length - length) else []
  | _ => []

def State.channel (s : State) (id : ℕ) : Channel Sender (Frame Char) :=
  ⟨s.wire id, Pc.inside id ∘ s.pcs⟩

/-- The step writes out a frame on the connection. -/
def Writes (s : State) (w : Sender) (calls : SendCalls) (id : ℕ) : Prop :=
  ∃ msg cp length finalLenSent frameType,
    s.pcs w = .write (some id) msg cp length finalLenSent frameType ∧
      calls.Complete (lenToSend length)

/-- No frame is written out on a connection on which the other sender has begun a message and not
ended it, or on which a message was broken off. -/
def Apart (s : State) : Action → Prop
  | .sender w calls => ∀ id, Writes s w calls id →
      none ∉ s.wire id ∧ ∀ w' ≠ w, (s.pcs w').inside id = false
  | _ => True

/-- On every connection each message is whole before the next one begins. -/
def Legal (s : State) : Prop := ∀ id, (frames.read (s.wire id)).isSome = true

/-- What the loop of `sendResponse` keeps. -/
structure Writing (msg : AppendData) (cp : CString) (length : ℕ) (finalLenSent : ℤ)
    (frameType : OpCode) : Prop where
  pos : 0 < length
  le : length ≤ msg.bytes.length
  cp : cp = msg.bytes.drop (msg.bytes.length - length)
  finalLenSent : finalLenSent = msg.bytes.length - length
  frameType : frameType = .binaryFrame ↔ length = msg.bytes.length

def Pc.Right : Pc → Prop
  | write _ msg cp length finalLenSent frameType => Writing msg cp length finalLenSent frameType
  | _ => True

variable {dep : Deployment} {s t : State} {a : Action} {w w' : Sender} {pc : Pc} {id length : ℕ}
  {conn : Option ℕ} {msg : AppendData} {cp : CString} {finalLenSent : ℤ} {frameType : OpCode}
  {calls : SendCalls}

section Loop

theorem Writing.length_cp (h : Writing msg cp length finalLenSent frameType) :
    cp.length = length := by
  have hle := h.le
  rw [h.cp, List.length_drop]
  omega

/-- What is written and what the next frame takes, and what is left. -/
theorem Writing.take_append (h : Writing msg cp length finalLenSent frameType) :
    msg.bytes.take (msg.bytes.length - length) ++ (frameOf frameType cp length).payload =
      msg.bytes.take (msg.bytes.length - (length - lenToSend length)) := by
  have hle := h.le
  have hsend := lenToSend_le length
  have hsplit : msg.bytes.length - (length - lenToSend length) =
      msg.bytes.length - length + lenToSend length := by omega
  rw [hsplit, List.take_add, frameOf, h.cp]

theorem Writing.next (h : Writing msg cp length finalLenSent frameType)
    (hrest : 0 < length - lenToSend length) :
    Writing msg (cp.drop (lenToSend length)) (length - lenToSend length)
      (intAdd finalLenSent (lenToSend length)) .continuationFrame where
  pos := hrest
  le := (Nat.sub_le _ _).trans h.le
  cp := by
    have hle := h.le
    have hsplit : msg.bytes.length - (length - lenToSend length) =
        msg.bytes.length - length + lenToSend length := by omega
    rw [h.cp, List.drop_drop, hsplit]
  finalLenSent := by
    have hle := h.le
    have hfits := msg.fits
    have hsend := lenToSend_le length
    rw [h.finalLenSent, intAdd_of_le (by omega) (by omega)]
    omega
  frameType := by
    have hle := h.le
    have hpos := lenToSend_pos h.pos
    refine ⟨nofun, fun heq ↦ ?_⟩
    omega

/-- The count behind the last frame. -/
theorem Writing.count (h : Writing msg cp length finalLenSent frameType)
    (hrest : ¬ 0 < length - lenToSend length) :
    intAdd finalLenSent (lenToSend length) = msg.bytes.length := by
  have hle := h.le
  have hfits := msg.fits
  have hsend := lenToSend_le length
  rw [h.finalLenSent, intAdd_of_le (by omega) (by omega)]
  omega

theorem Writing.count_ne (h : Writing msg cp length finalLenSent frameType) :
    finalLenSent ≠ msg.bytes.length := by
  have hpos := h.pos
  rw [h.finalLenSent]
  omega

theorem writing_start (hpos : 0 < msg.bytes.length) :
    Writing msg msg.bytes msg.bytes.length 0 .binaryFrame where
  pos := hpos
  le := Nat.le_refl _
  cp := by
    rw [Nat.sub_self]
    rfl
  finalLenSent := (Int.sub_self _).symm
  frameType := ⟨fun _ ↦ rfl, fun _ ↦ rfl⟩

end Loop

section Channel

theorem channel_eq {pieces : List (Option (Frame Char))} (hwire : t.wire id = pieces)
    (hpcs : t.pcs = Function.update s.pcs w pc) :
    t.channel id = ⟨pieces, Function.update (s.channel id).inside w (pc.inside id)⟩ := by
  rw [State.channel, hwire, hpcs, Function.comp_update]
  rfl

/-- A sender that moves and writes nothing on the connection. -/
theorem channel_eq_self (hwire : t.wire id = s.wire id)
    (hpcs : t.pcs = Function.update s.pcs w pc) (hinside : pc.inside id = (s.pcs w).inside id) :
    t.channel id = s.channel id := by
  have hself : Function.update (s.channel id).inside w (pc.inside id) = (s.channel id).inside :=
    Function.update_eq_self_iff.mpr hinside
  rw [channel_eq hwire hpcs, hself]
  rfl

theorem pending_eq_self (hpcs : t.pcs = Function.update s.pcs w pc)
    (hpending : pc.pending id = (s.pcs w).pending id) :
    Pc.pending id ∘ t.pcs = Pc.pending id ∘ s.pcs := by
  rw [hpcs, Function.comp_update]
  exact Function.update_eq_self_iff.mpr hpending

theorem wire_put_of_ne {piece : Option (Frame Char)} (hne : conn ≠ some id) :
    (s.put conn piece).wire id = s.wire id := by
  cases conn with
  | none => rfl
  | some id' =>
    have hne' : id ≠ id' := fun heq ↦ hne (congrArg some heq.symm)
    exact Function.update_of_ne hne' ..

theorem wire_put (piece : Option (Frame Char)) :
    (s.put (some id) piece).wire id = s.wire id ++ [piece] :=
  Function.update_self ..

end Channel

section Written

theorem put_pcs {piece : Option (Frame Char)} : (s.put conn piece).pcs = s.pcs := by
  cases conn <;> rfl

theorem put_sentOn {piece : Option (Frame Char)} : (s.put conn piece).sentOn id = s.sentOn id := by
  cases conn <;> rfl

variable {bytesWritten : ℤ}

theorem written_pcs : (s.written w conn msg bytesWritten).pcs = Function.update s.pcs w .idle := by
  unfold State.written
  dsimp only
  split <;> rfl

theorem written_wire : (s.written w conn msg bytesWritten).wire = s.wire := by
  unfold State.written
  dsimp only
  split <;> rfl

theorem put_goto_pcs {piece : Option (Frame Char)} :
    ((s.put conn piece).goto w pc).pcs = Function.update s.pcs w pc := by
  rw [State.goto, put_pcs]

theorem put_goto_wire {piece : Option (Frame Char)} :
    ((s.put (some id) piece).goto w pc).wire id = s.wire id ++ [piece] := wire_put piece

theorem put_written_pcs {piece : Option (Frame Char)} :
    ((s.put conn piece).written w conn msg bytesWritten).pcs =
      Function.update s.pcs w .idle := by
  rw [written_pcs, put_pcs]

theorem put_written_wire {piece : Option (Frame Char)} :
    ((s.put (some id) piece).written w (some id) msg bytesWritten).wire id =
      s.wire id ++ [piece] := by
  rw [written_wire, wire_put]

theorem sentOn_append {sent : List (Option ℕ × CString)} {message : CString}
    (hsent : t.sent = sent ++ [(conn, message)]) (hs : s.sent = sent) : t.sentOn id =
      s.sentOn id ++ if conn = some id ∧ message ≠ [] then [message] else [] := by
  unfold State.sentOn
  rw [hsent, hs, List.filter_append, List.map_append]
  refine congrArg (_ ++ ·) ?_
  by_cases hmessage : conn = some id ∧ message ≠ []
  · rw [if_pos hmessage, List.filter_cons_of_pos (by simpa using hmessage)]
    rfl
  · rw [if_neg hmessage, List.filter_cons_of_neg (by simpa using hmessage)]
    rfl

/-- Only a message that is written as a whole is counted. -/
theorem sentOn_written_of_not (h : bytesWritten ≠ msg.bytes.length ∨ conn ≠ some id ∨
    msg.bytes = []) : (s.written w conn msg bytesWritten).sentOn id = s.sentOn id := by
  unfold State.written
  dsimp only
  by_cases hcount : bytesWritten = msg.bytes.length
  · rw [if_pos hcount, sentOn_append (s := s) rfl rfl, if_neg, List.append_nil]
    rintro ⟨hconn, hmessage⟩
    rcases h with h | h | h
    · exact h hcount
    · exact h hconn
    · exact hmessage h
  · rw [if_neg hcount]
    rfl

theorem sentOn_written (hcount : bytesWritten = msg.bytes.length) (hmessage : msg.bytes ≠ []) :
    (s.written w (some id) msg bytesWritten).sentOn id = s.sentOn id ++ [msg.bytes] := by
  unfold State.written
  dsimp only
  rw [if_pos hcount, sentOn_append (s := s) rfl rfl, if_pos ⟨rfl, hmessage⟩]

end Written

/-- What a step does to the stream of a connection. -/
inductive Effect (s t : State) (id : ℕ) : Action → Prop
  | same {a : Action} : t.channel id = s.channel id → t.sentOn id = s.sentOn id →
      Pc.pending id ∘ t.pcs = Pc.pending id ∘ s.pcs →
      (∀ w calls, a = .sender w calls → ¬ Writes s w calls id) → Effect s t id a
  | breakOff (w : Sender) (calls : SendCalls) : t.channel id = (s.channel id).breakOff w →
      t.sentOn id = s.sentOn id →
      (∀ w' ≠ w, (t.pcs w').pending id = (s.pcs w').pending id) →
      ¬ Writes s w calls id → Effect s t id (.sender w calls)
  | write (w : Sender) (calls : SendCalls) (frame : Frame Char) : Writes s w calls id →
      t.channel id = (s.channel id).write frames w frame →
      frames.first frame = !(s.pcs w).inside id →
      (frame.fin = true ∧ t.sentOn id = s.sentOn id ++ [(s.pcs w).pending id ++ frame.payload] ∨
        frame.fin = false ∧ t.sentOn id = s.sentOn id ∧
          (t.pcs w).pending id = (s.pcs w).pending id ++ frame.payload) →
      Effect s t id (.sender w calls)

section Effect

/-- A sender that moves outside the connection. -/
theorem Effect.moves (hwire : t.wire id = s.wire id) (hpcs : t.pcs = Function.update s.pcs w pc)
    (hsent : t.sentOn id = s.sentOn id) (hinside : pc.inside id = (s.pcs w).inside id)
    (hpending : pc.pending id = (s.pcs w).pending id)
    (hwrites : ∀ w calls, a = .sender w calls → ¬ Writes s w calls id) : Effect s t id a :=
  .same (channel_eq_self hwire hpcs hinside) hsent (pending_eq_self hpcs hpending) hwrites

theorem not_writes (hpc : ∀ msg cp length finalLenSent frameType,
    s.pcs w ≠ .write (some id) msg cp length finalLenSent frameType) : ¬ Writes s w calls id :=
  fun ⟨_, _, _, _, _, hwrite, _⟩ ↦ hpc _ _ _ _ _ hwrite

theorem inside_elsewhere (hne : conn ≠ some id) :
    (Pc.write conn msg cp length finalLenSent frameType).inside id = false :=
  Bool.and_eq_false_iff.mpr (.inl (beq_false_of_ne hne))

theorem inside_write : (Pc.write (some id) msg cp length finalLenSent frameType).inside id =
    (frameType == .continuationFrame) := by
  have hconn : (some id == some id) = true := beq_self_eq_true _
  rw [Pc.inside, hconn, Bool.true_and]

theorem pending_elsewhere (hne : conn ≠ some id) :
    (Pc.write conn msg cp length finalLenSent frameType).pending id = [] := if_neg hne

/-- A turn of the loop with another connection. -/
theorem effect_turn_elsewhere (hpc : s.pcs w = .write conn msg cp length finalLenSent frameType)
    (hne : conn ≠ some id) :
    Effect s (s.turn w calls conn msg cp length finalLenSent frameType) id (.sender w calls) := by
  have hwrites : ∀ w' calls', Action.sender w calls = .sender w' calls' →
      ¬ Writes s w' calls' id := by
    intro w' calls' heq
    obtain ⟨rfl, rfl⟩ := Action.sender.inj heq
    refine not_writes fun _ _ _ _ _ hwrite ↦ ?_
    rw [hpc] at hwrite
    obtain ⟨rfl, _⟩ := Pc.write.inj hwrite
    exact hne rfl
  have hinside : (s.pcs w).inside id = false := by
    rw [hpc]
    exact inside_elsewhere hne
  have hpending : (s.pcs w).pending id = [] := by
    rw [hpc]
    exact pending_elsewhere hne
  have hput : ∀ (piece : Option (Frame Char)) (bytesWritten : ℤ),
      Effect s ((s.put conn piece).written w conn msg bytesWritten) id (.sender w calls) := by
    intro piece bytesWritten
    have hwire : ((s.put conn piece).written w conn msg bytesWritten).wire id = s.wire id := by
      rw [written_wire, wire_put_of_ne hne]
    refine .moves hwire put_written_pcs ?_ hinside.symm hpending.symm hwrites
    rw [sentOn_written_of_not (.inr (.inl hne)), put_sentOn]
  unfold State.turn State.loop
  split
  · split
    · exact .moves (wire_put_of_ne hne) put_goto_pcs put_sentOn
        ((inside_elsewhere hne).trans hinside.symm) ((pending_elsewhere hne).trans hpending.symm)
        hwrites
    · exact hput _ _
  · exact hput _ _

/-- A turn of the loop with the connection. -/
theorem effect_turn (hpc : s.pcs w = .write (some id) msg cp length finalLenSent frameType)
    (h : Writing msg cp length finalLenSent frameType) :
    Effect s (s.turn w calls (some id) msg cp length finalLenSent frameType) id
      (.sender w calls) := by
  have hpending : (s.pcs w).pending id = msg.bytes.take (msg.bytes.length - length) := by
    rw [hpc]
    exact if_pos rfl
  have hfirst : frames.first (frameOf frameType cp length) = !(s.pcs w).inside id := by
    rw [hpc, inside_write]
    cases frameType <;> rfl
  by_cases hcomplete : calls.Complete (lenToSend length)
  · have hwrites : Writes s w calls id := ⟨_, _, _, _, _, hpc, hcomplete⟩
    have hbytes := h.take_append
    unfold State.turn State.loop
    rw [if_pos hcomplete]
    by_cases hrest : 0 < length - lenToSend length
    · have hfin : (frameOf frameType cp length).fin = false := decide_eq_false (by omega)
      rw [if_pos hrest]
      refine .write w calls _ hwrites ?_ hfirst (.inr ⟨hfin, put_sentOn, ?_⟩)
      · have hlast : frames.last (frameOf frameType cp length) = false := hfin
        rw [channel_eq put_goto_wire put_goto_pcs, inside_write, Channel.write, hlast]
        rfl
      · rw [hpending, hbytes, put_goto_pcs, Function.update_self]
        exact if_pos rfl
    · have hfin : (frameOf frameType cp length).fin = true := decide_eq_true (by omega)
      have hzero : length - lenToSend length = 0 := Nat.eq_zero_of_not_pos hrest
      have hmessage : msg.bytes ≠ [] := by
        have hpos := h.pos.trans_le h.le
        exact List.ne_nil_of_length_pos hpos
      rw [if_neg hrest]
      refine .write w calls _ hwrites ?_ hfirst (.inl ⟨hfin, ?_⟩)
      · have hlast : frames.last (frameOf frameType cp length) = true := hfin
        rw [channel_eq put_written_wire put_written_pcs, Channel.write, hlast]
        rfl
      · rw [sentOn_written (h.count hrest) hmessage, put_sentOn, hpending, hbytes, hzero,
          Nat.sub_zero, List.take_length]
  · have hwrites : ¬ Writes s w calls id := by
      rintro ⟨_, _, _, _, _, hwrite, hdone⟩
      rw [hpc] at hwrite
      obtain ⟨_, _, _, rfl, _⟩ := Pc.write.inj hwrite
      exact hcomplete hdone
    unfold State.turn
    rw [if_neg hcomplete]
    refine .breakOff w calls ?_ ?_ ?_ hwrites
    · rw [channel_eq put_written_wire put_written_pcs]
      rfl
    · rw [sentOn_written_of_not (.inl h.count_ne), put_sentOn]
    · intro w' hne
      rw [put_written_pcs, Function.update_of_ne hne]

/-- The test of the loop before the first frame. -/
theorem effect_start (hpc : s.pcs w = .cloudStatus conn msg) :
    Effect s (s.loop w conn msg msg.bytes msg.bytes.length 0 .binaryFrame) id
      (.sender w calls) := by
  have hwrites : ∀ w' calls', Action.sender w calls = .sender w' calls' →
      ¬ Writes s w' calls' id := by
    intro w' calls' heq
    obtain ⟨rfl, rfl⟩ := Action.sender.inj heq
    refine not_writes fun _ _ _ _ _ hwrite ↦ ?_
    rw [hpc] at hwrite
    cases hwrite
  have hinside : (s.pcs w).inside id = false := by rw [hpc]; rfl
  have hpending : (s.pcs w).pending id = [] := by rw [hpc]; rfl
  unfold State.loop
  split
  · refine .moves rfl rfl rfl ?_ ?_ hwrites
    · exact (Bool.and_false _).trans hinside.symm
    · rw [hpending, Pc.pending, Nat.sub_self, List.take_zero, ite_self]
  · rename_i hlength
    have hmessage : msg.bytes = [] := List.length_eq_zero_iff.mp (Nat.eq_zero_of_not_pos hlength)
    exact .moves (congrFun written_wire id) written_pcs
      (sentOn_written_of_not (.inr (.inr hmessage))) hinside.symm hpending.symm hwrites

theorem step_effect (hright : ∀ w, (s.pcs w).Right) (h : Step dep s a t) : Effect s t id a := by
  unfold Step step at h
  cases a with
  | main action =>
    obtain ⟨_, heq⟩ := Option.ite_none_left_eq_some.mp h
    obtain ⟨main, _, rfl⟩ := Option.map_eq_some_iff.mp heq
    exact .same rfl rfl rfl nofun
  | send w appendData =>
    obtain ⟨⟨_, hidle⟩, heq⟩ := Option.ite_none_right_eq_some.mp h
    obtain rfl := Option.some.inj heq
    exact .moves rfl rfl rfl (by rw [hidle]; rfl) (by rw [hidle]; rfl) nofun
  | leave w =>
    obtain ⟨⟨_, _, hidle⟩, heq⟩ := Option.ite_none_right_eq_some.mp h
    obtain rfl := Option.some.inj heq
    exact .moves rfl rfl rfl (by rw [hidle]; rfl) (by rw [hidle]; rfl) nofun
  | sender w calls =>
    have hmoves : ∀ {pc pc'}, s.pcs w = pc →
        (∀ msg cp length finalLenSent frameType,
          pc ≠ .write (some id) msg cp length finalLenSent frameType) →
        pc'.inside id = pc.inside id → pc'.pending id = pc.pending id →
        Effect s (s.goto w pc') id (.sender w calls) := by
      intro pc pc' hpc hwrite hinside hpending
      refine .moves rfl rfl rfl (hpc ▸ hinside) (hpc ▸ hpending) ?_
      intro w' calls' heq
      obtain ⟨rfl, rfl⟩ := Action.sender.inj heq
      exact not_writes (hpc ▸ hwrite)
    dsimp only [sendStep] at h
    cases hpc : s.pcs w with
    | idle | ended =>
      rw [hpc] at h
      cases h
    | closeRetry appendData | cloudDisconnect appendData | globalConn appendData =>
      rw [hpc] at h
      obtain rfl := Option.some.inj h
      refine hmoves hpc nofun ?_ ?_
      all_goals
        first
        | rfl
        | split <;> rfl
    | cloudStatus conn msg =>
      rw [hpc] at h
      obtain rfl := Option.some.inj h
      split
      · exact effect_start hpc
      · exact hmoves hpc nofun rfl rfl
    | write conn msg cp length finalLenSent frameType =>
      rw [hpc] at h
      obtain rfl := Option.some.inj h
      have hwriting : Writing msg cp length finalLenSent frameType := by
        have hw := hright w
        rw [hpc] at hw
        exact hw
      by_cases hconn : conn = some id
      · subst hconn
        exact effect_turn hpc hwriting
      · exact effect_turn_elsewhere hpc hconn

end Effect

section Right

theorem right_update (hright : ∀ w, (s.pcs w).Right) (hpcs : t.pcs = Function.update s.pcs w pc)
    (hpc : pc.Right) (w' : Sender) : (t.pcs w').Right := by
  rw [hpcs]
  by_cases hne : w' = w
  · rw [hne, Function.update_self]
    exact hpc
  · rw [Function.update_of_ne hne]
    exact hright w'

theorem right_turn (hright : ∀ w, (s.pcs w).Right)
    (h : Writing msg cp length finalLenSent frameType) (w' : Sender) :
    ((s.turn w calls conn msg cp length finalLenSent frameType).pcs w').Right := by
  unfold State.turn State.loop
  split
  · split
    · refine right_update hright put_goto_pcs ?_ w'
      exact h.next ‹_›
    · refine right_update hright put_written_pcs ?_ w'
      exact trivial
  · refine right_update hright put_written_pcs ?_ w'
    exact trivial

theorem step_right (hright : ∀ w, (s.pcs w).Right) (h : Step dep s a t) (w' : Sender) :
    (t.pcs w').Right := by
  unfold Step step at h
  cases a with
  | main action =>
    obtain ⟨_, heq⟩ := Option.ite_none_left_eq_some.mp h
    obtain ⟨main, _, rfl⟩ := Option.map_eq_some_iff.mp heq
    exact hright w'
  | send w appendData =>
    obtain ⟨_, heq⟩ := Option.ite_none_right_eq_some.mp h
    obtain rfl := Option.some.inj heq
    refine right_update hright rfl ?_ w'
    exact trivial
  | leave w =>
    obtain ⟨_, heq⟩ := Option.ite_none_right_eq_some.mp h
    obtain rfl := Option.some.inj heq
    refine right_update hright rfl ?_ w'
    exact trivial
  | sender w calls =>
    dsimp only [sendStep] at h
    cases hpc : s.pcs w with
    | idle | ended =>
      rw [hpc] at h
      cases h
    | closeRetry appendData | cloudDisconnect appendData | globalConn appendData =>
      rw [hpc] at h
      obtain rfl := Option.some.inj h
      refine right_update hright rfl ?_ w'
      first
      | trivial
      | split <;> trivial
    | cloudStatus conn msg =>
      rw [hpc] at h
      obtain rfl := Option.some.inj h
      unfold State.loop
      split
      · split
        · refine right_update hright rfl ?_ w'
          exact writing_start ‹_›
        · refine right_update hright written_pcs ?_ w'
          exact trivial
      · refine right_update hright rfl ?_ w'
        exact trivial
    | write conn msg cp length finalLenSent frameType =>
      rw [hpc] at h
      obtain rfl := Option.some.inj h
      have hwriting : Writing msg cp length finalLenSent frameType := by
        have hw := hright w
        rw [hpc] at hw
        exact hw
      exact right_turn hright hwriting w'

theorem pending_eq_nil (hright : pc.Right) (hinside : pc.inside id = false) :
    pc.pending id = [] := by
  cases pc with
  | write conn msg cp length finalLenSent frameType =>
    have hwriting : Writing msg cp length finalLenSent frameType := hright
    by_cases hconn : conn = some id
    · subst hconn
      rw [inside_write] at hinside
      have htype : frameType = .binaryFrame := by
        cases frameType with
        | binaryFrame => rfl
        | continuationFrame => cases hinside
      rw [Pc.pending, if_pos rfl, hwriting.frameType.mp htype, Nat.sub_self, List.take_zero]
    · exact pending_elsewhere hconn
  | _ => rfl

end Right

section Runs

/-- What the runs keep in which no message is disturbed. -/
structure Flowing (s : State) : Prop where
  right : ∀ w, (s.pcs w).Right
  orderly : ∀ id, (s.channel id).Orderly frames
  carries : ∀ id,
    (s.channel id).Carries frames Frame.payload (s.sentOn id) (Pc.pending id ∘ s.pcs)

theorem flowing_init : Flowing init where
  right _ := trivial
  orderly _ := ⟨rfl, fun _ _ _ ↦ nofun, fun _ _ ↦ rfl, nofun⟩
  carries _ := ⟨rfl, fun _ ↦ nofun⟩

theorem Flowing.legal (h : Flowing s) : Legal s := fun id ↦ (h.orderly id).legal

theorem Flowing.step (h : Flowing s) (hapart : Apart s a) (hstep : Step dep s a t) :
    Flowing t := by
  have hundisturbed : ∀ {id w calls}, a = .sender w calls → Writes s w calls id →
      (s.channel id).Undisturbed w := by
    intro id w calls heq hwrites
    subst heq
    exact hapart id hwrites
  refine ⟨step_right h.right hstep, fun id ↦ ?_, fun id ↦ ?_⟩
  · have heffect : Effect s t id a := step_effect h.right hstep
    cases heffect with
    | same hchannel _ _ _ =>
      rw [hchannel]
      exact h.orderly id
    | breakOff w calls hchannel _ _ _ =>
      rw [hchannel]
      exact (h.orderly id).breakOff
    | write w calls frame hwrites hchannel hfirst _ =>
      rw [hchannel]
      exact (h.orderly id).write hfirst (hundisturbed rfl hwrites)
  · have heffect : Effect s t id a := step_effect h.right hstep
    cases heffect with
    | same hchannel hsent hpending _ =>
      rw [hchannel, hsent, hpending]
      exact h.carries id
    | breakOff w calls hchannel hsent hpending _ =>
      rw [hchannel, hsent]
      exact (h.carries id).breakOff hpending
    | write w calls frame hwrites hchannel hfirst hframe =>
      have hnothing : (s.channel id).inside w = false → (Pc.pending id ∘ s.pcs) w = [] :=
        pending_eq_nil (h.right w)
      rw [hchannel]
      rcases hframe with ⟨hlast, hsent⟩ | ⟨hlast, hsent, hpending⟩
      · rw [hsent]
        exact (h.carries id).writeLast (h.orderly id) (hundisturbed rfl hwrites) hnothing hlast
      · rw [hsent]
        exact (h.carries id).write (h.orderly id) (hundisturbed rfl hwrites) hnothing hlast
          hpending

theorem Flowing.not_legal (h : Flowing s) (hnot : ¬ Apart s a) (hstep : Step dep s a t) :
    ¬ Legal t := by
  cases a with
  | sender w calls =>
    obtain ⟨id, hid⟩ := not_forall.mp hnot
    obtain ⟨hwrites, hdisturbed⟩ := Classical.not_imp.mp hid
    have heffect : Effect s t id (.sender w calls) := step_effect h.right hstep
    intro hlegal
    cases heffect with
    | same _ _ _ hno => exact hno w calls rfl hwrites
    | breakOff _ _ _ _ _ hno => exact hno hwrites
    | write _ _ frame _ hchannel hfirst _ =>
      have hread := (h.orderly id).disturb hfirst hdisturbed
      rw [← hchannel] at hread
      have hsome := hlegal id
      rw [show t.wire id = (t.channel id).pieces from rfl, hread] at hsome
      cases hsome
  | main | send | leave => exact absurd trivial hnot

/-- In every run, the frames of the two senders are on every connection one message after the other
exactly if no frame is written out on a connection on which the other sender is inside a message,
or on which a message was broken off. -/
theorem run_legal_iff {tr : List (State × Action)} (h : Run (Step dep) init tr s) :
    Throughout Legal tr s ↔ Every Apart tr := by
  have hkeep : ∀ s a t, Flowing s → Apart s a → Step dep s a t → Flowing t :=
    fun _ _ _ hs hok hstep ↦ hs.step hok hstep
  have hbreak : ∀ s a t, Flowing s → ¬ Apart s a → Step dep s a t → ¬ Legal t :=
    fun _ _ _ hs hnot hstep ↦ hs.not_legal hnot hstep
  exact h.throughout_iff_of_invariant (fun _ ↦ Flowing.legal) hkeep hbreak flowing_init

end Runs

section Inputs

/-- The main thread connects, and comes to its loop. -/
def connected : List Action := List.replicate 10 (.main (.main quiet))

def writtenOut : SendCalls := ⟨2, 0⟩

def refusedFrame : SendCalls := ⟨-1, 0⟩

/-- Each sender has a message, and is before its first frame. -/
def bothBegun : List Action :=
  connected ++ [.send .upstream ⟨"ab".toList, by decide⟩,
    .send .downstream ⟨"cd".toList, by decide⟩,
    .sender .upstream writtenOut, .sender .downstream writtenOut, .sender .upstream writtenOut,
    .sender .downstream writtenOut, .sender .upstream writtenOut, .sender .downstream writtenOut]

def brokenRun : List Action :=
  bothBegun ++ [.sender .downstream refusedFrame, .sender .upstream writtenOut]

end Inputs

/-- A frame behind one that nopoll did not write out. -/
theorem run_legal_iff_broken : ∃ tr s, Run (Step cloudDeployment) init tr s ∧
    s.sentOn 0 = ["ab".toList] ∧ ¬ Throughout Legal tr s ∧ ¬ Every Apart tr := by
  have hexec : (exec (step cloudDeployment) init brokenRun).map
      (fun r ↦ (r.2.sentOn 0, (frames.read (r.2.wire 0)).isSome)) =
        some (["ab".toList], false) := by
    simp only [cloudDeployment, brokenRun, bothBegun, String.reduceToList]
    rfl
  obtain ⟨r, hr, heq⟩ := Option.map_eq_some_iff.mp hexec
  obtain ⟨hsent, hread⟩ := Prod.mk.inj heq
  have hrun : Run (Step cloudDeployment) init r.1 r.2 := run_of_exec hr
  have hnot : ¬ Throughout Legal r.1 r.2 := by
    intro hlegal
    rw [hlegal.2 0] at hread
    cases hread
  exact ⟨r.1, r.2, hrun, hsent, hnot, fun hapart ↦ hnot ((run_legal_iff hrun).mpr hapart)⟩

end Parodus.Upstream.Senders
