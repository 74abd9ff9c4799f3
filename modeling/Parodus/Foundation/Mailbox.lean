import Mathlib.Data.List.Basic

namespace Parodus.Foundation

/-- Where the reader of a mailbox is. From `empty` to `toWait` and at `leaving` it holds
the mutex. -/
inductive Reader (α : Type*)
  | top
  | empty
  | toWait
  | blocked
  | woken
  | busy (message : α)
  | leaving
  | left
  deriving DecidableEq

def Reader.holds {α : Type*} : Reader α → Bool
  | .empty | .toWait | .leaving => true
  | _ => false

/-- A signal of the condition variable ends the wait; without a waiter it is lost. -/
def Reader.signal {α : Type*} : Reader α → Reader α
  | .blocked => .woken
  | reader => reader

/-- A reader that has a message or was woken, and has still to come back to the queue. -/
def Reader.turns {α : Type*} : Reader α → ℕ
  | .top => 0
  | _ => 1

/-- How many steps a reader that is told to stop has still to take when it finds no message. -/
def Reader.toLeave {α : Type*} : Reader α → ℕ
  | .left => 0
  | .leaving => 1
  | .empty => 2
  | .top => 3
  | _ => 4

section Reader

variable {α : Type*} {reader : Reader α}

theorem Reader.signal_ne_blocked (reader : Reader α) : reader.signal ≠ .blocked := by
  cases reader <;> exact nofun

theorem Reader.holds_signal (reader : Reader α) : reader.signal.holds = reader.holds := by
  cases reader <;> rfl

theorem Reader.signal_ne_toWait (h : reader.holds = false) : reader.signal ≠ .toWait := by
  intro hwait
  rw [← Reader.holds_signal, hwait] at h
  cases h

theorem Reader.turns_le_one (reader : Reader α) : reader.turns ≤ 1 := by
  cases reader with
  | top => exact Nat.zero_le _
  | _ => exact Nat.le_refl _

theorem Reader.toLeave_le_four (reader : Reader α) : reader.toLeave ≤ 4 := by
  cases reader with
  | left => exact Nat.zero_le _
  | leaving | empty | top => exact Nat.le_of_ble_eq_true rfl
  | _ => exact Nat.le_refl _

theorem Reader.turns_signal (reader : Reader α) :
    reader.signal.turns = reader.turns := by
  cases reader <;> rfl

theorem Reader.signal_of_ne_blocked (h : reader ≠ .blocked) :
    reader.signal = reader := by
  cases reader with
  | blocked => exact absurd rfl h
  | _ => rfl

end Reader

/-- A queue behind a mutex, with any number of writers and one reader. `put` and `taken` list
the messages that went in and came out, and `told` records that the reader was signalled when
the flag to stop was set. -/
structure Mailbox (α : Type*) where
  queue : List α
  reader : Reader α
  put : List α
  taken : List α
  told : Bool
  deriving DecidableEq

namespace Mailbox

variable {α : Type*}

def start : Mailbox α := ⟨[], .top, [], [], false⟩

/-- The critical section of a writer: only the first message of a queue is signalled. -/
def add (message : α) (box : Mailbox α) : Option (Mailbox α) :=
  if box.reader.holds then none
  else some { box with
    queue := box.queue ++ [message]
    reader := if box.queue = [] then box.reader.signal else box.reader
    put := box.put ++ [message] }

/-- A step of the reader; `stop` is the flag as it reads it. -/
def read (stop : Bool) (box : Mailbox α) : Option (Mailbox α) :=
  match box.reader with
  | .top =>
    match box.queue with
    | [] => some { box with reader := .empty }
    | message :: queue =>
      some { box with queue := queue, reader := .busy message, taken := box.taken ++ [message] }
  | .empty => some { box with reader := if stop then .leaving else .toWait }
  | .toWait => some { box with reader := .blocked }
  | .blocked => none
  | .woken => some { box with reader := .top }
  | .busy _ => some { box with reader := .top }
  | .leaving => some { box with reader := .left }
  | .left => none

def spurious (box : Mailbox α) : Option (Mailbox α) :=
  match box.reader with
  | .blocked => some { box with reader := .woken }
  | _ => none

/-- The critical section that tells the reader to look at the flag. -/
def tell (stop : Bool) (box : Mailbox α) : Option (Mailbox α) :=
  if box.reader.holds then none
  else some { box with reader := box.reader.signal, told := box.told || stop }

/-- Nothing is lost, doubled or reordered. -/
def InOrder (box : Mailbox α) : Prop := box.taken ++ box.queue = box.put

/-- The reader does not sleep when there is work. -/
def Awake (box : Mailbox α) : Prop := box.reader = .blocked → box.queue = []

def LeavesEmpty (box : Mailbox α) : Prop := box.reader = .leaving → box.queue = []

structure Served (box : Mailbox α) : Prop where
  inOrder : box.InOrder
  awake : box.Awake
  leavesEmpty : box.LeavesEmpty

structure Sound (stop : Bool) (box : Mailbox α) : Prop where
  inOrder : box.InOrder
  awake : box.Awake
  holds : box.reader.holds = true → box.queue = []
  toldStop : box.told = true → stop = true
  told : box.told = true → box.reader ≠ .blocked ∧ box.reader ≠ .toWait

variable {stop : Bool} {box box' : Mailbox α}

theorem Sound.served (h : Sound stop box) : Served box :=
  ⟨h.inOrder, h.awake, fun hleaving ↦ h.holds (by rw [hleaving]; rfl)⟩

theorem sound_start (stop : Bool) : Sound stop (start : Mailbox α) :=
  ⟨rfl, nofun, nofun, nofun, nofun⟩

theorem Sound.mono {stop' : Bool} (h : Sound stop box) (hstop : stop = true → stop' = true) :
    Sound stop' box where
  inOrder := h.inOrder
  awake := h.awake
  holds := h.holds
  toldStop := fun htold ↦ hstop (h.toldStop htold)
  told := h.told

theorem Sound.add {message : α} (h : Sound stop box) (hadd : box.add message = some box') :
    Sound stop box' := by
  unfold Mailbox.add at hadd
  by_cases hholds : box.reader.holds = true
  · rw [if_pos hholds] at hadd
    cases hadd
  rw [if_neg hholds] at hadd
  obtain rfl := Option.some.inj hadd
  have horder : box.taken ++ (box.queue ++ [message]) = box.put ++ [message] := by
    rw [← List.append_assoc, h.inOrder]
  have hholds' : box.reader.holds = false := Bool.eq_false_iff.mpr hholds
  by_cases hqueue : box.queue = []
  -- the queue was empty, and the signal ends a wait
  · simp only [hqueue, if_true, List.nil_append] at horder ⊢
    refine ⟨horder, fun hpc ↦ absurd hpc (Reader.signal_ne_blocked _), ?_, h.toldStop, ?_⟩
    · intro hpc
      rw [Reader.holds_signal, hholds'] at hpc
      cases hpc
    · exact fun _ ↦ ⟨Reader.signal_ne_blocked _, Reader.signal_ne_toWait hholds'⟩
  -- there was work, so there is no wait to end
  · simp only [if_neg hqueue]
    refine ⟨horder, fun hpc ↦ absurd (h.awake hpc) hqueue, ?_, h.toldStop, h.told⟩
    exact fun hpc ↦ absurd (h.holds hpc) hqueue

theorem Sound.read (h : Sound stop box) (hread : box.read stop = some box') :
    Sound stop box' := by
  obtain ⟨queue, reader, put, taken, told⟩ := box
  have horder : taken ++ queue = put := h.inOrder
  cases reader with
  | top =>
    cases queue with
    | nil =>
      obtain rfl := Option.some.inj hread
      exact ⟨horder, nofun, fun _ ↦ rfl, h.toldStop, fun _ ↦ ⟨nofun, nofun⟩⟩
    | cons message queue =>
      obtain rfl := Option.some.inj hread
      refine ⟨?_, nofun, nofun, h.toldStop, fun _ ↦ ⟨nofun, nofun⟩⟩
      rw [InOrder, List.append_assoc]
      exact horder
  | empty =>
    have hqueue : queue = [] := h.holds rfl
    obtain rfl := Option.some.inj hread
    cases stop with
    | true => exact ⟨horder, nofun, fun _ ↦ hqueue, h.toldStop, fun _ ↦ ⟨nofun, nofun⟩⟩
    | false =>
      exact ⟨horder, nofun, fun _ ↦ hqueue, h.toldStop, fun htold ↦
        absurd (h.toldStop htold) Bool.false_ne_true⟩
  | toWait =>
    have hqueue : queue = [] := h.holds rfl
    obtain rfl := Option.some.inj hread
    exact ⟨horder, fun _ ↦ hqueue, nofun, h.toldStop, fun htold ↦ absurd rfl (h.told htold).2⟩
  | blocked => cases hread
  | woken | busy | leaving =>
    obtain rfl := Option.some.inj hread
    exact ⟨horder, nofun, nofun, h.toldStop, fun _ ↦ ⟨nofun, nofun⟩⟩
  | left => cases hread

theorem Sound.spurious (h : Sound stop box) (hwake : box.spurious = some box') :
    Sound stop box' := by
  unfold Mailbox.spurious at hwake
  split at hwake
  · obtain rfl := Option.some.inj hwake
    exact ⟨h.inOrder, nofun, nofun, h.toldStop, fun _ ↦ ⟨nofun, nofun⟩⟩
  · cases hwake

theorem Sound.tell (h : Sound stop box) (htell : box.tell stop = some box') :
    Sound stop box' := by
  unfold Mailbox.tell at htell
  by_cases hholds : box.reader.holds = true
  · rw [if_pos hholds] at htell
    cases htell
  rw [if_neg hholds] at htell
  obtain rfl := Option.some.inj htell
  have hholds' : box.reader.holds = false := Bool.eq_false_iff.mpr hholds
  refine ⟨h.inOrder, fun hpc ↦ absurd hpc (Reader.signal_ne_blocked _), ?_, ?_, ?_⟩
  · intro hpc
    rw [Reader.holds_signal, hholds'] at hpc
    cases hpc
  · intro htold
    obtain h' | h' := Bool.or_eq_true_iff.mp htold
    · exact h.toldStop h'
    · exact h'
  · exact fun _ ↦ ⟨Reader.signal_ne_blocked _, Reader.signal_ne_toWait hholds'⟩

theorem InOrder.add {message : α} (h : box.InOrder) (hadd : box.add message = some box') :
    box'.InOrder ∧ box'.put = box.put ++ [message] := by
  unfold Mailbox.add at hadd
  split at hadd
  · cases hadd
  · obtain rfl := Option.some.inj hadd
    refine ⟨?_, rfl⟩
    rw [InOrder, ← h, List.append_assoc]

theorem InOrder.read (h : box.InOrder) (hread : box.read stop = some box') :
    box'.InOrder ∧ box'.put = box.put := by
  obtain ⟨queue, reader, put, taken, told⟩ := box
  cases reader with
  | top =>
    cases queue with
    | nil =>
      obtain rfl := Option.some.inj hread
      exact ⟨h, rfl⟩
    | cons message queue =>
      obtain rfl := Option.some.inj hread
      refine ⟨?_, rfl⟩
      rw [InOrder, List.append_assoc]
      exact h
  | blocked | left => cases hread
  | empty | toWait | woken | busy | leaving =>
    obtain rfl := Option.some.inj hread
    exact ⟨h, rfl⟩

/-- Waking the reader moves no message. -/
theorem InOrder.wake (h : box.InOrder)
    (hwake : box.spurious = some box' ∨ box.tell stop = some box') :
    box'.InOrder ∧ box'.put = box.put := by
  obtain hspurious | htell := hwake
  · unfold Mailbox.spurious at hspurious
    split at hspurious
    · obtain rfl := Option.some.inj hspurious
      exact ⟨h, rfl⟩
    · cases hspurious
  · unfold Mailbox.tell at htell
    split at htell
    · cases htell
    · obtain rfl := Option.some.inj htell
      exact ⟨h, rfl⟩

/-- One step of a writer, of the reader, or of whoever tells it to stop. -/
inductive Next (stop : Bool) (box box' : Mailbox α) : Prop
  | add (message : α) : box.add message = some box' → Next stop box box'
  | read : box.read stop = some box' → Next stop box box'
  | spurious : box.spurious = some box' → Next stop box box'
  | tell : box.tell stop = some box' → Next stop box box'

theorem Sound.next (h : Sound stop box) (hnext : Next stop box box') : Sound stop box' := by
  cases hnext with
  | add message hadd => exact h.add hadd
  | read hread => exact h.read hread
  | spurious hwake => exact h.spurious hwake
  | tell htell => exact h.tell htell

theorem Next.told (hnext : Next stop box box') (htold : box.told = true) : box'.told = true := by
  cases hnext with
  | add message hadd =>
    unfold Mailbox.add at hadd
    split at hadd
    · cases hadd
    · obtain rfl := Option.some.inj hadd
      exact htold
  | read hread =>
    unfold Mailbox.read at hread
    repeat' split at hread
    all_goals first
      | cases hread
        done
      | obtain rfl := Option.some.inj hread
        exact htold
  | spurious hwake =>
    unfold Mailbox.spurious at hwake
    split at hwake
    · obtain rfl := Option.some.inj hwake
      exact htold
    · cases hwake
  | tell htell =>
    unfold Mailbox.tell at htell
    split at htell
    · cases htell
    · obtain rfl := Option.some.inj htell
      exact Bool.or_eq_true_iff.mpr (.inl htold)

theorem told_tell (htell : box.tell true = some box') : box'.told = true := by
  unfold Mailbox.tell at htell
  split at htell
  · cases htell
  · obtain rfl := Option.some.inj htell
    exact Bool.or_true _

section Progress

variable {n : ℕ}

/-- How many steps the reader has still to take until `n` messages are taken. -/
def due (n : ℕ) (box : Mailbox α) : ℕ := 2 * (n - box.taken.length) + box.reader.turns - 1

/-- How many steps it has still to take until it leaves, if no message is put any more. -/
def toLeave (box : Mailbox α) : ℕ := 2 * box.queue.length + box.reader.toLeave

theorem due_eq (htaken : box'.taken = box.taken) (hturns : box'.reader.turns = box.reader.turns) :
    due n box' = due n box := by
  unfold due
  rw [htaken, hturns]

theorem due_add {message : α} (h : box.add message = some box') : due n box' = due n box := by
  obtain ⟨_, heq⟩ := Option.ite_none_left_eq_some.mp h
  obtain rfl := Option.some.inj heq
  refine due_eq rfl ?_
  dsimp only
  split
  · exact Reader.turns_signal _
  · rfl

theorem due_tell (h : box.tell stop = some box') : due n box' = due n box := by
  obtain ⟨_, heq⟩ := Option.ite_none_left_eq_some.mp h
  obtain rfl := Option.some.inj heq
  exact due_eq rfl (Reader.turns_signal _)

theorem due_spurious (h : box.spurious = some box') : due n box' = due n box := by
  obtain ⟨queue, reader, put, taken, told⟩ := box
  cases reader with
  | blocked =>
    obtain rfl := Option.some.inj h
    exact due_eq rfl rfl
  | _ => cases h

/-- As long as one of the messages is not taken, each step of the reader brings it nearer. -/
theorem Sound.due_read (h : Sound stop box) (hn : n ≤ box.put.length)
    (hread : box.read stop = some box') (hdue : 0 < due n box') : due n box' + 1 ≤ due n box := by
  have hempty : box.queue = [] → n ≤ box.taken.length := by
    intro hqueue
    rw [← h.inOrder, hqueue, List.append_nil] at hn
    exact hn
  obtain ⟨queue, reader, put, taken, told⟩ := box
  unfold due at hdue ⊢
  cases reader with
  | top =>
    cases queue with
    | nil =>
      obtain rfl := Option.some.inj hread
      have hle := hempty rfl
      simp only [Reader.turns] at hdue hle
      omega
    | cons message queue =>
      obtain rfl := Option.some.inj hread
      simp only [Reader.turns, List.length_append, List.length_singleton] at hdue ⊢
      omega
  | empty | toWait | leaving =>
    have htaken : box'.taken = taken := by
      obtain rfl := Option.some.inj hread
      rfl
    have hle : n ≤ taken.length := hempty (h.holds rfl)
    have hturns := Reader.turns_le_one box'.reader
    rw [htaken] at hdue
    omega
  | woken | busy =>
    obtain rfl := Option.some.inj hread
    simp only [Reader.turns] at hdue ⊢
    omega
  | blocked | left => cases hread

/-- A reader that is told to stop is on its way out when it finds no message. -/
theorem Sound.toLeave_read (h : Sound true box) (htold : box.told = true)
    (hread : box.read true = some box') : box'.toLeave + 1 ≤ box.toLeave := by
  have hreader := h.told htold
  obtain ⟨queue, reader, put, taken, told⟩ := box
  unfold toLeave
  cases reader with
  | top =>
    cases queue with
    | nil =>
      obtain rfl := Option.some.inj hread
      exact Nat.le_refl _
    | cons message queue =>
      obtain rfl := Option.some.inj hread
      simp only [Reader.toLeave, List.length_cons]
      omega
  | toWait => exact absurd rfl hreader.2
  | empty | leaving | woken | busy =>
    obtain rfl := Option.some.inj hread
    exact Nat.le_refl _
  | blocked | left => cases hread

theorem toLeave_add {message : α} (h : Sound stop box) (htold : box.told = true)
    (hadd : box.add message = some box') : box'.toLeave ≤ box.toLeave + 2 := by
  obtain ⟨_, heq⟩ := Option.ite_none_left_eq_some.mp hadd
  obtain rfl := Option.some.inj heq
  unfold toLeave
  dsimp only
  rw [Reader.signal_of_ne_blocked (h.told htold).1, ite_self, List.length_append,
    List.length_singleton]
  omega

theorem toLeave_tell (h : Sound stop box) (htold : box.told = true)
    (htell : box.tell stop = some box') : box'.toLeave = box.toLeave := by
  obtain ⟨_, heq⟩ := Option.ite_none_left_eq_some.mp htell
  obtain rfl := Option.some.inj heq
  unfold toLeave
  dsimp only
  rw [Reader.signal_of_ne_blocked (h.told htold).1]

theorem toLeave_spurious (h : Sound stop box) (htold : box.told = true)
    (hwake : box.spurious = some box') : box'.toLeave ≤ box.toLeave := by
  obtain ⟨queue, reader, put, taken, told⟩ := box
  cases reader with
  | blocked => exact absurd rfl (h.told htold).1
  | _ => cases hwake

/-- The reader can take a step unless it waits for a message, or has left. -/
theorem isSome_read (hblocked : box.reader ≠ .blocked) (hleft : box.reader ≠ .left) :
    (box.read stop).isSome = true := by
  unfold read
  split
  · split <;> rfl
  · rfl
  · rfl
  · exact absurd ‹_› hblocked
  · rfl
  · rfl
  · rfl
  · exact absurd ‹_› hleft

theorem toLeave_pos (h : box.reader ≠ .left) : 0 < box.toLeave := by
  unfold toLeave
  cases hreader : box.reader with
  | left => exact absurd hreader h
  | _ => exact Nat.add_pos_right _ (Nat.succ_pos _)

/-- A step with the turns it takes the reader, and the messages that it puts. -/
inductive Moves (stop : Bool) (box box' : Mailbox α) : ℕ → ℕ → Prop
  | read : box.read stop = some box' → Moves stop box box' 1 0
  | add (message : α) : box.add message = some box' → Moves stop box box' 0 1
  | spurious : box.spurious = some box' → Moves stop box box' 0 0
  | tell : box.tell stop = some box' → Moves stop box box' 0 0
  | stay : box' = box → Moves stop box box' 0 0

variable {own puts : ℕ}

theorem Moves.due (h : Moves stop box box' own puts) (hsound : Sound stop box)
    (hn : n ≤ box.put.length) (hdue : 0 < Mailbox.due n box') :
    own + Mailbox.due n box' ≤ Mailbox.due n box := by
  cases h with
  | read hread =>
    rw [Nat.add_comm]
    exact hsound.due_read hn hread hdue
  | add message hadd => exact Nat.le_of_eq ((Nat.zero_add _).trans (due_add hadd))
  | spurious hwake => exact Nat.le_of_eq ((Nat.zero_add _).trans (due_spurious hwake))
  | tell htell => exact Nat.le_of_eq ((Nat.zero_add _).trans (due_tell htell))
  | stay heq => exact Nat.le_of_eq ((Nat.zero_add _).trans (heq ▸ rfl))

theorem Moves.toLeave (h : Moves true box box' own puts) (hsound : Sound true box)
    (htold : box.told = true) : own + box'.toLeave ≤ box.toLeave + 2 * puts := by
  cases h with
  | read hread =>
    have hle := hsound.toLeave_read htold hread
    omega
  | add message hadd =>
    have hle := toLeave_add hsound htold hadd
    omega
  | spurious hwake =>
    have hle := toLeave_spurious hsound htold hwake
    omega
  | tell htell =>
    have hle := toLeave_tell hsound htold htell
    omega
  | stay heq =>
    rw [heq]
    omega

/-- No message that was put is forgotten. -/
theorem Moves.put (h : Moves stop box box' own puts) (hsound : Sound stop box) :
    box.put <+: box'.put := by
  cases h with
  | read hread => exact (InOrder.read hsound.inOrder hread).2 ▸ List.prefix_rfl
  | add message hadd => exact (InOrder.add hsound.inOrder hadd).2 ▸ List.prefix_append _ _
  | spurious hwake =>
    have hput := (@InOrder.wake _ stop _ _ hsound.inOrder (.inl hwake)).2
    exact hput ▸ List.prefix_rfl
  | tell htell => exact (InOrder.wake hsound.inOrder (.inr htell)).2 ▸ List.prefix_rfl
  | stay heq => exact heq ▸ List.prefix_rfl

end Progress

end Mailbox

end Parodus.Foundation
