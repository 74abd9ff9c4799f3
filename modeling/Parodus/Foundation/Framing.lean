import Mathlib.Data.List.Induction
import Mathlib.Data.List.ReduceOption
import Mathlib.Logic.Function.Basic

namespace Parodus.Foundation

/-- Where a stream of frames is for its reader. -/
inductive Standing
  | between
  | inside
  | broken
  deriving DecidableEq

/-- Which frames begin a message, and which end one. -/
structure Framing (F : Type*) where
  first : F → Bool
  last : F → Bool

namespace Framing

variable {F β W : Type*} (c : Framing F)

/-- Where the stream is behind one more frame, or behind a frame that was broken off. There is no
such place if the frame cannot stand there. -/
def follow : Standing → Option F → Option Standing
  | _, none => some .broken
  | .between, some f => if c.first f then some (if c.last f then .between else .inside) else none
  | .inside, some f => if c.first f then none else some (if c.last f then .between else .inside)
  | .broken, some _ => none

def read (pieces : List (Option F)) : Option Standing := pieces.foldlM c.follow .between

/-- The frames of the messages that have ended, and those behind them. -/
def gather (frames : List F) : List (List F) × List F :=
  frames.foldl (fun r f ↦ if c.last f then (r.1 ++ [r.2 ++ [f]], []) else (r.1, r.2 ++ [f]))
    ([], [])

/-- The frames of one message. -/
def Message (frames : List F) : Prop :=
  ∃ front back, frames = front ++ [back] ∧ (∀ f ∈ front, c.last f = false) ∧
    c.last back = true ∧ (front = [] ∨ c.first back = false)

variable {c} {pieces : List (Option F)} {frames : List F} {f : F} {place : Standing}

theorem read_concat (pieces : List (Option F)) (piece : Option F) :
    c.read (pieces ++ [piece]) = (c.read pieces).bind fun place ↦ c.follow place piece := by
  rw [read, List.foldlM_append, ← read]
  exact congrArg (Option.bind _) (funext fun place ↦ Option.bind_fun_some _)

theorem gather_concat_last (h : c.last f = true) : c.gather (frames ++ [f]) =
    ((c.gather frames).1 ++ [(c.gather frames).2 ++ [f]], []) := by
  rw [gather, List.foldl_append, ← gather]
  exact if_pos h

theorem gather_concat (h : c.last f = false) :
    c.gather (frames ++ [f]) = ((c.gather frames).1, (c.gather frames).2 ++ [f]) := by
  rw [gather, List.foldl_append, ← gather]
  exact if_neg (Bool.eq_false_iff.mp h)

theorem follow_some {place' : Standing} (h : c.follow place (some f) = some place') :
    place ≠ .broken ∧ (c.first f = true ↔ place = .between) ∧
      place' = if c.last f then .between else .inside := by
  cases place with
  | between =>
    obtain ⟨hfirst, heq⟩ := Option.ite_none_right_eq_some.mp h
    exact ⟨nofun, ⟨fun _ ↦ rfl, fun _ ↦ hfirst⟩, (Option.some.inj heq).symm⟩
  | inside =>
    obtain ⟨hfirst, heq⟩ := Option.ite_none_left_eq_some.mp h
    exact ⟨nofun, ⟨fun htrue ↦ absurd htrue hfirst, nofun⟩, (Option.some.inj heq).symm⟩
  | broken => cases h

/-- A stream is broken where one of its frames was. -/
theorem broken_iff (h : c.read pieces = some place) : place = .broken ↔ none ∈ pieces := by
  induction pieces using List.reverseRecOn generalizing place with
  | nil =>
    obtain rfl : Standing.between = place := Option.some.inj h
    exact ⟨nofun, fun hmem ↦ absurd hmem List.not_mem_nil⟩
  | append_singleton pieces piece ih =>
    rw [read_concat] at h
    obtain ⟨before, hbefore, hfollow⟩ := Option.bind_eq_some_iff.mp h
    cases piece with
    | none =>
      obtain rfl : Standing.broken = place := Option.some.inj hfollow
      exact ⟨fun _ ↦ List.mem_append_right _ List.mem_cons_self, fun _ ↦ rfl⟩
    | some f =>
      obtain ⟨hnot, _, rfl⟩ := follow_some hfollow
      have hbroken : none ∉ pieces := fun hmem ↦ hnot ((ih hbefore).mpr hmem)
      constructor
      · intro heq
        split at heq <;> cases heq
      · intro hmem
        rcases List.mem_append.mp hmem with hmem | hmem
        · exact absurd hmem hbroken
        · cases List.mem_singleton.mp hmem

/-- A stream that can be read consists of messages, and of the frames of one that has not ended. -/
structure Gathered (c : Framing F) (frames : List F) (place : Standing) : Prop where
  eq : frames = (c.gather frames).1.flatten ++ (c.gather frames).2
  messages : ∀ message ∈ (c.gather frames).1, c.Message message
  rest : ∀ f ∈ (c.gather frames).2, c.last f = false
  between : place = .between ↔ (c.gather frames).2 = []
  unbroken : place ≠ .broken

theorem gathered (h : c.read (frames.map some) = some place) : Gathered c frames place := by
  induction frames using List.reverseRecOn generalizing place with
  | nil =>
    obtain rfl : Standing.between = place := Option.some.inj h
    exact ⟨rfl, List.forall_mem_nil _, List.forall_mem_nil _, Iff.rfl.trans (by simp [gather]),
      nofun⟩
  | append_singleton frames f ih =>
    rw [List.map_append, List.map_singleton, read_concat] at h
    obtain ⟨before, hbefore, hfollow⟩ := Option.bind_eq_some_iff.mp h
    have hgathered := ih hbefore
    obtain ⟨_, hfirst, rfl⟩ := follow_some hfollow
    cases hlast : c.last f with
    | true =>
      have hmessage : c.Message ((c.gather frames).2 ++ [f]) := by
        refine ⟨_, f, rfl, hgathered.rest, hlast, ?_⟩
        by_cases hbetween : before = .between
        · exact .inl (hgathered.between.mp hbetween)
        · exact .inr (Bool.eq_false_iff.mpr fun htrue ↦ hbetween (hfirst.mp htrue))
      constructor
      · rw [gather_concat_last hlast, List.flatten_append, List.flatten_singleton,
          List.append_nil, ← List.append_assoc, ← hgathered.eq]
      · rw [gather_concat_last hlast]
        exact List.forall_mem_append.mpr
          ⟨hgathered.messages, List.forall_mem_singleton.mpr hmessage⟩
      · rw [gather_concat_last hlast]
        exact List.forall_mem_nil _
      · rw [gather_concat_last hlast, if_pos rfl]
        exact ⟨fun _ ↦ rfl, fun _ ↦ rfl⟩
      · exact nofun
    | false =>
      constructor
      · rw [gather_concat hlast, ← List.append_assoc, ← hgathered.eq]
      · rw [gather_concat hlast]
        exact hgathered.messages
      · rw [gather_concat hlast]
        exact List.forall_mem_append.mpr ⟨hgathered.rest, List.forall_mem_singleton.mpr hlast⟩
      · rw [gather_concat hlast, if_neg Bool.false_ne_true]
        exact ⟨nofun, fun hnil ↦ absurd hnil (List.append_ne_nil_of_right_ne_nil _ nofun)⟩
      · exact nofun

theorem map_some_reduceOption (h : none ∉ pieces) : pieces.reduceOption.map some = pieces := by
  rw [List.reduceOption, List.map_filterMap]
  refine (List.filterMap_congr fun piece hpiece ↦ ?_).trans List.filterMap_some
  cases piece with
  | none => exact absurd hpiece h
  | some f => rfl

/-- The same of the frames that were not broken off. -/
theorem gathered_reduceOption (h : c.read pieces = some place) :
    ∃ place', Gathered c pieces.reduceOption place' := by
  induction pieces using List.reverseRecOn generalizing place with
  | nil => exact ⟨place, gathered h⟩
  | append_singleton pieces piece ih =>
    obtain ⟨before, hbefore, hfollow⟩ := Option.bind_eq_some_iff.mp ((read_concat _ _).symm.trans h)
    cases piece with
    | none =>
      have hframes : (pieces ++ [none]).reduceOption = pieces.reduceOption := by
        rw [List.reduceOption_append]
        exact List.append_nil _
      rw [hframes]
      exact ih hbefore
    | some f =>
      have hunbroken : none ∉ pieces ++ [some f] := by
        intro hmem
        rcases List.mem_append.mp hmem with hmem | hmem
        · exact (follow_some hfollow).1 ((broken_iff hbefore).mpr hmem)
        · cases List.mem_singleton.mp hmem
      refine ⟨place, gathered ?_⟩
      rw [map_some_reduceOption hunbroken]
      exact h

end Framing

/-- A stream with its writers, and which of them are inside a message there. -/
structure Channel (W F : Type*) where
  pieces : List (Option F)
  inside : W → Bool

namespace Channel

open Framing

variable {F β W : Type*} [DecidableEq W] (c : Framing F) (ch : Channel W F) (w : W)

/-- A writer writes a frame out. -/
def write (f : F) : Channel W F :=
  ⟨ch.pieces ++ [some f], Function.update ch.inside w (!c.last f)⟩

/-- A writer gives up its message. -/
def breakOff : Channel W F := ⟨ch.pieces ++ [none], Function.update ch.inside w false⟩

/-- No message was broken off, and no other writer is inside one. -/
def Undisturbed : Prop := none ∉ ch.pieces ∧ ∀ w' ≠ w, ch.inside w' = false

/-- The stream can be read, and is inside a message where one of its writers is. -/
structure Orderly : Prop where
  legal : (c.read ch.pieces).isSome = true
  sole : none ∉ ch.pieces → ∀ w w', ch.inside w = true → ch.inside w' = true → w = w'
  between : c.read ch.pieces = some .between → ∀ w, ch.inside w = false
  inside : c.read ch.pieces = some .inside → ∃ w, ch.inside w = true

variable {c ch w} {f : F} {w' : W}

theorem inside_write : (ch.write c w f).inside w = !c.last f := Function.update_self ..

theorem inside_write_of_ne (hne : w' ≠ w) : (ch.write c w f).inside w' = ch.inside w' :=
  Function.update_of_ne hne ..

theorem inside_breakOff : (ch.breakOff w).inside w = false := Function.update_self ..

theorem inside_breakOff_of_ne (hne : w' ≠ w) : (ch.breakOff w).inside w' = ch.inside w' :=
  Function.update_of_ne hne ..

theorem Orderly.follow (h : Orderly c ch) (hfirst : c.first f = !ch.inside w)
    (hundisturbed : Undisturbed ch w) :
    c.read (ch.pieces ++ [some f]) = some (if c.last f then .between else .inside) := by
  obtain ⟨place, hplace⟩ := Option.isSome_iff_exists.mp h.legal
  have hunbroken : place ≠ .broken := fun heq ↦ hundisturbed.1 ((broken_iff hplace).mp heq)
  rw [read_concat, hplace, Option.bind_some]
  cases place with
  | broken => exact absurd rfl hunbroken
  | between =>
    rw [h.between hplace w] at hfirst
    exact if_pos hfirst
  | inside =>
    obtain ⟨w', hw'⟩ := h.inside hplace
    have hw : w' = w := by
      by_contra hne
      rw [hundisturbed.2 w' hne] at hw'
      cases hw'
    rw [← hw, hw'] at hfirst
    exact if_neg (Bool.eq_false_iff.mp hfirst)

theorem Orderly.write (h : Orderly c ch) (hfirst : c.first f = !ch.inside w)
    (hundisturbed : Undisturbed ch w) : Orderly c (ch.write c w f) := by
  have hread := h.follow hfirst hundisturbed
  have hother : ∀ w' ≠ w, (ch.write c w f).inside w' = false := fun w' hne ↦
    (inside_write_of_ne hne).trans (hundisturbed.2 w' hne)
  have heq : ∀ w', (ch.write c w f).inside w' = true → w' = w := by
    intro w' hw'
    by_contra hne
    rw [hother w' hne] at hw'
    cases hw'
  constructor
  · exact Option.isSome_of_mem hread
  · intro _ w₁ w₂ h₁ h₂
    exact (heq w₁ h₁).trans (heq w₂ h₂).symm
  · intro hbetween w'
    by_cases hne : w' = w
    · rw [hne, inside_write]
      rw [Channel.write, hread] at hbetween
      cases hlast : c.last f with
      | true => rfl
      | false =>
        rw [hlast] at hbetween
        cases hbetween
    · exact hother w' hne
  · intro hinside
    refine ⟨w, ?_⟩
    rw [inside_write]
    rw [Channel.write, hread] at hinside
    cases hlast : c.last f with
    | true =>
      rw [hlast] at hinside
      cases hinside
    | false => rfl

theorem read_breakOff (h : Orderly c ch) : c.read (ch.breakOff w).pieces = some .broken := by
  obtain ⟨place, hplace⟩ := Option.isSome_iff_exists.mp h.legal
  rw [breakOff, read_concat, hplace]
  rfl

theorem Orderly.breakOff (h : Orderly c ch) : Orderly c (ch.breakOff w) := by
  have hread := read_breakOff h (w := w)
  constructor
  · exact Option.isSome_of_mem hread
  · exact fun hnot ↦ absurd (List.mem_append_right _ List.mem_cons_self) hnot
  · rw [hread]
    exact nofun
  · rw [hread]
    exact nofun

/-- A frame that disturbs a message cannot be read. -/
theorem Orderly.disturb (h : Orderly c ch) (hfirst : c.first f = !ch.inside w)
    (hnot : ¬ Undisturbed ch w) : c.read (ch.write c w f).pieces = none := by
  obtain ⟨place, hplace⟩ := Option.isSome_iff_exists.mp h.legal
  rw [Channel.write, read_concat, hplace, Option.bind_some]
  by_cases hbroken : none ∈ ch.pieces
  · obtain rfl := (broken_iff hplace).mpr hbroken
    rfl
  · obtain ⟨w', hne, hw'⟩ : ∃ w', w' ≠ w ∧ ch.inside w' = true := by
      by_contra hnone
      refine hnot ⟨hbroken, fun w' hne ↦ Bool.eq_false_iff.mpr fun hw' ↦ hnone ⟨w', hne, hw'⟩⟩
    have hw : ch.inside w = false :=
      Bool.eq_false_iff.mpr fun hw ↦ hne (h.sole hbroken w' w hw' hw)
    cases place with
    | between =>
      rw [h.between hplace w'] at hw'
      cases hw'
    | inside =>
      rw [hw] at hfirst
      exact if_pos hfirst
    | broken => exact absurd ((broken_iff hplace).mp rfl) hbroken

/-- The messages that have ended hold what was sent, and the frames behind them what a writer has
written of its message. -/
structure Carries (c : Framing F) (payload : F → List β) (ch : Channel W F) (sent : List (List β))
    (pending : W → List β) : Prop where
  ended : (c.gather ch.pieces.reduceOption).1.map (List.flatMap payload) = sent
  begun : ∀ w, ch.inside w = true →
    (c.gather ch.pieces.reduceOption).2.flatMap payload = pending w

variable {payload : F → List β} {sent : List (List β)} {pending pending' : W → List β}

omit [DecidableEq W] in
theorem Orderly.gathered (h : Orderly c ch) (hunbroken : none ∉ ch.pieces) :
    ∃ place, c.read ch.pieces = some place ∧ Gathered c ch.pieces.reduceOption place := by
  obtain ⟨place, hplace⟩ := Option.isSome_iff_exists.mp h.legal
  refine ⟨place, hplace, Framing.gathered ?_⟩
  rw [map_some_reduceOption hunbroken]
  exact hplace

/-- What is pending of a writer that is about to write. -/
theorem Carries.pending_eq (h : Carries c payload ch sent pending) (horderly : Orderly c ch)
    (hundisturbed : Undisturbed ch w) (hnothing : ch.inside w = false → pending w = []) :
    (c.gather ch.pieces.reduceOption).2.flatMap payload = pending w := by
  cases hw : ch.inside w with
  | true => exact h.begun w hw
  | false =>
    obtain ⟨place, hplace, hgathered⟩ := horderly.gathered hundisturbed.1
    have hbetween : place = .between := by
      cases place with
      | between => rfl
      | broken => exact absurd rfl hgathered.unbroken
      | inside =>
        obtain ⟨w', hw'⟩ := horderly.inside hplace
        by_cases hne : w' = w
        · rw [hne, hw] at hw'
          cases hw'
        · rw [hundisturbed.2 w' hne] at hw'
          cases hw'
    rw [hgathered.between.mp hbetween, hnothing hw]
    rfl

theorem reduceOption_write : (ch.write c w f).pieces.reduceOption =
    ch.pieces.reduceOption ++ [f] := by
  rw [write, List.reduceOption_append]
  rfl

theorem Carries.writeLast (h : Carries c payload ch sent pending) (horderly : Orderly c ch)
    (hundisturbed : Undisturbed ch w) (hnothing : ch.inside w = false → pending w = [])
    (hlast : c.last f = true) :
    Carries c payload (ch.write c w f) (sent ++ [pending w ++ payload f]) pending' := by
  have hpending := h.pending_eq horderly hundisturbed hnothing
  constructor
  · rw [reduceOption_write, gather_concat_last hlast, List.map_append, h.ended,
      List.map_singleton, List.flatMap_append, hpending, List.flatMap_singleton]
  · intro w' hw'
    by_cases hne : w' = w
    · rw [hne, inside_write, hlast] at hw'
      cases hw'
    · rw [inside_write_of_ne hne, hundisturbed.2 w' hne] at hw'
      cases hw'

theorem Carries.write (h : Carries c payload ch sent pending) (horderly : Orderly c ch)
    (hundisturbed : Undisturbed ch w) (hnothing : ch.inside w = false → pending w = [])
    (hlast : c.last f = false) (hpending' : pending' w = pending w ++ payload f) :
    Carries c payload (ch.write c w f) sent pending' := by
  have hpending := h.pending_eq horderly hundisturbed hnothing
  constructor
  · rw [reduceOption_write, gather_concat hlast, h.ended]
  · intro w' hw'
    by_cases hne : w' = w
    · rw [hne, hpending', reduceOption_write, gather_concat hlast, List.flatMap_append, hpending,
        List.flatMap_singleton]
    · rw [inside_write_of_ne hne, hundisturbed.2 w' hne] at hw'
      cases hw'

theorem Carries.breakOff (h : Carries c payload ch sent pending)
    (hpending : ∀ w' ≠ w, pending' w' = pending w') :
    Carries c payload (ch.breakOff w) sent pending' := by
  have hframes : (ch.breakOff w).pieces.reduceOption = ch.pieces.reduceOption := by
    rw [Channel.breakOff, List.reduceOption_append]
    exact List.append_nil _
  constructor
  · rw [hframes, h.ended]
  · intro w' hw'
    by_cases hne : w' = w
    · rw [hne, inside_breakOff] at hw'
      cases hw'
    · rw [inside_breakOff_of_ne hne] at hw'
      rw [hframes, h.begun w' hw', hpending w' hne]

end Channel

end Parodus.Foundation
