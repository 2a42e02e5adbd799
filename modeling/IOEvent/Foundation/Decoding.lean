/-
  Decoding a stream of framed messages, and why it does not matter how the stream arrives.

  A `FrameParser` takes one message off the front of its input, or says that it cannot (yet).
  What makes it a parser of FRAMES is `stable`: once a message has been found, more input behind
  it changes nothing.  `Decodes` is the whole decoding of an input: the messages taken off one
  after another, and the rest at which the parser stops.  It has at most one result
  (`Decodes.unique`), and it can be interrupted anywhere: decoding what has arrived and then the
  rest with what comes next is decoding all of it (`Decodes.append`).

  From the sender's side, `arrived` says which messages have come through when the first bytes of
  their frames have: those whose frames are complete, and so some of the first messages.

  The two laws are what fails for a decoder that looks at how much has arrived: `stable` then
  breaks, and with it `Decodes.append`.  A receiver that keeps the rest and runs its parser
  again on each arrival is this library's `Decodes`, one `append` for each arrival.
-/
import Mathlib.Data.List.Basic

namespace Foundation

/-- A decoder of frames, by its one step. The two laws are those that let a stream be cut
    anywhere: a message takes some of the input away, and what it took is decided by what it
    took. -/
structure FrameParser (α μ : Type) where
  /-- The first message of the input, and what is left behind it. -/
  next : List α → Option (μ × List α)
  shrinks : ∀ {c m r}, next c = some (m, r) → r.length < c.length
  stable : ∀ {c m r}, next c = some (m, r) → ∀ d, next (c ++ d) = some (m, r ++ d)

variable {α μ : Type}

/-- `Decodes p c ms r`: from the input `c` the parser takes the messages `ms`, and stops at `r`. -/
inductive Decodes (p : FrameParser α μ) : List α → List μ → List α → Prop
  | stop {c : List α} (h : p.next c = none) : Decodes p c [] c
  | next {c r r' : List α} {m : μ} {ms : List μ} (h : p.next c = some (m, r))
      (hrest : Decodes p r ms r') : Decodes p c (m :: ms) r'

namespace Decodes

variable {p : FrameParser α μ} {c d r r' : List α} {ms ms' : List μ}

/-- What a buffer decodes to is determined: the messages and the rest. -/
theorem unique (h : Decodes p c ms r) (h' : Decodes p c ms' r') : ms = ms' ∧ r = r' := by
  induction h generalizing ms' r' with
  | stop hstop =>
    cases h' with
    | stop => exact ⟨rfl, rfl⟩
    | next hnext => rw [hstop] at hnext; cases hnext
  | next hnext _ ih =>
    cases h' with
    | stop hstop => rw [hnext] at hstop; cases hstop
    | next hnext' hrest' =>
      rw [hnext] at hnext'
      cases hnext'
      obtain ⟨hms, hr⟩ := ih hrest'
      exact ⟨by rw [hms], hr⟩

/-- The rest is never longer than what there was. -/
theorem length_le (h : Decodes p c ms r) : r.length ≤ c.length := by
  induction h with
  | stop _ => exact Nat.le_refl _
  | next hnext _ ih => exact Nat.le_of_lt (Nat.lt_of_le_of_lt ih (p.shrinks hnext))

/-- **Decoding can be interrupted**: the rest is decoded together with what arrives later. -/
theorem append (h : Decodes p c ms r) (h' : Decodes p (r ++ d) ms' r') :
    Decodes p (c ++ d) (ms ++ ms') r' := by
  induction h with
  | stop _ => exact h'
  | next hnext _ ih =>
    apply Decodes.next (p.stable hnext d)
    exact ih h'

end Decodes

/-- The messages whose frames `enc`, put one behind the other, lie within the first `n`
    elements. A frame of which a part has arrived does not count, nor does any behind it. -/
def arrived (enc : μ → List α) : Nat → List μ → List μ
  | _, [] => []
  | n, m :: ms => if (enc m).length ≤ n then m :: arrived enc (n - (enc m).length) ms else []

section Arrived

variable (enc : μ → List α)

/-- When everything is there, all have arrived. -/
theorem arrived_all : ∀ (n : Nat) (ms : List μ), (ms.flatMap enc).length ≤ n → arrived enc n ms = ms
  | _, [], _ => rfl
  | n, m :: ms, h => by
    rw [List.flatMap_cons, List.length_append] at h
    rw [arrived, if_pos (by omega), arrived_all _ ms (by omega)]

end Arrived

end Foundation
