/-
Incremental decoding of a stream of self-delimiting frames.  A decoder takes one
frame off the front of a list; draining it repeatedly over a stream that arrives
in pieces gives the same frames as over the whole stream, and over a prefix of
encoded frames it gives exactly the frames whose last element has arrived.
-/
import Mathlib.Data.List.Basic
import Mathlib.Data.List.Infix

namespace Foundation

universe u v

variable {A : Type u} {F : Type v}

/-- A frame decoder: it consumes something whenever it succeeds, and what comes
later cannot change a frame it has recognised. -/
structure Decoder (A : Type u) (F : Type v) where
  next : List A → Option (F × List A)
  shrinks : ∀ {input frame rest}, next input = some (frame, rest) →
    rest.length < input.length
  stable : ∀ {input frame rest}, next input = some (frame, rest) →
    ∀ more, next (input ++ more) = some (frame, rest ++ more)

namespace Decoder

/-- Decode frames from the front until none is left. -/
def drain (d : Decoder A F) (input : List A) : List F × List A :=
  match h : d.next input with
  | none => ([], input)
  | some (frame, rest) =>
      have : rest.length < input.length := d.shrinks h
      ((drain d rest).1.cons frame, (drain d rest).2)
termination_by input.length

variable {d : Decoder A F}

theorem drain_of_none {input : List A} (h : d.next input = none) :
    d.drain input = ([], input) := by
  rw [drain]
  split
  · rfl
  · next hsome => rw [h] at hsome; contradiction

theorem drain_of_some {input rest : List A} {frame : F}
    (h : d.next input = some (frame, rest)) :
    d.drain input = (frame :: (d.drain rest).1, (d.drain rest).2) := by
  rw [drain]
  split
  · next hnone => rw [h] at hnone; contradiction
  · next frame' rest' hsome =>
      rw [h, Option.some.injEq, Prod.mk.injEq] at hsome
      rw [hsome.1, hsome.2]

/-- Nothing more can be decoded from what draining leaves. -/
theorem next_drain (d : Decoder A F) (input : List A) :
    d.next (d.drain input).2 = none := by
  induction input using drain.induct d with
  | case1 input hnone => rwa [drain_of_none hnone]
  | case2 input frame rest hsome _ ih => rwa [drain_of_some hsome]

/-- Draining in two pieces: the second piece continues from what the first one
left undecoded. -/
theorem drain_append (d : Decoder A F) (input more : List A) :
    d.drain (input ++ more) =
      ((d.drain input).1 ++ (d.drain ((d.drain input).2 ++ more)).1,
        (d.drain ((d.drain input).2 ++ more)).2) := by
  induction input using drain.induct d with
  | case1 input hnone => simp [drain_of_none hnone]
  | case2 input frame rest hsome _ ih =>
      rw [drain_of_some hsome, drain_of_some (d.stable hsome more), ih]
      simp

/-! ### Encoded streams -/

/-- The frames of a list whose encodings lie within the first `n` elements of
the encoded stream. -/
def framesWithin (encode : F → List A) : List F → Nat → Nat
  | [], _ => 0
  | frame :: rest, n =>
      if (encode frame).length ≤ n then
        framesWithin encode rest (n - (encode frame).length) + 1
      else 0

theorem framesWithin_le (encode : F → List A) (frames : List F) :
    ∀ n, framesWithin encode frames n ≤ frames.length := by
  induction frames with
  | nil => exact fun _ => Nat.le_refl _
  | cons frame rest ih =>
      intro n
      rw [framesWithin]
      split
      · exact Nat.succ_le_succ (ih _)
      · exact Nat.zero_le _

theorem framesWithin_mono (encode : F → List A) (frames : List F) :
    ∀ {n m : Nat}, n ≤ m → framesWithin encode frames n ≤ framesWithin encode frames m := by
  induction frames with
  | nil => exact fun _ => Nat.le_refl _
  | cons frame rest ih =>
      intro n m hle
      rw [framesWithin, framesWithin]
      by_cases hfits : (encode frame).length ≤ n
      · rw [if_pos hfits, if_pos (hfits.trans hle)]
        exact Nat.succ_le_succ (ih (Nat.sub_le_sub_right hle _))
      · rw [if_neg hfits]
        exact Nat.zero_le _

section Encoded

variable {encode : F → List A} {Valid : F → Prop}

/-- A proper prefix of an encoding does not decode. -/
theorem next_of_short
    (hdecode : ∀ frame, Valid frame → ∀ more,
      d.next (encode frame ++ more) = some (frame, more))
    {frame : F} (hvalid : Valid frame) {input : List A}
    (hpart : input <+: encode frame)
    (hshort : input.length < (encode frame).length) : d.next input = none := by
  cases hnext : d.next input with
  | none => rfl
  | some result =>
      obtain ⟨more, hmore⟩ := hpart
      have hstable := d.stable hnext more
      have hwhole := hdecode frame hvalid []
      rw [List.append_nil, ← hmore, hstable, Option.some.injEq,
        Prod.mk.injEq] at hwhole
      have hnil : more = [] := (List.append_eq_nil_iff.mp hwhole.2).2
      rw [← hmore, hnil, List.append_nil] at hshort
      exact absurd hshort (Nat.lt_irrefl _)

/-- Draining a prefix of an encoded stream gives the frames that are complete in
it and leaves the elements behind them. -/
theorem drain_prefix
    (hdecode : ∀ frame, Valid frame → ∀ more,
      d.next (encode frame ++ more) = some (frame, more))
    {frames : List F} (hvalid : ∀ frame ∈ frames, Valid frame)
    (hnil : d.next [] = none) {input : List A}
    (hpart : input <+: frames.flatMap encode) :
    d.drain input =
      (frames.take (framesWithin encode frames input.length),
        input.drop ((frames.take
          (framesWithin encode frames input.length)).flatMap encode).length) := by
  induction frames generalizing input with
  | nil =>
      rw [List.flatMap_nil, List.prefix_nil] at hpart
      rw [hpart, drain_of_none hnil]
      rfl
  | cons frame rest ih =>
      rw [List.flatMap_cons] at hpart
      have hframe := hvalid frame List.mem_cons_self
      by_cases hlen : (encode frame).length ≤ input.length
      · obtain ⟨tail, rfl⟩ : encode frame <+: input :=
          List.prefix_of_prefix_length_le (List.prefix_append _ _) hpart hlen
        have htail : tail <+: rest.flatMap encode :=
          (List.prefix_append_right_inj _).mp hpart
        have hrest := ih
          (fun other hother => hvalid other (List.mem_cons_of_mem _ hother)) htail
        rw [drain_of_some (hdecode frame hframe tail), hrest, framesWithin,
          if_pos hlen]
        simp [List.drop_append]
      · have hshort : input <+: encode frame :=
          List.prefix_of_prefix_length_le hpart (List.prefix_append _ _)
            (Nat.le_of_not_le hlen)
        rw [drain_of_none (next_of_short hdecode hframe hshort
          (Nat.lt_of_not_le hlen)), framesWithin, if_neg hlen]
        simp

end Encoded

end Decoder

end Foundation
