import Mathlib.Data.List.Basic

/-!
# Cutting a stream into frames

A byte stream arrives in pieces, and a receiver cuts frames off the front of what it holds. A
`Framing` is the test it applies: given the bytes held, either more are needed, or the front is
unacceptable, or the first `n` of them are a frame. The two laws say that a verdict other than
"more" does not change when more bytes arrive, and that a frame is not empty.

`drive` is the receiver's loop. It alternates the test with a handler that may stop it.
`drive_append` is why the pieces do not matter: handling what is there and then going on with
what is left and the rest of the stream is handling the stream. `drive_frames` says what the
loop does on a stream that is a list of frames and a tail.
-/

namespace PtpCore
namespace Lib

/-- The verdict on the bytes held. -/
inductive Next
  | more
  | bad
  | frame (n : Nat)
  deriving DecidableEq, Repr

structure Framing (α : Type) where
  next : List α → Next
  frame_pos : ∀ b n, next b = .frame n → 0 < n ∧ n ≤ b.length
  frame_append : ∀ b n e, next b = .frame n → next (b ++ e) = .frame n
  bad_append : ∀ b e, next b = .bad → next (b ++ e) = .bad

/-- Why the loop ended for good: the framing refused the front, or the handler stopped it. -/
inductive Halt (τ : Type)
  | bad
  | stopped (t : τ)
  deriving DecidableEq, Repr

namespace Framing

section

variable {α σ τ : Type} (F : Framing α) (handle : σ → List α → σ × Option τ)

/-- The receiver's loop, over the state of whoever handles the frames. The second component is
    what stays in the buffer. -/
def drive (w : σ) (b : List α) : σ × List α × Option (Halt τ) :=
  match _h : F.next b with
  | .more => (w, b, none)
  | .bad => (w, b, some .bad)
  | .frame n =>
    match handle w (b.take n) with
    | (w, some t) => (w, b, some (.stopped t))
    | (w, none) => drive w (b.drop n)
termination_by b.length
decreasing_by
  have hn := F.frame_pos b n _h
  rw [List.length_drop]
  omega

/-- Handling a list of items that is there as a whole. -/
def deliver {β : Type} (handle : σ → β → σ × Option τ) : σ → List β → σ × Option τ
  | w, [] => (w, none)
  | w, f :: fs =>
    match handle w f with
    | (w, some t) => (w, some t)
    | (w, none) => deliver handle w fs

variable {F} {handle} {w : σ} {b : List α}

theorem drive_more (h : F.next b = .more) : drive F handle w b = (w, b, none) := by
  rw [drive]
  split <;> simp_all

theorem drive_bad (h : F.next b = .bad) : drive F handle w b = (w, b, some .bad) := by
  rw [drive]
  split <;> simp_all

theorem drive_frame {n : Nat} (h : F.next b = .frame n) :
    drive F handle w b =
      match handle w (b.take n) with
      | (w, some t) => (w, b, some (.stopped t))
      | (w, none) => drive F handle w (b.drop n) := by
  rw [drive]
  split
  · simp_all
  · simp_all
  · rename_i m hm
    rw [h] at hm
    cases hm
    rfl

/-- The loop resumed on what it left, with more bytes behind it, is the loop on all of them. -/
theorem drive_append (w : σ) (b e : List α) :
    drive F handle w (b ++ e) =
      match drive F handle w b with
      | (w, r, none) => drive F handle w (r ++ e)
      | (w, r, some h) => (w, r ++ e, some h) := by
  induction hn : b.length using Nat.strongRecOn generalizing w b with
  | ind k ih =>
    cases hb : F.next b with
    | more => rw [drive_more hb]
    | bad => rw [drive_bad hb, drive_bad (F.bad_append b e hb)]
    | frame n =>
      obtain ⟨hpos, hle⟩ := F.frame_pos b n hb
      rw [drive_frame hb, drive_frame (F.frame_append b n e hb),
        List.take_append_of_le_length hle, List.drop_append_of_le_length hle]
      cases handle w (b.take n) with
      | mk w' t =>
        cases t with
        | some t => rfl
        | none => exact ih (b.drop n).length (by rw [List.length_drop]; omega) w' (b.drop n) rfl

variable (F) (handle) in
/-- On frames followed by a tail, the loop hands over the frames, in order, until the handler
    stops it; what is left is then the tail. -/
theorem drive_frames (w : σ) {fs : List (List α)} (t : List α)
    (hf : ∀ f ∈ fs, ∀ e, F.next (f ++ e) = .frame f.length) :
    (∀ w', deliver handle w fs = (w', none) →
        drive F handle w (fs.flatten ++ t) = drive F handle w' t) ∧
      ∀ w' x, deliver handle w fs = (w', some x) →
        ∃ r, drive F handle w (fs.flatten ++ t) = (w', r, some (.stopped x)) := by
  induction fs generalizing w with
  | nil =>
    constructor
    · intro w' h
      cases h
      rfl
    · intro w' x h
      cases h
  | cons f fs ih =>
    have hnext : F.next (f ++ (fs.flatten ++ t)) = .frame f.length := hf f (by simp) _
    rw [List.flatten_cons, List.append_assoc, drive_frame hnext, List.take_left, List.drop_left,
      deliver]
    cases handle w f with
    | mk w1 x1 =>
      cases x1 with
      | none => exact ih w1 fun g hg => hf g (by simp [hg])
      | some x1 =>
        constructor
        · intro w' h
          cases h
        · intro w' x h
          cases h
          exact ⟨_, rfl⟩

/-- What the handler keeps, the loop keeps; the handler sees only frames. -/
theorem drive_invariant {P : σ → Prop}
    (hkeep : ∀ w b n, P w → F.next b = .frame n → P (handle w (b.take n)).1) (hw : P w) :
    P (drive F handle w b).1 := by
  induction hn : b.length using Nat.strongRecOn generalizing w b with
  | ind k ih =>
    cases hb : F.next b with
    | more => rw [drive_more hb]; exact hw
    | bad => rw [drive_bad hb]; exact hw
    | frame n =>
      obtain ⟨hpos, hle⟩ := F.frame_pos b n hb
      have hw' := hkeep w b n hw hb
      rw [drive_frame hb]
      cases hh : handle w (b.take n) with
      | mk w' t =>
        rw [hh] at hw'
        cases t with
        | some t => exact hw'
        | none => exact ih (b.drop n).length (by rw [List.length_drop]; omega) hw' rfl

/-- A stop comes from the handler, on a frame. -/
theorem drive_stopped {t : τ} (h : (drive F handle w b).2.2 = some (.stopped t)) :
    ∃ w b n, F.next b = .frame n ∧ (handle w (b.take n)).2 = some t := by
  induction hn : b.length using Nat.strongRecOn generalizing w b with
  | ind k ih =>
    cases hb : F.next b with
    | more => rw [drive_more hb] at h; cases h
    | bad => rw [drive_bad hb] at h; cases h
    | frame n =>
      obtain ⟨hpos, hle⟩ := F.frame_pos b n hb
      rw [drive_frame hb] at h
      cases hh : handle w (b.take n) with
      | mk w' t' =>
        rw [hh] at h
        cases t' with
        | some t' =>
          cases h
          exact ⟨w, b, n, hb, by rw [hh]⟩
        | none => exact ih (b.drop n).length (by rw [List.length_drop]; omega) h rfl

/-- When the loop ends waiting for more, it has cut the bytes into frames and what is left. -/
theorem drive_cut {w' : σ} {r : List α} (h : drive F handle w b = (w', r, none)) :
    ∃ fs : List (List α), b = fs.flatten ++ r ∧ F.next r = .more ∧
      ∀ f ∈ fs, ∃ b n, F.next b = .frame n ∧ f = b.take n := by
  induction hn : b.length using Nat.strongRecOn generalizing w b with
  | ind k ih =>
    cases hb : F.next b with
    | more =>
      rw [drive_more hb] at h
      cases h
      exact ⟨[], rfl, hb, fun f hf => by cases hf⟩
    | bad => rw [drive_bad hb] at h; cases h
    | frame n =>
      obtain ⟨hpos, hle⟩ := F.frame_pos b n hb
      rw [drive_frame hb] at h
      cases hh : handle w (b.take n) with
      | mk w1 t =>
        rw [hh] at h
        cases t with
        | some t => cases h
        | none =>
          obtain ⟨fs, hcat, hmore, hfs⟩ :=
            ih (b.drop n).length (by rw [List.length_drop]; omega) h rfl
          refine ⟨b.take n :: fs, ?_, hmore, ?_⟩
          · rw [List.flatten_cons, List.append_assoc, ← hcat, List.take_append_drop]
          · intro f hf
            cases List.mem_cons.mp hf with
            | inl hf => exact ⟨b, n, hb, hf⟩
            | inr hf => exact hfs f hf

theorem deliver_append {β : Type} {handle : σ → β → σ × Option τ} {fs gs : List β} :
    deliver handle w (fs ++ gs) =
      match deliver handle w fs with
      | (w, some t) => (w, some t)
      | (w, none) => deliver handle w gs := by
  induction fs generalizing w with
  | nil => rfl
  | cons f fs ih =>
    rw [List.cons_append, deliver, deliver]
    cases handle w f with
    | mk w' t =>
      cases t with
      | some t => rfl
      | none => exact ih

/-- What there is of a stream of items: some of them whole, and the beginning of the next. -/
theorem cut_of_prefix {ps : List (List α)} {b : List α} (h : b <+: ps.flatten) :
    ∃ fs gs t, ps = fs ++ gs ∧ b = fs.flatten ++ t ∧
      (t = [] ∨ ∃ q ∈ ps, t <+: q ∧ t ≠ q) := by
  induction ps generalizing b with
  | nil => exact ⟨[], [], [], rfl, List.prefix_nil.mp h, .inl rfl⟩
  | cons p ps ih =>
    by_cases hp : p <+: b
    · obtain ⟨b', rfl⟩ := hp
      rw [List.flatten_cons, List.prefix_append_right_inj] at h
      obtain ⟨fs, gs, t, rfl, rfl, ht⟩ := ih h
      refine ⟨p :: fs, gs, t, rfl, by rw [List.flatten_cons, List.append_assoc], ?_⟩
      rcases ht with ht | ⟨q, hq, ht⟩
      · exact .inl ht
      · exact .inr ⟨q, List.mem_cons_of_mem p hq, ht⟩
    · have hb : b <+: p :=
        (List.prefix_or_prefix_of_prefix h (List.prefix_append p ps.flatten)).resolve_right hp
      refine ⟨[], p :: ps, b, rfl, rfl, .inr ⟨p, List.mem_cons_self, hb, ?_⟩⟩
      rintro rfl
      exact hp List.prefix_rfl

end

end Framing

end Lib
end PtpCore
