import Mathlib

/-!
# Delivering frames in pieces

Frames and chunks are pairs of a byte string and a tag. A list of chunks delivers a list of
frames when the chunks lie one behind the other on the stream of all frames, from its first
byte on, each inside one frame and with its tag.
-/

namespace Delivery

variable {α τ : Type*}

/-- The stream of a list of frames or chunks. -/
def stream (xs : List (List α × τ)) : List α := xs.flatMap Prod.fst

@[simp] theorem stream_nil : stream ([] : List (List α × τ)) = [] := rfl

@[simp] theorem stream_append (xs ys : List (List α × τ)) :
    stream (xs ++ ys) = stream xs ++ stream ys := by
  simp [stream]

@[simp] theorem stream_cons (x : List α × τ) (xs : List (List α × τ)) :
    stream (x :: xs) = x.1 ++ stream xs := rfl

/-- The chunk `c`, sent when `sent` was already on its way, is the next piece of one frame. -/
def Placed (frames : List (List α × τ)) (sent : List α) (c : List α × τ) : Prop :=
  ∃ before f after pre post, frames = before ++ f :: after ∧ f.1 = pre ++ c.1 ++ post ∧
    c.2 = f.2 ∧ sent = stream before ++ pre

/-- The chunks deliver the frames in order, without loss, repetition or mixing. -/
structure Delivers (frames chunks : List (List α × τ)) : Prop where
  inOrder : stream chunks <+: stream frames
  placed : ∀ earlier c later, chunks = earlier ++ c :: later → Placed frames (stream earlier) c

theorem delivers_nil (frames : List (List α × τ)) : Delivers frames [] where
  inOrder := List.nil_prefix
  placed earlier c later h := by simp at h

/-- A further frame changes nothing for the chunks that were sent. -/
theorem Delivers.frame {frames chunks : List (List α × τ)} (h : Delivers frames chunks)
    (f : List α × τ) : Delivers (frames ++ [f]) chunks where
  inOrder := by
    rw [stream_append]
    exact h.inOrder.trans (List.prefix_append _ _)
  placed earlier c later hc := by
    obtain ⟨before, g, after, pre, post, rfl, hg, htag, hsent⟩ := h.placed earlier c later hc
    exact ⟨before, g, after ++ [f], pre, post, by simp, hg, htag, hsent⟩

/-- The next chunk: the next piece `c` of the frame `f`, of which `pre` is sent. -/
theorem Delivers.chunk {done rest chunks : List (List α × τ)} {f : List α × τ} {c : List α × τ}
    {pre post : List α} (h : Delivers (done ++ f :: rest) chunks)
    (hf : f.1 = pre ++ c.1 ++ post) (htag : c.2 = f.2)
    (hsent : stream chunks = stream done ++ pre) :
    Delivers (done ++ f :: rest) (chunks ++ [c]) where
  inOrder := by
    rw [stream_append, stream_cons, stream_nil, List.append_nil, hsent, stream_append,
      stream_cons, hf]
    exact ⟨post ++ stream rest, by simp⟩
  placed earlier d later hd := by
    rcases List.eq_nil_or_concat later with rfl | ⟨later, e, rfl⟩
    · obtain ⟨rfl, hcd⟩ := List.append_inj' hd rfl
      obtain rfl : c = d := by simpa using hcd
      exact ⟨done, f, rest, pre, post, rfl, hf, htag, hsent⟩
    · have hd' : chunks ++ [c] = (earlier ++ d :: later) ++ [e] := by simpa using hd
      exact h.placed earlier d later (List.append_inj' hd' rfl).1

end Delivery
