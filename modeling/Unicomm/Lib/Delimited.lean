import Mathlib.Data.List.Basic

/-!
# `Lib.Delimited` — delimiter-terminated frames in a stream that arrives in pieces

`split d s` cuts a stream into its complete frames (the segments that end in the delimiter `d`, given
without it) and the unfinished tail. A receiver never sees the stream: it sees pieces, keeps the tail of what
it has and appends the next piece. `split_append` says that this does not matter: cutting the first piece and
then its tail together with the second gives the frames of the whole. `split_flatten` says which frames these
are when the sender put whole frames on the stream.
-/

namespace Delimited

variable {α : Type*} [DecidableEq α]

/-- The complete frames of a stream, without their delimiters, and the unfinished tail. -/
def split (d : α) : List α → List (List α) × List α
  | []     => ([], [])
  | a :: s =>
      if a = d then ([] :: (split d s).1, (split d s).2)
      else match split d s with
        | ([], t)      => ([], a :: t)
        | (f :: fs, t) => ((a :: f) :: fs, t)

@[simp] theorem split_nil (d : α) : split d [] = ([], []) := rfl

/-- The first frame is what stands before the first delimiter; the rest is cut on its own. -/
theorem split_frame {d : α} {f : List α} (hf : d ∉ f) (s : List α) :
    split d (f ++ d :: s) = (f :: (split d s).1, (split d s).2) := by
  induction f with
  | nil => simp [split]
  | cons a f ih =>
      have ha : a ≠ d := fun h => hf (h ▸ List.mem_cons_self)
      have hf' : d ∉ f := fun h => hf (List.mem_cons_of_mem a h)
      rw [List.cons_append, split, if_neg ha, ih hf']

/-- A stream without a delimiter is all tail. -/
theorem split_open {d : α} {t : List α} (ht : d ∉ t) : split d t = ([], t) := by
  induction t with
  | nil => rfl
  | cons a t ih =>
      have ha : a ≠ d := fun h => ht (h ▸ List.mem_cons_self)
      have ht' : d ∉ t := fun h => ht (List.mem_cons_of_mem a h)
      rw [split, if_neg ha, ih ht']

/-- The tail holds no delimiter. -/
theorem notMem_tail (d : α) (s : List α) : d ∉ (split d s).2 := by
  induction s with
  | nil => simp
  | cons a s ih =>
      by_cases ha : a = d
      · rw [split, if_pos ha]; exact ih
      · rw [split, if_neg ha]
        rcases hs : split d s with ⟨_ | ⟨f, fs⟩, t⟩
        · rw [hs] at ih
          simp only [List.mem_cons, not_or]
          exact ⟨Ne.symm ha, ih⟩
        · rw [hs] at ih; exact ih

/-- Every stream is its complete frames followed by its tail. -/
theorem split_eq (d : α) (s : List α) :
    s = ((split d s).1.map (· ++ [d])).flatten ++ (split d s).2 := by
  induction s with
  | nil => rfl
  | cons a s ih =>
      by_cases ha : a = d
      · rw [split, if_pos ha]
        simpa [ha] using ih
      · rw [split, if_neg ha]
        rcases hs : split d s with ⟨_ | ⟨f, fs⟩, t⟩ <;> rw [hs] at ih <;> simpa using ih

/-- A frame holds no delimiter. -/
theorem notMem_frame {d : α} {s f : List α} (hf : f ∈ (split d s).1) : d ∉ f := by
  induction s generalizing f with
  | nil => simp at hf
  | cons a s ih =>
      by_cases ha : a = d
      · rw [split, if_pos ha] at hf
        rcases List.mem_cons.mp hf with rfl | h
        · simp
        · exact ih h
      · rw [split, if_neg ha] at hf
        rcases hs : split d s with ⟨_ | ⟨g, gs⟩, t⟩ <;> rw [hs] at hf ih
        · simp at hf
        · rcases List.mem_cons.mp hf with rfl | h
          · simp only [List.mem_cons, not_or]
            exact ⟨Ne.symm ha, ih List.mem_cons_self⟩
          · exact ih (List.mem_cons_of_mem g h)

/-- **Whole frames come back.** A stream made of terminated frames and a tail is cut into just these. -/
theorem split_flatten {d : α} {fs : List (List α)} (hfs : ∀ f ∈ fs, d ∉ f) (s : List α) :
    split d ((fs.map (· ++ [d])).flatten ++ s) = (fs ++ (split d s).1, (split d s).2) := by
  induction fs with
  | nil => rfl
  | cons f fs ih =>
      have hf : d ∉ f := hfs f List.mem_cons_self
      have hfs' : ∀ g ∈ fs, d ∉ g := fun g hg => hfs g (List.mem_cons_of_mem f hg)
      simp only [List.map_cons, List.flatten_cons, List.append_assoc, List.nil_append,
        List.cons_append]
      rw [split_frame hf, ih hfs']

/-- **Frames are found in their order.** Terminated frames that begin a stream of terminated frames are its first
    frames. -/
theorem prefix_of_flatten {d : α} {fs gs : List (List α)} (hfs : ∀ f ∈ fs, d ∉ f) (hgs : ∀ g ∈ gs, d ∉ g)
    (h : (fs.map (· ++ [d])).flatten <+: (gs.map (· ++ [d])).flatten) : fs <+: gs := by
  obtain ⟨t, ht⟩ := h
  have hsplit := split_flatten hgs []
  rw [List.append_nil, ← ht, split_flatten hfs t] at hsplit
  refine ⟨(split d t).1, ?_⟩
  rw [(Prod.mk.inj hsplit).1, split_nil, List.append_nil]

/-- Terminated frames followed by an unfinished tail that are a stream of terminated frames are all of it. -/
theorem eq_of_flatten {d : α} {fs gs : List (List α)} {t : List α} (hfs : ∀ f ∈ fs, d ∉ f) (hgs : ∀ g ∈ gs, d ∉ g)
    (ht : d ∉ t) (h : (fs.map (· ++ [d])).flatten ++ t = (gs.map (· ++ [d])).flatten) : fs = gs ∧ t = [] := by
  have hsplit := split_flatten hgs []
  rw [List.append_nil, ← h, split_flatten hfs t, split_open ht, split_nil, List.append_nil, List.append_nil] at hsplit
  exact Prod.mk.inj hsplit

/-- **Where the stream is cut does not matter.** The frames of `a ++ b` are those of `a`, then those of
    `a`'s tail continued by `b`. -/
theorem split_append (d : α) (a b : List α) :
    split d (a ++ b)
      = ((split d a).1 ++ (split d ((split d a).2 ++ b)).1, (split d ((split d a).2 ++ b)).2) := by
  conv_lhs => rw [split_eq d a, List.append_assoc]
  exact split_flatten (fun f hf => notMem_frame hf) _

end Delimited
