import Unicomm.Lib.Search

/-!
# `Lib.Marked` — frames that end in a marker of several symbols

`Delimited` has one symbol between frames; here it is a sequence, and nothing is escaped. `split m s` cuts a
stream at the first occurrence of the marker, then goes on behind it. `split_append` is the fact a receiver
needs: where the stream was cut does not matter. What is lost against one symbol is the round trip. A frame's
own end and the marker can make an **earlier** occurrence, so frames come back exactly when every one of them
is `Clean` (`split_flatten_iff`), and `clean_iff` says which these are: the marker's borders tell.
-/

open Search

variable {α : Type*}

/-- What ends a frame. -/
structure Marker (α : Type*) where
  seq    : List α
  ne_nil : seq ≠ []

namespace Marker

variable (m : Marker α)

theorem length_pos : 0 < m.seq.length := List.length_pos_iff.mpr m.ne_nil

variable [DecidableEq α]

/-- What is behind an occurrence of the marker is shorter. -/
theorem length_drop_lt {s : List α} {i : Nat} (h : find m.seq s = some i) :
    s.length - (i + m.seq.length) < s.length := by
  have hle := find_le h
  have hpos := m.length_pos
  omega

/-- The frames of a stream, without their markers, and the unfinished tail. -/
def split (s : List α) : List (List α) × List α :=
  match h : find m.seq s with
  | none   => ([], s)
  | some i =>
      have := m.length_drop_lt h
      (s.take i :: (split (s.drop (i + m.seq.length))).1, (split (s.drop (i + m.seq.length))).2)
termination_by s.length
decreasing_by all_goals rwa [List.length_drop]

variable {m} {s : List α}

/-- A stream without the marker is all tail. -/
theorem split_open (h : find m.seq s = none) : m.split s = ([], s) := by
  rw [split]
  split
  · rfl
  · rename_i i hi
    exact absurd (h.symm.trans hi) (by simp)

/-- The first frame ends where the marker is found first. -/
theorem split_found {i : Nat} (h : find m.seq s = some i) :
    m.split s = (s.take i :: (m.split (s.drop (i + m.seq.length))).1,
      (m.split (s.drop (i + m.seq.length))).2) := by
  conv_lhs => rw [split]
  split
  · rename_i hnone
    exact absurd (h.symm.trans hnone) (by simp)
  · rename_i j hj
    obtain rfl := Option.some.inj (h.symm.trans hj)
    rfl

/-- The tail holds no marker. -/
theorem find_tail (m : Marker α) (s : List α) : find m.seq (m.split s).2 = none := by
  induction s using split.induct m with
  | case1 s h   => rwa [split_open h]
  | case2 s i h _ ih => rwa [split_found h]

/-- **Where the stream is cut does not matter.** The frames of `a ++ b` are those of `a`, then those of `a`'s
    tail continued by `b`. -/
theorem split_append (m : Marker α) (a b : List α) :
    m.split (a ++ b)
      = ((m.split a).1 ++ (m.split ((m.split a).2 ++ b)).1, (m.split ((m.split a).2 ++ b)).2) := by
  induction a using split.induct m with
  | case1 a h => rw [split_open h, List.nil_append]
  | case2 a i h _ ih =>
      -- the occurrence that ends the first frame of `a` also ends that of `a ++ b`
      have hle := find_le h
      have htake : (a ++ b).take i = a.take i := List.take_append_of_le_length (by omega)
      have hdrop : (a ++ b).drop (i + m.seq.length) = a.drop (i + m.seq.length) ++ b :=
        List.drop_append_of_le_length hle
      rw [split_found (find_append h b), htake, hdrop, ih, split_found h]
      rfl

/-! ## Which frames come back -/

/-- The marker is not found in a frame and its marker before the frame's end. -/
def Clean (m : Marker α) (f : List α) : Prop := find m.seq (f ++ m.seq) = some f.length

/-- A clean frame is cut off in front of any stream. -/
theorem split_clean {f : List α} (hf : m.Clean f) (s : List α) :
    m.split (f ++ m.seq ++ s) = (f :: (m.split s).1, (m.split s).2) := by
  have hdrop : (f ++ m.seq ++ s).drop (f.length + m.seq.length) = s := by
    rw [← List.length_append, List.drop_left]
  have htake : (f ++ m.seq ++ s).take f.length = f := by
    rw [List.append_assoc, List.take_left]
  rw [split_found (find_append hf s), hdrop, htake]

/-- The first frame of a stream of marked frames is no longer than the frame that was put there, and it is
    that frame only if this is clean. -/
theorem clean_of_split {f s : List α} {fs : List (List α)} (h : (m.split (f ++ m.seq ++ s)).1 = f :: fs) :
    m.Clean f := by
  have hpre : m.seq <+: (f ++ m.seq).drop f.length := by
    rw [List.drop_left]
  obtain ⟨i, hi, hle⟩ := find_of_starts_drop hpre
  rw [split_found (find_append hi s)] at h
  have htake : (f ++ m.seq ++ s).take i = f := (List.cons.inj h).1
  have hlen := congrArg List.length htake
  rw [List.length_take, List.length_append, List.length_append] at hlen
  have heq : i = f.length := by omega
  show find m.seq (f ++ m.seq) = some f.length
  rw [hi, heq]

/-- **The frames come back exactly when they are clean.** -/
theorem split_flatten_iff (fs : List (List α)) :
    m.split (fs.map (· ++ m.seq)).flatten = (fs, []) ↔ ∀ f ∈ fs, m.Clean f := by
  induction fs with
  | nil =>
      have hnone : find m.seq [] = none := by
        rw [find, if_neg m.ne_nil]
      simp [split_open hnone]
  | cons f fs ih =>
      rw [List.map_cons, List.flatten_cons, List.forall_mem_cons, ← ih]
      constructor
      · intro h
        have hf : m.Clean f := clean_of_split (congrArg Prod.fst h)
        rw [split_clean hf] at h
        obtain ⟨hframes, htail⟩ := Prod.mk.inj h
        exact ⟨hf, Prod.ext (List.cons.inj hframes).2 htail⟩
      · rintro ⟨hf, hfs⟩
        rw [split_clean hf, hfs]

/-- **A frame without the marker is clean** when it ends in no part of the marker that a border of the marker
    completes: with `m = p ++ q` and `q` a prefix of `m`, a frame that ends in `p` makes `p ++ q` of its end
    and the marker's beginning. -/
theorem clean_iff {f : List α} (hfree : ¬ m.seq <:+: f) :
    m.Clean f ↔ ∀ p q, m.seq = p ++ q → p ≠ [] → q ≠ [] → q <+: m.seq → ¬ p <:+ f := by
  have hlast : m.seq <+: (f ++ m.seq).drop f.length := by
    rw [List.drop_left]
  obtain ⟨i, hi, hle⟩ := find_of_starts_drop hlast
  constructor
  · rintro hclean p q hm hp hq hqm ⟨g, hg⟩
    -- the marker stands behind `g`, before the frame's end
    have hearly : m.seq <+: (f ++ m.seq).drop g.length := by
      rw [← hg, List.append_assoc, List.drop_left]
      conv_lhs => rw [hm]
      exact (List.prefix_append_right_inj p).mpr hqm
    have hlt : g.length < f.length := by
      have hpos := List.length_pos_iff.mpr hp
      have hlen := congrArg List.length hg
      rw [List.length_append] at hlen
      omega
    exact (find_eq_some_iff.mp hclean).2.2 _ hlt hearly
  · intro hno
    show find m.seq (f ++ m.seq) = some f.length
    rcases Nat.lt_or_eq_of_le hle with hlt | heq
    · -- an earlier occurrence starts in the frame: what of the marker lies in the frame is `p`
      obtain ⟨hpre, -, -⟩ := find_eq_some_iff.mp hi
      rw [List.drop_append_of_le_length hle] at hpre
      obtain ⟨r, hr⟩ := hpre
      have hsuffix : f.drop i <:+ f := List.drop_suffix i f
      have hinside : ∀ q, f.drop i = m.seq ++ q → False := by
        intro q hq
        apply hfree
        exact List.IsInfix.trans ⟨[], q, by rw [hq, List.nil_append]⟩ hsuffix.isInfix
      rcases List.append_eq_append_iff.mp hr with ⟨q, hq, -⟩ | ⟨q, hm, hq⟩
      · exact absurd hq (hinside q)
      · refine absurd hsuffix (hno (f.drop i) q hm ?_ ?_ ⟨r, hq.symm⟩)
        · intro hnil
          have hlen := congrArg List.length hnil
          rw [List.length_drop, List.length_nil] at hlen
          omega
        · rintro rfl
          rw [List.append_nil] at hm
          exact hinside [] (by rw [List.append_nil, hm])
    · rw [hi, heq]

end Marker
