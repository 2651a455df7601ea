import Mathlib.Data.List.Basic

/-!
# `Lib.Stuffing` — escaping a delimiter inside a payload

A stream of payloads over an alphabet `α` is cut into frames by a delimiter `fin`. A payload that contains
`fin` (or the escape symbol `esc`) is made safe by *stuffing*: each special symbol `a` is sent as the pair
`esc, mask a`. The laws a `Stuffing` carries are exactly what makes this work: `mask` undoes itself, and
neither `esc` nor a masked special symbol is the delimiter.

`unstuff` is partial: a payload that ends in a lone `esc` is not the stuffing of anything (`unstuff_eq_none_iff`).
`unstuff_stuff` is the round trip, `fin_notMem_stuff` says a stuffed payload never contains the delimiter, and
`stuff_eq_iff` tells which payloads `unstuff` takes are the stuffing of what it makes of them.
-/

/-- A delimiter, an escape symbol and the mask applied to an escaped symbol. -/
structure Stuffing (α : Type*) where
  esc  : α
  fin  : α
  mask : α → α
  mask_mask       : ∀ a, mask (mask a) = a
  esc_ne_fin      : esc ≠ fin
  mask_esc_ne_fin : mask esc ≠ fin
  mask_fin_ne_fin : mask fin ≠ fin

namespace Stuffing

variable {α : Type*} [DecidableEq α] (c : Stuffing α)

/-- Symbols that may not appear bare inside a frame. -/
def Special (a : α) : Prop := a = c.esc ∨ a = c.fin

instance (a : α) : Decidable (c.Special a) := inferInstanceAs (Decidable (_ ∨ _))

/-- Send every special symbol as an escape pair. -/
def stuff : List α → List α
  | []     => []
  | a :: s => if c.Special a then c.esc :: c.mask a :: stuff s else a :: stuff s

/-- Read the escape pairs back, from the left; a trailing lone escape is rejected. -/
def unstuff : List α → Option (List α)
  | []          => some []
  | [a]         => if a = c.esc then none else some [a]
  | a :: b :: s =>
      if a = c.esc then (unstuff s).map (c.mask b :: ·)
      else (unstuff (b :: s)).map (a :: ·)

@[simp] theorem stuff_nil : c.stuff [] = [] := rfl

theorem stuff_cons_special {a : α} (s : List α) (h : c.Special a) :
    c.stuff (a :: s) = c.esc :: c.mask a :: c.stuff s := by
  rw [stuff, if_pos h]

theorem stuff_cons_plain {a : α} (s : List α) (h : ¬ c.Special a) :
    c.stuff (a :: s) = a :: c.stuff s := by
  rw [stuff, if_neg h]

/-- Stuffing doubles a payload at most. -/
theorem length_stuff_le (s : List α) : (c.stuff s).length ≤ 2 * s.length := by
  induction s with
  | nil => exact Nat.le_refl 0
  | cons a s ih =>
      by_cases h : c.Special a
      · rw [stuff_cons_special _ _ h, List.length_cons, List.length_cons, List.length_cons]
        omega
      · rw [stuff_cons_plain _ _ h, List.length_cons, List.length_cons]
        omega

@[simp] theorem unstuff_nil : c.unstuff [] = some [] := rfl

/-- A plain symbol stands for itself. -/
theorem unstuff_cons_plain {a : α} (s : List α) (h : a ≠ c.esc) :
    c.unstuff (a :: s) = (c.unstuff s).map (a :: ·) := by
  cases s with
  | nil      => simp [unstuff, h]
  | cons b s => rw [unstuff, if_neg h]

/-- An escape pair stands for the unmasked symbol. -/
theorem unstuff_esc_cons (b : α) (s : List α) :
    c.unstuff (c.esc :: b :: s) = (c.unstuff s).map (c.mask b :: ·) := by
  rw [unstuff, if_pos rfl]

/-- A lone escape at the end is rejected. -/
theorem unstuff_esc_nil : c.unstuff [c.esc] = none := by
  rw [unstuff, if_pos rfl]

/-- **Round trip.** Unstuffing a stuffed payload gives the payload back. -/
theorem unstuff_stuff (s : List α) : c.unstuff (c.stuff s) = some s := by
  induction s with
  | nil => rfl
  | cons a s ih =>
      by_cases h : c.Special a
      · rw [stuff_cons_special c s h, unstuff_esc_cons, ih, c.mask_mask]
        rfl
      · have hne : a ≠ c.esc := fun he => h (Or.inl he)
        rw [stuff_cons_plain c s h, unstuff_cons_plain c _ hne, ih]
        rfl

/-- **A stuffed payload never contains the delimiter.** -/
theorem fin_notMem_stuff (s : List α) : c.fin ∉ c.stuff s := by
  induction s with
  | nil => simp
  | cons a s ih =>
      by_cases h : c.Special a
      · have hmask : c.fin ≠ c.mask a := by
          rcases h with rfl | rfl
          · exact c.mask_esc_ne_fin.symm
          · exact c.mask_fin_ne_fin.symm
        rw [stuff_cons_special c s h]
        simp only [List.mem_cons, not_or]
        exact ⟨c.esc_ne_fin.symm, hmask, ih⟩
      · have hne : c.fin ≠ a := fun he => h (Or.inr he.symm)
        rw [stuff_cons_plain c s h]
        simp only [List.mem_cons, not_or]
        exact ⟨hne, ih⟩

/-! ## What is accepted, and what is canonical -/

/-- Pairing each escape with its successor from the left, an escape is left over at the end. -/
def EndsUnpaired : List α → Prop
  | []          => False
  | [a]         => a = c.esc
  | a :: b :: s => if a = c.esc then EndsUnpaired s else EndsUnpaired (b :: s)

/-- The symbols that stand for themselves: those no escape, from the left, is paired with. -/
def unescaped : List α → List α
  | []          => []
  | [a]         => if a = c.esc then [] else [a]
  | a :: b :: s => if a = c.esc then unescaped s else a :: unescaped (b :: s)

/-- Every escape stands before a masked special symbol. -/
def Followed (s : List α) : Prop :=
  ∀ i, s[i]? = some c.esc → s[i + 1]? = some (c.mask c.esc) ∨ s[i + 1]? = some (c.mask c.fin)

omit [DecidableEq α] in
theorem followed_cons {a : α} {s : List α} :
    c.Followed (a :: s)
      ↔ (a = c.esc → s[0]? = some (c.mask c.esc) ∨ s[0]? = some (c.mask c.fin)) ∧ c.Followed s := by
  constructor
  · intro h
    refine ⟨fun ha => ?_, fun i hi => ?_⟩
    · have h0 := h 0
      simpa [ha] using h0
    · have hi' := h (i + 1)
      simpa [hi] using hi'
  · rintro ⟨ha, hs⟩ i hi
    cases i with
    | zero   => simpa using ha (by simpa using hi)
    | succ i => simpa using hs i (by simpa using hi)

/-- Rejected is exactly what ends in an unpaired escape. -/
theorem unstuff_eq_none_iff (s : List α) : c.unstuff s = none ↔ c.EndsUnpaired s := by
  induction s using unstuff.induct c with
  | case1 => simp [EndsUnpaired]
  | case2 => simp [unstuff, EndsUnpaired]
  | case3 a ha => simp [unstuff, EndsUnpaired, ha]
  | case4 b s ih => simp [unstuff, EndsUnpaired, ih]
  | case5 a b s ha ih => simp [unstuff, EndsUnpaired, ha, ih]

instance (s : List α) : Decidable (c.EndsUnpaired s) := decidable_of_iff _ (c.unstuff_eq_none_iff s)

/-- No escape stands for itself, and what does is there. -/
theorem of_mem_unescaped {s : List α} {x : α} (h : x ∈ c.unescaped s) : x ≠ c.esc ∧ x ∈ s := by
  induction s using unescaped.induct c with
  | case1 => simp [unescaped] at h
  | case2 => simp [unescaped] at h
  | case3 a ha =>
      have hx : x = a := by simpa [unescaped, ha] using h
      exact ⟨hx ▸ ha, by simp [hx]⟩
  | case4 b s ih =>
      have hx := ih (by simpa [unescaped] using h)
      exact ⟨hx.1, by simp [hx.2]⟩
  | case5 a b s ha ih =>
      have hx : x = a ∨ x ∈ c.unescaped (b :: s) := by simpa [unescaped, ha] using h
      rcases hx with rfl | hx
      · exact ⟨ha, List.mem_cons_self⟩
      · exact ⟨(ih hx).1, List.mem_cons_of_mem a (ih hx).2⟩

omit [DecidableEq α] in
/-- No masked special symbol is an escape, as long as the escape's own mask is not. -/
theorem mask_special_ne_esc (hesc : c.mask c.esc ≠ c.esc) {a : α} (h : c.Special a) : c.mask a ≠ c.esc := by
  rcases h with rfl | rfl
  · exact hesc
  · intro hfin
    apply c.mask_esc_ne_fin
    rw [← hfin, c.mask_mask]

/-- In a stuffed payload every escape stands before a masked special symbol. -/
theorem followed_stuff (hesc : c.mask c.esc ≠ c.esc) (s : List α) : c.Followed (c.stuff s) := by
  induction s with
  | nil => intro i hi; simp at hi
  | cons a s ih =>
      by_cases h : c.Special a
      · rw [stuff_cons_special c s h, followed_cons, followed_cons]
        refine ⟨fun _ => ?_, fun ha => absurd ha (c.mask_special_ne_esc hesc h), ih⟩
        rcases h with rfl | rfl <;> simp
      · rw [stuff_cons_plain c s h, followed_cons]
        exact ⟨fun ha => absurd (Or.inl ha) h, ih⟩

/-- **Which accepted payloads are canonical.** A payload without the delimiter is the stuffing of what
    `unstuff` makes of it exactly when every escape in it stands before a masked special symbol. -/
theorem stuff_eq_iff (hesc : c.mask c.esc ≠ c.esc) {f t : List α} (hfin : c.fin ∉ f) (h : c.unstuff f = some t) :
    c.stuff t = f ↔ c.Followed f := by
  constructor
  · rintro rfl
    exact c.followed_stuff hesc t
  · intro hf
    induction f using unstuff.induct c generalizing t with
    | case1 =>
        cases h
        rw [stuff_nil]
    | case2 => rw [unstuff_esc_nil] at h; cases h
    | case3 a ha =>
        rw [unstuff, if_neg ha] at h
        cases h
        exact c.stuff_cons_plain [] (fun hsp => hsp.elim ha (fun he => hfin (by simp [he])))
    | case4 b s ih =>
        rw [unstuff_esc_cons] at h
        obtain ⟨t, ht, rfl⟩ := Option.map_eq_some_iff.mp h
        obtain ⟨hb, hbs⟩ := c.followed_cons.mp hf
        have hspecial : c.Special (c.mask b) := by
          have hb' : b = c.mask c.esc ∨ b = c.mask c.fin := by simpa using hb rfl
          rcases hb' with rfl | rfl <;> simp [Special, c.mask_mask]
        have hs : c.stuff t = s :=
          ih (fun hmem => hfin (by simp [hmem])) ht (c.followed_cons.mp hbs).2
        rw [stuff_cons_special c t hspecial, c.mask_mask, hs]
    | case5 a b s ha ih =>
        rw [unstuff_cons_plain c _ ha] at h
        obtain ⟨t, ht, rfl⟩ := Option.map_eq_some_iff.mp h
        have hplain : ¬ c.Special a := fun hsp => hsp.elim ha (fun he => hfin (by simp [he]))
        have hs : c.stuff t = b :: s :=
          ih (fun hmem => hfin (List.mem_cons_of_mem a hmem)) ht (c.followed_cons.mp hf).2
        rw [stuff_cons_plain c t hplain, hs]

end Stuffing
