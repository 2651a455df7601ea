import Mathlib.Data.List.Sort
import Mathlib.Data.List.TakeWhile

/-!
# `Lib.PartitionPoint` — binary search in a sorted list

`std::upper_bound`, `std::lower_bound` and `std::binary_search` share one loop: it halves an interval and looks for
the first element that satisfies a predicate, assuming that all elements after one that satisfies it do so too.
`partitionPoint_eq` says what the loop finds. The rest is about a **strict weak order** `before`: two elements
neither of which comes before the other are `Alike`, lists are sorted up to that, and a sorted list is determined by
what stands in it of each kind, in which order (`Sorted.ext`). So there is only one stable way to sort.
-/

namespace PartitionPoint

variable {α : Type*}

/-- Once an element satisfies `p`, all later ones do. -/
def Partitioned (p : α → Bool) (q : List α) : Prop := q.Pairwise (fun x y => p x = true → p y = true)

/-- The halving loop over the `len` elements from `first` on. -/
def search (p : α → Bool) (q : List α) (first len : Nat) : Nat :=
  if len = 0 then first
  else
    let half := len / 2
    let middle := first + half
    match q[middle]? with
    | some y => if p y then search p q first half else search p q (middle + 1) (len - half - 1)
    | none   => first
termination_by len
decreasing_by all_goals omega

@[simp]
theorem search_zero (p : α → Bool) (q : List α) (first : Nat) : search p q first 0 = first := by
  rw [search, if_pos rfl]

/-- One turn of the loop. -/
theorem search_succ (p : α → Bool) (q : List α) (first len : Nat) :
    search p q first (len + 1) = match q[first + (len + 1) / 2]? with
      | some y =>
          if p y then search p q first ((len + 1) / 2)
          else search p q (first + (len + 1) / 2 + 1) (len + 1 - (len + 1) / 2 - 1)
      | none => first := by
  rw [search, if_neg (Nat.succ_ne_zero len)]

/-- The position of the first element that satisfies `p`, or the length. -/
def partitionPoint (p : α → Bool) (q : List α) : Nat := search p q 0 q.length

/-- Put an element at a position. -/
def insertAt (i : Nat) (x : α) (q : List α) : List α := q.take i ++ x :: q.drop i

/-- An element that satisfies `p` is not in the front part, one that does not is. -/
theorem lt_takeWhile_iff {p : α → Bool} {q : List α} (hq : Partitioned p q) {i : Nat} {y : α} (hy : q[i]? = some y) :
    i < (q.takeWhile (fun x => !p x)).length ↔ p y = false := by
  induction q generalizing i with
  | nil => cases hy
  | cons x q ih =>
      obtain ⟨hx, hq⟩ := List.pairwise_cons.mp hq
      cases hpx : p x with
      | true =>
          have hall : p y = true := by
            cases i with
            | zero   => cases hy; exact hpx
            | succ i => exact hx y (List.mem_of_getElem? hy) hpx
          simp [hpx, hall]
      | false =>
          rw [List.takeWhile_cons_of_pos (by rw [hpx]; rfl), List.length_cons]
          cases i with
          | zero   => cases hy; simp [hpx]
          | succ i => rw [Nat.succ_lt_succ_iff]; exact ih hq hy

/-- **The loop keeps the point inside its interval.** -/
theorem search_eq {p : α → Bool} {q : List α} (hq : Partitioned p q) {first len : Nat}
    (hlow : first ≤ (q.takeWhile (fun x => !p x)).length)
    (hhigh : (q.takeWhile (fun x => !p x)).length ≤ first + len) (hlen : first + len ≤ q.length) :
    search p q first len = (q.takeWhile (fun x => !p x)).length := by
  induction hn : len using Nat.strong_induction_on generalizing first len with
  | _ n ih =>
      subst hn
      unfold search
      by_cases hzero : len = 0
      · rw [if_pos hzero]
        omega
      · rw [if_neg hzero]
        have hmid : first + len / 2 < q.length := by omega
        simp only [List.getElem?_eq_getElem hmid]
        have hside := lt_takeWhile_iff hq (List.getElem?_eq_getElem hmid)
        cases hp : p q[first + len / 2] with
        | true =>
            have hle : (q.takeWhile (fun x => !p x)).length ≤ first + len / 2 := by
              rw [hp] at hside
              simp only [Bool.true_eq_false, iff_false, Nat.not_lt] at hside
              exact hside
            exact ih (len / 2) (by omega) hlow hle (by omega) rfl
        | false =>
            have hlt : first + len / 2 < (q.takeWhile (fun x => !p x)).length := hside.mpr hp
            exact ih (len - len / 2 - 1) (by omega) (by omega) (by omega) (by omega) rfl

/-- **What the search finds**: the end of the elements that do not satisfy `p`. -/
theorem partitionPoint_eq {p : α → Bool} {q : List α} (hq : Partitioned p q) :
    partitionPoint p q = (q.takeWhile (fun x => !p x)).length := by
  refine search_eq hq (Nat.zero_le _) ?_ (Nat.zero_add _).le
  rw [Nat.zero_add]
  exact (List.takeWhile_prefix _).length_le

/-- So an insertion there is one between the two parts. -/
theorem insertAt_partitionPoint {p : α → Bool} {q : List α} (hq : Partitioned p q) (x : α) :
    insertAt (partitionPoint p q) x q = q.takeWhile (fun y => !p y) ++ x :: q.dropWhile (fun y => !p y) := by
  have htake : q.take (q.takeWhile (fun y => !p y)).length = q.takeWhile (fun y => !p y) :=
    (List.prefix_iff_eq_take.mp (List.takeWhile_prefix _)).symm
  have hdrop : q.drop (q.takeWhile (fun y => !p y)).length = q.dropWhile (fun y => !p y) := by
    have hsplit := congrArg (List.drop (q.takeWhile (fun y => !p y)).length)
      (List.takeWhile_append_dropWhile (p := fun y => !p y) (l := q)).symm
    rwa [List.drop_left] at hsplit
  rw [insertAt, partitionPoint_eq hq, htake, hdrop]

/-- Everything from there on satisfies `p`. -/
theorem of_mem_dropWhile {p : α → Bool} {q : List α} (hq : Partitioned p q) {y : α}
    (hy : y ∈ q.dropWhile (fun x => !p x)) : p y = true := by
  induction q with
  | nil => exact absurd hy List.not_mem_nil
  | cons x q ih =>
      obtain ⟨hx, hq⟩ := List.pairwise_cons.mp hq
      cases hpx : p x with
      | true =>
          rw [List.dropWhile_cons_of_neg (by simp [hpx])] at hy
          rcases List.mem_cons.mp hy with rfl | hy
          · exact hpx
          · exact hx y hy hpx
      | false =>
          rw [List.dropWhile_cons_of_pos (by simp [hpx])] at hy
          exact ih hq hy

/-- And nothing before it. -/
theorem of_mem_takeWhile {p : α → Bool} {q : List α} {y : α} (hy : y ∈ q.takeWhile (fun x => !p x)) :
    p y = false := by
  have hno := List.mem_takeWhile_imp hy
  rwa [Bool.not_eq_true'] at hno

/-! ## Strict weak orders -/

/-- A strict weak order, as the standard library wants of a comparator. -/
structure StrictWeak (before : α → α → Bool) : Prop where
  asymm    : ∀ {x y}, before x y = true → before y x = false
  /-- What comes between. -/
  cotrans  : ∀ {x z} (y), before x z = true → before x y = true ∨ before y z = true

variable {before : α → α → Bool}

/-- Neither comes before the other. -/
def Alike (before : α → α → Bool) (x y : α) : Bool := !before x y && !before y x

theorem alike_iff {x y : α} : Alike before x y = true ↔ before x y = false ∧ before y x = false := by
  simp [Alike]

theorem StrictWeak.irrefl (h : StrictWeak before) (x : α) : before x x = false := by
  cases hx : before x x with
  | true  => exact (hx.symm.trans (h.asymm hx)).symm ▸ rfl
  | false => rfl

theorem StrictWeak.alike_refl (h : StrictWeak before) (x : α) : Alike before x x = true :=
  alike_iff.mpr ⟨h.irrefl x, h.irrefl x⟩

theorem StrictWeak.trans_not (h : StrictWeak before) {x y z : α} (hxy : before x y = false)
    (hyz : before y z = false) : before x z = false := by
  cases hxz : before x z with
  | true =>
      rcases h.cotrans y hxz with hb | hb
      · rw [hxy] at hb; cases hb
      · rw [hyz] at hb; cases hb
  | false => rfl

/-- The reverse, as a sorting function takes it: transitive and total. -/
theorem StrictWeak.not_trans (h : StrictWeak before) (x y z : α) (hxy : (!before y x) = true)
    (hyz : (!before z y) = true) : (!before z x) = true := by
  rw [Bool.not_eq_true'] at hxy hyz ⊢
  exact h.trans_not hyz hxy

theorem StrictWeak.not_total (h : StrictWeak before) (x y : α) : (!before y x || !before x y) = true := by
  cases hyx : before y x with
  | true  => rw [h.asymm hyx]; rfl
  | false => rfl

theorem StrictWeak.alike_trans (h : StrictWeak before) {x y z : α} (hxy : Alike before x y = true)
    (hyz : Alike before y z = true) : Alike before x z = true := by
  rw [alike_iff] at *
  exact ⟨h.trans_not hxy.1 hyz.1, h.trans_not hyz.2 hxy.2⟩

theorem alike_comm (x y : α) : Alike before x y = Alike before y x := Bool.and_comm _ _

/-- No element comes before one that stands in front of it. -/
def Sorted (before : α → α → Bool) (q : List α) : Prop := q.Pairwise (fun x y => before y x = false)

/-- In a sorted list, the elements something comes before are at the end. -/
theorem Sorted.partitioned (h : StrictWeak before) {q : List α} (hq : Sorted before q) (x : α) :
    Partitioned (before x) q :=
  List.Pairwise.imp (fun {y z} hzy hxy => by
    rcases h.cotrans z hxy with hxz | hzy'
    · exact hxz
    · rw [hzy] at hzy'; cases hzy') hq

/-- So are those that do not come before something. -/
theorem Sorted.partitioned_not (h : StrictWeak before) {q : List α} (hq : Sorted before q) (x : α) :
    Partitioned (fun y => !before y x) q :=
  List.Pairwise.imp (fun {y z} hzy hyx => by
    rw [Bool.not_eq_true'] at hyx ⊢
    exact h.trans_not hzy hyx) hq

/-- **A sorted list is determined by its kinds.** -/
theorem Sorted.ext (h : StrictWeak before) {q q' : List α} (hq : Sorted before q) (hq' : Sorted before q')
    (hsame : ∀ x, q.filter (Alike before x) = q'.filter (Alike before x)) : q = q' := by
  have hmem : ∀ {a b : List α}, (∀ x, a.filter (Alike before x) = b.filter (Alike before x)) → ∀ x ∈ a, x ∈ b := by
    intro a b hab x hx
    have hin : x ∈ a.filter (Alike before x) := List.mem_filter.mpr ⟨hx, h.alike_refl x⟩
    rw [hab x] at hin
    exact (List.mem_filter.mp hin).1
  induction q generalizing q' with
  | nil =>
      cases q' with
      | nil => rfl
      | cons y q' => exact absurd (hmem (fun x => (hsame x).symm) y List.mem_cons_self) List.not_mem_nil
  | cons x q ih =>
      cases q' with
      | nil => exact absurd (hmem hsame x List.mem_cons_self) List.not_mem_nil
      | cons y q' =>
          -- the two heads are alike, since neither comes before the head of a sorted list
          have hfirst : ∀ {a : α} {s : List α} {b : α}, Sorted before (a :: s) → b ∈ a :: s → before b a = false := by
            intro a s b hs hb
            rcases List.mem_cons.mp hb with rfl | hb
            · exact h.irrefl b
            · exact (List.pairwise_cons.mp hs).1 b hb
          have hyx : before y x = false := hfirst hq (hmem (fun x => (hsame x).symm) y List.mem_cons_self)
          have hxy : before x y = false := hfirst hq' (hmem hsame x List.mem_cons_self)
          have halike : Alike before x y = true := alike_iff.mpr ⟨hxy, hyx⟩
          have hheads := hsame x
          rw [List.filter_cons_of_pos (h.alike_refl x), List.filter_cons_of_pos halike] at hheads
          obtain ⟨rfl, -⟩ := List.cons.inj hheads
          rw [ih (List.pairwise_cons.mp hq).2 (List.pairwise_cons.mp hq').2 (fun z => ?_)]
          have hz := hsame z
          by_cases hzx : Alike before z x = true
          · rw [List.filter_cons_of_pos hzx, List.filter_cons_of_pos hzx] at hz
            exact (List.cons.inj hz).2
          · rwa [List.filter_cons_of_neg hzx, List.filter_cons_of_neg hzx] at hz

end PartitionPoint
