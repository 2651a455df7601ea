import Unicomm.Smart.Serializer

/-!
# `Smart.Restored` — what a `complex` is after a trip

A `complex` that is written and read is not always the same `complex`: its name is the one under which it was stored, a
number called `name` is not written at all, and an empty text in an array is not reported. `restored` is what arrives.
`Canonical` objects arrive as they are (`restored_eq_iff`), and what has arrived once is canonical
(`canonical_restored`), so a second trip changes nothing.
-/

namespace Unicomm

namespace Smart

namespace Complex

variable {V : Numbers}

/-- The properties that are written. -/
def properties {k : Simple} (ps : List (Str × V.Val k)) : List (Str × V.Val k) :=
  ps.filter (fun p => p.1 ≠ nameProperty)

/-- The simple properties that arrive: the object gets its name from the one that stored it. -/
def restoredSimple (name : Str) (simple : (k : Simple) → List (Str × V.Val k)) : (k : Simple) → List (Str × V.Val k)
  | .int    => properties (simple .int)
  | .uint   => properties (simple .uint)
  | .double => properties (simple .double)
  | .string => SortedMap.set nameProperty name (properties (simple .string))

/-- The items that arrive: of an empty text nothing is reported. -/
def restoredValues : (k : Simple) → List (V.Val k) → List (V.Val k)
  | .int, vs    => vs
  | .uint, vs   => vs
  | .double, vs => vs
  | .string, vs => List.filter (fun s : Str => s ≠ []) vs

mutual

/-- **What arrives of an object** that is stored under a name. -/
def restored (name : Str) : Complex V → Complex V
  | .mk simple arrays complexes complexArrays =>
      .mk (restoredSimple name simple) (fun k => (arrays k).map (fun p => (p.1, restoredValues k p.2)))
        (restoredComplexes complexes) (restoredComplexArrays complexArrays)

/-- A complex property is stored under its own name. -/
def restoredComplexes : List (Str × Complex V) → List (Str × Complex V)
  | []           => []
  | (n, c) :: ps => (n, restored n c) :: restoredComplexes ps

/-- An item of an array keeps the name it has; one that has none gets the empty name. -/
def restoredItems : List (Complex V) → List (Complex V)
  | []      => []
  | c :: cs => restored c.getSafeName c :: restoredItems cs

/-- The arrays of complex objects, item by item. -/
def restoredComplexArrays : List (Str × List (Complex V)) → List (Str × List (Complex V))
  | []            => []
  | (n, cs) :: ps => (n, restoredItems cs) :: restoredComplexArrays ps

end

/-- The maps of an object, and those of all objects in it, are in order. -/
inductive WellFormed : Complex V → Prop where
  | mk {simple arrays complexes complexArrays}
      (simple_sorted : ∀ k, SortedMap.Sorted (simple k)) (arrays_sorted : ∀ k, SortedMap.Sorted (arrays k))
      (complexes_sorted : SortedMap.Sorted complexes) (complexArrays_sorted : SortedMap.Sorted complexArrays)
      (complexes_wf : ∀ p ∈ complexes, WellFormed p.2)
      (complexArrays_wf : ∀ p ∈ complexArrays, ∀ c ∈ p.2, WellFormed c) :
      WellFormed (.mk simple arrays complexes complexArrays)

/-- An object stays in order when a property is set. -/
theorem WellFormed.setSimple {c : Complex V} (h : c.WellFormed) (k : Simple) (name : Str) (v : V.Val k) :
    (c.setSimple k name v).WellFormed := by
  cases h with
  | mk hsimple harrays hcomplexes hcomplexArrays hobjects hobjectArrays =>
      refine .mk (fun k' => ?_) harrays hcomplexes hcomplexArrays hobjects hobjectArrays
      by_cases hk : k' = k
      · subst hk
        rw [Function.update_self]
        exact (hsimple k').set name v
      · rw [Function.update_of_ne hk]
        exact hsimple k'

theorem WellFormed.setArray {c : Complex V} (h : c.WellFormed) (k : Simple) (name : Str) (vs : List (V.Val k)) :
    (c.setArray k name vs).WellFormed := by
  cases h with
  | mk hsimple harrays hcomplexes hcomplexArrays hobjects hobjectArrays =>
      refine .mk hsimple (fun k' => ?_) hcomplexes hcomplexArrays hobjects hobjectArrays
      by_cases hk : k' = k
      · subst hk
        rw [Function.update_self]
        exact (harrays k').set name vs
      · rw [Function.update_of_ne hk]
        exact harrays k'

theorem WellFormed.setComplex {c d : Complex V} (h : c.WellFormed) (name : Str) (hd : d.WellFormed) :
    (c.setComplex name d).WellFormed := by
  cases h with
  | mk hsimple harrays hcomplexes hcomplexArrays hobjects hobjectArrays =>
      refine .mk hsimple harrays (hcomplexes.set name d) hcomplexArrays (fun p hp => ?_) hobjectArrays
      rcases SortedMap.mem_set hp with rfl | hp
      · exact hd
      · exact hobjects p hp

theorem WellFormed.setComplexArray {c : Complex V} {ds : List (Complex V)} (h : c.WellFormed) (name : Str)
    (hds : ∀ d ∈ ds, d.WellFormed) : (c.setComplexArray name ds).WellFormed := by
  cases h with
  | mk hsimple harrays hcomplexes hcomplexArrays hobjects hobjectArrays =>
      refine .mk hsimple harrays hcomplexes (hcomplexArrays.set name ds) hobjects (fun p hp => ?_)
      rcases SortedMap.mem_set hp with rfl | hp
      · exact hds
      · exact hobjectArrays p hp

theorem WellFormed.empty : (Complex.empty : Complex V).WellFormed :=
  .mk (fun _ => .nil) (fun _ => .nil) .nil .nil (fun _ hp => absurd hp List.not_mem_nil)
    (fun _ hp => absurd hp List.not_mem_nil)

/-- **An object that survives the trip.** It has the name it is stored under, no number has that name, no array holds
    an empty text, and the same is true of the objects in it. -/
inductive Canonical : Str → Complex V → Prop where
  | mk {name simple arrays complexes complexArrays}
      (named : SortedMap.get? nameProperty (simple .string) = some name)
      (numbers : ∀ k, k ≠ .string → SortedMap.get? nameProperty (simple k) = none)
      (texts : ∀ p ∈ arrays .string, ∀ s : Str, s ∈ (p.2 : List Str) → s ≠ [])
      (complexes_canonical : ∀ p ∈ complexes, Canonical p.1 p.2)
      (complexArrays_canonical : ∀ p ∈ complexArrays, ∀ c ∈ p.2, Canonical c.getSafeName c) :
      Canonical name (.mk simple arrays complexes complexArrays)

/-! ## The parts of `restored` -/

theorem restoredComplexes_eq_map (ps : List (Str × Complex V)) :
    restoredComplexes ps = ps.map (fun p => (p.1, restored p.1 p.2)) := by
  induction ps with
  | nil => rfl
  | cons p ps ih =>
      rw [List.map_cons, ← ih]
      rfl

theorem restoredItems_eq_map (cs : List (Complex V)) :
    restoredItems cs = cs.map (fun c => restored c.getSafeName c) := by
  induction cs with
  | nil => rfl
  | cons c cs ih =>
      rw [List.map_cons, ← ih]
      rfl

theorem restoredComplexArrays_eq_map (ps : List (Str × List (Complex V))) :
    restoredComplexArrays ps = ps.map (fun p => (p.1, restoredItems p.2)) := by
  induction ps with
  | nil => rfl
  | cons p ps ih =>
      rw [List.map_cons, ← ih]
      rfl

/-- A map of a list changes nothing if it changes no item. -/
theorem map_eq_self_iff {α : Type} {f : α → α} {xs : List α} : xs.map f = xs ↔ ∀ x ∈ xs, f x = x := by
  have hid := List.map_inj_left (l := xs) (f := f) (g := id)
  rwa [List.map_id] at hid

/-- The name is not among the properties that are written. -/
theorem get?_properties {k : Simple} (name : Str) (ps : List (Str × V.Val k)) :
    SortedMap.get? name (properties ps) = if name ≠ nameProperty then SortedMap.get? name ps else none := by
  have hget := SortedMap.get?_filter (fun n : Str => n ≠ nameProperty) name ps
  simp only [decide_eq_true_eq] at hget
  exact hget

theorem sorted_properties {k : Simple} {ps : List (Str × V.Val k)} (h : SortedMap.Sorted ps) :
    SortedMap.Sorted (properties ps) := h.filter _

/-- All properties are written if none is called `name`. -/
theorem properties_eq_self_iff {k : Simple} {ps : List (Str × V.Val k)} (h : SortedMap.Sorted ps) :
    properties ps = ps ↔ SortedMap.get? nameProperty ps = none := by
  constructor
  · intro heq
    rw [← heq, get?_properties]
    exact if_neg (fun hne => hne rfl)
  · intro hnone
    refine (sorted_properties h).ext h (fun name => ?_)
    rw [get?_properties]
    by_cases hname : name = nameProperty
    · rw [hname, hnone]
      exact ite_self _
    · exact if_pos hname

/-- The name comes back as it was if it was the one that the object is stored under. -/
theorem set_properties_eq_self_iff {name : Str} {ps : List (Str × V.Val .string)} (h : SortedMap.Sorted ps) :
    SortedMap.set nameProperty name (properties ps) = ps ↔ SortedMap.get? nameProperty ps = some name := by
  constructor
  · intro heq
    rw [← heq]
    exact SortedMap.get?_set_self nameProperty name (properties ps)
  · intro hget
    refine ((sorted_properties h).set nameProperty name).ext h (fun n => ?_)
    by_cases hn : n = nameProperty
    · rw [hn, hget]
      exact SortedMap.get?_set_self nameProperty name (properties ps)
    · rw [SortedMap.get?_set_of_ne hn, get?_properties, if_pos hn]

/-- Whatever arrives has the name that it is stored under. -/
theorem get?_name_restored (name : Str) (c : Complex V) :
    SortedMap.get? nameProperty ((restored name c).simple .string) = some name := by
  cases c
  exact SortedMap.get?_set_self nameProperty name _

/-- Any other property arrives as it is. -/
theorem get?_simple_restored {n : Str} (h : n ≠ nameProperty) (name : Str) (c : Complex V) (k : Simple) :
    SortedMap.get? n ((restored name c).simple k) = SortedMap.get? n (c.simple k) := by
  obtain ⟨simple, arrays, complexes, complexArrays⟩ := c
  have hget := (get?_properties n (simple k)).trans (if_pos h)
  cases k with
  | string => exact (SortedMap.get?_set_of_ne h).trans hget
  | _      => exact hget

theorem get?_arrays_restored (name n : Str) (c : Complex V) (k : Simple) :
    SortedMap.get? n ((restored name c).arrays k) = (SortedMap.get? n (c.arrays k)).map (restoredValues k) := by
  cases c
  exact SortedMap.get?_map (fun e => restoredValues k e.2) n _

theorem get?_complexes_restored (name n : Str) (c : Complex V) :
    SortedMap.get? n (restored name c).complexes = (SortedMap.get? n c.complexes).map (restored n) := by
  obtain ⟨simple, arrays, complexes, complexArrays⟩ := c
  show SortedMap.get? n (restoredComplexes complexes) = _
  rw [restoredComplexes_eq_map]
  exact SortedMap.get?_map (fun e => restored e.1 e.2) n complexes

theorem get?_complexArrays_restored (name n : Str) (c : Complex V) :
    SortedMap.get? n (restored name c).complexArrays
      = (SortedMap.get? n c.complexArrays).map (List.map (fun d => restored d.getSafeName d)) := by
  obtain ⟨simple, arrays, complexes, complexArrays⟩ := c
  have hitems : ∀ e : Str × List (Complex V), restoredItems e.2 = e.2.map (fun d => restored d.getSafeName d) :=
    fun e => restoredItems_eq_map e.2
  show SortedMap.get? n (restoredComplexArrays complexArrays) = _
  rw [restoredComplexArrays_eq_map]
  simp only [hitems]
  exact SortedMap.get?_map (fun e => e.2.map (fun d => restored d.getSafeName d)) n complexArrays

theorem getName_restored (name : Str) (c : Complex V) : (restored name c).getName = .ok name := by
  unfold getName getSimple
  rw [get?_name_restored]

theorem getSafeName_restored (name : Str) (c : Complex V) : (restored name c).getSafeName = name := by
  unfold getSafeName
  rw [get?_name_restored]
  rfl

/-! ## Objects within objects -/

/-- Induction on an object: what holds of it if it holds of all objects in it. -/
theorem nestedInduction {P : Complex V → Prop}
    (step : ∀ simple arrays complexes complexArrays, (∀ p ∈ complexes, P p.2) →
      (∀ p ∈ complexArrays, ∀ c ∈ p.2, P c) → P (.mk simple arrays complexes complexArrays)) (c : Complex V) : P c := by
  refine Complex.rec (motive_1 := P) (motive_2 := fun ps => ∀ p ∈ ps, P p.2)
    (motive_3 := fun ps => ∀ p ∈ ps, ∀ c ∈ p.2, P c) (motive_4 := fun p => P p.2)
    (motive_5 := fun p => ∀ c ∈ p.2, P c) (motive_6 := fun cs => ∀ c ∈ cs, P c)
    step ?_ ?_ ?_ ?_ (fun _ _ h => h) (fun _ _ h => h) ?_ ?_ c
  · exact fun p hp => absurd hp List.not_mem_nil
  · exact fun p ps hp hps => List.forall_mem_cons.mpr ⟨hp, hps⟩
  · exact fun p hp => absurd hp List.not_mem_nil
  · exact fun p ps hp hps => List.forall_mem_cons.mpr ⟨hp, hps⟩
  · exact fun c hc => absurd hc List.not_mem_nil
  · exact fun c cs hc hcs => List.forall_mem_cons.mpr ⟨hc, hcs⟩

/-- **What has arrived once is canonical.** -/
theorem canonical_restored (name : Str) (c : Complex V) : Canonical name (restored name c) := by
  induction c using nestedInduction generalizing name with
  | step simple arrays complexes complexArrays hcomplexes hcomplexArrays =>
      refine .mk (SortedMap.get?_set_self nameProperty name _) ?_ ?_ ?_ ?_
      · intro k hk
        cases k with
        | string => exact absurd rfl hk
        | _      => exact (get?_properties nameProperty _).trans (if_neg (fun hne => hne rfl))
      · intro p hp s hs
        obtain ⟨q, -, rfl⟩ := List.mem_map.mp hp
        exact of_decide_eq_true (List.mem_filter.mp hs).2
      · intro p hp
        rw [restoredComplexes_eq_map] at hp
        obtain ⟨q, hq, rfl⟩ := List.mem_map.mp hp
        exact hcomplexes q hq q.1
      · intro p hp c hc
        rw [restoredComplexArrays_eq_map] at hp
        obtain ⟨q, hq, rfl⟩ := List.mem_map.mp hp
        rw [restoredItems_eq_map] at hc
        obtain ⟨d, hd, rfl⟩ := List.mem_map.mp hc
        rw [getSafeName_restored]
        exact hcomplexArrays q hq d hd d.getSafeName

/-- The order of the maps survives. -/
theorem WellFormed.restored {c : Complex V} (h : WellFormed c) (name : Str) : WellFormed (restored name c) := by
  induction h generalizing name with
  | mk hsimple harrays hcomplexes hcomplexArrays _ _ ihcomplexes ihcomplexArrays =>
      refine .mk ?_ ?_ ?_ ?_ ?_ ?_
      · intro k
        cases k with
        | string => exact (sorted_properties (hsimple .string)).set nameProperty name
        | _      => exact sorted_properties (hsimple _)
      · exact fun k => (harrays k).map (fun _ => rfl)
      · rw [restoredComplexes_eq_map]
        exact hcomplexes.map (fun _ => rfl)
      · rw [restoredComplexArrays_eq_map]
        exact hcomplexArrays.map (fun _ => rfl)
      · intro p hp
        rw [restoredComplexes_eq_map] at hp
        obtain ⟨q, hq, rfl⟩ := List.mem_map.mp hp
        exact ihcomplexes q hq q.1
      · intro p hp c hc
        rw [restoredComplexArrays_eq_map] at hp
        obtain ⟨q, hq, rfl⟩ := List.mem_map.mp hp
        rw [restoredItems_eq_map] at hc
        obtain ⟨d, hd, rfl⟩ := List.mem_map.mp hc
        exact ihcomplexArrays q hq d hd d.getSafeName

theorem Plain.empty : (Complex.empty : Complex V).Plain :=
  .mk (fun _ _ hp => absurd hp List.not_mem_nil) (fun _ hp => absurd hp List.not_mem_nil)
    (fun _ _ hp => absurd hp List.not_mem_nil) (fun _ hp => absurd hp List.not_mem_nil)
    (fun _ hp => absurd hp List.not_mem_nil) (fun _ hp => absurd hp List.not_mem_nil)
    (fun _ hp => absurd hp List.not_mem_nil) (fun _ hp => absurd hp List.not_mem_nil)

/-- A plain object stays one when a property is set whose name and text are plain. -/
theorem Plain.setSimple {c : Complex V} (h : c.Plain) (L : Lexical V) {k : Simple} {name : Str} {v : V.Val k}
    (hname : PlainText name) (htext : PlainText (L.print k v)) : (c.setSimple k name v).Plain := by
  cases h with
  | @mk simple arrays complexes complexArrays hnames htexts h₁ h₂ h₃ h₄ h₅ h₆ =>
      refine .mk (fun k' p hp => ?_) (fun p hp => ?_) h₁ h₂ h₃ h₄ h₅ h₆
      · by_cases hk : k' = k
        · subst hk
          rw [Function.update_self] at hp
          rcases SortedMap.mem_set hp with rfl | hp
          · exact hname
          · exact hnames k' p hp
        · rw [Function.update_of_ne hk] at hp
          exact hnames k' p hp
      · by_cases hk : Simple.string = k
        · subst hk
          rw [Function.update_self] at hp
          rcases SortedMap.mem_set hp with rfl | hp
          · exact htext
          · exact htexts p hp
        · rw [Function.update_of_ne hk] at hp
          exact htexts p hp

/-- What arrives of a plain object is plain. -/
theorem Plain.restored {c : Complex V} (h : c.Plain) {name : Str} (hname : PlainText name) :
    (c.restored name).Plain := by
  have hkey : PlainText nameProperty := by decide
  induction h generalizing name with
  | @mk simple arrays complexes complexArrays hnames htexts hanames hatexts hcnames hcanames _ hitems ihc ihca =>
      refine .mk ?_ ?_ ?_ ?_ ?_ ?_ ?_ ?_
      · intro k p hp
        cases k with
        | string =>
            -- the only property that comes in is the name
            rcases SortedMap.mem_set hp with rfl | hp
            · exact hkey
            · exact hnames .string p (List.mem_of_mem_filter hp)
        | _ => exact hnames _ p (List.mem_of_mem_filter hp)
      · intro p hp
        rcases SortedMap.mem_set hp with rfl | hp
        · exact hname
        · exact htexts p (List.mem_of_mem_filter hp)
      · intro k p hp
        obtain ⟨q, hq, rfl⟩ := List.mem_map.mp hp
        exact hanames k q hq
      · intro p hp s hs
        obtain ⟨q, hq, rfl⟩ := List.mem_map.mp hp
        exact hatexts q hq s (List.mem_of_mem_filter hs)
      · intro p hp
        rw [restoredComplexes_eq_map] at hp
        obtain ⟨q, hq, rfl⟩ := List.mem_map.mp hp
        exact hcnames q hq
      · intro p hp
        rw [restoredComplexArrays_eq_map] at hp
        obtain ⟨q, hq, rfl⟩ := List.mem_map.mp hp
        exact hcanames q hq
      · intro p hp
        rw [restoredComplexes_eq_map] at hp
        obtain ⟨q, hq, rfl⟩ := List.mem_map.mp hp
        exact ihc q hq (hcnames q hq)
      · intro p hp c hc
        rw [restoredComplexArrays_eq_map] at hp
        obtain ⟨q, hq, rfl⟩ := List.mem_map.mp hp
        rw [restoredItems_eq_map] at hc
        obtain ⟨d, hd, rfl⟩ := List.mem_map.mp hc
        exact ihca q hq d hd (hitems q hq d hd).getSafeName

/-- Which simple properties arrive as they are. -/
theorem restoredSimple_eq_self_iff {name : Str} {simple : (k : Simple) → List (Str × V.Val k)}
    (h : ∀ k, SortedMap.Sorted (simple k)) :
    restoredSimple name simple = simple ↔
      SortedMap.get? nameProperty (simple .string) = some name ∧
        ∀ k, k ≠ .string → SortedMap.get? nameProperty (simple k) = none := by
  constructor
  · intro heq
    refine ⟨(set_properties_eq_self_iff (h .string)).mp (congrFun heq .string), fun k hk => ?_⟩
    refine (properties_eq_self_iff (h k)).mp ?_
    cases k with
    | string => exact absurd rfl hk
    | int    => exact congrFun heq .int
    | uint   => exact congrFun heq .uint
    | double => exact congrFun heq .double
  · rintro ⟨hname, hnumbers⟩
    funext k
    cases k with
    | string => exact (set_properties_eq_self_iff (h .string)).mpr hname
    | int    => exact (properties_eq_self_iff (h .int)).mpr (hnumbers .int (by decide))
    | uint   => exact (properties_eq_self_iff (h .uint)).mpr (hnumbers .uint (by decide))
    | double => exact (properties_eq_self_iff (h .double)).mpr (hnumbers .double (by decide))

/-- Which arrays arrive as they are. -/
theorem restoredArrays_eq_self_iff {arrays : (k : Simple) → List (Str × List (V.Val k))} :
    (fun k => (arrays k).map (fun p => (p.1, restoredValues k p.2))) = arrays ↔
      ∀ p ∈ arrays .string, ∀ s : Str, s ∈ (p.2 : List Str) → s ≠ [] := by
  constructor
  · intro heq p hp s hs
    have hp' := congrArg Prod.snd (map_eq_self_iff.mp (congrFun heq .string) p hp)
    exact of_decide_eq_true (List.filter_eq_self.mp hp' s hs)
  · intro htexts
    funext k
    refine map_eq_self_iff.mpr (fun p hp => ?_)
    cases k with
    | string =>
        have hall := List.filter_eq_self.mpr (fun s hs => decide_eq_true (htexts p hp s hs))
        exact Prod.ext rfl hall
    | _ => rfl

/-- **An object arrives as it is if and only if it is canonical.** -/
theorem restored_eq_iff {c : Complex V} (h : WellFormed c) (name : Str) : restored name c = c ↔ Canonical name c := by
  induction h generalizing name with
  | @mk simple arrays complexes complexArrays hsimple harrays _ _ _ _ ihcomplexes ihcomplexArrays =>
      constructor
      · intro heq
        obtain ⟨h₁, h₂, h₃, h₄⟩ := Complex.mk.inj heq
        obtain ⟨hname, hnumbers⟩ := (restoredSimple_eq_self_iff hsimple).mp h₁
        rw [restoredComplexes_eq_map] at h₃
        rw [restoredComplexArrays_eq_map] at h₄
        refine .mk hname hnumbers (restoredArrays_eq_self_iff.mp h₂) (fun p hp => ?_) (fun p hp c hc => ?_)
        · have hp' := congrArg Prod.snd (map_eq_self_iff.mp h₃ p hp)
          exact (ihcomplexes p hp p.1).mp hp'
        · have hp' := congrArg Prod.snd (map_eq_self_iff.mp h₄ p hp)
          change restoredItems p.2 = p.2 at hp'
          rw [restoredItems_eq_map] at hp'
          exact (ihcomplexArrays p hp c hc c.getSafeName).mp (map_eq_self_iff.mp hp' c hc)
      · intro hcanonical
        cases hcanonical with
        | mk hname hnumbers htexts hcomplexes hcomplexArrays =>
            have h₁ := (restoredSimple_eq_self_iff hsimple).mpr ⟨hname, hnumbers⟩
            have h₂ := restoredArrays_eq_self_iff.mpr htexts
            have h₃ : restoredComplexes complexes = complexes := by
              rw [restoredComplexes_eq_map]
              refine map_eq_self_iff.mpr (fun p hp => ?_)
              exact Prod.ext rfl ((ihcomplexes p hp p.1).mpr (hcomplexes p hp))
            have h₄ : restoredComplexArrays complexArrays = complexArrays := by
              rw [restoredComplexArrays_eq_map]
              refine map_eq_self_iff.mpr (fun p hp => Prod.ext rfl ?_)
              change restoredItems p.2 = p.2
              rw [restoredItems_eq_map]
              exact map_eq_self_iff.mpr (fun c hc => (ihcomplexArrays p hp c hc _).mpr (hcomplexArrays p hp c hc))
            unfold restored
            rw [h₁, h₂, h₃, h₄]

end Complex

end Smart

end Unicomm
