import Mathlib.Data.List.Chain
import Mathlib.Data.List.Forall2
import Unicomm.Core.Basic
import Unicomm.Lib.Search

/-!
# `Facade.HexStr` — `\x` tokens in a configuration file's strings

Models `process_hex_str` of `helper_detail.cpp`. The code converts the first token it finds, puts the byte in
its place and **searches again from the start**. The reference cuts the string into pieces once, from the left
(`lexHex`), and gives the byte of each piece (`scanHex`). The two differ where bytes that the code produced, or
the ones next to them, make a token that was not there; everywhere else they agree.

What makes the comparison work is that tokens cannot overlap: every occurrence of `\x` in a string is a token
of the reference (`coded_mem_lexHex`). So a token without a byte stays one, whatever is put in front of it.
-/

namespace Unicomm

open Search

/-- The characters that begin a token. -/
def hexToken : Str := [0x5c, 0x78]

/-- `isxdigit`. A negative `char` is none. -/
def isXDigit (c : Byte) : Bool :=
  (0x30 ≤ c.toNat && c.toNat ≤ 0x39) || (0x41 ≤ c.toNat && c.toNat ≤ 0x46) || (0x61 ≤ c.toNat && c.toNat ≤ 0x66)

/-- The value of a hexadecimal digit. -/
def xdigitValue (c : Byte) : Nat :=
  if c.toNat ≤ 0x39 then c.toNat - 0x30 else if c.toNat ≤ 0x46 then c.toNat - 0x37 else c.toNat - 0x57

/-- The value of a sequence of hexadecimal digits. -/
def hexValue (digits : Str) : Nat := digits.foldl (fun v c => 16 * v + xdigitValue c) 0

/-- The digits of the token a string begins with: the longest run behind `\x`. -/
def tokenDigits (s : Str) : Str := (s.drop 2).takeWhile isXDigit

/-- What is behind the token a string begins with. -/
def behindToken (s : Str) : Str := (s.drop 2).dropWhile isXDigit

/-! ## The code -/

/-- `ss >> std::hex >> char_code`: a number that does not fit a `size_t` is read as the greatest one. -/
def readHex (B : Build) (digits : Str) : Nat := min (hexValue digits) (2 ^ B.sizeBits - 1)

/-- The body of the loop of `process_hex_str`, for a token at `pos`. -/
def hexStep (B : Build) (s : Str) (pos : Nat) : Except Exc Str :=
  let digits := tokenDigits (s.drop pos)
  if digits = [] then throw (.runtimeError "Hexadecimal number should have at least one digit")
  else if 255 < readHex B digits then throw (.outOfRange "Number too big for char code")
  else pure (s.take pos ++ BitVec.ofNat 8 (readHex B digits) :: behindToken (s.drop pos))

variable {B : Build} {s t : Str}

theorem length_behindToken_le (s : Str) : (behindToken s).length ≤ s.length - 2 := by
  unfold behindToken
  have hle := (List.dropWhile_sublist isXDigit (l := s.drop 2)).length_le
  rwa [List.length_drop] at hle

/-- A token is longer than the byte that takes its place. -/
theorem length_hexStep_lt {pos : Nat} (hfind : find hexToken s = some pos) (h : hexStep B s pos = .ok t) :
    t.length < s.length := by
  have hle := find_le hfind
  have hbehind := length_behindToken_le (s.drop pos)
  have htoken : hexToken.length = 2 := rfl
  unfold hexStep at h
  simp only at h
  split at h
  · cases h
  · split at h
    · cases h
    · cases h
      simp only [List.length_append, List.length_take, List.length_cons, List.length_drop] at hbehind ⊢
      omega

/-- `process_hex_str`: convert the first token, and again from the start, until there is none. -/
def processHexStr (B : Build) (s : Str) : Except Exc Str :=
  match hfind : find hexToken s with
  | none     => pure s
  | some pos =>
      match h : hexStep B s pos with
      | .error e => throw e
      | .ok t    =>
          have := length_hexStep_lt hfind h
          processHexStr B t
termination_by s.length

/-! ## The reference -/

/-- A piece of a string: a character that is copied, or a token, by its digits. -/
inductive HexPiece where
  | plain (c : Byte)
  | coded (digits : Str)
  deriving DecidableEq, Repr

/-- The byte a piece stands for. A token without a digit, or with a value above 255, stands for none. -/
def HexPiece.byte? : HexPiece → Option Byte
  | .plain c      => some c
  | .coded digits =>
      if digits = [] ∨ 255 < hexValue digits then none else some (BitVec.ofNat 8 (hexValue digits))

/-- The pieces of a string, in one pass from the left. -/
def lexHex : Str → List HexPiece
  | []     => []
  | c :: s =>
      if hexToken <+: c :: s then .coded (tokenDigits (c :: s)) :: lexHex (behindToken (c :: s))
      else .plain c :: lexHex s
termination_by s => s.length
decreasing_by
  · have hle := length_behindToken_le (c :: s)
    rw [List.length_cons] at hle ⊢
    omega
  · exact Nat.lt_succ_self _

/-- The reference: the bytes of the pieces, if every piece has one. -/
def scanHex (s : Str) : Option Str := (lexHex s).mapM HexPiece.byte?

/-- The two pieces stand for a backslash and an x. -/
def HexPiece.Joins (p q : HexPiece) : Prop := p.byte? = some 0x5c ∧ q.byte? = some 0x78

/-! ## Pieces -/

@[simp] theorem lexHex_nil : lexHex [] = [] := by
  unfold lexHex
  rfl

theorem lexHex_token (h : hexToken <+: s) : lexHex s = .coded (tokenDigits s) :: lexHex (behindToken s) := by
  cases s with
  | nil      => exact absurd h (by decide)
  | cons c s => rw [lexHex, if_pos h]

theorem lexHex_plain {c : Byte} (h : ¬ hexToken <+: c :: s) : lexHex (c :: s) = .plain c :: lexHex s := by
  rw [lexHex, if_neg h]

/-- Characters before the first token are copied. -/
theorem lexHex_append {u v : Str} (h : ∀ j, j < u.length → ¬ hexToken <+: (u ++ v).drop j) :
    lexHex (u ++ v) = u.map .plain ++ lexHex v := by
  induction u with
  | nil => simp
  | cons c u ih =>
      have hhead : ¬ hexToken <+: c :: (u ++ v) := h 0 (Nat.succ_pos _)
      have htail : ∀ j, j < u.length → ¬ hexToken <+: (u ++ v).drop j := by
        intro j hj
        exact h (j + 1) (Nat.succ_lt_succ hj)
      rw [List.cons_append, lexHex_plain hhead, ih htail, List.map_cons, List.cons_append]

/-- A string begins with its token, the token's digits and what is behind it. -/
theorem eq_of_token (h : hexToken <+: s) : s = hexToken ++ (tokenDigits s ++ behindToken s) := by
  obtain ⟨r, rfl⟩ := h
  unfold tokenDigits behindToken
  show hexToken ++ r = hexToken ++ (r.takeWhile isXDigit ++ r.dropWhile isXDigit)
  rw [List.takeWhile_append_dropWhile]

/-- Where no backslash is no token begins. -/
theorem suffix_of_token {u v w : Str} (hv : hexToken <+: v) (hu : 0x5c ∉ u) (hs : v <:+ u ++ w) : v <:+ w := by
  induction u with
  | nil => exact hs
  | cons c u ih =>
      rw [List.mem_cons, not_or] at hu
      rcases List.suffix_cons_iff.mp hs with rfl | hs
      · obtain ⟨r, hr⟩ := hv
        exact absurd (List.cons.inj hr).1 hu.1
      · exact ih hu.2 hs

/-- No token begins inside a token. -/
theorem suffix_behindToken {v : Str} (h : hexToken <+: s) (hv : hexToken <+: v) (hs : v <:+ s) (hne : v ≠ s) :
    v <:+ behindToken s := by
  have hs' : s = 0x5c :: (0x78 :: tokenDigits s ++ behindToken s) := eq_of_token h
  have hno : 0x5c ∉ 0x78 :: tokenDigits s := by
    rw [List.mem_cons, not_or]
    refine ⟨by decide, fun hmem => ?_⟩
    have hdigit : isXDigit 0x5c = true := List.mem_takeWhile_imp hmem
    exact absurd hdigit (by decide)
  rw [hs'] at hs
  rcases List.suffix_cons_iff.mp hs with heq | hs
  · exact absurd (heq.trans hs'.symm) hne
  · exact suffix_of_token hv hno hs

/-- **Every occurrence of `\x` is a token of the one pass.** -/
theorem coded_mem_lexHex {digits : Str} :
    .coded digits ∈ lexHex s ↔ ∃ v, v <:+ s ∧ hexToken <+: v ∧ tokenDigits v = digits := by
  induction s using lexHex.induct with
  | case1 =>
      simp only [lexHex_nil, List.not_mem_nil, false_iff]
      rintro ⟨v, hv, htoken, -⟩
      rw [List.suffix_nil.mp hv] at htoken
      exact absurd htoken (by decide)
  | case2 c s h ih =>
      rw [lexHex_token h, List.mem_cons, HexPiece.coded.injEq, ih]
      constructor
      · rintro (rfl | ⟨v, hv, htoken, hdigits⟩)
        · exact ⟨c :: s, List.suffix_rfl, h, rfl⟩
        · refine ⟨v, hv.trans ?_, htoken, hdigits⟩
          exact (List.dropWhile_suffix isXDigit).trans (List.drop_suffix 2 _)
      · rintro ⟨v, hv, htoken, hdigits⟩
        by_cases hne : v = c :: s
        · exact Or.inl (by rw [← hdigits, hne])
        · exact Or.inr ⟨v, suffix_behindToken h htoken hv hne, htoken, hdigits⟩
  | case3 c s h ih =>
      rw [lexHex_plain h, List.mem_cons, ih]
      constructor
      · rintro (hplain | ⟨v, hv, htoken, hdigits⟩)
        · cases hplain
        · exact ⟨v, hv.trans (List.suffix_cons c s), htoken, hdigits⟩
      · rintro ⟨v, hv, htoken, hdigits⟩
        rcases List.suffix_cons_iff.mp hv with rfl | hv
        · exact absurd htoken h
        · exact Or.inr ⟨v, hv, htoken, hdigits⟩

/-- What has a piece without a byte keeps it, whatever stands in front. -/
theorem bad_of_suffix (hs : s <:+ t) (h : ∃ p ∈ lexHex s, p.byte? = none) : ∃ p ∈ lexHex t, p.byte? = none := by
  obtain ⟨p, hp, hbyte⟩ := h
  cases p with
  | plain c => cases hbyte
  | coded digits =>
      obtain ⟨v, hv, htoken, hdigits⟩ := coded_mem_lexHex.mp hp
      exact ⟨.coded digits, coded_mem_lexHex.mpr ⟨v, hv.trans hs, htoken, hdigits⟩, hbyte⟩

/-! ## The bytes of the pieces -/

theorem mapM_eq_some {l : List HexPiece} {t : Str} :
    l.mapM HexPiece.byte? = some t ↔ List.Forall₂ (fun p c => p.byte? = some c) l t := by
  induction l generalizing t with
  | nil =>
      rw [List.mapM_nil, List.forall₂_nil_left_iff]
      exact ⟨fun h => (Option.some.inj h).symm, fun h => h ▸ rfl⟩
  | cons p l ih =>
      rw [List.mapM_cons]
      simp only [Option.bind_eq_bind, Option.bind_eq_some_iff, Option.pure_def, Option.some.injEq]
      constructor
      · rintro ⟨c, hc, cs, hcs, rfl⟩
        exact .cons hc (ih.mp hcs)
      · rintro (_ | ⟨hc, hcs⟩)
        exact ⟨_, hc, _, ih.mpr hcs, rfl⟩

/-- The reference meets a bad token, or gives a string. -/
theorem scanHex_eq_none_iff : scanHex s = none ↔ ∃ p ∈ lexHex s, p.byte? = none := by
  unfold scanHex
  induction lexHex s with
  | nil => simp
  | cons p l ih =>
      rw [List.mapM_cons, List.exists_mem_cons_iff, ← ih]
      cases p.byte? with
      | none   => simp
      | some c => cases l.mapM HexPiece.byte? <;> simp

/-- Characters before the first token are copied. -/
theorem scanHex_append {u v : Str} (h : ∀ j, j < u.length → ¬ hexToken <+: (u ++ v).drop j) :
    scanHex (u ++ v) = (scanHex v).map (u ++ ·) := by
  have hplain : (u.map HexPiece.plain).mapM HexPiece.byte? = some u := by
    rw [mapM_eq_some, List.forall₂_map_left_iff, List.forall₂_same]
    intro c hc
    rfl
  unfold scanHex
  rw [lexHex_append h, List.mapM_append, hplain]
  cases (lexHex v).mapM HexPiece.byte? <;> rfl

/-- A string without a token is its own decoding. -/
theorem scanHex_open (h : find hexToken s = none) : scanHex s = some s := by
  have hnone : ∀ j, j < s.length → ¬ hexToken <+: (s ++ []).drop j := by
    intro j hj htoken
    rw [List.append_nil] at htoken
    exact find_eq_none_iff.mp h (htoken.isInfix.trans (List.drop_suffix j s).isInfix)
  have hnil : scanHex [] = some [] := by simp [scanHex]
  have happ := scanHex_append hnone
  rwa [List.append_nil, hnil, Option.map_some, List.append_nil] at happ

/-- The reference at the first token: what is before it, its byte, the decoding of what is behind it. -/
theorem scanHex_found {pos : Nat} (h : find hexToken s = some pos) :
    scanHex s = (HexPiece.coded (tokenDigits (s.drop pos))).byte?.bind (fun b =>
      (scanHex (behindToken (s.drop pos))).map (fun t => s.take pos ++ b :: t)) := by
  obtain ⟨htoken, hle, hfirst⟩ := find_eq_some_iff.mp h
  have hbefore : ∀ j, j < (s.take pos).length → ¬ hexToken <+: (s.take pos ++ s.drop pos).drop j := by
    intro j hj
    rw [List.take_append_drop]
    rw [List.length_take] at hj
    exact hfirst j (by omega)
  have happ := scanHex_append hbefore
  rw [List.take_append_drop] at happ
  have hhead : scanHex (s.drop pos) = (HexPiece.coded (tokenDigits (s.drop pos))).byte?.bind (fun b =>
      (scanHex (behindToken (s.drop pos))).map (b :: ·)) := by
    unfold scanHex
    rw [lexHex_token htoken, List.mapM_cons]
    cases (HexPiece.coded (tokenDigits (s.drop pos))).byte? with
    | none   => rfl
    | some b => cases (lexHex (behindToken (s.drop pos))).mapM HexPiece.byte? <;> rfl
  rw [happ, hhead, Option.map_bind]
  refine congrArg _ (funext fun b => ?_)
  show Option.map _ (Option.map _ _) = _
  rw [Option.map_map]
  rfl

/-- The decoding holds no `\x` exactly when no two neighbouring pieces make one. -/
theorem isChain_lexHex_iff (h : scanHex s = some t) :
    (lexHex s).IsChain (fun p q => ¬ p.Joins q) ↔ ¬ hexToken <:+: t := by
  have hall := mapM_eq_some.mp h
  have hchain : (lexHex s).IsChain (fun p q => ¬ p.Joins q) ↔ t.IsChain (fun a b => ¬ (a = 0x5c ∧ b = 0x78)) := by
    clear h
    generalize lexHex s = l at hall ⊢
    induction hall with
    | nil => simp
    | @cons p c l t hp htl ih =>
        cases htl with
        | nil => simp
        | cons hq _ =>
            rw [List.isChain_cons_cons, List.isChain_cons_cons, ih, HexPiece.Joins, hp, hq, Option.some.injEq,
              Option.some.injEq]
  rw [hchain, List.isChain_iff_forall_rel_of_append_cons_cons]
  constructor
  · rintro hno ⟨u, v, rfl⟩
    exact hno (List.append_assoc u hexToken v) ⟨rfl, rfl⟩
  · rintro hno a b u v rfl ⟨rfl, rfl⟩
    exact hno ⟨u, v, List.append_assoc u hexToken v⟩

/-! ## One step of the code -/

/-- Numbers that fit a byte are read as they are, and the others as numbers that do not fit. -/
theorem lt_readHex_iff (B : Build) (digits : Str) : 255 < readHex B digits ↔ 255 < hexValue digits := by
  have hmax : 255 < 2 ^ B.sizeBits - 1 := by
    rcases B.size_width with hb | hb <;> rw [hb] <;> decide
  unfold readHex
  omega

theorem readHex_eq {digits : Str} (h : ¬ 255 < hexValue digits) : readHex B digits = hexValue digits := by
  have hmax : 255 < 2 ^ B.sizeBits - 1 := by
    rcases B.size_width with hb | hb <;> rw [hb] <;> decide
  unfold readHex
  omega

/-- **The loop's body replaces a token by its byte**, and throws if it has none. -/
theorem hexStep_eq_ok {pos : Nat} :
    hexStep B s pos = .ok t ↔ ∃ b, (HexPiece.coded (tokenDigits (s.drop pos))).byte? = some b
      ∧ t = s.take pos ++ b :: behindToken (s.drop pos) := by
  unfold hexStep HexPiece.byte?
  by_cases hnil : tokenDigits (s.drop pos) = []
  · simp [hnil, throw, throwThe, MonadExceptOf.throw]
  · by_cases hbig : 255 < hexValue (tokenDigits (s.drop pos))
    · simp [hnil, hbig, (lt_readHex_iff B _).mpr hbig, throw, throwThe, MonadExceptOf.throw]
    · have hfits : ¬ 255 < readHex B (tokenDigits (s.drop pos)) := fun h => hbig ((lt_readHex_iff B _).mp h)
      rw [if_neg hnil, if_neg hfits]
      simp only [hnil, hbig, if_false, or_self, readHex_eq hbig, Option.some.injEq, exists_eq_left']
      exact ⟨fun h => (Except.ok.inj h).symm, fun h => congrArg Except.ok h.symm⟩

theorem processHexStr_open (h : find hexToken s = none) : processHexStr B s = .ok s := by
  rw [processHexStr]
  split
  · rfl
  · rename_i pos hpos
    rw [h] at hpos
    cases hpos

/-- One run of the loop, and the rest of the search. -/
theorem processHexStr_found {pos : Nat} (h : find hexToken s = some pos) :
    processHexStr B s = (hexStep B s pos).bind (processHexStr B) := by
  rw [processHexStr]
  split
  · rename_i hnone
    rw [h] at hnone
    cases hnone
  · rename_i pos' hpos'
    obtain rfl := Option.some.inj (h.symm.trans hpos')
    split
    · rename_i e hstep
      rw [hstep]
      rfl
    · rename_i t' hstep
      have hbind : (hexStep B s pos).bind (processHexStr B) = processHexStr B t' := by
        rw [hstep]
        rfl
      exact hbind.symm

theorem processHexStr_throws {pos : Nat} {e : Exc} (hfind : find hexToken s = some pos)
    (hstep : hexStep B s pos = .error e) : processHexStr B s = .error e := by
  rw [processHexStr_found hfind, hstep]
  rfl

/-- The result is that of the string with the first token replaced. -/
theorem processHexStr_converts {pos : Nat} (hfind : find hexToken s = some pos) (hstep : hexStep B s pos = .ok t) :
    processHexStr B s = processHexStr B t := by
  rw [processHexStr_found hfind, hstep]
  rfl

/-! ## The code against the reference -/

/-- **A result holds no `\x`.** -/
theorem notInfix_processHexStr (h : processHexStr B s = .ok t) : ¬ hexToken <:+: t := by
  induction s using processHexStr.induct B with
  | case1 s hfind =>
      rw [processHexStr_open hfind] at h
      cases h
      exact find_eq_none_iff.mp hfind
  | case2 s pos hfind e hstep =>
      rw [processHexStr_throws hfind hstep] at h
      cases h
  | case3 s pos hfind s' hstep _ ih =>
      rw [processHexStr_converts hfind hstep] at h
      exact ih h

/-- **A bad token is met.** Where the code gives a result, so does the reference. -/
theorem scanHex_ne_none (h : processHexStr B s = .ok t) : scanHex s ≠ none := by
  induction s using processHexStr.induct B with
  | case1 s hfind =>
      rw [scanHex_open hfind]
      exact Option.some_ne_none s
  | case2 s pos hfind e hstep =>
      rw [processHexStr_throws hfind hstep] at h
      cases h
  | case3 s pos hfind s' hstep _ ih =>
      rw [processHexStr_converts hfind hstep] at h
      have hgood : scanHex s' ≠ none := ih h
      obtain ⟨b, hb, rfl⟩ := hexStep_eq_ok.mp hstep
      rw [scanHex_found hfind, hb]
      intro hnone
      simp only [Option.bind_some, Option.map_eq_none_iff] at hnone
      -- a bad token behind the first one is still there when the first one is replaced
      have hsuffix : behindToken (s.drop pos) <:+ s.take pos ++ b :: behindToken (s.drop pos) :=
        (List.suffix_cons b _).trans (List.suffix_append _ _)
      exact hgood (scanHex_eq_none_iff.mpr (bad_of_suffix hsuffix (scanHex_eq_none_iff.mp hnone)))

/-- A byte put in front of a string makes no token there, unless its decoding shows it. -/
theorem not_prefix_of_scanHex {b : Byte} {u : Str} (h : scanHex s = some u) (hno : ¬ hexToken <:+: b :: u) :
    ¬ hexToken <+: b :: s := by
  rintro ⟨r, hr⟩
  obtain ⟨rfl, rfl⟩ := List.cons.inj hr
  have hplain : ∀ j, j < [(0x78 : Byte)].length → ¬ hexToken <+: ([0x78] ++ r).drop j := by
    intro j hj htoken
    obtain rfl : j = 0 := by simpa using hj
    obtain ⟨w, hw⟩ := htoken
    exact absurd (List.cons.inj hw).1 (by decide)
  change scanHex ([0x78] ++ r) = some u at h
  rw [scanHex_append hplain] at h
  obtain ⟨w, -, rfl⟩ := Option.map_eq_some_iff.mp h
  exact hno ⟨[], w, rfl⟩

/-- Up to and including the first token's byte no token begins, so the reference copies it all. -/
theorem not_starts_converted {u : Str} {b : Byte} {p v : Str} (hv : scanHex v = some u)
    (hno : ¬ hexToken <:+: p ++ b :: u) (j : Nat) (hj : j < (p ++ [b]).length) :
    ¬ hexToken <+: ((p ++ [b]) ++ v).drop j := by
  intro htoken
  have hlen : (p ++ [b]).length = p.length + 1 := List.length_append
  rw [hlen] at hj
  rcases Nat.lt_or_eq_of_le (Nat.lt_succ_iff.mp hj) with hlt | rfl
  · rw [List.drop_append_of_le_length (by omega)] at htoken
    have hinside : hexToken <+: (p ++ [b]).drop j := by
      refine List.prefix_of_prefix_length_le htoken (List.prefix_append _ _) ?_
      rw [List.length_drop, hlen]
      show 2 ≤ _
      omega
    apply hno
    refine (hinside.isInfix.trans (List.drop_suffix _ _).isInfix).trans ?_
    exact ⟨[], u, by simp⟩
  · rw [List.append_assoc, List.drop_left] at htoken
    refine not_prefix_of_scanHex hv (fun h => hno (h.trans ?_)) htoken
    exact (List.suffix_append _ _).isInfix

/-- **One pass is enough** where the decoding holds no `\x`. -/
theorem processHexStr_of_scanHex (h : scanHex s = some t) (hno : ¬ hexToken <:+: t) :
    processHexStr B s = .ok t := by
  induction s using processHexStr.induct B with
  | case1 s hfind =>
      rw [scanHex_open hfind] at h
      rw [processHexStr_open hfind, Option.some.inj h]
  | case2 s pos hfind e hstep =>
      rw [scanHex_found hfind] at h
      obtain ⟨b, hb, -⟩ := Option.bind_eq_some_iff.mp h
      cases hstep.symm.trans (hexStep_eq_ok.mpr ⟨b, hb, rfl⟩)
  | case3 s pos hfind s' hstep _ ih =>
      rw [processHexStr_converts hfind hstep]
      apply ih
      rw [scanHex_found hfind] at h
      obtain ⟨b, hb, hmap⟩ := Option.bind_eq_some_iff.mp h
      obtain ⟨u, hu, rfl⟩ := Option.map_eq_some_iff.mp hmap
      obtain ⟨b', hb', rfl⟩ := hexStep_eq_ok.mp hstep
      obtain rfl := Option.some.inj (hb'.symm.trans hb)
      have happ := scanHex_append (not_starts_converted hu hno)
      rwa [List.append_assoc, List.singleton_append, hu, Option.map_some, List.append_assoc] at happ

/-- **`process_hex_str` is one decoding pass** on exactly these strings: the ones with a token that has no digit
    or too great a value, and the ones in which no two neighbouring pieces stand for a backslash and an x. -/
theorem processHexStr_onePass_iff (B : Build) (s : Str) :
    (∀ t, processHexStr B s = .ok t ↔ scanHex s = some t)
      ↔ (∃ p ∈ lexHex s, p.byte? = none) ∨ (lexHex s).IsChain (fun p q => ¬ p.Joins q) := by
  rw [← scanHex_eq_none_iff]
  cases hscan : scanHex s with
  | none =>
      refine iff_of_true (fun t => ⟨fun h => ?_, fun h => ?_⟩) (Or.inl rfl)
      · exact absurd hscan (scanHex_ne_none h)
      · cases h
  | some u =>
      rw [isChain_lexHex_iff hscan, or_iff_right (Option.some_ne_none u)]
      constructor
      · intro h
        exact notInfix_processHexStr ((h u).mpr rfl)
      · intro hno t
        rw [processHexStr_of_scanHex hscan hno, Option.some.injEq, Except.ok.injEq]

/-- A coded backslash in front of an x: the code takes the two for a token. -/
def codedBackslash : Str := [0x5c, 0x78, 0x35, 0x63, 0x78, 0x34, 0x31]

/-- **Produced bytes are read again**: the text of the code `5c` followed by `x41` becomes `A`. -/
theorem processHexStr_rescans : ¬ ∀ s t, processHexStr .lp64 s = .ok t ↔ scanHex s = some t := by
  intro hclaim
  have hfind : find hexToken codedBackslash = some 0 := by decide
  have hbehind : scanHex (behindToken (codedBackslash.drop 0)) = some [0x78, 0x34, 0x31] :=
    scanHex_open (by decide)
  have hscan : scanHex codedBackslash = some [0x5c, 0x78, 0x34, 0x31] := by
    rw [scanHex_found hfind, hbehind]
    decide
  have hresult := (hclaim codedBackslash _).mpr hscan
  exact notInfix_processHexStr hresult (by decide)

end Unicomm
