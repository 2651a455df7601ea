import Unicomm.Facade.BinCodec

/-!
# `Facade.Canonical` — byte stuffing is a bijection onto its canonical frames

`binary_encode` and `binary_decode` change the string they walk over: an insertion before the iterator, or an erasure
at it, moves everything behind. `encodeInPlace` and `decodeInPlace` are these loops on the **whole string**, the
iterator being a position in it. The invariant that ties them to the loops of `Facade.BinCodec` is the split of the
string at the iterator: what stands before it is done, what stands behind it is as it was (`encodeInPlace_split`,
`decodeInPlace_split`).

`stuffing_bijection` puts together what the library says about the frames such a codec produces and accepts, and where
`binary_decode` leaves its string (`decodeRawMessage_unpaired`).
-/

namespace Unicomm

variable {B : Build}

/-! ## The loops on the whole string -/

/-- The loop of `binary_encode` with the iterator at position `it`. -/
def encodeInPlace (s : Str) (it : Nat) : Str :=
  if h : it < s.length then
    if isBinEscapeSym s[it] || isBinEndSym s[it] then
      -- the byte is masked where it stands, then moved on by the insertion in front of it
      encodeInPlace ((s.set it (binProcessOne s[it])).insertIdx it binEscapeSym) (it + 2)
    else
      encodeInPlace s (it + 1)
  else s
termination_by s.length - it
decreasing_by
  · rw [List.length_insertIdx, List.length_set, if_pos (by omega)]
    omega
  · omega

/-- The loop of `binary_decode` with the iterator at position `it`. -/
def decodeInPlace (s : Str) (it : Nat) : Except Exc Str :=
  if h : it < s.length then
    if isBinEscapeSym s[it] then
      if h' : it < (s.eraseIdx it).length then
        decodeInPlace ((s.eraseIdx it).set it (binProcessOne (s.eraseIdx it)[it])) (it + 1)
      else
        -- `(it = s.erase(it)) == s.end()` with the old `s.end()`: false, and `*it` is behind the last byte
        throw .undefinedBehavior
    else
      decodeInPlace s (it + 1)
  else pure s
termination_by s.length - it
decreasing_by
  · rw [List.length_set, List.length_eraseIdx, if_pos h]
    omega
  · omega

/-- An insertion at the split. -/
theorem insertIdx_split (done rest : Str) (c : Byte) :
    (done ++ rest).insertIdx done.length c = done ++ c :: rest := by
  induction done with
  | nil => rw [List.nil_append, List.length_nil, List.insertIdx_zero, List.nil_append]
  | cons d done ih => simp [ih]

/-- **What is behind the iterator is still to be encoded**, and what is before it is done. -/
theorem encodeInPlace_split (done rest : Str) :
    encodeInPlace (done ++ rest) done.length = binaryEncodeLoop done rest := by
  induction rest generalizing done with
  | nil => rw [encodeInPlace, dif_neg (by simp), binaryEncodeLoop, List.append_nil]
  | cons c rest ih =>
      have hlt : done.length < (done ++ c :: rest).length := by simp
      have hget : (done ++ c :: rest)[done.length] = c := by simp
      rw [encodeInPlace, dif_pos hlt, hget, binaryEncodeLoop]
      split
      · have hnext : ((done ++ c :: rest).set done.length (binProcessOne c)).insertIdx done.length binEscapeSym
            = (done ++ [binEscapeSym, binProcessOne c]) ++ rest := by
          simp [insertIdx_split]
        rw [hnext, ← ih]
        simp
      · have hnext : done ++ c :: rest = (done ++ [c]) ++ rest := by simp
        rw [hnext, ← ih]
        simp

/-- The same for decoding: after an erasure the iterator stands on the byte to be unmasked. -/
theorem decodeInPlace_split (done rest : Str) :
    decodeInPlace (done ++ rest) done.length = binaryDecodeLoop done rest := by
  induction done, rest using binaryDecodeLoop.induct with
  | case1 done => rw [decodeInPlace, dif_neg (by simp), binaryDecodeLoop, List.append_nil]
  | case2 done c hc =>
      have hend : ¬ done.length < ((done ++ [c]).eraseIdx done.length).length := by
        simp [List.eraseIdx_append_of_length_le]
      have hget : (done ++ [c])[done.length] = c := by simp
      rw [decodeInPlace, dif_pos (by simp), hget, if_pos hc, dif_neg hend, binaryDecodeLoop, if_pos hc]
  | case3 done c hc b rest ih =>
      have herase : (done ++ c :: b :: rest).eraseIdx done.length = done ++ b :: rest := by
        simp [List.eraseIdx_append_of_length_le]
      have hget : (done ++ c :: b :: rest)[done.length] = c := by simp
      have hnext : (done ++ b :: rest).set done.length (binProcessOne b) = (done ++ [binProcessOne b]) ++ rest := by
        simp
      rw [decodeInPlace, dif_pos (by simp), hget, if_pos hc, binaryDecodeLoop, if_pos hc]
      simp only [herase]
      rw [dif_pos (by simp)]
      simp only [List.getElem_append_right, Nat.le_refl, Nat.sub_self, List.getElem_cons_zero, hnext]
      rw [← ih]
      simp
  | case4 done c rest hc ih =>
      have hget : (done ++ c :: rest)[done.length] = c := by simp
      have hnext : done ++ c :: rest = (done ++ [c]) ++ rest := by simp
      rw [decodeInPlace, dif_pos (by simp), hget, if_neg hc, binaryDecodeLoop.eq_def]
      simp only [if_neg hc]
      rw [← ih, hnext]
      simp

/-- `binary_encode`, from the first byte on. -/
theorem encodeInPlace_eq (s : Str) : encodeInPlace s 0 = binaryEncode s := encodeInPlace_split [] s

/-- `binary_decode`, from the first byte on. -/
theorem decodeInPlace_eq (s : Str) : decodeInPlace s 0 = binaryDecode s := decodeInPlace_split [] s

/-! ## Canonical frames -/

/-- A frame, given without its end marker, as the encoder writes it: every byte that no escape symbol is paired
    with is below the two reserved ones, and every escape symbol stands before a masked reserved byte. -/
def CanonicalFrame (f : Str) : Prop :=
  (∀ c ∈ binStuffing.unescaped f, c.toNat < 0xfe)
    ∧ ∀ i : Nat, f[i]? = some (0xfe : Byte) → f[i + 1]? = some (0xbe : Byte) ∨ f[i + 1]? = some (0xbf : Byte)

/-- The second half is what the library calls followed. -/
theorem followed_iff (f : Str) :
    binStuffing.Followed f
      ↔ ∀ i : Nat, f[i]? = some (0xfe : Byte) → f[i + 1]? = some (0xbe : Byte) ∨ f[i + 1]? = some (0xbf : Byte) := by
  have hesc : binStuffing.mask binStuffing.esc = 0xbe := by decide
  have hfin : binStuffing.mask binStuffing.fin = 0xbf := by decide
  unfold Stuffing.Followed
  rw [hesc, hfin]
  rfl

theorem mask_esc_ne_esc : binStuffing.mask binStuffing.esc ≠ binStuffing.esc := by decide

/-- The first half holds of every frame without an end marker. -/
theorem unescaped_lt {f : Str} (hf : binMessageEnd ∉ f) {c : Byte} (hc : c ∈ binStuffing.unescaped f) :
    c.toNat < 0xfe := by
  obtain ⟨hesc, hmem⟩ := binStuffing.of_mem_unescaped hc
  have hfe : c.toNat ≠ 0xfe := fun h => hesc (BitVec.eq_of_toNat_eq h)
  have hff : c.toNat ≠ 0xff := by
    intro h
    have hend : c = binMessageEnd := BitVec.eq_of_toNat_eq h
    exact hf (hend ▸ hmem)
  have hlt := c.isLt
  omega

theorem canonicalFrame_iff {f : Str} (hf : binMessageEnd ∉ f) : CanonicalFrame f ↔ binStuffing.Followed f := by
  rw [followed_iff]
  exact ⟨fun h => h.2, fun h => ⟨fun _ hc => unescaped_lt hf hc, h⟩⟩

/-- What the decoder does with a frame and its end marker. -/
theorem decodeRawMessage_frame (f : Str) :
    decodeRawMessage (f ++ [binMessageEnd]) = decoded [] (binStuffing.unstuff f) := by
  unfold decodeRawMessage
  rw [List.dropLast_concat, binaryDecode_eq]

/-- What is to become of a frame `f` and its end marker: it is rejected exactly if it ends in an unpaired escape
    symbol; else it has a result, and it is the encoding of that result exactly if it is canonical. -/
def DecodesCanonically (f : Str) : Prop :=
  ((∃ what, decodeRawMessage (f ++ [binMessageEnd]) = .error (.messageDecoderError what))
      ↔ binStuffing.EndsUnpaired f)
    ∧ (¬ binStuffing.EndsUnpaired f →
        ∃ t, decodeRawMessage (f ++ [binMessageEnd]) = .ok t ∧ (encodeInPlace t 0 = f ↔ CanonicalFrame f))

/-- A frame is decoded in place, without its end marker. -/
theorem decodeRawMessage_inPlace (f : Str) : decodeRawMessage (f ++ [binMessageEnd]) = decodeInPlace f 0 := by
  rw [decodeRawMessage_frame, decodeInPlace_eq, binaryDecode_eq]

/-- **At an unpaired escape symbol the decoder leaves the string.** -/
theorem decodeRawMessage_unpaired {f : Str} (h : binStuffing.EndsUnpaired f) :
    decodeRawMessage (f ++ [binMessageEnd]) = .error .undefinedBehavior := by
  rw [decodeRawMessage_frame, (binStuffing.unstuff_eq_none_iff f).mpr h]
  rfl

/-- So it does not reject the frame. -/
theorem not_decodesCanonically {f : Str} (h : binStuffing.EndsUnpaired f) : ¬ DecodesCanonically f := by
  rintro ⟨hthrows, -⟩
  obtain ⟨what, hwhat⟩ := hthrows.mpr h
  rw [decodeRawMessage_unpaired h] at hwhat
  cases hwhat

/-- Any other frame has a result. -/
theorem decodeRawMessage_paired {f : Str} (h : ¬ binStuffing.EndsUnpaired f) :
    ∃ t, binStuffing.unstuff f = some t ∧ decodeRawMessage (f ++ [binMessageEnd]) = .ok t := by
  rw [← binStuffing.unstuff_eq_none_iff] at h
  obtain ⟨t, ht⟩ := Option.ne_none_iff_exists'.mp h
  refine ⟨t, ht, ?_⟩
  rw [decodeRawMessage_frame, ht]
  rfl

/-- Its result encodes to the frame exactly if the frame is canonical. -/
theorem decodesCanonically_of_paired {f : Str} (hf : binMessageEnd ∉ f) (h : ¬ binStuffing.EndsUnpaired f) :
    DecodesCanonically f := by
  obtain ⟨t, ht, hok⟩ := decodeRawMessage_paired h
  refine ⟨⟨?_, fun hunpaired => absurd hunpaired h⟩, fun _ => ⟨t, hok, ?_⟩⟩
  · rintro ⟨what, hwhat⟩
    rw [hok] at hwhat
    cases hwhat
  · rw [encodeInPlace_eq, binaryEncode_eq, canonicalFrame_iff hf]
    exact binStuffing.stuff_eq_iff mask_esc_ne_esc hf ht

/-- **Byte stuffing is a bijection onto its canonical frames**, as far as no frame ends in an unpaired escape symbol.
    Encoding a string gives a canonical frame; with the end marker behind it that marker is the first and only one,
    and decoding gives the string back. Of the frames without an end marker the decoder does right by just those that
    do not end in an unpaired escape symbol: it takes them, and they are the encoding of what it makes of them exactly
    if they are canonical. The others it does not reject, but walks past their end. -/
theorem stuffing_bijection (B : Build) :
    (∀ s : Str,
        binMessageEnd ∉ encodeInPlace s 0 ∧ CanonicalFrame (encodeInPlace s 0)
          ∧ (∀ out, encodeRawMessage B s = .ok out
              ↔ out = encodeInPlace s 0 ++ [binMessageEnd] ∧ out.length ≤ B.maxSize)
          ∧ decodeRawMessage (encodeInPlace s 0 ++ [binMessageEnd]) = .ok s)
      ∧ ∀ f : Str, binMessageEnd ∉ f →
          decodeRawMessage (f ++ [binMessageEnd]) = decodeInPlace f 0
            ∧ (DecodesCanonically f ↔ ¬ binStuffing.EndsUnpaired f)
            ∧ (binStuffing.EndsUnpaired f → decodeInPlace f 0 = .error .undefinedBehavior) := by
  refine ⟨fun s => ?_, fun f hf => ⟨decodeRawMessage_inPlace f, ?_, fun hunpaired => ?_⟩⟩
  · rw [encodeInPlace_eq, binaryEncode_eq]
    have hopen : binMessageEnd ∉ binStuffing.stuff s := binStuffing.fin_notMem_stuff s
    refine ⟨hopen, (canonicalFrame_iff hopen).mpr (binStuffing.followed_stuff mask_esc_ne_esc s), ?_⟩
    refine ⟨fun out => ?_, ?_⟩
    · rw [encodeRawMessage, binaryEncode_eq]
      constructor
      · intro hout
        split at hout
        · next hfit => cases hout; exact ⟨rfl, hfit⟩
        · cases hout
      · rintro ⟨rfl, hfit⟩
        exact if_pos hfit
    · rw [decodeRawMessage_frame, Stuffing.unstuff_stuff]
      rfl
  · exact ⟨fun h hunpaired => not_decodesCanonically hunpaired h, decodesCanonically_of_paired hf⟩
  · rw [← decodeRawMessage_inPlace]
    exact decodeRawMessage_unpaired hunpaired

/-- A frame the encoder never writes: the escape symbol stands before a byte that needs no escape. -/
theorem stuffing_bijection_overlong : DecodesCanonically [0xfe, 0x21] ↔ ¬ binStuffing.EndsUnpaired [0xfe, 0x21] :=
  ((stuffing_bijection .lp64).2 [0xfe, 0x21] (by decide)).2.1

/-- **The escape symbol as the last byte of a frame** is not rejected: the frames `fe` and `61 fe`, each with its end
    marker. -/
theorem trailing_escape :
    ¬ DecodesCanonically [0xfe]
      ∧ decodeRawMessage [0xfe, 0xff] = .error .undefinedBehavior
      ∧ ¬ DecodesCanonically [0x61, 0xfe]
      ∧ decodeRawMessage [0x61, 0xfe, 0xff] = .error .undefinedBehavior := by
  have hone : binStuffing.EndsUnpaired [0xfe] := rfl
  have htwo : binStuffing.EndsUnpaired [0x61, 0xfe] := rfl
  exact ⟨not_decodesCanonically hone, rfl, not_decodesCanonically htwo, rfl⟩

end Unicomm
