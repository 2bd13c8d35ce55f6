import PeerRelay.Text.Utf8

/-!
# Texts read back from their bytes

The bytes of a text read back as the text. Of a text that is cut off behind some of its bytes, the
characters come back whose bytes are all there, and a character that the cut falls into comes back
as one replacement character.
-/

namespace PeerRelay.Text.Utf8

variable {c : Char} {b : UInt8} {t : Nat} {ts : List Nat}

/-! ## First bytes and continuation bytes -/

/-- Numbers below two would be overlong forms. -/
theorem lead?_two : ∀ x < 30,
    lead? (UInt8.ofNat (x + 2 + 0xC0)) = some (1, 0x80, 0xBF, x + 2) := by
  decide

/-- The narrower ranges leave out the overlong forms and the surrogates. -/
theorem lead?_three : ∀ x < 16, lead? (UInt8.ofNat (x + 0xE0)) =
    some (2, if x = 0 then 0xA0 else 0x80, if x = 13 then 0x9F else 0xBF, x) := by
  decide

/-- The narrower ranges leave out the overlong forms and the numbers past the last code point. -/
theorem lead?_four : ∀ x < 5, lead? (UInt8.ofNat (x + 0xF0)) =
    some (3, if x = 0 then 0x90 else 0x80, if x = 4 then 0x8F else 0xBF, x) := by
  decide

/-- A continuation byte: six bits under the mark. -/
def trail (t : Nat) : UInt8 := UInt8.ofNat (t + 0x80)

theorem toNat_trail (h : t < 64) : (trail t).toNat = t + 0x80 := by
  rw [trail, UInt8.toNat_ofNat']
  exact Nat.mod_eq_of_lt (by omega)

theorem trail_mem_iff (h : t < 64) {lo hi : UInt8} :
    (lo ≤ trail t ∧ trail t ≤ hi) ↔ lo.toNat ≤ t + 0x80 ∧ t + 0x80 ≤ hi.toNat := by
  rw [UInt8.le_iff_toNat_le, UInt8.le_iff_toNat_le, toNat_trail h]

theorem trail_mem (h : t < 64) : 0x80 ≤ trail t ∧ trail t ≤ 0xBF := by
  rw [trail_mem_iff h]
  simp
  omega

theorem continuation_trail (h : t < 64) {lo hi : UInt8} (hrange : lo ≤ trail t ∧ trail t ≤ hi)
    (n bits : Nat) (rest : Bytes) :
    continuation (n + 1) lo hi bits (trail t :: rest) =
      continuation n 0x80 0xBF (64 * bits + t) rest := by
  rw [continuation, if_pos hrange, toNat_trail h]
  congr 2
  omega

/-- Behind the first of them, continuation bytes are taken whatever their six bits are. -/
theorem continuation_trails (h : ∀ s ∈ ts, s < 64) (bits : Nat) (rest : Bytes) :
    continuation ts.length 0x80 0xBF bits (ts.map trail ++ rest) =
      (some (Char.ofNat (ts.foldl (64 * · + ·) bits)), rest) := by
  induction ts generalizing bits with
  | nil => rfl
  | cons t ts ih =>
      have ht : t < 64 := h t List.mem_cons_self
      rw [List.length_cons, List.map_cons, List.cons_append, continuation_trail ht (trail_mem ht),
        ih fun s hs => h s (List.mem_cons_of_mem t hs), List.foldl_cons]

/-- Where the continuation bytes run out, what there is of them is passed over as a whole. -/
theorem continuation_cut (h : ∀ s ∈ ts, s < 64) {n : Nat} (hn : ts.length < n) (bits : Nat) :
    continuation n 0x80 0xBF bits (ts.map trail) = (none, []) := by
  induction ts generalizing n bits with
  | nil =>
      obtain ⟨m, rfl⟩ := Nat.exists_eq_add_one_of_ne_zero (Nat.ne_zero_of_lt hn)
      rfl
  | cons t ts ih =>
      obtain ⟨m, rfl⟩ := Nat.exists_eq_add_one_of_ne_zero (Nat.ne_zero_of_lt hn)
      have ht : t < 64 := h t List.mem_cons_self
      rw [List.map_cons, continuation_trail ht (trail_mem ht)]
      exact ih (fun s hs => h s (List.mem_cons_of_mem t hs)) (Nat.lt_of_succ_lt_succ hn) _

/-! ## The bytes of one character -/

/-- The bytes of a character from `0x80` on: what the first of them announces, and six bits in
each of the others, which make up the number of the character together. -/
structure Multibyte (c : Char) (b : UInt8) (t : Nat) (ts : List Nat) : Prop where
  encoded : String.utf8EncodeChar c = b :: (t :: ts).map trail
  sextets : ∀ s ∈ t :: ts, s < 64
  high : ¬ b < 0x80
  announced : ∃ lo hi bits, lead? b = some (ts.length + 1, lo, hi, bits) ∧
    (lo ≤ trail t ∧ trail t ≤ hi) ∧ (t :: ts).foldl (64 * · + ·) bits = c.toNat

theorem high_of_le {x : Nat} (hlo : 0x80 ≤ x) (hhi : x < 0x100) : ¬ UInt8.ofNat x < 0x80 := by
  rw [UInt8.lt_iff_toNat_lt, UInt8.toNat_ofNat_of_lt' hhi]
  exact Nat.not_lt.mpr hlo

theorem toNat_valid (c : Char) : c.toNat < 0xD800 ∨ 0xDFFF < c.toNat ∧ c.toNat < 0x110000 :=
  c.valid

theorem multibyte_two (hlo : 0x80 ≤ c.toNat) (hhi : c.toNat ≤ 0x7FF) :
    Multibyte c (UInt8.ofNat (c.toNat / 64 % 32 + 0xC0)) (c.toNat % 64) [] where
  encoded := (if_neg (Nat.not_le.mpr hlo)).trans (if_pos hhi)
  sextets := by simp; omega
  high := high_of_le (by omega) (by omega)
  announced := by
    -- No character from `0x80` on has less than two in the bits of its first byte.
    obtain ⟨x, hx⟩ : ∃ x, c.toNat / 64 % 32 = x + 2 := ⟨c.toNat / 64 % 32 - 2, by omega⟩
    refine ⟨_, _, _, hx ▸ lead?_two x (by omega), ?_, ?_⟩
    · rw [trail_mem_iff (by omega)]
      simp
      omega
    · simp
      omega

theorem multibyte_three (hlo : 0x800 ≤ c.toNat) (hhi : c.toNat ≤ 0xFFFF) :
    Multibyte c (UInt8.ofNat (c.toNat / 4096 % 16 + 0xE0)) (c.toNat / 64 % 64)
      [c.toNat % 64] where
  encoded := (if_neg (Nat.not_le.mpr (Nat.le_trans (by decide) hlo))).trans
    ((if_neg (Nat.not_le.mpr hlo)).trans (if_pos hhi))
  sextets := by simp; omega
  high := high_of_le (by omega) (by omega)
  announced := by
    have hvalid := toNat_valid c
    refine ⟨_, _, _, lead?_three _ (by omega), ?_, ?_⟩
    · rw [trail_mem_iff (by omega)]
      split <;> split <;> simp <;> omega
    · simp
      omega

theorem multibyte_four (hlo : 0x10000 ≤ c.toNat) :
    Multibyte c (UInt8.ofNat (c.toNat / 262144 % 8 + 0xF0)) (c.toNat / 4096 % 64)
      [c.toNat / 64 % 64, c.toNat % 64] where
  encoded := (if_neg (Nat.not_le.mpr (Nat.le_trans (by decide) hlo))).trans
    ((if_neg (Nat.not_le.mpr (Nat.le_trans (by decide) hlo))).trans
      (if_neg (Nat.not_le.mpr hlo)))
  sextets := by simp; omega
  high := high_of_le (by omega) (by omega)
  announced := by
    have hvalid := toNat_valid c
    refine ⟨_, _, _, lead?_four _ (by omega), ?_, ?_⟩
    · rw [trail_mem_iff (by omega)]
      split <;> split <;> simp <;> omega
    · simp
      omega

theorem exists_multibyte (h : 0x80 ≤ c.toNat) : ∃ b t ts, Multibyte c b t ts := by
  by_cases htwo : c.toNat ≤ 0x7FF
  · exact ⟨_, _, _, multibyte_two h htwo⟩
  · by_cases hthree : c.toNat ≤ 0xFFFF
    · exact ⟨_, _, _, multibyte_three (Nat.lt_of_not_le htwo) hthree⟩
    · exact ⟨_, _, _, multibyte_four (Nat.lt_of_not_le hthree)⟩

namespace Multibyte

theorem next_append (h : Multibyte c b t ts) (rest : Bytes) :
    next b ((t :: ts).map trail ++ rest) = (some c, rest) := by
  obtain ⟨lo, hi, bits, hlead, hrange, hbits⟩ := h.announced
  obtain ⟨ht, hts⟩ := List.forall_mem_cons.mp h.sextets
  rw [List.foldl_cons] at hbits
  unfold next
  rw [if_neg h.high, hlead]
  dsimp only
  rw [List.map_cons, List.cons_append, continuation_trail ht hrange, continuation_trails hts,
    hbits, Char.ofNat_toNat]

theorem next_take (h : Multibyte c b t ts) {n : Nat} (hn : n < (t :: ts).length) :
    next b (((t :: ts).map trail).take n) = (none, []) := by
  obtain ⟨lo, hi, bits, hlead, hrange, -⟩ := h.announced
  obtain ⟨ht, hts⟩ := List.forall_mem_cons.mp h.sextets
  unfold next
  rw [if_neg h.high, hlead]
  dsimp only
  cases n with
  | zero => rfl
  | succ n =>
      rw [List.map_cons, List.take_succ_cons, continuation_trail ht hrange, ← List.map_take]
      refine continuation_cut (fun s hs => hts s (List.mem_of_mem_take hs)) ?_ _
      rw [List.length_take]
      exact Nat.lt_of_le_of_lt (Nat.min_le_left ..) (Nat.lt_of_succ_lt_succ hn)

end Multibyte

theorem scan_cons (b : UInt8) (rest : Bytes) :
    scan (b :: rest) = (next b rest).1 :: scan (next b rest).2 := by
  rw [scan]

theorem scan_utf8EncodeChar_append (c : Char) (rest : Bytes) :
    scan (String.utf8EncodeChar c ++ rest) = some c :: scan rest := by
  by_cases hlow : c.toNat < 0x80
  · have hsize : c.toNat < UInt8.size := Nat.lt_trans hlow (by decide)
    have hb : UInt8.ofNat c.toNat < 0x80 := by
      rw [UInt8.lt_iff_toNat_lt, UInt8.toNat_ofNat_of_lt' hsize]
      exact hlow
    have hencode : String.utf8EncodeChar c = [UInt8.ofNat c.toNat] :=
      if_pos (Nat.le_of_lt_succ hlow)
    rw [hencode, List.singleton_append, scan_cons, next, if_pos hb,
      UInt8.toNat_ofNat_of_lt' hsize, Char.ofNat_toNat]
  · obtain ⟨b, t, ts, h⟩ := exists_multibyte (Nat.le_of_not_lt hlow)
    rw [h.encoded, List.cons_append, scan_cons, h.next_append]

/-- What there is of a character before a cut reads as one run that is no character. -/
theorem scan_take_utf8EncodeChar {n : Nat} (hpos : n ≠ 0) (hn : n < c.utf8Size) :
    scan ((String.utf8EncodeChar c).take n) = [none] := by
  obtain ⟨m, rfl⟩ := Nat.exists_eq_add_one_of_ne_zero hpos
  have hhigh : 0x80 ≤ c.toNat := by
    refine Nat.le_of_not_lt fun hlow => ?_
    have hone := Char.utf8Size_eq_one_iff.mpr (Nat.le_of_lt_succ hlow)
    omega
  obtain ⟨b, t, ts, h⟩ := exists_multibyte hhigh
  rw [← String.length_utf8EncodeChar, h.encoded, List.length_cons, List.length_map] at hn
  rw [h.encoded, List.take_succ_cons, scan_cons, h.next_take (Nat.lt_of_succ_lt_succ hn), scan]

/-! ## Texts -/

/-- The characters that are whole within so many bytes, and a replacement character for one that
is not. -/
def cut : Nat → List Char → List Char
  | _, [] => []
  | n, c :: rest =>
    if c.utf8Size ≤ n then c :: cut (n - c.utf8Size) rest
    else if n = 0 then [] else ['\uFFFD']

/-- The first bytes of a text read as the characters that they hold whole. -/
theorem decodeLossy_take_encode (n : Nat) (text : String) :
    decodeLossy ((encode text).take n) = String.ofList (cut n text.toList) := by
  unfold decodeLossy encode
  congr 1
  induction text.toList generalizing n with
  | nil => simp [scan, cut]
  | cons c rest ih =>
      have hlen := String.length_utf8EncodeChar c
      rw [List.flatMap_cons, cut]
      -- The cut is behind the first character, in front of it or within it.
      by_cases hfits : c.utf8Size ≤ n
      · rw [if_pos hfits, List.take_append, hlen, List.take_of_length_le (hlen ▸ hfits),
          scan_utf8EncodeChar_append, List.map_cons, ih, Option.getD_some]
      · rw [if_neg hfits, List.take_append_of_le_length (by omega)]
        by_cases hzero : n = 0
        · subst hzero
          rw [if_pos rfl, List.take_zero, scan, List.map_nil]
        · rw [if_neg hzero, scan_take_utf8EncodeChar hzero (Nat.lt_of_not_le hfits)]
          rfl

theorem cut_of_length_le {n : Nat} (chars : List Char)
    (h : (chars.flatMap String.utf8EncodeChar).length ≤ n) : cut n chars = chars := by
  induction chars generalizing n with
  | nil => rfl
  | cons c rest ih =>
      rw [List.flatMap_cons, List.length_append, String.length_utf8EncodeChar] at h
      rw [cut, if_pos (by omega), ih (by omega)]

/-- A text within so many bytes comes back whole. -/
theorem decodeLossy_take_of_length_le {n : Nat} {text : String} (h : (encode text).length ≤ n) :
    decodeLossy ((encode text).take n) = text := by
  rw [decodeLossy_take_encode, cut_of_length_le text.toList h, String.ofList_toList]

end PeerRelay.Text.Utf8
