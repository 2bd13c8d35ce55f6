import Mathlib.Data.Nat.Find
import PeerRelay.Proofs.Wire.Framing

/-!
# Finding the next header

Where no valid header stands at the front of a buffer, two bytes are skipped, so only even offsets
are ever looked at. A drain therefore skips up to the first even offset at which a valid header
begins, and if there is none, until too few bytes are left for a header. Frames behind garbage of
even length are found unless a header begins in the garbage.
-/

namespace PeerRelay.Wire.Frame

variable {buffer : Bytes} {k : Nat} {header : Header}

/-- A valid header begins at the offset. -/
def HeaderAt (buffer : Bytes) (k : Nat) (header : Header) : Prop :=
  (∃ rest, Header.read (buffer.drop k) = some (header, rest)) ∧ header.isValid = true

/-- The first even offset at which a valid header begins. -/
structure FirstHeader (buffer : Bytes) (k : Nat) (header : Header) : Prop where
  even : k % 2 = 0
  headerAt : HeaderAt buffer k header
  least : ∀ j < k, j % 2 = 0 → ∀ other, ¬ HeaderAt buffer j other

/-- The even offsets below a bound. -/
def evens (n : Nat) : List Nat := (List.range n).filter (· % 2 == 0)

/-- The even offsets from which on there are enough bytes for a header. -/
def windows (buffer : Bytes) : List Nat := evens (buffer.length + 1 - Header.size)

/-- What is reported of the bytes at an offset where no valid header begins. -/
def skipAt (buffer : Bytes) (k : Nat) : Piece :=
  .skip (buffer.getD k 0) (buffer.getD (k + 1) 0) (buffer.getD (k + 3) 0)

theorem mem_evens_iff {n : Nat} : k ∈ evens n ↔ k % 2 = 0 ∧ k < n := by
  rw [evens, List.mem_filter, List.mem_range, beq_iff_eq, and_comm]

theorem mem_windows_iff : k ∈ windows buffer ↔ k % 2 = 0 ∧ k + Header.size ≤ buffer.length := by
  rw [windows, mem_evens_iff, Nat.lt_sub_iff_add_lt, Nat.lt_succ_iff]

theorem evens_eq (n : Nat) : evens n = (List.range ((n + 1) / 2)).map (2 * ·) := by
  induction n with
  | zero => rfl
  | succ n ih =>
      rw [evens, List.range_succ, List.filter_append, ← evens, ih]
      by_cases heven : n % 2 = 0
      · have hhalf : (n + 1 + 1) / 2 = (n + 1) / 2 + 1 := by omega
        have hlast : 2 * ((n + 1) / 2) = n := by omega
        have hkept : [n].filter (· % 2 == 0) = [n] := by simp [heven]
        rw [hhalf, List.range_succ, List.map_append, List.map_singleton, hlast, hkept]
      · have hhalf : (n + 1 + 1) / 2 = (n + 1) / 2 := by omega
        have hleft : [n].filter (· % 2 == 0) = [] := by simp [heven]
        rw [hhalf, hleft, List.append_nil]

theorem length_evens (n : Nat) : (evens n).length = (n + 1) / 2 := by
  rw [evens_eq, List.length_map, List.length_range]

/-! ## Calls that find no header -/

/-- Two bytes are skipped where there are enough bytes for a header but they are none. -/
theorem next_of_miss (hlen : k + Header.size ≤ buffer.length)
    (hmiss : ∀ header, ¬ HeaderAt buffer k header) :
    next (buffer.drop k) = some (skipAt buffer k, buffer.drop (k + 2)) := by
  cases hread : Header.read (buffer.drop k) with
  | none =>
      have hshort := Header.read_eq_none_iff.mp hread
      rw [List.length_drop] at hshort
      rw [Header.size] at hlen
      omega
  | some found =>
      obtain ⟨header, rest⟩ := found
      have hinvalid : ¬ header.isValid = true := fun hvalid => hmiss header ⟨⟨rest, hread⟩, hvalid⟩
      have hbytes := Header.eq_toBytes_append_of_read hread
      have hget : ∀ i, buffer.getD (k + i) 0 = (header.toBytes ++ rest).getD i 0 := by
        intro i
        rw [← hbytes, List.getD_eq_getElem?_getD, List.getD_eq_getElem?_getD,
          List.getElem?_drop]
      have hskip : skipAt buffer k =
          .skip header.magic1 header.magic2 header.serverVersion := by
        rw [skipAt, hget 1, hget 3, ← Nat.add_zero k, hget 0]
        rfl
      rw [next, hread]
      dsimp only
      rw [if_neg hinvalid, hskip, List.drop_drop]

/-- A drain skips as long as no valid header begins at the even offset it is at. -/
theorem drain_of_misses (n : Nat) (hlen : ∀ j ∈ evens n, j + Header.size ≤ buffer.length)
    (hmiss : ∀ j ∈ evens n, ∀ header, ¬ HeaderAt buffer j header) :
    drain buffer =
      ((evens n).map (skipAt buffer) ++ (drain (buffer.drop (2 * (evens n).length))).1,
        (drain (buffer.drop (2 * (evens n).length))).2) := by
  rw [evens_eq] at hlen hmiss ⊢
  rw [List.length_map, List.length_range]
  generalize (n + 1) / 2 = m at hlen hmiss ⊢
  -- By induction on the number of offsets: behind those before it, the drain is at the last.
  induction m with
  | zero => rfl
  | succ m ih =>
      have hmem : ∀ j ∈ (List.range m).map (2 * ·), j ∈ (List.range (m + 1)).map (2 * ·) := by
        rw [List.range_succ, List.map_append]
        exact fun j hj => List.mem_append_left _ hj
      have hlast : 2 * m ∈ (List.range (m + 1)).map (2 * ·) :=
        List.mem_map_of_mem List.self_mem_range_succ
      rw [ih (fun j hj => hlen j (hmem j hj)) (fun j hj => hmiss j (hmem j hj)),
        drain_of_next_eq_some (next_of_miss (hlen _ hlast) (hmiss _ hlast)), List.range_succ,
        List.map_append, List.map_append, List.append_assoc]
      rfl

/-! ## The search -/

theorem exists_first_or_none (buffer : Bytes) :
    (∃ k header, FirstHeader buffer k header) ∨
      ∀ k header, k % 2 = 0 → ¬ HeaderAt buffer k header := by
  classical
  by_cases h : ∃ k, k % 2 = 0 ∧ ∃ header, HeaderAt buffer k header
  · obtain ⟨heven, header, hat⟩ := Nat.find_spec h
    refine .inl ⟨Nat.find h, header, heven, hat, fun j hj hjeven other hother => ?_⟩
    exact Nat.find_min h hj ⟨hjeven, other, hother⟩
  · exact .inr fun k header heven hat => h ⟨k, heven, header, hat⟩

theorem FirstHeader.size_le (h : FirstHeader buffer k header) :
    k + Header.size ≤ buffer.length := by
  obtain ⟨rest, hread⟩ := h.headerAt.1
  have hlen := congrArg List.length (Header.eq_toBytes_append_of_read hread)
  rw [List.length_drop, List.length_append, Header.length_toBytes] at hlen
  rw [Header.size]
  omega

/-- A drain skips up to the first header. -/
theorem drain_of_first (h : FirstHeader buffer k header) :
    drain buffer =
      ((evens k).map (skipAt buffer) ++ (drain (buffer.drop k)).1,
        (drain (buffer.drop k)).2) := by
  have hsize := h.size_le
  have heven := h.even
  have hcount : 2 * (evens k).length = k := by
    rw [length_evens]
    omega
  have hdrain := drain_of_misses k
    (fun j hj => by have := (mem_evens_iff.mp hj).2; omega)
    (fun j hj => h.least j (mem_evens_iff.mp hj).2 (mem_evens_iff.mp hj).1)
  rwa [hcount] at hdrain

/-- At the header, the frame is taken as soon as its body is complete. -/
theorem next_of_headerAt (h : HeaderAt buffer k header) :
    next (buffer.drop k) =
      if buffer.length < k + header.frameLength then none
      else some (.frame ⟨header, (buffer.drop (k + Header.size)).take header.bodyLength.toNat⟩,
        buffer.drop (k + header.frameLength)) := by
  obtain ⟨⟨rest, hread⟩, hvalid⟩ := h
  have hbytes := Header.eq_toBytes_append_of_read hread
  have hrest : rest = buffer.drop (k + Header.size) := by
    rw [← List.drop_drop, hbytes, Header.size, List.drop_left' (Header.length_toBytes header)]
  have hlen := congrArg List.length hbytes
  rw [List.length_drop, List.length_append, Header.length_toBytes] at hlen
  rw [next, hread]
  dsimp only
  rw [if_pos hvalid]
  by_cases hshort : rest.length < header.bodyLength.toNat
  · rw [if_pos hshort, if_pos (by rw [Header.frameLength, Header.size]; omega)]
  · rw [if_neg hshort, if_neg (by rw [Header.frameLength, Header.size]; omega), hrest,
      List.drop_drop, Header.frameLength, Nat.add_assoc]

/-- What a drain makes of a buffer. -/
structure Resynchronized (buffer : Bytes) : Prop where
  /-- A valid header begins at an even offset, or at none of them. -/
  decided : (∃ k header, FirstHeader buffer k header) ∨
    ∀ k header, k % 2 = 0 → ¬ HeaderAt buffer k header
  /-- The calls come to an end. -/
  drains : Drains buffer (drain buffer).1 (drain buffer).2
  halved : ∀ k header, FirstHeader buffer k header → (evens k).length = k / 2
  /-- The first header is found with all of its body: up to it two bytes are skipped at each even
  offset, and then its frame is taken. -/
  whole : ∀ k header, FirstHeader buffer k header → k + header.frameLength ≤ buffer.length →
    drain buffer =
      ((evens k).map (skipAt buffer) ++
          .frame ⟨header, (buffer.drop (k + Header.size)).take header.bodyLength.toNat⟩ ::
            (drain (buffer.drop (k + header.frameLength))).1,
        (drain (buffer.drop (k + header.frameLength))).2)
  /-- A part of its body is missing: the search waits at the header. -/
  part : ∀ k header, FirstHeader buffer k header → buffer.length < k + header.frameLength →
    drain buffer = ((evens k).map (skipAt buffer), buffer.drop k)
  /-- There is no header: two bytes are skipped at each even offset with enough bytes for one. -/
  absent : (∀ k header, k % 2 = 0 → ¬ HeaderAt buffer k header) →
    drain buffer =
      ((windows buffer).map (skipAt buffer), buffer.drop (2 * (windows buffer).length))
  leftover : (∀ k header, k % 2 = 0 → ¬ HeaderAt buffer k header) → Header.size ≤ buffer.length →
    (drain buffer).2.length = 6 ∨ (drain buffer).2.length = 7
  untouched : buffer.length < Header.size → drain buffer = ([], buffer)
  /-- Frames are found behind garbage of even length if no header begins in the garbage. -/
  behind : ∀ garbage frames tail, buffer = garbage ++ frames.flatMap toBytes ++ tail →
    garbage.length % 2 = 0 → frames ≠ [] →
    (∀ f ∈ frames, f.header.isValid = true ∧ f.header.bodyLength.toNat = f.body.length) →
    (∀ k header, k % 2 = 0 → k < garbage.length → ¬ HeaderAt buffer k header) →
    drain buffer =
      ((evens garbage.length).map (skipAt buffer) ++ frames.map .frame ++ (drain tail).1,
        (drain tail).2)

theorem length_windows (buffer : Bytes) : (windows buffer).length = (buffer.length - 6) / 2 := by
  rw [windows, length_evens, Header.size]
  omega

theorem drain_of_absent (habsent : ∀ k header, k % 2 = 0 → ¬ HeaderAt buffer k header) :
    drain buffer =
      ((windows buffer).map (skipAt buffer), buffer.drop (2 * (windows buffer).length)) := by
  have hdrain := drain_of_misses (buffer.length + 1 - Header.size)
    (fun j hj => (mem_windows_iff.mp hj).2)
    (fun j hj header => habsent j header (mem_windows_iff.mp hj).1)
  rw [← windows] at hdrain
  have hshort : (buffer.drop (2 * (windows buffer).length)).length < Header.size := by
    rw [List.length_drop, length_windows, Header.size]
    omega
  rw [hdrain, drain_of_next_eq_none (next_eq_none_iff.mpr (.inl hshort)), List.append_nil]

theorem drain_frames_append {frames : List Frame}
    (h : ∀ f ∈ frames, f.header.isValid = true ∧ f.header.bodyLength.toNat = f.body.length)
    (tail : Bytes) :
    drain (frames.flatMap toBytes ++ tail) =
      (frames.map .frame ++ (drain tail).1, (drain tail).2) := by
  rw [drain_append, drain_frames frames h, List.nil_append]

theorem headerAt_append {garbage : Bytes} {f : Frame} (hvalid : f.header.isValid = true)
    (rest : Bytes) : HeaderAt (garbage ++ (f.toBytes ++ rest)) garbage.length f.header := by
  refine ⟨⟨f.body ++ rest, ?_⟩, hvalid⟩
  rw [List.drop_left, toBytes, List.append_assoc, Header.read_toBytes_append]

/-- Every buffer is searched for a header at its even offsets. -/
theorem resynchronized (buffer : Bytes) : Resynchronized buffer where
  decided := exists_first_or_none buffer
  drains := drains_drain buffer
  halved k header h := by
    have heven := h.even
    rw [length_evens]
    omega
  whole k header h hlen := by
    have hnext := next_of_headerAt h.headerAt
    rw [if_neg (Nat.not_lt.mpr hlen)] at hnext
    rw [drain_of_first h, drain_of_next_eq_some hnext]
  part k header h hlen := by
    have hnext := next_of_headerAt h.headerAt
    rw [if_pos hlen] at hnext
    rw [drain_of_first h, drain_of_next_eq_none hnext, List.append_nil]
  absent := drain_of_absent
  leftover habsent hlen := by
    rw [drain_of_absent habsent, List.length_drop, length_windows]
    rw [Header.size] at hlen
    omega
  untouched hlen := drain_of_next_eq_none (next_eq_none_iff.mpr (.inl hlen))
  behind garbage frames tail hbuffer heven hne hframes hmiss := by
    obtain ⟨f, more, rfl⟩ := List.exists_cons_of_ne_nil hne
    have hfirst : FirstHeader buffer garbage.length f.header := by
      refine ⟨heven, ?_, fun j hj hjeven other => hmiss j other hjeven hj⟩
      rw [hbuffer, List.flatMap_cons, List.append_assoc, List.append_assoc]
      exact headerAt_append (hframes f List.mem_cons_self).1 _
    have hdrop : buffer.drop garbage.length = (f :: more).flatMap toBytes ++ tail := by
      rw [hbuffer, List.append_assoc, List.drop_left]
    rw [drain_of_first hfirst, hdrop, drain_frames_append hframes, List.append_assoc]

end PeerRelay.Wire.Frame
