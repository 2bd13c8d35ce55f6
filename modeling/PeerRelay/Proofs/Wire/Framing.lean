import PeerRelay.Wire.Frame

/-!
# Streams cut into frames

A stream arrives in chunks, and after each of them pieces are cut off the buffer until more
bytes are needed. What can be cut off a buffer does not change when bytes come in
behind it, so it makes no difference where the stream is cut into chunks.
-/

namespace PeerRelay.Wire.Frame

variable {buffer left rest : Bytes} {piece : Piece} {pieces : List Piece}

/-! ## One call -/

/-- What is at hand is a part of a header, or a valid header with a part of its body. -/
def Incomplete (buffer : Bytes) : Prop :=
  buffer.length < Header.size ∨
    ∃ header rest, Header.read buffer = some (header, rest) ∧ header.isValid = true ∧
      buffer.length < header.frameLength

theorem next_eq_none_iff : next buffer = none ↔ Incomplete buffer := by
  unfold next Incomplete
  cases hread : Header.read buffer with
  | none =>
      have hshort := Header.read_eq_none_iff.mp hread
      exact ⟨fun _ => .inl hshort, fun _ => rfl⟩
  | some found =>
      obtain ⟨header, rest⟩ := found
      have hlen : buffer.length = 8 + rest.length := by
        rw [Header.eq_toBytes_append_of_read hread]
        simp
      have hlong : ¬ buffer.length < Header.size := by simp [Header.size, hlen]
      dsimp only
      constructor
      · intro h
        split at h
        · split at h
          · refine .inr ⟨header, rest, rfl, ‹_›, ?_⟩
            rw [hlen]
            exact Nat.add_lt_add_left ‹_› 8
          · cases h
        · cases h
      · rintro (hshort | ⟨header', rest', heq, hvalid, hshort⟩)
        · exact absurd hshort hlong
        · cases heq
          rw [hlen] at hshort
          rw [if_pos hvalid, if_pos (Nat.lt_of_add_lt_add_left hshort)]

/-- What was cut off is cut off all the same when more bytes stand behind it. -/
theorem next_append (h : next buffer = some (piece, rest)) (more : Bytes) :
    next (buffer ++ more) = some (piece, rest ++ more) := by
  unfold next at h ⊢
  cases hread : Header.read buffer with
  | none =>
      rw [hread] at h
      cases h
  | some found =>
      obtain ⟨header, after⟩ := found
      have hbytes := Header.eq_toBytes_append_of_read hread
      have hread' : Header.read (buffer ++ more) = some (header, after ++ more) := by
        rw [hbytes, List.append_assoc, Header.read_toBytes_append]
      rw [hread] at h
      rw [hread']
      dsimp only at h ⊢
      by_cases hvalid : header.isValid = true
      · rw [if_pos hvalid] at h ⊢
        split at h
        · cases h
        · rename_i hlen
          have hle := Nat.le_of_not_lt hlen
          cases h
          rw [if_neg (by simp; omega), List.take_append_of_le_length hle,
            List.drop_append_of_le_length hle]
      · rw [if_neg hvalid] at h ⊢
        cases h
        rw [hbytes]
        rfl

/-- A whole frame under a valid header is what comes off the front. -/
theorem next_toBytes_append {f : Frame} (hvalid : f.header.isValid = true)
    (hlen : f.header.bodyLength.toNat = f.body.length) (rest : Bytes) :
    next (f.toBytes ++ rest) = some (.frame f, rest) := by
  simp [next, toBytes, hvalid, hlen]

theorem eq_of_toBytes_eq {f g : Frame} (h : f.toBytes = g.toBytes) : f = g := by
  have hread := congrArg Header.read h
  rw [toBytes, toBytes, Header.read_toBytes_append, Header.read_toBytes_append] at hread
  obtain ⟨hheader, hbody⟩ := Prod.mk.inj (Option.some.inj hread)
  exact congr (congrArg Frame.mk hheader) hbody

/-- A frame comes off the front only if its header is valid. -/
theorem isValid_of_next {f : Frame} (h : next buffer = some (.frame f, rest)) :
    f.header.isValid = true := by
  unfold next at h
  split at h
  · cases h
  · split at h
    · split at h
      · cases h
      · cases h
        assumption
    · cases h

theorem length_lt_of_incomplete (h : Incomplete buffer) : buffer.length < 65543 := by
  rcases h with hshort | ⟨header, rest, -, -, hshort⟩
  · exact Nat.lt_trans hshort (by decide)
  · have hbound := header.bodyLength.toNat_lt
    simp only [Header.frameLength, Header.size] at hshort
    omega

/-! ## Calls until more bytes are needed -/

/-- The calls that a drain is made of: pieces come off the buffer one after another, up to the
call that finds nothing to take. -/
inductive Drains : Bytes → List Piece → Bytes → Prop where
  | idle {buffer : Bytes} (h : next buffer = none) : Drains buffer [] buffer
  | cut {buffer rest left : Bytes} {piece : Piece} {pieces : List Piece}
      (h : next buffer = some (piece, rest)) (hrest : Drains rest pieces left) :
      Drains buffer (piece :: pieces) left

/-- Every drain comes to its end. -/
theorem drains_drain (buffer : Bytes) : Drains buffer (drain buffer).1 (drain buffer).2 := by
  induction hlen : buffer.length using Nat.strongRecOn generalizing buffer with
  | ind n ih =>
      subst hlen
      cases hnext : next buffer with
      | none =>
          rw [drain_of_next_eq_none hnext]
          exact .idle hnext
      | some found =>
          obtain ⟨piece, rest⟩ := found
          rw [drain_of_next_eq_some hnext]
          exact .cut hnext (ih rest.length (length_lt_of_next hnext) rest rfl)

namespace Drains

theorem next_left (h : Drains buffer pieces left) : next left = none := by
  induction h with
  | idle h => exact h
  | cut _ _ ih => exact ih

theorem toBytes_append (h : Drains buffer pieces left) :
    pieces.flatMap Piece.toBytes ++ left = buffer := by
  induction h with
  | idle _ => rfl
  | cut h _ ih => rw [List.flatMap_cons, List.append_assoc, ih, toBytes_append_of_next h]

/-- Draining goes on from what is left when more bytes come in. -/
theorem append (h : Drains buffer pieces left) (more : Bytes) :
    drain (buffer ++ more) =
      (pieces ++ (drain (left ++ more)).1, (drain (left ++ more)).2) := by
  induction h with
  | idle _ => rfl
  | cut h _ ih => rw [drain_of_next_eq_some (next_append h more), ih, List.cons_append]

theorem isValid {f : Frame} (h : Drains buffer pieces left) (hf : .frame f ∈ pieces) :
    f.header.isValid = true := by
  induction h with
  | idle _ => exact absurd hf List.not_mem_nil
  | cut h _ ih =>
      rcases List.mem_cons.mp hf with rfl | hf
      · exact isValid_of_next h
      · exact ih hf

end Drains

theorem drain_append (buffer more : Bytes) :
    drain (buffer ++ more) =
      ((drain buffer).1 ++ (drain ((drain buffer).2 ++ more)).1,
        (drain ((drain buffer).2 ++ more)).2) :=
  (drains_drain buffer).append more

/-- Whole frames under valid headers are drained one by one, and nothing is left of them. -/
theorem drain_frames (frames : List Frame)
    (h : ∀ f ∈ frames, f.header.isValid = true ∧ f.header.bodyLength.toNat = f.body.length) :
    drain (frames.flatMap toBytes) = (frames.map .frame, []) := by
  induction frames with
  | nil => exact drain_of_next_eq_none rfl
  | cons f frames ih =>
      obtain ⟨hvalid, hlen⟩ := h f List.mem_cons_self
      have hrest := ih fun g hg => h g (List.mem_cons_of_mem f hg)
      rw [List.flatMap_cons, drain_of_next_eq_some (next_toBytes_append hvalid hlen _), hrest,
        List.map_cons]

/-! ## Chunks -/

/-- Takes in one chunk after another and drains the buffer after each of them. -/
def drainEach (buffer : Bytes) : List Bytes → List Piece × Bytes
  | [] => ([], buffer)
  | chunk :: chunks =>
    let (pieces, left) := drain (buffer ++ chunk)
    let (more, left) := drainEach left chunks
    (pieces ++ more, left)

/-- A buffer that has been drained takes in chunks as it would take them in at once. -/
theorem drainEach_eq_drain (h : next buffer = none) (chunks : List Bytes) :
    drainEach buffer chunks = drain (buffer ++ chunks.flatten) := by
  induction chunks generalizing buffer with
  | nil => rw [drainEach, List.flatten_nil, List.append_nil, drain_of_next_eq_none h]
  | cons chunk chunks ih =>
      have hleft := (drains_drain (buffer ++ chunk)).next_left
      rw [drainEach, List.flatten_cons, ← List.append_assoc,
        drain_append (buffer ++ chunk) chunks.flatten, ← ih hleft]

/-- However the bytes of whole frames are cut into chunks, the frames are what comes off them. -/
theorem drainEach_frames {frames : List Frame}
    (h : ∀ f ∈ frames, f.header.isValid = true ∧ f.header.bodyLength.toNat = f.body.length)
    {chunks : List Bytes} (hchunks : chunks.flatten = frames.flatMap toBytes) :
    drainEach [] chunks = (frames.map .frame, []) := by
  rw [drainEach_eq_drain rfl, List.nil_append, hchunks, drain_frames frames h]

/-- What becomes of a stream that was drained. -/
structure Conserved (stream : Bytes) (pieces : List Piece) (left : Bytes) : Prop where
  /-- It took finitely many calls, the last of which found nothing to take. -/
  drains : Drains stream pieces left
  /-- Frames, skipped bytes and what is left make up the stream. -/
  toBytes_append : pieces.flatMap Piece.toBytes ++ left = stream
  incomplete : Incomplete left
  length_lt : left.length < 65543
  /-- Nothing is taken from what is left until more bytes come in. -/
  idle : next left = none ∧ drain left = ([], left)

theorem conserved_drain (stream : Bytes) :
    Conserved stream (drain stream).1 (drain stream).2 := by
  have hdrains := drains_drain stream
  have hnext := hdrains.next_left
  have hincomplete := next_eq_none_iff.mp hnext
  exact ⟨hdrains, hdrains.toBytes_append, hincomplete, length_lt_of_incomplete hincomplete,
    hnext, drain_of_next_eq_none hnext⟩

/-- However a stream is cut into chunks, the same pieces come off it and the same bytes are left
as if it had come at once, and no byte is lost or taken twice. -/
theorem drainEach_conserves (chunks : List Bytes) :
    drainEach [] chunks = drain chunks.flatten ∧
      Conserved chunks.flatten (drainEach [] chunks).1 (drainEach [] chunks).2 := by
  have hsame : drainEach [] chunks = drain chunks.flatten := drainEach_eq_drain rfl chunks
  rw [hsame]
  exact ⟨rfl, conserved_drain chunks.flatten⟩

end PeerRelay.Wire.Frame
