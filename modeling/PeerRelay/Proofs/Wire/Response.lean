import PeerRelay.Proofs.Wire.Framing
import PeerRelay.Session

/-!
# Responses on the stream

A response reads back from its frame as it was, whatever header it is written under. A
header that is valid gives a valid one, and the length it announces is the true one as long
as sixteen bits can count the body, so responses that follow each other on a stream come
off it one by one.
-/

namespace PeerRelay

open Wire

namespace Response

theorem function_frame (r : Response) (header : Header) :
    (r.frame header).header.function = r.opcode.code := rfl

/-- Reading undoes writing. -/
theorem decode_frame (r : Response) (header : Header) : decode (r.frame header) = .ok r := by
  have hop : Opcode.ofCode? (r.frame header).header.function = some r.opcode := by
    rw [function_frame, Opcode.ofCode?_code]
  unfold decode
  rw [hop]
  cases r with
  | login result id =>
      simp only [opcode, frame, body, little32, decodeLogin, ofLittle32_bytes,
        ResultCode.ofCode_code]
  | proxy result channel addr port =>
      simp only [opcode, frame, body, little32, big16, Ipv4.wire, List.cons_append,
        List.nil_append, decodeProxy, ofLittle32_bytes, ofBig16_bytes, ResultCode.ofCode_code]
  | access source channel addr port privateAddr =>
      simp only [opcode, frame, body, little32, big16, Ipv4.wire, Ipv4.octets, List.cons_append,
        List.nil_append, decodeAccess, ofLittle32_bytes, ofBig16_bytes]
  | stopProxy channel addr port =>
      simp only [opcode, frame, body, little32, big16, Ipv4.wire, List.cons_append,
        List.nil_append, decodeStopProxy, ofLittle32_bytes, ofBig16_bytes]
  | peers table => rfl

/-- The longest body that the length field of a header can count. -/
def maxBody : Nat := 65535

theorem bodyLength_frame {r : Response} (h : r.body.length ≤ maxBody) (header : Header) :
    (r.frame header).header.bodyLength.toNat = (r.frame header).body.length := by
  have hlt : r.body.length < 2 ^ 16 := Nat.lt_of_le_of_lt h (by decide)
  change (UInt16.ofNat r.body.length).toNat = r.body.length
  rw [UInt16.toNat_ofNat']
  exact Nat.mod_eq_of_lt hlt

/-! ### Frames written again -/

variable {f : Frame} {r : Response} {bytes : Bytes} {op : Opcode}

/-- The length of the bodies of a kind, unless they may have any. -/
def bodySize? : Opcode → Option Nat
  | .login => some 5
  | .proxy => some 11
  | .access => some 18
  | .stopProxy => some 10
  | .getPeers | .heartbeat => none

/-- If bodies of the kind begin with the result of a request, this one begins with a result that
is defined. -/
def ResultDefined (op : Opcode) (bytes : Bytes) : Prop :=
  op = .login ∨ op = .proxy → ∃ result : ResultCode, bytes.head? = some result.code

/-- The frame is as the relay would write it: its header counts its body, which is as long as its
kind says, and it bears no result but those defined. -/
structure Exact (f : Frame) : Prop where
  counted : f.header.bodyLength.toNat = f.body.length
  sized : ∀ op n, f.header.function = op.code → bodySize? op = some n → f.body.length = n
  defined : ∀ op, f.header.function = op.code → ResultDefined op f.body

theorem length_body {n : Nat} (h : bodySize? r.opcode = some n) : r.body.length = n := by
  cases r <;> cases h <;> rfl

theorem resultDefined_body (r : Response) : ResultDefined r.opcode r.body := by
  rintro (h | h) <;> cases r <;> cases h <;> exact ⟨_, rfl⟩

theorem prefix_of_decodeLogin (h : decodeLogin bytes = .ok r)
    (hdefined : ResultDefined .login bytes) : r.opcode = .login ∧ r.body <+: bytes := by
  unfold decodeLogin at h
  split at h
  · obtain ⟨result, hresult⟩ := hdefined (.inl rfl)
    cases hresult
    cases h
    rw [body, ResultCode.ofCode_code, little32_ofLittle32]
    exact ⟨rfl, _, rfl⟩
  · cases h

theorem prefix_of_decodeProxy (h : decodeProxy bytes = .ok r)
    (hdefined : ResultDefined .proxy bytes) : r.opcode = .proxy ∧ r.body <+: bytes := by
  unfold decodeProxy at h
  split at h
  · obtain ⟨result, hresult⟩ := hdefined (.inr rfl)
    cases hresult
    cases h
    rw [body, ResultCode.ofCode_code, little32_ofLittle32, big16_ofBig16]
    exact ⟨rfl, _, rfl⟩
  · cases h

theorem prefix_of_decodeAccess (h : decodeAccess bytes = .ok r) :
    r.opcode = .access ∧ r.body <+: bytes := by
  unfold decodeAccess at h
  split at h
  · cases h
    rw [body, little32_ofLittle32, little32_ofLittle32, big16_ofBig16]
    exact ⟨rfl, _, rfl⟩
  · cases h

theorem prefix_of_decodeStopProxy (h : decodeStopProxy bytes = .ok r) :
    r.opcode = .stopProxy ∧ r.body <+: bytes := by
  unfold decodeStopProxy at h
  split at h
  · cases h
    rw [body, little32_ofLittle32, big16_ofBig16]
    exact ⟨rfl, _, rfl⟩
  · cases h

/-- The body of a frame that is read as a response begins with what is written of the response,
unless the frame bears a result that is not defined. -/
theorem prefix_of_decode (h : decode f = .ok r)
    (hdefined : ∀ op, f.header.function = op.code → ResultDefined op f.body) :
    f.header.function = r.opcode.code ∧ r.body <+: f.body := by
  unfold decode at h
  split at h
  · cases h
  · cases h
  all_goals
    rename_i hop
    have hcode := Opcode.code_of_ofCode? hop
  · obtain ⟨hkind, hprefix⟩ := prefix_of_decodeLogin h (hdefined _ hcode)
    exact ⟨hkind ▸ hcode, hprefix⟩
  · obtain ⟨hkind, hprefix⟩ := prefix_of_decodeProxy h (hdefined _ hcode)
    exact ⟨hkind ▸ hcode, hprefix⟩
  · obtain ⟨hkind, hprefix⟩ := prefix_of_decodeAccess h
    exact ⟨hkind ▸ hcode, hprefix⟩
  · obtain ⟨hkind, hprefix⟩ := prefix_of_decodeStopProxy h
    exact ⟨hkind ▸ hcode, hprefix⟩
  · cases h
    exact ⟨hcode, List.prefix_refl _⟩

theorem body_of_exact (h : decode f = .ok r) (hexact : Exact f) : r.body = f.body := by
  obtain ⟨hcode, hprefix⟩ := prefix_of_decode h hexact.defined
  -- Nothing is left behind what is written, or it is a table and takes all there is.
  cases hsize : bodySize? r.opcode with
  | some n =>
      refine hprefix.eq_of_length ?_
      rw [length_body hsize, hexact.sized r.opcode n hcode hsize]
  | none =>
      cases r with
      | peers table =>
          unfold decode at h
          rw [hcode, Opcode.ofCode?_code] at h
          cases h
          rfl
      | login | proxy | access | stopProxy => cases hsize

theorem frame_of_exact (h : decode f = .ok r) (hexact : Exact f) : r.frame f.header = f := by
  obtain ⟨hcode, -⟩ := prefix_of_decode h hexact.defined
  have hbody := body_of_exact h hexact
  have hlength : UInt16.ofNat f.body.length = f.header.bodyLength := by
    rw [← hexact.counted, UInt16.ofNat_toNat]
  rw [frame, hbody, hlength, Header.withFunction, ← hcode]

/-- What was written again as it was before is as the relay writes. -/
theorem exact_of_frame (hlength : f.body.length ≤ maxBody) (h : r.frame f.header = f) :
    Exact f := by
  have hbody : r.body = f.body := congrArg Frame.body h
  have hcode : r.opcode.code = f.header.function := congrArg (·.header.function) h
  have hkind : ∀ op, f.header.function = op.code → r.opcode = op := by
    intro op hop
    have hsame := congrArg Opcode.ofCode? (hcode.trans hop)
    rw [Opcode.ofCode?_code, Opcode.ofCode?_code] at hsame
    exact Option.some.inj hsame
  refine ⟨?_, ?_, ?_⟩
  · have hcounted := bodyLength_frame (hbody ▸ hlength) f.header
    rwa [h] at hcounted
  · rintro op n hop hsize
    rw [← hbody, length_body (hkind op hop ▸ hsize)]
  · intro op hop
    rw [← hbody, ← hkind op hop]
    exact resultDefined_body r

/-- Encoding and decoding undo each other. A response that is written under a valid header comes
off the stream as one frame, whose header is the given one but for the function and the length of
the body, and reads as it was. A frame that reads as a response is what is written of the response
under its header just when it is exact. -/
theorem codec_inverts :
    (∀ (r : Response) (header : Header), header.isValid = true →
      (∀ table, r = .peers table → table.length ≤ 65535) →
      ∃ f, Frame.next (r.encode header) = some (.frame f, []) ∧
        f.header = { header with function := r.opcode.code, bodyLength := f.header.bodyLength } ∧
        f.header.bodyLength.toNat = f.body.length ∧ decode f = .ok r) ∧
    ∀ (f : Frame) (r : Response), decode f = .ok r →
      (Exact f → r.encode f.header = f.toBytes) ∧
      (f.body.length ≤ 65535 → r.encode f.header = f.toBytes → Exact f) := by
  constructor
  · intro r header hvalid htable
    have hlength : r.body.length ≤ maxBody := by
      cases r with
      | peers table => exact htable table rfl
      | login | proxy | access | stopProxy =>
          exact Nat.le_trans (Nat.le_of_eq (length_body rfl)) (by decide)
    have hcounted := bodyLength_frame hlength header
    have hnext := Frame.next_toBytes_append (f := r.frame header) hvalid hcounted []
    rw [List.append_nil] at hnext
    exact ⟨r.frame header, hnext, rfl, hcounted, decode_frame r header⟩
  · intro f r h
    refine ⟨fun hexact => ?_, fun hlength hencode => ?_⟩
    · rw [encode, frame_of_exact h hexact]
    · exact exact_of_frame hlength (Frame.eq_of_toBytes_eq hencode)

/-- The notice of a channel, under a header that announces an encrypted payload. -/
theorem codec_inverts_access :
    let header : Header :=
      { Header.fresh .proxy with serverVersion := Header.encryptedVersion, keyIndex := 9 }
    let notice : Response := .access 1000 1 .loopback 40000 ⟨1, 2, 3, 4⟩
    let f : Frame := notice.frame header
    (header.isValid = true ∧ (∀ table, notice = .peers table → table.length ≤ 65535) ∧
      ∃ f, Frame.next (notice.encode header) = some (.frame f, []) ∧
        f.header =
          { header with function := notice.opcode.code, bodyLength := f.header.bodyLength } ∧
        f.header.bodyLength.toNat = f.body.length ∧ decode f = .ok notice) ∧
    decode f = .ok notice ∧ Exact f ∧ notice.encode f.header = f.toBytes ∧
      f.body.length ≤ 65535 ∧ Exact f := by
  intro header notice f
  have hvalid : header.isValid = true := by decide
  have htable : ∀ table, notice = .peers table → table.length ≤ 65535 := nofun
  have hdecode : decode f = .ok notice := by rfl
  have hexact : Exact f := by
    refine ⟨by decide, fun op n hop hsize => ?_, fun op hop => ?_⟩
    · cases op with
      | access =>
          cases hsize
          rfl
      | heartbeat | login | proxy | getPeers | stopProxy => exact absurd hop (by decide)
    · rintro (rfl | rfl) <;> exact absurd hop (by decide)
  have hencode := (codec_inverts.2 f notice hdecode).1 hexact
  exact ⟨⟨hvalid, htable, codec_inverts.1 notice header hvalid htable⟩, hdecode, hexact, hencode,
    by decide, (codec_inverts.2 f notice hdecode).2 (by decide) hencode⟩

end Response

/-! ## What is queued for a client -/

namespace Push

/-- The push can be told from what follows it on the stream. -/
structure WellFramed (p : Push) : Prop where
  header : p.header.isValid = true
  body : p.response.body.length ≤ Response.maxBody

theorem WellFramed.frame {p : Push} (h : p.WellFramed) :
    p.frame.header.isValid = true ∧ p.frame.header.bodyLength.toNat = p.frame.body.length :=
  ⟨h.header, Response.bodyLength_frame h.body p.header⟩

/-- However the bytes of pushes are cut into chunks, the frames that come off them are those of
the pushes, and nothing else does. -/
theorem drainEach_encode {pushes : List Push} (h : ∀ p ∈ pushes, p.WellFramed)
    {chunks : List Bytes} (hchunks : chunks.flatten = pushes.flatMap encode) :
    Frame.drainEach [] chunks = (pushes.map fun p => .frame p.frame, []) := by
  have hstream : pushes.flatMap encode = (pushes.map frame).flatMap Frame.toBytes := by
    rw [List.flatMap_map]
    rfl
  have hframes : ∀ f ∈ pushes.map frame,
      f.header.isValid = true ∧ f.header.bodyLength.toNat = f.body.length := by
    intro f hf
    obtain ⟨p, hp, rfl⟩ := List.mem_map.mp hf
    exact (h p hp).frame
  rw [Frame.drainEach_frames hframes (hchunks.trans hstream), List.map_map]
  rfl

end Push

end PeerRelay
