import PeerRelay.Proofs.Text.Utf8
import PeerRelay.Proofs.Wire.Framing
import PeerRelay.Proofs.Wire.Grammar

/-!
# Requests on the stream

Requests that are written one after another come off the stream one by one, wherever it is cut
into chunks. A guid and a game id are written with a length byte and so with no more than 255
bytes; what is longer comes back shortened, and nothing else changes.
-/

namespace PeerRelay

open Wire

namespace Wire

theorem length_take_shortBytes (bytes : Bytes) :
    (bytes.take 255).length = (UInt8.ofNat (bytes.take 255).length).toNat := by
  have hle : (bytes.take 255).length ≤ 255 := List.length_take_le ..
  rw [UInt8.toNat_ofNat']
  omega

theorem length_shortBytes_le (bytes : Bytes) : (shortBytes bytes).length ≤ 256 := by
  rw [shortBytes, List.length_cons]
  exact Nat.succ_le_succ (List.length_take_le ..)

end Wire

namespace Request

variable {r : Request}

/-- What comes back of a request: a guid without the bytes that no length byte can count, and a
game id read from as many of its bytes. -/
def shortened : Request → Request
  | heartbeat => heartbeat
  | login guid privateAddr => login ⟨guid.bytes.take 255⟩ privateAddr
  | proxy source destination gameId =>
    proxy source destination (Text.Utf8.decodeLossy ((Text.Utf8.encode gameId).take 255))
  | getPeers requester => getPeers requester

/-- The guid or the game id takes at most 255 bytes. -/
def Fits : Request → Prop
  | heartbeat | getPeers _ => True
  | login guid _ => guid.length ≤ 255
  | proxy _ _ gameId => (Text.Utf8.encode gameId).length ≤ 255

instance : DecidablePred Fits
  | heartbeat | getPeers _ => inferInstanceAs (Decidable True)
  | login guid _ => inferInstanceAs (Decidable (guid.length ≤ 255))
  | proxy _ _ gameId => inferInstanceAs (Decidable ((Text.Utf8.encode gameId).length ≤ 255))

theorem shortened_of_fits (h : r.Fits) : r.shortened = r := by
  cases r with
  | heartbeat | getPeers => rfl
  | login guid privateAddr => rw [shortened, List.take_of_length_le h]
  | proxy source destination gameId =>
      rw [shortened, Text.Utf8.decodeLossy_take_of_length_le h]

/-- A request is written as its body spells it, shortened. -/
theorem spells_body (r : Request) : Spells r.opcode r.body r.shortened := by
  cases r with
  | heartbeat => exact .heartbeat []
  | login guid privateAddr =>
      have h := Spells.login (length_take_shortBytes guid.bytes) privateAddr []
      rwa [List.append_nil] at h
  | proxy source destination gameId =>
      have h := Spells.proxy source destination
        (length_take_shortBytes (Text.Utf8.encode gameId)) []
      rwa [List.append_nil, ← List.append_assoc] at h
  | getPeers requester =>
      have h := Spells.getPeers requester []
      rwa [List.append_nil] at h

theorem decode_frame (r : Request) : decode r.frame = .ok r.shortened :=
  decode_of_spells rfl (spells_body r)

theorem length_body_le (r : Request) : r.body.length ≤ 264 := by
  cases r with
  | heartbeat => exact Nat.zero_le _
  | login guid privateAddr =>
      have h := length_shortBytes_le guid.bytes
      rw [body, List.length_append, Ipv4.octets]
      simp
      omega
  | proxy source destination gameId =>
      have h := length_shortBytes_le (Text.Utf8.encode gameId)
      rw [body, List.length_append, List.length_append, length_little32, length_little32]
      omega
  | getPeers requester => exact Nat.le_of_ble_eq_true rfl

/-- The length field of the header counts the whole body. -/
theorem bodyLength_frame (r : Request) :
    r.frame.header.bodyLength.toNat = r.frame.body.length := by
  have h := length_body_le r
  change (UInt16.ofNat r.body.length).toNat = r.body.length
  rw [UInt16.toNat_ofNat']
  omega

/-- However the bytes of requests are cut into chunks, a frame comes off them for each of the
requests, in order, with nothing skipped and nothing left over. Each frame is read as its
request, of whose guid or game id only what a length byte can count comes back: of a game id the
characters that are whole in these bytes, and a replacement character for one that is not. -/
theorem requests_come_back (requests : List Request) (chunks : List Bytes)
    (hchunks : chunks.flatten = requests.flatMap encode) :
    (∃ frames : List Frame, Frame.drainEach [] chunks = (frames.map .frame, []) ∧
      frames.map decode = requests.map fun r => .ok r.shortened) ∧
    (∀ r ∈ requests, r.Fits → r.shortened = r) ∧
    ∀ source destination gameId, proxy source destination gameId ∈ requests →
      (proxy source destination gameId).shortened =
        proxy source destination (String.ofList (Text.Utf8.cut 255 gameId.toList)) := by
  refine ⟨⟨requests.map frame, ?_, ?_⟩, fun r _ h => shortened_of_fits h, ?_⟩
  · have hstream : requests.flatMap encode = (requests.map frame).flatMap Frame.toBytes := by
      rw [List.flatMap_map]
      rfl
    refine Frame.drainEach_frames (fun f hf => ?_) (hchunks.trans hstream)
    obtain ⟨r, -, rfl⟩ := List.mem_map.mp hf
    exact ⟨Header.isValid_fresh r.opcode, bodyLength_frame r⟩
  · rw [List.map_map]
    exact List.map_congr_left fun r _ => decode_frame r
  · intro source destination gameId _
    rw [shortened, Text.Utf8.decodeLossy_take_encode]

/-- A login under a guid that is no text, a request for a channel whose game id has a character
across the last byte that counts, and a heartbeat, cut in the first header. -/
theorem requests_come_back_cut :
    let asked := proxy 1000 1001 (String.ofList (List.replicate 128 'é'))
    let requests := [login ⟨[0xFE, 0xFF]⟩ ⟨10, 0, 0, 1⟩, asked, heartbeat]
    let stream := requests.flatMap encode
    let chunks := [stream.take 3, stream.drop 3]
    chunks.flatten = stream ∧
      (∃ frames : List Frame, Frame.drainEach [] chunks = (frames.map .frame, []) ∧
        frames.map decode = requests.map fun r => .ok r.shortened) ∧
      (Fits requests[0] ∧ requests[0].shortened = requests[0]) ∧
      (asked ∈ requests ∧ asked.shortened =
        proxy 1000 1001 (String.ofList (List.replicate 127 'é' ++ ['\uFFFD']))) := by
  intro asked requests stream chunks
  have hchunks : chunks.flatten = stream := by
    simp only [chunks, List.flatten_cons, List.flatten_nil, List.append_nil,
      List.take_append_drop]
  obtain ⟨hback, hfits, hcut⟩ := requests_come_back requests chunks hchunks
  have hlogin : Fits requests[0] := by decide
  have hasked : asked ∈ requests := List.mem_cons_of_mem _ List.mem_cons_self
  refine ⟨hchunks, hback, ⟨hlogin, hfits _ List.mem_cons_self hlogin⟩, hasked, ?_⟩
  have hclipped : Text.Utf8.cut 255 (List.replicate 128 'é') =
      List.replicate 127 'é' ++ ['\uFFFD'] := by
    decide +kernel
  rw [hcut _ _ _ hasked, String.toList_ofList, hclipped]

end Request

end PeerRelay
