import PeerRelay.Proofs.Wire.Cursor

/-!
# The grammar of requests

A body is read as a request exactly if it begins with the fields of one, which are then what the
request is made of. Any other body under the function of a request is cut short somewhere, and
the error says that fewer bytes are there than are needed.
-/

namespace PeerRelay

open Wire

/-- The error tells of a part that needs more bytes than there are. -/
def Wire.Error.Short (e : Error) : Prop :=
  ∃ field needed present, e = .truncated field needed present ∧ present < needed

/-! ## Runs of bytes behind a length byte -/

namespace Wire

variable {bytes after : Bytes}

theorem readShort_cons {field : Field} {body : Bytes} {n : UInt8} (h : bytes.length = n.toNat) :
    readShort field body (n :: (bytes ++ after)) = .ok (bytes, after) := by
  have hlong : ¬ (bytes ++ after).length < n.toNat := by rw [List.length_append]; omega
  rw [readShort, if_neg hlong, List.take_left' h, List.drop_left' h]

/-- Either a length byte and that many bytes are there, or what is there is too short. The part
of the body that has been read already is counted with both. -/
theorem readShort_ok_or_short (field : Field) {body rest : Bytes}
    (h : rest.length ≤ body.length) :
    (∃ n bytes after, rest = n :: (bytes ++ after) ∧ bytes.length = n.toNat ∧
      readShort field body rest = .ok (bytes, after)) ∨
    ∃ e, readShort field body rest = .error e ∧ e.Short := by
  match rest with
  | [] => exact .inr ⟨_, rfl, field, 1, 0, rfl, Nat.zero_lt_one⟩
  | n :: rest =>
      by_cases hshort : rest.length < n.toNat
      · refine .inr ⟨_, if_pos hshort, _, _, _, rfl, ?_⟩
        rw [List.length_cons] at h
        omega
      · have hlen : (rest.take n.toNat).length = n.toNat := by
          rw [List.length_take]
          omega
        refine .inl ⟨n, rest.take n.toNat, rest.drop n.toNat, ?_, hlen, if_neg hshort⟩
        rw [List.take_append_drop]

end Wire

/-! ## What a body begins with -/

namespace Request

variable {op : Opcode} {f : Frame} {r : Request} {body : Bytes}

/-- A body under a function begins with the fields of a request. What stands behind them is of no
account. -/
inductive Spells : Opcode → Bytes → Request → Prop where
  | heartbeat (rest : Bytes) : Spells .heartbeat rest .heartbeat
  | login {n : UInt8} {guid : Bytes} (h : guid.length = n.toNat) (privateAddr : Ipv4)
      (rest : Bytes) :
      Spells .login (n :: (guid ++ (privateAddr.octets ++ rest))) (.login ⟨guid⟩ privateAddr)
  | proxy (source destination : SessionId) {n : UInt8} {game : Bytes}
      (h : game.length = n.toNat) (rest : Bytes) :
      Spells .proxy (little32 source ++ (little32 destination ++ n :: (game ++ rest)))
        (.proxy source destination (Text.Utf8.decodeLossy game))
  | getPeers (requester : SessionId) (rest : Bytes) :
      Spells .getPeers (little32 requester ++ rest) (.getPeers requester)

theorem Spells.append (h : Spells op body r) (more : Bytes) : Spells op (body ++ more) r := by
  cases h with
  | heartbeat rest => exact .heartbeat _
  | login h privateAddr rest =>
      simpa only [List.cons_append, List.append_assoc] using .login h privateAddr (rest ++ more)
  | proxy source destination h rest =>
      simpa only [List.cons_append, List.append_assoc] using
        .proxy source destination h (rest ++ more)
  | getPeers requester rest =>
      simpa only [List.append_assoc] using .getPeers requester (rest ++ more)

theorem Spells.opcode_eq (h : Spells op body r) : r.opcode = op := by
  cases h <;> rfl

theorem decode_of_spells (hop : f.header.function = op.code) (h : Spells op f.body r) :
    decode f = .ok r := by
  unfold decode
  rw [hop, Opcode.ofCode?_code]
  generalize f.body = body at h
  cases h with
  | heartbeat rest => rfl
  | login h privateAddr rest =>
      simp only [decodeLogin, readShort_cons h]
      rfl
  | proxy source destination h rest =>
      simp only [decodeProxy, little32, List.cons_append, List.nil_append, readShort_cons h,
        ofLittle32_bytes]
      rfl
  | getPeers requester rest =>
      simp only [decodeGetPeers, little32, List.cons_append, List.nil_append, ofLittle32_bytes]
      rfl

theorem exists_of_four_le (h : 4 ≤ body.length) :
    ∃ a b c d rest, body = a :: b :: c :: d :: rest := by
  match body with
  | a :: b :: c :: d :: rest => exact ⟨a, b, c, d, rest, rfl⟩
  | [] | [_] | [_, _] | [_, _, _] => simp at h

theorem decodeLogin_spells_or_short (body : Bytes) :
    (∃ r, Spells .login body r) ∨ ∃ e, decodeLogin body = .error e ∧ e.Short := by
  rcases readShort_ok_or_short .loginGuid (Nat.le_refl body.length) with
    ⟨n, guid, after, hbody, hlen, hread⟩ | ⟨e, hread, hshort⟩
  · simp only [decodeLogin, hread, bind, Except.bind]
    split
    · rename_i a b c d rest
      exact .inl ⟨_, hbody ▸ Spells.login hlen ⟨a, b, c, d⟩ rest⟩
    · rename_i hfew
      refine .inr ⟨_, rfl, _, _, _, rfl, Nat.lt_of_not_le fun hle => ?_⟩
      obtain ⟨a, b, c, d, rest, rfl⟩ := exists_of_four_le hle
      exact hfew a b c d rest rfl
  · exact .inr ⟨e, by rw [decodeLogin, hread]; rfl, hshort⟩

theorem decodeProxy_spells_or_short (body : Bytes) :
    (∃ r, Spells .proxy body r) ∨ ∃ e, decodeProxy body = .error e ∧ e.Short := by
  unfold decodeProxy
  split
  · rename_i a b c d e f g h rest
    have hle : rest.length ≤ (a :: b :: c :: d :: e :: f :: g :: h :: rest).length :=
      Nat.le_add_right rest.length 8
    rcases readShort_ok_or_short .proxyGameId hle with
      ⟨n, game, after, rfl, hlen, hread⟩ | ⟨e, hread, hshort⟩
    · have hspells := Spells.proxy (ofLittle32 a b c d) (ofLittle32 e f g h) hlen after
      rw [little32_ofLittle32, little32_ofLittle32] at hspells
      exact .inl ⟨_, hspells⟩
    · exact .inr ⟨e, by rw [hread]; rfl, hshort⟩
  · rename_i hfew
    refine .inr ⟨_, rfl, _, _, _, rfl, Nat.lt_of_not_le fun hle => ?_⟩
    -- Eight bytes would be two ids.
    obtain ⟨a, b, c, d, rest, rfl⟩ := exists_of_four_le (Nat.le_trans (by decide) hle)
    obtain ⟨e, f, g, h, rest, rfl⟩ := exists_of_four_le (Nat.le_of_add_le_add_right (b := 4) hle)
    exact hfew a b c d e f g h rest rfl

theorem decodeGetPeers_spells_or_short (body : Bytes) :
    (∃ r, Spells .getPeers body r) ∨ ∃ e, decodeGetPeers body = .error e ∧ e.Short := by
  unfold decodeGetPeers
  split
  · rename_i a b c d rest
    have hspells := Spells.getPeers (ofLittle32 a b c d) rest
    rw [little32_ofLittle32] at hspells
    exact .inl ⟨_, hspells⟩
  · rename_i hfew
    refine .inr ⟨_, rfl, _, _, _, rfl, Nat.lt_of_not_le fun hle => ?_⟩
    obtain ⟨a, b, c, d, rest, rfl⟩ := exists_of_four_le hle
    exact hfew a b c d rest rfl

/-- A function that clients ask the relay for. -/
def Asked (op : Opcode) : Prop := op ≠ .access ∧ op ≠ .stopProxy

/-- Under a function that clients ask for, a body begins with the fields of a request or is cut
short. -/
theorem spells_or_short (hop : f.header.function = op.code) (hasked : Asked op) :
    (∃ r, Spells op f.body r) ∨ ∃ e, decode f = .error e ∧ e.Short := by
  unfold decode
  rw [hop, Opcode.ofCode?_code]
  cases op with
  | heartbeat => exact .inl ⟨_, .heartbeat f.body⟩
  | login => exact decodeLogin_spells_or_short f.body
  | proxy => exact decodeProxy_spells_or_short f.body
  | getPeers => exact decodeGetPeers_spells_or_short f.body
  | access => exact absurd rfl hasked.1
  | stopProxy => exact absurd rfl hasked.2

/-- A frame under any other function is refused without a look at its body. -/
theorem asked_or_refused (f : Frame) :
    (∃ op, f.header.function = op.code ∧ Asked op) ∨
      (∃ op, decode f = .error (.notARequest op)) ∨
      decode f = .error (.unknownFunction f.header.function) := by
  unfold decode
  cases hop : Opcode.ofCode? f.header.function with
  | none => exact .inr (.inr rfl)
  | some op =>
      have hcode := Opcode.code_of_ofCode? hop
      cases op with
      | heartbeat | login | proxy | getPeers => exact .inl ⟨_, hcode, nofun, nofun⟩
      | access => exact .inr (.inl ⟨.access, rfl⟩)
      | stopProxy => exact .inr (.inl ⟨.stopProxy, rfl⟩)

theorem decode_eq_ok_iff :
    decode f = .ok r ↔ ∃ op, f.header.function = op.code ∧ Spells op f.body r := by
  constructor
  · intro h
    rcases asked_or_refused f with ⟨op, hop, hasked⟩ | ⟨op, hrefused⟩ | hrefused
    · rcases spells_or_short hop hasked with ⟨r', hspells⟩ | ⟨e, herror, -⟩
      · rw [decode_of_spells hop hspells] at h
        cases h
        exact ⟨op, hop, hspells⟩
      · rw [herror] at h
        cases h
    all_goals
      rw [hrefused] at h
      cases h
  · rintro ⟨op, hop, hspells⟩
    exact decode_of_spells hop hspells

theorem function_of_decode (h : decode f = .ok r) : f.header.function = r.opcode.code := by
  obtain ⟨op, hop, hspells⟩ := decode_eq_ok_iff.mp h
  rw [hop, hspells.opcode_eq]

/-- Under a function that clients ask for, a frame reads as a request of that function, or it is
cut short. -/
theorem decode_of_asked (hop : Opcode.ofCode? f.header.function = some op) (hasked : Asked op) :
    (∃ r, r.opcode = op ∧ decode f = .ok r) ∨
      ∃ field needed present, decode f = .error (.truncated field needed present) := by
  have hcode := Opcode.code_of_ofCode? hop
  rcases spells_or_short hcode hasked with
    ⟨r, hspells⟩ | ⟨e, herror, field, needed, present, rfl, -⟩
  · exact .inl ⟨r, hspells.opcode_eq, decode_of_spells hcode hspells⟩
  · exact .inr ⟨field, needed, present, herror⟩

theorem decode_append (h : decode f = .ok r) (more : Bytes) :
    decode ⟨f.header, f.body ++ more⟩ = .ok r := by
  obtain ⟨op, hop, hspells⟩ := decode_eq_ok_iff.mp h
  exact decode_eq_ok_iff.mpr ⟨op, hop, hspells.append more⟩

/-- When more is cut off a body that is cut short, it stays so: if what is kept were a request,
the whole would be the same one. -/
theorem short_of_truncated {header : Header} {kept gone : Bytes} {field : Field}
    {needed present : Nat}
    (h : decode ⟨header, kept ++ gone⟩ = .error (.truncated field needed present)) :
    ∃ e, decode ⟨header, kept⟩ = .error e ∧ e.Short := by
  rcases asked_or_refused ⟨header, kept ++ gone⟩ with ⟨op, hop, hasked⟩ | ⟨op, hrefused⟩ | hrefused
  · rcases spells_or_short (f := ⟨header, kept⟩) hop hasked with ⟨r, hspells⟩ | hshort
    · have hok := decode_append (decode_of_spells (f := ⟨header, kept⟩) hop hspells) gone
      rw [h] at hok
      cases hok
    · exact hshort
  all_goals
    rw [hrefused] at h
    cases h

theorem ofCode?_eq_none {b : UInt8} (h : 5 < b) : Opcode.ofCode? b = none := by
  cases hop : Opcode.ofCode? b with
  | none => rfl
  | some op =>
      rw [Opcode.code_of_ofCode? hop] at h
      exact absurd h (by cases op <;> decide)

theorem exists_asked (h : f.header.function ≤ 3) :
    ∃ op, f.header.function = op.code ∧ Asked op := by
  have hcases : f.header.function = 0 ∨ f.header.function = 1 ∨ f.header.function = 2 ∨
      f.header.function = 3 := by
    simp only [UInt8.le_iff_toNat_le, ← UInt8.toNat_inj, UInt8.reduceToNat] at h ⊢
    omega
  rcases hcases with h | h | h | h
  · exact ⟨.heartbeat, h, nofun, nofun⟩
  · exact ⟨.login, h, nofun, nofun⟩
  · exact ⟨.proxy, h, nofun, nofun⟩
  · exact ⟨.getPeers, h, nofun, nofun⟩

/-- What comes of a frame that is read as a request. -/
structure ReadsExactly (f : Frame) : Prop where
  /-- It is accepted just when its body begins with the fields of a request, which it is read
  as. -/
  accepted : ∀ r, decode f = .ok r ↔ ∃ op, f.header.function = op.code ∧ Spells op f.body r
  /-- Any other body is too short, under the functions that clients ask for. -/
  short : f.header.function ≤ 3 → (∀ op r, f.header.function = op.code → ¬ Spells op f.body r) →
    ∃ e, decode f = .error e ∧ e.Short
  access : f.header.function = 4 → decode f = .error (.notARequest .access)
  stopProxy : f.header.function = 5 → decode f = .error (.notARequest .stopProxy)
  unknown : 5 < f.header.function → decode f = .error (.unknownFunction f.header.function)
  extended : ∀ r more, decode f = .ok r → decode ⟨f.header, f.body ++ more⟩ = .ok r
  cut : ∀ kept gone field needed present, f.body = kept ++ gone →
    decode f = .error (.truncated field needed present) →
    ∃ e, decode ⟨f.header, kept⟩ = .error e ∧ e.Short
  /-- Read step by step, it leads to no step that takes bytes which are not there or a number
  from a smaller one. -/
  faultless : (read f).outcome? = some (decode f)

/-- Every frame is read by the grammar of requests and by nothing else. -/
theorem reads_exactly (f : Frame) : ReadsExactly f where
  accepted _ := decode_eq_ok_iff
  short hle hnot := by
    obtain ⟨op, hop, hasked⟩ := exists_asked hle
    rcases spells_or_short hop hasked with ⟨r, hspells⟩ | hshort
    · exact absurd hspells (hnot op r hop)
    · exact hshort
  access h := by rw [decode, h]; rfl
  stopProxy h := by rw [decode, h]; rfl
  unknown h := by rw [decode, ofCode?_eq_none h]
  extended _ more h := decode_append h more
  cut kept gone field needed present hbody h := by
    obtain ⟨header, body⟩ := f
    cases hbody
    exact short_of_truncated h
  faultless := outcome?_read f

end Request

end PeerRelay
