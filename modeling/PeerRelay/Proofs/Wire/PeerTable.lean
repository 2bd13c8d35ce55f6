import PeerRelay.Wire.PeerTable

/-!
# Peer tables read back

A peer table reads back as the entries that it was made of, as many of them as fit, whatever comes
behind it. The other way round, bytes read as entries just when they begin with the table of
these entries, and any other bytes are too few for the entries that they say they have.
-/

namespace PeerRelay.PeerTable

variable {entries : List Peer} {table rest : Bytes} {n : Nat}

/-! ## Entries as bytes -/

theorem length_toBytes (p : Peer) : p.toBytes.length = 8 := rfl

theorem readEntries_flatMap (entries : List Peer) (rest : Bytes) :
    readEntries entries.length (entries.flatMap Peer.toBytes ++ rest) = entries := by
  induction entries with
  | nil => rfl
  | cons p entries ih =>
      simp only [List.flatMap_cons, List.length_cons, Peer.toBytes, Wire.little32, Ipv4.wire,
        List.cons_append, List.nil_append, readEntries, Wire.ofLittle32_bytes, ih]

theorem length_flatMap_toBytes (entries : List Peer) :
    (entries.flatMap Peer.toBytes).length = 8 * entries.length := by
  induction entries with
  | nil => rfl
  | cons p entries ih =>
      rw [List.flatMap_cons, List.length_append, ih, length_toBytes, List.length_cons]
      omega

/-- Where the bytes of all entries are there, they are the bytes of the entries that are read. -/
theorem flatMap_readEntries (h : 8 * n ≤ rest.length) :
    (readEntries n rest).flatMap Peer.toBytes = rest.take (8 * n) := by
  induction n generalizing rest with
  | zero => rfl
  | succ n ih =>
      match rest, h with
      | a :: b :: c :: d :: i :: j :: k :: l :: rest, h =>
          have hrest : 8 * n ≤ rest.length := by
            simp only [List.length_cons] at h
            omega
          have hentry :
              Peer.toBytes ⟨Wire.ofLittle32 a b c d, ⟨l, k, j, i⟩⟩ = [a, b, c, d, i, j, k, l] :=
            congrArg (· ++ [i, j, k, l]) (Wire.little32_ofLittle32 a b c d)
          rw [readEntries, List.flatMap_cons, ih hrest, hentry]
          rfl
      | [], h | [_], h | [_, _], h | [_, _, _], h | [_, _, _, _], h | [_, _, _, _, _], h
      | [_, _, _, _, _, _], h | [_, _, _, _, _, _, _], h =>
          simp only [List.length_cons, List.length_nil] at h
          omega

theorem length_readEntries (h : 8 * n ≤ rest.length) : (readEntries n rest).length = n := by
  have hlength := congrArg List.length (flatMap_readEntries h)
  rw [length_flatMap_toBytes, List.length_take_of_le h] at hlength
  omega

/-! ## The table of entries -/

/-- The entries that are written can be counted by one byte. -/
theorem toNat_length_take (entries : List Peer) :
    (UInt8.ofNat (entries.take capacity).length).toNat = (entries.take capacity).length := by
  have hlen : (entries.take capacity).length ≤ 255 := List.length_take_le ..
  rw [UInt8.toNat_ofNat']
  exact Nat.mod_eq_of_lt (by omega)

theorem count_encode (entries : List Peer) :
    count (encode entries) = (entries.take capacity).length :=
  toNat_length_take entries

theorem length_encode (entries : List Peer) :
    (encode entries).length = 1 + 8 * (entries.take capacity).length := by
  rw [encode, List.length_cons, length_flatMap_toBytes, Nat.add_comm]

theorem length_encode_le (entries : List Peer) : (encode entries).length ≤ 2041 := by
  have hlen : (entries.take capacity).length ≤ 255 := List.length_take_le ..
  rw [length_encode]
  omega

/-! ## The entries of a table -/

/-- The bytes that a table has if it has the entries that it says. -/
def extent (table : Bytes) : Nat := 1 + 8 * count table

theorem decode_of_lt (h : table.length < extent table) :
    decode table = .error (.truncated .peerTable (extent table) table.length) := by
  cases table with
  | nil => rfl
  | cons n rest => exact if_pos h

/-- A table with all the bytes that its count calls for reads as that many entries. -/
theorem decode_of_le (h : extent table ≤ table.length) :
    decode table = .ok (readEntries (count table) table.tail) := by
  cases table with
  | nil => exact absurd h (by decide)
  | cons n rest => exact if_neg (Nat.not_lt_of_le h)

theorem extent_le_of_decode (h : decode table = .ok entries) : extent table ≤ table.length := by
  refine Nat.le_of_not_lt fun hlt => ?_
  rw [decode_of_lt hlt] at h
  cases h

/-- Reading undoes writing, for as many entries as fit, whatever comes behind them. -/
theorem decode_encode_append (entries : List Peer) (more : Bytes) :
    decode (encode entries ++ more) = .ok (entries.take capacity) := by
  have hcount : count (encode entries ++ more) = (entries.take capacity).length :=
    count_encode entries
  have hextent : extent (encode entries ++ more) ≤ (encode entries ++ more).length := by
    rw [extent, hcount, List.length_append, length_encode]
    exact Nat.le_add_right ..
  rw [decode_of_le hextent, hcount]
  exact congrArg Except.ok (readEntries_flatMap (entries.take capacity) more)

theorem count_le_capacity (table : Bytes) : count table ≤ capacity := by
  have := (table.headD 0).toNat_lt
  exact Nat.le_of_lt_succ this

/-- What is read is written as the bytes that it was read from. -/
theorem encode_of_decode (h : decode table = .ok entries) :
    encode entries = table.take (extent table) := by
  have hextent := extent_le_of_decode h
  rw [decode_of_le hextent] at h
  cases h
  cases table with
  | nil => exact absurd hextent (by decide)
  | cons n rest =>
      have hrest : 8 * n.toNat ≤ rest.length := by
        have hle : 1 + 8 * n.toNat ≤ rest.length + 1 := hextent
        omega
      have hfits : (readEntries n.toNat rest).take capacity = readEntries n.toNat rest := by
        refine List.take_of_length_le ?_
        rw [length_readEntries hrest]
        exact count_le_capacity (n :: rest)
      calc encode (readEntries n.toNat rest)
          = UInt8.ofNat n.toNat :: (readEntries n.toNat rest).flatMap Peer.toBytes := by
            simp only [encode, hfits, length_readEntries hrest]
        _ = n :: rest.take (8 * n.toNat) := by
            rw [UInt8.ofNat_toNat, flatMap_readEntries hrest]
        _ = (n :: rest).take (1 + 8 * n.toNat) := by rw [Nat.add_comm, List.take_succ_cons]

/-- What the table of entries looks like, and what comes of it. -/
structure ReadBack (entries : List Peer) : Prop where
  length : (encode entries).length = 1 + 8 * min entries.length 255
  /-- The first byte is the number of entries that are written. -/
  first : (encode entries).head?.map UInt8.toNat = some (min entries.length 255)
  /-- The first entries come back in order, with anything behind the table. -/
  decoded : ∀ more, decode (encode entries ++ more) = .ok (entries.take 255)

/-- What comes of bytes that are read as a table. -/
structure ReadsExactly (table : Bytes) : Prop where
  /-- They are accepted just when there are the entries that the first of them says. -/
  accepted : (∃ entries, decode table = .ok entries) ↔
    ∃ n rest, table = n :: rest ∧ 1 + 8 * n.toNat ≤ table.length
  /-- Any others are refused as fewer than the table would have. -/
  refused : ∀ e, decode table = .error e →
    e = .truncated .peerTable (extent table) table.length ∧ table.length < extent table
  /-- What was accepted is written again as it was, without what came behind it. -/
  written : ∀ n rest entries, table = n :: rest → decode table = .ok entries →
    encode entries = table.take (1 + 8 * n.toNat)

/-- Entries come back from their table as far as they fit, and bytes are read as a table just when
all of its entries are there. -/
theorem tables_read_exactly :
    (∀ entries : List Peer, ReadBack entries) ∧ ∀ table : Bytes, ReadsExactly table := by
  refine ⟨fun entries => ⟨?length, ?first, decode_encode_append entries⟩,
    fun table => ⟨⟨?enough, ?accepted⟩, ?refused, ?written⟩⟩
  case length => rw [length_encode, List.length_take, Nat.min_comm, capacity]
  case first =>
    have hcount := count_encode entries
    rw [List.length_take, Nat.min_comm] at hcount
    exact congrArg some hcount
  case enough =>
    rintro ⟨entries, h⟩
    have hextent := extent_le_of_decode h
    cases table with
    | nil => cases h
    | cons n rest => exact ⟨n, rest, rfl, hextent⟩
  case accepted =>
    rintro ⟨n, rest, rfl, hle⟩
    exact ⟨_, decode_of_le hle⟩
  case refused =>
    intro e h
    rcases Nat.lt_or_ge table.length (extent table) with hlt | hle
    · rw [decode_of_lt hlt] at h
      cases h
      exact ⟨rfl, hlt⟩
    · rw [decode_of_le hle] at h
      cases h
  case written =>
    rintro n rest entries rfl h
    exact encode_of_decode h

/-- A table of one entry with a byte behind it, and the same table with its last byte cut off. -/
theorem tables_read_exactly_single :
    let table : Bytes := [1, 232, 3, 0, 0, 9, 113, 0, 203, 42]
    let short : Bytes := [1, 232, 3, 0, 0, 9, 113, 0]
    let peers : List Peer := [⟨1000, ⟨203, 0, 113, 9⟩⟩]
    decode table = .ok peers ∧ encode peers = table.take 9 ∧
      decode (encode peers ++ [42]) = .ok peers ∧
      decode short = .error (.truncated .peerTable 9 8) ∧ short.length < extent short := by
  intro table short peers
  have hdecode : decode table = .ok peers := by rfl
  have hshort : decode short = .error (.truncated .peerTable 9 8) := by rfl
  exact ⟨hdecode, (tables_read_exactly.2 table).written 1 _ peers rfl hdecode,
    (tables_read_exactly.1 peers).decoded [42], hshort,
    ((tables_read_exactly.2 short).refused _ hshort).2⟩

end PeerRelay.PeerTable
