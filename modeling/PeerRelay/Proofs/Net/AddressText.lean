import Mathlib.Data.Option.Basic
import PeerRelay.Net.Reader

/-!
# Addresses as text

What is written of an address is read as that address. The reader sees what it has read only by
what follows: a number goes on as long as there are digits, and a group of an IPv6 address might
be the beginning of an IPv4 address. So each lemma here has the rest of the text in it, and says
what the rest must not begin with.
-/

namespace PeerRelay

namespace Net

/-! ## Numbers -/

/-- Whether a character is a digit in the base. -/
def isDigit (base : Nat) (c : Char) : Bool := (Text.hexValue? c).any (· < base)

/-- No number goes on in the text. -/
def Stops (base : Nat) (text : List Char) : Prop := ∀ c, text.head? = some c → isDigit base c = false

theorem stops_nil (base : Nat) : Stops base [] := nofun

theorem stops_cons {base : Nat} {c : Char} {rest : List Char} (h : isDigit base c = false) :
    Stops base (c :: rest) := by
  rintro _ ⟨⟩
  exact h

/-- A decimal digit is a hexadecimal digit too. -/
theorem Stops.decimal {text : List Char} (h : Stops 16 text) : Stops 10 text := by
  intro c hc
  have hhex := h c hc
  simp only [isDigit] at hhex ⊢
  cases hvalue : Text.hexValue? c with
  | none => rfl
  | some d =>
      simp only [hvalue, Option.any_some, decide_eq_false_iff_not] at hhex ⊢
      omega

theorem Stops.takeWhile {base : Nat} {text : List Char} (h : Stops base text) :
    text.takeWhile (isDigit base) = [] := by
  cases text with
  | nil => rfl
  | cons c rest => simp [h c rfl]

theorem Stops.dropWhile {base : Nat} {text : List Char} (h : Stops base text) :
    text.dropWhile (isDigit base) = text := by
  cases text with
  | nil => rfl
  | cons c rest => simp [h c rfl]

/-- A number is made of the digits in front, and the rest is what follows them. -/
theorem number?_eq (base : Nat) (text : List Char) :
    number? base text =
      if (text.takeWhile (isDigit base)).isEmpty then none
      else some (text.takeWhile (isDigit base),
        (text.takeWhile (isDigit base)).foldl
          (fun n c => base * n + (Text.hexValue? c).getD 0) 0,
        text.dropWhile (isDigit base)) :=
  rfl

theorem Stops.number? {base : Nat} {text : List Char} (h : Stops base text) :
    number? base text = none := by
  rw [number?_eq, h.takeWhile]
  rfl

theorem hexValue?_digitChar {d : Nat} (h : d < 16) :
    Text.hexValue? (Nat.digitChar d) = some d := by
  revert d
  decide

section
variable {base : Nat} (hlow : 1 < base) (hhigh : base ≤ 16)
include hlow hhigh

theorem isDigit_of_mem_toDigits (n : Nat) {c : Char} (h : c ∈ Nat.toDigits base n) :
    isDigit base c = true := by
  have hdigit {d : Nat} (hd : d < base) : isDigit base (Nat.digitChar d) = true := by
    rw [isDigit, hexValue?_digitChar (Nat.lt_of_lt_of_le hd hhigh)]
    exact decide_eq_true hd
  induction n using Nat.strongRecOn with
  | ind n ih =>
      rw [Nat.toDigits_eq_if hlow] at h
      split at h
      · rename_i hn
        rw [List.mem_singleton.mp h]
        exact hdigit hn
      · rcases List.mem_append.mp h with h | h
        · exact ih _ (Nat.div_lt_self (by omega) hlow) h
        · rw [List.mem_singleton.mp h]
          exact hdigit (Nat.mod_lt _ (by omega))

theorem value_toDigits (n : Nat) :
    (Nat.toDigits base n).foldl (fun m c => base * m + (Text.hexValue? c).getD 0) 0 = n := by
  induction n using Nat.strongRecOn with
  | ind n ih =>
      rw [Nat.toDigits_eq_if hlow]
      split
      · rename_i hn
        simp [hexValue?_digitChar (Nat.lt_of_lt_of_le hn hhigh)]
      · rename_i hn
        have hlast : n % base < 16 := Nat.lt_of_lt_of_le (Nat.mod_lt _ (by omega)) hhigh
        rw [List.foldl_append, ih _ (Nat.div_lt_self (by omega) hlow)]
        simp [hexValue?_digitChar hlast, Nat.div_add_mod]

/-- A number is read back from its digits. -/
theorem number?_toDigits (n : Nat) {rest : List Char} (hrest : Stops base rest) :
    number? base (Nat.toDigits base n ++ rest) = some (Nat.toDigits base n, n, rest) := by
  have hdigits (c : Char) (h : c ∈ Nat.toDigits base n) := isDigit_of_mem_toDigits hlow hhigh n h
  rw [number?_eq, List.takeWhile_append_of_pos hdigits, List.dropWhile_append_of_pos hdigits,
    hrest.takeWhile, hrest.dropWhile, List.append_nil, value_toDigits hlow hhigh, if_neg]
  simp [Nat.toDigits_ne_nil]

end

/-- Only zero begins with a zero. -/
theorem eq_zero_of_head?_toDigits {n : Nat} (h : (Nat.toDigits 10 n).head? = some '0') : n = 0 := by
  induction n using Nat.strongRecOn with
  | ind n ih =>
      rw [Nat.toDigits_eq_if (by decide)] at h
      split at h
      · exact Nat.digitChar_eq_zero.mp (Option.some.inj h)
      · rename_i hn
        rw [List.head?_append, Option.or_of_isSome (by simp [Nat.toDigits_ne_nil])] at h
        have hzero := ih _ (Nat.div_lt_self (by omega) (by decide)) h
        omega

/-! ## IPv4 addresses -/

theorem behind_octet? {text behind : List Char} {o : UInt8} (h : octet? text = some (o, behind)) :
    behind = text.dropWhile (isDigit 10) := by
  simp only [octet?, number?_eq] at h
  split at h
  · cases h
  · simp only [Option.bind_eq_bind, Option.bind_some, Option.bind_eq_some_iff] at h
    obtain ⟨-, -, h⟩ := h
    cases h
    rfl

theorem octet?_toDigits (o : UInt8) {rest : List Char} (hrest : Stops 10 rest) :
    octet? (Nat.toDigits 10 o.toNat ++ rest) = some (o, rest) := by
  have hlt := o.toNat_lt
  have hlength : (Nat.toDigits 10 o.toNat).length ≤ 3 :=
    (Nat.length_toDigits_le_iff (by decide) (by decide)).mpr (by omega)
  have hlead (h : (Nat.toDigits 10 o.toNat).head? = some '0') :
      (Nat.toDigits 10 o.toNat).length = 1 := by
    rw [eq_zero_of_head?_toDigits h]
    rfl
  simp only [octet?, number?_toDigits (by decide) (by decide) _ hrest, Option.bind_eq_bind,
    Option.bind_some]
  rw [(Option.guard_eq_some' ()).mpr ⟨hlength, hlt, hlead⟩]
  simp

theorem ipv4?_text (ip : Ipv4) {rest : List Char} (hrest : Stops 10 rest) :
    ipv4? (ip.text.toList ++ rest) = some (ip, rest) := by
  have hdot (text : List Char) : Stops 10 ('.' :: text) := stops_cons (by decide)
  have htext : ip.text.toList ++ rest =
      Nat.toDigits 10 ip.a.toNat ++ '.' :: (Nat.toDigits 10 ip.b.toNat ++
        '.' :: (Nat.toDigits 10 ip.c.toNat ++ '.' :: (Nat.toDigits 10 ip.d.toNat ++ rest))) := by
    have htoString (s : String) : toString s = s := rfl
    simp [Ipv4.text, htoString]
  rw [htext]
  simp [ipv4?, octet?_toDigits _ (hdot _), octet?_toDigits _ hrest, given?]

theorem Stops.ipv4? {text : List Char} (h : Stops 10 text) : ipv4? text = none := by
  simp [Net.ipv4?, octet?, h.number?]

/-- Digits that no dot follows do not begin an IPv4 address. -/
theorem ipv4?_toDigits (n : Nat) {rest : List Char} (hrest : Stops 16 rest)
    (hdot : rest.head? ≠ some '.') : ipv4? (Nat.toDigits 16 n ++ rest) = none := by
  have hbehind (ds : List Char) (hds : ∀ c ∈ ds, isDigit 16 c = true) :
      ((ds ++ rest).dropWhile (isDigit 10)).head? ≠ some '.' := by
    induction ds with
    | nil => rwa [List.nil_append, hrest.decimal.dropWhile]
    | cons c ds ih =>
        rw [List.cons_append, List.dropWhile_cons]
        split
        · exact ih fun d hd => hds d (List.mem_cons_of_mem _ hd)
        · rintro ⟨⟩
          cases hds '.' List.mem_cons_self
  have hhead := hbehind _ fun c hc => isDigit_of_mem_toDigits (by decide) (by decide) n hc
  have hgiven : given? '.' ((Nat.toDigits 16 n ++ rest).dropWhile (isDigit 10)) = none := by
    generalize (Nat.toDigits 16 n ++ rest).dropWhile (isDigit 10) = behind at hhead
    cases behind with
    | nil => rfl
    | cons c behind => exact if_neg fun hc => hhead (congrArg some hc)
  rw [ipv4?]
  cases hoctet : octet? (Nat.toDigits 16 n ++ rest) with
  | none => rfl
  | some read =>
      obtain ⟨o, behind⟩ := read
      simp [behind_octet? hoctet, hgiven]

/-! ## Groups of IPv6 addresses -/

theorem group?_toDigits (g : UInt16) {rest : List Char} (hrest : Stops 16 rest) :
    group? (Nat.toDigits 16 g.toNat ++ rest) = some (g, rest) := by
  have hlength : (Nat.toDigits 16 g.toNat).length ≤ 4 :=
    (Nat.length_toDigits_le_iff (by decide) (by decide)).mpr g.toNat_lt
  simp only [group?, number?_toDigits (by decide) (by decide) _ hrest, Option.bind_eq_bind,
    Option.bind_some]
  rw [(Option.guard_eq_some' ()).mpr hlength]
  simp

/-- What no group goes on in. -/
structure Closes (text : List Char) : Prop where
  stops : Stops 16 text
  dot : text.head? ≠ some '.'
  groups : ∀ limit, groups limit false text = ([], false, text)

theorem closes_cons {c : Char} {text : List Char} (hdigit : isDigit 16 c = false) (hdot : c ≠ '.')
    (hcolon : c ≠ ':') : Closes (c :: text) := by
  refine ⟨stops_cons hdigit, fun h => hdot (Option.some.inj h), fun limit => ?_⟩
  cases limit with
  | zero => rfl
  | succ limit =>
      have hgiven : given? ':' (c :: text) = none := if_neg hcolon
      simp [groups, hgiven]

/-- Where no group begins, none is read. -/
theorem Stops.groups {text : List Char} (h : Stops 16 text) (limit : Nat) :
    groups limit true text = ([], false, text) := by
  cases limit with
  | zero => rfl
  | succ limit =>
      have hgroup : group? text = none := by simp [group?, h.number?]
      simp [Net.groups, h.decimal.ipv4?, hgroup]

/-- Two colons stand for groups, and so for none that could be read. -/
theorem closes_colons (text : List Char) : Closes (':' :: ':' :: text) := by
  refine ⟨stops_cons (by decide), nofun, fun limit => ?_⟩
  cases limit with
  | zero => rfl
  | succ limit =>
      have hstops : Stops 16 (':' :: text) := stops_cons (by decide)
      have hgroup : group? (':' :: text) = none := by simp [group?, hstops.number?]
      simp [groups, given?, hstops.decimal.ipv4?, hgroup]

/-- Groups with a colon in front of each of them. -/
def behindColons (gs : List UInt16) : List Char :=
  gs.flatMap fun g => ':' :: Nat.toDigits 16 g.toNat

theorem toList_groupsText (g : UInt16) (gs : List UInt16) :
    (Ipv6.groupsText (g :: gs)).toList = Nat.toDigits 16 g.toNat ++ behindColons gs := by
  induction gs generalizing g with
  | nil => simp [Ipv6.groupsText, Ipv6.groupText, behindColons]
  | cons h gs ih =>
      have hrest := ih h
      simp only [Ipv6.groupsText, String.toList_intercalate, List.map_cons] at hrest ⊢
      rw [List.intercalate_cons_cons, hrest]
      simp [Ipv6.groupText, behindColons]

theorem stops_behindColons (gs : List UInt16) {rest : List Char} (h : Closes rest) :
    Stops 16 (behindColons gs ++ rest) ∧ (behindColons gs ++ rest).head? ≠ some '.' := by
  cases gs with
  | nil => exact ⟨h.stops, h.dot⟩
  | cons g gs => exact ⟨stops_cons (by decide), nofun⟩

/-- One more group is read. -/
theorem groups_of_here (limit : Nat) (isFirst : Bool) {g : UInt16} {text rest : List Char}
    (hhere : (if isFirst then some text else given? ':' text) =
      some (Nat.toDigits 16 g.toNat ++ rest))
    (hstops : Stops 16 rest) (hdot : rest.head? ≠ some '.') :
    groups (limit + 1) isFirst text =
      (g :: (groups limit false rest).1, (groups limit false rest).2) := by
  simp [groups, hhere, ipv4?_toDigits _ hstops hdot, group?_toDigits g hstops]

theorem groups_behindColons {gs : List UInt16} {limit : Nat} (hlimit : gs.length ≤ limit)
    {rest : List Char} (hrest : Closes rest) :
    groups limit false (behindColons gs ++ rest) = (gs, false, rest) := by
  induction gs generalizing limit with
  | nil => exact hrest.groups limit
  | cons g gs ih =>
      obtain _ | limit := limit
      · cases hlimit
      · obtain ⟨hstops, hdot⟩ := stops_behindColons gs hrest
        have hhere : given? ':' (behindColons (g :: gs) ++ rest) =
            some (Nat.toDigits 16 g.toNat ++ (behindColons gs ++ rest)) := by
          simp [behindColons, given?]
        rw [groups_of_here limit false (by simpa using hhere) hstops hdot,
          ih (Nat.le_of_succ_le_succ hlimit)]

theorem groups_groupsText {gs : List UInt16} {limit : Nat} (hlimit : gs.length ≤ limit)
    {rest : List Char} (hrest : Closes rest) :
    groups limit true ((Ipv6.groupsText gs).toList ++ rest) = (gs, false, rest) := by
  cases gs with
  | nil => exact hrest.stops.groups limit
  | cons g gs =>
      obtain _ | limit := limit
      · cases hlimit
      · obtain ⟨hstops, hdot⟩ := stops_behindColons gs hrest
        rw [toList_groupsText, List.append_assoc, groups_of_here limit true rfl hstops hdot,
          groups_behindColons (Nat.le_of_succ_le_succ hlimit) hrest]

/-! ## IPv6 addresses -/

theorem zeros_of_le_zeroRun {gs : List UInt16} {n : Nat} (h : n ≤ Ipv6.zeroRun gs) :
    gs.take n = List.replicate n 0 := by
  obtain ⟨rest, hrest⟩ := List.takeWhile_prefix (l := gs) (· == 0)
  have htake : gs.take n = (gs.takeWhile (· == 0)).take n :=
    (congrArg (List.take n) hrest.symm).trans (List.take_append_of_le_length h)
  refine List.eq_replicate_iff.mpr ⟨?_, fun g hg => ?_⟩
  · rw [htake, List.length_take]
    exact Nat.min_eq_left h
  · rw [htake] at hg
    exact eq_of_beq (List.all_eq_true.mp List.all_takeWhile g (List.mem_of_mem_take hg))

/-- Where the longest run of zeros should begin, that many do. -/
theorem longestZeroRun_le (gs : List UInt16) :
    (Ipv6.longestZeroRun gs).2 ≤ Ipv6.zeroRun (gs.drop (Ipv6.longestZeroRun gs).1) := by
  have hkept (is : List Nat) (best : Nat × Nat) (h : best.2 ≤ Ipv6.zeroRun (gs.drop best.1)) :
      (is.foldl (fun best i =>
        let run := Ipv6.zeroRun (gs.drop i)
        if best.2 < run then (i, run) else best) best).2 ≤
      Ipv6.zeroRun (gs.drop (is.foldl (fun best i =>
        let run := Ipv6.zeroRun (gs.drop i)
        if best.2 < run then (i, run) else best) best).1) := by
    induction is generalizing best with
    | nil => exact h
    | cons i is ih =>
        refine ih _ ?_
        dsimp only
        split
        · exact Nat.le_refl _
        · exact h
  exact hkept _ _ (Nat.zero_le _)

theorem ofGroups_groups (ip : Ipv6) : Ipv6.ofGroups ip.groups = ip := rfl

/-- An address without a gap is read as its eight groups. -/
theorem ipv6?_groupsText (ip : Ipv6) {rest : List Char} (hrest : Closes rest) :
    ipv6? ((Ipv6.groupsText ip.groups).toList ++ rest) = some (ip, rest) := by
  have hgroups : groups 8 true ((Ipv6.groupsText ip.groups).toList ++ rest) =
      (ip.groups, false, rest) := groups_groupsText (Nat.le_refl 8) hrest
  have hlength : ip.groups.length = 8 := rfl
  simp [ipv6?, hgroups, hlength, ofGroups_groups]

/-- A gap stands for as many zeros as groups are missing. -/
theorem ipv6?_gap (ip : Ipv6) {head tail : List UInt16} (hgap : head.length + tail.length < 7)
    (hip : ip.groups =
      head ++ List.replicate (8 - head.length - tail.length) 0 ++ tail)
    {rest : List Char} (hrest : Closes rest) :
    ipv6? ((Ipv6.groupsText head).toList ++
      ':' :: ':' :: ((Ipv6.groupsText tail).toList ++ rest)) = some (ip, rest) := by
  have hhead : groups 8 true ((Ipv6.groupsText head).toList ++
      ':' :: ':' :: ((Ipv6.groupsText tail).toList ++ rest)) =
        (head, false, ':' :: ':' :: ((Ipv6.groupsText tail).toList ++ rest)) :=
    groups_groupsText (by omega) (closes_colons _)
  have htail : groups (8 - (head.length + 1)) true ((Ipv6.groupsText tail).toList ++ rest) =
      (tail, false, rest) := groups_groupsText (by omega) hrest
  have hshort : head.length ≠ 8 := by omega
  simp only [ipv6?, hhead, hshort, if_false, Bool.false_eq_true, given?, if_true,
    Option.bind_eq_bind, Option.bind_some, htail, ← hip, ofGroups_groups]
  rfl

theorem ofIpv4_of_toIpv4? {ip : Ipv6} {inner : Ipv4} (h : ip.toIpv4? = some inner) :
    Ipv6.ofIpv4 inner = ip := by
  have hgroup (g : UInt16) :
      UInt16.ofNat (256 * (UInt8.ofNat (g.toNat / 256)).toNat +
        (UInt8.ofNat (g.toNat % 256)).toNat) = g := by
    have hlt := g.toNat_lt
    have hhigh : (UInt8.ofNat (g.toNat / 256)).toNat = g.toNat / 256 :=
      Nat.mod_eq_of_lt (by omega)
    have hlow : (UInt8.ofNat (g.toNat % 256)).toNat = g.toNat % 256 :=
      Nat.mod_eq_of_lt (by omega)
    rw [hhigh, hlow, Nat.div_add_mod, UInt16.ofNat_toNat]
  obtain ⟨g0, g1, g2, g3, g4, g5, g6, g7⟩ := ip
  simp only [Ipv6.toIpv4?, Ipv6.groups, List.take_succ_cons, List.take_zero, List.cons.injEq,
    and_true] at h
  split at h
  · rename_i hwraps
    obtain ⟨rfl, rfl, rfl, rfl, rfl, rfl⟩ := hwraps
    cases h
    simp only [Ipv6.ofIpv4, hgroup]
  · cases h

/-- An address that wraps an IPv4 address is read from the text of that one. -/
theorem ipv6?_wrapped {ip : Ipv6} {inner : Ipv4} (h : ip.toIpv4? = some inner) {rest : List Char}
    (hrest : Stops 10 rest) :
    ipv6? (':' :: ':' :: 'f' :: 'f' :: 'f' :: 'f' :: ':' :: (inner.text.toList ++ rest)) =
      some (ip, rest) := by
  have hhead := (closes_colons
    ('f' :: 'f' :: 'f' :: 'f' :: ':' :: (inner.text.toList ++ rest))).stops.groups 8
  have hgroups : groups 6 false (':' :: (inner.text.toList ++ rest)) =
      ([UInt16.ofNat (256 * inner.a.toNat + inner.b.toNat),
        UInt16.ofNat (256 * inner.c.toNat + inner.d.toNat)], true, rest) := by
    simp only [groups, given?, if_true, Bool.false_eq_true, if_false, ipv4?_text inner hrest]
    rfl
  have hffff : (if true then some ('f' :: 'f' :: 'f' :: 'f' :: ':' :: (inner.text.toList ++ rest))
      else given? ':' ('f' :: 'f' :: 'f' :: 'f' :: ':' :: (inner.text.toList ++ rest))) =
      some (Nat.toDigits 16 (0xFFFF : UInt16).toNat ++ ':' :: (inner.text.toList ++ rest)) := rfl
  have htail := groups_of_here 6 true hffff (stops_cons (by decide)) nofun
  rw [hgroups] at htail
  have hip : Ipv6.ofGroups [0, 0, 0, 0, 0, 0xFFFF,
      UInt16.ofNat (256 * inner.a.toNat + inner.b.toNat),
      UInt16.ofNat (256 * inner.c.toNat + inner.d.toNat)] = ip := ofIpv4_of_toIpv4? h
  simp only [ipv6?, hhead, List.length_nil, Nat.reduceEqDiff, Bool.false_eq_true, if_false, given?,
    if_true, Option.bind_eq_bind, Option.bind_some, Nat.zero_add, Nat.add_one_sub_one, htail,
    List.length_cons, Nat.reduceAdd, Nat.reduceSub]
  exact congrArg (fun ip => some (ip, rest)) hip

theorem ipv6?_text (ip : Ipv6) {rest : List Char} (hrest : Closes rest) :
    ipv6? (ip.text.toList ++ rest) = some (ip, rest) := by
  unfold Ipv6.text
  split
  · rename_i inner hinner
    have htext : ("::ffff:" : String).toList = [':', ':', 'f', 'f', 'f', 'f', ':'] := rfl
    rw [String.toList_append, List.append_assoc, htext]
    simp only [List.cons_append, List.nil_append]
    exact ipv6?_wrapped hinner hrest.stops.decimal
  · have hzeros := longestZeroRun_le ip.groups
    generalize Ipv6.longestZeroRun ip.groups = best at hzeros ⊢
    obtain ⟨start, run⟩ := best
    dsimp only at hzeros ⊢
    split
    · rename_i hlong
      have hgroups : ip.groups = ip.groups.take start ++ List.replicate run 0 ++
          ip.groups.drop (start + run) := by
        rw [← zeros_of_le_zeroRun hzeros, List.append_assoc, ← List.drop_drop,
          List.take_append_drop, List.take_append_drop]
      have hlengths := congrArg List.length hgroups
      have hlength : ip.groups.length = 8 := rfl
      have hhead : (ip.groups.take start).length = min start 8 := List.length_take
      have htail : (ip.groups.drop (start + run)).length = 8 - (start + run) := List.length_drop
      have hgap : run = 8 - (ip.groups.take start).length -
          (ip.groups.drop (start + run)).length := by
        simp only [List.length_append, List.length_replicate, hlength] at hlengths
        omega
      have htext : ("::" : String).toList = [':', ':'] := rfl
      rw [String.toList_append, String.toList_append, htext, List.append_assoc, List.append_assoc]
      refine ipv6?_gap ip (by omega) ?_ hrest
      rw [← hgap]
      exact hgroups
    · exact ipv6?_groupsText ip hrest

/-! ## Addresses with a port -/

theorem port?_toDigits (port : UInt16) :
    port? (':' :: Nat.toDigits 10 port.toNat) = some (port, []) := by
  have hnumber := number?_toDigits (by decide) (by decide) port.toNat (stops_nil 10)
  rw [List.append_nil] at hnumber
  simp only [port?, given?, if_true, Option.bind_eq_bind, Option.bind_some, hnumber]
  rw [(Option.guard_eq_some' ()).mpr port.toNat_lt]
  simp

theorem zone_of_none {text : List Char} (h : text.head? ≠ some '%') : zone text = (0, text) := by
  have hgiven : given? '%' text = none := by
    cases text with
    | nil => rfl
    | cons c rest => exact if_neg fun hc => h (congrArg some hc)
  simp [zone, hgiven]

theorem zone_toDigits (z : UInt32) {rest : List Char} (hrest : Stops 10 rest) :
    zone ('%' :: (Nat.toDigits 10 z.toNat ++ rest)) = (z, rest) := by
  have hnumber := number?_toDigits (by decide) (by decide) z.toNat hrest
  have hlt : z.toNat < 4294967296 := z.toNat_lt
  simp [zone, given?, hnumber, hlt]

theorem whole?_eq_some {α : Type} {result : Option (α × List Char)} {value : α}
    (h : whole? result = some value) : result = some (value, []) := by
  unfold whole? at h
  split at h
  · cases h
    rfl
  · cases h

theorem socketV4?_text (ip : Ipv4) (port : UInt16) :
    socketV4? (ip.text.toList ++ ':' :: Nat.toDigits 10 port.toNat) =
      some ({ ip := .v4 ip, port }, []) := by
  have hrest : Stops 10 (':' :: Nat.toDigits 10 port.toNat) := stops_cons (by decide)
  simp [socketV4?, ipv4?_text ip hrest, port?_toDigits]

theorem socketV6?_text (ip : Ipv6) (port : UInt16) (z : UInt32) {rest : List Char}
    (hzone : zone rest = (z, ']' :: ':' :: Nat.toDigits 10 port.toNat)) (hrest : Closes rest) :
    socketV6? ('[' :: (ip.text.toList ++ rest)) = some ({ ip := .v6 ip, port, zone := z }, []) := by
  simp [socketV6?, given?, ipv6?_text ip hrest, hzone, port?_toDigits]

end Net

namespace SocketAddr

open Net

/-- Only an IPv6 address is in a zone. -/
def Plain (a : SocketAddr) : Prop := ∀ ip, a.ip = .v4 ip → a.zone = 0

/-- What was read has only what text can say. -/
theorem plain_of_ofText? {text : String} {a : SocketAddr} (h : ofText? text = some a) :
    a.Plain := by
  have hread := whole?_eq_some h
  intro ip hip
  cases hv4 : socketV4? text.toList with
  | some read =>
      rw [hv4] at hread
      cases hread
      simp only [socketV4?, Option.bind_eq_bind, Option.bind_eq_some_iff] at hv4
      obtain ⟨_, -, _, -, heq⟩ := hv4
      obtain rfl := congrArg Prod.fst (Option.some.inj heq)
      rfl
  | none =>
      rw [hv4] at hread
      change socketV6? text.toList = some (a, []) at hread
      simp only [socketV6?, Option.bind_eq_bind, Option.bind_eq_some_iff] at hread
      obtain ⟨_, -, _, -, _, -, _, -, heq⟩ := hread
      obtain rfl := congrArg Prod.fst (Option.some.inj heq)
      cases hip

/-- What is written of an address is read as that address. -/
theorem ofText?_text {a : SocketAddr} (h : a.Plain) : ofText? a.text = some a := by
  have htoString (s : String) : toString s = s := rfl
  obtain ⟨ip, port, z⟩ := a
  cases ip with
  | v4 ip =>
      obtain rfl : z = 0 := h ip rfl
      have htext : (SocketAddr.text ⟨.v4 ip, port, 0⟩).toList =
          ip.text.toList ++ ':' :: Nat.toDigits 10 port.toNat := by
        simp [SocketAddr.text, htoString]
      rw [ofText?, htext, socketV4?_text]
      rfl
  | v6 ip =>
      have hv4 (text : List Char) : socketV4? ('[' :: text) = none := by
        simp [socketV4?, (stops_cons (by decide) : Stops 10 ('[' :: text)).ipv4?]
      by_cases hz : z = 0
      · subst hz
        have htext : (SocketAddr.text ⟨.v6 ip, port, 0⟩).toList =
            '[' :: (ip.text.toList ++ ']' :: ':' :: Nat.toDigits 10 port.toNat) := by
          simp [SocketAddr.text, htoString]
        rw [ofText?, htext, hv4, socketV6?_text ip port 0 (zone_of_none nofun)
          (closes_cons (by decide) (by decide) (by decide))]
        rfl
      · have htext : (SocketAddr.text ⟨.v6 ip, port, z⟩).toList =
            '[' :: (ip.text.toList ++ '%' :: (Nat.toDigits 10 z.toNat ++
              ']' :: ':' :: Nat.toDigits 10 port.toNat)) := by
          simp [SocketAddr.text, htoString, hz]
        rw [ofText?, htext, hv4, socketV6?_text ip port z (zone_toDigits z (stops_cons (by decide)))
          (closes_cons (by decide) (by decide) (by decide))]
        rfl

end SocketAddr

end PeerRelay
