import Mathlib.Algebra.BigOperators.Fin
import PeerRelay.Proofs.Pool
import PeerRelay.Proofs.Registry
import PeerRelay.Proofs.Relay.Calls

/-!
# Channel slots under overlapping calls

A slot goes from the creation that takes it to the entry of the channel in the list, and from
there to whoever takes the channel off the list. In between it is on the hands of one
operation. However many creations and stops overlap, and wherever they get in each other's
way, the slots in use are the listed channels and the slots on somebody's hands.
-/

namespace PeerRelay.Relay

open Steps

/-- The slots that an operation has on its hands. -/
structure Hands where
  /-- Taken for channels that are not listed yet. -/
  unplaced : Nat := 0
  /-- Left over from channels that were taken off the list. -/
  unreturned : Nat := 0
  deriving DecidableEq, Repr

def Hands.total (h : Hands) : Nat := h.unplaced + h.unreturned

@[simp] theorem Hands.total_none : ({} : Hands).total = 0 := rfl

/-- A slot that is given back is one that was left over, if there is one. -/
def Hands.giveBack (h : Hands) : Hands :=
  if 0 < h.unreturned then { h with unreturned := h.unreturned - 1 }
  else { h with unplaced := h.unplaced - 1 }

/-- What comes to the hands, or leaves them, when a slot is taken or the list changes. -/
def Hands.across (h : Hands) (r r' : Relay) : Hands :=
  if r.slots < r'.slots then { h with unplaced := h.unplaced + 1 }
  else if r.listed.size < r'.listed.size then { h with unplaced := h.unplaced - 1 }
  else if r'.listed.size < r.listed.size then { h with unreturned := h.unreturned + 1 }
  else h

/-- Whether a move gives a slot back: had one more been in use, it would be gone. -/
def givesSlotBack (m : Move Relay) : Bool :=
  (m.act { m.found with slots := m.found.slots + 1 }).slots ≤ m.found.slots

/-- What an operation has on its hands after a move of its own. -/
def Hands.after (h : Hands) (m : Move Relay) : Hands :=
  if givesSlotBack m then h.giveBack else h.across m.found m.left

/-- What an operation has on its hands after all of its moves. -/
def hands (past : List (Move Relay)) : Hands := past.foldl Hands.after {}

/-! ## Steps that do not touch slots -/

/-- The limits, the slots and the list are what they were. -/
structure SameSlots (r r' : Relay) : Prop where
  config : r'.config = r.config
  slots : r'.slots = r.slots
  listed : r'.listed = r.listed

namespace SameSlots

theorem of_sameChannels {r r' : Relay} (h : SameChannels r r') : SameSlots r r' :=
  ⟨h.config, h.slots, h.listed⟩

theorem refl (r : Relay) : SameSlots r r := ⟨rfl, rfl, rfl⟩

instance : Std.Refl SameSlots := ⟨refl⟩

theorem modifySession (r : Relay) (s : SessionRef) (f : Session → Session) :
    SameSlots r (r.modifySession s f) := ⟨rfl, rfl, rfl⟩

end SameSlots

theorem sameSlots_of_sameChannels {α : Type} {p : Op α} (h : p.Each SameChannels) :
    p.Each SameSlots :=
  h.mono fun _ _ => .of_sameChannels

theorem leave_sameSlots (s : SessionRef) (side : Side) (id : ChannelId) :
    (leave s side id).Each SameSlots :=
  each_atomic fun r => .modifySession r s _

theorem register_sameSlots (s : SessionRef) (side : Side) (id : ChannelId) (c : ChannelRef) :
    (register s side id c).Each SameSlots := by
  have henter : (enter s side id c).Each SameSlots := by
    refine each_atomic fun r => ?_
    split
    · exact .modifySession r s _
    · exact .refl r
  exact composed_each.register henter (leave_sameSlots ..)

theorem joinSessions_sameSlots (c : ChannelRef) : (joinSessions c).Each SameSlots :=
  composed_each.joinSessions register_sameSlots leave_sameSlots c

theorem bindChannel_sameSlots (src : SessionRef) (id : SessionId) :
    (bindChannel src id).Each SameSlots :=
  composed_each.bindChannel (fun _ _ => each_atomic fun _ => ⟨rfl, rfl, rfl⟩) id

theorem takeChannels_sameSlots (s : SessionRef) (side : Side) :
    (takeChannels s side).Each SameSlots :=
  each_takeChannels fun _ r => .modifySession r s _

theorem givesSlotBack_of_le {act : Relay → Relay} (h : ∀ r, r.slots ≤ (act r).slots)
    (r : Relay) : givesSlotBack ⟨r, act⟩ = false :=
  decide_eq_false (Nat.not_le_of_lt (h { r with slots := r.slots + 1 }))

theorem Hands.across_of_sameSlots {r r' : Relay} (h : SameSlots r r') (g : Hands) :
    g.across r r' = g := by
  simp [Hands.across, h.slots, h.listed]

/-! ## Whose hands a slot is on -/

section

variable (limits : Config) (n : Nat)

/-- How calls share the slots: what is not in the list is on somebody's hands, nobody has more
than one there, and only who has one gives one back. -/
def slotProtocol : Protocol Relay Hands where
  Inv notes r := r.config = limits ∧
    r.slots = r.listed.size + ∑ i ∈ Finset.range n, (notes i).total ∧
    (∀ i, (notes i).total ≤ 1) ∧ (0 < limits.maxChannels → r.slots ≤ limits.maxChannels)
  Notes g m g' := g' = g.after m ∧ (givesSlotBack m → 0 < g.total)

end

section

variable {limits : Config} {n : Nat} {notes : Nat → Hands} {r r' : Relay} {i : Nat} {g : Hands}

theorem sum_update_total (hi : i < n) (notes : Nat → Hands) (g : Hands) :
    (∑ j ∈ Finset.range n, (Function.update notes i g j).total) + (notes i).total =
      (∑ j ∈ Finset.range n, (notes j).total) + g.total := by
  have hmem := Finset.mem_range.mpr hi
  have hrest : ∑ j ∈ (Finset.range n).erase i, (Function.update notes i g j).total =
      ∑ j ∈ (Finset.range n).erase i, (notes j).total := by
    refine Finset.sum_congr rfl fun j hj => ?_
    rw [Function.update_of_ne (Finset.ne_of_mem_erase hj)]
  rw [← Finset.add_sum_erase _ _ hmem, ← Finset.add_sum_erase _ (fun j => (notes j).total) hmem,
    hrest, Function.update_self]
  omega

/-- A move by which a slot comes to one pair of hands or leaves it keeps the account. -/
theorem slotProtocol_inv (h : (slotProtocol limits n).Inv notes r) (hi : i < n)
    (hconfig : r'.config = r.config)
    (hmoved : r'.slots + r.listed.size + (notes i).total =
      r.slots + r'.listed.size + g.total)
    (hone : g.total ≤ 1) (hcap : 0 < limits.maxChannels → r'.slots ≤ limits.maxChannels) :
    (slotProtocol limits n).Inv (Function.update notes i g) r' := by
  obtain ⟨hlimits, hslots, hall, -⟩ := h
  -- The slots on all other hands cancel out, and what is left is `hmoved`.
  have hsum := sum_update_total hi notes g
  refine ⟨hconfig.trans hlimits, by omega, fun j => ?_, hcap⟩
  by_cases hj : j = i
  · subst hj
    rwa [Function.update_self]
  · rw [Function.update_of_ne hj]
    exact hall j

theorem follows_of_sameSlots {α : Type} {p : Op α} (h : p.Each SameSlots) (i : Nat) (g : Hands) :
    (slotProtocol limits n).Follows i (fun _ g' => g' = g) p g := by
  refine Protocol.follows_of_each h fun notes r act _ hinv hact => ?_
  obtain ⟨hlimits, hslots, hall, hcap⟩ := hinv
  have hback := givesSlotBack_of_le (fun r => Nat.le_of_eq (hact r).slots.symm) r
  refine ⟨⟨?_, by simp [hback]⟩, (hact r).config.trans hlimits, ?_, hall, ?_⟩
  · rw [Hands.after, hback, if_neg Bool.false_ne_true]
    exact (Hands.across_of_sameSlots (hact r) g).symm
  · rw [(hact r).slots, (hact r).listed, hslots]
  · rwa [(hact r).slots]

/-- A step that never gives a slot back. -/
theorem follows_atomic_of_le {α : Type} {f : Relay → α × Relay} {Q : α → Hands → Prop}
    (hle : ∀ r, r.slots ≤ (f r).2.slots)
    (h : ∀ notes r, notes i = g → (slotProtocol limits n).Inv notes r →
      (slotProtocol limits n).Inv (Function.update notes i (g.across r (f r).2)) (f r).2 ∧
        Q (f r).1 (g.across r (f r).2)) :
    (slotProtocol limits n).Follows i Q (atomic f) g := by
  refine Protocol.follows_atomic fun notes r hnote hinv => ?_
  have hback := givesSlotBack_of_le hle r
  obtain ⟨hinv', hQ⟩ := h notes r hnote hinv
  refine ⟨_, ⟨?_, by simp [hback]⟩, hinv', hQ⟩
  rw [Hands.after, hback, if_neg Bool.false_ne_true]
  rfl

/-- A slot that is taken comes to the hands of the operation that takes it. -/
theorem reserveSlot_follows (hi : i < n) :
    (slotProtocol limits n).Follows i (fun taken g => g = if taken then ⟨1, 0⟩ else {})
      reserveSlot {} := by
  refine follows_atomic_of_le (fun r => ?_) fun notes r hnote hinv => ?_
  · split
    · exact Nat.le_succ _
    · exact Nat.le_refl _
  · have hlimits := hinv.1
    by_cases hroom : r.config.maxChannels = 0 ∨ r.slots < r.config.maxChannels
    · have hacross : Hands.across {} r { r with slots := r.slots + 1 } = ⟨1, 0⟩ := by
        simp [Hands.across]
      simp only [hroom, if_true, hacross, and_true]
      refine slotProtocol_inv hinv hi rfl ?_ (by decide) fun hpos => ?_
      · rw [hnote]
        simp only [Hands.total]
        omega
      · rw [hlimits] at hroom
        dsimp only
        omega
    · have hacross : Hands.across {} r r = {} := Hands.across_of_sameSlots (.refl r) {}
      simp only [hroom, if_false, hacross, Bool.false_eq_true, and_true]
      rwa [← hnote, Function.update_eq_self]

/-- A slot is only given back by an operation that has one on its hands. -/
theorem releaseSlot_follows (hi : i < n) (hone : g.total = 1) :
    (slotProtocol limits n).Follows i (fun _ g => g = {}) releaseSlot g := by
  refine Protocol.follows_modify fun notes r hnote hinv => ?_
  have hback : givesSlotBack ⟨r, fun r => { r with slots := r.slots - 1 }⟩ = true := by
    simp [givesSlotBack]
  -- Its one slot is of one kind or of the other, and either way none is left.
  have hnone : g.giveBack = {} := by
    obtain ⟨unplaced, unreturned⟩ := g
    rcases Nat.add_eq_one_iff.mp hone with ⟨rfl, rfl⟩ | ⟨rfl, rfl⟩ <;> rfl
  -- It counts among the slots in use, so the counter does not stop at zero.
  have hslots := hinv.2.1
  have hsum := sum_update_total hi notes {}
  rw [hnote, hone, Hands.total_none] at hsum
  refine ⟨{}, ⟨?_, fun _ => by omega⟩, slotProtocol_inv hinv hi rfl ?_ (by decide) ?_, rfl⟩
  · rw [Hands.after, hback, if_pos rfl, hnone]
  · rw [hnote, hone]
    simp only [Hands.total]
    omega
  · intro hpos
    have := hinv.2.2.2 hpos
    dsimp only
    omega

/-- A channel that is listed has the slot from then on; one that is refused has it not. -/
theorem listChannel_follows (hi : i < n) (id : ChannelId) (c : ChannelRef) :
    (slotProtocol limits n).Follows i (fun listed g => g = if listed then {} else ⟨1, 0⟩)
      (listChannel id c) ⟨1, 0⟩ := by
  refine follows_atomic_of_le (fun r => ?_) fun notes r hnote hinv => ?_
  · split <;> exact Nat.le_refl _
  · cases hlist : r.listed.insert? id c with
    | some listed =>
        have hsize := Registry.size_of_insert? hlist
        have hacross : Hands.across ⟨1, 0⟩ r { r with listed } = {} := by
          simp [Hands.across, hsize]
        simp only [hacross, if_true, and_true]
        refine slotProtocol_inv hinv hi rfl ?_ (by decide) hinv.2.2.2
        rw [hnote]
        simp only [Hands.total, hsize]
        omega
    | none =>
        have hacross : Hands.across ⟨1, 0⟩ r r = ⟨1, 0⟩ := Hands.across_of_sameSlots (.refl r) _
        simp only [hacross, Bool.false_eq_true, if_false, and_true]
        rwa [← hnote, Function.update_eq_self]

/-- Of those who take a channel off the list only the one that finds it has its slot. -/
theorem unlistChannel_follows (hi : i < n) (id : ChannelId) :
    (slotProtocol limits n).Follows i (fun found g => g = if found then ⟨0, 1⟩ else {})
      (unlistChannel id) {} := by
  refine follows_atomic_of_le (fun r => Nat.le_refl _) fun notes r hnote hinv => ?_
  by_cases hid : id ∈ r.listed.keys
  · have hsize := Registry.size_erase_of_mem hid
    have hpos := Registry.size_pos_of_mem hid
    have hfound : r.listed.contains id = true := Registry.contains_iff.mpr hid
    have hacross : Hands.across {} r { r with listed := r.listed.erase id } = ⟨0, 1⟩ := by
      have hless : r.listed.size - 1 < r.listed.size := by omega
      simp [Hands.across, hsize, hless]
    simp only [hacross, hfound, if_true, and_true]
    refine slotProtocol_inv hinv hi rfl ?_ (by decide) hinv.2.2.2
    rw [hnote]
    simp only [Hands.total, hsize]
    omega
  · have hfound : r.listed.contains id = false := decide_eq_false hid
    have hsame : { r with listed := r.listed.erase id } = r := by
      rw [Registry.erase_of_not_mem hid]
    have hacross : Hands.across {} r r = {} := Hands.across_of_sameSlots (.refl r) {}
    simp only [hsame, hacross, hfound, Bool.false_eq_true, if_false, and_true]
    rwa [← hnote, Function.update_eq_self]

/-! ## Calls share the slots -/

/-- Operations that begin and end with nothing on their hands. -/
def SharesSlots (limits : Config) (n : Nat) (α : Type) (p : Op α) : Prop :=
  ∀ i < n, (slotProtocol limits n).Follows i (fun _ g => g = {}) p {}

theorem sharesSlots_of_sameSlots {α : Type} {p : Op α} (h : p.Each SameSlots) :
    SharesSlots limits n α p :=
  fun i _ => follows_of_sameSlots h i {}

theorem SharesSlots.bind {α β : Type} {p : Op α} {f : α → Op β} (hp : SharesSlots limits n α p)
    (hf : ∀ a, SharesSlots limits n β (f a)) : SharesSlots limits n β (p >>= f) :=
  fun i hi => Protocol.follows_bind (hp i hi) fun a _ hg => hg ▸ hf a i hi

theorem compositional_sharesSlots : Compositional (SharesSlots limits n) where
  quiet h := sharesSlots_of_sameSlots (sameSlots_of_sameChannels h)
  bind := SharesSlots.bind

theorem forgetChannel_sharesSlots (id : ChannelId) :
    SharesSlots limits n Unit (forgetChannel id) := by
  intro i hi
  refine Protocol.follows_bind (unlistChannel_follows hi id) fun found g hg => ?_
  subst hg
  split
  · exact releaseSlot_follows hi rfl
  · exact Protocol.follows_pure rfl

theorem stopChannel_sharesSlots (c : ChannelRef) :
    SharesSlots limits n Unit (stopChannel c) := by
  have hquiet {α : Type} {p : Op α} (h : p.Each SameChannels) : SharesSlots limits n α p :=
    compositional_sharesSlots.quiet h
  have hend (id : ChannelId) (side : Side) (e : Channel.Endpoint) :
      SharesSlots limits n Unit (closeEnd id side e) :=
    compositional_sharesSlots.composed.closeEnd (sharesSlots_of_sameSlots (leave_sameSlots ..))
      (forgetChannel_sharesSlots id) (hquiet (notifyStop_sameChannels ..))
  exact compositional_sharesSlots.composed.stopChannel
    (sharesSlots_of_sameSlots (each_atomic fun _ => ⟨rfl, rfl, rfl⟩))
    (compositional_sharesSlots.composed.tearDown hend (hquiet (retireChannel_sameChannels c))
      (hquiet (countClosed_sameChannels c)))

theorem stopSession_sharesSlots (s : SessionRef) :
    SharesSlots limits n Unit (stopSession s) := by
  have hquiet {α : Type} {p : Op α} (h : p.Each SameChannels) : SharesSlots limits n α p :=
    compositional_sharesSlots.quiet h
  have hstop : SharesSlots limits n Unit (stopChannels s) :=
    compositional_sharesSlots.composed.stopChannels
      (fun s side => sharesSlots_of_sameSlots (takeChannels_sameSlots s side))
      (compositional_sharesSlots.composed.discardChannel forgetChannel_sharesSlots
        stopChannel_sharesSlots) stopChannel_sharesSlots s
  exact compositional_sharesSlots.composed.stopSession
    (sharesSlots_of_sameSlots (each_atomic fun _ => ⟨rfl, rfl, rfl⟩))
    (hquiet (each_modify fun r => sameChannels_disarm _ r)) hstop
    (hquiet (dismiss_sameChannels s)) (hquiet (detach_sameChannels s))

/-- The slot that a creation takes goes with the channel or is given back, at each exit. -/
theorem createChannel_sharesSlots (src : SessionRef) (id : SessionId) :
    SharesSlots limits n _ (createChannel src id) := by
  have hquiet {α : Type} {p : Op α} (h : p.Each SameChannels) : SharesSlots limits n α p :=
    compositional_sharesSlots.quiet h
  intro i hi
  refine Protocol.follows_bind (reserveSlot_follows hi) fun taken g hg => ?_
  subst hg
  cases taken with
  | false => exact hquiet (each_bind (each_read _) fun _ => each_pure _) i hi
  | true =>
      refine Protocol.follows_bind (follows_of_sameSlots (bindChannel_sameSlots src id) i _)
        fun bound g hg => ?_
      subst hg
      cases bound with
      | error refusal =>
          refine Protocol.follows_bind (releaseSlot_follows hi rfl) fun _ g hg => ?_
          exact Protocol.follows_pure hg
      | ok made =>
          refine Protocol.follows_bind (follows_of_sameSlots (each_read _) i _) fun newId g hg => ?_
          subst hg
          refine Protocol.follows_bind (listChannel_follows hi newId made.1) fun listed g hg => ?_
          subst hg
          cases listed with
          | true =>
              -- The slot is the channel's now: whoever takes it off the list gives it back.
              refine SharesSlots.bind (sharesSlots_of_sameSlots (joinSessions_sameSlots _))
                (fun joined => ?_) i hi
              split
              · refine .bind (forgetChannel_sharesSlots newId) fun _ => ?_
                exact .bind (stopChannel_sharesSlots _) fun _ => hquiet (each_pure _)
              · exact hquiet (each_pure _)
          | false =>
              refine Protocol.follows_bind (releaseSlot_follows hi rfl) fun _ g hg => ?_
              subst hg
              refine SharesSlots.bind (stopChannel_sharesSlots _) (fun _ => ?_) i hi
              exact hquiet (each_bind (each_read _) fun _ => each_pure _)

theorem call_sharesSlots (c : Call) : SharesSlots limits n _ c.op :=
  compositional_sharesSlots.call createChannel_sharesSlots stopChannel_sharesSlots
    stopSession_sharesSlots c

/-- What an operation has noted by the protocol is what its moves say. -/
theorem eq_hands_of_noted {past : List (Move Relay)}
    (h : (slotProtocol limits n).Noted {} past g) : g = hands past := by
  induction h with
  | nil => rfl
  | snoc _ hnotes ih =>
      rw [hnotes.1, ih]
      simp [hands]

end

/-! ## The account -/

/-- The slots of a relay are accounted for while calls are under way. -/
structure Accounted (limits : Config) {α : Type} (p : Pool Relay α) : Prop where
  /-- In use are the slots of the listed channels, of the creations that have taken one and
  neither listed their channel nor given it back, and of the removals that have taken a
  channel off the list and still have its slot. -/
  slots_eq : p.state.slots = p.state.listed.size +
    (p.tasks.map fun t => (hands t.past).unplaced).sum +
    (p.tasks.map fun t => (hands t.past).unreturned).sum
  /-- Nobody has more than one slot on its hands. -/
  single : ∀ t ∈ p.tasks, (hands t.past).total ≤ 1
  /-- Whoever has given a slot back had one, so none is given back twice. -/
  given_back_once : ∀ t ∈ p.tasks, ∀ before m after, t.past = before ++ m :: after →
    givesSlotBack m → 0 < (hands before).total
  /-- Whoever is done has none left. -/
  none_left : ∀ t ∈ p.tasks, t.result?.isSome → hands t.past = {}
  slots_le : 0 < limits.maxChannels → p.state.slots ≤ limits.maxChannels
  listed_le : 0 < limits.maxChannels → p.state.listed.size ≤ limits.maxChannels
  idle_eq : p.idle → p.state.slots = p.state.listed.size

section

variable {limits : Config} {n : Nat} {notes : Nat → Hands}

/-- What stands on all hands together is what the moves of all operations say. -/
theorem sum_total_eq {α : Type} {p : Pool Relay α}
    (h : ∀ i t, p.tasks[i]? = some t → notes i = hands t.past) :
    ∑ i ∈ Finset.range p.tasks.length, (notes i).total =
      (p.tasks.map fun t => (hands t.past).unplaced).sum +
        (p.tasks.map fun t => (hands t.past).unreturned).sum := by
  have hone : ∑ i ∈ Finset.range p.tasks.length, (notes i).total =
      (p.tasks.map fun t => (hands t.past).total).sum := by
    rw [Finset.sum_range, ← Fin.sum_univ_fun_getElem]
    refine Finset.sum_congr rfl fun i _ => ?_
    rw [h i _ (List.getElem?_eq_getElem i.isLt)]
  rw [hone, ← List.sum_map_add]
  rfl

theorem accounted_of_keeps {α : Type} {p : Pool Relay α}
    (h : p.Keeps (slotProtocol limits p.tasks.length) (fun _ => {}) (fun _ _ g => g = {}) notes) :
    Accounted limits p := by
  have hnotes (i : Nat) (t : Task Relay α) (ht : p.tasks[i]? = some t) :
      notes i = hands t.past := eq_hands_of_noted (h.noted i t ht)
  obtain ⟨-, hslots, hall, hcap⟩ := h.inv
  have hsum := sum_total_eq hnotes
  have hnone (t : Task Relay α) (ht : t ∈ p.tasks) (hover : t.result?.isSome) :
      hands t.past = {} := by
    obtain ⟨i, hi⟩ := List.getElem?_of_mem ht
    obtain ⟨a, ha⟩ := Option.isSome_iff_exists.mp hover
    rw [← hnotes i t hi]
    exact h.ended hi ha
  constructor
  case slots_eq => omega
  case single =>
    intro t ht
    obtain ⟨i, hi⟩ := List.getElem?_of_mem ht
    rw [← hnotes i t hi]
    exact hall i
  case given_back_once =>
    intro t ht before m after hpast hback
    obtain ⟨i, hi⟩ := List.getElem?_of_mem ht
    have hnoted := h.noted i t hi
    rw [hpast] at hnoted
    obtain ⟨g, g', hbefore, hmove⟩ := hnoted.of_append
    rw [← eq_hands_of_noted hbefore]
    exact hmove.2 hback
  case none_left => exact hnone
  case slots_le => exact hcap
  case listed_le =>
    intro hpos
    have := hcap hpos
    omega
  case idle_eq =>
    intro hidle
    have hzero : ∑ i ∈ Finset.range p.tasks.length, (notes i).total = 0 := by
      refine Finset.sum_eq_zero fun i hi => ?_
      have ht := List.getElem?_eq_getElem (Finset.mem_range.mp hi)
      rw [hnotes i _ ht, hnone _ (List.getElem_mem _) (hidle _ (List.getElem_mem _))]
      rfl
    omega

end

/-- Calls from several sides keep to the slots together. -/
theorem calls_keep_slots (limits : Config) (calls : List Call) (turns : List Nat) :
    ∃ notes, ((Pool.start { config := limits } (calls.map Call.op)).play turns).Keeps
      (slotProtocol limits
        ((Pool.start { config := limits } (calls.map Call.op)).play turns).tasks.length)
      (fun _ => {}) (fun _ _ g => g = {}) notes := by
  have hstart : Pool.Keeps (slotProtocol limits calls.length) (fun _ => {})
      (fun _ _ g => g = {}) (Pool.start { config := limits } (calls.map Call.op)) fun _ => {} := by
    refine Pool.keeps_start ⟨rfl, by simp [Registry.empty, Registry.size], by simp, by simp⟩
      fun i op hop => ?_
    obtain ⟨hi, c, rfl⟩ := op_of_getElem? hop
    exact call_sharesSlots c i hi
  have hlength : ((Pool.start { config := limits } (calls.map Call.op)).play turns).tasks.length =
      calls.length := by simp [Pool.start]
  rw [hlength]
  exact hstart.play turns

/-- Whatever is asked of a relay from however many sides, and whoever has which turn, its
slots are accounted for at every moment. -/
theorem slots_accounted (limits : Config) (calls : List Call) (turns : List Nat) :
    Accounted limits ((Pool.start { config := limits } (calls.map Call.op)).play turns) := by
  obtain ⟨notes, hkeeps⟩ := calls_keep_slots limits calls turns
  exact accounted_of_keeps hkeeps

end PeerRelay.Relay
