import PeerRelay.Proofs.Relay.Registration
import PeerRelay.Proofs.Relay.Slots

/-!
# Errands

When calls overlap, a channel goes through states that no complete call leaves behind: it is
listed before it is entered with its sessions, and it is marked as over before they have let go
of it. Each such state is on somebody's agenda. The agendas of all operations together tell how
the registrations are: a listed channel is entered with its source session, or somebody is to
enter it or to take it off the list; a channel that is over is not entered, or somebody is to
make its session let go of it, or somebody entered it too late.
-/

namespace PeerRelay.Relay

open Steps

/-! ## Errands -/

/-- What an operation has begun with a channel, what it must still see to, and what it knows. -/
inductive Errand where
  /-- A session is there. -/
  | session (s : SessionRef)
  /-- A channel was made, on these terms. -/
  | make (c : ChannelRef) (t : Channel.Terms)
  /-- It is listed, and is to be entered with its source session. -/
  | enter (c : ChannelRef) (t : Channel.Terms)
  /-- It is to be taken off the list. -/
  | unlist (c : ChannelRef) (t : Channel.Terms)
  /-- It is over, and the session at an end is to let go of it. -/
  | letGo (side : Side) (c : ChannelRef) (t : Channel.Terms)

/-- A channel was made on these terms. -/
def KnownAs (c : ChannelRef) (t : Channel.Terms) (r : Relay) : Prop :=
  c < r.channels.length ∧ (r.channel c).terms = t

/-- What an operation knows is so. -/
def Errand.Known (r : Relay) : Errand → Prop
  | session s => s < r.sessions.length
  | make c t | enter c t => KnownAs c t r ∧ ∀ side, t.session side < r.sessions.length
  | unlist c t | letGo _ c t => KnownAs c t r

/-- The note of an operation. -/
structure Agenda where
  todo : List Errand := []
  /-- The channels that it has entered with the session at an end. -/
  entered : List (ChannelRef × Side) := []
  /-- The channels that it has entered with a session when they were over already. -/
  late : List ChannelRef := []
  /-- The channels that it has marked as over. -/
  halted : List ChannelRef := []

/-- It is to enter the channel that is listed under an id, or to take the id off the list. -/
def Errand.Covers (k : ChannelId) (c : ChannelRef) : Errand → Prop
  | enter d t => d = c ∧ t.id = k
  | unlist _ t => t.id = k
  | _ => False

/-- It is to make the session at an end let go of a channel. -/
def Errand.Closes (c : ChannelRef) (side : Side) : Errand → Prop
  | letGo side' d _ => side' = side ∧ d = c
  | _ => False

def Agenda.Covers (g : Agenda) (k : ChannelId) (c : ChannelRef) : Prop :=
  ∃ e ∈ g.todo, e.Covers k c

/-- The session at an end is made to let go of a channel, or the channel was entered too late. -/
def Agenda.Closes (g : Agenda) (c : ChannelRef) (side : Side) : Prop :=
  c ∈ g.late ∨ ∃ e ∈ g.todo, e.Closes c side

/-! ## Where a channel is registered -/

/-- What a session has entered under an id. -/
def channelAt? (r : Relay) (s : SessionRef) (side : Side) (k : ChannelId) : Option ChannelRef :=
  ((r.session s).channels side).get? k

/-- The session at an end of a channel has an entry for it. -/
def Entered (r : Relay) (c : ChannelRef) (side : Side) : Prop :=
  r.channelAt? ((r.channel c).terms.session side) side (r.channel c).id = some c

/-- Nothing of a channel is registered anywhere. -/
structure Nowhere (c : ChannelRef) (r : Relay) : Prop where
  listed : c ∉ r.listed.values
  entered : ∀ s side, c ∉ ((r.session s).channels side).values

/-- A move that enters a channel with a session, as one that it has on this side. -/
def Enters (c : ChannelRef) (side : Side) (m : Move Relay) : Prop :=
  ∃ s, c ∉ ((m.found.session s).channels side).values ∧
    c ∈ ((m.left.session s).channels side).values

/-- A move that enters a channel with a session when the channel is over already. -/
def EntersLate (c : ChannelRef) (m : Move Relay) : Prop :=
  (m.found.channel c).stopped = true ∧ ∃ side, Enters c side m

/-- A move that marks a channel as over. -/
def Stops (c : ChannelRef) (m : Move Relay) : Prop :=
  (m.found.channel c).stopped = false ∧ (m.left.channel c).stopped = true

/-- A session that has not begun has no entries, so only those that have need be looked at. -/
theorem enters_iff {c : ChannelRef} {side : Side} {m : Move Relay} : Enters c side m ↔
    ∃ s < m.left.sessions.length, c ∉ ((m.found.session s).channels side).values ∧
      c ∈ ((m.left.session s).channels side).values := by
  refine exists_congr fun s => (and_iff_right_of_imp fun h => Nat.lt_of_not_le fun hs => ?_).symm
  rw [session_of_le hs] at h
  cases side <;> cases h.2

instance (c : ChannelRef) (side : Side) (m : Move Relay) : Decidable (Enters c side m) :=
  decidable_of_iff _ enters_iff.symm

theorem entersLate_iff {c : ChannelRef} {m : Move Relay} : EntersLate c m ↔
    (m.found.channel c).stopped = true ∧ (Enters c .src m ∨ Enters c .dst m) := by
  refine and_congr_right fun _ => ⟨?_, ?_⟩
  · rintro ⟨side, h⟩
    cases side with
    | src => exact .inl h
    | dst => exact .inr h
  · rintro (h | h)
    · exact ⟨.src, h⟩
    · exact ⟨.dst, h⟩

instance (c : ChannelRef) (m : Move Relay) : Decidable (EntersLate c m) :=
  decidable_of_iff _ entersLate_iff.symm

instance (c : ChannelRef) (m : Move Relay) : Decidable (Stops c m) :=
  inferInstanceAs (Decidable (_ ∧ _))

/-- How the registrations are in view of all agendas. -/
structure Tidy (notes : Nat → Agenda) (r : Relay) : Prop where
  known : ∀ i, ∀ e ∈ (notes i).todo, e.Known r
  /-- An entry is under the id of its channel, at a session that the channel belongs to. -/
  placed : ∀ s side k c, r.channelAt? s side k = some c → c < r.channels.length ∧
    (r.channel c).id = k ∧ (r.channel c).terms.session side = s
  numbered : ∀ k c, r.listed.get? k = some c → c < r.channels.length ∧ (r.channel c).id = k
  /-- A listed channel is entered with its source session, or somebody sees to it. -/
  listed : ∀ k c, r.listed.get? k = some c → r.Entered c .src ∨ ∃ i, (notes i).Covers k c
  /-- A channel that is over is not entered, or somebody sees to it. -/
  stopped : ∀ c side, (r.channel c).stopped = true → r.Entered c side →
    ∃ i, (notes i).Closes c side
  halted : ∀ c < r.channels.length, (r.channel c).stopped = true → ∃ i, c ∈ (notes i).halted

/-- What an operation notes of what it has done, it has done. -/
structure Honest (g : Agenda) (m : Move Relay) (g' : Agenda) : Prop where
  entered : ∀ c side, (c, side) ∈ g'.entered → (c, side) ∈ g.entered ∨ Enters c side m
  late : ∀ c ∈ g'.late, c ∈ g.late ∨ EntersLate c m
  halted : ∀ c ∈ g'.halted, c ∈ g.halted ∨ Stops c m

/-- How operations share the registrations. -/
def errandProtocol : Protocol Relay Agenda where
  Inv := Tidy
  Notes := Honest

/-- Channels and sessions stay, and so do the terms of the channels. -/
structure Steady (r r' : Relay) : Prop where
  channels : r.channels.length ≤ r'.channels.length
  terms : ∀ c < r.channels.length, (r'.channel c).terms = (r.channel c).terms
  sessions : r.sessions.length ≤ r'.sessions.length

section

variable {r r' : Relay} {notes : Nat → Agenda} {i : Nat} {g g' : Agenda} {c : ChannelRef}

theorem KnownAs.steady {t : Channel.Terms} (h : KnownAs c t r) (hs : Steady r r') :
    KnownAs c t r' :=
  ⟨Nat.lt_of_lt_of_le h.1 hs.channels, (hs.terms c h.1).trans h.2⟩

theorem Errand.Known.steady {e : Errand} (h : e.Known r) (hs : Steady r r') : e.Known r' := by
  cases e with
  | session s => exact Nat.lt_of_lt_of_le h hs.sessions
  | make c t | enter c t =>
      exact ⟨h.1.steady hs, fun side => Nat.lt_of_lt_of_le (h.2 side) hs.sessions⟩
  | unlist c t | letGo side c t => exact KnownAs.steady h hs

theorem entered_iff_of_terms (h : (r'.channel c).terms = (r.channel c).terms) (side : Side) :
    r'.Entered c side ↔
      r'.channelAt? ((r.channel c).terms.session side) side (r.channel c).id = some c := by
  have hid : (r'.channel c).id = (r.channel c).id := congrArg Channel.Terms.id h
  rw [Entered, h, hid]

/-- What a move does to the registrations in view of the agendas before and after it. What the
other agendas see to may be left to them. -/
structure Moves (g g' : Agenda) (r r' : Relay) : Prop where
  steady : Steady r r'
  known : ∀ e ∈ g'.todo, e ∈ g.todo ∨ e.Known r'
  placed : ∀ s side k c, r'.channelAt? s side k = some c → r.channelAt? s side k = some c ∨
    c < r'.channels.length ∧ (r'.channel c).id = k ∧ (r'.channel c).terms.session side = s
  numbered : ∀ k c, r'.listed.get? k = some c → r.listed.get? k = some c ∨
    c < r'.channels.length ∧ (r'.channel c).id = k
  listed : ∀ k c, r'.listed.get? k = some c →
    (r.listed.get? k = some c → r.Entered c .src ∨ g.Covers k c) →
    r'.Entered c .src ∨ g'.Covers k c
  stopped : ∀ c side, (r'.channel c).stopped = true → r'.Entered c side →
    ((r.channel c).stopped = true → r.Entered c side → g.Closes c side) → g'.Closes c side
  halted : ∀ c < r'.channels.length, (r'.channel c).stopped = true →
    (c < r.channels.length → (r.channel c).stopped = true → c ∈ g.halted) → c ∈ g'.halted

/-- If somebody saw to something before, somebody does afterwards, as long as the one that moves
does not rely on others. -/
theorem exists_update {T : Agenda → Prop} {S S' : Prop} (hg : notes i = g)
    (hold : S ∨ ∃ j, T (notes j)) (hnew : S ∨ T g → S' ∨ T g') :
    S' ∨ ∃ j, T (Function.update notes i g' j) := by
  have hself (h : T g') : ∃ j, T (Function.update notes i g' j) :=
    ⟨i, by rwa [Function.update_self]⟩
  rcases hold with hS | ⟨j, hj⟩
  · exact (hnew (.inl hS)).imp_right hself
  · by_cases hij : j = i
    · rw [hij, hg] at hj
      exact (hnew (.inr hj)).imp_right hself
    · exact .inr ⟨j, by rwa [Function.update_of_ne hij]⟩

theorem exists_update_of_exists {T : Agenda → Prop} (hg : notes i = g)
    (hold : ∃ j, T (notes j)) (hkeep : T g → T g') :
    ∃ j, T (Function.update notes i g' j) := by
  have h : False ∨ ∃ j, T (Function.update notes i g' j) :=
    exists_update hg (Or.inr hold : False ∨ _) fun h => .inr (hkeep (h.resolve_left id))
  exact h.resolve_left id

/-- An operation that does its part keeps the registrations tidy. -/
theorem Tidy.step (h : Tidy notes r) (hg : notes i = g) (hm : Moves g g' r r') :
    Tidy (Function.update notes i g') r' := by
  constructor
  case known =>
    intro j e he
    by_cases hij : j = i
    · subst hij
      rw [Function.update_self] at he
      rcases hm.known e he with he | he
      · exact (h.known j e (hg ▸ he)).steady hm.steady
      · exact he
    · rw [Function.update_of_ne hij] at he
      exact (h.known j e he).steady hm.steady
  case placed =>
    intro s side k c hc
    rcases hm.placed s side k c hc with hc | hc
    · obtain ⟨hlt, hid, hs⟩ := h.placed s side k c hc
      have hterms := hm.steady.terms c hlt
      refine ⟨Nat.lt_of_lt_of_le hlt hm.steady.channels, ?_, by rw [hterms]; exact hs⟩
      exact (congrArg Channel.Terms.id hterms).trans hid
    · exact hc
  case numbered =>
    intro k c hc
    rcases hm.numbered k c hc with hc | hc
    · obtain ⟨hlt, hid⟩ := h.numbered k c hc
      refine ⟨Nat.lt_of_lt_of_le hlt hm.steady.channels, ?_⟩
      exact (congrArg Channel.Terms.id (hm.steady.terms c hlt)).trans hid
    · exact hc
  -- What was so before was somebody's concern, and still is unless it was that of the one that
  -- moves; what is so only now is the concern of that one.
  case listed =>
    intro k c hc
    by_cases hwas : r.listed.get? k = some c
    · exact exists_update (T := fun g => g.Covers k c) hg (h.listed k c hwas)
        fun hsees => hm.listed k c hc fun _ => hsees
    · refine (hm.listed k c hc fun h => absurd h hwas).imp_right fun hsees => ⟨i, ?_⟩
      rwa [Function.update_self]
  case stopped =>
    intro c side hc hin
    by_cases hwas : (r.channel c).stopped = true ∧ r.Entered c side
    · exact exists_update_of_exists (T := fun g => g.Closes c side) hg
        (h.stopped c side hwas.1 hwas.2) fun hsees => hm.stopped c side hc hin fun _ _ => hsees
    · refine ⟨i, ?_⟩
      rw [Function.update_self]
      exact hm.stopped c side hc hin fun hc hin => absurd ⟨hc, hin⟩ hwas
  case halted =>
    intro c hlt hc
    by_cases hwas : c < r.channels.length ∧ (r.channel c).stopped = true
    · exact exists_update_of_exists (T := fun g => c ∈ g.halted) hg
        (h.halted c hwas.1 hwas.2) fun hsees => hm.halted c hlt hc fun _ _ => hsees
    · refine ⟨i, ?_⟩
      rw [Function.update_self]
      exact hm.halted c hlt hc fun hlt hc => absurd ⟨hlt, hc⟩ hwas

/-! ## Moves that leave the registrations alone -/

/-- The channels, the list and the entries are what they were. -/
structure SameRegister (r r' : Relay) : Prop where
  sessions : r.sessions.length ≤ r'.sessions.length
  channels : r'.channels.length = r.channels.length
  terms : ∀ c, (r'.channel c).terms = (r.channel c).terms
  stopped : ∀ c, (r'.channel c).stopped = (r.channel c).stopped
  entries : ∀ s side, (r'.session s).channels side = (r.session s).channels side
  listed : r'.listed = r.listed

namespace SameRegister

theorem of_sameChannels (h : SameChannels r r') : SameRegister r r' :=
  ⟨h.sessions, h.length, h.terms, h.stopped, h.entries, h.listed⟩

theorem refl (r : Relay) : SameRegister r r := .of_sameChannels (.refl r)

instance : Std.Refl SameRegister := ⟨refl⟩

theorem of_eq (hsessions : r'.sessions = r.sessions) (hchannels : r'.channels = r.channels)
    (hlisted : r'.listed = r.listed) : SameRegister r r' := by
  have hsession (s : SessionRef) : r'.session s = r.session s := by
    rw [session, hsessions, session]
  have hchannel (c : ChannelRef) : r'.channel c = r.channel c := by
    rw [channel, hchannels, channel]
  exact ⟨Nat.le_of_eq (by rw [hsessions]), by rw [hchannels], fun c => by rw [hchannel],
    fun c => by rw [hchannel], fun s side => by rw [hsession], hlisted⟩

theorem steady (h : SameRegister r r') : Steady r r' :=
  ⟨Nat.le_of_eq h.channels.symm, fun c _ => h.terms c, h.sessions⟩

theorem channelAt? (h : SameRegister r r') (s : SessionRef) (side : Side) (k : ChannelId) :
    r'.channelAt? s side k = r.channelAt? s side k := by
  rw [Relay.channelAt?, Relay.channelAt?, h.entries]

theorem entered (h : SameRegister r r') (c : ChannelRef) (side : Side) :
    r'.Entered c side ↔ r.Entered c side := by
  rw [entered_iff_of_terms (h.terms c), h.channelAt?]
  rfl

/-- Whoever does not drop anything that it must see to may do what it likes apart from that. -/
theorem moves (h : SameRegister r r') (hknown : ∀ e ∈ g'.todo, e ∈ g.todo ∨ e.Known r')
    (hcovers : ∀ k c, g.Covers k c → g'.Covers k c)
    (hcloses : ∀ c side, g.Closes c side → g'.Closes c side)
    (hhalted : ∀ c ∈ g.halted, c ∈ g'.halted) : Moves g g' r r' where
  steady := h.steady
  known := hknown
  placed s side k c hc := .inl (by rwa [h.channelAt?] at hc)
  numbered k c hc := .inl (by rwa [h.listed] at hc)
  listed k c hc hold := by
    rw [h.listed] at hc
    exact (hold hc).imp (h.entered c .src).mpr (hcovers k c)
  stopped c side hc hin hold := by
    rw [h.stopped] at hc
    exact hcloses c side (hold hc ((h.entered c side).mp hin))
  halted c hlt hc hold := by
    rw [h.stopped] at hc
    exact hhalted c (hold (h.channels ▸ hlt) hc)

end SameRegister

theorem honest_of_same {m : Move Relay} (hentered : g'.entered = g.entered)
    (hlate : g'.late = g.late) (hhalted : g'.halted = g.halted) : Honest g m g' :=
  ⟨fun _ _ hc => .inl (hentered ▸ hc), fun _ hc => .inl (hlate ▸ hc),
    fun _ hc => .inl (hhalted ▸ hc)⟩

/-- Steps that leave the registrations alone. -/
theorem errands_of_same {α : Type} {p : Op α} (h : p.Each SameRegister) (i : Nat) (g : Agenda) :
    errandProtocol.Follows i (fun _ g' => g' = g) p g := by
  refine Protocol.follows_of_each h fun notes r act hg hs hact => ⟨honest_of_same rfl rfl rfl, ?_⟩
  have hm : Moves g g r (act r) :=
    (hact r).moves (fun e he => .inl he) (fun _ _ h => h) (fun _ _ h => h) fun _ h => h
  have hstep := hs.step hg hm
  subst hg
  rwa [Function.update_eq_self] at hstep

/-- The note of an operation that has other things to do. -/
def Agenda.withTodo (g : Agenda) (todo : List Errand) : Agenda := { g with todo }

/-- One step that leaves the registrations alone. What the operation sees may be all that it
needs to drop something from its agenda, or to put it there. -/
theorem errands_of_atomic {α : Type} {f : Relay → α × Relay} {Q : α → Agenda → Prop}
    (hf : ∀ r, SameRegister r (f r).2)
    (h : ∀ notes r, notes i = g → Tidy notes r → ∃ todo, (∀ e ∈ todo, e ∈ g.todo ∨ e.Known r) ∧
      (∀ k c, g.Covers k c → (g.withTodo todo).Covers k c) ∧
      (∀ c side, g.Closes c side → (g.withTodo todo).Closes c side) ∧
      Q (f r).1 (g.withTodo todo)) :
    errandProtocol.Follows i Q (atomic f) g := by
  refine Protocol.follows_atomic fun notes r hg hs => ?_
  obtain ⟨todo, hknown, hcovers, hcloses, hQ⟩ := h notes r hg hs
  refine ⟨g.withTodo todo, honest_of_same rfl rfl rfl, hs.step hg ?_, hQ⟩
  exact (hf r).moves (fun e he => (hknown e he).imp_right (·.steady (hf r).steady)) hcovers
    hcloses fun _ h => h

end

/-! ## Moves that change the registrations -/

section

variable {r r' : Relay} {notes : Nat → Agenda} {i : Nat} {g g' : Agenda} {c : ChannelRef}
  {s : SessionRef} {side : Side} {k : ChannelId} {t : Channel.Terms}

/-- What is on the agenda and known stays known where nothing but the registrations changes. -/
theorem steady_of_channels (hsessions : r'.sessions.length = r.sessions.length)
    (hchannels : r'.channels = r.channels) : Steady r r' := by
  have hchannel (c : ChannelRef) : r'.channel c = r.channel c := by
    rw [channel, hchannels, channel]
  exact ⟨Nat.le_of_eq (by rw [hchannels]), fun c _ => by rw [hchannel], Nat.le_of_eq hsessions.symm⟩

theorem channelAt?_left (r : Relay) (s s' : SessionRef) (side side' : Side) (id k : ChannelId) :
    (r.left s side id).channelAt? s' side' k =
      if s' = s ∧ side' = side ∧ k = id then none else r.channelAt? s' side' k := by
  rw [channelAt?, channels_left]
  by_cases hplace : s' = s ∧ side' = side
  · rw [if_pos hplace, Registry.get?_erase]
    exact if_congr (by simp [hplace]) rfl rfl
  · rw [if_neg hplace, if_neg fun h => hplace ⟨h.1, h.2.1⟩]
    rfl

theorem channelAt?_withEntries {entries : Registry ChannelId ChannelRef}
    (hs : s < r.sessions.length)
    (hinsert : ((r.session s).channels side).insert? k c = some entries) (s' : SessionRef)
    (side' : Side) (k' : ChannelId) :
    (r.withEntries s side entries).channelAt? s' side' k' =
      if s' = s ∧ side' = side ∧ k' = k then some c else r.channelAt? s' side' k' := by
  rw [channelAt?, channels_withEntries hs]
  by_cases hplace : s' = s ∧ side' = side
  · rw [if_pos hplace, Registry.get?_of_insert? hinsert, channelAt?, hplace.1, hplace.2]
    exact if_congr (by simp) rfl rfl
  · rw [if_neg hplace, if_neg fun h => hplace ⟨h.1, h.2.1⟩]
    rfl

/-- A session lets go of whatever it has under an id. If that is where the source session of a
channel has it, the id is to be taken off the list. -/
theorem moves_left (h : Tidy notes r)
    (hknown : ∀ e ∈ g'.todo, e ∈ g.todo ∨ e.Known (r.left s side k))
    (hcovers : ∀ k c, g.Covers k c → g'.Covers k c)
    (hunlist : side = .src → ∀ c, r.channelAt? s .src k = some c → g'.Covers k c)
    (hcloses : ∀ c side', g.Closes c side' → g'.Closes c side' ∨
      side' = side ∧ (r.channel c).terms.session side = s ∧ (r.channel c).id = k)
    (hhalted : ∀ c ∈ g.halted, c ∈ g'.halted) : Moves g g' r (r.left s side k) := by
  have hentry (s' : SessionRef) (side' : Side) (k' : ChannelId) (c : ChannelRef)
      (hc : (r.left s side k).channelAt? s' side' k' = some c) :
      r.channelAt? s' side' k' = some c ∧ ¬ (s' = s ∧ side' = side ∧ k' = k) := by
    rw [channelAt?_left] at hc
    split at hc
    · cases hc
    · exact ⟨hc, ‹_›⟩
  constructor
  case steady => exact steady_of_channels (List.length_modify ..) rfl
  case known => exact hknown
  case placed =>
    intro s' side' k' c hc
    exact .inl (hentry s' side' k' c hc).1
  case numbered =>
    intro k' c hc
    exact .inl hc
  case listed =>
    intro k' c hc hold
    rcases hold hc with hin | hsees
    · by_cases hplace : (r.channel c).terms.session .src = s ∧ Side.src = side ∧
          (r.channel c).id = k
      · -- The channel has lost the entry that kept it on the list.
        obtain ⟨hs, hside, hid⟩ := hplace
        have hk : k' = k := (h.numbered k' c hc).2.symm.trans hid
        rw [hk]
        rw [Entered, hs, hid] at hin
        exact .inr (hunlist hside.symm c hin)
      · refine .inl ?_
        rw [Entered, channelAt?_left]
        exact (if_neg hplace).trans hin
    · exact .inr (hcovers k' c hsees)
  case stopped =>
    intro c side' hc hin hold
    obtain ⟨hin, hplace⟩ := hentry _ _ _ _ hin
    refine (hcloses c side' (hold hc hin)).resolve_right ?_
    rintro ⟨rfl, hs, hid⟩
    exact hplace ⟨hs, rfl, hid⟩
  case halted =>
    intro c hlt hc hold
    exact hhalted c (hold hlt hc)

/-- A channel is entered with the session at one of its ends. -/
theorem moves_entered {entries : Registry ChannelId ChannelRef} (hlt : s < r.sessions.length)
    (hinsert : ((r.session s).channels side).insert? k c = some entries) (hc : KnownAs c t r)
    (hk : t.id = k) (hs : t.session side = s)
    (hknown : ∀ e ∈ g'.todo, e ∈ g.todo ∨ e.Known (r.withEntries s side entries))
    (hcovers : ∀ k d, g.Covers k d → g'.Covers k d ∨ d = c ∧ side = .src)
    (hlate : (r.channel c).stopped = true → c ∈ g'.late)
    (hcloses : ∀ c side, g.Closes c side → g'.Closes c side)
    (hhalted : ∀ c ∈ g.halted, c ∈ g'.halted) : Moves g g' r (r.withEntries s side entries) := by
  obtain ⟨hclt, hterms⟩ := hc
  have hid : (r.channel c).id = k := (congrArg Channel.Terms.id hterms).trans hk
  have hsite : (r.channel c).terms.session side = s := (congrArg (·.session side) hterms).trans hs
  have hentry := channelAt?_withEntries hlt hinsert
  have hfree : r.channelAt? s side k = none := by
    refine Registry.get?_eq_none_iff.mpr fun hmem => ?_
    rw [Registry.insert?_eq_none_iff.mpr hmem] at hinsert
    cases hinsert
  have hstill (d : ChannelRef) (side' : Side) (hin : r.Entered d side') :
      (r.withEntries s side entries).Entered d side' := by
    rw [Entered, hentry]
    split
    · rename_i hplace
      rw [Entered] at hin
      obtain ⟨hs', rfl, hk'⟩ := hplace
      have hnone :
          r.channelAt? ((r.channel d).terms.session side') side' (r.channel d).id = none := by
        rw [show (r.channel d).terms.session side' = s from hs',
          show (r.channel d).id = k from hk', hfree]
      rw [hnone] at hin
      cases hin
    · exact hin
  constructor
  case steady => exact steady_of_channels (List.length_modify ..) rfl
  case known => exact hknown
  case placed =>
    intro s' side' k' d hd
    rw [hentry] at hd
    split at hd
    · rename_i hplace
      obtain ⟨rfl, rfl, rfl⟩ := hplace
      cases hd
      exact .inr ⟨hclt, hid, hsite⟩
    · exact .inl hd
  case numbered =>
    intro k' d hd
    exact .inl hd
  case listed =>
    intro k' d hd hold
    rcases hold hd with hin | hsees
    · exact .inl (hstill d .src hin)
    · rcases hcovers k' d hsees with hsees | ⟨rfl, rfl⟩
      · exact .inr hsees
      · refine .inl ?_
        rw [Entered, hentry]
        exact if_pos ⟨hsite, rfl, hid⟩
  case stopped =>
    intro d side' hd hin hold
    rw [Entered, hentry] at hin
    split at hin
    · -- It is the new entry, of a channel that was over already.
      cases hin
      exact .inl (hlate hd)
    · exact hcloses d side' (hold hd hin)
  case halted =>
    intro d hlt hd hold
    exact hhalted d (hold hlt hd)

/-- A channel is listed under its id; it is to be entered with its source session. -/
theorem moves_listed {listed : Registry ChannelId ChannelRef}
    (hinsert : r.listed.insert? k c = some listed) (hc : KnownAs c t r) (hk : t.id = k)
    (hknown : ∀ e ∈ g'.todo, e ∈ g.todo ∨ e.Known { r with listed })
    (hcovers : ∀ k d, g.Covers k d → g'.Covers k d) (hself : g'.Covers k c)
    (hcloses : ∀ c side, g.Closes c side → g'.Closes c side)
    (hhalted : ∀ c ∈ g.halted, c ∈ g'.halted) : Moves g g' r { r with listed } := by
  have hid : (r.channel c).id = k := (congrArg Channel.Terms.id hc.2).trans hk
  constructor
  case steady => exact steady_of_channels rfl rfl
  case known => exact hknown
  case placed =>
    intro s' side' k' d hd
    exact .inl hd
  case numbered =>
    intro k' d hd
    rw [Registry.get?_of_insert? hinsert] at hd
    split at hd
    · cases hd
      exact .inr ⟨hc.1, hid.trans ‹k' = k›.symm⟩
    · exact .inl hd
  case listed =>
    intro k' d hd hold
    rw [Registry.get?_of_insert? hinsert] at hd
    split at hd
    · cases hd
      exact .inr (‹k' = k› ▸ hself)
    · exact (hold hd).imp_right (hcovers k' d)
  case stopped =>
    intro d side' hd hin hold
    exact hcloses d side' (hold hd hin)
  case halted =>
    intro d hlt hd hold
    exact hhalted d (hold hlt hd)

/-- An id is taken off the list. -/
theorem moves_unlisted (hknown : ∀ e ∈ g'.todo, e ∈ g.todo)
    (hcovers : ∀ k' c, k' ≠ k → g.Covers k' c → g'.Covers k' c)
    (hcloses : ∀ c side, g.Closes c side → g'.Closes c side)
    (hhalted : ∀ c ∈ g.halted, c ∈ g'.halted) :
    Moves g g' r { r with listed := r.listed.erase k } := by
  have hget (k' : ChannelId) (c : ChannelRef) (hc : (r.listed.erase k).get? k' = some c) :
      r.listed.get? k' = some c ∧ k' ≠ k := by
    rw [Registry.get?_erase] at hc
    split at hc
    · cases hc
    · exact ⟨hc, ‹_›⟩
  constructor
  case steady => exact steady_of_channels rfl rfl
  case known =>
    intro e he
    exact .inl (hknown e he)
  case placed =>
    intro s' side' k' d hd
    exact .inl hd
  case numbered =>
    intro k' d hd
    exact .inl (hget k' d hd).1
  case listed =>
    intro k' d hd hold
    obtain ⟨hd, hne⟩ := hget k' d hd
    exact (hold hd).imp_right (hcovers k' d hne)
  case stopped =>
    intro d side' hd hin hold
    exact hcloses d side' (hold hd hin)
  case halted =>
    intro d hlt hd hold
    exact hhalted d (hold hlt hd)

/-- A channel is marked as over; both of its ends are to be closed. -/
theorem moves_halted (hc : c < r.channels.length)
    (hknown : ∀ e ∈ g'.todo, e ∈ g.todo ∨ e.Known (r.halted c))
    (hcovers : ∀ k d, g.Covers k d → g'.Covers k d)
    (hcloses : ∀ d side, g.Closes d side → g'.Closes d side) (hself : ∀ side, g'.Closes c side)
    (hhalted : ∀ d ∈ g.halted, d ∈ g'.halted) (hcount : c ∈ g'.halted) :
    Moves g g' r (r.halted c) := by
  have hterms := terms_halted r c
  have hentered (d : ChannelRef) (side : Side) : (r.halted c).Entered d side ↔ r.Entered d side :=
    entered_iff_of_terms (hterms d) side
  constructor
  case steady =>
    exact ⟨Nat.le_of_eq (length_halted r c).symm, fun d _ => hterms d, Nat.le_refl _⟩
  case known => exact hknown
  case placed =>
    intro s' side' k' d hd
    exact .inl hd
  case numbered =>
    intro k' d hd
    exact .inl hd
  case listed =>
    intro k' d hd hold
    exact (hold hd).imp (hentered d .src).mpr (hcovers k' d)
  case stopped =>
    intro d side' hd hin hold
    rcases (stopped_halted hc d).mp hd with rfl | hd
    · exact hself side'
    · exact hcloses d side' (hold hd ((hentered d side').mp hin))
  case halted =>
    intro d hlt hd hold
    rcases (stopped_halted hc d).mp hd with rfl | hd
    · exact hcount
    · exact hhalted d (hold (length_halted r c ▸ hlt) hd)

/-- A channel is made. Nobody has entered it yet. -/
theorem moves_opened (h : Tidy notes r) {src dst : SessionRef} {next : ChannelId}
    (hknown : ∀ e ∈ g'.todo, e ∈ g.todo ∨
      e.Known { addChannel r.nextChannelId src dst r with nextChannelId := next })
    (hcovers : ∀ k d, g.Covers k d → g'.Covers k d)
    (hcloses : ∀ d side, g.Closes d side → g'.Closes d side)
    (hhalted : ∀ d ∈ g.halted, d ∈ g'.halted) :
    Moves g g' r { addChannel r.nextChannelId src dst r with nextChannelId := next } := by
  have hchannel (d : ChannelRef) :
      ({ addChannel r.nextChannelId src dst r with nextChannelId := next } : Relay).channel d =
        if d = r.channels.length then r.newChannel src dst else r.channel d :=
    channel_append r (r.newChannel src dst) d
  have hold (d : ChannelRef) (hd : d < r.channels.length) :
      ({ addChannel r.nextChannelId src dst r with nextChannelId := next } : Relay).channel d =
        r.channel d := (hchannel d).trans (if_neg (Nat.ne_of_lt hd))
  have hlength : ({ addChannel r.nextChannelId src dst r with nextChannelId := next } :
      Relay).channels.length = r.channels.length + 1 := by simp [addChannel]
  constructor
  case steady => exact ⟨by omega, fun d hd => by rw [hold d hd], Nat.le_refl _⟩
  case known => exact hknown
  case placed =>
    intro s' side' k' d hd
    exact .inl hd
  case numbered =>
    intro k' d hd
    exact .inl hd
  case listed =>
    intro k' d hd hsees
    have hlt := (h.numbered k' d hd).1
    refine (hsees hd).imp (fun hin => ?_) (hcovers k' d)
    rwa [Entered, hold d hlt]
  case stopped =>
    intro d side' hd hin hsees
    have hlt := (h.placed _ side' _ d hin).1
    rw [Entered, hold d hlt] at hin
    rw [hold d hlt] at hd
    exact hcloses d side' (hsees hd hin)
  case halted =>
    intro d hlt hd hsees
    by_cases hnew : d = r.channels.length
    · rw [hchannel, if_pos hnew] at hd
      cases hd
    · have hlt' : d < r.channels.length := by omega
      rw [hold d hlt'] at hd
      exact hhalted d (hsees hlt' hd)

end

end PeerRelay.Relay
