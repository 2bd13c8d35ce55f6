import PeerRelay.Proofs.Relay.Teardown

/-!
# Stops that race

Whoever treats a channel in whichever order, the one that has claimed its stop has the rest of
it on its hands, and nobody else has. Whatever the others do in between, that rest still leads to
where a stop all by itself leads. So it is done once, and from the claim on nothing passes through
the channel.
-/

namespace PeerRelay.Relay

open Steps
open Channel (Launches)

variable {c : ChannelRef} {r m m' : Relay}

/-! ## One of them is at it -/

/-- What someone who treats a channel has on their hands. -/
structure Hold where
  /-- What is left of the stop that they have claimed. -/
  rest : Option (Op Unit) := none
  /-- Whether they have called for a stop. -/
  called : Bool := false

/-- Nothing is left to be done. -/
def Hold.Free (g : Hold) : Prop := g.rest = none ∨ g.rest = some (pure ())

/-- How far the stop of a channel has come. -/
inductive Progress (c : ChannelRef) (r : Relay) (rests : Nat → Option (Op Unit)) (m : Relay) :
    Prop where
  /-- Nobody has claimed it, and around the channel everything is as it was. -/
  | untouched (hopen : (m.channel c).stopped = false) (hnone : ∀ i, rests i = none)
      (hsame : m.surroundings c = r.surroundings c)
  /-- One is at it, and will get to where a stop all by itself gets. -/
  | claimed (hover : (m.channel c).stopped = true) {i : Nat} {p : Op Unit}
      (hrest : rests i = some p) (hothers : ∀ j, j ≠ i → rests j = none)
      (hsees : p.Sees (surroundings c)) (hlasting : p.Each Lasting)
      (hend : (p.exec m).surroundings c = ((stopChannel c).exec r).surroundings c)

/-- What all who treat a channel agree on. -/
structure Agreed (c : ChannelRef) (r : Relay) (notes : Nat → Hold) (m : Relay) : Prop where
  lasting : Lasting r m
  called : ∀ i, (notes i).called = true → (m.channel c).stopped = true
  progress : Progress c r (fun i => (notes i).rest) m

def racing (c : ChannelRef) (r : Relay) : Protocol Relay Hold where
  Inv := Agreed c r
  Notes _ _ _ := True

variable {notes : Nat → Hold} {i : Nat} {g : Hold}

/-- What concerns the channel alone does not get in the way of its stop. -/
theorem Agreed.inward (h : Agreed c r notes m) (hin : Inward c m m') : Agreed c r notes m' where
  lasting := h.lasting.trans hin.lasting
  called i hi := hin.stopped.trans (h.called i hi)
  progress := by
    cases h.progress with
    | untouched hopen hnone hsame =>
        exact .untouched (hin.stopped.trans hopen) hnone (hin.surroundings.trans hsame)
    | claimed hover hrest hothers hsees hlasting hend =>
        exact .claimed (hin.stopped.trans hover) hrest hothers hsees hlasting
          ((hsees.exec hin.surroundings).trans hend)

theorem follows_inward {α : Type} {p : Op α} (h : p.Each (Inward c)) :
    (racing c r).Follows i (fun _ g' => g' = g) p g :=
  Protocol.follows_of_each h fun _ s _ _ hs hact => ⟨trivial, hs.inward (hact s)⟩

/-- Whoever is at it takes another step. -/
theorem Agreed.goesOn {act : Relay → Relay} {rest : Relay → Op Unit} (h : Agreed c r notes m)
    (hc : c < r.channels.length) (hnote : notes i = ⟨some (.step act rest), true⟩) :
    Agreed c r (Function.update notes i ⟨some (rest m), true⟩) (act m) := by
  have hmine : (notes i).rest = some (.step act rest) := by rw [hnote]
  cases h.progress with
  | untouched _ hnone _ => cases (hnone i).symm.trans hmine
  | @claimed hover j p hrest hothers hsees hlasting hend =>
      have hij : j = i := by
        by_contra hne
        cases (hothers i (Ne.symm hne)).symm.trans hmine
      subst hij
      obtain rfl := Option.some.inj (hrest.symm.trans hmine)
      cases hsees with
      | step _ _ hsees =>
          cases hlasting with
          | step hact hlasting =>
              have hover' : ((act m).channel c).stopped = true :=
                (hact m).stopped c (Nat.lt_of_lt_of_le hc h.lasting.length) hover
              refine ⟨h.lasting.trans (hact m), fun _ _ => hover', ?_⟩
              refine .claimed (i := j) hover' (by rw [Function.update_self]) (fun k hk => ?_)
                (hsees m) (hlasting m) hend
              rw [Function.update_of_ne hk]
              exact hothers k hk

/-- The one that has claimed the stop does the rest of it. -/
theorem follows_rest (hc : c < r.channels.length) (p : Op Unit) :
    (racing c r).Follows i (fun _ g' => g' = ⟨some (pure ()), true⟩) p ⟨some p, true⟩ := by
  induction p with
  | done a => rfl
  | step act rest ih =>
      intro notes s hnote hs
      exact ⟨_, trivial, hs.goesOn hc hnote, ih s⟩

/-! ## What they do -/

theorem surroundings_halted (r : Relay) (c : ChannelRef) :
    (r.halted c).surroundings c = r.surroundings c :=
  congrArg (fun terms => { r.surroundings c with terms }) (terms_halted r c c)

/-- The first to claim the stop of a channel has all the rest to do, any other nothing. -/
theorem follows_claimStop (hopen : (r.channel c).stopped = false) (hfree : g.Free) :
    (racing c r).Follows i (fun first g' =>
      g'.called = true ∧ if first then g' = ⟨some (tearDown c), true⟩ else g'.Free)
      (claimStop c) g := by
  refine Protocol.follows_atomic fun notes m hnote hs => ?_
  subst hnote
  have hlt : c < m.channels.length :=
    Nat.lt_of_lt_of_le (lt_of_stopped_eq_false hopen) hs.lasting.length
  have hover : ((m.halted c).channel c).stopped = true := (stopped_halted hlt c).mpr (.inl rfl)
  have hlasting : Lasting r (m.halted c) :=
    hs.lasting.trans (.modifyChannel m c fun x => .step x .stop)
  cases hm : (m.channel c).stopped with
  | true =>
      refine ⟨⟨(notes i).rest, true⟩, trivial, ⟨hlasting, fun _ _ => hover, ?_⟩, rfl, hfree⟩
      have hrests : (fun j => (Function.update notes i ⟨(notes i).rest, true⟩ j).rest) =
          fun j => (notes j).rest := by
        funext j
        by_cases hj : j = i
        · subst hj
          rw [Function.update_self]
        · rw [Function.update_of_ne hj]
      rw [hrests]
      exact (hs.inward (inward_halted hm)).progress
  | false =>
      refine ⟨⟨some (tearDown c), true⟩, trivial, ⟨hlasting, fun _ _ => hover, ?_⟩, rfl, rfl⟩
      cases hs.progress with
      | claimed hstopped _ _ _ _ _ => cases hm.symm.trans hstopped
      | untouched _ hnone hsame =>
          refine .claimed (i := i) hover (by rw [Function.update_self]) (fun j hj => ?_)
            (tearDown_sees c) (tearDown_lasting c) ?_
          · rw [Function.update_of_ne hj]
            exact hnone j
          · rw [exec_stopChannel_of_open hopen]
            refine (tearDown_sees c).exec ?_
            exact (surroundings_halted m c).trans (hsame.trans (surroundings_halted r c).symm)

theorem follows_stopChannel (hopen : (r.channel c).stopped = false) (hfree : g.Free) :
    (racing c r).Follows i (fun _ g' => g'.Free ∧ g'.called = true) (stopChannel c) g := by
  refine Protocol.follows_bind (follows_claimStop hopen hfree) fun first g' hclaimed => ?_
  obtain ⟨hcalled, hfirst⟩ := hclaimed
  cases first with
  | true =>
      obtain rfl : g' = ⟨some (tearDown c), true⟩ := hfirst
      refine (follows_rest (lt_of_stopped_eq_false hopen) (tearDown c)).mono fun _ g' hg => ?_
      rw [hg]
      exact ⟨.inr rfl, rfl⟩
  | false => exact Protocol.follows_pure ⟨hfirst, hcalled⟩

/-- Whatever is done with the channel, there is nothing left to do afterwards. -/
theorem follows_call (hopen : (r.channel c).stopped = false) (hfree : g.Free)
    (call : ChannelCall) :
    (racing c r).Follows i (fun _ g' => g'.Free ∧ (g.called = true ∨ call = .stop → g'.called))
      (call.op c) g := by
  have hinward {p : Op Unit} (hp : p.Each (Inward c)) (hne : call ≠ .stop) :
      (racing c r).Follows i
        (fun _ g' => g'.Free ∧ (g.called = true ∨ call = .stop → g'.called)) p g :=
    (follows_inward hp).mono fun _ g' hg => by
      rw [hg]
      exact ⟨hfree, fun h => h.resolve_right hne⟩
  cases call with
  | start => exact hinward (startChannel_inward c) nofun
  | stop =>
      exact (follows_stopChannel hopen hfree).mono fun _ _ hg => ⟨hg.1, fun _ => hg.2⟩
  | datagram side sender data => exact hinward (datagram_inward ..) nofun
  | takeWaiting side => exact hinward (takeWaiting_inward ..) nofun
  | report => exact hinward (report_inward c) nofun
  | pass nanoseconds => exact hinward (pass_inward c nanoseconds) nofun
  | poll =>
      refine Protocol.follows_bind_of_kept (follows_inward (each_read _)) fun expired => ?_
      split
      · exact (follows_stopChannel hopen hfree).mono fun _ _ hg => ⟨hg.1, fun _ => hg.2⟩
      · exact hinward (each_pure ()) nofun

theorem follows_treat (hopen : (r.channel c).stopped = false) (calls : List ChannelCall)
    {g : Hold} (hfree : g.Free) :
    (racing c r).Follows i
      (fun _ g' => g'.Free ∧ (g.called = true ∨ .stop ∈ calls → g'.called)) (treat c calls) g := by
  induction calls generalizing g with
  | nil => exact Protocol.follows_pure ⟨hfree, fun h => h.resolve_right List.not_mem_nil⟩
  | cons call calls ih =>
      refine Protocol.follows_bind (follows_call hopen hfree call) fun _ g' hcall => ?_
      refine (ih hcall.1).mono fun _ g'' hrest => ⟨hrest.1, fun h => ?_⟩
      rcases h with h | h
      · exact hrest.2 (.inl (hcall.2 (.inl h)))
      · rcases List.mem_cons.mp h with rfl | h
        · exact hrest.2 (.inl (hcall.2 (.inr rfl)))
        · exact hrest.2 (.inr h)

/-- All of them together keep to it. -/
theorem keeps_treated (hopen : (r.channel c).stopped = false) (tasks : List (List ChannelCall))
    (turns : List Nat) :
    ∃ notes, Pool.Keeps (racing c r) (fun _ => {}) (fun i _ g => g.Free ∧
      ∀ calls, tasks[i]? = some calls → .stop ∈ calls → g.called = true)
      (treated c r tasks turns) notes := by
  have hagreed : Agreed c r (fun _ => {}) r := ⟨.refl r, nofun, .untouched hopen (fun _ => rfl) rfl⟩
  refine (Pool.keeps_start (P := racing c r) hagreed fun i op hop => ?_).play turns
  obtain ⟨calls, hcalls, rfl⟩ := Option.map_eq_some_iff.mp (List.getElem?_map .. ▸ hop)
  refine (follows_treat hopen calls (.inl rfl)).mono fun _ g hg => ⟨hg.1, fun calls' h hstop => ?_⟩
  obtain rfl := Option.some.inj (hcalls.symm.trans h)
  exact hg.2 (.inr hstop)

/-- Who is done has nothing left of a stop. -/
theorem nothing_left {Q : Nat → Unit → Hold → Prop} {p : Pool Relay Unit}
    (h : Pool.Keeps (racing c r) (fun _ => {}) Q p notes)
    (hfree : ∀ i a g, Q i a g → g.Free) (hidle : p.idle) {rest : Op Unit}
    (hrest : (notes i).rest = some rest) : rest = pure () := by
  rcases Nat.lt_or_ge i p.tasks.length with hi | hi
  · obtain ⟨a, ha⟩ := Option.isSome_iff_exists.mp (hidle _ (List.getElem_mem hi))
    rcases hfree i a _ (h.ended (List.getElem?_eq_getElem hi) ha) with hnone | hdone
    · cases hnone.symm.trans hrest
    · exact (Option.some.inj (hdone.symm.trans hrest)).symm
  · rw [h.others i hi] at hrest
    cases hrest

/-! ## The life of a channel -/

theorem call_lasting (c : ChannelRef) (call : ChannelCall) : (call.op c).Each Lasting := by
  have hinward {p : Op Unit} (hp : p.Each (Inward c)) : p.Each Lasting :=
    hp.mono fun _ _ => Inward.lasting
  cases call with
  | start => exact hinward (startChannel_inward c)
  | stop => exact stopChannel_lasting c
  | datagram side sender data => exact hinward (datagram_inward ..)
  | takeWaiting side => exact hinward (takeWaiting_inward ..)
  | report => exact hinward (report_inward c)
  | pass nanoseconds => exact hinward (pass_inward c nanoseconds)
  | poll =>
      refine each_bind (each_read _) fun expired => ?_
      split
      · exact stopChannel_lasting c
      · exact each_pure ()

theorem treated_append (c : ChannelRef) (r : Relay) (tasks : List (List ChannelCall))
    (turns more : List Nat) :
    treated c r tasks (turns ++ more) = (treated c r tasks turns).play more :=
  Pool.play_append ..

theorem lasting_treated (c : ChannelRef) (r : Relay) (tasks : List (List ChannelCall))
    (turns more : List Nat) :
    Lasting (treated c r tasks turns).state (treated c r tasks (turns ++ more)).state := by
  have hstart : (Pool.start r (tasks.map (treat c))).Each Lasting := by
    refine Pool.each_start fun op hop => ?_
    obtain ⟨calls, -, rfl⟩ := List.mem_map.mp hop
    exact each_forM (call_lasting c) calls
  rw [treated_append]
  exact (hstart.play turns).state_play more

/-- A channel after so many turns. -/
def passage (c : ChannelRef) (r : Relay) (tasks : List (List ChannelCall)) (turns : List Nat) :
    Channel :=
  (treated c r tasks turns).state.channel c

theorem ran_passage (hc : c < r.channels.length) (tasks : List (List ChannelCall))
    (turns more : List Nat) :
    (passage c r tasks turns).Ran (passage c r tasks (turns ++ more)) :=
  (lasting_treated c r tasks turns more).ran c
    (Nat.lt_of_lt_of_le hc (lasting_treated c r tasks [] turns).length)

/-- A channel that was open goes one way, whoever treats it in whichever order. -/
structure GoesOneWay (c : ChannelRef) (r : Relay) (tasks : List (List ChannelCall)) : Prop where
  /-- Its state never goes back. -/
  forward : ∀ turns more,
    (passage c r tasks turns).state ≤ (passage c r tasks (turns ++ more)).state
  /-- The loop of an end is launched before any stop, and then never again. -/
  launched : ∀ turns i side,
    Launches side (passage c r tasks turns) (passage c r tasks (turns ++ [i])) →
      (passage c r tasks turns).stopped = false ∧ ∀ more j,
        ¬ Launches side (passage c r tasks (turns ++ [i] ++ more))
          (passage c r tasks (turns ++ [i] ++ more ++ [j]))
  /-- A start that comes after another, or after a stop, does nothing. -/
  started : ∀ turns,
    (passage c r tasks turns).stopped = true ∨ (passage c r tasks turns).started = true →
      (startChannel c).exec (treated c r tasks turns).state = (treated c r tasks turns).state
  /-- As long as nobody stops it, its sockets and all that is around it are as they were. -/
  untouched : ∀ turns, (passage c r tasks turns).stopped = false →
    (treated c r tasks turns).state.surroundings c = r.surroundings c ∧
      ∀ side, ((passage c r tasks turns).endpoint side).socketHeld =
        ((r.channel c).endpoint side).socketHeld
  /-- When it is over, its sockets are closed. -/
  shut : ∀ turns, (passage c r tasks turns).stopped = true → (passage c r tasks turns).Shut
  /-- Where somebody has called for a stop and is done, it is over. -/
  called : ∀ turns (i : Nat) calls, tasks[i]? = some calls → ChannelCall.stop ∈ calls →
    (treated c r tasks turns).results[i]? = some (some ()) →
      (passage c r tasks turns).stopped = true
  /-- If it is over when all are done, everything that goes with that was done once. -/
  tornDown : ∀ turns, (treated c r tasks turns).idle →
    (passage c r tasks turns).stopped = true → TornDown c r (treated c r tasks turns).state
  /-- Once it is over its counters are final, and no datagram is passed on, even by a loop that
  has not ended. -/
  silent : ∀ turns more, (passage c r tasks turns).stopped = true →
    (passage c r tasks (turns ++ more)).traffic = (passage c r tasks turns).traffic ∧
      ∀ side loop now sender data target sent,
        (((passage c r tasks (turns ++ more)).modify side fun e => { e with loop }).receive side
          now sender data).2 ≠ .forwarded target sent

/-- Whatever is done with an open channel, by however many and in whichever order, it goes one
way. -/
theorem channel_goes_one_way (c : ChannelRef) (r : Relay) (tasks : List (List ChannelCall))
    (hopen : (r.channel c).stopped = false) : GoesOneWay c r tasks := by
  have hran := ran_passage (lt_of_stopped_eq_false hopen) tasks
  have hfirst (turns : List Nat) : (r.channel c).Ran (passage c r tasks turns) := hran [] turns
  have hshut (turns : List Nat) (hover : (passage c r tasks turns).stopped = true) :
      (passage c r tasks turns).Shut :=
    (hfirst turns).isSealed (fun h => by cases hopen.symm.trans h) hover
  refine ⟨fun turns more => (hran turns more).state_le, fun turns i side hlaunches => ?launched,
    fun turns hearly => ?started, fun turns hstill => ⟨?around, fun side => ?sockets⟩, hshut,
    fun turns i calls hcalls hstop hresult => ?called, fun turns hidle hover => ?tornDown,
    fun turns more hover => ?silent⟩
  case launched =>
    obtain ⟨hstill, -, hstarted⟩ := hlaunches.of_ran (hran turns [i])
    refine ⟨hstill, fun more j hagain => ?_⟩
    obtain ⟨-, hnew, -⟩ := hagain.of_ran (hran _ [j])
    cases hnew.symm.trans ((hran (turns ++ [i]) more).started hstarted)
  case started =>
    exact if_pos (Bool.or_eq_true_iff.mpr hearly)
  case around =>
    obtain ⟨notes, hkeeps⟩ := keeps_treated hopen tasks turns
    cases hkeeps.inv.progress with
    | untouched _ _ hsame => exact hsame
    | claimed hover _ _ _ _ _ => cases hstill.symm.trans hover
  case sockets => exact (hfirst turns).socketHeld hstill side
  case called =>
    obtain ⟨notes, hkeeps⟩ := keeps_treated hopen tasks turns
    obtain ⟨t, ht, hdone⟩ := Option.map_eq_some_iff.mp (List.getElem?_map .. ▸ hresult)
    exact hkeeps.inv.called i ((hkeeps.ended ht hdone).2 calls hcalls hstop)
  case tornDown =>
    obtain ⟨notes, hkeeps⟩ := keeps_treated hopen tasks turns
    refine (tornDown_stopChannel hopen).of_surroundings (hshut turns hover) ?_
    cases hkeeps.inv.progress with
    | untouched hstill _ _ => cases hover.symm.trans hstill
    | @claimed _ i p hrest _ _ _ hend =>
        -- The one that has claimed the stop is done like all the others, so nothing is left of it.
        obtain rfl : p = pure () := nothing_left hkeeps (fun _ _ _ hg => hg.1) hidle hrest
        exact hend
  case silent =>
    have hgone := (hran turns more).shut (hshut turns hover)
    refine ⟨(hran turns more).traffic (hshut turns hover), fun side loop now sender data => ?_⟩
    have hlate : ((passage c r tasks (turns ++ more)).modify side
        fun e => { e with loop }).Shut := hgone.modify side fun _ => rfl
    exact (hlate.receive side now sender data).2

/-- A channel that was made and not started yet. -/
def created : Relay := (createChannel 1 1000).exec (Relay.after {} linked.dropLast)

/-- Two who treat it. The first starts it, and both its ends are opened and one passes four bytes
on. Then both stop it, and the second starts it again and another datagram arrives. -/
def contenders : List (List ChannelCall) :=
  let client (port : UInt16) : SocketAddr := ⟨.v4 ⟨192, 0, 2, 1⟩, port, 0⟩
  [[.start, .datagram .dst (client 5000) [1], .datagram .src (client 5001) [1],
      .datagram .src (client 5001) [1, 2, 3, 4], .stop],
    [.stop, .start, .datagram .src (client 5001) [5, 6, 7]]]

/-- The first has its way until it comes to the stop, and from then on they take turns. -/
def contention : List Nat := List.replicate 4 0 ++ (List.range 40).map (· % 2)

theorem channel_goes_one_way_created :
    (created.channel 0).stopped = false ∧ GoesOneWay 0 created contenders ∧
      Launches .src (passage 0 created contenders []) (passage 0 created contenders [0]) ∧
      (passage 0 created contenders contention).traffic = ⟨4, 1, 0, 0⟩ ∧
      (treated 0 created contenders contention).idle ∧
      TornDown 0 created (treated 0 created contenders contention).state := by
  have hopen : (created.channel 0).stopped = false := by decide +kernel
  have honeWay := channel_goes_one_way 0 created contenders hopen
  have hlaunches : Launches .src (passage 0 created contenders [])
      (passage 0 created contenders [0]) :=
    ⟨by decide +kernel, by decide +kernel⟩
  have hidle : (treated 0 created contenders contention).idle := by decide +kernel
  have hover : (passage 0 created contenders contention).stopped = true := by decide +kernel
  exact ⟨hopen, honeWay, hlaunches, by decide +kernel, hidle, honeWay.tornDown _ hidle hover⟩

end PeerRelay.Relay
