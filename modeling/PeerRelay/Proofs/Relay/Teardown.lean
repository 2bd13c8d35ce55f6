import PeerRelay.Proofs.Channel.Stages
import PeerRelay.Proofs.Pool
import PeerRelay.Proofs.Relay.ChannelCounts
import PeerRelay.Proofs.Relay.Parting

/-!
# A channel is torn down once

A channel may be started and stopped from several sides, as often as anybody likes, while
datagrams arrive at its ends, the watchdog checks them and the traffic is reported. Of all the
attempts to stop it the first claims it, and that one alone lets the sessions go, takes the
channel off the list and counts its lifetime. What it does of that goes by what is around the
channel, which nothing else that is done with the channel changes. So it comes out as if nobody
had been in between.
-/

namespace PeerRelay.Relay

open Steps

variable {c : ChannelRef} {r r' r'' : Relay}

/-! ## What is done with a channel -/

/-- What may be done with a channel. -/
inductive ChannelCall where
  | start
  | stop
  /-- A datagram arrives at an end. -/
  | datagram (side : Side) (sender : SocketAddr) (data : Bytes)
  /-- What has waited at an end since before the start is read. -/
  | takeWaiting (side : Side)
  /-- The watchdog looks for silent peers. -/
  | poll
  /-- The traffic is reported. -/
  | report
  /-- Time goes by. -/
  | pass (nanoseconds : Nat)
  deriving DecidableEq

def ChannelCall.op (c : ChannelRef) : ChannelCall → Op Unit
  | start => startChannel c
  | stop => stopChannel c
  | datagram side sender data => Relay.datagram c side sender data
  | takeWaiting side => Relay.takeWaiting c side
  | poll => Relay.poll c
  | report => Relay.report c
  | pass nanoseconds => (Event.pass nanoseconds).op

/-- One thing is done after another. -/
def treat (c : ChannelRef) (calls : List ChannelCall) : Op Unit := calls.forM (·.op c)

/-- Several of them side by side, as far as they have come. -/
def treated (c : ChannelRef) (r : Relay) (tasks : List (List ChannelCall)) (turns : List Nat) :
    Pool Relay Unit :=
  (Pool.start r (tasks.map (treat c))).play turns

/-! ## Around a channel -/

/-- All that the end of a channel concerns, apart from the channel itself. -/
structure Surroundings where
  terms : Channel.Terms
  sessions : List Session
  listed : Registry ChannelId ChannelRef
  slots : Nat
  /-- How many lifetimes were observed. -/
  lifetimes : Nat
  activeChannels : Int

def surroundings (c : ChannelRef) (r : Relay) : Surroundings where
  terms := (r.channel c).terms
  sessions := r.sessions
  listed := r.listed
  slots := r.slots
  lifetimes := r.metrics.lifetimes.total
  activeChannels := r.metrics.activeChannels

/-- No session changes, and no channel is counted as over. -/
structure Outside (r r' : Relay) : Prop where
  sessions : r'.sessions = r.sessions
  lifetimes : r'.metrics.lifetimes = r.metrics.lifetimes
  activeChannels : r'.metrics.activeChannels = r.metrics.activeChannels

/-- The channel goes on, if it goes on at all, by itself: it is no more over than it was, and
nothing around it changes. -/
structure Inward (c : ChannelRef) (r r' : Relay) : Prop where
  lasting : Lasting r r'
  stopped : (r'.channel c).stopped = (r.channel c).stopped
  surroundings : r'.surroundings c = r.surroundings c

theorem Inward.of_same (h : SameChannels r r') (h' : Outside r r') : Inward c r r' where
  lasting := h.lasting
  stopped := h.stopped c
  surroundings := by
    simp only [Relay.surroundings, h.terms, h.listed, h.slots, h'.sessions, h'.lifetimes,
      h'.activeChannels]

theorem inward_of_each {α : Type} {p : Op α} (h : p.Each SameChannels) (h' : p.Each Outside) :
    p.Each (Inward c) :=
  (h.and h').mono fun _ _ hboth => .of_same hboth.1 hboth.2

instance : Std.Refl Outside := ⟨fun _ => ⟨rfl, rfl, rfl⟩⟩

theorem outside_armEvery (period : Option Nat) (duty : Duty) (h : Outside r r') :
    Outside r (r'.armEvery period duty) := by
  unfold armEvery
  split
  · exact h
  · exact h
  · exact ⟨h.sessions, h.lifetimes, h.activeChannels⟩

theorem startChannel_outside (c : ChannelRef) : (startChannel c).Each Outside := by
  refine each_modify fun r => ?_
  dsimp only
  split
  · exact Std.Refl.refl r
  · exact outside_armEvery _ _ (outside_armEvery _ _ ⟨rfl, rfl, rfl⟩)

theorem datagram_outside (c : ChannelRef) (side : Side) (sender : SocketAddr) (data : Bytes) :
    (datagram c side sender data).Each Outside := by
  have hcount (outcome : Channel.Outcome) (m : Metrics) :
      (countOutcome side outcome m).lifetimes = m.lifetimes ∧
        (countOutcome side outcome m).activeChannels = m.activeChannels := by
    cases outcome <;> cases side <;> exact ⟨rfl, rfl⟩
  exact each_modify fun r => ⟨rfl, (hcount ..).1, (hcount ..).2⟩

theorem datagram_inward (c : ChannelRef) (side : Side) (sender : SocketAddr) (data : Bytes) :
    (datagram c side sender data).Each (Inward c) :=
  inward_of_each (datagram_sameChannels ..) (datagram_outside ..)

theorem takeWaiting_inward (c : ChannelRef) (side : Side) :
    (takeWaiting c side).Each (Inward c) := by
  unfold takeWaiting
  refine each_bind (each_atomic fun r => ?_) fun waiting => each_forM (fun d => ?_) waiting
  · have hsame : SameChannels r (r.modifyChannel c fun _ => ((r.channel c).takeWaiting side).2) :=
      .modifyChannel r c (.step _ (.takeWaiting side)) (Channel.stopped_modify ..)
    exact .of_same hsame ⟨rfl, rfl, rfl⟩
  · exact datagram_inward c side d.1 d.2

theorem report_outside (c : ChannelRef) : (report c).Each Outside := by
  refine each_modify fun r => ?_
  dsimp only
  split <;> exact ⟨rfl, rfl, rfl⟩

theorem report_inward (c : ChannelRef) : (report c).Each (Inward c) :=
  inward_of_each (report_sameChannels c) (report_outside c)

theorem startChannel_inward (c : ChannelRef) : (startChannel c).Each (Inward c) :=
  inward_of_each (startChannel_sameChannels c) (startChannel_outside c)

theorem pass_inward (c : ChannelRef) (nanoseconds : Nat) :
    (Event.pass nanoseconds).op.Each (Inward c) :=
  each_modify fun _ => .of_same (.of_eq rfl) ⟨rfl, rfl, rfl⟩

theorem retireChannel_inward (c : ChannelRef) : (retireChannel c).Each (Inward c) :=
  inward_of_each (retireChannel_sameChannels c) (each_modify fun _ => ⟨rfl, rfl, rfl⟩)

instance : Std.Refl (Inward c) := ⟨fun r => .of_same (.refl r) (Std.Refl.refl r)⟩

instance : Trans (Inward c) (Inward c) (Inward c) :=
  ⟨fun h h' => ⟨h.lasting.trans h'.lasting, h'.stopped.trans h.stopped,
    h'.surroundings.trans h.surroundings⟩⟩

/-- A stop that comes too late changes nothing that matters. -/
theorem inward_halted (h : (r.channel c).stopped = true) : Inward c r (r.halted c) :=
  .of_same (.modifyChannel r c (.step _ .stop) h.symm) ⟨rfl, rfl, rfl⟩

/-! ## The end of a channel goes by what is around it -/

theorem surroundings_modifySession (h : r.surroundings c = r'.surroundings c) (s : SessionRef)
    (f : Session → Session) :
    (r.modifySession s f).surroundings c = (r'.modifySession s f).surroundings c :=
  congrArg (fun a : Surroundings => { a with sessions := a.sessions.modify s f }) h

theorem leave_sees (s : SessionRef) (side : Side) (id : ChannelId) :
    (leave s side id).Sees (surroundings c) := by
  refine sees_atomic fun x y h => ?_
  have hsession : x.session s = y.session s :=
    congrArg (fun a : Surroundings => a.sessions.getD s .vacant) h
  dsimp only
  rw [hsession]
  exact ⟨rfl, surroundings_modifySession h s _⟩

theorem notifyStop_sees (s : SessionRef) (id : ChannelId) (relay : SocketAddr) :
    (notifyStop s id relay).Sees (surroundings c) := by
  refine sees_bind (sees_atomic fun x y h => ⟨?_, h⟩) fun running => ?_
  · exact congrArg (fun a : Surroundings => (a.sessions.getD s .vacant).running) h
  · split
    · exact sees_modify fun x y h => surroundings_modifySession h s _
    · exact sees_pure ()

theorem forgetChannel_sees (id : ChannelId) : (forgetChannel id).Sees (surroundings c) := by
  refine sees_bind (sees_atomic fun x y h => ⟨?_, ?_⟩) fun listed => ?_
  · exact congrArg (fun a : Surroundings => a.listed.contains id) h
  · exact congrArg (fun a : Surroundings => { a with listed := a.listed.erase id }) h
  · split
    · exact sees_modify fun x y h =>
        congrArg (fun a : Surroundings => { a with slots := a.slots - 1 }) h
    · exact sees_pure ()

theorem closeEnd_sees (id : ChannelId) (side : Side) (e : Channel.Endpoint) :
    (closeEnd id side e).Sees (surroundings c) := by
  refine sees_bind (leave_sees ..) fun left => ?_
  split
  · dsimp only
    split
    · exact sees_bind (forgetChannel_sees id) fun _ => notifyStop_sees ..
    · exact notifyStop_sees ..
  · exact sees_pure ()

/-- Of an end only its session and its socket's address matter then. -/
theorem closeEnd_congr {e e' : Channel.Endpoint} (hsession : e.session = e'.session)
    (hrelay : e.relay = e'.relay) (id : ChannelId) (side : Side) :
    closeEnd id side e = closeEnd id side e' := by
  simp only [closeEnd, hsession, hrelay]

theorem surroundings_retireChannel (r : Relay) (c : ChannelRef) :
    ((retireChannel c).exec r).surroundings c = r.surroundings c :=
  (rel_exec_of_each (retireChannel_inward c) r).surroundings

theorem surroundings_countClosed (r : Relay) (c : ChannelRef) :
    ((countClosed c).exec r).surroundings c =
      { r.surroundings c with
        lifetimes := (r.surroundings c).lifetimes + 1
        activeChannels := (r.surroundings c).activeChannels - 1 } :=
  congrArg (fun n => { r.surroundings c with
    lifetimes := n
    activeChannels := (r.surroundings c).activeChannels - 1 }) (Histogram.total_observe ..)

theorem tearDown_sees (c : ChannelRef) : (tearDown c).Sees (surroundings c) := by
  refine sees_read (fun x y h => ?_) fun x => ?_
  · have hterms : (x.channel c).terms = (y.channel c).terms := congrArg Surroundings.terms h
    have hid : (x.channel c).id = (y.channel c).id := congrArg Channel.Terms.id hterms
    have hend (side : Side) : ((x.channel c).endpoint side).session =
        ((y.channel c).endpoint side).session ∧ ((x.channel c).endpoint side).relay =
          ((y.channel c).endpoint side).relay :=
      ⟨congrFun (congrArg Channel.Terms.session hterms) side,
        congrFun (congrArg Channel.Terms.relay hterms) side⟩
    have hsrc : closeEnd (x.channel c).id .src (x.channel c).src =
        closeEnd (x.channel c).id .src (y.channel c).src :=
      closeEnd_congr (hend .src).1 (hend .src).2 _ _
    have hdst : closeEnd (x.channel c).id .dst (x.channel c).dst =
        closeEnd (x.channel c).id .dst (y.channel c).dst :=
      closeEnd_congr (hend .dst).1 (hend .dst).2 _ _
    rw [hsrc, hdst, hid]
  · refine sees_bind (closeEnd_sees ..) fun _ => sees_bind (closeEnd_sees ..) fun _ =>
      sees_bind (sees_modify fun x y h => ?_) fun _ => sees_modify fun x y h => ?_
    · exact (surroundings_retireChannel x c).trans (h.trans (surroundings_retireChannel y c).symm)
    · refine (surroundings_countClosed x c).trans (Eq.trans ?_ (surroundings_countClosed y c).symm)
      rw [h]

/-! ## What the end of a channel does -/

/-- A channel that was open is over, and all that goes with that was done once. -/
structure TornDown (c : ChannelRef) (r r' : Relay) : Prop where
  shut : (r'.channel c).Shut
  /-- The sessions at its ends have let go of it once, and no other session has changed. -/
  session : ∀ t, r'.session t = parted t (r.session t) (r.channel c)
  /-- The entry of its source session has taken the listing with it, -/
  listed : r'.listed =
    if (r.channel c).id ∈ ((r.session (r.channel c).src.session).channels .src).keys then
      r.listed.erase (r.channel c).id
    else r.listed
  /-- and the listing its slot. -/
  slots : r'.slots =
    if (r.channel c).id ∈ ((r.session (r.channel c).src.session).channels .src).keys ∧
        (r.channel c).id ∈ r.listed.keys then r.slots - 1
    else r.slots
  /-- One more lifetime was observed, and one channel less is counted as open. -/
  lifetimes : r'.metrics.lifetimes.total = r.metrics.lifetimes.total + 1
  activeChannels : r'.metrics.activeChannels = r.metrics.activeChannels - 1

theorem TornDown.of_surroundings (h : TornDown c r r') (hshut : (r''.channel c).Shut)
    (hsame : r''.surroundings c = r'.surroundings c) : TornDown c r r'' where
  shut := hshut
  session t :=
    (congrArg (fun a : Surroundings => a.sessions.getD t .vacant) hsame).trans (h.session t)
  listed := (congrArg Surroundings.listed hsame).trans h.listed
  slots := (congrArg Surroundings.slots hsame).trans h.slots
  lifetimes := (congrArg Surroundings.lifetimes hsame).trans h.lifetimes
  activeChannels := (congrArg Surroundings.activeChannels hsame).trans h.activeChannels

/-- A stop that nobody gets in between of does this. -/
theorem tornDown_stopChannel (h : (r.channel c).stopped = false) :
    TornDown c r ((stopChannel c).exec r) := by
  have hsession := session_stopChannel r c
  have hshut : (((stopChannel c).exec r).channel c).Shut := by
    rw [channel_stopChannel, if_pos rfl, stoppedChannel, if_neg (Bool.eq_false_iff.mp h)]
    intro side
    cases side <;> rfl
  have hsrc := closeEnd_src (r.halted c) (r.channel c).id (r.channel c).halt.src
  have hcounted : Uncounted (r.halted c)
      ((closeEnd (r.channel c).id .dst (r.channel c).halt.dst).exec
        ((closeEnd (r.channel c).id .src (r.channel c).halt.src).exec (r.halted c))) :=
    (rel_exec_of_each (closeEnd_uncounted ..) _).trans (rel_exec_of_each (closeEnd_uncounted ..) _)
  have hmetrics := hcounted.metrics
  rw [exec_stopChannel h] at hsession hshut ⊢
  generalize (closeEnd (r.channel c).id .src (r.channel c).halt.src).exec (r.halted c) = r₁ at *
  have hdst := closeEnd_dst r₁ (r.channel c).id (r.channel c).halt.dst
  generalize (closeEnd (r.channel c).id .dst (r.channel c).halt.dst).exec r₁ = r₂ at *
  have hlast := (surroundings_countClosed ((retireChannel c).exec r₂) c).trans
    (congrArg (fun a : Surroundings => { a with
      lifetimes := a.lifetimes + 1
      activeChannels := a.activeChannels - 1 }) (surroundings_retireChannel r₂ c))
  refine ⟨hshut, hsession, ?listed, ?slots, ?lifetimes, ?activeChannels⟩
  case listed =>
    refine (hdst.listed.trans hsrc.listed).trans ?_
    exact apply_ite Relay.listed _ _ _
  case slots =>
    refine (hdst.slots.trans hsrc.slots).trans ?_
    refine (apply_ite Relay.slots _ _ _).trans ?_
    rw [ite_and]
    rfl
  case lifetimes =>
    refine (congrArg Surroundings.lifetimes hlast).trans ?_
    exact congrArg (fun m : Metrics => m.lifetimes.total + 1) hmetrics
  case activeChannels =>
    refine (congrArg Surroundings.activeChannels hlast).trans ?_
    exact congrArg (fun m : Metrics => m.activeChannels - 1) hmetrics

end PeerRelay.Relay
