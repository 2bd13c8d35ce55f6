import PeerRelay.Proofs.Relay.Ending
import PeerRelay.Proofs.Relay.Outboxes
import PeerRelay.Proofs.Relay.Requests

/-!
# Sessions let go of channels

When a channel is stopped, the sessions at its ends let go of it, and their clients are told. So
what becomes of a session when channels are stopped one after another is told by those that it
has an end of, in their order, and what becomes of a channel by whether it is one of them.
-/

namespace PeerRelay

open Steps

/-! ## A session lets go of channels -/

/-- What a client is told when a channel is over. -/
def Channel.farewell (c : Channel) (side : Side) : Push :=
  Relay.stopPush c.id (c.endpoint side).relay

namespace Session

/-- The session without its entry for a channel. If it had one and runs, its client is told. -/
def letGo (side : Side) (x : Session) (c : Channel) : Session :=
  if c.id ∈ (x.channels side).keys then
    let y := x.withChannels side ((x.channels side).erase c.id)
    if x.running then { y with outbox := y.outbox ++ [c.farewell side] } else y
  else x

@[simp] theorem identity_letGo (side : Side) (x : Session) (c : Channel) :
    (x.letGo side c).identity = x.identity := by
  unfold letGo
  split
  · split <;> exact identity_withChannels ..
  · rfl

@[simp] theorem unread_letGo (side : Side) (x : Session) (c : Channel) :
    (x.letGo side c).unread = x.unread := by
  unfold letGo
  split
  · split <;> cases side <;> rfl
  · rfl

theorem channels_letGo (side other : Side) (x : Session) (c : Channel) :
    (x.letGo side c).channels other =
      if other = side then (x.channels other).erase c.id else x.channels other := by
  unfold letGo
  split
  · have hpush (y : Session) (p : Push) :
        ({ y with outbox := y.outbox ++ [p] } : Session).channels other = y.channels other := by
      cases other <;> rfl
    split
    · rw [hpush, channels_withChannels]
      exact ite_congr rfl (fun h => by rw [h]) fun _ => rfl
    · rw [channels_withChannels]
      exact ite_congr rfl (fun h => by rw [h]) fun _ => rfl
  · rename_i hnot
    split
    · rename_i hside
      rw [hside, Registry.erase_of_not_mem hnot]
    · rfl

theorem running_letGo (side : Side) (x : Session) (c : Channel) :
    (x.letGo side c).running = x.running := by
  show (x.letGo side c).identity.running = x.identity.running
  rw [identity_letGo]

/-- Of what a session that runs is told when it lets go of these channels. -/
def farewells (side : Side) (x : Session) (cs : List Channel) : List Push :=
  if x.running then
    (cs.filter fun c => decide (c.id ∈ (x.channels side).keys)).map (·.farewell side)
  else []

theorem outbox_letGo (side : Side) (x : Session) (c : Channel) :
    (x.letGo side c).outbox = x.outbox ++ x.farewells side [c] := by
  unfold letGo farewells
  by_cases hid : c.id ∈ (x.channels side).keys <;> by_cases hrun : x.running = true <;>
    cases side <;> simp [hid, hrun, withChannels]

/-- A session that lets go of channels one after another has no entry for any of them left. -/
theorem get?_letGoAll (side other : Side) (cs : List Channel) (x : Session) (k : ChannelId) :
    ((cs.foldl (letGo side) x).channels other).get? k =
      if other = side ∧ ∃ c ∈ cs, c.id = k then none else (x.channels other).get? k := by
  induction cs generalizing x with
  | nil => simp
  | cons c cs ih =>
      rw [List.foldl_cons, ih, channels_letGo]
      by_cases hside : other = side
      · subst hside
        by_cases hk : k = c.id
        · subst hk
          simp [Registry.get?_erase]
        · simp [Registry.get?_erase, hk, Ne.symm hk]
      · simp [hside]

theorem identity_letGoAll (side : Side) (cs : List Channel) (x : Session) :
    (cs.foldl (letGo side) x).identity = x.identity := by
  induction cs generalizing x with
  | nil => rfl
  | cons c cs ih => rw [List.foldl_cons, ih, identity_letGo]

theorem unread_letGoAll (side : Side) (cs : List Channel) (x : Session) :
    (cs.foldl (letGo side) x).unread = x.unread := by
  induction cs generalizing x with
  | nil => rfl
  | cons c cs ih => rw [List.foldl_cons, ih, unread_letGo]

/-- It is told about each of them for which it had an entry. -/
theorem outbox_letGoAll (side : Side) {cs : List Channel} (h : (cs.map Channel.id).Nodup)
    (x : Session) :
    (cs.foldl (letGo side) x).outbox = x.outbox ++ x.farewells side cs := by
  induction cs generalizing x with
  | nil => simp [farewells]
  | cons c cs ih =>
      obtain ⟨hnew, hrest⟩ := List.nodup_cons.mp h
      -- The entry that is gone first was not one of the others'.
      have hsame : (x.letGo side c).farewells side cs = x.farewells side cs := by
        unfold farewells
        rw [running_letGo, channels_letGo, if_pos rfl]
        refine ite_congr rfl (fun _ => congrArg _ (List.filter_congr fun d hd => ?_)) fun _ => rfl
        have hne : d.id ≠ c.id := fun heq => hnew (heq ▸ List.mem_map_of_mem hd)
        exact decide_eq_decide.mpr (Registry.mem_keys_erase.trans (and_iff_left hne))
      rw [List.foldl_cons, ih hrest, outbox_letGo, hsame, List.append_assoc]
      congr 1
      unfold farewells
      split
      · by_cases hid : c.id ∈ (x.channels side).keys <;> simp [hid]
      · rfl

/-- If it runs and has an entry for each, it is told about all. -/
theorem farewells_eq_map {side : Side} {x : Session} {cs : List Channel}
    (h : ∀ c ∈ cs, x.running = true ∧ c.id ∈ (x.channels side).keys) :
    x.farewells side cs = cs.map (·.farewell side) := by
  unfold farewells
  cases cs with
  | nil => exact ite_self []
  | cons c cs =>
      rw [if_pos (h c List.mem_cons_self).1, List.filter_eq_self.mpr]
      exact fun d hd => decide_eq_true (h d hd).2

/-- What it has on the other side does not hang on it. -/
theorem farewells_letGoAll {side other : Side} (h : other ≠ side) (cs ds : List Channel)
    (x : Session) : (cs.foldl (letGo side) x).farewells other ds = x.farewells other ds := by
  induction cs generalizing x with
  | nil => rfl
  | cons c cs ih =>
      rw [List.foldl_cons, ih]
      unfold farewells
      rw [running_letGo, channels_letGo, if_neg h]

end Session

namespace Relay

variable {r r' : Relay} {s t : SessionRef} {c : ChannelRef}

/-! ## A channel is stopped -/

/-- What becomes of a session when a channel is stopped: at each end that is there, the session
lets go of the channel. -/
def parted (t : SessionRef) (x : Session) (c : Channel) : Session :=
  if c.stopped then x
  else
    let y := if c.src.session = t then x.letGo .src c else x
    if c.dst.session = t then y.letGo .dst c else y

theorem session_notifyStop (r : Relay) (s t : SessionRef) (id : ChannelId) (relay : SocketAddr) :
    ((notifyStop s id relay).exec r).session t =
      if t = s ∧ (r.session s).running then
        { r.session s with outbox := (r.session s).outbox ++ [stopPush id relay] }
      else r.session t := by
  by_cases hrun : (r.session s).running = true
  · have hexec : (notifyStop s id relay).exec r =
        (push s (.fresh .stopProxy) (stopNotice id relay)).exec r := by
      simp only [notifyStop, exec_bind, isRunning, run_read, hrun, if_true]
      rfl
    rw [hexec, session_push (lt_of_running hrun)]
    exact ite_congr (by simp [hrun]) (fun _ => rfl) fun _ => rfl
  · have hexec : (notifyStop s id relay).exec r = r := by
      simp only [notifyStop, exec_bind, isRunning, run_read, hrun]
      rfl
    rw [hexec, if_neg fun h => hrun h.2]

/-- The session at the end of a channel lets go of it, and no other session does anything. -/
theorem session_closeEnd (r : Relay) (side : Side) (c : Channel) (t : SessionRef) :
    ((closeEnd c.id side (c.endpoint side)).exec r).session t =
      if (c.endpoint side).session = t then (r.session t).letGo side c else r.session t := by
  generalize hs : (c.endpoint side).session = s
  have hleave : (leave s side c.id).exec r = r.left s side c.id := rfl
  by_cases hid : c.id ∈ ((r.session s).channels side).keys
  · have hlt : s < r.sessions.length := by
      refine Nat.lt_of_not_le fun hle => ?_
      rw [session_of_le hle] at hid
      cases side <;> cases hid
    have hleft (u : SessionRef) : (r.left s side c.id).session u =
        if u = s then
          (r.session s).withChannels side (((r.session s).channels side).erase c.id)
        else r.session u := session_withEntries hlt ..
    have hrun (entries : Registry ChannelId ChannelRef) :
        ((r.session s).withChannels side entries).running = (r.session s).running := by
      cases side <;> rfl
    have hclose : ((closeEnd c.id side (c.endpoint side)).exec r).session t =
        ((notifyStop s c.id (c.endpoint side).relay).exec (r.left s side c.id)).session t := by
      simp only [closeEnd, hs, exec_bind, run_leave, hleave, Registry.contains_iff.mpr hid,
        if_true]
      cases side with
      | src =>
          rw [if_pos rfl, exec_bind, exec_forgetChannel, session_notifyStop, session_notifyStop]
          rfl
      | dst => rw [if_neg (by simp)]
    rw [hclose, session_notifyStop, hleft, hleft, if_pos rfl, hrun]
    by_cases hts : t = s
    · subst hts
      rw [if_pos rfl, if_pos rfl, Session.letGo, if_pos hid]
      by_cases hon : (r.session t).running = true
      · simp only [hon, and_self, if_true, hrun]
        rfl
      · rw [if_neg fun h => hon h.2]
        exact (if_neg hon).symm
    · rw [if_neg fun h => hts h.1, if_neg hts, if_neg (Ne.symm hts)]
  · have hclose : (closeEnd c.id side (c.endpoint side)).exec r = r.left s side c.id := by
      simp only [closeEnd, hs, exec_bind, run_leave, hleave,
        Bool.eq_false_iff.mpr (mt Registry.contains_iff.mp hid), Bool.false_eq_true, if_false]
      rfl
    have hsame : r.left s side c.id = r := by
      refine modifySession_of_eq ?_
      show (r.session s).withChannels side (((r.session s).channels side).erase c.id) = _
      rw [Registry.erase_of_not_mem hid, Session.withChannels_channels]
    rw [hclose, hsame]
    split
    · rename_i hst
      rw [Session.letGo, if_neg (hst ▸ hid)]
    · rfl

/-- The sessions at the ends of a channel that is stopped let go of it. -/
theorem session_stopChannel (r : Relay) (c : ChannelRef) (t : SessionRef) :
    ((stopChannel c).exec r).session t = parted t (r.session t) (r.channel c) := by
  unfold parted
  cases hc : (r.channel c).stopped with
  | true =>
      rw [exec_stopChannel_of_stopped hc, if_pos rfl]
      rfl
  | false =>
      have hquiet (q : Relay) :
          ((countClosed c).exec ((retireChannel c).exec q)).session t = q.session t := rfl
      -- An end that was halted is at the session that it was at.
      have hsrc : ((closeEnd (r.channel c).id .src (r.channel c).halt.src).exec
          (r.halted c)).session t =
            if (r.channel c).src.session = t then (r.session t).letGo .src (r.channel c)
            else r.session t :=
        session_closeEnd (r.halted c) .src (r.channel c).halt t
      have hdst (q : Relay) :
          ((closeEnd (r.channel c).id .dst (r.channel c).halt.dst).exec q).session t =
            if (r.channel c).dst.session = t then (q.session t).letGo .dst (r.channel c)
            else q.session t :=
        session_closeEnd q .dst (r.channel c).halt t
      rw [exec_stopChannel hc, hquiet, hdst, hsrc, if_neg Bool.false_ne_true]

/-- What a channel is after it was stopped. -/
def stoppedChannel (c : Channel) : Channel :=
  if c.stopped then c.halt else (c.halt.retire .src).retire .dst

/-- A change that does nothing to a vacant place is made to a channel wherever it stands. -/
theorem channel_modifyChannel_of_vacant (r : Relay) (c d : ChannelRef) {f : Channel → Channel}
    (h : f .vacant = .vacant) :
    (r.modifyChannel c f).channel d = if d = c then f (r.channel d) else r.channel d := by
  rw [channel_modifyChannel]
  by_cases hd : d < r.channels.length
  · exact if_congr (by rw [and_iff_left hd, eq_comm]) rfl rfl
  · rw [if_neg fun hc => hd hc.2, channel_of_le (Nat.le_of_not_lt hd), h, ite_self]

theorem stopped_stoppedChannel (c : Channel) : (stoppedChannel c).stopped = true := by
  unfold stoppedChannel
  split <;> rfl

/-- Only the channel that is stopped changes. -/
theorem channel_stopChannel (r : Relay) (c d : ChannelRef) :
    ((stopChannel c).exec r).channel d =
      if d = c then stoppedChannel (r.channel d) else r.channel d := by
  have hhalted : (r.halted c).channel d =
      if d = c then (r.channel d).halt else r.channel d :=
    channel_modifyChannel_of_vacant r c d rfl
  cases hc : (r.channel c).stopped with
  | true =>
      rw [exec_stopChannel_of_stopped hc, hhalted]
      refine ite_congr rfl (fun h => ?_) fun _ => rfl
      rw [stoppedChannel, h, if_pos hc]
  | false =>
      have hclosed : KeepsChannels (r.halted c)
          ((closeEnd (r.channel c).id .dst (r.channel c).halt.dst).exec
            ((closeEnd (r.channel c).id .src (r.channel c).halt.src).exec (r.halted c))) :=
        Trans.trans (rel_exec_of_each (closeEnd_keepsChannels ..) _)
          (rel_exec_of_each (closeEnd_keepsChannels ..) _)
      rw [exec_stopChannel hc]
      generalize (closeEnd (r.channel c).id .dst (r.channel c).halt.dst).exec
        ((closeEnd (r.channel c).id .src (r.channel c).halt.src).exec (r.halted c)) = q at *
      have hretired : ((countClosed c).exec ((retireChannel c).exec q)).channel d =
          (q.modifyChannel c fun ch => (ch.retire .src).retire .dst).channel d := rfl
      rw [hretired, channel_modifyChannel_of_vacant _ _ _ rfl, hclosed.channel, hhalted]
      split
      · rename_i hd
        rw [stoppedChannel, hd, if_neg (Bool.eq_false_iff.mp hc)]
      · rfl

/-! ## Channels are stopped one after another -/

/-- An operation that stops the channel that it is given, and nothing that concerns another channel
or its sessions. -/
structure StopsOne (f : ChannelRef → Op Unit) : Prop where
  session : ∀ r c t, ((f c).exec r).session t = parted t (r.session t) (r.channel c)
  channel : ∀ r c d, ((f c).exec r).channel d =
    if d = c then stoppedChannel (r.channel d) else r.channel d

theorem stopsOne_stopChannel : StopsOne stopChannel := ⟨session_stopChannel, channel_stopChannel⟩

theorem stopsOne_discardChannel : StopsOne discardChannel where
  session r c t := by
    rw [exec_discardChannel, session_stopChannel]
    rfl
  channel r c d := by
    rw [exec_discardChannel, channel_stopChannel]
    rfl

namespace StopsOne

variable {f : ChannelRef → Op Unit}

theorem channel_forM (hf : StopsOne f) (cs : List ChannelRef) (h : cs.Nodup) (r : Relay)
    (d : ChannelRef) :
    ((cs.forM f).exec r).channel d =
      if d ∈ cs then stoppedChannel (r.channel d) else r.channel d := by
  induction cs generalizing r with
  | nil => rfl
  | cons c cs ih =>
      obtain ⟨hc, hcs⟩ := List.nodup_cons.mp h
      rw [exec_forM_cons, ih hcs, hf.channel]
      by_cases hd : d = c
      · subst hd
        rw [if_neg hc, if_pos rfl, if_pos List.mem_cons_self]
      · rw [if_neg hd]
        exact if_congr (by rw [List.mem_cons, or_iff_right hd]) rfl rfl

theorem session_forM (hf : StopsOne f) (cs : List ChannelRef) (h : cs.Nodup) (r : Relay)
    (t : SessionRef) :
    ((cs.forM f).exec r).session t = (cs.map r.channel).foldl (parted t) (r.session t) := by
  induction cs generalizing r with
  | nil => rfl
  | cons c cs ih =>
      obtain ⟨hc, hcs⟩ := List.nodup_cons.mp h
      have hrest : cs.map ((f c).exec r).channel = cs.map r.channel := by
        refine List.map_congr_left fun d hd => ?_
        rw [hf.channel, if_neg]
        rintro rfl
        exact hc hd
      rw [exec_forM_cons, ih hcs, hrest, hf.session, List.map_cons, List.foldl_cons]

end StopsOne

/-- A session that does not have the other end of a channel lets go of it on the one side only. -/
theorem parted_of_ne {side : Side} {c : Channel} (h : (c.endpoint side.other).session ≠ t)
    (x : Session) :
    parted t x c =
      if !c.stopped && decide ((c.endpoint side).session = t) then x.letGo side c else x := by
  unfold parted
  cases c.stopped with
  | true => rfl
  | false =>
      cases side with
      | src =>
          have hdst : ¬ c.dst.session = t := h
          simp only [hdst, Bool.false_eq_true, if_false, Bool.not_false, Bool.true_and,
            decide_eq_true_eq]
          rfl
      | dst =>
          have hsrc : ¬ c.src.session = t := h
          simp only [hsrc, Bool.false_eq_true, if_false, Bool.not_false, Bool.true_and,
            decide_eq_true_eq]
          rfl

/-- A session that has no entries on a side has none to let go of for channels that it has on
this side only. -/
theorem foldl_parted_of_empty {side : Side} {x : Session} (hx : x.channels side = .empty)
    {cs : List Channel} (h : ∀ c ∈ cs, (c.endpoint side.other).session ≠ s) :
    cs.foldl (parted s) x = x := by
  induction cs with
  | nil => rfl
  | cons c cs ih =>
      have hkept : x.letGo side c = x := by
        rw [Session.letGo, hx, Registry.keys_empty, if_neg List.not_mem_nil]
      rw [List.foldl_cons, parted_of_ne (h c List.mem_cons_self), hkept, ite_self,
        ih fun d hd => h d (List.mem_cons_of_mem c hd)]

/-- Of the channels that one session has on a side, another lets go of those whose other end is
there. -/
theorem foldl_parted_of_other {side : Side} (hts : t ≠ s) {cs : List Channel}
    (h : ∀ c ∈ cs, (c.endpoint side).session = s) (x : Session) :
    cs.foldl (parted t) x =
      (cs.filter fun c => !c.stopped && decide ((c.endpoint side.other).session = t)).foldl
        (Session.letGo side.other) x := by
  induction cs generalizing x with
  | nil => rfl
  | cons c cs ih =>
      have hhere : (c.endpoint side.other.other).session ≠ t := by
        rw [Side.other_other, h c List.mem_cons_self]
        exact hts.symm
      rw [List.foldl_cons, parted_of_ne hhere, ih fun d hd => h d (List.mem_cons_of_mem c hd),
        List.filter_cons]
      split <;> rfl

end Relay

end PeerRelay
