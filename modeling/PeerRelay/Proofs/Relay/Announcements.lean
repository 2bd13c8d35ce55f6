import PeerRelay.Proofs.Relay.Beside

/-!
# Channels are announced and so is their end

Both sessions of a channel are told of it, and those that still run when it is over are told
that too. What everybody is told of a channel is followed here from one operation to the
next, together with all that decides what will be told: the channel's state and the entries
of its sessions. It cannot be followed from one step to the next, because a channel that was
just marked as over has not been announced as such yet.
-/

namespace PeerRelay

namespace Channel.Terms

/-- What the session that asked for the channel is told. -/
def reply (t : Terms) : Response :=
  .proxy .success t.id (t.relay .src).ip.wireIpv4 (t.relay .src).port

/-- What the session that was asked for is told. -/
def invitation (t : Terms) (privateAddr : Ipv4) : Response :=
  .access (t.sessionId .src) t.id (t.relay .dst).ip.wireIpv4 (t.relay .dst).port privateAddr

/-- What the session on a side is told when the channel is over. -/
def notice (t : Terms) (side : Side) : Response := Relay.stopNotice t.id (t.relay side)

end Channel.Terms

namespace Relay

open Steps

variable {r r' : Relay} {s : SessionRef} {c : ChannelRef} {id : ChannelId}
variable {past later : List Relay}

/-! ## What is told of a channel -/

/-- The channel was made and is over. -/
def ended (c : ChannelRef) (r : Relay) : Bool :=
  decide (c < r.channels.length) && (r.channel c).stopped

/-- What a session is sent for the end of a channel: a notice, if the session runs at the
first moment at which the channel is over. -/
def farewell (past : List Relay) (c : ChannelRef) (s : SessionRef) (notice : Response) :
    List Response :=
  match past.find? (ended c) with
  | none => []
  | some moment => if (moment.session s).running then [notice] else []

/-- What everybody was told of a channel, where these moments have passed. -/
structure Announced (c : ChannelRef) (past : List Relay) (r : Relay) : Prop where
  distinct : (r.channel c).terms.session .src ≠ (r.channel c).terms.session .dst
  /-- The channel is over if there was a first moment at which it was. -/
  stopped : (r.channel c).stopped = (past.find? (ended c)).isSome
  /-- The session that asked for the channel was told of it, and then of its end, -/
  requester : r.told ((r.channel c).terms.session .src) (r.channel c).terms.id =
    (r.channel c).terms.reply ::
      farewell past c ((r.channel c).terms.session .src) ((r.channel c).terms.notice .src)
  /-- and so was the session that it was asked for. -/
  destination : ∃ privateAddr,
    r.told ((r.channel c).terms.session .dst) (r.channel c).terms.id =
      (r.channel c).terms.invitation privateAddr ::
        farewell past c ((r.channel c).terms.session .dst) ((r.channel c).terms.notice .dst)
  /-- Nobody else was told anything of it. -/
  others : ∀ s, (∀ side, (r.channel c).terms.session side ≠ s) →
    r.told s (r.channel c).terms.id = []

/-- A channel with an id was made, everybody was told of it what they should be, and as long
as it is open the sessions that run have their entries for it. -/
structure Story (c : ChannelRef) (id : ChannelId) (past : List Relay) (r : Relay) : Prop
    extends Announced c past r where
  made : c < r.channels.length
  id_eq : (r.channel c).terms.id = id
  sessions : ∀ side, (r.channel c).terms.session side < r.sessions.length
  entries : (r.channel c).stopped = false → ∀ side,
    (r.session ((r.channel c).terms.session side)).running = true →
      ((r.session ((r.channel c).terms.session side)).channels side).get? id = some c

/-- No channel was made with the id so far. -/
structure Unborn (id : ChannelId) (r : Relay) : Prop where
  fresh : ∀ d < r.channels.length, (r.channel d).id ≠ id
  entries : ∀ s side, (r.session s).running = true →
    ((r.session s).channels side).get? id = none
  listed : r.listed.get? id = none
  told : ∀ s, r.told s id = []

/-- No channel but one has the id. -/
def Sole (c : ChannelRef) (id : ChannelId) (r : Relay) : Prop :=
  ∀ d < r.channels.length, (r.channel d).id = id → d = c

theorem Sole.before (h : Sole c id r') (hlasting : Lasting r r') : Sole c id r :=
  fun d hd hid => h d (Nat.lt_of_lt_of_le hd hlasting.length) ((hlasting.id_eq hd).trans hid)

/-- The channel with an id has its story, if there is one yet, and what is past led here. -/
structure Chronicle (c : ChannelRef) (id : ChannelId) (past : List Relay) (r : Relay) : Prop where
  lasting : ∀ m ∈ past, Lasting m r
  story : Unborn id r ∨ Story c id past r

/-! ## Moments at which a channel is over -/

theorem ended_eq_false (h : (r'.channel c).stopped = false) (hlasting : Lasting r r') :
    ended c r = false := by
  rw [ended, Bool.and_eq_false_iff]
  rcases Nat.lt_or_ge c r.channels.length with hc | hc
  · exact .inr (hlasting.open_before hc h)
  · exact .inl (decide_eq_false (Nat.not_lt_of_le hc))

theorem find?_ended_eq_none (h : (r.channel c).stopped = false) (hpast : ∀ m ∈ past, Lasting m r) :
    past.find? (ended c) = none := by
  rw [List.find?_eq_none]
  intro m hm
  rw [ended_eq_false h (hpast m hm)]
  exact Bool.false_ne_true

/-- While a channel that was open stays so, no moment comes at which it is over, and if it was
over before, the first such moment was before. -/
theorem find?_ended_append (h : (r.channel c).stopped = (past.find? (ended c)).isSome)
    (hsame : (r'.channel c).stopped = (r.channel c).stopped)
    (hlater : ∀ m ∈ later, Lasting m r') :
    (past ++ later).find? (ended c) = past.find? (ended c) := by
  rw [List.find?_append]
  cases hpast : past.find? (ended c) with
  | some m => rfl
  | none =>
      rw [hpast] at h
      exact find?_ended_eq_none (hsame.trans h) hlater

theorem farewell_congr (h : later.find? (ended c) = past.find? (ended c)) (s : SessionRef)
    (notice : Response) : farewell later c s notice = farewell past c s notice := by
  rw [farewell, h, farewell]

/-! ## What happens beside the channel -/

theorem Unborn.beside (h : Unborn id r) (hb : Beside id r r') : Unborn id r' where
  fresh d hd := by
    rcases Nat.lt_or_ge d r.channels.length with hlt | hge
    · rw [hb.id_eq hlt]
      exact h.fresh d hlt
    · exact hb.fresh d hge hd
  entries s side hrun := by
    rcases Nat.lt_or_ge s r.sessions.length with hs | hs
    · exact (hb.entries s side hrun).trans (h.entries s side (hb.running s hs hrun))
    · rw [hb.entries s side hrun, session_of_le hs]
      cases side <;> rfl
  listed := hb.listed h.listed
  told s := (hb.told s).trans (h.told s)

theorem Story.beside (h : Story c id past r) (hb : Beside id r r')
    (hlater : ∀ m ∈ later, Lasting m r') : Story c id (past ++ later) r' := by
  have hterms := hb.terms c h.made
  have hstate := hb.state c h.made h.id_eq
  have hfind := find?_ended_append h.stopped hstate hlater
  have htold (s : SessionRef) :
      r'.told s (r.channel c).terms.id = r.told s (r.channel c).terms.id := by
    rw [h.id_eq]
    exact hb.told s
  refine ⟨⟨?_, ?_, ?_, ?_, ?_⟩, Nat.lt_of_lt_of_le h.made hb.length, ?_, ?_, ?_⟩
  · rw [hterms]
    exact h.distinct
  · rw [hfind, hstate]
    exact h.stopped
  · rw [hterms, htold, farewell_congr hfind]
    exact h.requester
  · obtain ⟨privateAddr, hdst⟩ := h.destination
    refine ⟨privateAddr, ?_⟩
    rw [hterms, htold, farewell_congr hfind]
    exact hdst
  · intro s hs
    rw [hterms] at hs ⊢
    rw [htold]
    exact h.others s hs
  · rw [hterms]
    exact h.id_eq
  · intro side
    rw [hterms]
    exact Nat.lt_of_lt_of_le (h.sessions side) hb.sessions
  · intro ho side hrun
    rw [hterms] at hrun ⊢
    rw [hb.entries _ side hrun]
    exact h.entries (hstate ▸ ho) side (hb.running _ (h.sessions side) hrun)

/-! ## Operations that keep the chronicle -/

/-- Wherever no other channel has the id in the end, the chronicle goes on with the operation. -/
structure Tells {α : Type} (c : ChannelRef) (id : ChannelId) (p : Op α) (r : Relay) : Prop where
  lasting : p.Along Lasting r
  keeps : ∀ past, Chronicle c id past r → Sole c id (p.exec r) →
    Chronicle c id (past ++ p.trace r) (p.exec r)

section Tells

variable {α β : Type} {p : Op α} {f : α → Op β}

theorem lasting_append_trace (h : p.Along Lasting r) (hpast : ∀ m ∈ past, Lasting m r) :
    ∀ m ∈ past ++ p.trace r, Lasting m (p.exec r) := by
  intro m hm
  rcases List.mem_append.mp hm with hm | hm
  · exact (hpast m hm).trans (rel_exec_of_along h)
  · exact rel_exec_of_mem_trace h hm

theorem tells_of_beside (h : p.Along (Beside id) r) : Tells c id p r := by
  have hlasting : p.Along Lasting r := h.mono fun _ _ h => h.toLasting
  have hb := rel_exec_of_along h
  refine ⟨hlasting, fun past hc _ => ⟨lasting_append_trace hlasting hc.lasting, ?_⟩⟩
  rcases hc.story with hunborn | hstory
  · exact .inl (hunborn.beside hb)
  · exact .inr (hstory.beside hb fun m hm => rel_exec_of_mem_trace hlasting hm)

theorem tells_quiet (hc : p.Each SameChannels) (hs : p.Each Silent) (r : Relay) :
    Tells c id p r :=
  tells_of_beside ((each_beside hc hs).along r)

theorem tells_bind (hp : Tells c id p r) (hf : Tells c id (f (p.run r).1) (p.exec r)) :
    Tells c id (p >>= f) r := by
  refine ⟨along_bind hp.lasting hf.lasting, fun past hc hsole => ?_⟩
  rw [exec_bind] at hsole
  rw [trace_bind, exec_bind, ← List.append_assoc]
  exact hf.keeps _ (hp.keeps past hc (hsole.before (rel_exec_of_along hf.lasting))) hsole

theorem tells_read {g : Relay → α} (hf : Tells c id (f (g r)) r) :
    Tells c id (read g >>= f) r :=
  tells_bind (tells_quiet (each_read g) (each_read g) r) hf

theorem tells_pure (a : α) (r : Relay) : Tells c id (pure a : Op α) r :=
  tells_quiet (each_pure a) (each_pure a) r

theorem tells_forM {g : α → Op Unit} (h : ∀ a r, Tells c id (g a) r) (xs : List α) (r : Relay) :
    Tells c id (xs.forM g) r := by
  induction xs generalizing r with
  | nil => exact tells_pure () r
  | cons x xs ih => exact tells_bind (h x r) (ih _)

end Tells

/-! ## The end of a channel -/

theorem told_notifyStop (r : Relay) (s t : SessionRef) (relay : SocketAddr) :
    ((notifyStop s id relay).exec r).told t id = r.told t id ++
      if t = s ∧ (r.session s).running = true then [stopNotice id relay] else [] := by
  by_cases hrun : (r.session s).running = true
  · have hexec : (notifyStop s id relay).exec r =
        r.modifySession s (·.push (.fresh .stopProxy) (stopNotice id relay)) := by
      simp only [exec, notifyStop, isRunning, run_bind, run_read, hrun, if_true, push, run_modify]
    rw [hexec, told_push]
    refine congrArg (r.told t id ++ ·) (if_congr ?_ rfl rfl)
    exact ⟨fun h => ⟨h.1.1, hrun⟩, fun h => ⟨⟨h.1, lt_of_running hrun⟩, rfl⟩⟩
  · have hexec : (notifyStop s id relay).exec r = r := by
      simp only [exec, notifyStop, isRunning, run_bind, run_read, hrun, Bool.false_eq_true,
        if_false, run_pure]
    rw [hexec, if_neg fun h => hrun h.2, List.append_nil]

/-- The session at an end is told that the channel is over, if it runs. -/
theorem told_closeEnd (r : Relay) (id : ChannelId) (side : Side) (e : Channel.Endpoint)
    (hentry : (r.session e.session).running = true →
      id ∈ ((r.session e.session).channels side).keys) (t : SessionRef) :
    ((closeEnd id side e).exec r).told t id = r.told t id ++
      if t = e.session ∧ (r.session e.session).running = true then
        [stopNotice id e.relay] else [] := by
  have hleft : Silent r (r.left e.session side id) := withChannels_silent ..
  have hlogins := sameLogins_withEntries e.session side
    (((r.session e.session).channels side).erase id) r
  by_cases hid : id ∈ ((r.session e.session).channels side).keys
  · have hexec : ∃ r₁, r₁.sessions = (r.left e.session side id).sessions ∧
        (closeEnd id side e).exec r = (notifyStop e.session id e.relay).exec r₁ := by
      cases side with
      | src =>
          refine ⟨(r.left e.session .src id).forgotten id, rfl, ?_⟩
          simp only [closeEnd, exec_bind, run_leave, Registry.contains_iff.mpr hid, if_true]
          rw [← exec_forgetChannel]
          rfl
      | dst =>
          refine ⟨r.left e.session .dst id, rfl, ?_⟩
          simp only [closeEnd, exec_bind, run_leave, Registry.contains_iff.mpr hid, if_true,
            reduceCtorEq, if_false]
          rfl
    obtain ⟨r₁, hsessions, hexec⟩ := hexec
    have hsession (s : SessionRef) : r₁.session s = (r.left e.session side id).session s := by
      rw [session, hsessions, session]
    have hrunning : (r₁.session e.session).running = (r.session e.session).running := by
      rw [hsession]
      exact hlogins.running e.session
    have htold : r₁.told t id = r.told t id := told_congr (by rw [hsession, hleft.outbox])
    rw [hexec, told_notifyStop, hrunning, htold]
  · have hexec : (closeEnd id side e).exec r = r.left e.session side id := by
      simp only [closeEnd, exec_bind, run_leave,
        Bool.eq_false_iff.mpr (mt Registry.contains_iff.mp hid), Bool.false_eq_true, if_false]
      rfl
    rw [hexec, if_neg fun h => hid (hentry h.2), List.append_nil]
    exact told_congr (hleft.outbox t)

/-- When an open channel is stopped, its sessions that run are told so, each from its end. -/
theorem told_stopChannel (hopen : (r.channel c).stopped = false)
    (hentry : ∀ side, (r.session ((r.channel c).terms.session side)).running = true →
      (r.channel c).id ∈ ((r.session ((r.channel c).terms.session side)).channels side).keys)
    (t : SessionRef) :
    ((stopChannel c).exec r).told t (r.channel c).terms.id = r.told t (r.channel c).terms.id ++
      (if t = (r.channel c).terms.session .src ∧
        (r.session ((r.channel c).terms.session .src)).running = true then
        [(r.channel c).terms.notice .src] else []) ++
      (if t = (r.channel c).terms.session .dst ∧
        (r.session ((r.channel c).terms.session .dst)).running = true then
        [(r.channel c).terms.notice .dst] else []) := by
  have hsrc := told_closeEnd (r.halted c) _ .src (r.channel c).halt.src (hentry .src) t
  have hlogins := rel_exec_of_each
    (closeEnd_sameLogins (r.channel c).id .src (r.channel c).halt.src) (r.halted c)
  -- The end of the source session leaves the entries on the other side alone.
  have hkept (s : SessionRef) :
      (((closeEnd (r.channel c).id .src (r.channel c).halt.src).exec (r.halted c)).session
        s).channels .dst = (r.session s).channels .dst := by
    rw [(closeEnd_src ..).entries]
    split
    all_goals exact (channels_left ..).trans (if_neg fun h => nomatch h.2)
  rw [exec_stopChannel hopen]
  generalize (closeEnd (r.channel c).id .src (r.channel c).halt.src).exec (r.halted c) = r₂ at *
  have hstill (s : SessionRef) : (r₂.session s).running = (r.session s).running :=
    hlogins.running s
  have hdst := told_closeEnd r₂ (r.channel c).id .dst (r.channel c).halt.dst (fun hrun => ?_) t
  · generalize (closeEnd (r.channel c).id .dst (r.channel c).halt.dst).exec r₂ = r₃ at *
    have hretired := rel_exec_of_each (retireChannel_silent c) r₃
    have hcounted := rel_exec_of_each (countClosed_silent c) ((retireChannel c).exec r₃)
    have htold : r₃.told t (r.channel c).terms.id = _ := hdst
    rw [told_congr (hcounted.outbox t), told_congr (hretired.outbox t), htold, hsrc, hstill]
    rfl
  · rw [hstill] at hrun
    rw [hkept]
    exact hentry .dst hrun

/-- However a channel was before, it is over when it was stopped. -/
theorem stopped_stopChannel (hc : c < r.channels.length) :
    (((stopChannel c).exec r).channel c).stopped = true := by
  have hrest : Lasting (r.halted c) ((stopChannel c).exec r) :=
    rel_exec_of_mem_trace ((stopChannel_lasting c).along r) List.mem_cons_self
  refine hrest.stopped c ((length_halted r c).symm ▸ hc) ?_
  rw [stopped_halted hc]
  exact .inl rfl

/-- The first moment at which an open channel is over is the first one of its stop. -/
theorem find?_ended_stopChannel (hopen : (r.channel c).stopped = false)
    (hpast : ∀ m ∈ past, Lasting m r) :
    (past ++ (stopChannel c).trace r).find? (ended c) = some (r.halted c) := by
  have hlt := lt_of_stopped_eq_false hopen
  have hended : ended c (r.halted c) = true := by
    rw [ended, Bool.and_eq_true, decide_eq_true_eq, length_halted, stopped_halted hlt]
    exact ⟨hlt, .inl rfl⟩
  rw [List.find?_append, find?_ended_eq_none hopen hpast]
  exact List.find?_cons_of_pos hended

/-- An open channel that is stopped has its end told to those of its sessions that run. -/
theorem Story.stopChannel (h : Story c id past r) (hopen : (r.channel c).stopped = false)
    (hpast : ∀ m ∈ past, Lasting m r) :
    Story c id (past ++ (stopChannel c).trace r) ((stopChannel c).exec r) := by
  have hlogins := rel_exec_of_each (stopChannel_sameLogins c) r
  have hlast := rel_exec_of_each (stopChannel_lasting c) r
  have hterms := hlast.terms c h.made
  have hstopped := stopped_stopChannel h.made
  have hfind := find?_ended_stopChannel hopen hpast
  have htold := told_stopChannel hopen fun side hrun => by
    rw [show (r.channel c).id = id from h.id_eq, Registry.mem_keys_iff]
    exact ⟨c, h.entries hopen side hrun⟩
  -- Nothing was said of an end before, and now it is said to whoever runs.
  have hbefore (s : SessionRef) (notice : Response) : farewell past c s notice = [] := by
    rw [farewell, find?_ended_eq_none hopen hpast]
  have hnow (s : SessionRef) (notice : Response) :
      farewell (past ++ (Relay.stopChannel c).trace r) c s notice =
        if (r.session s).running = true then [notice] else [] := by
    rw [farewell, hfind]
    rfl
  refine ⟨⟨?_, ?_, ?_, ?_, ?_⟩, Nat.lt_of_lt_of_le h.made hlast.length, ?_, ?_, ?_⟩
  · rw [hterms]
    exact h.distinct
  · rw [hstopped, hfind, Option.isSome_some]
  · have hopening := h.requester
    have hother : ¬ ((r.channel c).terms.session .src = (r.channel c).terms.session .dst ∧
        (r.session ((r.channel c).terms.session .dst)).running = true) :=
      fun hs => h.distinct hs.1
    rw [hbefore] at hopening
    rw [hterms, hnow, htold, hopening, if_neg hother, List.append_nil]
    exact congrArg (_ :: ·) (if_congr (and_iff_right rfl) rfl rfl)
  · obtain ⟨privateAddr, hopening⟩ := h.destination
    have hother : ¬ ((r.channel c).terms.session .dst = (r.channel c).terms.session .src ∧
        (r.session ((r.channel c).terms.session .src)).running = true) :=
      fun hs => h.distinct hs.1.symm
    refine ⟨privateAddr, ?_⟩
    rw [hbefore] at hopening
    rw [hterms, hnow, htold, hopening, if_neg hother, List.append_nil]
    exact congrArg (_ :: ·) (if_congr (and_iff_right rfl) rfl rfl)
  · intro s hs
    rw [hterms] at hs ⊢
    rw [htold, h.others s hs, if_neg fun h => hs .src h.1.symm, if_neg fun h => hs .dst h.1.symm]
    rfl
  · rw [hterms]
    exact h.id_eq
  · intro side
    rw [hterms, hlogins.length]
    exact h.sessions side
  · intro ho
    cases hstopped.symm.trans ho

/-! ## Stopping channels and sessions -/

theorem tells_stopChannel (d : ChannelRef) (r : Relay) : Tells c id (stopChannel d) r := by
  by_cases h : (r.channel d).id = id → (r.channel d).stopped = true
  · exact tells_of_beside (stopChannel_beside h)
  · -- The channel is open and has the id, so its story is told.
    obtain ⟨hid, hopen⟩ := Classical.not_imp.mp h
    have hopen' := Bool.eq_false_iff.mpr hopen
    have hlt := lt_of_stopped_eq_false hopen'
    have hlasting := (stopChannel_lasting d).along r
    refine ⟨hlasting, fun past hc hsole =>
      ⟨lasting_append_trace hlasting hc.lasting, .inr ?_⟩⟩
    obtain rfl := hsole.before (rel_exec_of_along hlasting) d hlt hid
    rcases hc.story with hunborn | hstory
    · exact absurd hid (hunborn.fresh d hlt)
    · exact hstory.stopChannel hopen' hc.lasting

theorem tells_discardChannel (d : ChannelRef) (r : Relay) : Tells c id (discardChannel d) r :=
  tells_read (tells_bind (tells_of_beside ((forgetChannel_beside _).along r))
    (tells_stopChannel d _))

theorem takeChannels_beside (side : Side) (h : (r.session s).running = false) :
    (takeChannels s side).Along (Beside id) r := by
  have hentries : (takeChannels s side).Each fun r r' =>
      ∃ entries, r' = r.withEntries s side entries :=
    each_takeChannels fun entries _ => ⟨entries, rfl⟩
  refine hentries.along_of (P := fun r => (r.session s).running = false) ?_ h
  rintro r r' hover ⟨entries, rfl⟩
  refine ⟨.withEntries fun hrun => ?_, ((sameLogins_withEntries ..).running s).trans hover⟩
  cases hover.symm.trans hrun

theorem tells_stopSession (s : SessionRef) (r : Relay) : Tells c id (stopSession s) r := by
  have hclaim : (claimEnd s).Each SameChannels :=
    each_atomic fun r => .modifySession r s fun _ side => by cases side <;> rfl
  refine tells_bind (tells_of_beside (along_beside hclaim (claimEnd_along r s))) ?_
  by_cases hrun : (r.session s).running = true
  · -- From here on the session is over, so it does not matter that it hands out its entries.
    have hover : (((claimEnd s).exec r).session s).running = false := by
      change ((r.modifySession s _).session s).running = false
      rw [session_modifySession, if_pos ⟨rfl, lt_of_running hrun⟩]
    have hfirst : ((claimEnd s).run r).1 = true := hrun
    rw [hfirst, if_pos rfl]
    generalize (claimEnd s).exec r = r₁ at hover
    refine tells_bind (tells_quiet (each_modify fun r => sameChannels_disarm _ r)
      (each_modify fun _ => .of_sessions rfl) r₁) ?_
    have hdisarmed : (((Steps.modify (disarm (.login s))).exec r₁).session s).running = false :=
      hover
    generalize (Steps.modify (disarm (.login s))).exec r₁ = r₂ at hdisarmed
    refine tells_bind (tells_of_beside (takeChannels_beside .src hdisarmed)) ?_
    refine tells_bind (tells_forM tells_discardChannel _ _) ?_
    have hlogins := rel_exec_of_each (each_bind (takeChannels_sameLogins s .src) fun cs =>
      each_forM discardChannel_sameLogins cs) r₂
    rw [exec_bind] at hlogins
    have hstill := (hlogins.running s).trans hdisarmed
    refine tells_bind (tells_of_beside (takeChannels_beside .dst hstill)) ?_
    refine tells_bind (tells_forM tells_stopChannel _ _) ?_
    refine tells_bind (tells_quiet (dismiss_sameChannels s) (dismiss_silent s) _) ?_
    exact tells_quiet (detach_sameChannels s) (detach_silent s) _
  · have hfirst : ((claimEnd s).run r).1 = false := Bool.eq_false_iff.mpr hrun
    rw [hfirst, if_neg Bool.false_ne_true]
    exact tells_pure () _

end Relay

end PeerRelay
