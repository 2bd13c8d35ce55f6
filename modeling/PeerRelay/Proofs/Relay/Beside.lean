import PeerRelay.Proofs.Relay.Moments

/-!
# What happens beside a channel

A client knows a channel only by its id. Here is what has nothing to do with the channels of
one id: whatever is done to channels with other ids, and whatever is told of them, leaves
those of the id in their places, and nobody is told anything of them.
-/

namespace PeerRelay

/-- The channel that a response speaks of; one that refuses a request speaks of none. -/
def Response.channel? : Response → Option ChannelId
  | .proxy .success channel .. => some channel
  | .access _ channel .. => some channel
  | .stopProxy channel .. => some channel
  | _ => none

theorem Response.channel?_proxyFailure {result : Wire.ResultCode} (h : result ≠ .success) :
    (proxyFailure result).channel? = none := by
  cases result
  case success => exact absurd rfl h
  all_goals rfl

theorem Refusal.result_ne_success (refusal : Refusal) : refusal.result ≠ .success := by
  cases refusal <;> exact fun h => nomatch h

namespace Relay

open Steps

variable {r r' r'' : Relay} {s : SessionRef} {c : ChannelRef} {id : ChannelId}

/-- What a session was told of the channels of an id, oldest first. -/
def told (r : Relay) (s : SessionRef) (id : ChannelId) : List Response :=
  ((r.session s).outbox.map Push.response).filter fun response => response.channel? = some id

theorem told_congr (h : (r'.session s).outbox = (r.session s).outbox) :
    r'.told s id = r.told s id := by
  rw [told, h, told]

theorem told_push (r : Relay) (s t : SessionRef) (header : Wire.Header) (response : Response) :
    (r.modifySession s (·.push header response)).told t id = r.told t id ++
      if (t = s ∧ s < r.sessions.length) ∧ response.channel? = some id then [response] else [] := by
  rw [told, session_modifySession]
  by_cases hts : t = s ∧ s < r.sessions.length
  · obtain ⟨rfl, hlt⟩ := hts
    rw [if_pos ⟨rfl, hlt⟩]
    by_cases hid : response.channel? = some id
    · simp [told, Session.push, hid, hlt]
    · simp [told, Session.push, hid]
  · have hother : ¬ (s = t ∧ t < r.sessions.length) := by
      rintro ⟨rfl, hlt⟩
      exact hts ⟨rfl, hlt⟩
    rw [if_neg hother, if_neg fun h => hts h.1, List.append_nil, told]

/-- What is queued and does not speak of the id leaves what was told of it alone. -/
theorem Pushes.told (h : Pushes (fun _ p => p.response.channel? ≠ some id) r r')
    (s : SessionRef) : r'.told s id = r.told s id := by
  obtain ⟨new, hnew, hkind⟩ := h.outbox s
  have hnone : (new.map Push.response).filter (fun response => response.channel? = some id) =
      [] := by
    simp only [List.filter_eq_nil_iff, List.mem_map, decide_eq_true_eq, forall_exists_index,
      and_imp, forall_apply_eq_imp_iff₂]
    exact fun p hp => (hkind p hp).2
  rw [Relay.told, hnew, List.map_append, List.filter_append, hnone, List.append_nil, Relay.told]

/-- Nothing happens to the channels of an id. None is made and none stops, the entries for the
id of sessions that run are what they were, and nobody is told anything of it. No session that
is over comes back. -/
structure Beside (id : ChannelId) (r r' : Relay) : Prop extends Lasting r r' where
  fresh : ∀ d, r.channels.length ≤ d → d < r'.channels.length → (r'.channel d).id ≠ id
  state : ∀ d < r.channels.length, (r.channel d).id = id →
    (r'.channel d).stopped = (r.channel d).stopped
  sessions : r.sessions.length ≤ r'.sessions.length
  running : ∀ s < r.sessions.length,
    (r'.session s).running = true → (r.session s).running = true
  entries : ∀ s side, (r'.session s).running = true →
    ((r'.session s).channels side).get? id = ((r.session s).channels side).get? id
  listed : r.listed.get? id = none → r'.listed.get? id = none
  told : ∀ s, r'.told s id = r.told s id

namespace Beside

theorem refl (r : Relay) : Beside id r r where
  toLasting := .refl r
  fresh _ hle hlt := absurd hlt (Nat.not_lt_of_le hle)
  state _ _ _ := rfl
  sessions := Nat.le_refl _
  running _ _ h := h
  entries _ _ _ := rfl
  listed h := h
  told _ := rfl

theorem trans (h : Beside id r r') (h' : Beside id r' r'') : Beside id r r'' where
  toLasting := h.toLasting.trans h'.toLasting
  fresh d hle hlt := by
    rcases Nat.lt_or_ge d r'.channels.length with hd | hd
    · rw [h'.id_eq hd]
      exact h.fresh d hle hd
    · exact h'.fresh d hd hlt
  state d hd hid := by
    have hd' := Nat.lt_of_lt_of_le hd h.length
    exact (h'.state d hd' ((h.id_eq hd).trans hid)).trans (h.state d hd hid)
  sessions := Nat.le_trans h.sessions h'.sessions
  running s hs hrun := h.running s hs (h'.running s (Nat.lt_of_lt_of_le hs h.sessions) hrun)
  entries s side hrun := by
    rcases Nat.lt_or_ge s r'.sessions.length with hs | hs
    · exact (h'.entries s side hrun).trans (h.entries s side (h'.running s hs hrun))
    · rw [h'.entries s side hrun, session_of_le hs, session_of_le (Nat.le_trans h.sessions hs)]
  listed hnone := h'.listed (h.listed hnone)
  told s := (h'.told s).trans (h.told s)

instance : Std.Refl (Beside id) := ⟨refl⟩

instance : Trans (Beside id) (Beside id) (Beside id) := ⟨trans⟩

/-- What leaves all channels alone and speaks of others only. -/
theorem of_same (hc : SameChannels r r')
    (hp : Pushes (fun _ p => p.response.channel? ≠ some id) r r') : Beside id r r' where
  toLasting := hc.lasting
  fresh d hle hlt := absurd (hc.length ▸ hlt) (Nat.not_lt_of_le hle)
  state d _ _ := hc.stopped d
  sessions := hp.length
  running := hp.running
  entries s side _ := by rw [hc.entries]
  listed hnone := by rwa [hc.listed]
  told := hp.told

theorem of_listed (hchannels : r'.channels = r.channels) (hsessions : r'.sessions = r.sessions)
    (hlisted : r.listed.get? id = none → r'.listed.get? id = none) : Beside id r r' := by
  have hsession (s : SessionRef) : r'.session s = r.session s := by
    rw [session, hsessions, session]
  have hchannel (d : ChannelRef) : r'.channel d = r.channel d := by
    rw [channel, hchannels, channel]
  refine ⟨.of_channels_eq hchannels, fun d hle hlt => ?_, fun d _ _ => by rw [hchannel],
    Nat.le_of_eq (by rw [hsessions]), fun s _ hrun => by rwa [hsession] at hrun,
    fun s side _ => by rw [hsession], hlisted, fun s => told_congr (by rw [hsession])⟩
  rw [hchannels] at hlt
  exact absurd hlt (Nat.not_lt_of_le hle)

/-- A session gets other entries, which are the same for the id unless the session is over. -/
theorem withEntries {side : Side} {entries : Registry ChannelId ChannelRef}
    (hget : (r.session s).running = true →
      entries.get? id = ((r.session s).channels side).get? id) :
    Beside id r (r.withEntries s side entries) := by
  have hsame := sameLogins_withEntries s side entries r
  have hsilent : Silent r (r.withEntries s side entries) := withChannels_silent s side entries r
  refine ⟨.of_channels_eq rfl, fun d hle hlt => absurd hlt (Nat.not_lt_of_le hle),
    fun _ _ _ => rfl, Nat.le_of_eq hsame.length.symm,
    fun t _ hrun => by rwa [hsame.running] at hrun, fun t other hrun => ?_, fun hnone => hnone,
    fun t => told_congr (hsilent.outbox t)⟩
  rw [hsame.running] at hrun
  by_cases hs : s < r.sessions.length
  · rw [channels_withEntries hs]
    split
    · rename_i hts
      obtain ⟨rfl, rfl⟩ := hts
      exact hget hrun
    · rfl
  · have hts : t ≠ s := by
      rintro rfl
      exact hs (lt_of_running hrun)
    have hsession : (r.withEntries s side entries).session t = r.session t :=
      (session_modifySession ..).trans (if_neg fun h => hts h.1.symm)
    rw [hsession]

end Beside

/-- An operation that leaves all channels alone and speaks of others only. -/
theorem along_beside {α : Type} {p : Op α} (hc : p.Each SameChannels)
    (hp : p.Along (Pushes fun _ p => p.response.channel? ≠ some id) r) :
    p.Along (Beside id) r :=
  ((hc.along r).and hp).mono fun _ _ h => .of_same h.1 h.2

theorem each_beside {α : Type} {p : Op α} (hc : p.Each SameChannels) (hs : p.Each Silent) :
    p.Each (Beside id) :=
  (hc.and hs).mono fun _ _ h => .of_same h.1 h.2.pushes

/-! ## Slots, lists and entries -/

theorem reserveSlot_beside : reserveSlot.Each (Beside id) := by
  refine each_atomic fun r => ?_
  split <;> exact .of_listed rfl rfl fun h => h

theorem releaseSlot_beside : releaseSlot.Each (Beside id) :=
  each_modify fun _ => .of_listed rfl rfl fun h => h

theorem forgetChannel_beside (other : ChannelId) : (forgetChannel other).Each (Beside id) := by
  have hunlist : (unlistChannel other).Each (Beside id) := by
    refine each_atomic fun r => .of_listed rfl rfl fun hnone => ?_
    rw [Registry.get?_erase, hnone, ite_self]
  exact composed_each.forgetChannel releaseSlot_beside hunlist

theorem push_beside {header : Wire.Header} {response : Response}
    (h : response.channel? ≠ some id) (s : SessionRef) :
    (push s header response).Each (Beside id) := by
  refine each_modify fun r => ?_
  have hc : SameChannels r (r.modifySession s (·.push header response)) :=
    .modifySession r s fun _ _ => Session.channels_push ..
  have hl : SameLogins r (r.modifySession s (·.push header response)) :=
    .modifySession r s fun _ => rfl
  exact {
    toLasting := hc.lasting
    fresh := fun _ hle hlt => absurd hlt (Nat.not_lt_of_le hle)
    state := fun d _ _ => hc.stopped d
    sessions := Nat.le_of_eq hl.length.symm
    running := fun t _ hrun => by rwa [hl.running] at hrun
    entries := fun t side _ => by rw [hc.entries]
    listed := fun hnone => hnone
    told := fun t => by rw [told_push, if_neg fun hsame => h hsame.2, List.append_nil] }

section Other

variable {other : ChannelId} (hne : other ≠ id)
include hne

theorem listChannel_beside (c : ChannelRef) : (listChannel other c).Each (Beside id) := by
  refine each_atomic fun r => ?_
  split
  · rename_i listed hlisted
    refine .of_listed rfl rfl fun hnone => ?_
    rw [Registry.get?_of_insert? hlisted, if_neg hne.symm, hnone]
  · exact .refl r

theorem leave_beside (s : SessionRef) (side : Side) : (leave s side other).Each (Beside id) := by
  refine each_atomic fun r => Beside.withEntries fun _ => ?_
  rw [Registry.get?_erase, if_neg hne.symm]

theorem register_beside (s : SessionRef) (side : Side) (c : ChannelRef) :
    (register s side other c).Each (Beside id) := by
  have henter : (enter s side other c).Each (Beside id) := by
    refine each_atomic fun r => ?_
    split
    · rename_i entries hentries
      refine Beside.withEntries fun _ => ?_
      rw [Registry.get?_of_insert? hentries, if_neg hne.symm]
    · exact .refl r
  exact composed_each.register henter (leave_beside hne s side)

theorem closeEnd_beside (side : Side) (e : Channel.Endpoint) :
    (closeEnd other side e).Each (Beside id) := by
  have hnotice : (stopNotice other e.relay).channel? ≠ some id := fun h => hne (Option.some.inj h)
  exact composed_each.closeEnd (leave_beside hne e.session side) (forgetChannel_beside other)
    (composed_each.notifyStop (push_beside hnotice e.session))

end Other

/-! ## Channels with other ids -/

theorem joinSessions_beside (h : (r.channel c).id ≠ id) :
    (joinSessions c).Along (Beside id) r := by
  refine along_read (Each.along ?_ r)
  refine each_bind (register_beside h ..) fun first => ?_
  split
  · refine each_bind (register_beside h ..) fun second => ?_
    split
    · exact each_pure _
    · refine each_bind (leave_beside h ..) fun _ => ?_
      exact each_bind (each_read _) fun _ => each_pure _
  · exact each_bind (each_read _) fun _ => each_pure _

theorem halted_beside (h : (r.channel c).id = id → (r.channel c).stopped = true) :
    Beside id r (r.halted c) where
  toLasting := .modifyChannel r c fun x => .step x .stop
  fresh d hle hlt := by
    rw [length_halted] at hlt
    exact absurd hlt (Nat.not_lt_of_le hle)
  state d hd hid := by
    by_cases hdc : d = c
    · subst hdc
      rw [h hid, stopped_halted hd]
      exact .inl rfl
    · rw [halted, channel_modifyChannel, if_neg fun hc => hdc hc.1.symm]
  sessions := Nat.le_refl _
  running _ _ hrun := hrun
  entries _ _ _ := rfl
  listed hnone := hnone
  told _ := rfl

/-- Stopping a channel with another id, or one that is over, has nothing to do with the id. -/
theorem stopChannel_beside (h : (r.channel c).id = id → (r.channel c).stopped = true) :
    (stopChannel c).Along (Beside id) r := by
  refine along_bind (.step (halted_beside h) (.done _ _)) ?_
  change (if !(r.channel c).stopped then _ else _ : Op Unit).Along _ (r.halted c)
  cases hover : (r.channel c).stopped with
  | true => exact along_pure _ _
  | false =>
      have hid : ((r.halted c).channel c).id ≠ id := by
        rw [show ((r.halted c).channel c).id = (r.channel c).id from
          congrArg Channel.Terms.id (terms_halted r c c)]
        intro hid
        cases hover.symm.trans (h hid)
      refine along_read (Each.along ?_ _)
      refine each_bind (closeEnd_beside hid ..) fun _ => ?_
      refine each_bind (closeEnd_beside hid ..) fun _ => ?_
      refine each_bind (each_beside (retireChannel_sameChannels c) (retireChannel_silent c)) ?_
      exact fun _ => each_beside (countClosed_sameChannels c) (countClosed_silent c)

theorem openChannel_beside {src dst : SessionRef} (h : r.nextChannelId ≠ id) :
    (openChannel src dst).Along (Beside id) r := by
  have hlasting := rel_exec_of_each (openChannel_lasting src dst) r
  have hchannel (d : ChannelRef) : ((openChannel src dst).exec r).channel d =
      if d = r.channels.length then r.newChannel src dst else r.channel d :=
    channel_append r (r.newChannel src dst) d
  refine .step ⟨hlasting, fun d hle hlt => ?_, fun d hd _ => ?_, Nat.le_refl _,
    fun _ _ hrun => hrun, fun _ _ _ => rfl, fun hnone => hnone, fun _ => rfl⟩ (.done _ _)
  · have hlt' : d < r.channels.length + 1 := Nat.lt_of_lt_of_eq hlt (length_openChannel r src dst)
    have hlast : d = r.channels.length := Nat.le_antisymm (Nat.le_of_lt_succ hlt') hle
    have hnew := (hchannel d).trans (if_pos hlast)
    exact hnew ▸ h
  · have hold := (hchannel d).trans (if_neg (Nat.ne_of_lt hd))
    exact congrArg Channel.stopped hold

/-- Putting a channel with another id in its places, or stopping it where that fails, has
nothing to do with the id. -/
theorem placeChannel_beside {src dst : SessionRef} (hc : c < r.channels.length)
    (h : (r.channel c).id ≠ id) : (placeChannel src c dst).Along (Beside id) r := by
  have hother {r' : Relay} (hlasting : Lasting r r') : (r'.channel c).id ≠ id := by
    rwa [hlasting.id_eq hc]
  have hstop {r' : Relay} (hlasting : Lasting r r') : (stopChannel c).Along (Beside id) r' :=
    stopChannel_beside fun hid => absurd hid (hother hlasting)
  refine along_read ?_
  have hlisted := rel_exec_of_each (listChannel_lasting (r.channel c).id c) r
  refine along_bind ((listChannel_beside h c).along r) ?_
  split
  · have hjoined := hlisted.trans (rel_exec_of_each (joinSessions_lasting c) _)
    refine along_bind (joinSessions_beside (hother hlisted)) ?_
    split
    · have hforgotten := hjoined.trans
        (rel_exec_of_each (forgetChannel_lasting (r.channel c).id) _)
      refine along_bind ((forgetChannel_beside _).along _) ?_
      exact along_bind (hstop hforgotten) (along_pure _ _)
    · exact along_pure _ _
  · have hreleased := hlisted.trans (rel_exec_of_each releaseSlot_lasting _)
    refine along_bind (releaseSlot_beside.along _) ?_
    exact along_bind (hstop hreleased) (along_read (along_pure _ _))

/-! ## Requests for channels -/

variable {header : Wire.Header} {destination : SessionId}

theorem createChannel_beside
    (h : r.channels.length < ((createChannel s destination).exec r).channels.length →
      r.nextChannelId ≠ id) :
    (createChannel s destination).Along (Beside id) r := by
  rcases createChannel_refused_or_placed (R := Beside id) r s destination reserveSlot_beside
      releaseSlot_beside with
    ⟨-, -, halong⟩ | ⟨dst, -, -, -, -, hrun, halong⟩
  · exact halong
  · obtain ⟨hlength, hid⟩ := opened_channel r s dst
    have hmade := (createChannel_of_placed hrun).1
    have hnext : (reserveSlot.exec r).nextChannelId = r.nextChannelId := by
      simp only [reserveSlot, exec, run_atomic]
      split <;> rfl
    refine halong (openChannel_beside ?_)
      (placeChannel_beside (hlength ▸ Nat.lt_succ_self _) ?_)
    · rw [hnext]
      exact h hmade
    · rw [hid]
      exact h hmade

/-- A request has nothing to do with an id, unless a channel is made for it under that id. -/
theorem serveProxy_beside
    (h : r.channels.length < ((serveProxy s header destination).exec r).channels.length →
      r.nextChannelId ≠ id) :
    (serveProxy s header destination).Along (Beside id) r := by
  have hrefuse (result : Wire.ResultCode) (hne : result ≠ .success) (r : Relay) :
      (push s header (.proxyFailure result)).Along (Beside id) r := by
    refine (push_beside ?_ s).along r
    rw [Response.channel?_proxyFailure hne]
    exact Option.some_ne_none id |>.symm
  by_cases hrole : (r.session s).role.mayOriginate = true
  · by_cases hin : (r.session s).loggedIn = true
    · rw [(serveProxy_sameChannels hrole hin).length] at h
      refine along_read ?_
      rw [hrole, hin]
      refine along_bind (createChannel_beside h) ?_
      cases hresult : ((createChannel s destination).run r).1 with
      | error refusal => exact hrefuse _ refusal.result_ne_success _
      | ok made =>
          obtain ⟨c, dst⟩ := made
          obtain ⟨-, -, hlt, hid⟩ := createChannel_eq_ok hresult
          generalize (createChannel s destination).exec r = r₁ at hid
          have hsame := rel_exec_of_each (startChannel_sameChannels c) r₁
          refine along_bind
            ((each_beside (startChannel_sameChannels c) (startChannel_silent c)).along r₁) ?_
          refine along_read (along_read (Each.along ?_ _))
          have hid' : (((startChannel c).exec r₁).channel c).id ≠ id := by
            rw [show (((startChannel c).exec r₁).channel c).id = (r₁.channel c).id from
              congrArg Channel.Terms.id (hsame.terms c), hid]
            exact h hlt
          refine each_bind (push_beside ?_ dst) fun _ => push_beside ?_ s
          all_goals exact fun heq => hid' (Option.some.inj heq)
    · refine along_read ?_
      rw [hrole, Bool.eq_false_iff.mpr hin]
      exact hrefuse .notLoggedIn (by decide) r
  · refine along_read ?_
    rw [Bool.eq_false_iff.mpr hrole]
    exact hrefuse .forbidden (by decide) r

end Relay

end PeerRelay
