import PeerRelay.Proofs.Pool
import PeerRelay.Proofs.Relay.Lasting
import PeerRelay.Proofs.Relay.TrafficAccounts
import PeerRelay.Server

/-!
# What becomes of a payload

Every channel of a relay is run the way the settings say. An end takes in of a datagram as many
bytes as the settings allow for, and those are what it passes on. So a payload goes through
unchanged just if it is no longer than that.
-/

namespace PeerRelay

open Steps

/-- The settings allow for datagrams of a length within these bounds. -/
theorem Settings.mtu_of_validate {s : Settings} (h : s.validate = .ok s) :
    64 ≤ s.channelMtu ∧ s.channelMtu ≤ 65535 := by
  by_contra hmtu
  have hfault : s.channelMtu < 64 ∨ 65535 < s.channelMtu := by omega
  have hnone : s.fault? = none := by
    rw [validate] at h
    cases hf : s.fault? with
    | none => rfl
    | some fault =>
        rw [hf] at h
        cases h
  -- Whatever comes first, there is a fault.
  simp only [fault?, hfault, if_true] at hnone
  repeat' split at hnone
  all_goals cases hnone

namespace Relay

/-! ## How channels are run -/

/-- Every channel is run the way the relay runs its channels. -/
def Uniform (r : Relay) : Prop := ∀ c < r.channels.length, (r.channel c).config = r.config.channel

/-- The limits stay, and with them the way in which all channels are run. -/
structure KeepsUniform (r r' : Relay) : Prop where
  config : r'.config = r.config
  uniform : r.Uniform → r'.Uniform

namespace KeepsUniform

variable {r r' : Relay}

theorem of_ran (hconfig : r'.config = r.config) (hlength : r'.channels.length = r.channels.length)
    (hran : ∀ c, (r.channel c).Ran (r'.channel c)) : KeepsUniform r r' := by
  refine ⟨hconfig, fun hr c hc => ?_⟩
  rw [hlength] at hc
  rw [hconfig, ← hr c hc]
  exact congrArg Channel.Terms.config (hran c).terms_eq

theorem of_channels_eq (hconfig : r'.config = r.config) (h : r'.channels = r.channels) :
    KeepsUniform r r' := by
  refine of_ran hconfig (by rw [h]) fun c => ?_
  rw [channel, channel, h]
  exact .refl _

instance : Std.Refl KeepsUniform := ⟨fun _ => .of_channels_eq rfl rfl⟩

end KeepsUniform

theorem uniform_of_sameChannels {α : Type} {p : Op α} (h : p.Each SameChannels) :
    p.Each KeepsUniform :=
  h.mono fun _ _ h => .of_ran h.config h.length h.ran

theorem uniform_of_keepsChannels {α : Type} {p : Op α} (h : p.Each KeepsChannels)
    (h' : p.Each Uncounted) : p.Each KeepsUniform :=
  (h.and h').mono fun _ _ h => .of_channels_eq h.2.config h.1

theorem compositional_uniform : Compositional fun _ p => p.Each KeepsUniform where
  quiet := uniform_of_sameChannels
  bind := each_bind

theorem stopChannel_uniform (c : ChannelRef) : (stopChannel c).Each KeepsUniform :=
  composed_each.stopChannel
    (each_atomic fun _ => .of_ran rfl (List.length_modify ..)
      (ran_modifyChannel (.step _ .stop)))
    (composed_each.tearDown
      (fun _ _ _ => uniform_of_keepsChannels (closeEnd_keepsChannels ..) (closeEnd_uncounted ..))
      (uniform_of_sameChannels (retireChannel_sameChannels c))
      (uniform_of_sameChannels (countClosed_sameChannels c)))

theorem openChannel_uniform (src dst : SessionRef) : (openChannel src dst).Each KeepsUniform := by
  refine each_atomic fun r => ⟨rfl, fun hr c hc => ?_⟩
  have happend : ((openChannel src dst).exec r).channel c =
      if c = r.channels.length then r.newChannel src dst else r.channel c :=
    channel_append r (r.newChannel src dst) c
  by_cases hnew : c = r.channels.length
  · exact congrArg Channel.config (happend.trans (if_pos hnew))
  · have hold : c < r.channels.length := by
      simp only [addChannel, List.length_append, List.length_singleton] at hc
      omega
    exact (congrArg Channel.config (happend.trans (if_neg hnew))).trans (hr c hold)

theorem createChannel_uniform (src : SessionRef) (id : SessionId) :
    (createChannel src id).Each KeepsUniform :=
  composed_each.createChannel
    (uniform_of_keepsChannels reserveSlot_keepsChannels reserveSlot_uncounted)
    (uniform_of_keepsChannels releaseSlot_keepsChannels releaseSlot_uncounted)
    (fun dst _ => openChannel_uniform src dst)
    (fun _ _ => uniform_of_keepsChannels (listChannel_keepsChannels ..) (listChannel_uncounted ..))
    (fun _ => uniform_of_keepsChannels (joinSessions_keepsChannels _) (joinSessions_uncounted _))
    (fun _ => uniform_of_keepsChannels (forgetChannel_keepsChannels _) (forgetChannel_uncounted _))
    stopChannel_uniform id

theorem stopSession_uniform (s : SessionRef) : (stopSession s).Each KeepsUniform :=
  composed_each.stopSession (each_atomic fun _ => .of_channels_eq rfl rfl)
    (each_modify fun _ => .of_channels_eq rfl rfl)
    (composed_each.stopChannels
      (fun _ _ => uniform_of_keepsChannels (takeChannels_keepsChannels ..)
        (takeChannels_uncounted ..))
      (composed_each.discardChannel
        (fun _ => uniform_of_keepsChannels (forgetChannel_keepsChannels _)
          (forgetChannel_uncounted _))
        stopChannel_uniform)
      stopChannel_uniform s)
    (uniform_of_sameChannels (dismiss_sameChannels s))
    (uniform_of_sameChannels (detach_sameChannels s))

/-- Whoever has which turn, all channels are run the way the relay was told at first. -/
theorem config_played (limits : Config) (calls : List Call) (turns : List Nat) {c : ChannelRef}
    (hc : c < (played limits calls turns).channels.length) :
    ((played limits calls turns).channel c).config = limits.channel := by
  have hcalls : ∀ op ∈ calls.map Call.op, op.Each KeepsUniform := by
    intro op hop
    obtain ⟨call, -, rfl⟩ := List.mem_map.mp hop
    exact compositional_uniform.call createChannel_uniform stopChannel_uniform stopSession_uniform
      call
  have hinit : Uniform { config := limits } := fun c hc => (Nat.not_lt_zero c hc).elim
  obtain ⟨hconfig, huniform⟩ := Pool.state_play_of_each
    (I := fun r => r.config = limits ∧ r.Uniform) hcalls
    (fun r r' h hkeeps => ⟨hkeeps.config.trans h.1, hkeeps.uniform h.2⟩) ⟨rfl, hinit⟩ turns
  exact (huniform c hc).trans (congrArg Config.channel hconfig)

/-! ## Payloads -/

theorem found_of_mem_arrivals {calls : List Call} {p : Pool Relay Answer} {turns : List Nat}
    {a : Arrival} (h : a ∈ arrivals calls p turns) :
    ∃ before later, turns = before ++ later ∧ a.found = (p.play before).state := by
  induction turns generalizing p with
  | nil => cases h
  | cons i turns ih =>
      rw [arrivals, List.mem_append] at h
      rcases h with h | h
      · refine ⟨[], i :: turns, rfl, ?_⟩
        unfold arrivalAt at h
        split at h
        · rw [List.mem_singleton.mp h]
          rfl
        · cases h
      · obtain ⟨before, later, rfl, hfound⟩ := ih h
        exact ⟨i :: before, later, rfl, hfound⟩

/-- A sign of life stays one, and anything else stays something else, if no more is cut off. -/
theorem passes_take {c : Channel} (hmtu : 2 < c.config.mtu) (side : Side) (sender : SocketAddr)
    (data : Bytes) : c.passes side sender (data.take c.config.mtu) = c.passes side sender data := by
  have hlong : 2 < (data.take c.config.mtu).length ↔ 2 < data.length := by
    rw [List.length_take]
    omega
  simp only [Channel.passes, hlong]

/-- A datagram that is passed on loses what the settings do not allow for. So it comes out as it
went in just if it is no longer than that. -/
theorem payload_whole_iff {settings : Settings} (hvalid : settings.validate = .ok settings)
    (calls : List Call) (turns : List Nat) :
    ∀ a ∈ arrived settings.relay calls turns,
      a.passed = (if a.met.passes a.side a.sender a.data then [a.data.take settings.channelMtu]
        else []) ∧
      ∀ data ∈ a.passed, data = a.data ↔ a.data.length ≤ settings.channelMtu := by
  intro a ha
  obtain ⟨before, later, rfl, hfound⟩ := found_of_mem_arrivals ha
  have hfound : a.found = played settings.relay calls before := hfound
  have hbounds := Settings.mtu_of_validate hvalid
  have hmtu (hlt : a.channel < a.found.channels.length) :
      a.met.config.mtu = settings.channelMtu := by
    rw [hfound] at hlt
    rw [Arrival.met, hfound, config_played settings.relay calls before hlt]
    rfl
  have hlong : 2 < a.met.config.mtu := by
    rcases Nat.lt_or_ge a.channel a.found.channels.length with hlt | hge
    · rw [hmtu hlt]
      omega
    · rw [Arrival.met, channel_of_le hge]
      decide
  have hpassed : a.passed =
      if a.met.passes a.side a.sender a.data then [a.data.take settings.channelMtu] else [] := by
    have hsame : a.met.passes a.side a.sender a.taken = a.met.passes a.side a.sender a.data :=
      passes_take hlong a.side a.sender a.data
    rw [← hsame]
    cases (ledger_play settings.relay calls (before ++ later)).sorted a ha with
    | passed hpasses _ hpassed hlt => rw [hpassed, if_pos hpasses, Arrival.taken, hmtu hlt]
    | refused hpasses _ hpassed | uncounted hpasses _ hpassed =>
        rw [hpassed, hpasses, if_neg Bool.false_ne_true]
  refine ⟨hpassed, fun data hdata => ?_⟩
  rw [hpassed] at hdata
  split at hdata
  · rw [List.mem_singleton.mp hdata, List.take_eq_self_iff]
  · cases hdata

/-- Settings that allow for no more than the shortest that they may. -/
def tight : Settings := { channelMtu := 64 }

/-- Two clients are joined and both let in. Then the first sends 64 bytes, and 65. -/
def parcels : List Call :=
  let client (port : UInt16) : SocketAddr := ⟨.v4 ⟨192, 0, 2, 1⟩, port, 0⟩
  linked.map .event ++
    [.event (.datagram 0 .dst (client 5000) [1]),
      .event (.datagram 0 .src (client 5001) [1]),
      .event (.datagram 0 .src (client 5001) (List.replicate 64 7)),
      .event (.datagram 0 .src (client 5001) (List.replicate 65 7))]

def parcelTurns : List Nat := (List.range 9).flatMap (List.replicate 20)

theorem payload_whole_iff_parcels :
    tight.validate = .ok tight ∧
      ∀ a ∈ arrived tight.relay parcels parcelTurns,
        ∀ data ∈ a.passed, data = a.data ↔ a.data.length ≤ 64 :=
  ⟨rfl, fun a ha => (payload_whole_iff rfl parcels parcelTurns a ha).2⟩

/-- The last byte of the longer one is lost on the way. -/
theorem payload_shortened :
    tight.validate = .ok tight ∧
      (arrived tight.relay parcels parcelTurns).map (fun a => (a.data, a.passed)) =
        [([1], []), ([1], []), (List.replicate 64 7, [List.replicate 64 7]),
          (List.replicate 65 7, [List.replicate 64 7])] :=
  ⟨rfl, by decide +kernel⟩

end Relay

end PeerRelay
