import Mathlib.Algebra.BigOperators.Group.Finset.Piecewise
import PeerRelay.Proofs.Relay.Connections
import PeerRelay.Proofs.Relay.LoginRuns
import PeerRelay.Proofs.Wire.Framing

/-!
# Streams and what is passed over in them

Some counters are about what clients send and about nothing else. One of them counts how
often two bytes of a stream were passed over because no header stood there. It tells how
often that happens when each stream is cut into frames as a whole, however it came in.
-/

namespace PeerRelay

open Steps
open Wire (Frame)

/-- Whether a piece is two bytes that were passed over to look for a header. -/
def Wire.Frame.Piece.isSkip : Wire.Frame.Piece → Bool
  | .frame _ => false
  | .skip .. => true

namespace Relay

variable {r r' r'' : Relay}

/-! ## What only a client's stream can change -/

/-- A counter of what clients send, which nothing else changes. -/
structure OfStreams {α : Type} (g : Metrics → α) : Prop where
  sessionOpened : ∀ m : Metrics, g m.sessionOpened = g m
  sessionClosed : ∀ m : Metrics, g m.sessionClosed = g m
  connectionRejected : ∀ m : Metrics, g m.connectionRejected = g m
  channelOpened : ∀ m : Metrics, g m.channelOpened = g m
  channelClosed : ∀ (nanoseconds : Nat) (m : Metrics), g (m.channelClosed nanoseconds) = g m
  countOutcome : ∀ side outcome (m : Metrics), g (countOutcome side outcome m) = g m

theorem ofStreams_logins : OfStreams Metrics.logins := by
  refine ⟨fun _ => rfl, fun _ => rfl, fun _ => rfl, fun _ => rfl, fun _ _ => rfl, ?_⟩
  intro side outcome m
  cases outcome <;> cases side <;> rfl

theorem ofStreams_resyncs : OfStreams Metrics.resyncs := by
  refine ⟨fun _ => rfl, fun _ => rfl, fun _ => rfl, fun _ => rfl, fun _ _ => rfl, ?_⟩
  intro side outcome m
  cases outcome <;> cases side <;> rfl

/-- The counter is where it was, and what is left of every stream is what it was. -/
structure Unheard {α : Type} (g : Metrics → α) (r r' : Relay) : Prop where
  counted : g r'.metrics = g r.metrics
  unread : ∀ s, (r'.session s).unread = (r.session s).unread

namespace Unheard

variable {α : Type} {g : Metrics → α}

theorem refl (r : Relay) : Unheard g r r := ⟨rfl, fun _ => rfl⟩

theorem trans (h : Unheard g r r') (h' : Unheard g r' r'') : Unheard g r r'' where
  counted := h'.counted.trans h.counted
  unread s := (h'.unread s).trans (h.unread s)

instance : Std.Refl (Unheard g) := ⟨refl⟩

instance : Trans (Unheard g) (Unheard g) (Unheard g) := ⟨trans⟩

theorem counting : Counting fun _ p => p.Each (Unheard g) where
  quiet h := h.mono fun _ _ hu =>
    ⟨congrArg g hu.metrics, fun s => congrArg Prod.snd (hu.session_account s)⟩
  bind := each_bind

theorem count {f : Metrics → Metrics} (hf : ∀ m, g (f m) = g m) :
    (Steps.modify fun r : Relay => r.count f).Each (Unheard g) :=
  each_modify fun r => ⟨hf r.metrics, fun _ => rfl⟩

theorem stopChannel (hg : OfStreams g) (c : ChannelRef) :
    (stopChannel c).Each (Unheard g) :=
  counting.stopChannel (fun _ => each_atomic fun _ => ⟨rfl, fun _ => rfl⟩)
    (fun _ => each_modify fun _ => ⟨hg.channelClosed .., fun _ => rfl⟩) c

theorem serveProxy (hg : OfStreams g) (s : SessionRef) (header : Wire.Header)
    (destination : SessionId) : (serveProxy s header destination).Each (Unheard g) :=
  counting.serveProxy (counting.createChannel
    (fun _ _ => each_atomic fun r => ⟨hg.channelOpened r.metrics, fun _ => rfl⟩) (stopChannel hg))
    s header destination

theorem stopSession (hg : OfStreams g) (s : SessionRef) :
    (stopSession s).Each (Unheard g) := by
  refine counting.stopSession (fun s => each_atomic fun r => ⟨rfl, fun t => ?_⟩) (stopChannel hg)
    (fun s => composed_each.detach (each_atomic fun _ => ⟨rfl, fun _ => rfl⟩)
      (each_modify fun _ => ⟨rfl, fun _ => rfl⟩) (count hg.sessionClosed)) s
  refine session_modifySession_congr Session.unread ?_ t
  exact fun _ => rfl

/-- What does not come over a session's connection leaves all streams alone. -/
theorem step (hg : OfStreams g) (r : Relay) {e : Event} (he : ∀ s data, e ≠ .bytes s data) :
    Unheard g r (r.step e) := by
  have hreserve : reserveConnection.Each (Unheard g) := by
    refine each_atomic fun r => ?_
    split
    · exact ⟨rfl, fun _ => rfl⟩
    · exact ⟨hg.connectionRejected r.metrics, fun _ => rfl⟩
  have hstart (role : Role) (peer localAddr : SocketAddr) (held : Bool) :
      (startSession role peer localAddr held).Each (Unheard g) :=
    each_atomic fun r => ⟨hg.sessionOpened r.metrics, startSession_congr Session.unread rfl⟩
  exact rel_exec_of_each (counting.event (stopChannel hg) (stopSession hg)
    (composed_each.arrival hreserve hstart (each_modify fun _ => ⟨rfl, fun _ => rfl⟩)
      (fun s data hbytes => absurd hbytes (he s data))
      fun _ _ _ _ _ => each_modify fun _ => ⟨hg.countOutcome .., fun _ => rfl⟩)) r

end Unheard

/-! ## Bytes that make no frame -/

/-- How often two bytes of a stream are passed over when it is cut into frames. -/
def skips (stream : Bytes) : Nat := (Frame.drain stream).1.countP Frame.Piece.isSkip

theorem skips_nil : skips [] = 0 := by
  have hnone : Frame.next [] = none := rfl
  rw [skips, Frame.drain_of_next_eq_none hnone]
  rfl

/-- The bytes that a session takes in by an event: those that arrive while it runs. -/
def heard (s : SessionRef) (r : Relay) : Event → Bytes
  | .bytes t data => if t = s ∧ (r.session s).running then data else []
  | _ => []

/-- Everything that a session takes in while events happen. -/
def stream (s : SessionRef) (r : Relay) : List Event → Bytes
  | [] => []
  | e :: events => heard s r e ++ stream s (r.step e) events

theorem stream_snoc (s : SessionRef) (r : Relay) (events : List Event) (e : Event) :
    stream s r (events ++ [e]) = stream s r events ++ heard s (r.after events) e := by
  induction events generalizing r with
  | nil => simp [stream]
  | cons first events ih =>
      rw [List.cons_append, stream, ih, stream, List.append_assoc, after_cons]

/-- Of the pieces that come off a stream those that are no frames are counted. -/
theorem resyncs_servePieces {s : SessionRef} (h : Settled r) (hrun : (r.session s).running = true)
    (pieces : List Frame.Piece) :
    ((servePieces s pieces).exec r).metrics.resyncs =
        r.metrics.resyncs + UInt64.ofNat (pieces.countP Frame.Piece.isSkip) ∧
      ∀ t, (((servePieces s pieces).exec r).session t).unread = (r.session t).unread := by
  induction pieces generalizing r with
  | nil => exact ⟨(UInt64.add_zero _).symm, fun _ => rfl⟩
  | cons piece pieces ih =>
      obtain ⟨hsettled, hstill⟩ := h.servePiece hrun piece
      obtain ⟨hcount, hunread⟩ := ih hsettled hstill
      rw [exec_servePieces_cons piece pieces hstill, hcount, List.countP_cons]
      cases piece with
      | skip m1 m2 version =>
          refine ⟨?_, hunread⟩
          rw [UInt64.ofNat_add, UInt64.add_comm (UInt64.ofNat _), ← UInt64.add_assoc]
          rfl
      | frame frame =>
          have hframe : (serveFrame s frame).Each (Unheard Metrics.resyncs) :=
            Unheard.counting.serveFrame
              (Unheard.counting.serveLogin
                (Unheard.count fun _ => rfl) (Unheard.count fun _ => rfl))
              (Unheard.serveProxy ofStreams_resyncs) s frame
          have hsame := rel_exec_of_each hframe r
          refine ⟨?_, fun t => (hunread t).trans (hsame.unread t)⟩
          change ((serveFrame s frame).exec r).metrics.resyncs + _ = _
          rw [hsame.counted]
          rfl

/-- What every session has taken in so far is cut into frames up to what it still has, and the
bytes that were passed over are counted. -/
structure StreamsCounted (streams : SessionRef → Bytes) (r : Relay) : Prop where
  unread : ∀ s, (r.session s).unread = (Frame.drain (streams s)).2
  silent : ∀ s, r.sessions.length ≤ s → streams s = []
  counted : r.metrics.resyncs =
    UInt64.ofNat (∑ s ∈ Finset.range r.sessions.length, skips (streams s))

theorem sum_range_of_eq_add {n m k : Nat} {f g : Nat → Nat} (hm : m < n)
    (hself : g m = f m + k) (hother : ∀ i, i ≠ m → g i = f i) :
    ∑ i ∈ Finset.range n, g i = ∑ i ∈ Finset.range n, f i + k := by
  have heq (i : Nat) : g i = f i + if i = m then k else 0 := by
    by_cases hi : i = m
    · rw [hi, hself, if_pos rfl]
    · rw [hother i hi, if_neg hi, Nat.add_zero]
  simp only [heq, Finset.sum_add_distrib, Finset.sum_ite_eq', Finset.mem_range, hm, if_true]

namespace StreamsCounted

variable {streams : SessionRef → Bytes}

theorem congr {streams' : SessionRef → Bytes} (h : StreamsCounted streams r)
    (hsame : ∀ s, streams' s = streams s) : StreamsCounted streams' r := by
  rwa [funext hsame]

/-- What arrives is cut into frames together with what was left before. -/
theorem bytes {s : SessionRef} (h : StreamsCounted streams r) (hset : Settled r)
    (hrun : (r.session s).running = true) (data : Bytes) :
    StreamsCounted (Function.update streams s (streams s ++ data)) (r.step (.bytes s data)) := by
  have hs := lt_of_running hrun
  obtain ⟨hread, hcut⟩ := Prod.ext_iff.mp (Frame.drain_append (streams s) data)
  rw [← h.unread] at hread hcut
  -- First what is left is replaced, then the new pieces are served.
  have hsame := sameLogins_unread r s (Frame.drain ((r.session s).unread ++ data)).2
  obtain ⟨hcount, hunread⟩ := resyncs_servePieces (hset.sameLogins hsame)
    ((hsame.running s).trans hrun) (r.pieces s data)
  have hlength : (r.step (.bytes s data)).sessions.length = r.sessions.length :=
    (SameSeats.length_sessions (rel_exec_of_each (receive_sameSeats s data) r))
  rw [step_bytes hrun, midway, List.take_length] at hlength ⊢
  generalize (servePieces s (r.pieces s data)).exec _ = r' at hcount hunread hlength ⊢
  refine ⟨fun t => ?_, fun t ht => ?_, ?_⟩
  · rw [hunread, session_modifySession]
    by_cases hst : s = t
    · subst hst
      rw [if_pos ⟨rfl, hs⟩, Function.update_self, hcut]
    · rw [if_neg fun hc => hst hc.1, Function.update_of_ne (Ne.symm hst), h.unread]
  · rw [hlength] at ht
    rw [Function.update_of_ne (Nat.ne_of_gt (Nat.lt_of_lt_of_le hs ht)), h.silent t ht]
  · have hskips : skips (streams s ++ data) =
        skips (streams s) + (r.pieces s data).countP Frame.Piece.isSkip := by
      rw [skips, hread, List.countP_append]
      rfl
    have hsum := sum_range_of_eq_add (f := fun t => skips (streams t))
      (g := fun t => skips (Function.update streams s (streams s ++ data) t)) hs
      (by rw [Function.update_self, hskips]) fun t ht => by rw [Function.update_of_ne ht]
    rw [hlength, hsum, UInt64.ofNat_add, ← h.counted]
    exact hcount

/-- What does not arrive on a stream leaves it alone; a session that begins has heard nothing. -/
theorem unheard (h : StreamsCounted streams r) (hle : r.sessions.length ≤ r'.sessions.length)
    (hs : Unheard Metrics.resyncs r r') : StreamsCounted streams r' where
  unread s := (hs.unread s).trans (h.unread s)
  silent s hlt := h.silent s (Nat.le_trans hle hlt)
  counted := by
    have hnew : ∑ s ∈ Finset.range r'.sessions.length, skips (streams s) =
        ∑ s ∈ Finset.range r.sessions.length, skips (streams s) := by
      refine (Finset.sum_subset (Finset.range_subset_range.mpr hle) fun s _ hs => ?_).symm
      rw [h.silent s (Nat.le_of_not_lt fun hlt => hs (Finset.mem_range.mpr hlt)), skips_nil]
    rw [hs.counted, h.counted, hnew]

end StreamsCounted

theorem length_sessions_step (r : Relay) (e : Event) :
    r.sessions.length ≤ (r.step e).sessions.length := by
  by_cases he : e.Connects
  · have hquiet {p : Op Unit} (hp : p.Each SameChannels) :
        r.sessions.length ≤ (p.exec r).sessions.length := (rel_exec_of_each hp r).sessions
    cases e with
    | connect => exact hquiet (each_bind (accept_sameChannels ..) fun _ => each_pure ())
    | reserve => exact hquiet (each_bind reserveConnection_sameChannels fun _ => each_pure ())
    | begin => exact hquiet (each_bind (startSession_sameChannels ..) fun _ => each_pure ())
    | abandon => exact hquiet releaseConnection_sameChannels
    | bytes | disconnect | datagram | due | closeSession | closeChannel | stopAll | pass
    | sync => exact he.elim
  · exact Nat.le_of_eq (NoneBegun.step r he).length.symm

/-- Over a whole run everything that is passed over in a stream is counted. -/
theorem streamsCounted_after (config : Config) (events : List Event) :
    StreamsCounted (fun s => stream s { config } events) (Relay.after { config } events) := by
  induction events using List.reverseRecOn with
  | nil =>
      refine ⟨fun s => ?_, fun s _ => rfl, rfl⟩
      have hnone : Frame.next [] = none := rfl
      rw [stream, Frame.drain_of_next_eq_none hnone]
      simp [session, Session.vacant]
  | append_singleton events e ih =>
      have hset := settled_after config events
      have hquiet (hs : Unheard Metrics.resyncs (Relay.after { config } events)
          ((Relay.after { config } events).step e))
          (hheard : ∀ s, heard s (Relay.after { config } events) e = []) :
          StreamsCounted (fun s => stream s { config } (events ++ [e]))
            ((Relay.after { config } events).step e) := by
        refine (ih.unheard (length_sessions_step _ e) hs).congr fun s => ?_
        rw [stream_snoc, hheard, List.append_nil]
      rw [after_snoc]
      cases e with
      | bytes s data =>
          by_cases hrun : ((Relay.after { config } events).session s).running = true
          · refine (ih.bytes hset hrun data).congr fun t => ?_
            rw [stream_snoc, heard]
            by_cases hst : s = t
            · subst hst
              rw [if_pos ⟨rfl, hrun⟩, Function.update_self]
            · rw [if_neg fun hc => hst hc.1, Function.update_of_ne (Ne.symm hst), List.append_nil]
          · have hsame := step_bytes_of_ended (Bool.eq_false_iff.mpr hrun) data
            refine hquiet (by rw [hsame]; exact .refl _) fun t => if_neg ?_
            rintro ⟨rfl, ht⟩
            exact hrun ht
      | connect | reserve | begin | abandon | disconnect | datagram | due | closeSession
      | closeChannel | stopAll | pass | sync =>
          refine hquiet (.step ofStreams_resyncs _ fun s data h => ?_) fun _ => rfl
          cases h

end Relay

end PeerRelay
