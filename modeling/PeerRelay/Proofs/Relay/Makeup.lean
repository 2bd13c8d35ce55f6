import PeerRelay.Proofs.Steps
import PeerRelay.Relay.Event

/-!
# What the operations are made of

The larger operations of a relay are put together from small ones that do one thing each.
What has to be shown of the small ones for the large one to have a property, too, is written
down here once for every property that is handed on in this way. Only what is said here hangs
on how an operation is put together.
-/

namespace PeerRelay.Relay

open Steps
open Wire (Frame Header)

/-! ## Parts -/

/-- What the one who has claimed the stop of a channel does. -/
def tearDown (c : ChannelRef) : Op Unit := do
  let channel ← .read (·.channel c)
  closeEnd channel.id .src channel.src
  closeEnd channel.id .dst channel.dst
  retireChannel c
  countClosed c

theorem stopChannel_eq (c : ChannelRef) :
    stopChannel c = claimStop c >>= fun first => if first then tearDown c else pure () := rfl

/-- What is left to do for a channel that was made: it is listed and joined to its sessions,
or else it is stopped. -/
def placeChannel (src : SessionRef) (c : ChannelRef) (dst : SessionRef) :
    Op (Except Refusal (ChannelRef × SessionRef)) := do
  let id ← idOfChannel c
  if ← listChannel id c then
    match ← joinSessions c with
    | .error refusal =>
      forgetChannel id
      stopChannel c
      return .error refusal
    | .ok () => return .ok (c, dst)
  else
    releaseSlot
    stopChannel c
    return .error (.registration id (← .read fun r => (r.session src).id))

/-- Takes a channel off the list and stops it. -/
def discardChannel (c : ChannelRef) : Op Unit := do
  forgetChannel (← idOfChannel c)
  stopChannel c

/-- Stops every channel that a session takes part in. -/
def stopChannels (s : SessionRef) : Op Unit := do
  (← takeChannels s .src).forM discardChannel
  (← takeChannels s .dst).forM stopChannel

/-- What the one who has claimed the end of a session does. -/
theorem stopSession_eq (s : SessionRef) :
    stopSession s = claimEnd s >>= fun first =>
      if first then (do
        .modify (·.disarm (.login s))
        stopChannels s
        dismiss s
        detach s)
      else pure () := by
  simp only [stopSession, stopChannels, bind_assoc]
  rfl

/-! ## Properties that are handed on -/

/-- A property of operations that those have which change nothing, and that operations one
after another have if each of them has it. -/
structure Composed (T : (α : Type) → Op α → Prop) : Prop where
  pure : ∀ {α : Type} (a : α), T α (Pure.pure a)
  look : ∀ {α : Type} (g : Relay → α), T α (.read g)
  bind : ∀ {α β : Type} {p : Op α} {f : α → Op β}, T α p → (∀ a, T β (f a)) → T β (p >>= f)

/-- A relation that holds across every step. -/
theorem composed_each {R : Relay → Relay → Prop} [Std.Refl R] :
    Composed fun _ p => p.Each R where
  pure := each_pure
  look := each_read
  bind := each_bind

/-- What comes in from outside: connections and what is sent over them, and datagrams. -/
def Event.Arrives : Event → Prop
  | .connect .. | .reserve | .begin .. | .abandon | .bytes .. | .datagram .. => True
  | _ => False

namespace Composed

variable {T : (α : Type) → Op α → Prop} (h : Composed T)

include h

theorem read {α β : Type} {g : Relay → α} {f : α → Op β} (hf : ∀ a, T β (f a)) :
    T β (Steps.read g >>= f) := h.bind (h.look g) hf

theorem forM {α : Type} {f : α → Op Unit} (hf : ∀ a, T Unit (f a)) :
    ∀ xs : List α, T Unit (xs.forM f)
  | [] => h.pure ()
  | a :: xs => h.bind (hf a) fun _ => forM hf xs

/-! ### Channels -/

theorem forgetChannel (hrelease : T Unit releaseSlot) {id : ChannelId}
    (hunlist : T Bool (unlistChannel id)) : T Unit (forgetChannel id) := by
  refine h.bind hunlist fun listed => ?_
  split
  · exact hrelease
  · exact h.pure ()

theorem register {s : SessionRef} {side : Side} {id : ChannelId} {c : ChannelRef}
    (henter : T Bool (enter s side id c)) (hleave : T Bool (leave s side id)) :
    T Bool (register s side id c) := by
  refine h.bind henter fun entered => ?_
  split
  · refine h.read fun running => ?_
    split
    · exact h.pure true
    · exact h.bind hleave fun _ => h.pure false
  · exact h.pure false

theorem joinSessions
    (hregister : ∀ s side id c, T Bool (Relay.register s side id c))
    (hleave : ∀ s side id, T Bool (leave s side id)) (c : ChannelRef) :
    T _ (joinSessions c) := by
  refine h.read fun channel => h.bind (hregister ..) fun first => ?_
  split
  · refine h.bind (hregister ..) fun second => ?_
    split
    · exact h.pure _
    · exact h.bind (hleave ..) fun _ => h.read fun _ => h.pure _
  · exact h.read fun _ => h.pure _

theorem notifyStop {s : SessionRef} {id : ChannelId} {relay : SocketAddr}
    (hpush : T Unit (push s (.fresh .stopProxy) (stopNotice id relay))) :
    T Unit (notifyStop s id relay) := by
  refine h.read fun running => ?_
  split
  · exact hpush
  · exact h.pure ()

theorem closeEnd {id : ChannelId} {side : Side} {e : Channel.Endpoint}
    (hleave : T Bool (leave e.session side id)) (hforget : T Unit (Relay.forgetChannel id))
    (hnotify : T Unit (Relay.notifyStop e.session id e.relay)) :
    T Unit (closeEnd id side e) := by
  refine h.bind hleave fun left => ?_
  split
  · split
    · exact h.bind hforget fun _ => hnotify
    · exact hnotify
  · exact h.pure ()

theorem tearDown {c : ChannelRef} (hclose : ∀ id side e, T Unit (Relay.closeEnd id side e))
    (hretire : T Unit (retireChannel c)) (hclosed : T Unit (countClosed c)) :
    T Unit (tearDown c) :=
  h.read fun _ => h.bind (hclose ..) fun _ => h.bind (hclose ..) fun _ =>
    h.bind hretire fun _ => hclosed

theorem stopChannel {c : ChannelRef} (hclaim : T Bool (claimStop c))
    (htear : T Unit (Relay.tearDown c)) : T Unit (stopChannel c) := by
  rw [stopChannel_eq]
  refine h.bind hclaim fun first => ?_
  split
  · exact htear
  · exact h.pure ()

/-- A channel is made for two sessions only, and not for one with itself. -/
theorem bindChannel {src : SessionRef}
    (hopen : ∀ dst, dst ≠ src → T ChannelRef (openChannel src dst)) (id : SessionId) :
    T _ (bindChannel src id) := by
  refine h.read fun found => ?_
  split
  · exact h.pure _
  · split
    · exact h.pure _
    · rename_i hne
      exact h.bind (hopen _ hne) fun _ => h.pure _

theorem placeChannel (hrelease : T Unit releaseSlot)
    (hlist : ∀ id c, T Bool (listChannel id c)) (hjoin : ∀ c, T _ (Relay.joinSessions c))
    (hforget : ∀ id, T Unit (Relay.forgetChannel id)) (hstop : ∀ c, T Unit (Relay.stopChannel c))
    (src : SessionRef) (c : ChannelRef) (dst : SessionRef) : T _ (placeChannel src c dst) := by
  refine h.read fun id => h.bind (hlist id c) fun listed => ?_
  split
  · refine h.bind (hjoin c) fun joined => ?_
    split
    · exact h.bind (hforget id) fun _ => h.bind (hstop c) fun _ => h.pure _
    · exact h.pure _
  · exact h.bind hrelease fun _ => h.bind (hstop c) fun _ => h.read fun _ => h.pure _

theorem createChannel {src : SessionRef} (hreserve : T Bool reserveSlot)
    (hrelease : T Unit releaseSlot)
    (hopen : ∀ dst, dst ≠ src → T ChannelRef (openChannel src dst))
    (hlist : ∀ id c, T Bool (listChannel id c)) (hjoin : ∀ c, T _ (Relay.joinSessions c))
    (hforget : ∀ id, T Unit (Relay.forgetChannel id)) (hstop : ∀ c, T Unit (Relay.stopChannel c))
    (id : SessionId) : T _ (createChannel src id) := by
  refine h.bind hreserve fun reserved => ?_
  split
  · refine h.bind (h.bindChannel hopen id) fun bound => ?_
    split
    · exact h.bind hrelease fun _ => h.pure _
    · exact h.placeChannel hrelease hlist hjoin hforget hstop ..
  · exact h.read fun _ => h.pure _

/-! ### Sessions -/

theorem accept (hreserve : T Bool reserveConnection)
    (hstart : ∀ role peer localAddr held, T SessionRef (startSession role peer localAddr held))
    (role : Role) (peer localAddr : SocketAddr) (held : Bool) :
    T _ (accept role peer localAddr held) := by
  refine h.bind hreserve fun reserved => ?_
  split
  · exact h.bind (hstart ..) fun _ => h.pure _
  · exact h.pure none

theorem discardChannel (hforget : ∀ id, T Unit (Relay.forgetChannel id))
    (hstop : ∀ c, T Unit (Relay.stopChannel c)) (c : ChannelRef) : T Unit (discardChannel c) :=
  h.read fun id => h.bind (hforget id) fun _ => hstop c

theorem stopChannels (htake : ∀ s side, T _ (takeChannels s side))
    (hdiscard : ∀ c, T Unit (Relay.discardChannel c)) (hstop : ∀ c, T Unit (Relay.stopChannel c))
    (s : SessionRef) : T Unit (stopChannels s) :=
  h.bind (htake s .src) fun cs => h.bind (h.forM hdiscard cs) fun _ =>
    h.bind (htake s .dst) fun cs => h.forM hstop cs

theorem dismiss {s : SessionRef} (hclear : T Bool (clearLogin s))
    (hguid : ∀ guid, T Unit (releaseGuid guid)) (hindex : ∀ id, T Unit (unindexSession id))
    (hqueue : ∀ op, T Unit (enqueue op)) : T Unit (dismiss s) := by
  refine h.bind hclear fun was => ?_
  split
  · refine h.read fun session => h.bind (hguid _) fun _ => ?_
    split
    · exact h.bind (hindex _) fun _ => hqueue _
    · exact h.pure ()
  · exact h.pure ()

theorem detach {s : SessionRef} (hdrop : T Bool (dropLive s))
    (hrelease : T Unit releaseConnection)
    (hcount : T Unit (.modify (·.count Metrics.sessionClosed))) : T Unit (detach s) := by
  refine h.bind hdrop fun dropped => ?_
  split
  · exact h.bind hrelease fun _ => hcount
  · exact h.pure ()

theorem stopSession {s : SessionRef} (hclaim : T Bool (claimEnd s))
    (hdisarm : T Unit (.modify (·.disarm (.login s)))) (hstop : T Unit (Relay.stopChannels s))
    (hdismiss : T Unit (Relay.dismiss s)) (hdetach : T Unit (Relay.detach s)) :
    T Unit (stopSession s) := by
  rw [stopSession_eq]
  refine h.bind hclaim fun first => ?_
  split
  · exact h.bind hdisarm fun _ => h.bind hstop fun _ => h.bind hdismiss fun _ => hdetach
  · exact h.pure ()

theorem logIn {s : SessionRef} (hreserve : ∀ guid, T Bool (reserveGuid guid))
    (htake : T SessionId takeSessionId) (hindex : ∀ id, T Bool (indexSession id s))
    (hqueue : ∀ op, T Unit (enqueue op)) (hguid : ∀ guid, T Unit (releaseGuid guid))
    (hin : T Unit (.modify (·.count Metrics.loginSucceeded)))
    (hout : T Unit (.modify (·.count Metrics.loginRefused))) (guid : Guid) :
    T _ (logIn s guid) := by
  refine h.bind (hreserve guid) fun reserved => ?_
  split
  · refine h.bind htake fun id => h.read fun session => ?_
    split
    · refine h.bind (hindex id) fun indexed => ?_
      split
      · exact h.bind (hqueue _) fun _ => h.bind hin fun _ => h.pure _
      · exact h.bind (hguid guid) fun _ => h.bind hout fun _ => h.pure _
    · exact h.bind hin fun _ => h.pure _
  · exact h.bind hout fun _ => h.pure _

/-! ### Requests -/

theorem refuseMalformed {s : SessionRef} {header : Header}
    (hpush : ∀ response, T Unit (push s header response)) :
    T Unit (refuseMalformed s header) := by
  unfold Relay.refuseMalformed
  split
  · exact h.read fun _ => hpush _
  · exact hpush _
  · exact h.pure ()

theorem serveLogin {s : SessionRef} {header : Header}
    (hpush : ∀ response, T Unit (push s header response))
    (hlogIn : ∀ guid, T _ (Relay.logIn s guid))
    (hrecord : ∀ id guid privateAddr, T Unit (recordIdentity s id guid privateAddr))
    (hmark : T Unit (markLoggedIn s)) (hdisarm : T Unit (.modify (·.disarm (.login s))))
    (hdismiss : T Unit (Relay.dismiss s)) (guid : Guid) (privateAddr : Ipv4) :
    T Unit (serveLogin s header guid privateAddr) := by
  refine h.read fun session => ?_
  split
  · exact hpush _
  · refine h.bind (hlogIn guid) fun result => ?_
    split
    · exact h.read fun _ => hpush _
    · refine h.bind (hrecord ..) fun _ => h.bind hmark fun _ => h.bind hdisarm fun _ => ?_
      refine h.bind (hpush _) fun _ => h.read fun running => ?_
      split
      · exact hdismiss
      · exact h.pure ()

theorem serveProxy (hpush : ∀ s header response, T Unit (push s header response))
    (hcreate : ∀ src id, T _ (Relay.createChannel src id)) (hstart : ∀ c, T Unit (startChannel c))
    (s : SessionRef) (header : Header) (destination : SessionId) :
    T Unit (serveProxy s header destination) := by
  refine h.read fun session => ?_
  split
  · exact hpush ..
  · split
    · exact hpush ..
    · refine h.bind (hcreate s destination) fun created => ?_
      split
      · exact hpush ..
      · refine h.bind (hstart _) fun _ => h.read fun channel => h.read fun session => ?_
        exact h.bind (hpush ..) fun _ => hpush ..

theorem serveFrame
    (hlogin : ∀ s header guid privateAddr, T Unit (Relay.serveLogin s header guid privateAddr))
    (hproxy : ∀ s header destination, T Unit (Relay.serveProxy s header destination))
    (hpeers : ∀ s header, T Unit (servePeers s header))
    (hrefuse : ∀ s header, T Unit (Relay.refuseMalformed s header))
    (s : SessionRef) (frame : Frame) : T Unit (serveFrame s frame) := by
  unfold Relay.serveFrame
  split
  · exact h.pure ()
  · exact hlogin ..
  · exact hproxy ..
  · exact hpeers ..
  · exact hrefuse ..
  · exact h.pure ()

theorem servePieces {s : SessionRef} (hpiece : ∀ piece, T Unit (servePiece s piece))
    (pieces : List Frame.Piece) : T Unit (servePieces s pieces) := by
  induction pieces with
  | nil => exact h.pure ()
  | cons piece pieces ih =>
      refine h.bind (hpiece piece) fun _ => h.read fun running => ?_
      split
      · exact ih
      · exact h.pure ()

theorem receive {s : SessionRef}
    (hunread : ∀ unread, T Unit (.modify (·.modifySession s ({ · with unread }))))
    (hframe : ∀ frame, T Unit (Relay.serveFrame s frame))
    (hskip : T Unit (.modify (·.count Metrics.resynced))) (data : Bytes) :
    T Unit (receive s data) := by
  have hpiece (piece : Frame.Piece) : T Unit (servePiece s piece) := by
    cases piece with
    | frame frame => exact hframe frame
    | skip => exact hskip
  refine h.read fun session => ?_
  split
  · exact h.bind (hunread _) fun _ => h.servePieces hpiece _
  · exact h.pure ()

/-! ### Events -/

/-- What comes in is about a connection, comes over one, or is a datagram. -/
theorem arrival (hreserve : T Bool reserveConnection)
    (hstart : ∀ role peer localAddr held, T SessionRef (startSession role peer localAddr held))
    (hrelease : T Unit releaseConnection) {e : Event}
    (hbytes : ∀ s data, e = .bytes s data → T Unit (Relay.receive s data))
    (hdatagram : ∀ c side sender data, e = .datagram c side sender data →
      T Unit (datagram c side sender data)) (he : e.Arrives) : T Unit e.op := by
  cases e with
  | connect role peer localAddr =>
      exact h.bind (h.accept hreserve hstart role peer localAddr false) fun _ => h.pure ()
  | reserve => exact h.bind hreserve fun _ => h.pure ()
  | begin role peer localAddr => exact h.bind (hstart ..) fun _ => h.pure ()
  | abandon => exact hrelease
  | bytes s data => exact hbytes s data rfl
  | datagram c side sender data => exact hdatagram c side sender data rfl
  | disconnect | due | closeSession | closeChannel | stopAll | pass | sync => exact he.elim

/-- What happens to a relay from within, and from those who run it, is the end of channels and
sessions, the reports, and the passing of time. -/
theorem event (hstop : ∀ c, T Unit (Relay.stopChannel c))
    (hsession : ∀ s, T Unit (Relay.stopSession s)) (hreport : ∀ c, T Unit (report c))
    (hpass : ∀ nanoseconds, T Unit (Event.pass nanoseconds).op) (hsync : T Unit Event.sync.op)
    {e : Event} (harrive : e.Arrives → T Unit e.op) : T Unit e.op := by
  cases e with
  | connect | reserve | begin | abandon | bytes | datagram => exact harrive trivial
  | disconnect s => exact hsession s
  | due duty =>
      cases duty with
      | login s =>
          refine h.read fun loggedIn => ?_
          split
          · exact hsession s
          · exact h.pure ()
      | poll c =>
          refine h.read fun expired => ?_
          split
          · exact hstop c
          · exact h.pure ()
      | report c => exact hreport c
  | closeSession id =>
      refine h.bind (h.read fun found => ?_) fun _ => h.pure ()
      split
      · exact h.pure false
      · exact h.bind (hsession _) fun _ => h.pure true
  | closeChannel id =>
      refine h.bind (h.read fun found => ?_) fun _ => h.pure ()
      split
      · exact h.pure false
      · exact h.bind (hstop _) fun _ => h.pure true
  | stopAll => exact h.read fun live => h.forM hsession live
  | pass nanoseconds => exact hpass nanoseconds
  | sync => exact hsync

end Composed

end PeerRelay.Relay
