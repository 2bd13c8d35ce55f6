import PeerRelay.Proofs.Relay.RegistrationRuns
import PeerRelay.Proofs.Relay.Tidying

/-!
# What a stopped channel leaves behind when calls overlap

A channel can be found by its id before it is registered with its sessions, and whoever stops
it then finds nothing to undo. A creation that goes on does not notice. Apart from that, what
somebody takes apart is taken apart to the end: whoever marks a channel as over closes both of
its ends, and whoever takes the entry of its source session takes it off the list. So a stopped
channel that is still registered when nothing is under way any more was entered with a session
after it was stopped.
-/

namespace PeerRelay.Relay

open Steps

section

variable {i : Nat} {g : Agenda} {es : List Errand} {hs : List ChannelRef}

/-! ## Creating a channel -/

/-- Something that an operation knows, and need not see to. -/
def Errand.Idle : Errand → Prop
  | session _ | make .. => True
  | _ => False

/-- There is nothing that an operation must see to. -/
def Agenda.Free (g : Agenda) : Prop := ∀ e ∈ g.todo, e.Idle

/-- Where a creation stands that has made a channel, or was refused. -/
def Agenda.Made (g g' : Agenda) (made : Except Refusal (ChannelRef × SessionRef)) : Prop :=
  g'.Free ∧ ∀ c dst, made = .ok (c, dst) → g'.halted = g.halted ∧ ∃ t, .make c t ∈ g'.todo

/-- A creation that ends well has entered its channel with both sessions. -/
def Agenda.Joined (g : Agenda) (made : Except Refusal (ChannelRef × SessionRef)) : Prop :=
  ∀ c dst, made = .ok (c, dst) → ∀ side, (c, side) ∈ g.entered

theorem Agenda.At.free (hg : g.At es hs) (h : ∀ e ∈ es, e.Idle) : g.Free := by
  rwa [Free, hg.todo_eq]

/-- A session that is found has begun. -/
theorem findDestination_errands (hg : g.At es hs) (id : SessionId) :
    errandProtocol.Follows i
      (fun found g' => g'.At (found.toList.map .session ++ es) hs) (findDestination id) g := by
  refine errands_of_atomic (fun r => .refl r) fun notes r hnote hs' => ?_
  have hsub : es ⊆ (((r.index.get? id).filter fun s => (r.session s).running).toList.map
      .session ++ es) := List.subset_append_right ..
  refine ⟨_, fun e he => ?_, fun _ _ => hg.covers hsub, fun _ _ => hg.closes hsub,
    at_withTodo hg _⟩
  rcases List.mem_append.mp he with he | he
  · obtain ⟨dst, hdst, rfl⟩ := List.mem_map.mp he
    exact .inr (lt_of_running (Option.filter_eq_some_iff.mp (Option.mem_toList.mp hdst)).2)
  · exact .inl (hg.mem he)

theorem bindChannel_errands {src : SessionRef} (hfree : g.Free) (hsrc : .session src ∈ g.todo)
    (id : SessionId) :
    errandProtocol.Follows i (fun bound g' => g.Made g' bound) (bindChannel src id) g := by
  refine Protocol.follows_bind (findDestination_errands ⟨rfl, rfl⟩ id) fun found g' hg => ?_
  cases found with
  | none => exact Protocol.follows_pure ⟨hg.free hfree, nofun⟩
  | some dst =>
      have hidle : ∀ e ∈ Errand.session dst :: g.todo, e.Idle :=
        List.forall_mem_cons.mpr ⟨trivial, hfree⟩
      dsimp only
      split
      · exact Protocol.follows_pure ⟨hg.free hidle, nofun⟩
      · refine Protocol.follows_bind (openChannel_errands hg (List.mem_cons_of_mem _ hsrc)
          List.mem_cons_self) fun c g' h => ?_
        obtain ⟨t, hg⟩ := h
        refine Protocol.follows_pure ⟨hg.free (List.forall_mem_cons.mpr ⟨trivial, hidle⟩),
          fun d u hd => ?_⟩
        cases hd
        exact ⟨hg.halted_eq, t, hg.mem List.mem_cons_self⟩

/-- A creation that ends well has not marked its channel as over. -/
theorem createChannel_errands {src : SessionRef} (hfree : g.Free) (hsrc : .session src ∈ g.todo)
    (id : SessionId) :
    errandProtocol.Follows i (fun created g' => g.Made g' created ∧ g'.Joined created)
      (createChannel src id) g := by
  have hslots {α : Type} {f : Relay → α × Relay}
      (hf : ∀ r, (f r).2.sessions = r.sessions ∧ (f r).2.channels = r.channels ∧
        (f r).2.listed = r.listed) : (atomic f : Op α).Each SameRegister :=
    each_atomic fun r => .of_eq (hf r).1 (hf r).2.1 (hf r).2.2
  have hrelease : releaseSlot.Each SameRegister := hslots fun _ => ⟨rfl, rfl, rfl⟩
  have hreserve : reserveSlot.Each SameRegister :=
    hslots fun r => by split <;> exact ⟨rfl, rfl, rfl⟩
  refine follows_bind_of_same hreserve fun taken => ?_
  cases taken with
  | false =>
      exact follows_bind_of_same (each_read _) fun _ =>
        Protocol.follows_pure ⟨⟨hfree, nofun⟩, nofun⟩
  | true =>
      refine Protocol.follows_bind (bindChannel_errands hfree hsrc id) fun bound g' hg => ?_
      obtain ⟨hfree, hmade⟩ := hg
      cases bound with
      | error refusal =>
          exact follows_bind_of_same hrelease fun _ =>
            Protocol.follows_pure ⟨⟨hfree, nofun⟩, nofun⟩
      | ok made =>
          obtain ⟨c, dst⟩ := made
          obtain ⟨hhalted, t, hmake⟩ := hmade c dst rfl
          refine Protocol.follows_bind (follows_look (T := fun id : ChannelId => id = t.id) hmake
            fun _ h => congrArg Channel.Terms.id h.1.2) fun _ _ h => ?_
          obtain ⟨rfl, rfl⟩ := h
          refine Protocol.follows_bind (listChannel_errands ⟨rfl, hhalted⟩ hmake)
            fun listed g₁ hg => ?_
          cases listed with
          | false =>
              refine follows_bind_of_same hrelease fun _ => ?_
              refine Protocol.follows_bind (stopChannel_errands c) fun _ g₂ h => ?_
              refine follows_bind_of_same (each_read _) fun _ => ?_
              refine Protocol.follows_pure ⟨⟨?_, nofun⟩, nofun⟩
              rw [Agenda.Free, h]
              exact hg.free hfree
          | true =>
              refine Protocol.follows_bind (joinSessions_errands hg hmake) fun joined g₂ hg => ?_
              obtain ⟨hhalted, hg⟩ := hg
              cases joined with
              | error refusal =>
                  refine Protocol.follows_bind (forgetChannel_errands hg hhalted) fun _ g₃ hg => ?_
                  refine Protocol.follows_bind (stopChannel_errands c) fun _ g₄ h => ?_
                  refine Protocol.follows_pure ⟨⟨?_, nofun⟩, nofun⟩
                  rw [Agenda.Free, h]
                  exact hg.free hfree
              | ok u =>
                  obtain ⟨htodo, hentered⟩ := hg
                  refine Protocol.follows_pure ⟨⟨?_, fun d v hd => ?_⟩, fun d v hd => ?_⟩
                  · rw [Agenda.Free, htodo]
                    exact hfree
                  · cases hd
                    exact ⟨hhalted, t, htodo ▸ hmake⟩
                  · cases hd
                    exact hentered

/-! ## Calls share the registrations -/

/-- Operations that begin and end with nothing that they must see to. -/
def TidiesUp (α : Type) (p : Op α) : Prop :=
  ∀ i g, g.Free → errandProtocol.Follows i (fun _ g' => g'.Free) p g

theorem compositional_tidiesUp : Compositional TidiesUp where
  quiet h _ _ hfree := follows_of_same (h.mono fun _ _ => .of_sameChannels) hfree
  bind hp hf i g hfree := Protocol.follows_bind (hp i g hfree) fun a g hfree => hf a i g hfree

theorem stopChannel_tidiesUp (c : ChannelRef) : TidiesUp Unit (stopChannel c) :=
  fun _ _ hfree => (stopChannel_errands c).mono fun _ _ h => by rwa [Agenda.Free, h]

theorem stopSession_tidiesUp (s : SessionRef) : TidiesUp Unit (stopSession s) :=
  fun _ _ hfree => (stopSession_errands s).mono fun _ _ h => by rwa [Agenda.Free, h]

/-- Only a session that is logged in asks for a channel, so the session has begun. -/
theorem serveProxy_tidiesUp (s : SessionRef) (header : Wire.Header) (destination : SessionId) :
    TidiesUp Unit (serveProxy s header destination) := by
  intro i g hfree
  have hquiet {p : Op Unit} (h : p.Each SameChannels) (g : Agenda) (hfree : g.Free) :
      errandProtocol.Follows i (fun _ g' => g'.Free) p g :=
    compositional_tidiesUp.quiet h i g hfree
  have hlook : errandProtocol.Follows i
      (fun session g' => g'.Free ∧ (session.loggedIn = true → .session s ∈ g'.todo))
      (read (·.session s)) g := by
    refine errands_of_atomic (fun r => .refl r) fun notes r hnote hs => ?_
    have hsub : g.todo ⊆ .session s :: g.todo := List.subset_cons_self ..
    by_cases hin : (r.session s).loggedIn = true
    · refine ⟨.session s :: g.todo, fun e he => ?_, fun _ _ => Agenda.At.covers ⟨rfl, rfl⟩ hsub,
        fun _ _ => Agenda.At.closes ⟨rfl, rfl⟩ hsub, List.forall_mem_cons.mpr ⟨trivial, hfree⟩,
        fun _ => List.mem_cons_self⟩
      rcases List.mem_cons.mp he with rfl | he
      · exact .inr (lt_of_loggedIn hin)
      · exact .inl he
    · exact ⟨g.todo, fun _ he => .inl he, fun _ _ h => h, fun _ _ h => h, hfree,
        fun h => absurd h hin⟩
  refine Protocol.follows_bind hlook fun session g hg => ?_
  obtain ⟨hfree, hsession⟩ := hg
  split
  · exact hquiet (push_sameChannels ..) g hfree
  · split
    · exact hquiet (push_sameChannels ..) g hfree
    · rename_i hin
      have hsrc := hsession (by simpa using hin)
      refine Protocol.follows_bind (createChannel_errands hfree hsrc destination)
        fun created g hg => ?_
      split
      · exact hquiet (push_sameChannels ..) g hg.1.1
      · refine hquiet (each_bind (startChannel_sameChannels _) fun _ => ?_) g hg.1.1
        refine each_bind (each_read _) fun _ => each_bind (each_read _) fun _ => ?_
        exact each_bind (push_sameChannels ..) fun _ => push_sameChannels ..

/-- How a call ends: it has nothing to see to, and a channel that it says was made is one that
it has entered with both sessions and has not marked as over. -/
def Agenda.Answered (g : Agenda) (a : Option (Except Refusal (ChannelRef × SessionRef))) : Prop :=
  g.Free ∧ ∀ c dst, a = some (.ok (c, dst)) → g.halted = [] ∧ (∀ side, (c, side) ∈ g.entered) ∧
    ∃ t, .make c t ∈ g.todo

theorem call_errands (call : Call) (i : Nat) :
    errandProtocol.Follows i (fun a g => g.Answered a) call.op {} := by
  have hnothing : Agenda.Free {} := fun e he => by cases he
  have hsilent {p : Op Unit} (h : TidiesUp Unit p) : errandProtocol.Follows i
      (fun a g => g.Answered a) (p >>= fun _ => pure none) {} :=
    Protocol.follows_bind (h i {} hnothing) fun _ _ hfree =>
      Protocol.follows_pure ⟨hfree, nofun⟩
  cases call with
  | event e =>
      exact hsilent (compositional_tidiesUp.event serveProxy_tidiesUp stopChannel_tidiesUp
        stopSession_tidiesUp e)
  | stop c => exact hsilent (stopChannel_tidiesUp c)
  | create src id =>
      have hlook : errandProtocol.Follows i
          (fun begun g => g.At (if begun then [.session src] else []) [])
          (read fun r => decide (src < r.sessions.length)) {} := by
        refine errands_of_atomic (fun r => .refl r) fun notes r hnote hs => ?_
        by_cases hsrc : src < r.sessions.length
        · refine ⟨[.session src], fun e he => ?_, fun _ _ => ?_, fun _ _ => ?_, ?_⟩
          · rw [List.mem_singleton.mp he]
            exact .inr hsrc
          · exact Agenda.At.covers ⟨rfl, rfl⟩ (List.nil_subset _)
          · exact Agenda.At.closes ⟨rfl, rfl⟩ (List.nil_subset _)
          · simp only [hsrc, decide_true, if_true]
            exact ⟨rfl, rfl⟩
        · refine ⟨[], nofun, fun _ _ h => h, fun _ _ h => h, ?_⟩
          simp only [hsrc, decide_false, Bool.false_eq_true, if_false]
          exact ⟨rfl, rfl⟩
      refine Protocol.follows_bind hlook fun begun g hg => ?_
      cases begun with
      | false => exact Protocol.follows_pure ⟨hg.free nofun, nofun⟩
      | true =>
          refine Protocol.follows_bind (createChannel_errands
            (hg.free (List.forall_mem_cons.mpr ⟨trivial, nofun⟩))
            (hg.mem List.mem_cons_self) id) fun created g' h => ?_
          obtain ⟨⟨hfree, hmade⟩, hjoined⟩ := h
          refine Protocol.follows_pure ⟨hfree, fun c dst ha => ?_⟩
          obtain ⟨hhalted, hmake⟩ := hmade c dst (Option.some.inj ha)
          exact ⟨hhalted.trans hg.halted_eq, hjoined c dst (Option.some.inj ha), hmake⟩

end

/-! ## What is left -/

/-- What is left of the channels that are over when all calls have returned. -/
structure NothingLeft (p : Pool Relay Answer) : Prop where
  /-- A channel that is over is registered nowhere, unless it was entered after it was over. -/
  nowhere : ∀ c, (p.state.channel c).stopped = true →
    (∀ t ∈ p.tasks, ∀ m ∈ t.past, ¬ EntersLate c m) → Nowhere c p.state
  /-- Nobody but the listed channels has a slot. -/
  slots_eq : p.state.slots = p.state.listed.size
  /-- A creation that has ended well has entered its channel with the sessions at both ends; when
  it did, the channel was open, unless that was too late. -/
  open_when_entered : ∀ (t : Task Relay Answer) (c : ChannelRef) (dst : SessionRef),
    t ∈ p.tasks → t.result? = some (some (.ok (c, dst))) → (∀ m ∈ t.past, ¬ EntersLate c m) →
    ∀ side, ∃ m ∈ t.past, Enters c side m ∧ (m.found.channel c).stopped = false
  /-- If a channel is over although its creation has ended well, then another call has stopped
  it. -/
  stopped_by_other : ∀ (i : Nat) (t : Task Relay Answer) (c : ChannelRef) (dst : SessionRef),
    p.tasks[i]? = some t → t.result? = some (some (.ok (c, dst))) →
    (p.state.channel c).stopped = true →
    ∃ j, j ≠ i ∧ ∃ u, p.tasks[j]? = some u ∧ ∃ m ∈ u.past, Stops c m

section

variable {p : Pool Relay Answer} {notes : Nat → Agenda} {c : ChannelRef}

/-- What an operation has noted tells of its moves. -/
structure Told (past : List (Move Relay)) (g : Agenda) : Prop where
  entered : ∀ c side, (c, side) ∈ g.entered → ∃ m ∈ past, Enters c side m
  late : ∀ c ∈ g.late, ∃ m ∈ past, EntersLate c m
  halted : ∀ c ∈ g.halted, ∃ m ∈ past, Stops c m

theorem told_of_noted {past : List (Move Relay)} {g : Agenda}
    (h : errandProtocol.Noted {} past g) : Told past g := by
  induction h with
  | nil => exact ⟨nofun, nofun, nofun⟩
  | @snoc past g g' m _ hnotes ih =>
      have hlast {P : Move Relay → Prop} (h : (∃ m ∈ past, P m) ∨ P m) :
          ∃ m' ∈ past ++ [m], P m' := by
        rcases h with ⟨m', hm', hP⟩ | hP
        · exact ⟨m', List.mem_append_left _ hm', hP⟩
        · exact ⟨m, by simp, hP⟩
      constructor
      case entered =>
        intro c side hc
        exact hlast ((hnotes.entered c side hc).imp_left (ih.entered c side))
      case late =>
        intro c hc
        exact hlast ((hnotes.late c hc).imp_left (ih.late c))
      case halted =>
        intro c hc
        exact hlast ((hnotes.halted c hc).imp_left (ih.halted c))

/-- Whoever has noted anything is among the operations. -/
theorem task_of_noted (h : p.Keeps errandProtocol (fun _ => {}) (fun _ a g => g.Answered a) notes)
    {j : Nat} (hj : notes j ≠ {}) : ∃ u, p.tasks[j]? = some u ∧
      errandProtocol.Noted {} u.past (notes j) := by
  by_cases hlt : j < p.tasks.length
  · have hu := List.getElem?_eq_getElem hlt
    exact ⟨_, hu, h.noted j _ hu⟩
  · exact absurd (h.others j (Nat.le_of_not_lt hlt)) hj

theorem nothingLeft_of_keeps
    (h : p.Keeps errandProtocol (fun _ => {}) (fun _ a g => g.Answered a) notes) (hidle : p.idle)
    (hslots : p.state.slots = p.state.listed.size) : NothingLeft p := by
  have htidy : Tidy notes p.state := h.inv
  -- Nobody has anything left to see to but what came too late.
  have hfree (j : Nat) : (notes j).Free := by
    by_cases hlt : j < p.tasks.length
    · have hu := List.getElem?_eq_getElem hlt
      obtain ⟨a, ha⟩ := Option.isSome_iff_exists.mp (hidle _ (List.getElem_mem hlt))
      exact (h.ended hu ha).1
    · rw [h.others j (Nat.le_of_not_lt hlt)]
      exact nofun
  have hcovers (j : Nat) (k : ChannelId) (c : ChannelRef) : ¬ (notes j).Covers k c := by
    rintro ⟨e, he, hcovers⟩
    cases e with
    | session _ | make _ _ | letGo _ _ _ => exact hcovers
    | enter _ _ | unlist _ _ => exact hfree j _ he
  have hcloses (j : Nat) (c : ChannelRef) (side : Side) (hc : (notes j).Closes c side) :
      c ∈ (notes j).late := by
    refine hc.resolve_right ?_
    rintro ⟨e, he, hcloses⟩
    cases e with
    | session _ | make _ _ | enter _ _ | unlist _ _ => exact hcloses
    | letGo _ _ _ => exact hfree j _ he
  constructor
  case slots_eq => exact hslots
  case nowhere =>
    intro c hstopped hlate
    have hentered (side : Side) : ¬ p.state.Entered c side := by
      intro hin
      obtain ⟨j, hj⟩ := htidy.stopped c side hstopped hin
      have hmem := hcloses j c side hj
      obtain ⟨u, hu, hnoted⟩ := task_of_noted h (j := j) (by rintro hnone; simp [hnone] at hmem)
      obtain ⟨m, hm, hc⟩ := (told_of_noted hnoted).late c hmem
      exact hlate u (List.mem_of_getElem? hu) m hm hc
    refine ⟨fun hmem => ?_, fun s side hmem => ?_⟩
    · obtain ⟨k, hk⟩ := Registry.mem_values_iff.mp hmem
      rcases htidy.listed k c hk with hin | ⟨j, hj⟩
      · exact hentered .src hin
      · exact hcovers j k c hj
    · obtain ⟨k, hk⟩ := Registry.mem_values_iff.mp hmem
      obtain ⟨-, rfl, rfl⟩ := htidy.placed s side k c hk
      exact hentered side hk
  case open_when_entered =>
    intro t c dst ht ha hlate side
    obtain ⟨i, hi⟩ := List.getElem?_of_mem ht
    obtain ⟨-, hmade⟩ := h.ended hi ha
    obtain ⟨-, hentered, -⟩ := hmade c dst rfl
    obtain ⟨m, hm, henters⟩ := (told_of_noted (h.noted i t hi)).entered c side (hentered side)
    refine ⟨m, hm, henters, Bool.eq_false_iff.mpr fun hstopped => ?_⟩
    exact hlate m hm ⟨hstopped, side, henters⟩
  case stopped_by_other =>
    intro i t c dst ht ha hstopped
    -- The creation knows the channel that it has made, and has not stopped it itself.
    obtain ⟨-, hmade⟩ := h.ended ht ha
    obtain ⟨hnone, -, terms, hmake⟩ := hmade c dst rfl
    have hknown : (Errand.make c terms).Known p.state := htidy.known i _ hmake
    obtain ⟨j, hj⟩ := htidy.halted c hknown.1.1 hstopped
    have hother : j ≠ i := by
      rintro rfl
      rw [hnone] at hj
      cases hj
    obtain ⟨u, hu, hnoted⟩ := task_of_noted h (j := j) (by rintro hnone; simp [hnone] at hj)
    exact ⟨j, hother, u, hu, (told_of_noted hnoted).halted c hj⟩

end

/-- Whatever is asked of a relay from however many sides, and whoever has which turn: when all
calls have returned, a channel that is over has left its places, unless somebody entered it
after it was over. -/
theorem stopped_registered_nowhere (limits : Config) (calls : List Call) (turns : List Nat)
    (hidle : ((Pool.start { config := limits } (calls.map Call.op)).play turns).idle) :
    NothingLeft ((Pool.start { config := limits } (calls.map Call.op)).play turns) := by
  have hstart : Pool.Keeps errandProtocol (fun _ => {}) (fun _ a g => g.Answered a)
      (Pool.start { config := limits } (calls.map Call.op)) fun _ => {} := by
    refine Pool.keeps_start ?_ fun i op hop => ?_
    · -- On an empty relay there is nothing to see to.
      refine ⟨fun _ => nofun, fun s side k c hc => ?_, nofun, nofun, fun c side _ hin => ?_, nofun⟩
      · cases side <;> cases hc
      · cases side <;> cases hin
    · obtain ⟨-, c, rfl⟩ := op_of_getElem? hop
      exact call_errands c i
  obtain ⟨notes, hkeeps⟩ := hstart.play turns
  obtain ⟨_, hslots⟩ := calls_keep_slots limits calls turns
  exact nothingLeft_of_keeps hkeeps hidle ((accounted_of_keeps hslots).idle_eq hidle)

/-- Two clients log in, and the second asks to be joined to the first. Somebody else closes the
first channel by its id. -/
def contested : List Call :=
  linked.dropLast.map .event ++ [.create 1 1000, .event (.closeChannel 1)]

/-- The first four calls are over before the others begin. Of these the creation has so many
turns before the other gets in between. -/
def closingAfter (n : Nat) : List Nat :=
  (List.range 4).flatMap (List.replicate 20) ++ List.replicate n 4 ++ List.replicate 20 5 ++
    List.replicate 20 4

/-- The relay and its calls after that. -/
def contestedAfter (n : Nat) : Pool Relay Answer :=
  (Pool.start {} (contested.map Call.op)).play (closingAfter n)

/-- If the channel is closed when it is in all its places, nothing of it is left. -/
theorem stopped_registered_nowhere_contested :
    (contestedAfter 10).idle ∧ ((contestedAfter 10).state.channel 0).stopped = true ∧
      (∀ t ∈ (contestedAfter 10).tasks, ∀ m ∈ t.past, ¬ EntersLate 0 m) ∧
      NothingLeft (contestedAfter 10) := by
  have hidle : (contestedAfter 10).idle := by decide +kernel
  exact ⟨hidle, by decide +kernel, by decide +kernel,
    stopped_registered_nowhere {} contested (closingAfter 10) hidle⟩

/-- If the channel is closed when it is listed and not entered yet, it is over and in all its
places for good, and its creation ends well. -/
theorem closed_channel_stays_registered :
    (contestedAfter 6).idle ∧ ((contestedAfter 6).state.channel 0).stopped = true ∧
      (contestedAfter 6).results[4]? = some (some (some (.ok (0, 0)))) ∧
      (contestedAfter 6).state.listed.get? 1 = some 0 ∧
      (contestedAfter 6).state.channelAt? 1 .src 1 = some 0 ∧
      (contestedAfter 6).state.channelAt? 0 .dst 1 = some 0 ∧ (contestedAfter 6).state.slots = 1 ∧
      ¬ Nowhere 0 (contestedAfter 6).state := by
  have hlisted : 0 ∈ (contestedAfter 6).state.listed.values := by decide +kernel
  exact ⟨by decide +kernel, by decide +kernel, by decide +kernel, by decide +kernel,
    by decide +kernel, by decide +kernel, by decide +kernel, fun h => h.listed hlisted⟩

end PeerRelay.Relay
