import PeerRelay.Proofs.Relay.Errands

/-!
# What operations see to

What the operations on channels note on their agendas, one function after another. Whoever marks
a channel as over is to make both of its sessions let go of it, and does so. Whoever takes the
entry of its source session is to take it off the list, and does so. So an operation that stops a
channel, or ends a session, has at its end nothing to see to that it had not before.
-/

namespace PeerRelay.Relay

open Steps

section

variable {r : Relay} {notes : Nat → Agenda} {i : Nat} {g : Agenda} {c : ChannelRef}
  {e : Errand} {es : List Errand} {hs : List ChannelRef} {s : SessionRef} {side : Side}
  {k : ChannelId} {t : Channel.Terms} {c' : ChannelRef}

/-! ## Where an operation stands -/

/-- What is on an agenda, and what its operation has marked as over. -/
structure Agenda.At (g : Agenda) (todo : List Errand) (halted : List ChannelRef) : Prop where
  todo_eq : g.todo = todo
  halted_eq : g.halted = halted

/-- What there is to be done at the source only. -/
def onSource (side : Side) (e : Errand) (es : List Errand) : List Errand :=
  if side = .src then e :: es else es

/-- These errands, and perhaps one more. -/
def Perhaps (e : Errand) (es todo : List Errand) : Prop := todo = es ∨ todo = e :: es

theorem Agenda.At.mem (hg : g.At es hs) (he : e ∈ es) : e ∈ g.todo := hg.todo_eq ▸ he

/-- Nothing is dropped from an agenda that only grows. -/
theorem Agenda.At.covers (hg : g.At es hs) {todo : List Errand} (hsub : es ⊆ todo)
    (h : g.Covers k c) : (g.withTodo todo).Covers k c := by
  obtain ⟨x, hx, hcovers⟩ := h
  exact ⟨x, hsub (hg.todo_eq ▸ hx), hcovers⟩

theorem Agenda.At.closes (hg : g.At es hs) {todo : List Errand} (hsub : es ⊆ todo)
    (h : g.Closes c side) : (g.withTodo todo).Closes c side := by
  refine h.imp_right ?_
  rintro ⟨x, hx, hcloses⟩
  exact ⟨x, hsub (hg.todo_eq ▸ hx), hcloses⟩

theorem at_withTodo (hg : g.At es hs) (todo : List Errand) : (g.withTodo todo).At todo hs :=
  ⟨rfl, hg.halted_eq⟩

theorem covers_cons : (g.withTodo (e :: es)).Covers k c ↔
    e.Covers k c ∨ (g.withTodo es).Covers k c :=
  List.exists_mem_cons_iff ..

theorem closes_cons : (g.withTodo (e :: es)).Closes c side ↔
    e.Closes c side ∨ (g.withTodo es).Closes c side := by
  rw [Agenda.Closes, Agenda.withTodo, List.exists_mem_cons_iff, or_left_comm]
  rfl

theorem withTodo_eq (hg : g.At es hs) : g.withTodo es = g := by
  cases g
  cases hg.todo_eq
  rfl

theorem follows_atomic_of_moves {α : Type} {f : Relay → α × Relay} {Q : α → Agenda → Prop}
    (h : ∀ notes r, notes i = g → Tidy notes r → ∃ g',
      errandProtocol.Notes g ⟨r, fun r => (f r).2⟩ g' ∧ Moves g g' r (f r).2 ∧ Q (f r).1 g') :
    errandProtocol.Follows i Q (atomic f) g := by
  refine Protocol.follows_atomic fun notes r hg hs => ?_
  obtain ⟨g', hnotes, hm, hQ⟩ := h notes r hg hs
  exact ⟨g', hnotes, hs.step hg hm, hQ⟩

/-- What an operation knows is so. -/
theorem Tidy.knows (h : Tidy notes r) (hg : notes i = g) (he : e ∈ g.todo) : e.Known r :=
  h.known i e (hg ▸ he)

/-- What an operation reads agrees with what it knows. -/
theorem follows_look {α : Type} {f : Relay → α} {T : α → Prop} (he : e ∈ g.todo)
    (hf : ∀ r, e.Known r → T (f r)) :
    errandProtocol.Follows i (fun x g' => T x ∧ g' = g) (read f) g := by
  refine errands_of_atomic (fun r => .refl r) fun notes r hg hs => ⟨g.todo, fun e he => .inl he,
    fun _ _ h => h, fun _ _ h => h, hf r (hs.knows hg he), rfl⟩

/-- An operation keeps its note over steps that leave the registrations alone. -/
theorem follows_of_same {α : Type} {p : Op α} {P : Agenda → Prop} (hp : p.Each SameRegister)
    (hg : P g) : errandProtocol.Follows i (fun _ g' => P g') p g :=
  (errands_of_same hp i g).mono fun _ _ h => h ▸ hg

theorem follows_bind_of_same {α β : Type} {p : Op α} {f : α → Op β} {Q : β → Agenda → Prop}
    (hp : p.Each SameRegister) (h : ∀ a, errandProtocol.Follows i Q (f a) g) :
    errandProtocol.Follows i Q (p >>= f) g :=
  Protocol.follows_bind_of_kept (errands_of_same hp i g) h

/-! ## Making and listing -/

theorem openChannel_errands {src dst : SessionRef} (hg : g.At es hs)
    (hsrc : .session src ∈ es) (hdst : .session dst ∈ es) :
    errandProtocol.Follows i (fun c g' => ∃ t, g'.At (.make c t :: es) hs)
      (openChannel src dst) g := by
  refine follows_atomic_of_moves fun notes r hnote hs => ?_
  have hknown (s : SessionRef) (hmem : Errand.session s ∈ es) : (Errand.session s).Known r :=
    hs.knows hnote (hg.todo_eq ▸ hmem)
  refine ⟨g.withTodo (.make r.channels.length (r.newChannel src dst).terms :: es),
    honest_of_same rfl rfl rfl, moves_opened hs (fun e he => ?_)
      (fun _ _ => hg.covers (List.subset_cons_self ..))
      (fun _ _ => hg.closes (List.subset_cons_self ..)) fun _ h => h, _, at_withTodo hg _⟩
  rcases List.mem_cons.mp he with rfl | he
  · refine .inr ⟨⟨by simp [addChannel], congrArg Channel.terms (channel_openChannel r src dst)⟩,
      fun side => ?_⟩
    cases side with
    | src => exact hknown src hsrc
    | dst => exact hknown dst hdst
  · exact .inl (hg.mem he)

/-- Whoever lists a channel is to enter it with its source session. -/
theorem listChannel_errands (hg : g.At es hs) (hmake : .make c t ∈ es) :
    errandProtocol.Follows i
      (fun listed g' => g'.At (if listed then .enter c t :: es else es) hs)
      (listChannel t.id c) g := by
  refine follows_atomic_of_moves fun notes r hnote hs => ?_
  have hknown : (Errand.make c t).Known r := hs.knows hnote (hg.todo_eq ▸ hmake)
  cases hinsert : r.listed.insert? t.id c with
  | some listed =>
      refine ⟨g.withTodo (.enter c t :: es), honest_of_same rfl rfl rfl,
        moves_listed hinsert hknown.1 rfl (fun e he => ?_)
          (fun _ _ => hg.covers (List.subset_cons_self ..)) (covers_cons.mpr (.inl ⟨rfl, rfl⟩))
          (fun _ _ => hg.closes (List.subset_cons_self ..)) fun _ h => h, at_withTodo hg _⟩
      rcases List.mem_cons.mp he with rfl | he
      · exact .inr (Errand.Known.steady (e := .enter c t) hknown (steady_of_channels rfl rfl))
      · exact .inl (hg.mem he)
  | none =>
      refine ⟨g, honest_of_same rfl rfl rfl, ?_, hg⟩
      exact (SameRegister.refl r).moves (fun e he => .inl he) (fun _ _ h => h) (fun _ _ h => h)
        fun _ h => h

/-! ## Entering and letting go -/

/-- An entry is made too late if the channel is over by then. -/
def Agenda.entering (g : Agenda) (c : ChannelRef) (side : Side) (r : Relay)
    (todo : List Errand) : Agenda where
  todo
  entered := (c, side) :: g.entered
  late := if (r.channel c).stopped then c :: g.late else g.late
  halted := g.halted

theorem closes_entering {todo : List Errand} {side' : Side}
    (h : (g.withTodo todo).Closes c' side') : (g.entering c side r todo).Closes c' side' := by
  refine h.imp_left fun hlate => ?_
  rw [Agenda.entering]
  split
  · exact List.mem_cons_of_mem _ hlate
  · exact hlate

theorem honest_entering {todo : List Errand} {entries : Registry ChannelId ChannelRef}
    {act : Relay → Relay} (hs : s < r.sessions.length)
    (hfree : c ∉ ((r.session s).channels side).values)
    (hinsert : ((r.session s).channels side).insert? k c = some entries)
    (hact : act r = r.withEntries s side entries) :
    Honest g ⟨r, act⟩ (g.entering c side r todo) := by
  have henters : Enters c side ⟨r, act⟩ := by
    refine ⟨s, hfree, ?_⟩
    change c ∈ (((act r).session s).channels side).values
    rw [hact, channels_withEntries hs, if_pos ⟨rfl, rfl⟩, Registry.mem_values_iff]
    exact ⟨k, by rw [Registry.get?_of_insert? hinsert, if_pos rfl]⟩
  constructor
  case entered =>
    intro d side' hd
    rcases List.mem_cons.mp hd with hd | hd
    · cases hd
      exact .inr henters
    · exact .inl hd
  case late =>
    intro d hd
    rw [Agenda.entering] at hd
    dsimp only at hd
    split at hd
    · rcases List.mem_cons.mp hd with rfl | hd
      · exact .inr ⟨‹_›, side, henters⟩
      · exact .inl hd
    · exact .inl hd
  case halted =>
    intro d hd
    exact .inl hd

/-- A channel is entered under its own id only. -/
theorem Tidy.not_entered (h : Tidy notes r) (hid : (r.channel c).id = k)
    (hfree : k ∉ ((r.session s).channels side).keys) :
    c ∉ ((r.session s).channels side).values := by
  rw [Registry.mem_values_iff]
  rintro ⟨k', hk'⟩
  obtain ⟨-, hid', -⟩ := h.placed s side k' c hk'
  exact hfree (Registry.mem_keys_iff.mpr ⟨c, by rwa [← hid, hid']⟩)

theorem mem_onSource_of_mem {x : Errand} (h : x ∈ es) : x ∈ onSource side e es := by
  rw [onSource]
  split
  · exact List.mem_cons_of_mem _ h
  · exact h

theorem covers_onSource : (g.withTodo (onSource side e es)).Covers k c ↔
    (side = .src ∧ e.Covers k c) ∨ (g.withTodo es).Covers k c := by
  rw [onSource]
  split
  · rw [covers_cons]
    exact or_congr_left (and_iff_right ‹_›).symm
  · exact (or_iff_right fun h => ‹side ≠ .src› h.1).symm

theorem closes_onSource {side' : Side} : (g.withTodo (onSource side e es)).Closes c side' ↔
    (side = .src ∧ e.Closes c side') ∨ (g.withTodo es).Closes c side' := by
  rw [onSource]
  split
  · rw [closes_cons]
    exact or_congr_left (and_iff_right ‹_›).symm
  · exact (or_iff_right fun h => ‹side ≠ .src› h.1).symm

/-- Whoever cannot enter a channel with its source session is to take it off the list. -/
theorem enter_errands (hg : g.At (onSource side (.enter c t) es) hs) (hmake : .make c t ∈ es) :
    errandProtocol.Follows i
      (fun entered g' => g'.At (if entered then es else onSource side (.unlist c t) es) hs ∧
        (entered = true → g'.entered = (c, side) :: g.entered))
      (enter (t.session side) side t.id c) g := by
  refine follows_atomic_of_moves fun notes r hnote hs => ?_
  have hsub (e : Errand) (he : e ∈ es) : e ∈ g.todo := hg.todo_eq ▸ mem_onSource_of_mem he
  have hknown : (Errand.make c t).Known r := hs.knows hnote (hsub _ hmake)
  obtain ⟨hc, hsessions⟩ := hknown
  have hcovers (k : ChannelId) (d : ChannelRef) (h : g.Covers k d) :
      (side = .src ∧ d = c ∧ k = t.id) ∨ (g.withTodo es).Covers k d := by
    rw [← withTodo_eq hg, covers_onSource] at h
    exact h.imp_left fun h => ⟨h.1, h.2.1.symm, h.2.2.symm⟩
  have hcloses (d : ChannelRef) (side' : Side) (h : g.Closes d side') :
      (g.withTodo es).Closes d side' := by
    rw [← withTodo_eq hg, closes_onSource] at h
    exact h.resolve_left fun h => h.2
  cases hinsert : ((r.session (t.session side)).channels side).insert? t.id c with
  | some entries =>
      have hid : (r.channel c).id = t.id := congrArg Channel.Terms.id hc.2
      have hfree : t.id ∉ ((r.session (t.session side)).channels side).keys := by
        intro hmem
        rw [Registry.insert?_eq_none_iff.mpr hmem] at hinsert
        cases hinsert
      refine ⟨g.entering c side r es, honest_entering (hsessions side) (hs.not_entered hid hfree)
        hinsert (by simp only [hinsert, withEntries]), ?_, ⟨rfl, hg.halted_eq⟩, fun _ => rfl⟩
      refine moves_entered (hsessions side) hinsert hc rfl rfl (fun e he => .inl (hsub e he))
        (fun k d h => ?_) (fun hover => ?_) (fun d side' h => closes_entering (hcloses d side' h))
        fun _ h => h
      · exact (hcovers k d h).elim (fun h => .inr ⟨h.2.1, h.1⟩) .inl
      · rw [Agenda.entering, if_pos hover]
        exact List.mem_cons_self
  | none =>
      refine ⟨g.withTodo (onSource side (.unlist c t) es), honest_of_same rfl rfl rfl, ?_,
        at_withTodo hg _, fun h => by cases h⟩
      refine (SameRegister.refl r).moves (fun e he => ?_) (fun k d h => ?_) (fun d side' h => ?_)
        fun _ h => h
      · rw [Agenda.withTodo, onSource] at he
        dsimp only at he
        split at he
        · rcases List.mem_cons.mp he with rfl | he
          · exact .inr hc
          · exact .inl (hsub e he)
        · exact .inl (hsub e he)
      · rw [covers_onSource]
        exact (hcovers k d h).imp_left fun h => ⟨h.1, h.2.2.symm⟩
      · rw [closes_onSource]
        exact .inr (hcloses d side' h)

/-- Whoever takes the entry of the source session is to take the channel off the list. -/
theorem leave_errands (side : Side) (hg : Perhaps (.letGo side c t) es g.todo)
    (hhalted : g.halted = hs) (he : e ∈ g.todo) (hknown : ∀ r, e.Known r → KnownAs c t r) :
    errandProtocol.Follows i
      (fun found g' => g'.At (if found then onSource side (.unlist c t) es else es) hs)
      (leave (t.session side) side t.id) g := by
  refine follows_atomic_of_moves fun notes r hnote hs => ?_
  have hc : KnownAs c t r := hknown r (hs.knows hnote he)
  have hsub (e : Errand) (he : e ∈ es) : e ∈ g.todo := by
    rcases hg with hg | hg <;> simp [hg, he]
  have hcovers (k : ChannelId) (d : ChannelRef) (h : g.Covers k d) :
      (g.withTodo es).Covers k d := by
    rcases hg with hg | hg
    · rwa [withTodo_eq ⟨hg, rfl⟩]
    · rw [← withTodo_eq ⟨hg, rfl⟩, covers_cons] at h
      exact h.resolve_left id
  have hcloses (d : ChannelRef) (side' : Side) (h : g.Closes d side') :
      (g.withTodo es).Closes d side' ∨ side' = side ∧
        (r.channel d).terms.session side = t.session side ∧ (r.channel d).id = t.id := by
    rcases hg with hg | hg
    · exact .inl (by rwa [withTodo_eq ⟨hg, rfl⟩])
    · rw [← withTodo_eq ⟨hg, rfl⟩, closes_cons] at h
      rcases h with ⟨rfl, rfl⟩ | h
      · exact .inr ⟨rfl, congrArg (·.session side) hc.2, congrArg Channel.Terms.id hc.2⟩
      · exact .inl h
  have hsteady : Steady r (r.left (t.session side) side t.id) :=
    steady_of_channels (List.length_modify ..) rfl
  cases hfound : ((r.session (t.session side)).channels side).contains t.id with
  | true =>
      refine ⟨g.withTodo (onSource side (.unlist c t) es), honest_of_same rfl rfl rfl,
        moves_left hs (fun e he => ?_) (fun k d h => ?_) (fun hside d hd => ?_)
          (fun d side' h => ?_) fun _ h => h, ?_⟩
      · rw [Agenda.withTodo, onSource] at he
        dsimp only at he
        split at he
        · rcases List.mem_cons.mp he with rfl | he
          · exact .inr (hc.steady hsteady)
          · exact .inl (hsub e he)
        · exact .inl (hsub e he)
      · exact covers_onSource.mpr (.inr (hcovers k d h))
      · exact covers_onSource.mpr (.inl ⟨hside, rfl⟩)
      · exact (hcloses d side' h).imp_left fun h => closes_onSource.mpr (.inr h)
      · exact ⟨by simp only [hfound]; rfl, hhalted⟩
  | false =>
      have hnone : r.channelAt? (t.session side) side t.id = none :=
        Registry.get?_eq_none_iff.mpr fun hmem =>
          Bool.false_ne_true (hfound.symm.trans (Registry.contains_iff.mpr hmem))
      refine ⟨g.withTodo es, honest_of_same rfl rfl rfl,
        moves_left hs (fun e he => .inl (hsub e he)) hcovers (fun hside d hd => ?_) hcloses
          fun _ h => h, ?_⟩
      · subst hside
        rw [hnone] at hd
        cases hd
      · exact ⟨by simp only [hfound]; rfl, hhalted⟩

/-- Registration either has come to nothing, or the channel is entered. -/
theorem register_errands (side : Side) (hg : g.At (onSource side (.enter c t) es) hs)
    (hmake : .make c t ∈ es) :
    errandProtocol.Follows i
      (fun registered g' => g'.halted = hs ∧
        if registered then g'.todo = es ∧ g'.entered = (c, side) :: g.entered
        else g'.todo = es ∨ g'.todo = onSource side (.unlist c t) es)
      (register (t.session side) side t.id c) g := by
  refine Protocol.follows_bind (enter_errands hg hmake) fun entered g' h => ?_
  obtain ⟨hg, hentered⟩ := h
  cases entered with
  | false => exact Protocol.follows_pure ⟨hg.halted_eq, .inr hg.todo_eq⟩
  | true =>
      refine follows_bind_of_same (each_read _) fun running => ?_
      cases running with
      | true => exact Protocol.follows_pure ⟨hg.halted_eq, hg.todo_eq, hentered rfl⟩
      | false =>
          refine Protocol.follows_bind (leave_errands side (.inl hg.todo_eq) hg.halted_eq
            (hg.mem hmake) fun _ h => h.1) fun found g hg => ?_
          refine Protocol.follows_pure ⟨hg.halted_eq, ?_⟩
          cases found with
          | true => exact .inr hg.todo_eq
          | false => exact .inl hg.todo_eq

/-- A channel is registered with both of its sessions, or it is to be taken off the list, unless
somebody else is. -/
theorem joinSessions_errands (hg : g.At (.enter c t :: es) hs) (hmake : .make c t ∈ es) :
    errandProtocol.Follows i
      (fun joined g' => g'.halted = hs ∧ match joined with
        | .ok () => g'.todo = es ∧ ∀ side, (c, side) ∈ g'.entered
        | .error _ => Perhaps (.unlist c t) es g'.todo)
      (joinSessions c) g := by
  have hmem : .make c t ∈ g.todo := hg.mem (List.mem_cons_of_mem _ hmake)
  refine Protocol.follows_bind (follows_look (T := fun channel : Channel => channel.terms = t) hmem
    fun _ h => h.1.2) fun channel _ h => ?_
  obtain ⟨hterms, rfl⟩ := h
  have hid : channel.id = t.id := congrArg Channel.Terms.id hterms
  have hsrc : channel.src.session = t.session .src := congrArg (·.session .src) hterms
  have hdst : channel.dst.session = t.session .dst := congrArg (·.session .dst) hterms
  simp only [hid, hsrc, hdst]
  refine Protocol.follows_bind (register_errands .src hg hmake) fun registered g hg => ?_
  obtain ⟨hhalted, hg⟩ := hg
  cases registered with
  | false =>
      exact follows_bind_of_same (each_read _) fun _ => Protocol.follows_pure ⟨hhalted, hg⟩
  | true =>
      obtain ⟨hg, hfirst⟩ := hg
      refine Protocol.follows_bind (register_errands .dst ⟨hg, hhalted⟩ hmake)
        fun registered g' hg => ?_
      obtain ⟨hhalted, hg⟩ := hg
      cases registered with
      | true =>
          refine Protocol.follows_pure ⟨hhalted, hg.1, fun side => ?_⟩
          rw [hg.2, hfirst]
          cases side <;> simp
      | false =>
          have htodo : g'.todo = es := hg.elim id id
          have hmem : .make c t ∈ g'.todo := htodo ▸ hmake
          refine Protocol.follows_bind (leave_errands .src (.inl htodo) hhalted hmem fun _ h => h.1)
            fun found g hg => ?_
          refine follows_bind_of_same (each_read _) fun _ => ?_
          refine Protocol.follows_pure ⟨hg.halted_eq, ?_⟩
          cases found with
          | true => exact .inr hg.todo_eq
          | false => exact .inl hg.todo_eq

/-! ## Stopping a channel -/

/-- Whoever was to take an id off the list has done so. -/
theorem forgetChannel_errands (hg : Perhaps (.unlist c t) es g.todo) (hhalted : g.halted = hs) :
    errandProtocol.Follows i (fun _ g' => g'.At es hs) (forgetChannel t.id) g := by
  have hunlist : errandProtocol.Follows i (fun _ g' => g'.At es hs) (unlistChannel t.id) g := by
    refine follows_atomic_of_moves fun notes r hnote hs => ?_
    refine ⟨g.withTodo es, honest_of_same rfl rfl rfl, moves_unlisted (fun e he => ?_)
      (fun k d hne h => ?_) (fun d side h => ?_) fun _ h => h, rfl, hhalted⟩
    · rcases hg with hg | hg
      · exact hg ▸ he
      · exact hg ▸ List.mem_cons_of_mem _ he
    · rcases hg with hg | hg
      · rwa [withTodo_eq ⟨hg, rfl⟩]
      · rw [← withTodo_eq ⟨hg, rfl⟩, covers_cons] at h
        exact h.resolve_left fun h => hne h.symm
    · rcases hg with hg | hg
      · rwa [withTodo_eq ⟨hg, rfl⟩]
      · rw [← withTodo_eq ⟨hg, rfl⟩, closes_cons] at h
        exact h.resolve_left id
  refine Protocol.follows_bind hunlist fun found g hg => ?_
  cases found with
  | false => exact Protocol.follows_pure hg
  | true =>
      exact follows_of_same (each_modify fun _ => .of_eq rfl rfl rfl) hg

/-- Whoever is to make the session at an end let go of a channel has done so. -/
theorem closeEnd_errands {e : Channel.Endpoint} (hg : g.At (.letGo side c t :: es) hs)
    (hsession : e.session = t.session side) :
    errandProtocol.Follows i (fun _ g' => g'.At es hs) (closeEnd t.id side e) g := by
  rw [closeEnd, hsession]
  refine Protocol.follows_bind (leave_errands side (.inr hg.todo_eq) hg.halted_eq
    (hg.mem List.mem_cons_self) fun _ h => h) fun found g hg => ?_
  have hnotify : (notifyStop (t.session side) t.id e.relay).Each SameRegister :=
    (notifyStop_sameChannels ..).mono fun _ _ => .of_sameChannels
  cases found with
  | false => exact Protocol.follows_pure hg
  | true =>
      cases side with
      | src =>
          refine Protocol.follows_bind (forgetChannel_errands (.inr hg.todo_eq) hg.halted_eq)
            fun _ g hg => follows_of_same hnotify hg
      | dst => exact follows_of_same hnotify hg

/-- Both sessions of a channel are to let go of it. -/
def lettingGo (c : ChannelRef) (t : Channel.Terms) (es : List Errand) : List Errand :=
  .letGo .src c t :: .letGo .dst c t :: es

theorem subset_lettingGo : es ⊆ lettingGo c t es :=
  List.Subset.trans (List.subset_cons_self ..) (List.subset_cons_self ..)

theorem closes_lettingGo (side : Side) : (g.withTodo (lettingGo c t es)).Closes c side := by
  cases side with
  | src => exact closes_cons.mpr (.inl ⟨rfl, rfl⟩)
  | dst => exact closes_cons.mpr (.inr (closes_cons.mpr (.inl ⟨rfl, rfl⟩)))

/-- Whoever marks a channel as over is to make both of its sessions let go of it. -/
theorem claimStop_errands (hg : g.At es hs) (c : ChannelRef) :
    errandProtocol.Follows i
      (fun first g' => if first then ∃ t, g'.At (lettingGo c t es) (c :: hs) else g' = g)
      (claimStop c) g := by
  refine follows_atomic_of_moves fun notes r hnote hs' => ?_
  cases hstopped : (r.channel c).stopped with
  | true =>
      refine ⟨g, honest_of_same rfl rfl rfl, ?_, by simp⟩
      refine (SameRegister.of_sameChannels (.modifyChannel r c (.step _ .stop) ?_)).moves
        (fun e he => .inl he) (fun _ _ h => h) (fun _ _ h => h) fun _ h => h
      exact hstopped.symm
  | false =>
      have hc : c < r.channels.length := lt_of_stopped_eq_false hstopped
      have hknown : KnownAs c (r.channel c).terms (r.halted c) :=
        ⟨(length_halted r c).symm ▸ hc, terms_halted r c c⟩
      refine ⟨{ g.withTodo (lettingGo c (r.channel c).terms es) with halted := c :: g.halted },
        ⟨fun _ _ hd => .inl hd, fun _ hd => .inl hd, fun d hd => ?_⟩,
        moves_halted hc (fun e he => ?_) (fun _ _ => hg.covers subset_lettingGo)
          (fun _ _ => hg.closes subset_lettingGo) closes_lettingGo
          (fun d hd => List.mem_cons_of_mem _ hd) List.mem_cons_self, ?_⟩
      · rcases List.mem_cons.mp hd with rfl | hd
        · exact .inr ⟨hstopped, (stopped_halted hc d).mpr (.inl rfl)⟩
        · exact .inl hd
      · rcases List.mem_cons.mp he with rfl | he
        · exact .inr hknown
        · rcases List.mem_cons.mp he with rfl | he
          · exact .inr hknown
          · exact .inl (hg.mem he)
      · exact ⟨_, rfl, congrArg (c :: ·) hg.halted_eq⟩

theorem stopChannel_errands (c : ChannelRef) :
    errandProtocol.Follows i (fun _ g' => g'.todo = g.todo) (stopChannel c) g := by
  have hretire : (do retireChannel c; countClosed c : Op Unit).Each SameRegister :=
    (each_bind (retireChannel_sameChannels c) fun _ => countClosed_sameChannels c).mono
      fun _ _ => .of_sameChannels
  refine Protocol.follows_bind (claimStop_errands ⟨rfl, rfl⟩ c) fun first g' hg => ?_
  cases first with
  | false => exact Protocol.follows_pure (congrArg Agenda.todo hg)
  | true =>
      obtain ⟨t, hg⟩ := hg
      refine Protocol.follows_bind (follows_look (T := fun channel : Channel => channel.terms = t)
        (hg.mem List.mem_cons_self) fun _ h => h.2) fun channel _ h => ?_
      obtain ⟨hterms, rfl⟩ := h
      rw [show channel.id = t.id from congrArg Channel.Terms.id hterms]
      refine Protocol.follows_bind
        (closeEnd_errands hg (congrArg (·.session .src) hterms)) fun _ g hg => ?_
      refine Protocol.follows_bind
        (closeEnd_errands hg (congrArg (·.session .dst) hterms)) fun _ g hg => ?_
      exact follows_of_same hretire hg.todo_eq

/-! ## The end of a session -/

/-- Channels that are to be taken off the list. -/
def unlisting (made : List (ChannelRef × Channel.Terms)) : List Errand :=
  made.map fun m => .unlist m.1 m.2

theorem onEntries_bind {α β : Type} (s : SessionRef) (side : Side)
    (p : Steps (Registry ChannelId ChannelRef) α)
    (f : α → Steps (Registry ChannelId ChannelRef) β) :
    onEntries s side (p >>= f) = onEntries s side p >>= fun a => onEntries s side (f a) :=
  within_bind p f

/-- Whoever is handed a channel of the source side is to take it off the list. -/
theorem removeStep_src_errands (s : SessionRef) (k : ChannelId)
    {made : List (ChannelRef × Channel.Terms)} (hg : g.At (unlisting made ++ es) hs) :
    errandProtocol.Follows i
      (fun value g' => ∃ more : List (ChannelRef × Channel.Terms),
        value.toList = more.map Prod.fst ∧ g'.At (unlisting (made ++ more) ++ es) hs)
      (atomic fun r => (r.channelAt? s .src k, r.left s .src k)) g := by
  refine follows_atomic_of_moves fun notes r hnote hs => ?_
  cases hentry : r.channelAt? s .src k with
  | none =>
      refine ⟨g, honest_of_same rfl rfl rfl, ?_, [], by simp, by simpa using hg⟩
      refine moves_left hs (fun _ he => .inl he) (fun _ _ h => h) (fun _ c hc => ?_)
        (fun _ _ h => .inl h) fun _ h => h
      rw [hentry] at hc
      cases hc
  | some c =>
      obtain ⟨hlt, hid, -⟩ := hs.placed s .src k c hentry
      have hknown : KnownAs c (r.channel c).terms (r.left s .src k) := ⟨hlt, rfl⟩
      have hmade : unlisting (made ++ [(c, (r.channel c).terms)]) =
          unlisting made ++ [.unlist c (r.channel c).terms] := by simp [unlisting]
      have hsub : unlisting made ++ es ⊆
          unlisting (made ++ [(c, (r.channel c).terms)]) ++ es := by
        simp [hmade]
      refine ⟨g.withTodo (unlisting (made ++ [(c, (r.channel c).terms)]) ++ es),
        honest_of_same rfl rfl rfl, moves_left hs (fun x hx => ?_) (fun _ _ => hg.covers hsub)
          (fun _ d hd => ?_) (fun _ _ h => .inl (hg.closes hsub h)) fun _ h => h,
        [(c, (r.channel c).terms)], by simp, at_withTodo hg _⟩
      · have hx : x ∈ unlisting made ++ es ∨ x = .unlist c (r.channel c).terms := by
          simp only [Agenda.withTodo, hmade, List.mem_append, List.mem_singleton] at hx ⊢
          tauto
        rcases hx with hx | rfl
        · exact .inl (hg.mem hx)
        · exact .inr hknown
      · rw [hentry] at hd
        cases hd
        exact ⟨.unlist c (r.channel c).terms, by simp [Agenda.withTodo, hmade], hid⟩

theorem removeEach_src_errands (s : SessionRef) : ∀ (keys : List ChannelId) {g : Agenda}
    {made : List (ChannelRef × Channel.Terms)}, g.At (unlisting made ++ es) hs →
    errandProtocol.Follows i
      (fun values g' => ∃ more : List (ChannelRef × Channel.Terms), values = more.map Prod.fst ∧
        g'.At (unlisting (made ++ more) ++ es) hs)
      (onEntries s .src (Registry.removeEach keys)) g
  | [], _, _, hg => Protocol.follows_pure ⟨[], rfl, by simpa using hg⟩
  | k :: keys, g, made, hg => by
      rw [Registry.removeEach, onEntries_bind]
      refine Protocol.follows_bind (removeStep_src_errands s k hg) fun value g hg => ?_
      obtain ⟨more, hvalue, hg⟩ := hg
      rw [onEntries_bind]
      refine Protocol.follows_bind (removeEach_src_errands s keys hg) fun values g hg => ?_
      obtain ⟨rest, hvalues, hg⟩ := hg
      refine Protocol.follows_pure ⟨more ++ rest, ?_, ?_⟩
      · rw [hvalue, hvalues, List.map_append]
      · rwa [List.append_assoc] at hg

theorem removeEach_dst_errands (s : SessionRef) : ∀ (keys : List ChannelId) (g : Agenda),
    errandProtocol.Follows i (fun _ g' => g' = g) (onEntries s .dst (Registry.removeEach keys)) g
  | [], _ => Protocol.follows_pure rfl
  | k :: keys, g => by
      rw [Registry.removeEach, onEntries_bind]
      have hstep : errandProtocol.Follows i (fun _ g' => g' = g)
          (atomic fun r => (r.channelAt? s .dst k, r.left s .dst k)) g := by
        refine follows_atomic_of_moves fun notes r hnote hs =>
          ⟨g, honest_of_same rfl rfl rfl, ?_, rfl⟩
        exact moves_left hs (fun _ he => .inl he) (fun _ _ h => h) (fun h => by cases h)
          (fun _ _ h => .inl h) fun _ h => h
      refine Protocol.follows_bind hstep fun value g' hg => ?_
      subst hg
      rw [onEntries_bind]
      refine Protocol.follows_bind (removeEach_dst_errands s keys g') fun values g hg => ?_
      exact Protocol.follows_pure hg

theorem takeChannels_src_errands (s : SessionRef) (hg : g.At es hs) :
    errandProtocol.Follows i
      (fun values g' => ∃ made : List (ChannelRef × Channel.Terms), values = made.map Prod.fst ∧
        g'.At (unlisting made ++ es) hs)
      (takeChannels s .src) g := by
  refine follows_bind_of_same (each_read _) fun keys => ?_
  have hnone : unlisting [] ++ es = es := rfl
  exact removeEach_src_errands s keys (hnone ▸ hg)

theorem takeChannels_dst_errands (s : SessionRef) :
    errandProtocol.Follows i (fun _ g' => g' = g) (takeChannels s .dst) g :=
  follows_bind_of_same (each_read _) fun keys => removeEach_dst_errands s keys g

/-- The channels that the end of a session was handed are taken off the list and stopped. -/
theorem discard_errands : ∀ (made : List (ChannelRef × Channel.Terms)) {g : Agenda},
    g.todo = unlisting made ++ es →
    errandProtocol.Follows i (fun _ g' => g'.todo = es)
      ((made.map Prod.fst).forM discardChannel) g
  | [], _, hg => Protocol.follows_pure hg
  | (c, t) :: made, g, hg => by
      have hmem : .unlist c t ∈ g.todo := hg ▸ List.mem_cons_self
      have hdiscard : errandProtocol.Follows i (fun _ g' => g'.todo = unlisting made ++ es)
          (discardChannel c) g := by
        refine Protocol.follows_bind (follows_look (T := fun id : ChannelId => id = t.id) hmem
          fun _ h => congrArg Channel.Terms.id h.2) fun _ _ h => ?_
        obtain ⟨rfl, rfl⟩ := h
        refine Protocol.follows_bind (forgetChannel_errands (.inr hg) rfl) fun _ g hg => ?_
        exact (stopChannel_errands c).mono fun _ _ h => h.trans hg.todo_eq
      exact Protocol.follows_bind hdiscard fun _ _ hg => discard_errands made hg

theorem stopSession_errands (s : SessionRef) :
    errandProtocol.Follows i (fun _ g' => g'.todo = g.todo) (stopSession s) g := by
  have hclaim : (claimEnd s).Each SameChannels := each_atomic fun r =>
    .modifySession r s fun _ side => by cases side <;> rfl
  have hleave : (do dismiss s; detach s : Op Unit).Each SameRegister :=
    (each_bind (dismiss_sameChannels s) fun _ => detach_sameChannels s).mono
      fun _ _ => .of_sameChannels
  refine follows_bind_of_same (hclaim.mono fun _ _ => .of_sameChannels) fun first => ?_
  cases first with
  | false => exact Protocol.follows_pure rfl
  | true =>
      refine follows_bind_of_same (each_modify fun r => .of_sameChannels (sameChannels_disarm _ r))
        fun _ => ?_
      refine Protocol.follows_bind (takeChannels_src_errands s ⟨rfl, rfl⟩) fun cs g₁ h => ?_
      obtain ⟨made, rfl, hg₁⟩ := h
      refine Protocol.follows_bind (discard_errands made hg₁.todo_eq) fun _ g₂ hg₂ => ?_
      refine Protocol.follows_bind (takeChannels_dst_errands s) fun cs _ h => ?_
      subst h
      refine Protocol.follows_bind (Protocol.follows_forM
        (fun c g' hg' => (stopChannel_errands c).mono fun _ _ h => h.trans hg') cs hg₂)
        fun _ g₃ hg₃ => ?_
      exact follows_of_same hleave hg₃

end

end PeerRelay.Relay
