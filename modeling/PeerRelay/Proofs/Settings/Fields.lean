import PeerRelay.Proofs.Net.AddressText
import PeerRelay.Settings.Layers

/-!
# The settings one by one

Each source is read for one setting after another, and what it says of one does not depend on
the others. So a layer as a whole does what it does to each setting, and is refused where it is
refused for one of them.
-/

namespace PeerRelay.Settings

/-- A setting: what names it in each source, and how what is found there is read. A setting that
a source has no name for has none. -/
structure Field (Value : Type) where
  Carrier : Type
  get : Settings → Carrier
  key : String
  ofValue : Value → Option Carrier
  flag? : Option (Flag × (String → Except Error Carrier)) := none
  envVar? : Option (String × (String → Except Error Carrier)) := none

/-- All settings, in a file of some format. -/
def fields (format : Format) : List (Field format.Value) :=
  [{ Carrier := List Listener
     get := listeners
     key := "listeners"
     ofValue := format.listeners?
     flag? := some (.listen, readListeners)
     envVar? := some ("NATPROXY_LISTEN", readListeners) },
    { Carrier := Nat
      get := workerThreads
      key := "worker_threads"
      ofValue := format.count?
      flag? := some (.workers, readCount "workers")
      envVar? := some ("NATPROXY_WORKERS", readCount "NATPROXY_WORKERS") },
    { Carrier := Nat
      get := loginTimeoutSecs
      key := "login_timeout_secs"
      ofValue := format.count?
      envVar? := some ("NATPROXY_LOGIN_TIMEOUT", readCount "NATPROXY_LOGIN_TIMEOUT") },
    { Carrier := Nat, get := channelMtu, key := "channel_mtu", ofValue := format.count? },
    { Carrier := Nat
      get := portExpiredSecs
      key := "port_expired_secs"
      ofValue := format.count? },
    { Carrier := Nat
      get := displayIntervalSecs
      key := "display_interval_secs"
      ofValue := format.count? },
    { Carrier := Nat, get := maxSessions, key := "max_sessions", ofValue := format.count? },
    { Carrier := Nat, get := maxChannels, key := "max_channels", ofValue := format.count? },
    { Carrier := Option SocketAddr
      get := httpAddr
      key := "http_addr"
      ofValue := fun v => some <$> format.addr? v
      flag? := some (.httpAddr, fun text => some <$> readAddr "http_addr" text)
      envVar? := some ("NATPROXY_HTTP_ADDR",
        fun text => some <$> readAddr "NATPROXY_HTTP_ADDR" text) },
    { Carrier := Option String
      get := adminToken
      key := "admin_token"
      ofValue := fun v => some <$> format.text? v
      flag? := some (.adminToken, fun text => .ok (some text))
      envVar? := some ("NATPROXY_ADMIN_TOKEN", fun text => .ok (some text)) },
    { Carrier := Option String
      get := redisUrl
      key := "redis_url"
      ofValue := fun v => some <$> format.text? v
      envVar? := some ("NATPROXY_REDIS_URL", fun text => .ok (some text)) }]

variable (format : Format)

theorem eq_of_fields {s t : Settings} (h : ∀ f ∈ fields format, f.get s = f.get t) : s = t := by
  cases s
  cases t
  simpa [fields] using h

variable {format}

/-- Values for all settings make up settings. -/
theorem exists_settings {P : (f : Field format.Value) → f.Carrier → Prop}
    (h : ∀ f ∈ fields format, ∃ x, P f x) :
    ∃ s : Settings, ∀ f ∈ fields format, P f (f.get s) := by
  simp only [fields, List.forall_mem_cons] at h ⊢
  obtain ⟨⟨listeners, h₁⟩, ⟨workerThreads, h₂⟩, ⟨loginTimeoutSecs, h₃⟩, ⟨channelMtu, h₄⟩,
    ⟨portExpiredSecs, h₅⟩, ⟨displayIntervalSecs, h₆⟩, ⟨maxSessions, h₇⟩, ⟨maxChannels, h₈⟩,
    ⟨httpAddr, h₉⟩, ⟨adminToken, h₁₀⟩, ⟨redisUrl, h₁₁⟩, -⟩ := h
  exact ⟨⟨listeners, workerThreads, loginTimeoutSecs, channelMtu, portExpiredSecs,
    displayIntervalSecs, maxSessions, maxChannels, httpAddr, adminToken, redisUrl⟩,
    h₁, h₂, h₃, h₄, h₅, h₆, h₇, h₈, h₉, h₁₀, h₁₁, nofun⟩

theorem bind_eq_ok {ε α β : Type} {x : Except ε α} {f : α → Except ε β} {b : β} :
    x >>= f = .ok b ↔ ∃ a, x = .ok a ∧ f a = .ok b := by
  cases x with
  | error e => exact ⟨nofun, nofun⟩
  | ok a =>
      constructor
      · exact fun h => ⟨a, rfl, h⟩
      · rintro ⟨_, ⟨⟩, h⟩
        exact h

theorem map_eq_ok {ε α β : Type} {f : α → β} {x : Except ε α} {b : β} :
    f <$> x = .ok b ↔ ∃ a, x = .ok a ∧ f a = b := by
  cases x with
  | error e => exact ⟨nofun, nofun⟩
  | ok a =>
      constructor
      · exact fun h => ⟨a, rfl, Except.ok.inj h⟩
      · rintro ⟨_, ⟨⟩, rfl⟩
        rfl

theorem pure_eq_ok {ε α : Type} {a b : α} : (pure a : Except ε α) = .ok b ↔ a = b :=
  ⟨Except.ok.inj, congrArg Except.ok⟩

/-! ## What a source makes of one setting -/

namespace Field

variable {Value : Type} (f : Field Value)

/-- The value of a setting after its environment variable. -/
def overEnv (env : String → Option String) (current : f.Carrier) : Except Error f.Carrier :=
  match f.envVar? with
  | none => .ok current
  | some (name, read) => layered current (env name) read

/-- The value of a setting after one more flag. -/
def overFlag (current : f.Carrier) (given : Given) : Except Error f.Carrier :=
  match f.flag? with
  | none => .ok current
  | some (flag, read) => if given.flag = flag then layered current given.value read else .ok current

/-- The value of a setting after a document. -/
def overDocument (entries : List (String × Value)) (current : f.Carrier) : Option f.Carrier :=
  overKey entries f.key f.ofValue current

end Field

/-! ## What a source makes of all settings -/

variable {s s' : Settings}

section

variable (format)

theorem withEnv_eq_ok_iff {env : String → Option String} :
    withEnv env s = .ok s' ↔
      ∀ f ∈ fields format, f.overEnv env (f.get s) = .ok (f.get s') := by
  simp only [withEnv, bind_eq_ok, fields, List.forall_mem_cons, Field.overEnv]
  constructor
  · rintro ⟨_, h₁, _, h₂, _, h₃, _, h₉, _, h₁₀, _, h₁₁, ⟨⟩⟩
    exact ⟨h₁, h₂, h₃, rfl, rfl, rfl, rfl, rfl, h₉, h₁₀, h₁₁, nofun⟩
  · rintro ⟨h₁, h₂, h₃, h₄, h₅, h₆, h₇, h₈, h₉, h₁₀, h₁₁, -⟩
    refine ⟨_, h₁, _, h₂, _, h₃, _, h₉, _, h₁₀, _, h₁₁, congrArg Except.ok (eq_of_fields format ?_)⟩
    simp only [fields, List.forall_mem_cons]
    exact ⟨trivial, trivial, trivial, Except.ok.inj h₄, Except.ok.inj h₅, Except.ok.inj h₆,
      Except.ok.inj h₇, Except.ok.inj h₈, trivial, trivial, trivial, nofun⟩

theorem withFlag_eq_ok_iff {given : Given} :
    withFlag s given = .ok s' ↔ given.value.isSome = true ∧
      ∀ f ∈ fields format, f.overFlag (f.get s) given = .ok (f.get s') := by
  obtain ⟨flag, spelling, value⟩ := given
  cases value with
  | none => exact ⟨nofun, fun h => by cases h.1⟩
  | some text =>
      simp only [Option.isSome_some, true_and, fields, List.forall_mem_cons, Field.overFlag,
        layered, withFlag]
      obtain ⟨listeners', workerThreads', loginTimeoutSecs', channelMtu', portExpiredSecs',
        displayIntervalSecs', maxSessions', maxChannels', httpAddr', adminToken', redisUrl'⟩ := s'
      cases flag with
      | listen | workers | httpAddr =>
          simp only [bind_eq_ok, pure_eq_ok, map_eq_ok, mk.injEq, reduceCtorEq, ↓reduceIte,
            Except.ok.injEq, List.not_mem_nil, false_implies, implies_true, and_true]
          grind
      | config =>
          cases s
          simp
      | adminToken => simp

/-- Flags are taken in one after another. Each must have a value. -/
theorem foldlM_withFlag_eq_ok_iff {line : List Given} :
    line.foldlM withFlag s = .ok s' ↔ (∀ given ∈ line, given.value.isSome = true) ∧
      ∀ f ∈ fields format, line.foldlM f.overFlag (f.get s) = .ok (f.get s') := by
  induction line generalizing s with
  | nil =>
      simp only [List.foldlM_nil, pure_eq_ok]
      constructor
      · rintro rfl
        exact ⟨nofun, fun _ _ => rfl⟩
      · exact fun h => eq_of_fields format h.2
  | cons given line ih =>
      simp only [List.foldlM_cons, bind_eq_ok, ih, withFlag_eq_ok_iff format,
        List.forall_mem_cons]
      constructor
      · rintro ⟨t, ⟨hvalue, hfirst⟩, hvalues, hrest⟩
        exact ⟨⟨hvalue, hvalues⟩, fun f hf => ⟨f.get t, hfirst f hf, hrest f hf⟩⟩
      · rintro ⟨⟨hvalue, hvalues⟩, h⟩
        obtain ⟨t, ht⟩ := exists_settings h
        exact ⟨t, ⟨hvalue, fun f hf => (ht f hf).1⟩, hvalues, fun f hf => (ht f hf).2⟩

end

theorem withDocument_eq_some_iff {entries : List (String × format.Value)} :
    s.withDocument format entries = some s' ↔
      ∀ f ∈ fields format, f.overDocument entries (f.get s) = some (f.get s') := by
  simp only [withDocument, Option.bind_eq_bind, Option.bind_eq_some_iff, fields,
    List.forall_mem_cons, Field.overDocument]
  constructor
  · rintro ⟨_, h₁, _, h₂, _, h₃, _, h₄, _, h₅, _, h₆, _, h₇, _, h₈, _, h₉, _, h₁₀, _, h₁₁, ⟨⟩⟩
    exact ⟨h₁, h₂, h₃, h₄, h₅, h₆, h₇, h₈, h₉, h₁₀, h₁₁, nofun⟩
  · rintro ⟨h₁, h₂, h₃, h₄, h₅, h₆, h₇, h₈, h₉, h₁₀, h₁₁, -⟩
    exact ⟨_, h₁, _, h₂, _, h₃, _, h₄, _, h₅, _, h₆, _, h₇, _, h₈, _, h₉, _, h₁₀, _, h₁₁, rfl⟩

/-! ## Settings as a document -/

/-- Settings whose addresses can be written in a document. -/
structure Plain (s : Settings) : Prop where
  listeners : ∀ l ∈ s.listeners, l.addr.Plain
  httpAddr : ∀ a ∈ s.httpAddr, a.Plain

/-- What was written in a format is read again as what it was. -/
structure Format.Lawful (format : Format) : Prop where
  count : ∀ n ≤ format.countMax, format.count? (format.ofCount n) = some n
  text : ∀ t, format.text? (format.ofText t) = some t
  addr : ∀ a : SocketAddr, a.Plain → format.addr? (format.ofAddr a) = some a
  listeners : ∀ ls : List Listener, (∀ l ∈ ls, l.addr.Plain) →
    format.listeners? (format.ofListeners ls) = some ls

theorem listenersOf?_values {ls : List Listener} (h : ∀ l ∈ ls, l.addr.Plain) :
    listenersOf? (.array (ls.map listenerValue)) = some ls := by
  have hvalue (l : Listener) (hl : l.addr.Plain) : listenerOf? (listenerValue l) = some l := by
    simp [listenerOf?, listenerValue, List.lookup_cons, addrOf?, stringOf?, roleOf?,
      SocketAddr.ofText?_text hl]
  rw [listenersOf?]
  induction ls with
  | nil => rfl
  | cons l ls ih =>
      have hfirst := hvalue l (h l List.mem_cons_self)
      have hrest := ih fun l' hl' => h l' (List.mem_cons_of_mem _ hl')
      simp [hfirst, hrest]

theorem toml_lawful : Format.toml.Lawful where
  count n _ := by simp [Format.toml, countOf?]
  text _ := rfl
  addr _ ha := SocketAddr.ofText?_text ha
  listeners _ := listenersOf?_values

theorem lookup_optional {α β : Type} (o : Option α) (value : α → β) (key k : String) :
    ((o.map fun x => (k, value x)).toList).lookup key = if key == k then o.map value else none := by
  cases o with
  | none => simp
  | some x =>
      rw [Option.map_some, Option.toList_some, List.lookup_cons, Option.map_some]
      split <;> simp_all

/-- What was written of settings gives each of them again, and what was not written is not set. -/
theorem overDocument_document (hformat : format.Lawful) (hs : s.Plain)
    (hfits : s.fitsDocument format = true) :
    ∀ f ∈ fields format, f.overDocument (s.document format) (f.get {}) = some (f.get s) := by
  simp only [fitsDocument, List.all_cons, List.all_nil, Bool.and_true, Bool.and_eq_true,
    decide_eq_true_eq] at hfits
  obtain ⟨h₂, h₃, h₄, h₅, h₆, h₇, h₈⟩ := hfits
  simp only [fields, List.forall_mem_cons, Field.overDocument, overKey, document,
    List.cons_append, List.nil_append, List.append_assoc, List.lookup_cons, String.reduceBEq,
    List.lookup_append, lookup_optional, BEq.rfl, ↓reduceIte, Option.map_eq_map,
    List.not_mem_nil, beq_iff_eq, false_implies, implies_true, and_true]
  refine ⟨hformat.listeners _ hs.listeners, hformat.count _ h₂, hformat.count _ h₃,
    hformat.count _ h₄, hformat.count _ h₅, hformat.count _ h₆, hformat.count _ h₇,
    hformat.count _ h₈, ?_, ?_, ?_⟩
  · have haddr := hs.httpAddr
    cases hget : s.httpAddr with
    | none => rfl
    | some a => simp [hformat.addr a (haddr a hget)]
  · cases s.adminToken with
    | none => rfl
    | some token => simp [hformat.text]
  · cases s.redisUrl with
    | none => rfl
    | some url => simp [hformat.text]

theorem Field.overDocument_append {Value : Type} (f : Field Value)
    {upper base : List (String × Value)} {x y : f.Carrier}
    (h : f.overDocument base x = some y) :
    f.overDocument (upper ++ base) x = f.overDocument upper y := by
  simp only [overDocument, overKey, List.lookup_append] at h ⊢
  cases upper.lookup f.key with
  | none => exact h
  | some v => rfl

/-- To write settings as a document, to put another over it and to read all of that again comes
to reading the other document over the settings. -/
theorem withDocument_append_document (hformat : format.Lawful) (hs : s.Plain)
    (hfits : s.fitsDocument format = true) (entries : List (String × format.Value)) :
    ({} : Settings).withDocument format (entries ++ s.document format) =
      s.withDocument format entries := by
  refine Option.ext fun t => ?_
  rw [withDocument_eq_some_iff, withDocument_eq_some_iff]
  refine forall₂_congr fun f hf => ?_
  rw [f.overDocument_append (overDocument_document hformat hs hfits f hf)]

end PeerRelay.Settings
