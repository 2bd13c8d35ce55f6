import PeerRelay.Proofs.Settings.Precedence

/-!
# The settings that a relay starts with

All settings are taken together from the sources, each by its own precedence. The file is written
over what the other sources give, by way of a document that has all of that, and none of it is
lost on the way. What comes of it must be settings that the relay can run with.
-/

namespace PeerRelay.Settings

/-! ## What is expected -/

/-- The settings file is the one that the last flag for it names, or else the environment. -/
def Names (args : List String) (env : String → Option String) (path : String) : Prop :=
  (∃ i, LastAt args .config i ∧ args[i + 1]? = some path) ∨
    (∀ i, ¬ StandsAt args .config i) ∧ env "NATPROXY_CONFIG" = some path

section

variable (format : Format) (args : List String) (env : String → Option String)
  (readFile : String → Except FileFault Bytes)

/-- The document that the settings file holds. Where no file is named there is nothing in it. -/
inductive Holds : List (String × format.Value) → Prop where
  | unnamed (h : ∀ path, ¬ Names args env path) : Holds []
  | named {path : String} {content : Bytes} {text : String}
      {entries : List (String × format.Value)}
      (h : Names args env path) (hcontent : readFile path = .ok content)
      (htext : Text.Utf8.decode? content = some text)
      (hentries : format.parse text = some entries) : Holds entries

/-- Settings that have each value from the source that it should come from. -/
def Layered (s : Settings) : Prop :=
  ∃ entries, Holds format args env readFile entries ∧
    ∀ f ∈ fields format, f.ByDocument args env entries (f.get s)

/-- All sources can be read. -/
structure Legible : Prop where
  /-- No flag is the last argument, -/
  values : Valued args
  /-- the values of flags and variables can be read, -/
  texts : ∀ f ∈ fields format, f.Legible args env
  /-- there is a document in the file that is named, and what it has can be read, -/
  document : ∃ entries, Holds format args env readFile entries ∧
    ∀ f ∈ fields format, ∀ v, entries.lookup f.key = some v → ∃ x, f.ofValue v = some x
  /-- and no number that the other sources give is too large for such a document. -/
  numbers : (∃ path, Names args env path) → ∀ s : Settings,
    (∀ f ∈ fields format, f.ByLine args env (f.get s)) → s.fitsDocument format = true

end

/-- Settings that a relay can run with. -/
structure Sound (s : Settings) : Prop where
  listeners : s.listeners ≠ []
  addrs : (s.listeners.map (·.addr)).Nodup
  workerThreads : 0 < s.workerThreads
  loginTimeoutSecs : 0 < s.loginTimeoutSecs
  channelMtu : 64 ≤ s.channelMtu ∧ s.channelMtu ≤ 65535
  adminToken : s.adminToken ≠ some ""

/-! ## Faults -/

theorem repeatedAddr?_go_eq_none_iff {seen addrs : List SocketAddr} :
    repeatedAddr?.go seen addrs = none ↔ addrs.Nodup ∧ ∀ a ∈ addrs, a ∉ seen := by
  induction addrs generalizing seen with
  | nil => simp [repeatedAddr?.go]
  | cons addr addrs ih =>
      rw [repeatedAddr?.go]
      split
      · rename_i hseen
        exact ⟨nofun, fun h => absurd hseen (h.2 addr List.mem_cons_self)⟩
      · rename_i hnew
        rw [ih]
        grind

theorem repeatedAddr?_eq_none_iff {addrs : List SocketAddr} :
    repeatedAddr? addrs = none ↔ addrs.Nodup := by
  rw [repeatedAddr?, repeatedAddr?_go_eq_none_iff]
  simp

theorem fault?_eq_none_iff {s : Settings} : s.fault? = none ↔ Sound s := by
  have hunless {p : Prop} [Decidable p] {fault : Fault} {rest : Option Fault} :
      (if p then some fault else rest) = none ↔ ¬ p ∧ rest = none := by
    split <;> simp [*]
  rw [fault?, hunless, List.isEmpty_iff]
  cases hrepeated : repeatedAddr? (s.listeners.map (·.addr)) with
  | some addr =>
      refine iff_of_false nofun fun h => ?_
      cases (repeatedAddr?_eq_none_iff.mpr h.addrs).symm.trans hrepeated
  | none =>
      simp only [hunless]
      constructor
      · rintro ⟨hlisteners, hworkers, htimeout, hmtu, htoken, -⟩
        have haddrs := repeatedAddr?_eq_none_iff.mp hrepeated
        exact ⟨hlisteners, haddrs, by omega, by omega, by omega, htoken⟩
      · intro h
        have hmtu := h.channelMtu
        exact ⟨h.listeners, Nat.ne_of_gt h.workerThreads, Nat.ne_of_gt h.loginTimeoutSecs,
          by omega, h.adminToken, trivial⟩

theorem validate_eq_ok_iff {s c : Settings} : s.validate = .ok c ↔ c = s ∧ Sound s := by
  rw [validate, ← fault?_eq_none_iff]
  cases s.fault? with
  | none => exact ⟨fun h => ⟨(Except.ok.inj h).symm, rfl⟩, fun h => congrArg Except.ok h.1.symm⟩
  | some fault => exact ⟨nofun, fun h => nomatch h.2⟩

/-! ## All settings -/

variable {format : Format} {args : List String} {env : String → Option String}
  {readFile : String → Except FileFault Bytes} {s c : Settings}

theorem withArgs_withEnv_eq_ok_iff (format : Format) :
    (∃ t, withEnv env {} = .ok t ∧ withArgs args t = .ok s) ↔
      Valued args ∧ ∀ f ∈ fields format, f.Legible args env ∧ f.ByLine args env (f.get s) := by
  simp only [withEnv_eq_ok_iff format, withArgs, foldlM_withFlag_eq_ok_iff format,
    forall_scan_isSome_iff]
  constructor
  · rintro ⟨t, henv, hvalues, hline⟩
    exact ⟨hvalues, fun f hf => (Field.exists_overEnv_iff hvalues).mp
      ⟨f.get t, henv f hf, hline f hf⟩⟩
  · rintro ⟨hvalues, h⟩
    obtain ⟨t, ht⟩ := exists_settings fun f hf => (Field.exists_overEnv_iff hvalues).mpr (h f hf)
    exact ⟨t, fun f hf => (ht f hf).1, hvalues, fun f hf => (ht f hf).2⟩

theorem mem_of_mapM_eq_ok {ε α β : Type} {read : α → Except ε β} {xs : List α} {ys : List β}
    (h : xs.mapM read = .ok ys) {y : β} (hy : y ∈ ys) : ∃ x ∈ xs, read x = .ok y := by
  induction xs generalizing ys with
  | nil =>
      cases h
      cases hy
  | cons x xs ih =>
      simp only [List.mapM_cons, bind_eq_ok, pure_eq_ok] at h
      obtain ⟨z, hz, zs, hzs, rfl⟩ := h
      rcases List.mem_cons.mp hy with rfl | hy
      · exact ⟨x, List.mem_cons_self, hz⟩
      · obtain ⟨x', hx', hread⟩ := ih hzs hy
        exact ⟨x', List.mem_cons_of_mem _ hx', hread⟩

theorem plain_of_readListener {text : String} {l : Listener} (h : readListener text = .ok l) :
    l.addr.Plain := by
  have haddr {text : String} {a : SocketAddr} (h : readListenAddr text = .ok a) : a.Plain := by
    rw [readListenAddr] at h
    split at h
    · rename_i addr hread
      cases h
      exact SocketAddr.plain_of_ofText? hread
    · cases h
  simp only [readListener] at h
  split at h
  · obtain ⟨a, ha, ⟨⟩⟩ := bind_eq_ok.mp h
    exact haddr ha
  · obtain ⟨role, -, h⟩ := bind_eq_ok.mp h
    obtain ⟨a, ha, ⟨⟩⟩ := bind_eq_ok.mp h
    exact haddr ha

theorem plain_of_readAddr {name text : String} {a : SocketAddr} (h : readAddr name text = .ok a) :
    a.Plain := by
  rw [readAddr] at h
  split at h
  · rename_i addr hread
    cases h
    exact SocketAddr.plain_of_ofText? hread
  · cases h

/-- The addresses that the command line and the environment give can be written in a document. -/
theorem plain_of_byLine (h : ∀ f ∈ fields format, f.ByLine args env (f.get s)) : s.Plain := by
  simp only [fields, List.forall_mem_cons] at h
  obtain ⟨hlisteners, -, -, -, -, -, -, -, haddr, -⟩ := h
  constructor
  · intro l hl
    rcases hlisteners.read_or_default with ⟨read, text, hread, htext⟩ | hdefault
    · obtain rfl : readListeners = read := by
        rcases hread with ⟨_, ⟨⟩⟩ | ⟨_, ⟨⟩⟩ <;> rfl
      obtain ⟨piece, -, hpiece⟩ := mem_of_mapM_eq_ok htext hl
      exact plain_of_readListener hpiece
    · rw [show s.listeners = [⟨⟨.v4 .unspecified, 10001, 0⟩, .either⟩] from hdefault,
        List.mem_singleton] at hl
      rw [hl]
      exact fun _ _ => rfl
  · intro a ha
    rcases haddr.read_or_default with ⟨read, text, hread, htext⟩ | hdefault
    · obtain ⟨name, rfl⟩ : ∃ name, (fun text => some <$> readAddr name text) = read := by
        rcases hread with ⟨_, ⟨⟩⟩ | ⟨_, ⟨⟩⟩ <;> exact ⟨_, rfl⟩
      obtain ⟨addr, haddr, hsome⟩ := map_eq_ok.mp htext
      cases hsome.trans ha
      exact plain_of_readAddr haddr
    · cases hdefault.symm.trans ha

theorem filePath?_eq_some_iff (hvalues : Valued args) {path : String} :
    filePath? args env = some path ↔ Names args env path := by
  rw [filePath?, Names]
  cases hlast : ((scan args).filter (·.flag = .config)).getLast? with
  | none =>
      have hnowhere := getLast?_scan_eq_none.mp hlast
      constructor
      · exact fun h => .inr ⟨hnowhere, h⟩
      · rintro (⟨i, hi, -⟩ | ⟨-, h⟩)
        · exact (hnowhere i hi.1).elim
        · exact h
  | some given =>
      obtain ⟨i, hi, hvalue⟩ := lastAt_of_getLast?_scan hlast
      obtain ⟨text, htext⟩ := Option.isSome_iff_exists.mp (hvalues .config i hi.1)
      rw [htext] at hvalue
      rw [Option.bind_some, ← hvalue]
      constructor
      · intro h
        exact .inl ⟨i, hi, htext.trans h⟩
      · rintro (⟨j, hj, hpath⟩ | ⟨hnowhere, -⟩)
        · obtain rfl := hi.unique hj
          exact htext.symm.trans hpath
        · exact (hnowhere i hi.1).elim

theorem withFile_eq_ok_iff (hformat : format.Lawful) {content : Bytes}
    (hs : ∀ f ∈ fields format, f.ByLine args env (f.get s)) :
    s.withFile format content = .ok c ↔ ∃ text entries, Text.Utf8.decode? content = some text ∧
      format.parse text = some entries ∧ s.fitsDocument format = true ∧
      ∀ f ∈ fields format, f.ByDocument args env entries (f.get c) := by
  have hdocument (hfits : s.fitsDocument format = true) (entries : List (String × format.Value)) :
      ({} : Settings).withDocument format (entries ++ s.document format) = some c ↔
        ∀ f ∈ fields format, f.ByDocument args env entries (f.get c) := by
    rw [withDocument_append_document hformat (plain_of_byLine hs) hfits, withDocument_eq_some_iff]
    exact forall₂_congr fun f hf => Field.overDocument_eq_some_iff (hs f hf)
  rw [withFile]
  cases htext : Text.Utf8.decode? content with
  | none => exact ⟨nofun, fun ⟨_, _, h, _⟩ => nomatch h⟩
  | some text =>
      dsimp only
      cases hentries : format.parse text with
      | none =>
          refine ⟨nofun, ?_⟩
          rintro ⟨_, _, ⟨⟩, h, -⟩
          cases hentries.symm.trans h
      | some entries =>
          dsimp only
          constructor
          · intro h
            split at h
            · rename_i hfits
              split at h
              · cases h
              · rename_i hread
                cases h
                exact ⟨text, entries, rfl, hentries, hfits, (hdocument hfits entries).mp hread⟩
            · cases h
          · rintro ⟨_, _, ⟨⟩, h, hfits, hc⟩
            cases hentries.symm.trans h
            rw [if_pos hfits, (hdocument hfits entries).mpr hc]

theorem Holds.unique {entries entries' : List (String × format.Value)}
    (h : Holds format args env readFile entries) (h' : Holds format args env readFile entries')
    (hvalues : Valued args) : entries = entries' := by
  cases h with
  | unnamed hno =>
      cases h' with
      | unnamed => rfl
      | named h => exact (hno _ h).elim
  | named h hcontent htext hentries =>
      cases h' with
      | unnamed hno => exact (hno _ h).elim
      | named h' hcontent' htext' hentries' =>
          cases ((filePath?_eq_some_iff hvalues).mpr h).symm.trans
            ((filePath?_eq_some_iff hvalues).mpr h')
          cases hcontent.symm.trans hcontent'
          cases htext.symm.trans htext'
          exact Option.some.inj (hentries.symm.trans hentries')

/-- Settings that are layered are the only ones. -/
theorem Layered.unique (h : Layered format args env readFile s)
    (h' : Layered format args env readFile c) (hvalues : Valued args) : s = c := by
  obtain ⟨entries, hentries, hs⟩ := h
  obtain ⟨entries', hentries', hc⟩ := h'
  obtain rfl := hentries.unique hentries' hvalues
  exact eq_of_fields format fun f hf => (hs f hf).unique (hc f hf)

/-- Sources that can be read are taken in, one over another. -/
theorem Legible.load_eq (hformat : format.Lawful) (h : Legible format args env readFile) :
    ∃ s, Layered format args env readFile s ∧ load args env readFile format = s.validate := by
  obtain ⟨base, hbase⟩ := exists_settings fun f hf => Field.exists_byLine h.values (h.texts f hf)
  obtain ⟨t, ht, hargs⟩ := (withArgs_withEnv_eq_ok_iff format).mpr
    ⟨h.values, fun f hf => ⟨h.texts f hf, hbase f hf⟩⟩
  rw [load, ht]
  change ∃ s, _ ∧ (withArgs args t >>= fun s => _) = _
  rw [hargs]
  obtain ⟨entries, hentries, hkeys⟩ := h.document
  cases hentries with
  | unnamed hno =>
      have hpath : filePath? args env = none := by
        refine Option.eq_none_iff_forall_not_mem.mpr fun path hpath => ?_
        exact hno path ((filePath?_eq_some_iff h.values).mp hpath)
      refine ⟨base, ⟨[], .unnamed hno, fun f hf => .inr ⟨rfl, hbase f hf⟩⟩, ?_⟩
      simp only [hpath]
      rfl
  | @named path content text _ hpath hcontent htext hparse =>
      obtain ⟨s, hs⟩ : ∃ s : Settings,
          ∀ f ∈ fields format, f.ByDocument args env entries (f.get s) := by
        refine exists_settings fun f hf => ?_
        cases hlookup : entries.lookup f.key with
        | none => exact ⟨f.get base, .inr ⟨hlookup, hbase f hf⟩⟩
        | some v =>
            obtain ⟨x, hx⟩ := hkeys f hf v hlookup
            exact ⟨x, .inl ⟨v, hlookup, hx⟩⟩
      have hfile : base.withFile format content = .ok s := (withFile_eq_ok_iff hformat hbase).mpr
        ⟨text, entries, htext, hparse, h.numbers ⟨path, hpath⟩ base hbase, hs⟩
      refine ⟨s, ⟨entries, .named hpath hcontent htext hparse, hs⟩, ?_⟩
      simp only [(filePath?_eq_some_iff h.values).mpr hpath, hcontent]
      change (base.withFile format content >>= validate) = _
      rw [hfile]
      rfl

/-- There are no settings where a source cannot be read. -/
theorem legible_of_load_eq_ok (hformat : format.Lawful)
    (h : load args env readFile format = .ok c) : Legible format args env readFile := by
  obtain ⟨t, ht, h⟩ := bind_eq_ok.mp h
  obtain ⟨s, hs, h⟩ := bind_eq_ok.mp h
  obtain ⟨hvalues, hfields⟩ := (withArgs_withEnv_eq_ok_iff format).mp ⟨t, ht, hs⟩
  have htexts (f : Field format.Value) (hf : f ∈ fields format) := (hfields f hf).1
  have hbase (f : Field format.Value) (hf : f ∈ fields format) := (hfields f hf).2
  split at h
  · rename_i hpath
    have hno (path : String) : ¬ Names args env path := fun hnames => by
      cases hpath.symm.trans ((filePath?_eq_some_iff hvalues).mpr hnames)
    exact ⟨hvalues, htexts, ⟨[], .unnamed hno, fun _ _ _ hv => nomatch hv⟩,
      fun ⟨path, hnames⟩ => (hno path hnames).elim⟩
  · rename_i path hpath
    have hnames := (filePath?_eq_some_iff hvalues).mp hpath
    split at h
    · cases h
    · rename_i content hcontent
      obtain ⟨s', hfile, -⟩ := bind_eq_ok.mp h
      obtain ⟨text, entries, htext, hparse, hfits, hs'⟩ :=
        (withFile_eq_ok_iff hformat hbase).mp hfile
      refine ⟨hvalues, htexts, ⟨entries, .named hnames hcontent htext hparse, ?_⟩, ?_⟩
      · intro f hf v hv
        rcases hs' f hf with ⟨_, hv', hread⟩ | ⟨hnone, -⟩
        · cases hv.symm.trans hv'
          exact ⟨_, hread⟩
        · cases hv.symm.trans hnone
      · rintro - b hb
        rwa [eq_of_fields format fun f hf => (hb f hf).unique (hbase f hf)]

/-- The settings that a relay starts with are the layered ones, if all sources can be read and if
the relay can run with them. -/
theorem load_eq_ok_iff (hformat : format.Lawful) : load args env readFile format = .ok c ↔
    Legible format args env readFile ∧ Layered format args env readFile c ∧ Sound c := by
  constructor
  · intro h
    have hlegible := legible_of_load_eq_ok hformat h
    obtain ⟨s, hs, hload⟩ := hlegible.load_eq hformat
    obtain ⟨rfl, hsound⟩ := validate_eq_ok_iff.mp (hload.symm.trans h)
    exact ⟨hlegible, hs, hsound⟩
  · rintro ⟨hlegible, hc, hsound⟩
    obtain ⟨s, hs, hload⟩ := hlegible.load_eq hformat
    obtain rfl := hc.unique hs hlegible.values
    exact hload.trans (validate_eq_ok_iff.mpr ⟨rfl, hsound⟩)

/-- Whatever the sources are, and in whatever format the file is written: settings come out just if
all sources can be read and the settings that they make up, each taken from the first source that
says something of it, are ones that the relay can run with. Settings that it cannot run with are
refused, and where all sources can be read there are always settings to look at. -/
theorem load_layers_sources (format : Format) (hformat : format.Lawful) (args : List String)
    (env : String → Option String) (readFile : String → Except FileFault Bytes) :
    (∀ c, load args env readFile format = .ok c ↔
      Legible format args env readFile ∧ Layered format args env readFile c ∧ Sound c) ∧
    (∀ s, Layered format args env readFile s → ¬ Sound s →
      ∃ e, load args env readFile format = .error e) ∧
    (Legible format args env readFile →
      ∃ s, Layered format args env readFile s ∧ load args env readFile format = s.validate) := by
  refine ⟨fun c => load_eq_ok_iff hformat, fun s hs hfaulty => ?_, Legible.load_eq hformat⟩
  cases hload : load args env readFile format with
  | error e => exact ⟨e, rfl⟩
  | ok c =>
      obtain ⟨hlegible, hc, hsound⟩ := (load_eq_ok_iff hformat).mp hload
      exact (hfaulty (hs.unique hc hlegible.values ▸ hsound)).elim

theorem eq_ok_of_toOption {ε α : Type} {x : Except ε α} {a : α} (h : x.toOption = some a) :
    x = .ok a := by
  cases x with
  | error e => cases h
  | ok b => exact congrArg Except.ok (Option.some.inj h)

/-- An environment that sets more than counts in the end. -/
def crowdedEnv (name : String) : Option String :=
  [("NATPROXY_WORKERS", "4"), ("NATPROXY_LOGIN_TIMEOUT", "10"), ("NATPROXY_CONFIG", "unread"),
    ("NATPROXY_HTTP_ADDR", "[::1]:8080")].lookup name

/-- A command line that names a file like a flag. -/
def crowdedArgs : List String :=
  ["--workers", "8", "-x", "-f", "--workers", "--admin-token", "token"]

def crowdedFile (path : String) : Except FileFault Bytes :=
  if path = "--workers" then .ok (Text.Utf8.encode "login_timeout_secs = 5\nmax_channels = 16")
  else .error .missing

/-- The settings that come of them. -/
def crowded : Settings :=
  { workerThreads := 8
    loginTimeoutSecs := 5
    maxChannels := 16
    httpAddr := some ⟨.v6 .loopback, 8080, 0⟩
    adminToken := some "token" }

theorem load_crowded :
    (Layered .toml crowdedArgs crowdedEnv crowdedFile crowded ∧ Sound crowded) ∧
      (∃ s, Layered .toml crowdedArgs crowdedEnv crowdedFile s ∧
        load crowdedArgs crowdedEnv crowdedFile = s.validate) ∧
      ∃ e, load ["--workers", "0"] (fun _ => none) (fun _ => .error .missing) = .error e := by
  have hload : (load crowdedArgs crowdedEnv crowdedFile).toOption = some crowded := by
    decide +kernel
  obtain ⟨hiff, -, hlook⟩ :=
    load_layers_sources .toml toml_lawful crowdedArgs crowdedEnv crowdedFile
  obtain ⟨hlegible, hcrowded⟩ := (hiff crowded).mp (eq_ok_of_toOption hload)
  refine ⟨hcrowded, hlook hlegible, ?_⟩
  refine (load_layers_sources .toml toml_lawful _ _ _).2.1 { workerThreads := 0 } ?_ fun h =>
    Nat.lt_irrefl 0 h.workerThreads
  have henv : withEnv (fun _ => none) {} = .ok {} := rfl
  have hargs : (withArgs ["--workers", "0"] {}).toOption = some { workerThreads := 0 } := by
    decide +kernel
  have hpath : filePath? ["--workers", "0"] (fun _ => none) = none := by decide
  obtain ⟨hvalues, hfields⟩ :=
    (withArgs_withEnv_eq_ok_iff .toml).mp ⟨{}, henv, eq_ok_of_toOption hargs⟩
  refine ⟨[], .unnamed fun path hnames => ?_, fun f hf => .inr ⟨rfl, (hfields f hf).2⟩⟩
  cases hpath.symm.trans ((filePath?_eq_some_iff hvalues).mpr hnames)

end PeerRelay.Settings
