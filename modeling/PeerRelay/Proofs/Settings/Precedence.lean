import PeerRelay.Proofs.Settings.CommandLine
import PeerRelay.Proofs.Settings.Fields

/-!
# Which source a setting comes from

A setting has its value from the first source that says something of it: the settings file, the
last flag on the command line, the environment, the defaults. What a source says has to be
readable, also where another one goes over it.
-/

namespace PeerRelay.Settings

/-! ## What the sources say -/

namespace Field

variable {Value : Type} (f : Field Value) (args : List String) (env : String → Option String)
  (entries : List (String × Value))

/-- The value that a setting has by its environment variable, or by default. -/
def ByEnv (x : f.Carrier) : Prop :=
  (∃ name read text, f.envVar? = some (name, read) ∧ env name = some text ∧ read text = .ok x) ∨
    (∀ name read, f.envVar? = some (name, read) → env name = none) ∧ x = f.get {}

/-- The value that a setting has by the last flag for it, or else by the environment. -/
def ByLine (x : f.Carrier) : Prop :=
  (∃ flag read i text, f.flag? = some (flag, read) ∧ LastAt args flag i ∧
      args[i + 1]? = some text ∧ read text = .ok x) ∨
    (∀ flag read i, f.flag? = some (flag, read) → ¬ StandsAt args flag i) ∧ f.ByEnv env x

/-- The value that a setting has by its key in a document, or else by the command line. -/
def ByDocument (x : f.Carrier) : Prop :=
  (∃ v, entries.lookup f.key = some v ∧ f.ofValue v = some x) ∨
    entries.lookup f.key = none ∧ f.ByLine args env x

/-- The variable of a setting can be read, and so can every flag for it. -/
structure Legible : Prop where
  env : ∀ name read text, f.envVar? = some (name, read) → env name = some text →
    ∃ x, read text = .ok x
  line : ∀ flag read i text, f.flag? = some (flag, read) → StandsAt args flag i →
    args[i + 1]? = some text → ∃ x, read text = .ok x

end Field

/-! ## Layer by layer -/

namespace Field

variable {Value : Type} {f : Field Value} {args : List String} {env : String → Option String}
  {entries : List (String × Value)} {x y : f.Carrier}

theorem overEnv_eq_ok_iff : f.overEnv env (f.get {}) = .ok x ↔
    (∀ name read text, f.envVar? = some (name, read) → env name = some text →
      ∃ x, read text = .ok x) ∧ f.ByEnv env x := by
  rw [overEnv, ByEnv]
  cases henvVar : f.envVar? with
  | none =>
      constructor
      · intro h
        refine ⟨?_, .inr ⟨?_, (Except.ok.inj h).symm⟩⟩
        · rintro _ _ _ ⟨⟩
        · rintro _ _ ⟨⟩
      · rintro ⟨-, ⟨_, _, _, ⟨⟩, -⟩ | ⟨-, rfl⟩⟩
        rfl
  | some source =>
      obtain ⟨name, read⟩ := source
      dsimp only
      cases henv : env name with
      | none =>
          constructor
          · intro h
            refine ⟨?_, .inr ⟨?_, (Except.ok.inj h).symm⟩⟩
            · rintro _ _ _ ⟨⟩ htext
              cases henv.symm.trans htext
            · rintro _ _ ⟨⟩
              exact henv
          · rintro ⟨-, ⟨_, _, _, ⟨⟩, htext, -⟩ | ⟨-, rfl⟩⟩
            · cases henv.symm.trans htext
            · rfl
      | some text =>
          constructor
          · intro h
            refine ⟨?_, .inl ⟨name, read, text, rfl, henv, h⟩⟩
            rintro _ _ _ ⟨⟩ htext
            cases henv.symm.trans htext
            exact ⟨x, h⟩
          · rintro ⟨-, ⟨_, _, _, ⟨⟩, htext, hread⟩ | ⟨hnone, -⟩⟩
            · cases henv.symm.trans htext
              exact hread
            · cases henv.symm.trans (hnone name read rfl)

/-- Of several flags for a setting the last counts, but all are read. -/
theorem foldlM_overFlag_eq_ok_iff {flag : Flag} {read : String → Except Error f.Carrier}
    (hflag : f.flag? = some (flag, read)) {line : List Given}
    (hvalues : ∀ given ∈ line, given.value.isSome = true) :
    line.foldlM f.overFlag x = .ok y ↔
      (∀ given ∈ line, given.flag = flag → ∀ text, given.value = some text →
        ∃ z, read text = .ok z) ∧
      match (line.filter (·.flag = flag)).getLast? with
      | none => y = x
      | some given => layered x given.value read = .ok y := by
  induction line generalizing x with
  | nil =>
      rw [List.foldlM_nil, pure_eq_ok]
      exact ⟨fun h => ⟨List.forall_mem_nil _, h.symm⟩, fun h => h.2.symm⟩
  | cons given line ih =>
      have hline := fun (z : f.Carrier) => @ih z fun g hg => hvalues g (List.mem_cons_of_mem _ hg)
      obtain ⟨text, htext⟩ := Option.isSome_iff_exists.mp (hvalues given List.mem_cons_self)
      rw [List.foldlM_cons, bind_eq_ok]
      simp only [hline, List.forall_mem_cons, overFlag, hflag]
      by_cases hgiven : given.flag = flag
      · have hfilter : (given :: line).filter (·.flag = flag) =
            given :: line.filter (·.flag = flag) := List.filter_cons_of_pos (decide_eq_true hgiven)
        have hread (P : Prop) : ((∀ t, some text = some t → ∃ z, read t = .ok z) ∧ P) ↔
            (∃ z, read text = .ok z) ∧ P := by simp
        rw [hfilter, List.getLast?_cons]
        simp only [hgiven, htext, layered, if_true, forall_const, hread]
        cases hlast : (line.filter (·.flag = flag)).getLast? with
        | none =>
            constructor
            · rintro ⟨z, hz, hrest, rfl⟩
              exact ⟨⟨⟨y, hz⟩, hrest⟩, by simpa [htext] using hz⟩
            · rintro ⟨⟨-, hrest⟩, hy⟩
              exact ⟨y, by simpa [htext] using hy, hrest, rfl⟩
        | some last =>
            have hmem := (List.mem_filter.mp (List.mem_of_getLast? hlast)).1
            have hlastvalue := hvalues last (List.mem_cons_of_mem _ hmem)
            obtain ⟨t, ht⟩ := Option.isSome_iff_exists.mp hlastvalue
            simp only [Option.getD_some, ht]
            constructor
            · rintro ⟨z, hz, hrest, hy⟩
              exact ⟨⟨⟨z, hz⟩, hrest⟩, hy⟩
            · rintro ⟨⟨⟨z, hz⟩, hrest⟩, hy⟩
              exact ⟨z, hz, hrest, hy⟩
      · have hfilter : (given :: line).filter (·.flag = flag) = line.filter (·.flag = flag) :=
          List.filter_cons_of_neg (by simpa using hgiven)
        rw [hfilter]
        simp only [hgiven, if_false, false_implies, true_and, Except.ok.injEq, exists_eq_left']

theorem foldlM_overFlag_of_none (hflag : f.flag? = none) (line : List Given) :
    line.foldlM f.overFlag x = .ok x := by
  have hstays (given : Given) : f.overFlag x given = .ok x := by rw [overFlag, hflag]
  induction line with
  | nil => rfl
  | cons given line ih =>
      rw [List.foldlM_cons, hstays]
      exact ih

/-- The last of the flags on a command line gives the value, if one stands there. -/
theorem getLast?_scan_iff (hvalues : Valued args) {flag : Flag}
    {read : String → Except Error f.Carrier} :
    (match ((scan args).filter (·.flag = flag)).getLast? with
      | none => y = x
      | some given => layered x given.value read = .ok y) ↔
      (∃ i text, LastAt args flag i ∧ args[i + 1]? = some text ∧ read text = .ok y) ∨
        (∀ i, ¬ StandsAt args flag i) ∧ y = x := by
  split
  · rename_i hnone
    have hnowhere := getLast?_scan_eq_none.mp hnone
    constructor
    · intro h
      exact .inr ⟨hnowhere, h⟩
    · rintro (⟨i, _, hi, -⟩ | ⟨-, h⟩)
      · exact (hnowhere i hi.1).elim
      · exact h
  · rename_i given hlast
    obtain ⟨i, hi, hvalue⟩ := lastAt_of_getLast?_scan hlast
    obtain ⟨text, htext⟩ := Option.isSome_iff_exists.mp (hvalues flag i hi.1)
    rw [← hvalue, htext]
    constructor
    · intro h
      exact .inl ⟨i, text, hi, htext, h⟩
    · rintro (⟨j, _, hj, htext', hread⟩ | ⟨hnowhere, -⟩)
      · obtain rfl := hi.unique hj
        cases htext.symm.trans htext'
        exact hread
      · exact (hnowhere i hi.1).elim

theorem foldlM_scan_eq_ok_iff (hvalues : Valued args) :
    (scan args).foldlM f.overFlag x = .ok y ↔
      (∀ flag read i text, f.flag? = some (flag, read) → StandsAt args flag i →
        args[i + 1]? = some text → ∃ z, read text = .ok z) ∧
      ((∃ flag read i text, f.flag? = some (flag, read) ∧ LastAt args flag i ∧
          args[i + 1]? = some text ∧ read text = .ok y) ∨
        (∀ flag read i, f.flag? = some (flag, read) → ¬ StandsAt args flag i) ∧ y = x) := by
  cases hflag : f.flag? with
  | none =>
      rw [foldlM_overFlag_of_none hflag]
      constructor
      · intro h
        exact ⟨nofun, .inr ⟨nofun, (Except.ok.inj h).symm⟩⟩
      · rintro ⟨-, ⟨_, _, _, _, ⟨⟩, -⟩ | ⟨-, rfl⟩⟩
        rfl
  | some source =>
      obtain ⟨flag, read⟩ := source
      rw [foldlM_overFlag_eq_ok_iff hflag (forall_scan_isSome_iff.mpr hvalues),
        forall_scan_flag_iff fun value => ∀ text, value = some text → ∃ z, read text = .ok z]
      refine and_congr ⟨?_, ?_⟩ ((getLast?_scan_iff hvalues).trans ?_)
      · rintro h _ _ i text ⟨⟩ hi
        exact h i hi text
      · exact fun h i hi text => h flag read i text rfl hi
      · refine or_congr ⟨?_, ?_⟩ (and_congr_left' ⟨?_, ?_⟩)
        · rintro ⟨i, text, h⟩
          exact ⟨flag, read, i, text, rfl, h⟩
        · rintro ⟨_, _, i, text, ⟨⟩, h⟩
          exact ⟨i, text, h⟩
        · rintro h _ _ i ⟨⟩
          exact h i
        · exact fun h i => h flag read i rfl

theorem exists_byEnv (h : f.Legible args env) : ∃ x, f.ByEnv env x := by
  cases henvVar : f.envVar? with
  | none => exact ⟨_, .inr ⟨fun _ _ hv => (nomatch henvVar.symm.trans hv), rfl⟩⟩
  | some source =>
      obtain ⟨name, read⟩ := source
      cases henv : env name with
      | none =>
          refine ⟨_, .inr ⟨fun _ _ hv => ?_, rfl⟩⟩
          cases henvVar.symm.trans hv
          exact henv
      | some text =>
          obtain ⟨x, hx⟩ := h.env name read text henvVar henv
          exact ⟨x, .inl ⟨name, read, text, henvVar, henv, hx⟩⟩

/-- Two layers, the command line over the environment. -/
theorem exists_overEnv_iff (hvalues : Valued args) :
    (∃ x, f.overEnv env (f.get {}) = .ok x ∧ (scan args).foldlM f.overFlag x = .ok y) ↔
      f.Legible args env ∧ f.ByLine args env y := by
  simp only [overEnv_eq_ok_iff, foldlM_scan_eq_ok_iff hvalues]
  constructor
  · rintro ⟨x, ⟨henv, hx⟩, hline, hy | ⟨hnowhere, rfl⟩⟩
    · exact ⟨⟨henv, hline⟩, .inl hy⟩
    · exact ⟨⟨henv, hline⟩, .inr ⟨hnowhere, hx⟩⟩
  · rintro ⟨hlegible, hy | ⟨hnowhere, hy⟩⟩
    · obtain ⟨x, hx⟩ := exists_byEnv hlegible
      exact ⟨x, ⟨hlegible.env, hx⟩, hlegible.line, .inl hy⟩
    · exact ⟨y, ⟨hlegible.env, hy⟩, hlegible.line, .inr ⟨hnowhere, rfl⟩⟩

theorem exists_byLine (hvalues : Valued args)
    (h : f.Legible args env) : ∃ y, f.ByLine args env y := by
  obtain ⟨x, hx⟩ := exists_byEnv h
  by_cases hstands : ∃ flag read i, f.flag? = some (flag, read) ∧ LastAt args flag i
  · obtain ⟨flag, read, i, hflag, hi⟩ := hstands
    obtain ⟨text, htext⟩ := Option.isSome_iff_exists.mp (hvalues flag i hi.1)
    obtain ⟨y, hy⟩ := h.line flag read i text hflag hi.1 htext
    exact ⟨y, .inl ⟨flag, read, i, text, hflag, hi, htext, hy⟩⟩
  · refine ⟨x, .inr ⟨fun flag read i hflag hi => hstands ?_, hx⟩⟩
    obtain ⟨j, hj⟩ := hi.exists_lastAt
    exact ⟨flag, read, j, hflag, hj⟩

theorem ByEnv.unique (hx : f.ByEnv env x) (hy : f.ByEnv env y) : x = y := by
  rcases hx with ⟨name, read, text, henvVar, henv, hread⟩ | ⟨hunset, rfl⟩
  · rcases hy with ⟨_, _, _, henvVar', henv', hread'⟩ | ⟨hunset, -⟩
    · cases henvVar.symm.trans henvVar'
      cases henv.symm.trans henv'
      exact Except.ok.inj (hread.symm.trans hread')
    · cases henv.symm.trans (hunset name read henvVar)
  · rcases hy with ⟨name, read, _, henvVar, henv, -⟩ | ⟨-, rfl⟩
    · cases henv.symm.trans (hunset name read henvVar)
    · rfl

theorem ByLine.unique (hx : f.ByLine args env x) (hy : f.ByLine args env y) : x = y := by
  rcases hx with ⟨flag, read, i, text, hflag, hi, htext, hread⟩ | ⟨hnowhere, hx⟩
  · rcases hy with ⟨_, _, j, _, hflag', hj, htext', hread'⟩ | ⟨hnowhere, -⟩
    · cases hflag.symm.trans hflag'
      obtain rfl := hi.unique hj
      cases htext.symm.trans htext'
      exact Except.ok.inj (hread.symm.trans hread')
    · exact (hnowhere flag read i hflag hi.1).elim
  · rcases hy with ⟨flag, read, i, _, hflag, hi, -⟩ | ⟨-, hy⟩
    · exact (hnowhere flag read i hflag hi.1).elim
    · exact hx.unique hy

theorem ByDocument.unique (hx : f.ByDocument args env entries x)
    (hy : f.ByDocument args env entries y) : x = y := by
  rcases hx with ⟨v, hv, hread⟩ | ⟨hnone, hx⟩
  · rcases hy with ⟨_, hv', hread'⟩ | ⟨hnone, -⟩
    · cases hv.symm.trans hv'
      exact Option.some.inj (hread.symm.trans hread')
    · cases hv.symm.trans hnone
  · rcases hy with ⟨_, hv, -⟩ | ⟨-, hy⟩
    · cases hv.symm.trans hnone
    · exact hx.unique hy

/-- The document over the command line. -/
theorem overDocument_eq_some_iff (hx : f.ByLine args env x) :
    f.overDocument entries x = some y ↔ f.ByDocument args env entries y := by
  rw [overDocument, overKey, ByDocument]
  cases hlookup : entries.lookup f.key with
  | none =>
      constructor
      · intro h
        exact .inr ⟨rfl, Option.some.inj h ▸ hx⟩
      · rintro (⟨_, ⟨⟩, -⟩ | ⟨-, hy⟩)
        exact congrArg some (hx.unique hy)
  | some v =>
      constructor
      · intro h
        exact .inl ⟨v, rfl, h⟩
      · rintro (⟨_, ⟨⟩, hread⟩ | ⟨⟨⟩, -⟩)
        exact hread

/-- What the command line and the environment make of a setting was read from a text, or is the
default. -/
theorem ByLine.read_or_default (h : f.ByLine args env x) :
    (∃ read text, ((∃ flag, f.flag? = some (flag, read)) ∨
      ∃ name, f.envVar? = some (name, read)) ∧ read text = .ok x) ∨ x = f.get {} := by
  rcases h with ⟨flag, read, _, text, hflag, -, -, hread⟩ | ⟨-, hx⟩
  · exact .inl ⟨read, text, .inl ⟨flag, hflag⟩, hread⟩
  · rcases hx with ⟨name, read, text, henvVar, -, hread⟩ | ⟨-, rfl⟩
    · exact .inl ⟨read, text, .inr ⟨name, henvVar⟩, hread⟩
    · exact .inr rfl

end Field

end PeerRelay.Settings
