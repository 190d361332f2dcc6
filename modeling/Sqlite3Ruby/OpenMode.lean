import Sqlite3Ruby.Opening

/-!
# The mode a database is opened in

The mode is recorded three times: in the flags of the call that opens the file, in
`@readonly`, and in the flag of the C structure.
-/

namespace Sqlite3Ruby.Opening

/-- `Database#initialize`, with the `@readonly` that it sets. -/
def initializeReadonly (host : Host) (sqlite : Sqlite) (file : File) (options : Options)
    (zvfs : Value) : OpenM Bool := do
  let mode ← openFile host sqlite file options zvfs
  let readonly ← RubyM.lift mode.isReadonly
  initializeExtensions sqlite options.extensions
  pure readonly

/-- The flags that SQLite opens the file with: `sqlite3_open16` has no argument for
them, and takes `READWRITE | CREATE`. -/
def Request.flags : Request → Int
  | .openV2 _ flags _ => flags
  | .open16 _ => 6

/-- The flags that the options ask for, unless they contradict each other. -/
def Options.requestedFlags (options : Options) (flags : Option Int) : Option Int :=
  match options.readonly, options.readwrite, flags with
  | false, false, none => some 6
  | true, false, none => some 1
  | false, true, none => some 2
  | false, false, some flags => some flags
  | _, _, _ => none

/-- The file is open as the options ask for it, and both records say whether it is
open for reading only. -/
def Honours (options : Options) (flags : Option Int) (readonly : Bool) (st : State) : Prop :=
  ∃ request c, st.requests = [request] ∧ st.connections = [some c] ∧
    options.requestedFlags flags = some request.flags ∧
    (options.strict = true → c.quirks = false) ∧
    (readonly = true ↔ request.flags % 2 = 1) ∧ (st.readonly = true ↔ request.flags % 2 = 1)

variable {host : Host} {sqlite : Sqlite} {file : File} {options : Options} {zvfs : Value}

theorem databaseInitialize_eq (host : Host) (sqlite : Sqlite) (file : File) (options : Options)
    (zvfs : Value) :
    databaseInitialize host sqlite file options zvfs =
      initializeReadonly host sqlite file options zvfs >>= fun _ => pure () := by
  have hunit (m : OpenM Unit) (b : Bool) :
      ((m >>= fun _ => pure b) >>= fun _ => pure ()) = m := by
    funext st
    rw [RubyM.bind_assoc]
    rcases hrun : m st with ⟨o, st'⟩
    cases o with
    | ok u => exact RubyM.bind_run_ok u _ hrun
    | raise e => exact RubyM.bind_run_raise _ hrun
    | jump tag => exact RubyM.bind_run_jump _ hrun
  rw [databaseInitialize, initializeReadonly, RubyM.bind_assoc]
  congr 1
  funext mode
  rw [RubyM.bind_assoc]
  congr 1
  funext readonly
  rw [hunit]

/-! ## What the extensions leave as it is -/

/-- The calls, the flag, and what the connections take for a string. -/
def SameMode (st st' : State) : Prop :=
  st'.requests = st.requests ∧ st'.readonly = st.readonly ∧
    st'.connections.map (Option.map Connection.quirks) =
      st.connections.map (Option.map Connection.quirks)

theorem SameMode.trans {st st' st'' : State} (h : SameMode st st') (h' : SameMode st' st'') :
    SameMode st st'' :=
  ⟨h'.1.trans h.1, h'.2.1.trans h.2.1, h'.2.2.trans h.2.2⟩

theorem SameMode.refl (st : State) : SameMode st st := ⟨rfl, rfl, rfl⟩

theorem sameMode_configure (st : State) (onoff : Bool) :
    SameMode st (st.configure fun c => { c with loadsExtensions := onoff }) := by
  refine ⟨rfl, rfl, ?_⟩
  rw [State.configure]
  cases st.db with
  | none => rfl
  | some id =>
    simp only [Option.map_some, Option.getD_some]
    apply List.ext_getElem?
    intro i
    rw [List.getElem?_map, List.getElem?_map, List.getElem?_modify]
    split
    · cases st.connections[i]? with
      | none => rfl
      | some c => cases c <;> rfl
    · simp

theorem sameMode_requireOpenDb (st : State) : SameMode st (requireOpenDb st).2 := by
  rw [requireOpenDb, RubyM.get_bind]
  split_ifs
  · exact SameMode.refl st
  · exact SameMode.refl st

theorem sameMode_enableLoadExtension (sqlite : Sqlite) (onoff : Bool) (st : State) :
    SameMode st (enableLoadExtension sqlite onoff st).2 := by
  unfold enableLoadExtension
  cases sqlite.enableLoadExtension with
  | none => exact SameMode.refl st
  | some enable =>
    refine RubyM.bind_respects SameMode SameMode.trans sameMode_requireOpenDb (fun _ st => ?_) st
    cases enable onoff with
    | none => exact sameMode_configure st onoff
    | some status => exact SameMode.refl st

theorem sameMode_loadEach (sqlite : Sqlite) (specifiers : List Specifier) (st : State) :
    SameMode st (loadEach sqlite specifiers st).2 := by
  induction specifiers generalizing st with
  | nil => exact SameMode.refl st
  | cons specifier specifiers ih =>
    refine RubyM.bind_respects SameMode SameMode.trans (fun st => ?_) (fun _ => ih) st
    refine RubyM.bind_respects SameMode SameMode.trans (fun st => SameMode.refl st)
      (fun file st => ?_) st
    refine RubyM.bind_respects SameMode SameMode.trans sameMode_requireOpenDb (fun _ st => ?_) st
    exact RubyM.bind_respects SameMode SameMode.trans (fun st => SameMode.refl st)
      (fun text st => SameMode.refl st) st

theorem sameMode_initializeExtensions (sqlite : Sqlite) (extensions : Extensions) (st : State) :
    SameMode st (initializeExtensions sqlite extensions st).2 := by
  cases extensions with
  | nil => exact SameMode.refl st
  | other => exact SameMode.refl st
  | array specifiers =>
    cases specifiers with
    | nil => exact SameMode.refl st
    | cons specifier specifiers =>
      have hload : ∀ st, SameMode st (enableAndLoad sqlite (specifier :: specifiers) st).2 :=
        RubyM.bind_respects SameMode SameMode.trans (sameMode_enableLoadExtension sqlite true)
          fun _ => sameMode_loadEach sqlite _
      -- the clause of the `ensure` runs in whatever state the rest has left
      refine (hload st).trans ?_
      exact RubyM.bind_respects SameMode SameMode.trans (sameMode_enableLoadExtension sqlite false)
        (fun _ st => SameMode.refl st) _

/-! ## The mode -/

theorem openRequest_cases {s : RString} {frozen : Bool} {request : Request} {mode : Mode}
    (hname : file.toPath >>= Name.toString = .ok (s, frozen))
    (h : openRequest host file options zvfs = .ok (request, mode)) :
    (isUtf16 s options = true ∧ ∃ text, request = .open16 text ∧ mode = .create) ∨
      (isUtf16 s options = false ∧ ∃ text flags vfs, request = .openV2 text flags vfs ∧
        options.mode = .ok mode ∧ mode.toInt = .ok flags) := by
  obtain ⟨name, hpath, hstring⟩ := Outcome.bind_eq_ok_iff.mp hname
  rw [openRequest, hpath, Outcome.ok_bind, hstring, Outcome.ok_bind] at h
  cases hutf16 : isUtf16 s options with
  | true =>
    simp only [hutf16, if_true] at h
    obtain ⟨text, -, hrequest⟩ := Outcome.bind_eq_ok_iff.mp h
    obtain ⟨rfl, rfl⟩ := Prod.mk.inj (Outcome.ok.inj hrequest)
    exact Or.inl ⟨rfl, text, rfl, rfl⟩
  | false =>
    simp only [hutf16, Bool.false_eq_true, if_false] at h
    obtain ⟨mode', hmode, h⟩ := Outcome.bind_eq_ok_iff.mp h
    obtain ⟨text, -, h⟩ := Outcome.bind_eq_ok_iff.mp h
    obtain ⟨flags, hflags, h⟩ := Outcome.bind_eq_ok_iff.mp h
    obtain ⟨text', -, h⟩ := Outcome.bind_eq_ok_iff.mp h
    obtain ⟨vfs, -, hrequest⟩ := Outcome.bind_eq_ok_iff.mp h
    obtain ⟨rfl, rfl⟩ := Prod.mk.inj (Outcome.ok.inj hrequest)
    exact Or.inr ⟨rfl, text', flags, vfs, rfl, hmode, hflags⟩

/-- The mode is the one that the options ask for; contradictory options have raised. -/
theorem mode_requested {flags : Option Int} {mode : Mode} {n : Int}
    (hflags : options.flags = flags.map Mode.integer) (hmode : options.mode = .ok mode)
    (hint : mode.toInt = .ok n) :
    options.requestedFlags flags = some n ∧ mode.isReadonly = .ok (decide (n % 2 = 1)) := by
  have hinteger : ∀ k, mode = .integer k → n = k ∧ mode.isReadonly = .ok (decide (n % 2 = 1)) := by
    rintro k rfl
    obtain rfl := checkInt_eq_ok hint
    exact ⟨rfl, rfl⟩
  rw [Options.mode, hflags] at hmode
  cases flags with
  | none =>
    cases hro : options.readonly <;> cases hrw : options.readwrite <;> rw [hro, hrw] at hmode <;>
      simp only [Options.requestedFlags, hro, hrw]
    · obtain ⟨rfl, hreadonly⟩ := hinteger 6 (Outcome.ok.inj hmode).symm
      exact ⟨rfl, hreadonly⟩
    · obtain ⟨rfl, hreadonly⟩ := hinteger 2 (Outcome.ok.inj hmode).symm
      exact ⟨rfl, hreadonly⟩
    · obtain ⟨rfl, hreadonly⟩ := hinteger 1 (Outcome.ok.inj hmode).symm
      exact ⟨rfl, hreadonly⟩
    · cases hmode
  | some k =>
    cases hro : options.readonly <;> cases hrw : options.readwrite <;> rw [hro, hrw] at hmode <;>
      simp only [Options.requestedFlags, hro, hrw]
    · obtain ⟨rfl, hreadonly⟩ := hinteger k (Outcome.ok.inj hmode).symm
      exact ⟨rfl, hreadonly⟩
    · cases hmode
    · cases hmode
    · cases hmode

/-! ## An accepted call -/

/-- What a constructor that returns has opened, and the state it leaves. -/
theorem initializeReadonly_returns {readonly : Bool} {st : State}
    (h : initializeReadonly host sqlite file options zvfs {} = (.ok readonly, st)) :
    ∃ request mode, openRequest host file options zvfs = .ok (request, mode) ∧
      mode.isReadonly = .ok readonly ∧
      SameMode (request.settle options (State.connect {} request)) st := by
  obtain ⟨mode, opened, hopen, hrest⟩ := RubyM.bind_eq_ok_iff.mp h
  have hopened : ∃ request mode, openRequest host file options zvfs = .ok (request, mode) ∧
      sqlite.answer request = .opened := by
    by_contra hnot
    push Not at hnot
    apply (openFile_not_opened hnot).1
    rw [hopen]
    exact Outcome.returns_ok mode
  obtain ⟨request, mode', hrequest, hanswer⟩ := hopened
  obtain ⟨hmode, rfl⟩ := Prod.mk.inj (hopen.symm.trans (openFile_opened hrequest hanswer))
  obtain rfl := Outcome.ok.inj hmode
  obtain ⟨_, _, htest, hrest⟩ := RubyM.bind_eq_ok_iff.mp hrest
  obtain ⟨hreadonly, rfl⟩ := Prod.mk.inj htest
  obtain ⟨_, _, hextensions, hpure⟩ := RubyM.bind_eq_ok_iff.mp hrest
  obtain ⟨hsame, rfl⟩ := Prod.mk.inj hpure
  obtain rfl := Outcome.ok.inj hsame
  refine ⟨request, mode, hrequest, hreadonly, ?_⟩
  have hkept := sameMode_initializeExtensions sqlite options.extensions
    (request.settle options (State.connect {} request))
  rw [hextensions] at hkept
  exact hkept

/-- The connection of a file that is just open, and the flag. -/
theorem settle_connect (request : Request) (options : Options) :
    ∃ c, (request.settle options (State.connect {} request)).connections = [some c] ∧
      ((request.settle options (State.connect {} request)).readonly = true ↔
        request.flags % 2 = 1) ∧
      (c.quirks = false ↔
        options.strict = true ∧ ∃ file flags zvfs, request = .openV2 file flags zvfs) := by
  cases request with
  | open16 file =>
    refine ⟨{}, rfl, iff_of_false Bool.false_ne_true (by decide : ¬ (6 : Int) % 2 = 1), ?_⟩
    simp
  | openV2 file flags zvfs =>
    refine ⟨{ quirks := !options.strict }, ?_, ?_, ?_⟩
    · by_cases hflags : flags % 2 = 1 <;> cases hstrict : options.strict <;>
        simp [Request.settle, State.connect, State.configure, hflags, hstrict]
    · by_cases hflags : flags % 2 = 1 <;> cases hstrict : options.strict <;>
        simp [Request.settle, State.connect, State.configure, Request.flags, hflags, hstrict]
    · simp

theorem SameMode.connection {st st' : State} (h : SameMode st st') {c : Connection}
    (hc : st.connections = [some c]) :
    ∃ c', st'.connections = [some c'] ∧ c'.quirks = c.quirks := by
  have hquirks := h.2.2
  rw [hc, List.map_singleton, List.map_eq_singleton_iff] at hquirks
  obtain ⟨o, ho, hmap⟩ := hquirks
  obtain ⟨c', rfl, hsame⟩ := Option.map_eq_some_iff.mp hmap
  exact ⟨c', ho, hsame⟩

end Sqlite3Ruby.Opening
