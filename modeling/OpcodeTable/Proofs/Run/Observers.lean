import OpcodeTable.Proofs.Run.Outcome
import OpcodeTable.Proofs.Source.Modes

/-!
# Progress and listing only observe

A run does the same work whether or not it reports its progress and lists its definition. There is
one exception: a listing that needs too wide a column ends the run before anything is written.
-/

namespace OpcodeTable

variable {o : Options} {lookup : Lookup} {stdout : StandardOutput} {files : Files} {s : Settings}
  {d : Definition}

/-- There is no listing of a definition exactly when one of its columns would be too wide. -/
theorem Definition.listing?_eq_none_iff {path : String} :
    d.listing? path = none ↔ d.instructions ≠ [] ∧ widthLimit < d.maxlen := by
  simp [listing?]

namespace Options

/-- The options with these observers. -/
def observing (o : Options) (verbose dump : Bool) : Options :=
  { o with verbose, dump }

/-- The run comes to a definition whose listing has too wide a column. -/
def TooWide (o : Options) (lookup : Lookup) : Prop :=
  ∃ s d, o.Parses lookup s d ∧ d.instructions ≠ [] ∧ 65535 < d.maxlen

theorem Configures.observing (h : o.Configures lookup s) (verbose dump : Bool) :
    (o.observing verbose dump).Configures lookup s := by
  obtain ⟨base, hbase, rfl⟩ := h
  cases hbase with
  | defaults ho => exact ⟨_, .defaults ho, rfl⟩
  | file ho h hcontent => exact ⟨_, .file ho h hcontent, rfl⟩

/-- The settings and the definition that a run comes to do not depend on its observers. -/
theorem Parses.observing (h : o.Parses lookup s d) (verbose dump : Bool) :
    (o.observing verbose dump).Parses lookup s d :=
  ⟨h.settings.observing verbose dump, h.definition⟩

theorem Parses.definition_unique (h : o.Parses lookup s d) {s' : Settings} {d' : Definition}
    (h' : o.Parses lookup s' d') : d = d' := by
  obtain ⟨source, hsource, hd⟩ := h.definition
  obtain ⟨source', hsource', hd'⟩ := h'.definition
  obtain rfl := hsource.source_unique hsource'
  exact Except.ok.inj (hd.symm.trans hd')

/-- What a run shows before the listing. -/
def shownFirst (o : Options) (d : Definition) : String :=
  o.reportsToInput ++ o.countShown d

/-- What a run shows after the listing. -/
def shownLast (o : Options) : String :=
  o.shown "3. Generate Code" ++ o.shown ("  > " ++ o.output.getD "<stdout>")

/-- The listing stands between the other reports. -/
theorem reportsToInput_append_writingShown (o : Options) (d : Definition) :
    o.reportsToInput ++ o.writingShown d = o.shownFirst d ++ o.listingShown d ++ o.shownLast := by
  simp only [shownFirst, shownLast, writingShown, textShown, String.append_assoc]

theorem reportsToInput_append_textShown (o : Options) (d : Definition) :
    o.reportsToInput ++ o.textShown d =
      o.shownFirst d ++ o.listingShown d ++ o.shown "3. Generate Code" := by
  simp only [shownFirst, textShown, String.append_assoc]

end Options

open Options

/-! ## Runs with any observers -/

/-- A run that comes to no definition fails in the same way with all observers, and is never asked
for a listing. -/
theorem exists_run_eq_failure (stdout : StandardOutput) (h : ∀ s d, ¬o.Parses files.lookup s d) :
    ∃ (fault : Fault) (said : Bool → String), ∀ verbose dump,
      run (o.observing verbose dump) stdout files = ⟨.failure fault, "", said verbose, files⟩ := by
  obtain ⟨s, hs⟩ | ⟨fault, hfault⟩ := o.configures_or_misconfigures files.lookup
  case inr =>
    refine ⟨fault, fun verbose => (o.observing verbose false).reportsToSettings ++
      (Ending.failure fault).report, fun verbose dump => ?_⟩
    have hstops : (o.observing verbose dump).Stops files.lookup _ _ :=
      .settings hfault
    exact hstops.run_eq stdout
  have hsettings (verbose dump : Bool) : (o.observing verbose dump).Configures files.lookup s :=
    hs.observing verbose dump
  obtain ⟨source, hsource⟩ | ⟨cause, hcause⟩ := contains_or_unreadable files.lookup o.input
  case inr =>
    refine ⟨.unreadable o.input cause, fun verbose => (o.observing verbose false).reportsToInput ++
      (Ending.failure (.unreadable o.input cause)).report, fun verbose dump => ?_⟩
    have hstops : (o.observing verbose dump).Stops files.lookup _ _ :=
      .input (hsettings verbose dump) hcause
    exact hstops.run_eq stdout
  rcases hd : Definition.parse o.mode source with rs | d
  · refine ⟨.aborted o.input (Definition.reported rs).card,
      fun verbose => (o.observing verbose false).reportsToInput ++ o.diagnostics source rs ++
        (Ending.failure (.aborted o.input (Definition.reported rs).card)).report,
      fun verbose dump => ?_⟩
    have hstops : (o.observing verbose dump).Stops files.lookup _ _ :=
      .definition (hsettings verbose dump) hsource hd
    exact hstops.run_eq stdout
  · exact absurd ⟨hs, source, hsource, hd⟩ (h s d)

/-- A run that comes to a definition goes on in the same way with all observers, unless it is asked
for a listing that there is not. The listing stands between the two parts of its reports. -/
theorem Options.Parses.exists_run_eq (stdout : StandardOutput) (h : o.Parses files.lookup s d) :
    ∃ (ending : Ending) (written : String) (after : Files) (rest : Bool → String),
      ending ≠ .crash ∧ ∀ verbose dump, (dump = true → d.listing? o.input ≠ none) →
        run (o.observing verbose dump) stdout files =
          ⟨ending, written, (o.observing verbose dump).shownFirst d ++
            (o.observing verbose dump).listingShown d ++ rest verbose, after⟩ := by
  rcases Nat.lt_or_ge s.opcodeType.capacity d.count with hcount | hcount
  · refine ⟨.failure (.tooManyInstructions d.count s.opcodeType), "", files,
      fun verbose => (o.observing verbose false).shown "3. Generate Code" ++
        (Ending.failure (.tooManyInstructions d.count s.opcodeType)).report,
      by simp, fun verbose dump hlisting => ?_⟩
    have hstops : (o.observing verbose dump).Stops files.lookup _ _ :=
      .capacity (h.observing verbose dump) hlisting hcount
    rw [hstops.run_eq stdout, reportsToInput_append_textShown, String.append_assoc]
    rfl
  obtain ⟨text, htext⟩ := Definition.exists_render_iff.mpr hcount
  have hgenerates (verbose dump : Bool) (hlisting : dump = true → d.listing? o.input ≠ none) :
      (o.observing verbose dump).Generates files.lookup s d text :=
    ⟨h.observing verbose dump, hlisting, hcount, htext⟩
  rcases takes_or_refuses o stdout files text with htakes | ⟨fault, hrefuses⟩
  · obtain ⟨written, after, hw⟩ := htakes.exists_deliver_eq
    refine ⟨.success, written, after, fun verbose => (o.observing verbose false).shownLast,
      by simp, fun verbose dump hlisting => ?_⟩
    rw [← (Runs.succeeded (hgenerates verbose dump hlisting) hw).eq_run,
      reportsToInput_append_writingShown]
    rfl
  · refine ⟨.failure fault, "", files,
      fun verbose => (o.observing verbose false).shownLast ++ (Ending.failure fault).report,
      by simp, fun verbose dump hlisting => ?_⟩
    have hw : Refuses (o.observing verbose dump) stdout files text fault := by
      cases hrefuses with
      | file ho hw => exact .file ho hw
      | stdout ho hfull => exact .stdout ho hfull
    rw [← (Runs.failed (.writing (hgenerates verbose dump hlisting) hw)).eq_run,
      reportsToInput_append_writingShown, String.append_assoc]
    rfl

/-- A run that is asked for a listing that there is not crashes, with and without progress. -/
theorem Options.Parses.exists_run_eq_crash (stdout : StandardOutput)
    (h : o.Parses files.lookup s d) (hlisting : d.listing? o.input = none) :
    ∃ said : Bool → String, ∀ verbose,
      run (o.observing verbose true) stdout files = ⟨.crash, "", said verbose, files⟩ := by
  refine ⟨fun verbose => (o.observing verbose true).shownFirst d ++ Ending.crash.report,
    fun verbose => ?_⟩
  have hstops : (o.observing verbose true).Stops files.lookup _ _ :=
    .listing (h.observing verbose true) rfl hlisting
  exact hstops.run_eq stdout

/-! ## Two runs -/

/-- Two runs that differ at most in what they report. -/
structure SameEffect (out out' : Outcome) : Prop where
  ending : out.ending = out'.ending
  stdout : out.stdout = out'.stdout
  files : out.files = out'.files

/-- How runs compare that differ only in whether they report progress, or only in whether they list
the definition. -/
structure OnlyObserve (o : Options) (stdout : StandardOutput) (files : Files) : Prop where
  /-- Progress is only reported. -/
  verbose : SameEffect (run { o with verbose := true } stdout files)
    (run { o with verbose := false } stdout files)
  /-- A listing is only reported, unless it is too wide. -/
  dump : ¬o.TooWide files.lookup → SameEffect (run { o with dump := true } stdout files)
    (run { o with dump := false } stdout files)
  /-- A listing that is too wide ends the run, which has written nothing. No other run ends so. -/
  crash : o.TooWide files.lookup →
    SameEffect (run { o with dump := true } stdout files) ⟨.crash, "", "", files⟩ ∧
      (run { o with dump := false } stdout files).ending.status ≠ Ending.crash.status
  /-- The reports with a listing are those without it and the listing, however the run goes on. -/
  listed : ∀ s d, o.Parses files.lookup s d → ¬o.TooWide files.lookup →
    ∃ listing rest, d.listing? o.input = some listing ∧
      (run { o with dump := false } stdout files).stderr = o.shownFirst d ++ rest ∧
      (run { o with dump := true } stdout files).stderr = o.shownFirst d ++ listing ++ rest
  /-- Without a definition there is no listing. -/
  unlisted : (∀ s d, ¬o.Parses files.lookup s d) →
    (run { o with dump := true } stdout files).stderr =
      (run { o with dump := false } stdout files).stderr

theorem Options.Parses.tooWide_iff (h : o.Parses lookup s d) :
    o.TooWide lookup ↔ d.listing? o.input = none := by
  rw [Definition.listing?_eq_none_iff]
  constructor
  · rintro ⟨s', d', h', hwide⟩
    obtain rfl := h.definition_unique h'
    exact hwide
  · exact fun hwide => ⟨s, d, h, hwide⟩

theorem Ending.status_ne_crash {ending : Ending} (h : ending ≠ .crash) :
    ending.status ≠ Ending.crash.status := by
  cases ending with
  | success => decide
  | failure fault => exact (by decide : (1 : Nat) ≠ 101)
  | crash => exact absurd rfl h

/-- A run without a definition does not depend on its observers. -/
theorem onlyObserve_of_not_parses (stdout : StandardOutput)
    (h : ∀ s d, ¬o.Parses files.lookup s d) : OnlyObserve o stdout files := by
  obtain ⟨fault, said, hrun⟩ := exists_run_eq_failure stdout h
  have hsame (v b v' b' : Bool) : SameEffect (run (o.observing v b) stdout files)
      (run (o.observing v' b') stdout files) := by
    rw [hrun, hrun]
    exact ⟨rfl, rfl, rfl⟩
  have hstderr (v b : Bool) : (run (o.observing v b) stdout files).stderr = said v := by
    rw [hrun]
  exact {
    verbose := hsame true o.dump false o.dump
    dump := fun _ => hsame o.verbose true o.verbose false
    crash := fun ⟨s, d, hd, _⟩ => absurd hd (h s d)
    listed := fun s d hd => absurd hd (h s d)
    unlisted := fun _ => (hstderr o.verbose true).trans (hstderr o.verbose false).symm }

/-- A run with a definition that cannot be listed crashes when it is asked for the listing. -/
theorem Options.Parses.onlyObserve_of_tooWide (stdout : StandardOutput)
    (h : o.Parses files.lookup s d) (hlisting : d.listing? o.input = none) :
    OnlyObserve o stdout files := by
  obtain ⟨ending, written, after, rest, hne, hrun⟩ := h.exists_run_eq stdout
  obtain ⟨said, hcrash⟩ := h.exists_run_eq_crash stdout hlisting
  have hwide : o.TooWide files.lookup := h.tooWide_iff.mpr hlisting
  have hoff (v : Bool) : (run (o.observing v false) stdout files).ending = ending := by
    rw [hrun v false (by simp)]
  have hverbose : ∀ b, SameEffect (run (o.observing true b) stdout files)
      (run (o.observing false b) stdout files)
    | true => by
      rw [hcrash, hcrash]
      exact ⟨rfl, rfl, rfl⟩
    | false => by
      rw [hrun _ _ (by simp), hrun _ _ (by simp)]
      exact ⟨rfl, rfl, rfl⟩
  have hon : SameEffect (run (o.observing o.verbose true) stdout files)
      ⟨.crash, "", "", files⟩ := by
    rw [hcrash]
    exact ⟨rfl, rfl, rfl⟩
  exact {
    verbose := hverbose o.dump
    dump := fun hnot => absurd hwide hnot
    crash := fun _ => ⟨hon, Ending.status_ne_crash ((hoff o.verbose).trans_ne hne)⟩
    listed := fun _ _ _ hnot => absurd hwide hnot
    unlisted := fun hnot => absurd h (hnot s d) }

/-- A run with a definition that can be listed shows the listing when it is asked for it, and goes
on. -/
theorem Options.Parses.onlyObserve_of_listing (stdout : StandardOutput)
    (h : o.Parses files.lookup s d) {listing : String}
    (hlisting : d.listing? o.input = some listing) : OnlyObserve o stdout files := by
  obtain ⟨ending, written, after, rest, -, hrun⟩ := h.exists_run_eq stdout
  have hsome : d.listing? o.input ≠ none := by simp [hlisting]
  have hwide : ¬o.TooWide files.lookup := mt h.tooWide_iff.mp hsome
  have hsame (v b v' b' : Bool) : SameEffect (run (o.observing v b) stdout files)
      (run (o.observing v' b') stdout files) := by
    rw [hrun v b fun _ => hsome, hrun v' b' fun _ => hsome]
    exact ⟨rfl, rfl, rfl⟩
  have hoff : (run (o.observing o.verbose false) stdout files).stderr =
      o.shownFirst d ++ rest o.verbose := by
    rw [hrun _ _ (by simp)]
    exact congrArg (· ++ rest o.verbose) String.append_empty
  have hon : (run (o.observing o.verbose true) stdout files).stderr =
      o.shownFirst d ++ listing ++ rest o.verbose := by
    have hshown : (o.observing o.verbose true).listingShown d = listing :=
      congrArg (Option.getD · "") hlisting
    rw [hrun _ _ fun _ => hsome, hshown]
    rfl
  exact {
    verbose := hsame true o.dump false o.dump
    dump := fun _ => hsame o.verbose true o.verbose false
    crash := fun hw => absurd hw hwide
    listed := fun s' d' h' _ => by
      obtain rfl := h.definition_unique h'
      exact ⟨listing, rest o.verbose, hlisting, hoff, hon⟩
    unlisted := fun hnot => absurd h (hnot s d) }

/-- Whatever the options and the files, progress and the listing are only reported, except that a
listing that is too wide ends the run. -/
theorem run_onlyObserve (o : Options) (stdout : StandardOutput) (files : Files) :
    OnlyObserve o stdout files := by
  by_cases h : ∃ s d, o.Parses files.lookup s d
  · obtain ⟨s, d, hd⟩ := h
    cases hlisting : d.listing? o.input with
    | none => exact hd.onlyObserve_of_tooWide stdout hlisting
    | some listing => exact hd.onlyObserve_of_listing stdout hlisting
  · exact onlyObserve_of_not_parses stdout fun s d hd => h ⟨s, d, hd⟩

/-! ## The exception -/

/-- A listing is too wide exactly when some identifier is too long. -/
theorem Options.Parses.tooWide_iff_exists_ident (h : o.Parses lookup s d) :
    o.TooWide lookup ↔ ∃ inst ∈ d.instructions, 65535 < inst.ident.length := by
  obtain ⟨source, -, hd⟩ := h.definition
  have hmaxlen : 65535 < d.maxlen ↔ ∃ inst ∈ d.instructions, 65535 < inst.ident.length := by
    rw [Definition.maxlen_of_parse hd, Finset.lt_sup_iff, ← Definition.map_ident_of_parse hd]
    simp
  rw [h.tooWide_iff, Definition.listing?_eq_none_iff, ← hmaxlen]
  refine and_iff_right_of_imp fun hwide => ?_
  obtain ⟨inst, hinst, -⟩ := hmaxlen.mp hwide
  exact List.ne_nil_of_mem hinst

/-- A text of one line, an instruction whose identifier has `n` characters. -/
def longIdent (n : Nat) : String :=
  String.ofList (List.replicate n 'A' ++ [' ', 'a'])

theorem classify_longIdent {n : Nat} (h : 0 < n) (opcode : Nat) :
    Line.classify .strict opcode (longIdent n) =
      .ok (.instruction ⟨String.ofList (List.replicate n 'A'), "a", opcode⟩) := by
  have hstatement : Line.isStatement (longIdent n) = true := by
    rw [Line.isStatement_iff]
    obtain ⟨m, rfl⟩ := Nat.exists_eq_succ_of_ne_zero h.ne'
    simp [longIdent, List.replicate_succ, Line.commentMarker]
  have hfields : Mode.strict.fields (longIdent n).toList = [List.replicate n 'A', ['a']] := by
    rw [longIdent, String.toList_ofList]
    exact Text.fields_append_space (by simp) (by simp)
  rw [Line.classify_of_isStatement hstatement, hfields]
  simp [h.ne']

theorem exists_parse_longIdent {n : Nat} (h : 0 < n) :
    ∃ d, Definition.parse .strict (longIdent n) = .ok d ∧
      d.instructions.map (·.ident) = [String.ofList (List.replicate n 'A')] := by
  have hlines : Text.lines (longIdent n) = [longIdent n] := by
    rw [Text.lines, Text.linesOf_of_notMem] <;> simp [longIdent]
  have hidents : Source.idents .strict [longIdent n] = [String.ofList (List.replicate n 'A')] := by
    simp [Source.idents, Line.ident?_of_ok (classify_longIdent h 0)]
  have hclassified : ∀ c ∈ Source.classified .strict [longIdent n], ∃ line, c.2 = .ok line := by
    intro c hc
    obtain ⟨i, hi, rfl⟩ := List.mem_mapIdx.mp hc
    simp [classify_longIdent h]
  obtain ⟨d, hd⟩ : ∃ d, Definition.parse .strict (longIdent n) = .ok d := by
    rw [Definition.exists_parse_iff, hlines, Source.rejected_eq_nil_iff, hidents]
    exact ⟨hclassified, List.nodup_singleton _⟩
  exact ⟨d, hd, by rw [Definition.map_ident_of_parse hd, hlines, hidents]⟩

/-- One line is enough for a listing that is too wide. -/
theorem tooWide_longIdent {n : Nat} (h : 65535 < n) :
    ({} : Options).TooWide (Files.bare.add "ins.txt" (longIdent n).toUTF8).lookup := by
  obtain ⟨d, hd, hidents⟩ := exists_parse_longIdent (Nat.zero_lt_of_lt h)
  have hsource : Contains (Files.bare.add "ins.txt" (longIdent n).toUTF8).lookup "ins.txt"
      (longIdent n).toUTF8 := contains_of_file rfl
  have hparses : ({} : Options).Parses
      (Files.bare.add "ins.txt" (longIdent n).toUTF8).lookup {} d :=
    ⟨⟨_, .defaults rfl, rfl⟩, _, hsource, hd⟩
  have hmem : String.ofList (List.replicate n 'A') ∈ d.instructions.map (·.ident) := by
    rw [hidents]
    exact List.mem_singleton_self _
  obtain ⟨inst, hinst, hident⟩ := List.mem_map.mp hmem
  refine hparses.tooWide_iff_exists_ident.mpr ⟨inst, hinst, ?_⟩
  rw [hident, String.length_ofList, List.length_replicate]
  exact h

end OpcodeTable
