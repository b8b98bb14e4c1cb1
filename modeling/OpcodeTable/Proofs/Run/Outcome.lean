import OpcodeTable.Proofs.Output.Readback
import OpcodeTable.Proofs.Run.Sources

/-!
# All or nothing

The first stage that fails decides how a run ends, and then nothing has been written. If no stage
fails, the generated text is where it belongs, and everything else is as it was.
-/

namespace OpcodeTable

variable {o : Options} {lookup : Lookup} {stdout : StandardOutput} {files : Files} {s : Settings}
  {d : Definition} {text said : String} {stop : Stop} {fault : Fault} {out : Outcome}

namespace Options

open Stage

/-- The settings load and the input states a definition. -/
structure Parses (o : Options) (lookup : Lookup) (s : Settings) (d : Definition) : Prop where
  settings : o.Configures lookup s
  definition : ∃ source : String, Contains lookup o.input source.toUTF8 ∧
    Definition.parse o.mode source = .ok d

/-- All stages before the writing succeed, and `text` is what they generate. -/
structure Generates (o : Options) (lookup : Lookup) (s : Settings) (d : Definition)
    (text : String) : Prop extends Parses o lookup s d where
  listing : o.dump = true → d.listing? o.input ≠ none
  fits : d.count ≤ s.opcodeType.capacity
  render : d.render s = .ok text

/-- `Stops o lookup stop said` says that a stage before the writing fails and none before it does;
`stop` is the reason of this first one, and `said` is what has been reported until then. -/
inductive Stops (o : Options) (lookup : Lookup) : Stop → String → Prop where
  | settings {fault : Fault} (h : o.Misconfigures lookup fault) :
    Stops o lookup (.fault fault) o.reportsToSettings
  | input {s : Settings} {cause : FileFault} (hs : o.Configures lookup s)
      (h : Unreadable lookup o.input cause) :
    Stops o lookup (.fault (.unreadable o.input cause)) o.reportsToInput
  | definition {s : Settings} {source : String} {rs : List Rejection}
      (hs : o.Configures lookup s) (hsource : Contains lookup o.input source.toUTF8)
      (h : Definition.parse o.mode source = .error rs) :
    Stops o lookup (.fault (.aborted o.input (Definition.reported rs).card))
      (o.reportsToInput ++ o.diagnostics source rs)
  | listing {s : Settings} {d : Definition} (hd : o.Parses lookup s d) (hdump : o.dump = true)
      (h : d.listing? o.input = none) :
    Stops o lookup .listingTooWide (o.reportsToInput ++ o.countShown d)
  | capacity {s : Settings} {d : Definition} (hd : o.Parses lookup s d)
      (hlisting : o.dump = true → d.listing? o.input ≠ none)
      (h : s.opcodeType.capacity < d.count) :
    Stops o lookup (.fault (.tooManyInstructions d.count s.opcodeType))
      (o.reportsToInput ++ o.textShown d)

theorem Parses.says {r : Except Stop String} (h : o.Parses lookup s d)
    (hrest : Says (o.generateFrom s d) r said) :
    Says (o.generate lookup) r (o.reportsToInput ++ said) := by
  obtain ⟨source, hsource, hd⟩ := h.definition
  rw [← String.empty_append (s := said)]
  exact says_generate h.settings.effectiveSettings_eq
    ((says_readDefinition hsource.readSource_eq hd).bind hrest)

theorem Generates.says (h : o.Generates lookup s d text) :
    Says (o.generate lookup) (.ok text) (o.reportsToInput ++ o.writingShown d) :=
  h.toParses.says (says_generateFrom h.listing h.render)

theorem Stops.says (h : o.Stops lookup stop said) :
    Says (o.generate lookup) (.error stop) said := by
  cases h with
  | settings h => exact says_generate_of_badSettings h.effectiveSettings_eq
  | input hs h =>
    rw [← String.append_empty (s := o.reportsToInput)]
    exact says_generate hs.effectiveSettings_eq
      (says_readDefinition_unreadable h.readSource_eq).bind_error
  | definition hs hsource h =>
    rw [Definition.card_reported h]
    exact says_generate hs.effectiveSettings_eq
      (says_readDefinition_rejected hsource.readSource_eq h).bind_error
  | listing hd hdump h => exact hd.says (says_generateFrom_tooWide hdump h)
  | capacity hd hlisting h =>
    exact hd.says (says_generateFrom_tooMany hlisting (by rw [Definition.render, if_pos h]))

end Options

/-! ## Writing the text -/

theorem deliver_of_write {path : String} {after : Files}
    (hw : files.write path text.toUTF8 = .ok after) :
    deliver (some path) stdout files text = .ok ("", after) := by
  rw [deliver, hw]

theorem deliver_of_write_error {path : String} {cause : FileFault}
    (hw : files.write path text.toUTF8 = .error cause) :
    deliver (some path) stdout files text = .error (.unwritable path cause) := by
  rw [deliver, hw]

/-- The destination takes the text. -/
def Takes (o : Options) (stdout : StandardOutput) (files : Files) (text : String) : Prop :=
  match o.output with
  | none => stdout = .available
  | some path => ∃ after, files.write path text.toUTF8 = .ok after

/-- The destination does not take the text, and this is the fault. -/
inductive Refuses (o : Options) (stdout : StandardOutput) (files : Files) (text : String) :
    Fault → Prop where
  | file {path : String} {cause : FileFault} (ho : o.output = some path)
      (hw : files.write path text.toUTF8 = .error cause) :
    Refuses o stdout files text (.unwritable path cause)
  | stdout (ho : o.output = none) (hfull : stdout = .full) :
    Refuses o stdout files text (.unwritable "<stdout>" .noSpace)

theorem Refuses.deliver_eq (h : Refuses o stdout files text fault) :
    deliver o.output stdout files text = .error fault := by
  cases h with
  | file ho hw => rw [ho, deliver_of_write_error hw]
  | stdout ho hfull => rw [ho, hfull, deliver]

theorem Takes.exists_deliver_eq (h : Takes o stdout files text) :
    ∃ written after, deliver o.output stdout files text = .ok (written, after) := by
  unfold Takes at h
  cases ho : o.output with
  | none =>
    rw [ho] at h
    subst h
    exact ⟨text, files, rfl⟩
  | some path =>
    rw [ho] at h
    obtain ⟨after, hw⟩ := h
    exact ⟨"", after, deliver_of_write hw⟩

theorem takes_or_refuses (o : Options) (stdout : StandardOutput) (files : Files) (text : String) :
    Takes o stdout files text ∨ ∃ fault, Refuses o stdout files text fault := by
  unfold Takes
  cases ho : o.output with
  | none =>
    cases stdout with
    | available => exact .inl rfl
    | full => exact .inr ⟨_, .stdout ho rfl⟩
  | some path =>
    cases hw : files.write path text.toUTF8 with
    | ok after => exact .inl ⟨after, hw⟩
    | error cause => exact .inr ⟨_, .file ho hw⟩

/-- `FirstFailure o stdout files ending said` says that a stage fails, the writing included, and
none before it does; the run then has this ending, and `said` is what has been reported until
then. -/
inductive FirstFailure (o : Options) (stdout : StandardOutput) (files : Files) :
    Ending → String → Prop where
  | stopped {stop : Stop} {said : String} (h : o.Stops files.lookup stop said) :
    FirstFailure o stdout files stop.ending said
  | writing {s : Settings} {d : Definition} {text : String} {fault : Fault}
      (h : o.Generates files.lookup s d text) (hw : Refuses o stdout files text fault) :
    FirstFailure o stdout files (.failure fault) (o.reportsToInput ++ o.writingShown d)

/-- The ways in which a run can go, with what each of them leaves behind. -/
inductive Runs (o : Options) (stdout : StandardOutput) (files : Files) : Outcome → Prop where
  | failed {ending : Ending} {said : String} (h : FirstFailure o stdout files ending said) :
    Runs o stdout files ⟨ending, "", said ++ ending.report, files⟩
  | succeeded {s : Settings} {d : Definition} {text written : String} {after : Files}
      (h : o.Generates files.lookup s d text)
      (hw : deliver o.output stdout files text = .ok (written, after)) :
    Runs o stdout files ⟨.success, written, o.reportsToInput ++ o.writingShown d, after⟩

theorem Runs.eq_run (h : Runs o stdout files out) : out = run o stdout files := by
  cases h with
  | failed h =>
    cases h with
    | stopped h => rw [run, h.says, String.empty_append]
    | writing h hw =>
      rw [run, h.says, String.empty_append]
      dsimp only
      rw [hw.deliver_eq]
  | succeeded h hw =>
    rw [run, h.says, String.empty_append]
    dsimp only
    rw [hw]

/-- A run that stops leaves everything as it was. -/
theorem Options.Stops.run_eq (h : o.Stops files.lookup stop said) (stdout : StandardOutput) :
    run o stdout files = ⟨stop.ending, "", said ++ stop.ending.report, files⟩ :=
  (Runs.failed (.stopped h)).eq_run.symm

/-- A run goes in only one way. -/
theorem Runs.unique {other : Outcome} (h : Runs o stdout files out)
    (hother : Runs o stdout files other) : out = other :=
  h.eq_run.trans hother.eq_run.symm

end OpcodeTable
