import Mathlib
import OpcodeTable.Run

/-!
# What the stages of a run give

A stage only adds to what has been reported before, so it is described by its result and by the text
that it adds. `Stage.Says` says so, and the stages of a run are described one by one.
-/

namespace OpcodeTable

namespace Stage

variable {α β : Type} {x : Stage α} {f : α → Stage β} {a : α} {r : Except Stop β} {stop : Stop}
  {said more : String}

/-- Whatever was reported before, the stage has the result `r` and adds the text `said`. -/
def Says (x : Stage α) (r : Except Stop α) (said : String) : Prop :=
  ∀ before, x.run before = (r, before ++ said)

theorem says_pure (a : α) : Says (pure a) (.ok a) "" := fun before => by
  rw [String.append_empty]
  rfl

theorem says_throw (stop : Stop) : Says (throw stop : Stage α) (.error stop) "" := fun before => by
  rw [String.append_empty]
  rfl

theorem says_report (text : String) : Says (report text) (.ok ()) text := fun _ => rfl

theorem run_bind_apply (x : Stage α) (f : α → Stage β) (before : String) :
    (x >>= f).run before =
      match x.run before with
      | (.ok a, after) => (f a).run after
      | (.error stop, after) => (.error stop, after) := by
  change ExceptT.bindCont f (x.run before).1 (x.run before).2 = _
  obtain ⟨_ | _, _⟩ := x.run before <;> rfl

/-- A stage that has a result is followed by the next one. -/
theorem Says.bind (hx : Says x (.ok a) said) (hf : Says (f a) r more) :
    Says (x >>= f) r (said ++ more) := by
  intro before
  rw [run_bind_apply, hx]
  dsimp only
  rw [hf, String.append_assoc]

/-- Nothing follows a stage that stops. -/
theorem Says.bind_error (hx : Says x (.error stop) said) : Says (x >>= f) (.error stop) said := by
  intro before
  rw [run_bind_apply, hx]

end Stage

namespace Options

open Stage

variable {o : Options} {lookup : Lookup} {s : Settings} {source text : String} {d : Definition}
  {rs : List Rejection} {fault : Fault}

/-! ## Reports -/

/-- What is shown of a line of progress. -/
def shown (o : Options) (text : String) : String :=
  if o.verbose then text ++ "\n" else ""

theorem says_progress (o : Options) (text : String) :
    Says (o.progress text) (.ok ()) (o.shown text) := by
  unfold progress shown
  split
  · exact says_report _
  · exact says_pure _

/-- The line of progress that names the settings file. -/
def settingsShown (o : Options) : String :=
  match o.settings with
  | none => ""
  | some path => o.shown ("  < " ++ path)

/-- The reports of a run until it has read the settings. -/
def reportsToSettings (o : Options) : String :=
  o.shown "1. Load Config" ++ o.settingsShown

/-- The reports of a run until it has read the input. -/
def reportsToInput (o : Options) : String :=
  o.reportsToSettings ++ o.shown "2. Read File and Parse Lines" ++ o.shown ("  < " ++ o.input)

/-- The line of progress about the definition. -/
def countShown (o : Options) (d : Definition) : String :=
  o.shown ("  " ++ toString d.count ++ " instructions, longest identifier " ++ toString d.maxlen)

/-- What is shown of the listing. -/
def listingShown (o : Options) (d : Definition) : String :=
  if o.dump then (d.listing? o.input).getD "" else ""

/-- What is shown of a definition before the text is generated. -/
def textShown (o : Options) (d : Definition) : String :=
  o.countShown d ++ o.listingShown d ++ o.shown "3. Generate Code"

/-- What is shown of a definition before the text is written. -/
def writingShown (o : Options) (d : Definition) : String :=
  o.textShown d ++ o.shown ("  > " ++ o.output.getD "<stdout>")

/-! ## The single stages -/

/-- The settings that the options and the files determine: those of the settings file, or else the
defaults, with the opcode type of the options if there is one. -/
def effectiveSettings (o : Options) (lookup : Lookup) : Except Fault Settings :=
  let base : Except Fault Settings :=
    match o.settings with
    | none => .ok {}
    | some path => OpcodeTable.loadSettings lookup path
  base.map fun s => { s with opcodeType := o.opcodeType.getD s.opcodeType }

theorem says_loadSettings (o : Options) (lookup : Lookup) :
    Says (o.loadSettings lookup) ((o.effectiveSettings lookup).mapError .fault)
      o.settingsShown := by
  unfold loadSettings effectiveSettings settingsShown
  cases o.settings with
  | none =>
    dsimp only
    rw [pure_bind]
    exact says_pure _
  | some path =>
    dsimp only
    rw [← String.append_empty (s := o.shown ("  < " ++ path))]
    refine (says_progress o _).bind ?_
    cases OpcodeTable.loadSettings lookup path with
    | error fault => exact (says_throw _).bind_error
    | ok s =>
      dsimp only
      rw [pure_bind]
      exact says_pure _

theorem says_readDefinition_unreadable (h : readSource lookup o.input = .error fault) :
    Says (o.readDefinition lookup) (.error (.fault fault)) "" := by
  rw [readDefinition, h]
  exact says_throw _

theorem says_readDefinition_rejected (h : readSource lookup o.input = .ok source)
    (hrs : Definition.parse o.mode source = .error rs) :
    Says (o.readDefinition lookup) (.error (.fault (.aborted o.input rs.length)))
      (o.diagnostics source rs) := by
  rw [readDefinition, h]
  dsimp only
  rw [hrs, ← String.append_empty (s := o.diagnostics source rs)]
  exact (says_report _).bind (says_throw _)

theorem says_readDefinition (h : readSource lookup o.input = .ok source)
    (hd : Definition.parse o.mode source = .ok d) :
    Says (o.readDefinition lookup) (.ok d) "" := by
  rw [readDefinition, h]
  dsimp only
  rw [hd]
  exact says_pure _

theorem says_list_tooWide (hdump : o.dump = true) (h : d.listing? o.input = none) :
    Says (o.list d) (.error .listingTooWide) "" := by
  rw [list, if_pos hdump, h]
  exact says_throw _

theorem says_list (h : o.dump = true → d.listing? o.input ≠ none) :
    Says (o.list d) (.ok ()) (o.listingShown d) := by
  unfold list listingShown
  split
  · next hdump =>
    obtain ⟨text, htext⟩ := Option.ne_none_iff_exists'.mp (h hdump)
    rw [htext]
    exact says_report _
  · exact says_pure _

/-! ## All stages -/

/-- The stages that follow the reading of the definition. -/
def generateFrom (o : Options) (s : Settings) (d : Definition) : Stage String := do
  o.progress ("  " ++ toString d.count ++ " instructions, longest identifier " ++ toString d.maxlen)
  o.list d
  o.progress "3. Generate Code"
  match d.render s with
  | .ok text =>
    o.progress ("  > " ++ o.output.getD "<stdout>")
    return text
  | .error fault => Stage.fail fault

theorem generate_eq (o : Options) (lookup : Lookup) :
    o.generate lookup = (do
      o.progress "1. Load Config"
      let s ← o.loadSettings lookup
      o.progress "2. Read File and Parse Lines"
      o.progress ("  < " ++ o.input)
      o.readDefinition lookup >>= o.generateFrom s) :=
  rfl

theorem says_generate_of_badSettings (h : o.effectiveSettings lookup = .error fault) :
    Says (o.generate lookup) (.error (.fault fault)) o.reportsToSettings := by
  have hload := o.says_loadSettings lookup
  rw [h] at hload
  exact (says_progress o _).bind hload.bind_error

/-- With the settings at hand, a run goes on to read the definition. -/
theorem says_generate (hs : o.effectiveSettings lookup = .ok s) {r : Except Stop String}
    {said : String} (h : Says (o.readDefinition lookup >>= o.generateFrom s) r said) :
    Says (o.generate lookup) r (o.reportsToInput ++ said) := by
  have hload := o.says_loadSettings lookup
  rw [hs] at hload
  rw [generate_eq, reportsToInput, reportsToSettings]
  simp only [String.append_assoc]
  refine (says_progress o _).bind ?_
  refine hload.bind ?_
  refine (says_progress o _).bind ?_
  exact (says_progress o _).bind h

theorem says_generateFrom_tooWide (hdump : o.dump = true) (h : d.listing? o.input = none) :
    Says (o.generateFrom s d) (.error .listingTooWide) (o.countShown d) := by
  rw [← String.append_empty (s := o.countShown d)]
  refine (says_progress o _).bind ?_
  exact (says_list_tooWide hdump h).bind_error

theorem says_generateFrom_tooMany (hlist : o.dump = true → d.listing? o.input ≠ none)
    (h : d.render s = .error fault) :
    Says (o.generateFrom s d) (.error (.fault fault)) (o.textShown d) := by
  rw [textShown, String.append_assoc, ← String.append_empty (s := o.shown "3. Generate Code"),
    generateFrom, h]
  refine (says_progress o _).bind ?_
  refine (says_list hlist).bind ?_
  exact (says_progress o _).bind (says_throw _)

theorem says_generateFrom (hlist : o.dump = true → d.listing? o.input ≠ none)
    (h : d.render s = .ok text) :
    Says (o.generateFrom s d) (.ok text) (o.writingShown d) := by
  simp only [writingShown, textShown, String.append_assoc]
  rw [← String.append_empty (s := o.shown ("  > " ++ o.output.getD "<stdout>")), generateFrom, h]
  refine (says_progress o _).bind ?_
  refine (says_list hlist).bind ?_
  refine (says_progress o _).bind ?_
  exact (says_progress o _).bind (says_pure text)

end Options

end OpcodeTable
