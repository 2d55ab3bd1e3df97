import WasiHost.Proofs.Call.Startup
import WasiHost.Proofs.CommandLine.Variables
import WasiHost.Proofs.Session.Timeless

/-!
# From the command line to the guest's environment

The environment of a run is that of the file of options, followed by the entries of the command
line. On its way an entry is divided, put after the variables of the file, put together again and
stored in guest memory, and it arrives as it was given: octet by octet, and in its place.

* **`Settings.load_eq`** — the settings of an invocation, step by step.
* **`Settings.exists_load`**, **`Settings.exists_error_of_undivided`** — what comes of the entries.
* **`Session.options_run`** — options stay until others are given.
* **`Session.ServesEnvironment`**, **`Session.servesEnvironment`** — what a guest is told when it
  asks for its environment.
* **`Settings.environment_verbatim`** — from one end to the other.
-/

namespace WasiHost

namespace Settings

variable {read : String → Except HostError Bytes} {invocation : Invocation} {config : Options}

/-! ## Settings of an invocation

`Settings.load` goes through the files and the command line in one function. Here it is taken apart
into what is configured, what is queued and what the command line overrules, so that the environment
can be followed from one to the next. -/

/-- The options in the file of options, or the default ones if no file is named. -/
def configured (read : String → Except HostError Bytes) (invocation : Invocation) :
    Except SettingsError Options :=
  match invocation.config with
  | none => .ok {}
  | some path => optionsOf path (read path)

/-- Options with the file for standard input queued, if one is named. -/
def queueing (read : String → Except HostError Bytes) (invocation : Invocation)
    (options : Options) :
    Except SettingsError Options :=
  match invocation.stdinFile with
  | none => .ok options
  | some path => withStdin options path (read path)

/-- Every file that the invocation queues on standard input can be read. -/
def StdinReadable (read : String → Except HostError Bytes) (invocation : Invocation) : Prop :=
  ∀ path ∈ invocation.stdinFile, ∃ bytes, read path = .ok bytes

/-- `load` takes the file of options first, then the one for standard input, and then the command
line. -/
theorem load_eq (read : String → Except HostError Bytes) (invocation : Invocation) :
    load read invocation =
      ((configured read invocation).bind (queueing read invocation)).bind fun options =>
        (overrule options invocation).map fun options =>
          { program := invocation.program, root := invocation.root, options := options } := by
  unfold load configured queueing
  cases invocation.config with
  | none => cases invocation.stdinFile <;> rfl
  | some path =>
    dsimp only
    cases optionsOf path (read path) <;> cases invocation.stdinFile <;> rfl

/-- `queueing` of a file for standard input does not touch the environment. -/
theorem exists_queueing (hstdin : StdinReadable read invocation) (options : Options) :
    ∃ queued, queueing read invocation options = .ok queued ∧
      queued.environment = options.environment := by
  unfold queueing
  cases hfile : invocation.stdinFile with
  | none => exact ⟨options, rfl, rfl⟩
  | some path =>
    obtain ⟨bytes, hbytes⟩ := hstdin path hfile
    simp only [hbytes]
    exact ⟨_, rfl, rfl⟩

/-- With an entry that has no equals sign `load` fails, whatever the files hold. -/
theorem exists_error_of_undivided (h : ∃ entry ∈ invocation.environment, '=' ∉ entry.toList) :
    ∃ error, load read invocation = .error error := by
  -- the first entry without a sign is the one that the error names
  cases hundivided : undivided? invocation.environment with
  | none =>
    obtain ⟨entry, hentry, hsign⟩ := h
    exact absurd (undivided?_eq_none_iff.mp hundivided entry hentry) hsign
  | some entry =>
    rw [load_eq]
    cases (configured read invocation).bind (queueing read invocation) with
    | error error => exact ⟨error, rfl⟩
    | ok options =>
      simp only [overrule, splitVariables_eq, hundivided]
      exact ⟨.noValue entry, rfl⟩

/-- If the files can be read and all entries have an equals sign then `load` succeeds, and the
environment is that of `config` with the divided entries after it. -/
theorem exists_load (hconfig : configured read invocation = .ok config)
    (hstdin : StdinReadable read invocation)
    (hentries : ∀ entry ∈ invocation.environment, '=' ∈ entry.toList) :
    ∃ settings pairs, load read invocation = .ok settings ∧
      settings.options.environment = config.environment ++ pairs ∧
      List.Forall₂ DividesInto invocation.environment pairs := by
  obtain ⟨queued, hqueued, henvironment⟩ := exists_queueing hstdin config
  rw [load_eq, hconfig]
  simp only [Except.bind, hqueued, overrule, splitVariables_eq, undivided?_eq_none_iff.mpr hentries]
  refine ⟨_, _, rfl, ?_, dividesInto_filterMap hentries⟩
  rw [← henvironment]

end Settings

/-! ## Options in a session

Once a session has its options they stay (`Session.options_run`), so what a guest is told about its
environment is up to them alone, whatever it did before. -/

/-- The step does not replace the options. -/
def Step.KeepsOptions : Step → Prop
  | withOptions _ => False
  | _ => True

namespace Session

variable {s : Session}

/-- No step changes the options but `Step.withOptions`. -/
theorem options_step (hsound : s.table.Sound) {step : Step} (hkeeps : step.KeepsOptions) :
    (s.step step).options = s.options := by
  cases step with
  | perform host call memory => exact Call.options_perform hsound host call memory
  | dispatch host name words memory => exact Call.options_dispatch hsound host name words memory
  | pushStdin bytes => rfl
  | withOptions options => exact hkeeps.elim

theorem options_run (hs : s.Reachable) {steps : List Step}
    (hsteps : ∀ step ∈ steps, step.KeepsOptions) : (s.run steps).options = s.options := by
  induction steps generalizing s with
  | nil => rfl
  | cons step rest ih =>
    obtain ⟨hstep, hrest⟩ := List.forall_mem_cons.mp hsteps
    rw [run_cons, ih (hs.step step) hrest, options_step hs.sound hstep]

/-- A guest that asks the session for its environment is told given texts: first how many they are
and how long together, and then, in room of that size, the texts themselves. -/
structure ServesEnvironment (s : Session) (texts : List String) : Prop where
  /-- The sizes are told if they fit in words and the cells for them lie inside. -/
  answered : ∀ (host : Host) (linear : LinearMemory) (count size : UInt32),
    ((Call.environSizesGet count size).perform host s (.attached linear)).answer = .ok 0 ↔
      texts.length < UInt32.size ∧ (zeroEnded texts).flatten.length < UInt32.size ∧
        count.toNat + 4 ≤ linear.bytes.size ∧ size.toNat + 4 ≤ linear.bytes.size
  told : ∀ (host : Host) (linear : LinearMemory) (count size : UInt32),
    (∀ i, Spans count 4 i → ¬ Spans size 4 i) →
    let told := (Call.environSizesGet count size).perform host s (.attached linear)
    told.answer = .ok 0 →
      told.memory.readU32 count = .ok (UInt32.ofNat texts.length) ∧
      told.memory.readU32 size = .ok (UInt32.ofNat (zeroEnded texts).flatten.length)
  /-- The texts are stored in every two areas of these sizes that lie inside and apart. -/
  fetched : ∀ (host : Host) (linear : LinearMemory) (pointers buffer : UInt32),
    linear.bytes.size < UInt32.size →
    pointers.toNat + 4 * texts.length ≤ linear.bytes.size →
    buffer.toNat + (zeroEnded texts).flatten.length ≤ linear.bytes.size →
    (∀ i, Spans pointers (4 * texts.length) i →
      ¬ Spans buffer (zeroEnded texts).flatten.length i) →
    let fetched := (Call.environGet pointers buffer).perform host s (.attached linear)
    fetched.answer = .ok 0 ∧
      ∃ after begins, fetched.memory = .attached after ∧
        after.HoldsTexts texts pointers buffer (zeroEnded texts).flatten.length begins

/-- A session serves `options.environment`, each variable as one text. -/
theorem servesEnvironment (s : Session) :
    s.ServesEnvironment (s.options.environment.map variableText) where
  answered host linear count size :=
    @StartupList.answer_sizesGet_eq_zero_iff host .environment s linear count size
  told host linear count size hcells := by
    intro told htold
    obtain ⟨_, _, _, hcount, hsize⟩ :=
      @StartupList.told_of_sizesGet host .environment s linear count size hcells htold
    exact ⟨hcount, hsize⟩
  fetched host linear pointers buffer hsize hpointers hbuffer hareas := by
    intro fetched
    have hanswer := (@StartupList.answer_stringsGet_eq_zero_iff host .environment s linear pointers
      buffer hsize).mpr (.inr ⟨hbuffer, hpointers⟩)
    exact ⟨hanswer, @StartupList.holdsTexts_of_stringsGet host .environment s linear pointers buffer
      hsize hareas hanswer⟩

end Session

namespace Settings

/-- `variableText` puts divided entries together again as they were. -/
theorem map_variableText {entries : List String} {pairs : List (String × String)}
    (h : List.Forall₂ DividesInto entries pairs) : pairs.map variableText = entries := by
  -- on the entries and what they divide into, side by side
  induction h with
  | nil => rfl
  | cons hdivides _ ih => rw [List.map_cons, hdivides.whole, ih]

/-- With an entry that has no equals sign `load` fails. Otherwise the guest is served the variables
of `config` and after them the entries, octet by octet, whatever happens in between; and it finds
the same name and the same value in an entry as `load`. -/
theorem environment_verbatim (read : String → Except HostError Bytes) (invocation : Invocation) :
    ((∃ entry ∈ invocation.environment, '=' ∉ entry.toList) →
      ∃ error, load read invocation = .error error) ∧
    ((∀ entry ∈ invocation.environment, '=' ∈ entry.toList) →
      ∀ config, configured read invocation = .ok config → StdinReadable read invocation →
      ∃ settings pairs, load read invocation = .ok settings ∧
        settings.options.environment = config.environment ++ pairs ∧
        List.Forall₂ DividesInto invocation.environment pairs ∧
        ∀ s : Session, s.Reachable → ∀ steps : List Step, (∀ step ∈ steps, step.KeepsOptions) →
          ((s.withOptions settings.options).run steps).ServesEnvironment
            (config.environment.map variableText ++ invocation.environment)) := by
  refine ⟨exists_error_of_undivided, fun hentries config hconfig hstdin => ?_⟩
  obtain ⟨settings, pairs, hload, henvironment, hpairs⟩ := exists_load hconfig hstdin hentries
  refine ⟨settings, pairs, hload, henvironment, hpairs, fun s hs steps hsteps => ?_⟩
  have hgiven : (s.withOptions settings.options).Reachable :=
    hs.step (.withOptions settings.options)
  have hserves := ((s.withOptions settings.options).run steps).servesEnvironment
  rw [Session.options_run hgiven hsteps] at hserves
  -- what the session puts together is what was divided
  have htexts : (s.withOptions settings.options).options.environment.map variableText =
      config.environment.map variableText ++ invocation.environment := by
    show settings.options.environment.map variableText = _
    rw [henvironment, List.map_append, map_variableText hpairs]
  rwa [htexts] at hserves

/-- An entry with two further equals signs comes after a variable of `config`, and an entry without
any makes `load` fail. -/
theorem environment_verbatim_of_two_signs :
    let read (path : String) : Except HostError Bytes :=
      if path = "c" then .ok (utf8 "\x7b\"environment_variables\":[[\"A\",\"1=\"]]\x7d")
      else .error .notFound
    let invocation : Invocation :=
      { program := "p", root := ".", config := some "c", stdinFile := none, arguments := []
        environment := ["B==é="], disableClock := false, trace := false }
    Invocation.parse ["--program=p", "--config=c", "--env=B==é="] = .ok invocation ∧
      (∃ settings, load read invocation = .ok settings ∧
        settings.options.environment = [("A", "1="), ("B", "=é=")] ∧
        (Session.initial.withOptions settings.options).ServesEnvironment ["A=1=", "B==é="]) ∧
      ∃ error, load read { invocation with environment := ["B"] } = .error error := by
  intro read invocation
  have hconfig : configured read invocation = .ok { environment := [("A", "1=")] } := by
    decide +kernel
  have hentries : ∀ entry ∈ invocation.environment, '=' ∈ entry.toList := by decide
  obtain ⟨settings, pairs, hload, henvironment, hpairs, hserves⟩ :=
    (environment_verbatim read invocation).2 hentries _ hconfig nofun
  have hpair : splitVariable? "B==é=" = some ("B", "=é=") := by decide
  obtain ⟨pair, _, hdivides, hrest, rfl⟩ := List.forall₂_cons_left_iff.mp hpairs
  cases List.forall₂_nil_left_iff.mp hrest
  cases hpair.symm.trans (dividesInto_iff.mp hdivides)
  have htexts : [("A", "1=")].map variableText ++ invocation.environment =
      ["A=1=", "B==é="] := by decide
  refine ⟨by decide, ⟨settings, hload, henvironment, ?_⟩, ?_⟩
  · rw [← htexts]
    exact hserves _ Session.reachable_initial [] (List.forall_mem_nil _)
  · -- no equals sign at all
    exact (environment_verbatim read { invocation with environment := ["B"] }).1
      ⟨"B", List.mem_cons_self, by decide⟩

end Settings

end WasiHost
