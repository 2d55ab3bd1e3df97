import WasiHost.Proofs.Engine.Import
import WasiHost.Proofs.Session.ExitCode

/-!
# The outcome of a run

What a program does between two host calls is up to its machine, and may be anything. Whatever it
is, and whichever host calls it comes to, the session is the one that these calls lead to, and once
the entry point has ended the outcome is told from that session and from how it has ended.

* **`Run.Drives`** — the runs that an engine may go through, whatever its machine does, with the
  host calls that are performed on the way.
* **`Run.react_cases`** — all that one turn can come to.
* **`Run.session_of_drives`** — the session is carried from call to call.
* **`Run.concludes_of_drives`** — a run is over when its entry point has ended.
* **`Run.drives_of_finish?`** — what the interpreter runs to the end is one of these runs.
* **`Run.exit_code_decides_outcome`** — the outcome is the last exit code, if there is one.
-/

namespace WasiHost

/-- A program exports an entry point that can be called. -/
def Wasm.Module.HasEntryPoint (module : Wasm.Module) : Prop :=
  ∃ index signature, module.export? names.entryPoint = some (.function index) ∧
    module.signature? index = some signature ∧
    (signature.params = [] ∨ signature.params = [.i32, .i32]) ∧ signature.results = []

/-- The outermost function has returned. -/
def Wasm.Step.Returns : Wasm.Step → Prop
  | .returned _ => True
  | _ => False

namespace Run

/-- The host calls that a turn of a run performs: at most one. -/
def performed (host : Host) (run : Run) : Wasm.Step → List Step
  | .calling function operands machine =>
    match request? run.targets function operands with
    | some (_, .perform call) => [.perform host call (sharedFrom run.module machine.store)]
    | _ => []
  | _ => []

/-- A turn ends the function that runs: it returns or traps, or comes to a function that fails or
that no one provides. -/
def Ends (host : Host) (run : Run) : Wasm.Step → Prop
  | .running _ => False
  | .calling function operands machine =>
    match request? run.targets function operands with
    | some (_, .perform call) => ∃ error,
        (call.perform host run.session (sharedFrom run.module machine.store)).answer = .error error
    | some (_, .refuse _) => False
    | none => True
  | .returned _ | .trapped .. | .stuck => True

/-- A run goes on to another one, performing host calls on the way. At each turn the host and the
machine may do anything. -/
inductive Drives : Run → List Step → Run → Prop where
  | refl (run : Run) : Drives run [] run
  | turn {run next last : Run} {calls : List Step} (host : Host) (move : Wasm.Step)
      (hnext : (run.react host move).progress = .running next) (hrest : Drives next calls last) :
      Drives run (run.performed host move ++ calls) last

variable {host : Host} {run next first last : Run} {move : Wasm.Step} {calls : List Step}
  {module : Wasm.Module} {session after : Session} {result : Except Failure UInt32}

/-! ## One turn

Everything that a machine can do at one turn is a `Wasm.Step`. `react_cases` says of each what
becomes of the run, and the later lemmas use nothing else of `Run.react`. -/

/-- `request?` comes from the import that stands at the index of the function. -/
theorem request?_eq_some {targets : List Target} {function : Nat} {operands : List Wasm.Word}
    {c : CallName} {request : Request}
    (h : request? targets function operands = some (c, request)) :
    targets[function]? = some (.call c) ∧ Request.ofOperands? c operands = some request := by
  unfold request? at h
  split at h
  · next name htarget =>
    obtain ⟨_, hread, heq⟩ := Option.map_eq_some_iff.mp h
    cases heq
    exact ⟨htarget, hread⟩
  · cases h

/-- `react` either leads on, or has ended the function that runs. In both cases the session is the
one that the host call of the turn leads to, if there is one. -/
theorem react_cases (host : Host) (run : Run) (move : Wasm.Step) :
    (¬ run.Ends host move ∧ ∃ machine, (run.react host move).progress =
        .running { run with
          session := run.session.run (run.performed host move), machine := machine }) ∨
      (run.Ends host move ∧ ∃ store ending, (run.react host move).progress =
          (({ run with session := run.session.run (run.performed host move) } : Run).proceed store
            ending).progress ∧
        (ending = .returned ↔ move.Returns)) := by
  -- a call that ends the function has not returned from it
  have hfailed {failure : Failure} {trace : List Wasm.Frame} {machine : Wasm.Machine}
      {function : Nat} {operands : List Wasm.Word} :
      Ending.failed failure trace = .returned ↔
        (Wasm.Step.calling function operands machine).Returns := ⟨nofun, nofun⟩
  cases move with
  | running machine => exact .inl ⟨id, machine, rfl⟩
  | returned store => exact .inr ⟨trivial, store, .returned, rfl, iff_of_true rfl trivial⟩
  | trapped trap machine =>
    exact .inr ⟨trivial, none, .failed (.trap trap) machine.trace, rfl, nofun, nofun⟩
  | stuck => exact .inr ⟨trivial, none, .failed .engine [], rfl, nofun, nofun⟩
  | calling function operands machine =>
    cases hrequest : request? run.targets function operands with
    | none =>
      refine .inr ⟨by simp only [Ends, hrequest], none,
        -- an import that nothing provides
        .failed (unprovided run.targets function) machine.trace, ?_, hfailed⟩
      simp only [react, callImport, performed, hrequest, Session.run_nil]
    | some requested =>
      obtain ⟨c, request⟩ := requested
      cases request with
      | refuse errno =>
        -- operands that are too wide are refused, and the function goes on
        refine .inl ⟨by simp only [Ends, hrequest, not_false_eq_true],
          machine.resume (results c errno.code.toUInt64), ?_⟩
        simp only [react, callImport, performed, hrequest, Session.run_nil]
      | perform call =>
        obtain ⟨htarget, hread⟩ := request?_eq_some hrequest
        -- a host call ends the function exactly if it fails fatally
        have hsession : run.session.run (run.performed host (.calling function operands machine)) =
            (call.perform host run.session (sharedFrom run.module machine.store)).session := by
          simp only [performed, hrequest]
          rfl
        have hends : run.Ends host (.calling function operands machine) ↔ ∃ error,
            (call.perform host run.session (sharedFrom run.module machine.store)).answer =
              .error error := by
          simp only [Ends, hrequest]
        rw [hsession, hends, react, callImport_of_perform machine htarget hread]
        cases (call.perform host run.session (sharedFrom run.module machine.store)).answer with
        | ok answer => exact .inl ⟨nofun, _, rfl⟩
        | error error =>
          exact .inr ⟨⟨error, rfl⟩, none, .failed (.fatal error) machine.trace, rfl, hfailed⟩

/-- `enter` calls the entry point, or the run fails. -/
theorem enter_cases (run : Run) (store : Option Wasm.Store) :
    (∃ machine, (run.enter store).progress =
        .running { run with stage := .entry, machine := machine }) ∨
      ∃ failure, (run.enter store).progress = .finished (.error failure) run.session := by
  unfold enter
  split
  · exact .inr ⟨_, rfl⟩
  · dsimp only
    split
    · exact .inr ⟨_, rfl⟩
    · split
      · exact .inr ⟨_, rfl⟩
      · split
        · exact .inl ⟨_, rfl⟩
        · exact .inr ⟨_, rfl⟩

theorem enter_of_hasEntryPoint (h : run.module.HasEntryPoint) (store : Option Wasm.Store) :
    ∃ machine, (run.enter store).progress =
      .running { run with stage := .entry, machine := machine } := by
  obtain ⟨index, signature, hexport, hsignature, hparams, hresults⟩ := h
  obtain ⟨arguments, harguments⟩ : ∃ arguments, entryArguments? signature = some arguments := by
    rcases hparams with hparams | hparams
    · exact ⟨_, if_pos hparams⟩
    · refine ⟨[.i32 0, .i32 0], ?_⟩
      rw [entryArguments?, hparams]
      rfl
  refine ⟨calling store index arguments, ?_⟩
  simp only [enter, hexport, hsignature, Option.map_some, harguments, if_pos hresults]

/-- `proceed` goes on after a function has ended only to the entry point. -/
theorem running_of_proceed {store : Option Wasm.Store} {ending : Ending}
    (h : (run.proceed store ending).progress = .running next) :
    next.session = run.session ∧ next.module = run.module := by
  unfold proceed at h
  split at h
  · obtain ⟨machine, henter⟩ | ⟨failure, henter⟩ := run.enter_cases store
    · cases henter.symm.trans h
      exact ⟨rfl, rfl⟩
    · cases henter.symm.trans h
  · cases h
  · cases h

/-! ## Whole runs

By induction on `Drives`. The machine is never looked into: it may be the interpreter's or that of
any other engine. -/

/-- `react` that goes on has the session that its turn has led to. -/
theorem session_of_running (h : (run.react host move).progress = .running next) :
    next.session = run.session.run (run.performed host move) ∧ next.module = run.module := by
  obtain ⟨_, machine, hreact⟩ | ⟨_, store, ending, hreact, _⟩ := react_cases host run move
  · cases hreact.symm.trans h
    exact ⟨rfl, rfl⟩
  · exact running_of_proceed (hreact.symm.trans h)

/-- `Drives` leads to the session that its host calls lead to, one after the other. By induction on
the run, with `session_of_running` as the step. -/
theorem session_of_drives (h : first.Drives calls last) :
    last.session = first.session.run calls ∧ last.module = first.module := by
  induction h with
  | refl run => exact ⟨rfl, rfl⟩
  | turn host move hnext hrest ih =>
    obtain ⟨hsession, hmodule⟩ := session_of_running hnext
    rw [Session.run_append, ← hsession, ← hmodule]
    exact ih

theorem session_of_setUp (h : (setUp module session).progress = .running first) :
    first.session = session ∧ first.module = module := by
  unfold setUp at h
  split at h
  · cases h
  · split at h
    · cases h
    · dsimp only at h
      split at h
      · -- without a start function the entry point is called at once
        obtain ⟨machine, henter⟩ | ⟨failure, henter⟩ := enter_cases _ _
        · cases henter.symm.trans h
          exact ⟨rfl, rfl⟩
        · cases henter.symm.trans h
      · cases h
        exact ⟨rfl, rfl⟩

/-- What comes of a run whose entry point has ended, by the host calls that were performed and by
whether the entry point has returned. -/
structure Concludes (session : Session) (calls : List Step) (returns : Prop)
    (result : Except Failure UInt32) (after : Session) : Prop where
  ran : after = session.run calls
  /-- The last exit code is the outcome, however the entry point has ended. -/
  exited : ∀ code, (Step.lastExit? calls).or session.exitCode = some code → result = .ok code
  returned : (Step.lastExit? calls).or session.exitCode = none → returns → result = .ok 0
  failed : (Step.lastExit? calls).or session.exitCode = none → ¬ returns →
    ∃ failure, result = .error failure

/-- `Run.outcome` asks for the exit code first and then for the ending. -/
theorem concludes_of_outcome {ending : Ending} {returns : Prop}
    (hreturned : ending = .returned ↔ returns) :
    Concludes session calls returns (Run.outcome (session.run calls) ending)
      (session.run calls) := by
  have hcode := Session.exitCode_run session calls
  refine ⟨rfl, fun code hsome => ?_, fun hnone hreturns => ?_, fun hnone hfails => ?_⟩
  · simp only [Run.outcome, hcode, hsome]
  · simp only [Run.outcome, hcode, hnone, hreturned.mpr hreturns]
  · simp only [Run.outcome, hcode, hnone]
    cases ending with
    | returned => exact absurd (hreturned.mp rfl) hfails
    | failed failure trace => exact ⟨failure, rfl⟩

/-- If the start function returns, the entry point is called. -/
theorem entered_of_start (hentry : run.module.HasEntryPoint) (hstage : run.stage = .start)
    (hreturns : move.Returns) :
    ∃ next, (run.react host move).progress = .running next ∧ next.stage = .entry := by
  cases move with
  | returned store =>
    -- with the start function behind it, the run calls the entry point
    obtain ⟨machine, henter⟩ := enter_of_hasEntryPoint hentry store
    refine ⟨{ run with stage := .entry, machine := machine }, ?_, rfl⟩
    simp only [react, proceed, hstage, henter]
  | _ => cases hreturns

/-- Once the entry point has ended, the run is over, and it `Concludes` from the calls on the
way. -/
theorem concludes_of_drives (hset : (setUp module session).progress = .running first)
    (hdrives : first.Drives calls last) (hstage : last.stage = .entry) (host : Host)
    (move : Wasm.Step) :
    (last.Ends host move ↔ ∃ result after,
        (last.react host move).progress = .finished result after) ∧
      ∀ result after, (last.react host move).progress = .finished result after →
        Concludes session (calls ++ last.performed host move) move.Returns result after := by
  obtain ⟨hfirst, _⟩ := session_of_setUp hset
  obtain ⟨hlast, _⟩ := session_of_drives hdrives
  obtain ⟨hgoes, machine, hreact⟩ | ⟨hends, store, ending, hreact, hreturned⟩ :=
    react_cases host last move
  · refine ⟨iff_of_false hgoes ?_, ?_⟩
    · rintro ⟨result, after, hend⟩
      -- the run goes on, and is not over
      cases hreact.symm.trans hend
    · intro result after hend
      cases hreact.symm.trans hend
  · have hsession : last.session.run (last.performed host move) =
        session.run (calls ++ last.performed host move) := by
      rw [Session.run_append, hlast, hfirst]
    have hover : (last.react host move).progress =
        (conclude (session.run (calls ++ last.performed host move)) ending).progress := by
      simp only [hreact, hsession, proceed, hstage]
    refine ⟨iff_of_true hends ⟨_, _, hover⟩, ?_⟩
    intro result after hend
    cases hover.symm.trans hend
    exact concludes_of_outcome hreturned

/-! ## The interpreter

The interpreter is one way to drive a run. What it carries to the end in some number of steps is a
run of `Drives`, with the steps of its own machine. -/

/-- `react` does not depend on the machine that has taken the step. -/
theorem react_machine (host : Host) (run : Run) (machine : Wasm.Machine) (move : Wasm.Step) :
    ({ run with machine := machine } : Run).react host move = run.react host move := by
  -- the machine is looked at neither here nor in `performOn`
  have hproceed (run : Run) (store : Option Wasm.Store) (ending : Ending) :
      ({ run with machine := machine } : Run).proceed store ending = run.proceed store ending := by
    unfold proceed
    cases run.stage <;> cases ending <;> rfl
  cases move with
  | running after => rfl
  | returned store => exact hproceed run store .returned
  | trapped trap after => exact hproceed run none (.failed (.trap trap) after.trace)
  | stuck => exact hproceed run none (.failed .engine [])
  | calling function operands after =>
    cases hrequest : request? run.targets function operands with
    | none =>
      simp only [react, callImport, hrequest]
      exact hproceed run none (.failed (unprovided run.targets function) after.trace)
    | some requested =>
      obtain ⟨c, request⟩ := requested
      cases request with
      | refuse errno => simp only [react, callImport, hrequest]
      | perform call =>
        obtain ⟨store, current, callers⟩ := after
        simp only [react, callImport, hrequest]
        obtain ⟨reply, store⟩ := performOn host run.module call run.session store
        cases reply.answer with
        | ok answer => rfl
        | error error =>
          have hsame := hproceed { run with session := reply.session } none
            (.failed (.fatal error) (Wasm.Machine.trace ⟨store, current, callers⟩))
          exact congrArg (Advance.preceded reply.events) hsame

/-- `step` of the interpreter is `react` to what its machine does. -/
theorem step_eq_react (host : Host) (run : Run) :
    run.step host = run.react host (run.machine.step run.module) :=
  react_machine host run (idle none) (run.machine.step run.module)

/-- A run that `finish?` carries to its end is one that an engine `Drives`. By induction on `fuel`,
for every run and every list of events. -/
theorem drives_of_finish? (hosts : Nat → Host) {fuel : Nat} {events : List (List Event)}
    {execution : Execution}
    (h : (Progress.running first).finish? hosts fuel events = some execution) :
    ∃ calls last host, first.Drives calls last ∧
      (last.react host (last.machine.step last.module)).progress =
        .finished execution.outcome execution.session := by
  induction fuel generalizing first events with
  | zero => cases h
  | succ fuel ih =>
    -- one step is taken, and with the fuel that is left it goes on
    rw [Progress.finish?, step_eq_react] at h
    cases hprogress : (first.react (hosts fuel) (first.machine.step first.module)).progress with
    | running next =>
      rw [hprogress] at h
      obtain ⟨calls, last, host, hdrives, hend⟩ := ih h
      exact ⟨_, last, host, .turn (hosts fuel) _ hprogress hdrives, hend⟩
    | finished result after =>
      rw [hprogress, Progress.finish?] at h
      cases h
      exact ⟨[], first, hosts fuel, .refl first, hprogress⟩

/-! ## The outcome

All of the above for a program that has been set up, at any point of its run. -/

/-- When the start function of a program has returned, the entry point is called. A run is over
exactly if the entry point has returned or failed, and its outcome is then the last exit code that
was given on the way; without one it is zero if the entry point has returned, and a failure if not.
What `execute?` runs to the end is such a run. Nothing but `exit?` of a step sets `exitCode`, and
nothing takes it back. -/
theorem exit_code_decides_outcome (hset : (setUp module session).progress = .running first)
    (hentry : module.HasEntryPoint) :
    (∀ calls last host move, first.Drives calls last →
        (last.stage = .start → move.Returns →
          ∃ next, (last.react host move).progress = .running next ∧ next.stage = .entry) ∧
        (last.stage = .entry →
          (last.Ends host move ↔ ∃ result after,
            (last.react host move).progress = .finished result after) ∧
          ∀ result after, (last.react host move).progress = .finished result after →
            Concludes session (calls ++ last.performed host move) move.Returns result after)) ∧
      (∀ hosts fuel program execution, Wasm.Module.ofBytes? program = some module →
        execute? hosts fuel program session = some execution →
          ∃ calls last host, first.Drives calls last ∧
            (last.react host (last.machine.step last.module)).progress =
              .finished execution.outcome execution.session) ∧
      ∀ (s : Session) (step : Step),
        (s.step step).exitCode = step.exit?.or s.exitCode ∧
          (s.exitCode.isSome → (s.step step).exitCode.isSome) := by
  refine ⟨?_, ?_, fun s step => ⟨Session.exitCode_step s step, fun hcode => ?_⟩⟩
  · intro calls last host move hdrives
    -- the module is the one that was set up, and so is its entry point
    obtain ⟨_, hmodule⟩ := session_of_setUp hset
    obtain ⟨_, hsame⟩ := session_of_drives hdrives
    have hentered : last.module.HasEntryPoint := by
      rwa [hsame, hmodule]
    exact ⟨entered_of_start hentered,
      fun hstage => concludes_of_drives hset hdrives hstage host move⟩
  · intro hosts fuel program execution hread hexecute
    -- the bytes of the program are those of the module
    have hprogress : (start program session).progress = .running first := by
      rw [start, hread]
      exact hset
    rw [execute?, hprogress] at hexecute
    exact drives_of_finish? hosts hexecute
  · rw [Session.exitCode_step, Option.isSome_or, hcode, Bool.or_true]

/-- A program calls `proc_exit` twice, and then asks for random octets without a memory, which is
fatal. -/
theorem outcome_of_fatal_call_after_exit :
    let host := Host.ofTree FlatTree.empty
    let exiting : Wasm.Import :=
      { moduleName := names.module, name := "proc_exit"
        kind := .function CallName.procExit.signature }
    let asking : Wasm.Import :=
      { moduleName := names.module, name := "random_get"
        kind := .function CallName.randomGet.signature }
    let module : Wasm.Module :=
      { (default : Wasm.Module) with
        imports := [exiting, asking]
        functions :=
          #[{ (default : Wasm.Function) with signature := { params := [], results := [] } }]
        exports := [(names.entryPoint, .function 2)] }
    let first : Run :=
      { module := module, targets := [.call .procExit, .call .randomGet], stage := .entry
        machine := calling none 2 [], session := Session.initial }
    let exit (code : UInt32) : Step := .perform host (.procExit code) .detached
    let last : Run :=
      { first with session := Session.initial.run [exit 7, exit 3], machine := idle none }
    let move : Wasm.Step := .calling 1 [.i32 0, .i32 8] (idle none)
    (setUp module Session.initial).progress = .running first ∧
      first.Drives [exit 7, exit 3] last ∧
      last.Ends host move ∧
      Concludes Session.initial ([exit 7, exit 3] ++ last.performed host move) move.Returns (.ok 3)
        (Session.initial.run ([exit 7, exit 3] ++ last.performed host move)) := by
  intro host exiting asking module first exit last move
  have hset : (setUp module Session.initial).progress = .running first := rfl
  have hentry : module.HasEntryPoint :=
    ⟨2, { params := [], results := [] }, rfl, rfl, .inl rfl, rfl⟩
  -- two turns, one for each exit code
  have hdrives : first.Drives [exit 7, exit 3] last := by
    refine .turn host (.calling 0 [.i32 7] (idle none)) rfl ?_
    exact .turn host (.calling 0 [.i32 3] (idle none)) rfl (.refl last)
  -- the third call fails fatally, and the code given last decides
  have hend : (last.react host move).progress = .finished (.ok 3)
      (Session.initial.run ([exit 7, exit 3] ++ last.performed host move)) := rfl
  obtain ⟨_, hentered⟩ := (exit_code_decides_outcome hset hentry).1 _ last host move hdrives
  obtain ⟨hends, hconcludes⟩ := hentered rfl
  exact ⟨hset, hdrives, hends.mpr ⟨_, _, hend⟩, hconcludes _ _ hend⟩

end Run

end WasiHost
