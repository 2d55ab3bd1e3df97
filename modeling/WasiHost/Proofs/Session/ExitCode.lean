import WasiHost.Proofs.Session.Run

/-!
# The exit code of a session

An exit code is recorded by the call that gives one, and by nothing else. A later one takes the
place of an earlier one, and none is ever taken back.

* **`Step.exit?`**, **`Step.lastExit?`** — the exit code that a step gives, and the last of a run.
* **`Call.keeps_exitCode_body`** — every other call leaves it alone, however its body ends.
* **`Session.exitCode_step`**, **`Session.exitCode_run`** — what is recorded after a step and a run.
-/

namespace WasiHost

namespace Step

/-- The exit code that a step gives. -/
def exit? (step : Step) : Option UInt32 :=
  match step.performed? with
  | some (_, .procExit code, _) => some code
  | _ => none

/-- The last exit code that the steps of a run give. -/
def lastExit? (steps : List Step) : Option UInt32 :=
  steps.reverse.findSome? exit?

/-- `lastExit?` of the later steps comes before that of the earlier ones. -/
theorem lastExit?_append (earlier later : List Step) :
    lastExit? (earlier ++ later) = (lastExit? later).or (lastExit? earlier) := by
  rw [lastExit?, List.reverse_append, List.findSome?_append]
  rfl

end Step

/-- The exit code that is recorded. -/
def Workspace.exitCode (w : Workspace) : Option UInt32 :=
  w.session.exitCode

namespace Action

variable {α : Type}

/-! ## Steps

The exit code is a part of the session, and what keeps the session keeps it. -/

/-- `access` leaves the session alone, and with it `exitCode`. -/
theorem keeps_exitCode_access (x : Access α) : Keeps Workspace.exitCode (access x) :=
  (keeps_session_access x).map Session.exitCode

/-- `closeDescriptor` changes the table and nothing else of the session. -/
theorem keeps_exitCode_closeDescriptor (fd : Fd) :
    Keeps Workspace.exitCode (closeDescriptor fd) := by
  intro w
  rw [closeDescriptor_eq]
  cases w.session.table.close fd <;> rfl

/-- No step but the one that records an exit code changes it, so `Keeps Workspace.exitCode` holds of
all other bodies. -/
theorem keeps_exitCode_pervades : Pervades (Keeps Workspace.exitCode) where
  toSequential := Keeps.sequential _
  look _ := (keeps_look _).map Workspace.exitCode
  access _ := keeps_exitCode_access _
  changeTable _ := fun _ => rfl
  takeQueued _ := fun _ => rfl
  emit _ _ := fun _ => rfl
  closeDescriptor := keeps_exitCode_closeDescriptor
  reveal _ _ := keeps_reveal (keeps_exitCode_access _) (keeps_exitCode_closeDescriptor _)

end Action

namespace Call

open WasiHost.Action

/-- Whatever becomes of a call that is not `procExit`, `exitCode` stays. -/
theorem keeps_exitCode_body (host : Host) {call : Call} (h : call.name ≠ .procExit) :
    Keeps Workspace.exitCode (call.body host) :=
  keeps_exitCode_pervades.body host fun _ hcode => absurd (congrArg name hcode) h

theorem exitCode_perform (host : Host) {call : Call} (h : call.name ≠ .procExit) (s : Session)
    (memory : Memory) : (call.perform host s memory).session.exitCode = s.exitCode := by
  have hkeep := keeps_exitCode_body host h { session := s, memory := memory, events := [] }
  cases hrun : call.run host s memory with
  | ok u w =>
    rw [(perform_of_ok hrun).2.1]
    rwa [show call.body host _ = _ from hrun] at hkeep
  | error e w =>
    rw [(perform_of_error hrun).1]
    rwa [show call.body host _ = _ from hrun] at hkeep

end Call

namespace Session

/-- After a step `exitCode` is `exit?` of the step, if it gives one. -/
theorem exitCode_step (s : Session) (step : Step) :
    (s.step step).exitCode = step.exit?.or s.exitCode := by
  cases hstep : step.performed? with
  | some performed =>
    obtain ⟨host, call, memory⟩ := performed
    rw [(step_of_performed hstep s).1, Step.exit?, hstep]
    -- the call that gives an exit code has recorded it, and all others have left it alone
    by_cases hexit : call.name = .procExit
    · cases call with
      | procExit code => rfl
      | _ => cases hexit
    · rw [Call.exitCode_perform host hexit]
      cases call with
      | procExit code => exact absurd rfl hexit
      | _ => rfl
  | none =>
    rw [Step.exit?, hstep]
    cases step with
    | perform host call memory => cases hstep
    | dispatch host name words memory =>
      rw [step, dispatch_of_not_performed hstep]
      rfl
    | pushStdin bytes => rfl
    | withOptions options => rfl

/-- After a run `exitCode` is the last one that was given. By induction on the steps, with
`exitCode_step` as the step. -/
theorem exitCode_run (s : Session) (steps : List Step) :
    (s.run steps).exitCode = (Step.lastExit? steps).or s.exitCode := by
  induction steps generalizing s with
  | nil => rfl
  | cons step rest ih =>
    have hsplit := Step.lastExit?_append [step] rest
    rw [List.singleton_append] at hsplit
    have hlast : Step.lastExit? [step] = step.exit? := by
      rw [Step.lastExit?, List.reverse_singleton, List.findSome?_singleton]
    -- the last code of the rest counts, then that of the step, then the one before
    rw [run_cons, ih, exitCode_step, hsplit, hlast, Option.or_assoc]

end Session

end WasiHost
