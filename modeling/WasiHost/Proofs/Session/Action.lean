import WasiHost.Proofs.Descriptor.Table
import WasiHost.Proofs.Memory.Access
import WasiHost.Session.Action

/-!
# Steps of the bodies of host calls

What each step of a body does to the session, the memory and the events let out so far. A step
either looks at the workspace and leaves it alone, or works on guest memory only, or changes the
session and cannot fail any more.

* **`Workspace.visible`** — everything but the log: what a failing call is to leave as it was.
* **`access_eq_ok_iff`** and its like — when a step succeeds and what it leaves.
* **`closeDescriptor_eq`**, **`openDescriptor_eq`** — the two steps that move numbers around.
-/

namespace WasiHost

/-- The texts that have reached the two output streams. -/
def Workspace.texts (w : Workspace) : List String × List String :=
  (Event.stdoutTexts w.events, Event.stderrTexts w.events)

/-- The session and the texts, but not guest memory. -/
def Workspace.outer (w : Workspace) : Session × List String × List String :=
  (w.session, w.texts)

/-- Everything but the log. -/
def Workspace.visible (w : Workspace) : Session × Memory × List String × List String :=
  (w.session, w.memory, w.texts)

/-- An outcome is given or refused, so it has what is `Sequential`. -/
theorem Sequential.lift {α : Type} {P : ∀ {α : Type}, Action α → Prop} (hP : Sequential P)
    (outcome : Except ErrNo α) : P (Action.lift outcome) := by
  cases outcome with
  | ok a => exact hP.pure a
  | error errno => exact hP.refuse errno

namespace Action

variable {α : Type} {w w' : Workspace} {fd : Fd}

/-! ## Looking

`lift` and `look` are what all looking is made of. Each has a lemma that says when it succeeds, for
taking bodies apart, and one that says that it leaves the workspace alone. -/

/-- `lift` gives an outcome and does nothing else. -/
theorem lift_eq_ok_iff {outcome : Except ErrNo α} {a : α} :
    lift outcome w = .ok a w' ↔ outcome = .ok a ∧ w' = w := by
  cases outcome with
  | ok b =>
    change EStateM.Result.ok b w = .ok a w' ↔ _
    simp [eq_comm]
  | error errno =>
    change EStateM.Result.error _ w = .ok a w' ↔ _
    simp

theorem keeps_lift (outcome : Except ErrNo α) : Keeps id (lift outcome : Action α) :=
  (Keeps.sequential id).lift outcome

theorem respects_lift {R : Workspace → Workspace → Prop} (outcome : Except ErrNo α) :
    Respects R (lift outcome : Action α) :=
  (Respects.sequential R).lift outcome

theorem keeps_look (f : Session → α) : Keeps id (look f) :=
  fun _ => rfl

/-- `look` sees a function of the session. -/
theorem look_eq_ok_iff {f : Session → α} {a : α} :
    look f w = .ok a w' ↔ a = f w.session ∧ w' = w := by
  rw [look, EStateM.Result.ok.injEq, eq_comm (a := a), eq_comm (a := w')]

theorem keeps_descriptor (fd : Fd) : Keeps id (descriptor fd) :=
  (keeps_look _).bind fun _ => keeps_lift _

/-- `descriptor` looks up the entry in `DescriptorTable.get`. -/
theorem descriptor_eq_ok_iff {d : Descriptor} :
    descriptor fd w = .ok d w' ↔ w.session.table.get fd = .ok d ∧ w' = w := by
  -- looking and then lifting is lifting what is seen
  change lift (w.session.table.get fd) w = _ ↔ _
  exact lift_eq_ok_iff

/-! ## Working on guest memory

`access` runs an access on the memory of the workspace. What is known of the access is known of the
step: whether it keeps memory, and whether it fails without doing anything. -/

/-- `access` that succeeds leaves a memory and no other trace. -/
theorem access_eq_ok_iff {x : Access α} {a : α} :
    access x w = .ok a w' ↔
      ∃ memory, x w.memory = .ok a memory ∧ w' = { w with memory := memory } := by
  unfold access
  cases hx : x w.memory with
  | ok b memory =>
    constructor
    · intro h
      cases h
      exact ⟨memory, rfl, rfl⟩
    · rintro ⟨_, heq, rfl⟩
      cases heq
      rfl
  | error e memory => simp

theorem access_eq_error_iff {x : Access α} {e : CallError} :
    access x w = .error e w' ↔
      ∃ memory, x w.memory = .error e memory ∧ w' = { w with memory := memory } := by
  unfold access
  cases hx : x w.memory with
  | ok b memory => simp
  | error _ memory =>
    constructor
    · intro h
      cases h
      exact ⟨memory, rfl, rfl⟩
    · rintro ⟨_, heq, rfl⟩
      cases heq
      rfl

theorem keeps_access {x : Access α} (hx : Keeps id x) : Keeps id (access x) := by
  intro w
  have hmemory := hx w.memory
  unfold access
  cases hw : x w.memory with
  | ok _ memory | error _ memory =>
    rw [hw] at hmemory
    cases hmemory
    rfl

/-- `access` that does nothing when it fails leaves everything as it is when it fails. -/
theorem failsClean_access {x : Access α} (hx : FailsClean id x) : FailsClean id (access x) := by
  intro w e w' h
  obtain ⟨memory, hw, rfl⟩ := access_eq_error_iff.mp h
  -- the access has left the memory it found
  cases hx _ _ _ hw
  rfl

/-- No `access` reaches beyond guest memory. -/
theorem keeps_outer_access (x : Access α) : Keeps Workspace.outer (access x) := by
  intro w
  unfold access
  cases x w.memory <;> rfl

theorem keeps_session_access (x : Access α) : Keeps Workspace.session (access x) :=
  (keeps_outer_access x).map Prod.fst

/-- `writeU32` writes a word whole or not at all. -/
theorem failsClean_writeU32 (address n : UInt32) :
    FailsClean id (access (Access.writeU32 address n)) :=
  failsClean_access (Access.failsClean_write _ _)

/-! ## Changing the session

The steps that change the table, as equations. What they put into the log is told as well, since
failing calls are to let out nothing but log. -/

/-- `setDescriptor` cannot fail. -/
theorem setDescriptor_eq (fd : Fd) (d : Descriptor) (w : Workspace) :
    setDescriptor fd d w =
      .ok () { w with session := { w.session with table := w.session.table.set fd d } } :=
  rfl

/-- `closeDescriptor` fails and does nothing, or succeeds and leaves a record in the log. -/
theorem closeDescriptor_eq (fd : Fd) (w : Workspace) :
    closeDescriptor fd w =
      match w.session.table.close fd with
      | .ok (table, records) =>
        .ok () { w with
          session := { w.session with table := table }
          events := w.events ++ records.map .log }
      | .error errno => .error (.guest errno) w := by
  change (lift (w.session.table.close fd) >>= _) w = _
  cases w.session.table.close fd <;> rfl

/-- `openDescriptor` finds no number and does nothing, or succeeds and leaves a record in the
log. -/
theorem openDescriptor_eq (d : Descriptor) (w : Workspace) :
    openDescriptor d w =
      match w.session.table.insert d with
      | .ok (fd, table) =>
        .ok fd { w with
          session := { w.session with table := table }
          events := w.events ++ [.log (DescriptorTable.allocated fd)] }
      | .error errno => .error (.guest errno) w := by
  change (lift (w.session.table.insert d) >>= _) w = _
  cases w.session.table.insert d <;> rfl

/-- Opening succeeds exactly if `DescriptorTable.insert` finds a number. -/
theorem openDescriptor_eq_ok_iff {d : Descriptor} :
    openDescriptor d w = .ok fd w' ↔
      ∃ table, w.session.table.insert d = .ok (fd, table) ∧
        w' = { w with
          session := { w.session with table := table }
          events := w.events ++ [.log (DescriptorTable.allocated fd)] } := by
  rw [openDescriptor_eq]
  cases w.session.table.insert d with
  | error errno => simp
  | ok opened =>
    obtain ⟨new, table⟩ := opened
    constructor
    · intro h
      cases h
      exact ⟨table, rfl, rfl⟩
    · rintro ⟨_, heq, rfl⟩
      cases heq
      rfl

end Action

namespace Event

/-! ## Texts

The texts that reach the streams are filtered out of the events, so log lines do not count. -/

/-- `stdoutTexts` of events are those of their parts, in order. -/
theorem stdoutTexts_append (events events' : List Event) :
    stdoutTexts (events ++ events') = stdoutTexts events ++ stdoutTexts events' :=
  List.filterMap_append

theorem stderrTexts_append (events events' : List Event) :
    stderrTexts (events ++ events') = stderrTexts events ++ stderrTexts events' :=
  List.filterMap_append

/-- `stdoutTexts` leaves the log out. -/
theorem stdoutTexts_append_log (events : List Event) (records : List LogRecord) :
    stdoutTexts (events ++ records.map .log) = stdoutTexts events := by
  simp [stdoutTexts, List.filterMap_append, List.filterMap_map]

theorem stderrTexts_append_log (events : List Event) (records : List LogRecord) :
    stderrTexts (events ++ records.map .log) = stderrTexts events := by
  simp [stderrTexts, List.filterMap_append, List.filterMap_map]

end Event

end WasiHost
