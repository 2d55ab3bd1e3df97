import WasiHost.Proofs.Call.Demands
import WasiHost.Proofs.Session.Snapshot

/-!
# Nothing is left of a closed descriptor

Once a descriptor is closed its number stands for nothing, however the session goes on, until an
open hands the number out again. From then on it stands for what that open has found, as if the
number had never been used. Meanwhile nothing happens to what is open under other numbers.

* **`Session.handedOut?`**, **`Session.handedOutIn`** — the numbers that opens have stored.
* **`Session.get_step_cases`** — what a step can mean for a single number.
* **`Session.closed_run`** — a number that is not in use stays so until it is handed out.
* **`Session.get_run`** — a descriptor that no call names stays as it is.
* **`Session.Forgets`**, **`Session.Reachable.forgets`** — closing a descriptor makes an end of it.
-/

namespace WasiHost

/-- A step performs a call that takes the number. -/
def Step.Names (step : Step) (fd : Fd) : Prop :=
  ∃ host call memory, step.performed? = some (host, call, memory) ∧ call.fd? = some fd

namespace Session

/-- The number that a step hands out: an open that succeeds has stored it. -/
def handedOut? (s : Session) (step : Step) : Option Fd :=
  match step.performed?, step.reply? s with
  | some (_, .pathOpen _ _ _ _ _ _ _ _ address, _), some reply =>
    if reply.answer = .ok 0 then (reply.memory.readU32 address).toOption else none
  | _, _ => none

/-- The numbers that the steps of a run hand out, in order. -/
def handedOutIn (s : Session) : List Step → List Fd
  | [] => []
  | step :: rest => (s.handedOut? step).toList ++ (s.step step).handedOutIn rest

variable {s : Session} {fd : Fd} {d : Descriptor} {host : Host} {call : Call} {memory : Memory}
  {step : Step}

/-! ## Steps

A number changes its meaning only by a call that names it or by an open that hands it out. That
follows from `Session.Moves.get_cases`, where the open has kept something under the number, and
`handedOut?_of_insert`, by which it has told so. -/

/-- `handedOut?` is the number that an open has kept its descriptor under. -/
theorem handedOut?_of_insert (hstep : step.performed? = some (host, call, memory))
    (hname : call.name = .pathOpen)
    (hanswer : (call.perform host s memory).answer = .ok call.successAnswer)
    {table : DescriptorTable} (hinsert : s.table.insert d = .ok (fd, table)) :
    s.handedOut? step = some fd := by
  have hreply := (step_of_performed hstep s).2.2
  cases call with
  | pathOpen dir dirFlags text length openFlags rightsBase rightsInheriting fdFlags address =>
    change _ = Except.ok 0 at hanswer
    obtain ⟨w, hrun⟩ := Call.run_of_answer_eq_zero rfl hanswer
    obtain ⟨_, _, new, _, _, _, hinsert', _, hread⟩ := Action.pathOpen_eq_ok hrun
    -- the number does not depend on what was kept under it
    obtain rfl := DescriptorTable.fd_eq_of_insert hinsert hinsert'
    unfold handedOut?
    rw [hstep, hreply]
    simp only
    rw [if_pos hanswer, (Call.perform_of_ok hrun).2.2, hread]
    rfl
  | _ => cases hname

/-- `changes?` is `fd?` where a call changes a descriptor at all. -/
theorem fd?_of_changes? (h : call.changes? = some fd) : call.fd? = some fd := by
  cases call with
  | fdClose | fdFdstatSetFlags | fdRead => exact h
  | _ => cases h

/-- What is open or not under a number stays so over a step, unless it is open and the step `Names`
it, or it is not and the step hands it out. -/
theorem get_step_cases (hsound : s.table.Sound) (step : Step) (fd : Fd) :
    (s.step step).table.get fd = s.table.get fd ∨
      (∃ d, s.table.get fd = .ok d) ∧ step.Names fd ∨
      s.table.get fd = .error .badF ∧ s.handedOut? step = some fd := by
  cases hstep : step.performed? with
  | none =>
    rw [(step_of_not_performed hstep s).2]
    exact .inl rfl
  | some performed =>
    obtain ⟨host, call, memory⟩ := performed
    obtain ⟨succeeded, hmoves, hanswer⟩ := Call.perform_moves host call memory hsound
    rw [(step_of_performed hstep s).1]
    rcases hmoves.get_cases hsound fd with
      hsame | ⟨hopen, hchanges⟩ | ⟨hbad, hname, hsucceeded, d, table, hinsert⟩
    · exact .inl hsame
    · exact .inr (.inl ⟨hopen, host, call, memory, hstep, fd?_of_changes? hchanges⟩)
    · exact .inr (.inr ⟨hbad, handedOut?_of_insert hstep hname (hanswer hsucceeded) hinsert⟩)

/-! ## Runs

Two inductions on steps: a number not in use and not handed out, and one in use and not named. -/

/-- A number that is not in use stays so over a run, as long as it is not among `handedOutIn`. By
induction on `steps`, with `get_step_cases` as the step. -/
theorem closed_run (hsound : s.table.Sound) (hclosed : s.table.get fd = .error .badF)
    (steps : List Step) (hnot : fd ∉ s.handedOutIn steps) :
    (s.run steps).table.get fd = .error .badF := by
  induction steps generalizing s with
  | nil => exact hclosed
  | cons step rest ih =>
    rw [handedOutIn, List.mem_append, not_or, Option.mem_toList] at hnot
    refine ih (sound_step hsound step) ?_ hnot.2
    rcases get_step_cases hsound step fd with hsame | ⟨⟨d, hget⟩, _⟩ | ⟨_, hout⟩
    · exact hsame.trans hclosed
    · cases hclosed.symm.trans hget
    · exact absurd hout hnot.1

/-- What is open stays as it is over a run, as long as no step `Names` it. -/
theorem get_run (hsound : s.table.Sound) (hget : s.table.get fd = .ok d) (steps : List Step)
    (hnames : ∀ step ∈ steps, ¬ step.Names fd) : (s.run steps).table.get fd = .ok d := by
  induction steps generalizing s with
  | nil => exact hget
  | cons step rest ih =>
    obtain ⟨hnot, hrest⟩ := List.forall_mem_cons.mp hnames
    refine ih (sound_step hsound step) ?_ hrest
    rcases get_step_cases hsound step fd with hsame | ⟨_, hnamed⟩ | ⟨hbad, _⟩
    · exact hsame.trans hget
    · exact absurd hnamed hnot
    · cases hbad.symm.trans hget

/-! ## Closing

The reply to a close does not depend on what was open under the number, and this is the sense in
which nothing is left of it. The rest is the two inductions, applied to the session of the reply. -/

/-- `fdClose` of what is open above the reserved numbers erases it, and nothing of what was open
under it plays a part. -/
theorem perform_fdClose (hget : s.table.get fd = .ok d) (hfree : Fd.firstFree ≤ fd) (host : Host)
    (memory : Memory) :
    ((Call.fdClose fd).perform host s memory).answer = .ok 0 ∧
      ((Call.fdClose fd).perform host s memory).session.table =
        { arena := s.table.arena.erase fd.toNat } ∧
      ∀ d', (Call.fdClose fd).perform host { s with table := s.table.set fd d' } memory =
        (Call.fdClose fd).perform host s memory := by
  rw [← DescriptorTable.isReserved_eq_false_iff] at hfree
  have hclose := DescriptorTable.close_of_get hget hfree
  have hbody : ∀ table, table.close fd = s.table.close fd →
      (Call.fdClose fd).body host
          { session := { s with table := table }, memory := memory, events := [] } =
        .ok () { session := { s with table := { arena := s.table.arena.erase fd.toNat } },
                 memory := memory, events := [.log (DescriptorTable.released fd)] } := by
    intro table hsame
    change Action.closeDescriptor fd _ = _
    rw [Action.closeDescriptor_eq]
    simp only [hsame, hclose]
    rfl
  -- the descriptor itself and any other in its place are closed alike
  have hhere := hbody s.table rfl
  refine ⟨?_, ?_, fun d' => ?_⟩
  · rw [Call.perform, hhere]
    rfl
  · rw [Call.perform, hhere]
    rfl
  · rw [Call.perform, Call.perform, hhere, hbody _ (DescriptorTable.close_set hget hfree d')]

/-- The reply to a close makes an end of what was open under a number. -/
structure Forgets (s : Session) (fd : Fd) (host : Host) (memory : Memory) (reply : Reply) :
    Prop where
  succeeded : reply.answer = .ok 0
  /-- Whatever had been open under the number, the reply would be the same, and the session with
  which everything goes on. -/
  forgotten : ∀ d,
    (Call.fdClose fd).perform host { s with table := s.table.set fd d } memory = reply
  others : ∀ other, other ≠ fd → reply.session.table.get other = s.table.get other
  /-- As long as the number is not handed out again, calls that need something open under it are
  answered that there is nothing, and let out no text. -/
  refused : ∀ steps, fd ∉ reply.session.handedOutIn steps →
    ∀ call : Call, call.demands? = some fd → ∀ host linear,
      (call.perform host (reply.session.run steps) (.attached linear)).answer = .ok 8 ∧
        Event.stdoutTexts
          (call.perform host (reply.session.run steps) (.attached linear)).events = [] ∧
        Event.stderrTexts
          (call.perform host (reply.session.run steps) (.attached linear)).events = []
  /-- When an open hands the number out again, it stands for the path that this open names, with the
  flags and rights of this open; and if that is a file, reads deliver its content from the
  beginning. -/
  reopened : ∀ steps host dir dirFlags text length openFlags rightsBase rightsInheriting fdFlags
    address memory opening,
    opening = (Call.pathOpen dir dirFlags text length openFlags rightsBase rightsInheriting fdFlags
      address).perform host (reply.session.run steps) memory →
    opening.answer = .ok 0 → opening.memory.readU32 address = .ok fd →
      ∃ path stat, Call.namedPath? (reply.session.run steps) memory dir text length = some path ∧
        host.fileSystem.stat path = .ok stat ∧
        opening.session.table.get fd =
          .ok (Action.openedDescriptor path stat fdFlags.toUInt16 rightsBase rightsInheriting) ∧
        (stat.isDirectory = false → ∀ later : List Step,
          (∀ step ∈ later, ∀ host memory, step.performed? ≠ some (host, .fdClose fd, memory)) →
          (∀ step ∈ later, ∀ bytes, step.fetched? fd path = some bytes →
            bytes.length < UInt64.size) →
          ∃ c, opening.session.ReadsSlices fd path later c)
  /-- What is open under any number stays as it is as long as no call names it. -/
  undisturbed : ∀ steps other d, (reply.session.run steps).table.get other = .ok d →
    ∀ later : List Step, (∀ step ∈ later, ¬ step.Names other) →
      (reply.session.run (steps ++ later)).table.get other = .ok d

/-- `fdClose` of a descriptor that is not reserved `Forgets` it, whatever the session has done so
far and goes on to do. -/
theorem Reachable.forgets (hs : s.Reachable) (hfree : Fd.firstFree ≤ fd)
    (hget : s.table.get fd = .ok d) (host : Host) (memory : Memory) :
    s.Forgets fd host memory ((Call.fdClose fd).perform host s memory) := by
  obtain ⟨hanswer, htable, hforgotten⟩ := perform_fdClose hget hfree host memory
  have hsound := (hs.perform host (.fdClose fd) memory).sound
  have hafter : ∀ other, ((Call.fdClose fd).perform host s memory).session.table.get other =
      if other = fd then .error .badF else s.table.get other := by
    intro other
    rw [htable]
    exact DescriptorTable.get_close hget other
  refine ⟨hanswer, hforgotten, ?others, ?refused, ?reopened, ?undisturbed⟩
  case others =>
    intro other hother
    rw [hafter, if_neg hother]
  case refused =>
    intro steps hnot call hcall host' linear
    -- the number is not in use after the close, nor after the steps
    have hclosed := closed_run hsound ((hafter fd).trans (if_pos rfl)) steps hnot
    refine Call.refused_of_closed (sound_run hsound steps) hcall ?_ host' linear
    intro d' hd'
    cases hclosed.symm.trans hd'
  case reopened =>
    rintro steps host' dir dirFlags text length openFlags rightsBase rightsInheriting fdFlags
      address memory' _ rfl hzero hnew
    have hsoundThen := sound_run hsound steps
    obtain ⟨path, stat, hname, hstat, hopened⟩ := get_of_pathOpen hsoundThen hzero hnew
    refine ⟨path, stat, hname, hstat, hopened, fun hfile later hclose hlength => ?_⟩
    -- a file that was just opened is at its beginning, with nothing loaded
    have hshows := shows_of_pathOpen hsoundThen hzero hname hstat hfile hnew
    refine readsSlices_of_shows ?_ hshows later hclose hlength
    exact sound_step hsoundThen (.perform host' _ memory')
  case undisturbed =>
    intro steps other d' hother later hnames
    rw [run_append]
    exact get_run (sound_run hsound steps) hother later hnames

/-- `fdClose` of a file of which `fdRead` has read a part. -/
theorem forgets_of_partly_read :
    let host := Host.ofTree (FlatTree.empty.insertFile "/f" [10, 20, 30])
    let list := Memory.holding 64 [16, 0, 0, 0, 2]
    let s := initial.run
      [.perform host (.pathOpen Fd.root 0 0 1 0 0 0 0 32) (Memory.holding 64 (utf8 "f")),
        .perform host (.fdRead Fd.firstFree 0 1 32) list]
    let status : FdStat :=
      { fileType := .regularFile, flags := 0, rightsBase := 0, rightsInheriting := 0 }
    s.table.get Fd.firstFree = .ok (.file "/f" 2 (some [10, 20, 30]) status) ∧
      s.Forgets Fd.firstFree host list ((Call.fdClose Fd.firstFree).perform host s list) := by
  intro host list s status
  have hs : s.Reachable := ⟨_, rfl⟩
  have hget : s.table.get Fd.firstFree = .ok (.file "/f" 2 (some [10, 20, 30]) status) := by decide
  exact ⟨hget, hs.forgets (by decide) hget host list⟩

end Session

end WasiHost
