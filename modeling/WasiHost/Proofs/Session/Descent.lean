import WasiHost.Proofs.Call.Paths
import WasiHost.Proofs.FileSystem.Composition
import WasiHost.Proofs.Session.Snapshot

/-!
# Descending from directory to directory

A directory that was opened below a directory that was opened below the root, and so on, is told by
what was written on the way down, joined by separators. As long as it is open, what is found below
it is what is found below the root under the joined path.

* **`Session.OpenAt`** — the directories that are open after a run, and what was written to get
  there.
* **`Session.Moves.directory`** — only closing it makes an end of a directory.
* **`Session.OpenAt.directory`** — each of them is open at the canonical form of what was written.
* **`Session.descent_is_one_step`** — so the way down may be taken at once.
-/

namespace WasiHost

/-- A step of a session opens the directory at `text` below `dir`, and stores the number `new`. -/
def Step.OpensDirectory (step : Step) (s : Session) (dir : Fd) (text : String) (new : Fd) : Prop :=
  ∃ host dirFlags path length openFlags rightsBase rightsInheriting fdFlags address memory reply,
    step.performed? = some (host, .pathOpen dir dirFlags path length openFlags rightsBase
      rightsInheriting fdFlags address, memory) ∧
    memory.Spells path length text ∧ step.reply? s = some reply ∧ reply.answer = .ok 0 ∧
    reply.memory.readU32 address = .ok new ∧
    ∃ name status, reply.session.table.get new = .ok (.directory name status)

/-- Two replies differ in nothing but the log. -/
structure Reply.SameButLog (reply reply' : Reply) : Prop where
  answer : reply.answer = reply'.answer
  session : reply.session = reply'.session
  memory : reply.memory = reply'.memory
  stdout : Event.stdoutTexts reply.events = Event.stdoutTexts reply'.events
  stderr : Event.stderrTexts reply.events = Event.stderrTexts reply'.events

/-- `perform` of calls whose bodies come to the same replies the same, the log apart. -/
theorem Call.sameButLog_of_run {host : Host} {call call' : Call} {s : Session} {memory : Memory}
    (hclock : call.asksClock = false) (hclock' : call'.asksClock = false)
    (h : call.run host s memory = call'.run host s memory) :
    (call.perform host s memory).SameButLog (call'.perform host s memory) := by
  have hsuccess {call : Call} (hclock : call.asksClock = false) : call.successAnswer = 0 := by
    refine successAnswer_eq_zero ?_
    rintro clock rfl
    cases hclock
  obtain ⟨hstdout, hstderr⟩ := texts_perform host call s memory
  obtain ⟨hstdout', hstderr'⟩ := texts_perform host call' s memory
  rw [h, ← hstdout'] at hstdout
  rw [h, ← hstderr'] at hstderr
  cases hrun : call.run host s memory with
  | ok u w =>
    obtain ⟨hanswer, hsession, hmemory⟩ := perform_of_ok hrun
    -- the other call has the same body, and a success of it is answered the same
    obtain ⟨hanswer', hsession', hmemory'⟩ := perform_of_ok (h.symm.trans hrun)
    rw [hsuccess hclock] at hanswer
    rw [hsuccess hclock'] at hanswer'
    exact ⟨hanswer.trans hanswer'.symm, hsession.trans hsession'.symm, hmemory.trans hmemory'.symm,
      hstdout, hstderr⟩
  | error e w =>
    obtain ⟨hsession, hmemory⟩ := perform_of_error hrun
    obtain ⟨hsession', hmemory'⟩ := perform_of_error (h.symm.trans hrun)
    refine ⟨?_, hsession.trans hsession'.symm, hmemory.trans hmemory'.symm, hstdout, hstderr⟩
    cases e with
    | guest errno =>
      rw [answer_of_error hrun, answer_of_error (h.symm.trans hrun), failureAnswer_eq hclock,
        failureAnswer_eq hclock']
    | fatal error => rw [answer_of_fatal hrun, answer_of_fatal (h.symm.trans hrun)]

namespace Session

/-- After a run from the beginning, the directory open under a number was opened at a path. -/
inductive OpenAt : List Step → Fd → String → Prop where
  /-- It was opened below the root, or by a path that says by itself where it starts. -/
  | opened {steps : List Step} {step : Step} {dir new : Fd} {text : String}
      (hdir : dir = Fd.root ∨ Path.isAbsolute text = true)
      (h : step.OpensDirectory (initial.run steps) dir text new) : OpenAt (steps ++ [step]) new text
  /-- It was opened below a directory that was opened at a path. -/
  | further {steps : List Step} {step : Step} {fd new : Fd} {path text : String}
      (hfd : OpenAt steps fd path) (htext : Path.isAbsolute text = false)
      (h : step.OpensDirectory (initial.run steps) fd text new) :
      OpenAt (steps ++ [step]) new (path ++ "/" ++ text)
  /-- It was open before, and is not closed. -/
  | stays {steps : List Step} {step : Step} {fd : Fd} {path : String} (h : OpenAt steps fd path)
      (hclose : ∀ host memory, step.performed? ≠ some (host, .fdClose fd, memory)) :
      OpenAt (steps ++ [step]) fd path

variable {s s' : Session} {fd dir new : Fd} {host : Host} {call : Call} {name path text : String}
  {status : FdStat} {step : Step} {steps : List Step}

/-! ## Directories stay

A directory is followed from the open that puts it in place, step by step, up to any moment before
it is closed. -/

/-- A `.directory` is at the same path after every call that does not close it. -/
theorem Moves.directory {succeeded : Bool} (hmoves : s.Moves host call succeeded s')
    (hsound : s.table.Sound) (hget : s.table.get fd = .ok (.directory name status))
    (hclose : call ≠ .fdClose fd) :
    ∃ status, s'.table.get fd = .ok (.directory name status) := by
  rcases hmoves.get_cases hsound fd with hsame | ⟨_, hchanges⟩ | ⟨hbad, _⟩
  · exact ⟨status, hsame.trans hget⟩
  · cases hmoves with
    | stays => exact ⟨status, hget⟩
    | closes fd' => exact absurd (congrArg Call.fdClose (Option.some.inj hchanges)) hclose
    | flags fd' flags d hold =>
      cases hchanges
      cases hget.symm.trans hold
      exact ⟨_, DescriptorTable.get_set_self hget⟩
    | serves fd' buffers count address vectors data _ hserves =>
      -- only files and standard input are read
      cases hchanges
      cases hserves with
      | stdin k hold hk => cases hget.symm.trans hold
      | file path offset content status bytes moved hold hbytes hmoved => cases hget.symm.trans hold
    | loads fd' buffers count address path offset content status bytes hold hbytes =>
      cases hchanges
      cases hget.symm.trans hold
    | _ => cases hchanges
  · cases hbad.symm.trans hget

/-- A step that performs no call leaves the table alone, and any other `Moves` the session. -/
theorem directory_step (hsound : s.table.Sound)
    (hget : s.table.get fd = .ok (.directory name status))
    (hclose : ∀ host memory, step.performed? ≠ some (host, .fdClose fd, memory)) :
    ∃ status, (s.step step).table.get fd = .ok (.directory name status) := by
  cases hstep : step.performed? with
  | none =>
    rw [(step_of_not_performed hstep s).2]
    exact ⟨status, hget⟩
  | some performed =>
    obtain ⟨host, call, memory⟩ := performed
    obtain ⟨succeeded, hmoves, _⟩ := Call.perform_moves host call memory hsound
    rw [(step_of_performed hstep s).1]
    refine hmoves.directory hsound hget ?_
    rintro rfl
    exact hclose _ _ hstep

/-- What `OpensDirectory` puts it at the path that the text names. -/
theorem directory_of_opens (hsound : s.table.Sound) (h : step.OpensDirectory s dir text new) :
    ∃ d base status, s.table.get dir = .ok d ∧ d.base? = some base ∧
      (s.step step).table.get new = .ok (.directory (Path.normalize base text) status) := by
  obtain ⟨host, dirFlags, address, length, openFlags, rightsBase, rightsInheriting, fdFlags, told,
    memory, reply, hstep, htext, hreply, hzero, hnew, name, status, hget⟩ := h
  obtain ⟨hsession, _, hperformed⟩ := step_of_performed hstep s
  cases hreply.symm.trans hperformed
  obtain ⟨found, stat, hname, _, hopened⟩ := get_of_pathOpen hsound hzero hnew
  obtain ⟨text', htext', hresolve⟩ := Call.namedPath?_eq_some_iff.mp hname
  obtain rfl := htext.unique htext'
  obtain ⟨d, base, hdir, hbase, rfl⟩ := resolve_eq_ok_iff.mp hresolve
  refine ⟨d, base, status, hdir, hbase, ?_⟩
  rw [hsession, hget]
  -- what was opened is a directory, so it is the one at the path that was resolved
  rw [hget, Action.openedDescriptor] at hopened
  split at hopened
  · cases hopened
    rfl
  · cases hopened

/-- A directory that was opened at a path is open at its canonical form. Each of the three ways to
get there is a case: the first rests on the root being open, the second on
`Path.normalize_normalize_append_root`. -/
theorem OpenAt.directory (h : OpenAt steps fd path) :
    ∃ status, (initial.run steps).table.get fd =
      .ok (.directory (Path.normalize Path.root path) status) := by
  induction h with
  | @opened steps step dir new text hdir h =>
    have hsound := (reachable_initial.run steps).sound
    obtain ⟨d, base, status, hget, hbase, hnew⟩ := directory_of_opens hsound h
    refine ⟨status, ?_⟩
    -- the directory is the one that the last step has opened
    rw [run_append, run_cons, run_nil, hnew]
    rcases hdir with rfl | habsolute
    · cases hget.symm.trans hsound.root
      cases hbase
      rfl
    · rw [Path.normalize_of_absolute habsolute base Path.root]
  | @further steps step fd new path text hfd htext h ih =>
    have hsound := (reachable_initial.run steps).sound
    obtain ⟨d, base, status, hget, hbase, hnew⟩ := directory_of_opens hsound h
    obtain ⟨_, hold⟩ := ih
    cases hget.symm.trans hold
    cases hbase
    refine ⟨status, ?_⟩
    rw [run_append, run_cons, run_nil, hnew, Path.normalize_normalize_append_root htext]
  | @stays steps step fd path h hclose ih =>
    have hsound := (reachable_initial.run steps).sound
    obtain ⟨_, hold⟩ := ih
    rw [run_append, run_cons, run_nil]
    exact directory_step hsound hold hclose

/-! ## Below a directory and below the root

Calls are given paths as ranges of memory. `ResolvesAs` compares two calls that are given different
ranges with different texts, and which resolve to one path. -/

/-- A path below a directory names what another path names below the root, and calls that are given
the one are answered as those that are given the other. -/
structure ResolvesAs (s : Session) (fd : Fd) (text path : String) : Prop where
  resolved : s.resolve fd text = .ok (Path.normalize Path.root path)
  fromRoot : s.resolve Fd.root path = .ok (Path.normalize Path.root path)
  pathFilestatGet : ∀ host flags here length there length' address memory,
    memory.Spells here length text → memory.Spells there length' path →
      ((Call.pathFilestatGet fd flags here length address).perform host s memory).SameButLog
        ((Call.pathFilestatGet Fd.root flags there length' address).perform host s memory)
  pathOpen : ∀ host dirFlags here length there length' openFlags rightsBase rightsInheriting fdFlags
    address memory, memory.Spells here length text → memory.Spells there length' path →
      ((Call.pathOpen fd dirFlags here length openFlags rightsBase rightsInheriting fdFlags
          address).perform host s memory).SameButLog
        ((Call.pathOpen Fd.root dirFlags there length' openFlags rightsBase rightsInheriting fdFlags
          address).perform host s memory)

/-- If `resolve` leads to one path for two texts, then so does every call. -/
theorem resolvesAs_of_resolve (hfd : s.resolve fd text = .ok (Path.normalize Path.root path))
    (hroot : s.resolve Fd.root path = .ok (Path.normalize Path.root path)) :
    s.ResolvesAs fd text path := by
  have hsame {w : Workspace} {here length there length' : UInt32} (hw : w.session = s)
      (hhere : w.memory.Spells here length text) (hthere : w.memory.Spells there length' path) :
      Action.resolve fd here length w = Action.resolve Fd.root there length' w := by
    rw [Action.resolve_of_spells hhere, Action.resolve_of_spells hthere, hw, hfd, hroot]
  refine ⟨hfd, hroot, ?pathFilestatGet, ?pathOpen⟩
  case pathFilestatGet =>
    intro host flags here length there length' address memory hhere hthere
    refine Call.sameButLog_of_run rfl rfl ?_
    exact bind_congr_of_ok (hsame rfl hhere hthere) fun _ _ _ => rfl
  case pathOpen =>
    intro host dirFlags here length there length' openFlags rightsBase rightsInheriting fdFlags
      address memory hhere hthere
    refine Call.sameButLog_of_run rfl rfl ?_
    -- the checks before the path is resolved do not depend on it, and leave everything as it is
    refine bind_congr_of_ok rfl fun _ w hflags => ?_
    obtain ⟨_, _, rfl⟩ := Action.halfWord_eq_ok_iff.mp hflags
    refine bind_congr_of_ok rfl fun _ w hfdFlags => ?_
    obtain ⟨_, _, rfl⟩ := Action.halfWord_eq_ok_iff.mp hfdFlags
    exact bind_congr_of_ok (hsame rfl hhere hthere) fun _ _ _ => rfl

/-- `normalize` in steps is `normalize` at once, and so it is through any chain of directories that
are `OpenAt` one another. -/
theorem descent_is_one_step :
    (∀ base p q, p ≠ "" → Path.isAbsolute q = false →
        Path.normalize (Path.normalize base p) q = Path.normalize base (p ++ "/" ++ q)) ∧
      (∀ base p,
        Path.normalize (Path.normalize Path.root base) p = Path.normalize base p) ∧
      ∀ steps fd p q, OpenAt steps fd p → Path.isAbsolute q = false →
        (initial.run steps).ResolvesAs fd q (p ++ "/" ++ q) := by
  refine ⟨fun base p q hp hq => Path.normalize_normalize_append hp hq base,
    Path.normalize_normalize_root, ?_⟩
  intro steps fd p q hopen hq
  obtain ⟨status, hget⟩ := hopen.directory
  have hsound := (reachable_initial.run steps).sound
  -- below the directory and below the root the path is the same in the end
  refine resolvesAs_of_resolve (resolve_eq_ok_iff.mpr ⟨_, _, hget, rfl, ?_⟩)
    (resolve_eq_ok_iff.mpr ⟨_, _, hsound.root, rfl, rfl⟩)
  exact (Path.normalize_normalize_append_root hq p).symm

/-- A way down that goes up again by `..`, over a directory that is closed behind it. -/
theorem descent_through_closed_directory :
    let host := Host.ofTree (FlatTree.empty.insertFile "/a/b/f" [10])
    let first : Step := .perform host (.pathOpen Fd.root 0 0 8 0 0 0 0 32)
      (Memory.holding 64 (utf8 "a/./b/.."))
    let second : Step := .perform host (.pathOpen 4 0 0 7 0 0 0 0 32)
      (Memory.holding 64 (utf8 "..//a/b"))
    let last : Step := .perform host (.fdClose 4) .detached
    Path.normalize (Path.normalize "/x" "a/..") "../b" = Path.normalize "/x" "a/../../b" ∧
      OpenAt [first, second, last] 5 "a/./b/../..//a/b" ∧
      (initial.run [first, second, last]).ResolvesAs 5 "../b/f" "a/./b/../..//a/b/../b/f" ∧
      Path.normalize Path.root "a/./b/../..//a/b/../b/f" = "/a/b/f" := by
  intro host first second last
  obtain ⟨hjoin, _, hdescent⟩ := descent_is_one_step
  have hfirst : first.OpensDirectory initial Fd.root "a/./b/.." 4 :=
    ⟨host, 0, 0, 8, 0, 0, 0, 0, 32, _, _, rfl, by decide, rfl, by decide, by decide, "/a",
      { fileType := .directory, flags := 0, rightsBase := 0, rightsInheriting := 0 }, by decide⟩
  have hsecond : second.OpensDirectory (initial.run [first]) 4 "..//a/b" 5 :=
    ⟨host, 0, 0, 7, 0, 0, 0, 0, 32, _, _, rfl, by decide, rfl, by decide, by decide, "/a/b",
      { fileType := .directory, flags := 0, rightsBase := 0, rightsInheriting := 0 }, by decide⟩
  have hupper : OpenAt ([] ++ [first]) 4 "a/./b/.." := .opened (.inl rfl) hfirst
  have hlower : OpenAt ([first] ++ [second]) 5 "a/./b/../..//a/b" :=
    .further hupper (by decide) hsecond
  have hopen : OpenAt ([first, second] ++ [last]) 5 "a/./b/../..//a/b" :=
    .stays hlower (by simp [last, Step.performed?])
  exact ⟨hjoin "/x" "a/.." "../b" (by decide) (by decide), hopen,
    hdescent _ 5 _ "../b/f" hopen (by decide), by decide⟩

end Session

end WasiHost
