import WasiHost.Proofs.Layout.Record
import WasiHost.Proofs.Session.Snapshot

/-!
# The status of an opened descriptor

What an open was given, the flags and the two sets of rights, is kept with the descriptor, and
nothing but a change of its flags ever writes to it again. The kind of file is not kept: it is asked
of the host whenever the guest asks for the status. So what the guest is told depends on the open,
on the last change of flags that has succeeded since, and on what the host has at the path by now.

* **`Session.flagsAfter`** — the flags under a number after a run, by the changes that succeeded.
* **`Session.Bears`** — the invariant: an opened descriptor with this path, these flags and rights.
* **`Session.Moves.bears`**, **`Session.bears_step`**, **`Session.bears_run`** — calls, steps and
  runs keep it.
* **`Session.Reachable.tellsStatus`** — what the guest is told at any moment until the descriptor is
  closed.
-/

namespace WasiHost

namespace Descriptor

/-- The content of a file, if it was loaded. -/
def content? : Descriptor → Option Bytes
  | file _ _ content _ => content
  | _ => none

/-- Two descriptors differ at most in their flags. -/
structure SameButFlags (d d' : Descriptor) : Prop where
  path : d'.path? = d.path?
  offset : d'.offset = d.offset
  content : d'.content? = d.content?
  status : d'.status = { d.status with flags := d'.status.flags }

theorem SameButFlags.refl (d : Descriptor) : d.SameButFlags d :=
  ⟨rfl, rfl, rfl, rfl⟩

/-- `Descriptor.withFlags` changes flags only, and none of a standard stream. -/
theorem sameButFlags_withFlags (d : Descriptor) (flags : UInt16) :
    d.SameButFlags (d.withFlags flags) := by
  cases d with
  | file path offset content status => exact ⟨rfl, rfl, rfl, rfl⟩
  | directory path status => exact ⟨rfl, rfl, rfl, rfl⟩
  | _ => exact .refl _

/-- A descriptor that was opened at a path, with these flags and rights. -/
inductive Bears (path : String) (flags : UInt16) (rightsBase rightsInheriting : Rights) :
    Descriptor → Prop where
  | file (offset : UInt64) (content : Option Bytes) (fileType : FileType) :
      Bears path flags rightsBase rightsInheriting
        (.file path offset content ⟨fileType, flags, rightsBase, rightsInheriting⟩)
  | directory (fileType : FileType) :
      Bears path flags rightsBase rightsInheriting
        (.directory path ⟨fileType, flags, rightsBase, rightsInheriting⟩)

/-- `withFlags` has a descriptor bear the flags that were set last. -/
theorem Bears.withFlags {d : Descriptor} {path : String} {flags : UInt16}
    {rightsBase rightsInheriting : Rights} (h : d.Bears path flags rightsBase rightsInheriting)
    (flags' : UInt16) : (d.withFlags flags').Bears path flags' rightsBase rightsInheriting := by
  cases h with
  | file offset content fileType => exact .file offset content fileType
  | directory fileType => exact .directory fileType

end Descriptor

/-- The kind of file that a path has on a host: the paths of the standard streams are devices,
anything else is a directory if the filesystem says so, and otherwise a regular file. -/
def Host.typeOf (host : Host) (path : String) : FileType :=
  if path ∈ streamDevices then .characterDevice
  else match host.fileSystem.stat path with
    | .ok stat => if stat.fileType = .directory then .directory else .regularFile
    | .error _ => .regularFile

namespace Session

/-- The flags that a step has set for a number: the step is a change of flags that succeeds. -/
def flagsSet? (s : Session) (fd : Fd) (step : Step) : Option UInt32 :=
  match step.performed?, step.reply? s with
  | some (_, .fdFdstatSetFlags fd' flags, _), some reply =>
    if fd' = fd ∧ reply.answer = .ok 0 then some flags else none
  | _, _ => none

/-- The flags under a number after a run: those of the last change that succeeds, and if there is
none those given. -/
def flagsAfter (s : Session) (fd : Fd) (flags : UInt32) : List Step → UInt32
  | [] => flags
  | step :: rest => (s.step step).flagsAfter fd ((s.flagsSet? fd step).getD flags) rest

/-- Under the number is a descriptor that was opened at a path, with these flags and rights. -/
def Bears (s : Session) (fd : Fd) (path : String) (flags : UInt32)
    (rightsBase rightsInheriting : Rights) : Prop :=
  flags.toNat < UInt16.size ∧
    ∃ d, s.table.get fd = .ok d ∧ d.Bears path flags.toUInt16 rightsBase rightsInheriting

variable {s s' : Session} {fd : Fd} {path : String} {flags : UInt32}
  {rightsBase rightsInheriting : Rights} {host : Host} {call : Call} {memory : Memory} {step : Step}
  {address : UInt32}

/-! ## Changes of flags

The call is followed to its end for flags that fit and flags that do not, in any session. -/

/-- What a change of flags does, given the reply to it. -/
structure ChangesFlags (s : Session) (memory : Memory) (fd : Fd) (flags : UInt32) (reply : Reply) :
    Prop where
  answer : reply.answer = .ok 0 ↔ flags.toNat ≤ 65535
  memory_eq : reply.memory = memory
  /-- Flags that take more than half a word are refused. -/
  refused : 65535 < flags.toNat → reply.answer = .ok 8 ∧ reply.session = s
  /-- Nothing changes but what is open under the number, and of that nothing but the flags. -/
  session_eq : reply.session = { s with table := reply.session.table }
  others : ∀ fd', fd' ≠ fd → reply.session.table.get fd' = s.table.get fd'
  closed : ∀ errno, s.table.get fd = .error errno → reply.session = s
  flags : ∀ d, s.table.get fd = .ok d →
    ∃ d', reply.session.table.get fd = .ok d' ∧ d.SameButFlags d'

/-- `fdFdstatSetFlags` sets flags that fit on what is open under the number, if anything is. -/
theorem run_fdFdstatSetFlags (h : flags.toNat < UInt16.size) (s : Session) (fd : Fd) (host : Host)
    (memory : Memory) :
    (Call.fdFdstatSetFlags fd flags).run host s memory =
      match s.table.get fd with
      | .ok d =>
        .ok ()
          { session := { s with table := s.table.set fd (d.withFlags flags.toUInt16) }
            memory := memory
            events := [] }
      | .error _ => .ok () { session := s, memory := memory, events := [] } := by
  show Action.fdFdstatSetFlags fd flags _ = _
  unfold Action.fdFdstatSetFlags
  rw [bind_of_ok (Action.halfWord_eq_ok_iff.mpr ⟨h, rfl, rfl⟩),
    bind_of_ok (Action.look_eq_ok_iff.mpr ⟨rfl, rfl⟩)]
  cases s.table.get fd with
  | ok d => rfl
  | error errno => rfl

/-- Flags that do not fit are refused with `inval`, which the guest is told as 8. -/
theorem run_fdFdstatSetFlags_of_large (h : ¬ flags.toNat < UInt16.size) (s : Session) (fd : Fd)
    (host : Host) (memory : Memory) :
    (Call.fdFdstatSetFlags fd flags).run host s memory =
      .error (.guest .inval) { session := s, memory := memory, events := [] } := by
  apply bind_of_error
  unfold Action.halfWord
  rw [if_neg h]
  rfl

theorem ChangesFlags.of_stays {reply : Reply} (hanswer : reply.answer = .ok 0 ↔ flags.toNat ≤ 65535)
    (hrefused : 65535 < flags.toNat → reply.answer = .ok 8) (hmemory : reply.memory = memory)
    (hsession : reply.session = s) : s.ChangesFlags memory fd flags reply where
  answer := hanswer
  memory_eq := hmemory
  refused hlarge := ⟨hrefused hlarge, hsession⟩
  session_eq := by rw [hsession]
  others _ _ := by rw [hsession]
  closed _ _ := hsession
  flags d hget := ⟨d, by rw [hsession, hget], .refl d⟩

/-- In every session `fdFdstatSetFlags` changes nothing but flags. -/
theorem changesFlags (s : Session) (host : Host) (memory : Memory) (fd : Fd) (flags : UInt32) :
    s.ChangesFlags memory fd flags ((Call.fdFdstatSetFlags fd flags).perform host s memory) := by
  have hword : UInt16.size = 65536 := rfl
  by_cases h : flags.toNat < UInt16.size
  · have hrun := run_fdFdstatSetFlags h s fd host memory
    -- flags that fit are set on what is open, if anything is
    have hrefused : ¬ 65535 < flags.toNat := by omega
    cases hget : s.table.get fd with
    | ok d =>
      rw [hget] at hrun
      obtain ⟨hanswer, hsession, hmemory⟩ := Call.perform_of_ok hrun
      refine
        { answer := iff_of_true hanswer (by omega)
          memory_eq := hmemory
          refused := fun hlarge => absurd hlarge hrefused
          session_eq := by rw [hsession]
          others := fun fd' hfd => ?_
          closed := fun errno herror => ?_
          flags := fun d' hd' => ?_ }
      · rw [hsession]
        exact DescriptorTable.get_set_of_ne hfd
      · cases hget.symm.trans herror
      · cases hget.symm.trans hd'
        rw [hsession]
        exact ⟨_, DescriptorTable.get_set_self hget, d.sameButFlags_withFlags _⟩
    | error errno =>
      rw [hget] at hrun
      obtain ⟨hanswer, hsession, hmemory⟩ := Call.perform_of_ok hrun
      exact .of_stays (iff_of_true hanswer (by omega)) (fun hlarge => absurd hlarge hrefused)
        hmemory hsession
  · -- flags that do not fit are refused
    have hrun := run_fdFdstatSetFlags_of_large h s fd host memory
    obtain ⟨hsession, hmemory⟩ := Call.perform_of_error hrun
    have hanswer : ((Call.fdFdstatSetFlags fd flags).perform host s memory).answer = .ok 8 :=
      Call.answer_of_error hrun
    refine .of_stays (iff_of_false ?_ (by omega)) (fun _ => hanswer) hmemory hsession
    rw [hanswer]
    decide

/-! ## What the guest is told

The kind of file comes from the host at the moment of the question (`Host.typeOf`), the rest from
the descriptor. Both are packed into a record, which is read back by `FdStat.lawful`. -/

/-- `fileStat` succeeds if the host has something at the path, or if the path is among
`streamDevices`. -/
theorem exists_fileStat_iff :
    (∃ stat, s.fileStat host.fileSystem path = .ok stat) ↔
      (∃ stat, host.fileSystem.stat path = .ok stat) ∨ path ∈ streamDevices := by
  unfold fileStat isStreamDevice
  cases host.fileSystem.stat path with
  | ok stat => simp
  | error errno =>
    by_cases hdevice : path ∈ streamDevices <;> simp [hdevice]

/-- The kind that is shown is `Host.typeOf`. -/
theorem fileType_of_fileStat {stat : FileStat} (h : s.fileStat host.fileSystem path = .ok stat) :
    stat.fileType = host.typeOf path := by
  -- the option that hides the times does not hide the kind
  have hshown (stat : FileStat) :
      (s.shownFileStat path stat).fileType = shownFileType path stat.fileType := by
    unfold shownFileStat
    split <;> rfl
  unfold fileStat isStreamDevice at h
  unfold Host.typeOf
  cases hstat : host.fileSystem.stat path with
  | ok found =>
    rw [hstat] at h
    cases h
    rw [hshown, shownFileType, isStreamDevice]
    simp
  | error errno =>
    rw [hstat] at h
    by_cases hdevice : path ∈ streamDevices
    · rw [if_pos hdevice]
      simp only [hdevice, decide_true, if_true] at h
      cases h
      rw [hshown, shownFileType, isStreamDevice]
      simp [hdevice]
    · simp only [hdevice, decide_false, Bool.false_eq_true, if_false] at h
      cases h

/-- `fdFdstatGet` asks the host for the kind of file, and stores it with what is kept. -/
theorem run_fdFdstatGet (host : Host) (memory : Memory) (address : UInt32) {d : Descriptor}
    {half : UInt16} (hget : s.table.get fd = .ok d)
    (hd : d.Bears path half rightsBase rightsInheriting) :
    (Call.fdFdstatGet fd address).run host s memory =
      match s.fileStat host.fileSystem path with
      | .ok stat =>
        Action.access
          (Access.write address
            (FdStat.pack ⟨stat.fileType, half, rightsBase, rightsInheriting⟩))
          { session := s, memory := memory, events := [] }
      | .error errno =>
        .error (.guest errno) { session := s, memory := memory, events := [] } := by
  have hasked : Action.fileStat host path { session := s, memory := memory, events := [] } =
      Action.lift (s.fileStat host.fileSystem path)
        { session := s, memory := memory, events := [] } := rfl
  show Action.fdFdstatGet host fd address _ = _
  unfold Action.fdFdstatGet
  rw [bind_of_ok (Action.descriptor_eq_ok_iff.mpr ⟨hget, rfl⟩)]
  cases hfound : s.fileStat host.fileSystem path with
  | ok stat =>
    rw [hfound] at hasked
    -- a file or a directory, the host is asked for its path
    cases hd with
    | file offset content fileType => exact bind_of_ok hasked
    | directory fileType => exact bind_of_ok hasked
  | error errno =>
    rw [hfound] at hasked
    cases hd with
    | file offset content fileType => exact bind_of_error hasked
    | directory fileType => exact bind_of_error hasked

/-- What the guest is told of a descriptor that was opened at a path, with these flags and rights,
given the reply to its question. -/
structure TellsStatus (path : String) (flags : UInt32) (rightsBase rightsInheriting : Rights)
    (host : Host) (memory : Memory) (address : UInt32) (reply : Reply) : Prop where
  answer : reply.answer = .ok 0 ↔
    (∃ linear, memory = .attached linear ∧ address.toNat + 24 ≤ linear.bytes.size) ∧
      ((∃ stat, host.fileSystem.stat path = .ok stat) ∨ path ∈ streamDevices)
  record : reply.answer = .ok 0 → ∃ record : FdStat,
    Access.readRecord FdStat.size FdStat.unpack address reply.memory = .ok record reply.memory ∧
      record.fileType = host.typeOf path ∧ record.flags.toNat = flags.toNat ∧
      record.rightsBase = rightsBase ∧ record.rightsInheriting = rightsInheriting

/-- A status that was stored is read back by `Access.readRecord`. -/
theorem readRecord_of_write {memory' : Memory} {record : FdStat}
    (h : memory.write address record.pack = .ok memory') :
    Access.readRecord FdStat.size FdStat.unpack address memory' = .ok record memory' := by
  have hslice : Access.slice address FdStat.size memory' = .ok record.pack memory' :=
    Access.reading_eq_ok_iff.mpr ⟨Memory.slice_of_write record.length_pack h, rfl⟩
  have hunpack : FdStat.unpack record.pack = .ok record := FdStat.lawful.unpack_pack record
  unfold Access.readRecord
  rw [bind_of_ok hslice, hunpack]
  rfl

/-- As long as `Session.Bears` holds, a question for the status is answered from it. -/
theorem tellsStatus_of_bears (h : s.Bears fd path flags rightsBase rightsInheriting) (host : Host)
    (memory : Memory) (address : UInt32) :
    TellsStatus path flags rightsBase rightsInheriting host memory address
      ((Call.fdFdstatGet fd address).perform host s memory) := by
  obtain ⟨hflags, d, hget, hd⟩ := h
  have hrun := run_fdFdstatGet host memory address hget hd
  have hknown : (∃ stat, s.fileStat host.fileSystem path = .ok stat) ↔ _ := exists_fileStat_iff
  cases hfound : s.fileStat host.fileSystem path with
  | error errno =>
    -- the host has nothing there, and the path is not that of a stream
    have hunknown : ¬ ((∃ stat, host.fileSystem.stat path = .ok stat) ∨ path ∈ streamDevices) := by
      rw [← hknown, hfound]
      rintro ⟨_, hok⟩
      cases hok
    rw [hfound] at hrun
    have hfails : ((Call.fdFdstatGet fd address).perform host s memory).answer ≠ .ok 0 := by
      rw [Call.answer_of_error hrun]
      exact nofun
    exact ⟨iff_of_false hfails fun hok => hunknown hok.2, fun hzero => absurd hzero hfails⟩
  | ok stat =>
    rw [hfound] at hrun
    let record : FdStat := ⟨stat.fileType, flags.toUInt16, rightsBase, rightsInheriting⟩
    have hroom : (∃ memory', memory.write address record.pack = .ok memory') ↔
        ∃ linear, memory = .attached linear ∧ address.toNat + 24 ≤ linear.bytes.size := by
      simp only [Memory.write_eq_ok_iff, record.length_pack]
      constructor
      · rintro ⟨_, linear, hlinear, _, hinside, _⟩
        exact ⟨linear, hlinear, hinside⟩
      · rintro ⟨linear, hlinear, hinside⟩
        exact ⟨_, linear, hlinear, by decide, hinside, rfl⟩
    -- the host has something to tell, so all depends on the room for the record
    by_cases hwrites : ∃ memory', memory.write address record.pack = .ok memory'
    · have hinside := hroom.mp hwrites
      obtain ⟨memory', hwrite⟩ := hwrites
      have hstored : (Call.fdFdstatGet fd address).run host s memory = .ok () _ :=
        hrun.trans <| Action.access_eq_ok_iff.mpr ⟨memory', Access.write_eq_ok_iff.mpr hwrite, rfl⟩
      obtain ⟨hanswer, -, hmemory⟩ := Call.perform_of_ok hstored
      -- the flags were let through because they fit in a half word
      have hhalf : record.flags.toNat = flags.toNat := by
        rw [UInt32.toNat_toUInt16]
        exact Nat.mod_eq_of_lt hflags
      refine ⟨iff_of_true hanswer ⟨hinside, hknown.mp ⟨stat, hfound⟩⟩, fun _ => ⟨record, ?_, ?_⟩⟩
      · rw [hmemory]
        exact readRecord_of_write hwrite
      · exact ⟨fileType_of_fileStat hfound, hhalf, rfl, rfl⟩
    · have hfails : ((Call.fdFdstatGet fd address).perform host s memory).answer ≠ .ok 0 := by
        intro hzero
        obtain ⟨w, hok⟩ := Call.run_of_answer_eq_zero rfl hzero
        obtain ⟨memory', hwrite, _⟩ := Action.access_eq_ok_iff.mp (hrun.symm.trans hok)
        exact hwrites ⟨memory', Access.write_eq_ok_iff.mp hwrite⟩
      exact ⟨iff_of_false hfails fun hok => hwrites (hroom.mpr hok.1),
        fun hzero => absurd hzero hfails⟩

/-! ## Steps

A change of flags is followed by `run_fdFdstatSetFlags`. All other calls are cases of
`Session.Moves`, of which only a read changes the entry at all. -/

theorem Bears.of_get (h : s.Bears fd path flags rightsBase rightsInheriting)
    (hget : s'.table.get fd = s.table.get fd) :
    s'.Bears fd path flags rightsBase rightsInheriting := by
  obtain ⟨hflags, d, hopen, hd⟩ := h
  exact ⟨hflags, d, hget.trans hopen, hd⟩

/-- `Moves` of a call that neither changes the flags of a descriptor nor closes it keeps what it
`Bears`. -/
theorem Moves.bears {succeeded : Bool} (hmoves : s.Moves host call succeeded s')
    (hsound : s.table.Sound) (h : s.Bears fd path flags rightsBase rightsInheriting)
    (hset : ∀ flags, call ≠ .fdFdstatSetFlags fd flags) (hclose : call ≠ .fdClose fd) :
    s'.Bears fd path flags rightsBase rightsInheriting := by
  rcases hmoves.get_cases hsound fd with hsame | ⟨_, hchanges⟩ | ⟨hbad, _⟩
  · exact h.of_get hsame
  · -- what is left of the calls that change a descriptor is a read
    obtain ⟨hflags, d, hopen, hd⟩ := h
    cases hmoves with
    | stays => exact ⟨hflags, d, hopen, hd⟩
    | closes fd' => exact absurd (congrArg Call.fdClose (Option.some.inj hchanges)) hclose
    | flags fd' flags' =>
      cases hchanges
      exact absurd rfl (hset flags')
    | serves fd' buffers count address vectors data _ hserves =>
      cases hchanges
      cases hserves with
      | stdin k hget => exact ⟨hflags, d, hopen, hd⟩
      | file path' offset content status bytes moved hget =>
        cases hopen.symm.trans hget
        cases hd with
        | file _ _ fileType =>
          exact ⟨hflags, _, DescriptorTable.get_set_self hget, .file _ _ fileType⟩
    | loads fd' buffers count address path' offset content status bytes hget =>
      cases hchanges
      cases hopen.symm.trans hget
      cases hd with
      | file _ _ fileType =>
        exact ⟨hflags, _, DescriptorTable.get_set_self hget, .file _ _ fileType⟩
    | _ => cases hchanges
  · obtain ⟨_, d, hopen, _⟩ := h
    cases hbad.symm.trans hopen

/-- `flagsSet?` is told by the answer. -/
theorem flagsSet?_of_performed {given : UInt32}
    (hstep : step.performed? = some (host, .fdFdstatSetFlags fd given, memory)) :
    s.flagsSet? fd step =
      if ((Call.fdFdstatSetFlags fd given).perform host s memory).answer = .ok 0 then some given
      else none := by
  unfold flagsSet?
  rw [hstep, (step_of_performed hstep s).2.2]
  simp only [true_and]

/-- `fdFdstatSetFlags` that succeeds leaves a descriptor with those flags, and any other leaves it
as it was. -/
theorem bears_of_fdFdstatSetFlags {given : UInt32}
    (h : s.Bears fd path flags rightsBase rightsInheriting)
    (hstep : step.performed? = some (host, .fdFdstatSetFlags fd given, memory)) :
    (s.step step).Bears fd path ((s.flagsSet? fd step).getD flags) rightsBase rightsInheriting := by
  rw [(step_of_performed hstep s).1, flagsSet?_of_performed hstep]
  by_cases hgiven : given.toNat < UInt16.size
  · -- flags that fit are set
    obtain ⟨-, d, hopen, hd⟩ := h
    have hrun := run_fdFdstatSetFlags hgiven s fd host memory
    rw [hopen] at hrun
    obtain ⟨hanswer, hsession, -⟩ := Call.perform_of_ok hrun
    have hzero : ((Call.fdFdstatSetFlags fd given).perform host s memory).answer = .ok 0 := hanswer
    rw [if_pos hzero, hsession]
    exact ⟨hgiven, _, DescriptorTable.get_set_self hopen, hd.withFlags _⟩
  · -- flags that do not fit are refused, and those of before stay
    have hrun := run_fdFdstatSetFlags_of_large hgiven s fd host memory
    have hanswer : ((Call.fdFdstatSetFlags fd given).perform host s memory).answer = .ok 8 :=
      Call.answer_of_error hrun
    rw [hanswer, if_neg (by decide), (Call.perform_of_error hrun).1]
    exact h

theorem flagsSet?_eq_none
    (hset : ∀ host flags memory,
      step.performed? ≠ some (host, .fdFdstatSetFlags fd flags, memory)) :
    s.flagsSet? fd step = none := by
  unfold flagsSet?
  split
  · next host fd' flags memory reply hstep _ =>
    rw [if_neg]
    rintro ⟨rfl, _⟩
    exact hset _ _ _ hstep
  · rfl

/-- A step that does not close the descriptor keeps path and rights, and the flags but for those
that `Session.flagsSet?` says. -/
theorem bears_step (hsound : s.table.Sound) (h : s.Bears fd path flags rightsBase rightsInheriting)
    (hclose : ∀ host memory, step.performed? ≠ some (host, .fdClose fd, memory)) :
    (s.step step).Bears fd path ((s.flagsSet? fd step).getD flags) rightsBase rightsInheriting := by
  -- a change of flags is told apart by whether it succeeds, any other step by what it moves
  by_cases hset : ∃ host given memory,
      step.performed? = some (host, .fdFdstatSetFlags fd given, memory)
  · obtain ⟨host, given, memory, hstep⟩ := hset
    exact bears_of_fdFdstatSetFlags h hstep
  · have hnot : ∀ host flags memory,
        step.performed? ≠ some (host, .fdFdstatSetFlags fd flags, memory) :=
      fun host flags memory hstep => hset ⟨host, flags, memory, hstep⟩
    rw [flagsSet?_eq_none hnot, Option.getD_none]
    cases hstep : step.performed? with
    | none => exact h.of_get (by rw [(step_of_not_performed hstep s).2])
    | some performed =>
      obtain ⟨host, call, memory⟩ := performed
      obtain ⟨succeeded, hmoves, _⟩ := Call.perform_moves host call memory hsound
      rw [(step_of_performed hstep s).1]
      refine hmoves.bears hsound h ?_ ?_
      · rintro flags rfl
        exact hnot _ _ _ hstep
      · rintro rfl
        exact hclose _ _ hstep

/-! ## Runs

By induction on steps, from the open that has put the descriptor in place. -/

/-- A run that does not close a descriptor keeps its path and its rights, and of its flags
`flagsAfter`, those that were set last. By induction on `steps`. -/
theorem bears_run (hsound : s.table.Sound) (h : s.Bears fd path flags rightsBase rightsInheriting)
    (steps : List Step)
    (hclose : ∀ step ∈ steps, ∀ host memory, step.performed? ≠ some (host, .fdClose fd, memory)) :
    (s.run steps).Bears fd path (s.flagsAfter fd flags steps) rightsBase rightsInheriting := by
  -- the session and the flags to start with both change with the first step
  induction steps generalizing s flags with
  | nil => exact h
  | cons step rest ih =>
    obtain ⟨hfirst, hrest⟩ := List.forall_mem_cons.mp hclose
    exact ih (sound_step hsound step) (bears_step hsound h hfirst) hrest

/-- What `pathOpen` has kept under the number it has stored. -/
theorem bears_of_pathOpen (hsound : s.table.Sound) {dir new : Fd}
    {dirFlags textAddress textLength : UInt32} {openFlags : OpenFlags} {fdFlags : UInt32}
    (hzero : ((Call.pathOpen dir dirFlags textAddress textLength openFlags rightsBase
      rightsInheriting fdFlags address).perform host s memory).answer = .ok 0)
    (hnew : ((Call.pathOpen dir dirFlags textAddress textLength openFlags rightsBase
      rightsInheriting fdFlags address).perform host s memory).memory.readU32 address = .ok new) :
    ∃ path, Call.namedPath? s memory dir textAddress textLength = some path ∧
      ((Call.pathOpen dir dirFlags textAddress textLength openFlags rightsBase rightsInheriting
        fdFlags address).perform host s memory).session.Bears new path fdFlags rightsBase
          rightsInheriting := by
  obtain ⟨path, stat, hname, -, hget⟩ := get_of_pathOpen hsound hzero hnew
  refine ⟨path, hname, ?_, _, hget, ?_⟩
  · -- an open with larger flags is refused
    obtain ⟨w, hrun⟩ := Call.run_of_answer_eq_zero rfl hzero
    obtain ⟨_, w₁, _, hrest⟩ := bind_eq_ok_iff.mp hrun
    obtain ⟨half, w₂, hhalf, _⟩ := bind_eq_ok_iff.mp hrest
    exact (Action.halfWord_eq_ok_iff.mp hhalf).1
  · unfold Action.openedDescriptor
    split
    · exact .directory .directory
    · exact .file 0 none .regularFile

/-- From a `pathOpen` on until the descriptor is closed, whatever else happens and whatever the host
has at the path by now, `fdFdstatGet` tells the rights of the open, the flags that were set last,
and the kind of file that the path has when it asks. No change of flags changes anything but the
flags of what it names. -/
theorem Reachable.tellsStatus (hs : s.Reachable) {dir new : Fd}
    {dirFlags textAddress textLength : UInt32} {openFlags : OpenFlags} {fdFlags : UInt32}
    (hzero : ((Call.pathOpen dir dirFlags textAddress textLength openFlags rightsBase
      rightsInheriting fdFlags address).perform host s memory).answer = .ok 0)
    (hnew : ((Call.pathOpen dir dirFlags textAddress textLength openFlags rightsBase
      rightsInheriting fdFlags address).perform host s memory).memory.readU32 address = .ok new)
    (steps : List Step)
    (hclose : ∀ step ∈ steps, ∀ host memory, step.performed? ≠ some (host, .fdClose new, memory)) :
    let opened := ((Call.pathOpen dir dirFlags textAddress textLength openFlags rightsBase
      rightsInheriting fdFlags address).perform host s memory).session
    ∃ path, Call.namedPath? s memory dir textAddress textLength = some path ∧
      (∀ host memory address,
        TellsStatus path (opened.flagsAfter new fdFlags steps) rightsBase rightsInheriting host
          memory address ((Call.fdFdstatGet new address).perform host (opened.run steps) memory)) ∧
      ∀ host memory fd flags,
        (opened.run steps).ChangesFlags memory fd flags
          ((Call.fdFdstatSetFlags fd flags).perform host (opened.run steps) memory) := by
  intro opened
  obtain ⟨path, hname, hbears⟩ := bears_of_pathOpen hs.sound hzero hnew
  have hsound : opened.table.Sound := (hs.perform host _ memory).sound
  have hrun := bears_run hsound hbears steps hclose
  refine ⟨path, hname, fun host memory address => ?_, fun host memory fd flags => ?_⟩
  · exact tellsStatus_of_bears hrun host memory address
  · exact changesFlags _ host memory fd flags

/-- A file that was opened with the flags `5`, of which the guest set `3` and then more than fit: it
is told `3`, and whatever it sets next changes nothing but flags. -/
theorem tellsStatus_of_changed_flags :
    let host := Host.ofTree (FlatTree.empty.insertFile "/f" [10, 20, 30])
    let later := Host.ofTree (FlatTree.empty.insertDirectory "/f")
    let memory := Memory.holding 64 (utf8 "f")
    let opened := ((Call.pathOpen Fd.root 0 0 1 0 7 9 5 32).perform host initial memory).session
    let changed := opened.run
      [.perform host (.fdFdstatSetFlags Fd.firstFree 3) memory,
        .perform later (.fdFdstatSetFlags Fd.firstFree 65536) memory,
        .perform later (.fdFdstatSetFlags Fd.stdin 4) memory]
    (∀ host memory address,
      TellsStatus "/f" 3 7 9 host memory address
        ((Call.fdFdstatGet Fd.firstFree address).perform host changed memory)) ∧
      ∀ host memory fd flags,
        changed.ChangesFlags memory fd flags
          ((Call.fdFdstatSetFlags fd flags).perform host changed memory) := by
  intro host later memory opened changed
  let call : Call := .pathOpen Fd.root 0 0 1 0 7 9 5 32
  let steps : List Step :=
    [.perform host (.fdFdstatSetFlags Fd.firstFree 3) memory,
      .perform later (.fdFdstatSetFlags Fd.firstFree 65536) memory,
      .perform later (.fdFdstatSetFlags Fd.stdin 4) memory]
  have hzero : (call.perform host initial memory).answer = .ok 0 := by decide
  have hnew : (call.perform host initial memory).memory.readU32 32 = .ok Fd.firstFree := by decide
  have hname : Call.namedPath? initial memory Fd.root 0 1 = some "/f" := by decide
  have hflags : opened.flagsAfter Fd.firstFree 5 steps = 3 := by decide
  have hclose : ∀ step ∈ steps, ∀ host memory,
      step.performed? ≠ some (host, .fdClose Fd.firstFree, memory) := by
    simp [steps, Step.performed?]
  obtain ⟨path, hpath, htells, hchanges⟩ :=
    reachable_initial.tellsStatus hzero hnew steps hclose
  cases hname.symm.trans hpath
  rw [hflags] at htells
  exact ⟨htells, hchanges⟩

end Session

end WasiHost
