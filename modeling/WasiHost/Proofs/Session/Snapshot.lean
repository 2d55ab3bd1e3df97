import WasiHost.Proofs.Session.Run

/-!
# Reads of an opened file are slices of one snapshot

The content of a file is fetched from the host once, by the first read that comes that far and finds
it, and kept with the descriptor. From then on every read serves the next slice of it, whatever the
host has at the path by now, and whatever else is opened, read, or closed.

* **`Step.fetched?`** — the content that a step fetches for a descriptor.
* **`Session.movedIn`** — how much of a file the reads of a run have moved, by the counts they
  stored.
* **`Session.Shows`** — the invariant: what was fetched, and an offset that is the sum of the
  counts.
* **`Session.Moves.shows`**, **`Session.shows_step`**, **`Session.shows_run`** — calls, steps and
  runs keep it.
* **`Session.ReadsSlices`**, **`Session.readsSlices_of_pathOpen`** — the property, of every run from
  an open on. -/

namespace WasiHost

namespace Step

/-- The content of the file at `path` that a step fetches for a read of `fd`: the read must come to
move anything, and the host must have the content. -/
def fetched? (fd : Fd) (path : String) (step : Step) : Option Bytes :=
  match step.performed? with
  | some (host, .fdRead fd' buffers count address, memory) =>
    if fd' = fd ∧ (memory.buffers? buffers count address).isSome then
      (host.fileSystem.read path).toOption
    else none
  | _ => none

/-- A step of a session that reads a descriptor and succeeds. -/
structure Reads (step : Step) (s : Session) (fd : Fd) (host : Host)
    (buffers count address : UInt32) (memory : Memory) (reply : Reply) : Prop where
  performed : step.performed? = some (host, .fdRead fd buffers count address, memory)
  replied : step.reply? s = some reply
  succeeded : reply.answer = .ok 0

end Step

namespace Session

/-- The count that a step has stored, if it is a read of `fd` that succeeds, and otherwise zero. -/
def moved (s : Session) (fd : Fd) (step : Step) : Nat :=
  match step.performed?, step.reply? s with
  | some (_, .fdRead fd' _ _ address, _), some reply =>
    if fd' = fd ∧ reply.answer = .ok 0 then
      match reply.memory.readU32 address with
      | .ok count => count.toNat
      | .error _ => 0
    else 0
  | _, _ => 0

/-- The sum of the counts that the successful reads of `fd` in a run have stored. -/
def movedIn (s : Session) (fd : Fd) : List Step → Nat
  | [] => 0
  | step :: rest => s.moved fd step + (s.step step).movedIn fd rest

/-- A file is open under a number, with the given content and an offset of the given value. -/
def Shows (s : Session) (fd : Fd) (path : String) (content : Option Bytes) (o : Nat) : Prop :=
  ∃ offset status, s.table.get fd = .ok (.file path offset content status) ∧ offset.toNat = o ∧
    ∀ bytes, content = some bytes → bytes.length < UInt64.size

variable {s s' : Session} {fd : Fd} {path : String} {content : Option Bytes} {o : Nat} {host : Host}
  {call : Call} {memory : Memory} {step : Step} {buffers count address : UInt32} {reply : Reply}

/-- `movedIn` of a run is that of its parts, the second counted from where the first ends. -/
theorem movedIn_append (s : Session) (fd : Fd) (earlier later : List Step) :
    s.movedIn fd (earlier ++ later) = s.movedIn fd earlier + (s.run earlier).movedIn fd later := by
  induction earlier generalizing s with
  | nil => simp [movedIn]
  | cons step rest ih =>
    rw [List.cons_append, movedIn, ih, movedIn, run_cons, Nat.add_assoc]

/-! ## Calls that are not reads of the file

`Session.Moves.get_cases` leaves three ways to change an entry: a close, flags, and a read. The
first is excluded, and flags do not touch content or offset. -/

theorem Shows.of_get (h : s.Shows fd path content o) (hget : s'.table.get fd = s.table.get fd) :
    s'.Shows fd path content o := by
  obtain ⟨offset, status, hfile, hrest⟩ := h
  exact ⟨offset, status, hget.trans hfile, hrest⟩

/-- `Moves` of a call that neither reads the file nor closes it keeps what it `Shows`. -/
theorem Moves.shows {succeeded : Bool} (hmoves : s.Moves host call succeeded s')
    (hsound : s.table.Sound) (h : s.Shows fd path content o)
    (hread : ∀ buffers count address, call ≠ .fdRead fd buffers count address)
    (hclose : call ≠ .fdClose fd) : s'.Shows fd path content o := by
  rcases hmoves.get_cases hsound fd with hsame | ⟨_, hchanges⟩ | ⟨hbad, _⟩
  · exact h.of_get hsame
  · -- what is left of the calls that change a descriptor is the one that sets flags
    obtain ⟨offset, status, hfile, hoffset, hlength⟩ := h
    cases hmoves with
    | stays => exact ⟨offset, status, hfile, hoffset, hlength⟩
    | closes fd' => exact absurd (congrArg Call.fdClose (Option.some.inj hchanges)) hclose
    | flags fd' flags d hget =>
      cases hchanges
      cases hfile.symm.trans hget
      exact ⟨offset, _, DescriptorTable.get_set_self hfile, hoffset, hlength⟩
    | serves fd' buffers count address =>
      cases hchanges
      exact absurd rfl (hread buffers count address)
    | loads fd' buffers count address =>
      cases hchanges
      exact absurd rfl (hread buffers count address)
    | _ => cases hchanges
  · obtain ⟨_, _, hfile, _⟩ := h
    cases hbad.symm.trans hfile

/-! ## Reads of the file

A read that succeeds and one that fails, taken from `Action.fdRead_eq_ok` and
`Action.fdRead_eq_error`. -/

/-- `fdRead` of a file that succeeds delivers the slice of the content at the offset, stores its
length and moves the offset by it. -/
theorem slice_of_read {offset : UInt64} {status : FdStat}
    (hfile : s.table.get fd = .ok (.file path offset content status))
    (hzero : ((Call.fdRead fd buffers count address).perform host s memory).answer = .ok 0) :
    ∃ (c : Bytes) (vectors : List IoVec) (moved : UInt32),
      memory.buffers? buffers count address = some vectors ∧
        host.loaded? path content = some c ∧
        moved.toNat = min (c.length - offset.toNat) (IoVec.room vectors) ∧
        ((Call.fdRead fd buffers count address).perform host s memory).memory.readU32 address =
          .ok moved ∧
        memory.Delivers vectors address ((c.drop offset.toNat).take moved.toNat)
          ((Call.fdRead fd buffers count address).perform host s memory).memory ∧
        ((Call.fdRead fd buffers count address).perform host s memory).session.table.get fd =
          .ok (.file path (offset + moved.toUInt64) (some c) status) := by
  obtain ⟨w, hrun⟩ := Call.run_of_answer_eq_zero rfl hzero
  obtain ⟨_, vectors, data, hbuffers, hserves, hdelivers⟩ := Action.fdRead_eq_ok hrun
  -- the reply has what the body has left
  obtain ⟨_, hsession, hmemory⟩ := Call.perform_of_ok hrun
  obtain ⟨c, moved, hc, hmoved, rfl, hafter⟩ := hserves.of_file hfile
  have hlength : ((c.drop offset.toNat).take moved.toNat).length = moved.toNat := by
    rw [List.length_take, List.length_drop]
    omega
  have hcount := hdelivers.count
  rw [hlength, UInt32.ofNat_toNat] at hcount
  rw [hsession, hmemory]
  refine ⟨c, vectors, moved, hbuffers, hc, hmoved, hcount, hdelivers, ?_⟩
  rw [hafter]
  exact DescriptorTable.get_set_self hfile

/-- `fdRead` of a file that fails leaves the offset alone, and loads the content if it came to
that. -/
theorem get_of_failed_read {offset : UInt64} {status : FdStat}
    (hfile : s.table.get fd = .ok (.file path offset content status))
    (hzero : ((Call.fdRead fd buffers count address).perform host s memory).answer ≠ .ok 0) :
    ((Call.fdRead fd buffers count address).perform host s memory).session.table.get fd =
      .ok (.file path offset
        (if (memory.buffers? buffers count address).isSome then host.loaded? path content
          else content) status) := by
  obtain ⟨e, w, hrun⟩ | ⟨clock, hclock⟩ := Call.run_of_answer_ne_zero hzero
  · rw [(Call.perform_of_error hrun).1]
    obtain ⟨_, ⟨hsession, hnothing⟩ | ⟨path', offset', content', status', bytes, hget, hsome,
      hbytes, hsession⟩⟩ := Action.fdRead_eq_error hrun
    · rw [hsession]
      rcases hnothing path offset content status hfile with hbuffers | hnone
      · change memory.buffers? buffers count address = none at hbuffers
        rw [hbuffers]
        exact hfile
      · -- nothing is loaded, so nothing was there before either
        have hcontent : content = none := by
          cases content with
          | none => rfl
          | some bytes => cases hnone
        rw [hnone, hcontent, ite_self]
        exact hcontent ▸ hfile
    · cases hfile.symm.trans hget
      change (memory.buffers? buffers count address).isSome = true at hsome
      rw [hsession, if_pos hsome, hbytes]
      exact DescriptorTable.get_set_self hfile
  · cases hclock

/-! ## Steps

`Step.fetched?` and `Session.moved` say what a step adds to the content and to the offset, so
`shows_step` has the invariant before and after with just these added. -/

/-- `fetched?` of a read: the content first fetched stays. -/
theorem fetched?_of_read (path : String) (content : Option Bytes)
    (hstep : step.performed? = some (host, .fdRead fd buffers count address, memory)) :
    content.or (step.fetched? fd path) =
      if (memory.buffers? buffers count address).isSome then host.loaded? path content
      else content := by
  rw [Step.fetched?, hstep]
  simp only [true_and]
  split
  · rfl
  · rw [Option.or_none]

/-- `moved` of a read is as much as it has stored, and nothing if it has failed. -/
theorem moved_of_read
    (hstep : step.performed? = some (host, .fdRead fd buffers count address, memory)) :
    (((Call.fdRead fd buffers count address).perform host s memory).answer ≠ .ok 0 →
        s.moved fd step = 0) ∧
      ∀ moved, ((Call.fdRead fd buffers count address).perform host s memory).answer = .ok 0 →
        ((Call.fdRead fd buffers count address).perform host s memory).memory.readU32 address =
          .ok moved → s.moved fd step = moved.toNat := by
  have hreply := (step_of_performed hstep s).2.2
  unfold Session.moved
  rw [hstep, hreply]
  simp only [true_and]
  refine ⟨fun hne => if_neg hne, fun moved hzero hread => ?_⟩
  rw [if_pos hzero, hread]

/-- A step that is no read of the file has nothing `fetched?` for it and nothing `moved` of it. -/
theorem moved_of_not_read (s : Session) (path : String)
    (hread : ∀ host memory buffers count address,
      step.performed? ≠ some (host, .fdRead fd buffers count address, memory)) :
    step.fetched? fd path = none ∧ s.moved fd step = 0 := by
  constructor
  · unfold Step.fetched?
    split
    · next host fd' buffers count address memory hstep =>
      rw [if_neg]
      rintro ⟨rfl, _⟩
      exact hread _ _ _ _ _ hstep
    · rfl
  · unfold Session.moved
    split
    · next host fd' buffers count address memory reply hstep _ =>
      rw [if_neg]
      rintro ⟨rfl, _⟩
      exact hread _ _ _ _ _ hstep
    · rfl

/-- One step that does not close the file: it may fetch the content and move the offset, but by no
more than the count that it stores. -/
theorem shows_step (hsound : s.table.Sound) (h : s.Shows fd path content o)
    (hclose : ∀ host memory, step.performed? ≠ some (host, .fdClose fd, memory))
    (hlength : ∀ bytes, step.fetched? fd path = some bytes → bytes.length < UInt64.size) :
    (s.step step).Shows fd path (content.or (step.fetched? fd path)) (o + s.moved fd step) := by
  -- a read of the file itself is followed to its end, any other call is a case of `Moves.shows`
  by_cases hread : ∃ host memory buffers count address,
      step.performed? = some (host, .fdRead fd buffers count address, memory)
  · obtain ⟨host, memory, buffers, count, address, hstep⟩ := hread
    obtain ⟨offset, status, hfile, rfl, hcontent⟩ := h
    have hfetched := fetched?_of_read path content hstep
    -- what the read adds to the offset is up to whether it has succeeded
    obtain ⟨hfailed, hcount⟩ := moved_of_read (s := s) hstep
    have hbound : ∀ bytes, content.or (step.fetched? fd path) = some bytes →
        bytes.length < UInt64.size := by
      intro bytes hbytes
      rcases Option.or_eq_some_iff.mp hbytes with hold | ⟨_, hnew⟩
      · exact hcontent bytes hold
      · exact hlength bytes hnew
    rw [(step_of_performed hstep s).1]
    by_cases hzero : ((Call.fdRead fd buffers count address).perform host s memory).answer = .ok 0
    · obtain ⟨c, vectors, moved, hbuffers, hc, hmoved, hstored, _, hget⟩ :=
        slice_of_read hfile hzero
      have hsome : content.or (step.fetched? fd path) = some c := by
        rw [hfetched, hbuffers, hc]
        rfl
      rw [hsome, hcount moved hzero hstored]
      refine ⟨_, status, hget, ?_, fun bytes hbytes => hbound bytes (hsome.trans hbytes)⟩
      -- the sum is inside the content, so it does not wrap around
      have hsum := offset_add_le (hsound.opened_of_file hfile).2 hc hmoved
      have hlt := hsum.trans_lt (hbound c hsome)
      rw [UInt64.toNat_add, UInt32.toNat_toUInt64]
      exact Nat.mod_eq_of_lt hlt
    · rw [hfailed hzero, Nat.add_zero]
      refine ⟨offset, status, ?_, rfl, hbound⟩
      rw [hfetched]
      exact get_of_failed_read hfile hzero
  · have hnot : ∀ host memory buffers count address,
        step.performed? ≠ some (host, .fdRead fd buffers count address, memory) :=
      fun host memory buffers count address hstep =>
        hread ⟨host, memory, buffers, count, address, hstep⟩
    obtain ⟨hfetched, hmoved⟩ := moved_of_not_read s path hnot
    rw [hfetched, hmoved, Option.or_none, Nat.add_zero]
    cases hstep : step.performed? with
    | none =>
      refine h.of_get ?_
      rw [(step_of_not_performed hstep s).2]
    | some performed =>
      obtain ⟨host, call, memory⟩ := performed
      obtain ⟨succeeded, hmoves, _⟩ := Call.perform_moves host call memory hsound
      rw [(step_of_performed hstep s).1]
      refine hmoves.shows hsound h ?_ ?_
      · rintro buffers count address rfl
        exact hnot _ _ _ _ _ hstep
      · rintro rfl
        exact hclose _ _ hstep

/-! ## Runs

By induction on steps, from the open on, where the content is `none` and the offset is zero. -/

/-- A run that does not close the file `Shows` what was fetched first, and an offset that is the sum
of the counts stored. By induction on `steps`, with `shows_step` as the step. -/
theorem shows_run (hsound : s.table.Sound) (h : s.Shows fd path content o) (steps : List Step)
    (hclose : ∀ step ∈ steps, ∀ host memory, step.performed? ≠ some (host, .fdClose fd, memory))
    (hlength : ∀ step ∈ steps, ∀ bytes, step.fetched? fd path = some bytes →
      bytes.length < UInt64.size) :
    (s.run steps).Shows fd path (content.or (steps.findSome? (Step.fetched? fd path)))
      (o + s.movedIn fd steps) := by
  -- from step to step the session, what was fetched and the offset vary
  induction steps generalizing s content o with
  | nil =>
    rw [List.findSome?_nil, Option.or_none]
    exact h
  | cons step rest ih =>
    obtain ⟨hclose, hcloses⟩ := List.forall_mem_cons.mp hclose
    obtain ⟨hlength, hlengths⟩ := List.forall_mem_cons.mp hlength
    have hstep := shows_step hsound h hclose hlength
    have hrest := ih (sound_step hsound step) hstep hcloses hlengths
    -- what was fetched first is what the step has fetched, or else what the rest has
    have hfirst : (step :: rest).findSome? (Step.fetched? fd path) =
        (step.fetched? fd path).or (rest.findSome? (Step.fetched? fd path)) := by
      rw [List.findSome?_cons]
      cases step.fetched? fd path <;> rfl
    rw [run_cons, movedIn, hfirst, ← Option.or_assoc, ← Nat.add_assoc]
    exact hrest

/-- `pathOpen` has put an `openedDescriptor` of the path that it names under the number that it has
stored. -/
theorem get_of_pathOpen (hsound : s.table.Sound) {dir new : Fd}
    {dirFlags textAddress textLength : UInt32} {openFlags : OpenFlags}
    {rightsBase rightsInheriting : Rights} {fdFlags : UInt32}
    (hzero : ((Call.pathOpen dir dirFlags textAddress textLength openFlags rightsBase
      rightsInheriting fdFlags address).perform host s memory).answer = .ok 0)
    (hnew : ((Call.pathOpen dir dirFlags textAddress textLength openFlags rightsBase
      rightsInheriting fdFlags address).perform host s memory).memory.readU32 address = .ok new) :
    ∃ path stat, Call.namedPath? s memory dir textAddress textLength = some path ∧
      host.fileSystem.stat path = .ok stat ∧
      ((Call.pathOpen dir dirFlags textAddress textLength openFlags rightsBase rightsInheriting
        fdFlags address).perform host s memory).session.table.get new =
          .ok (Action.openedDescriptor path stat fdFlags.toUInt16 rightsBase rightsInheriting) := by
  obtain ⟨w, hrun⟩ := Call.run_of_answer_eq_zero rfl hzero
  obtain ⟨_, hsession, hmemory⟩ := Call.perform_of_ok hrun
  obtain ⟨path, stat, fd, table, hname, hstat, hinsert, hafter, hread⟩ :=
    Action.pathOpen_eq_ok hrun
  rw [hmemory, hread] at hnew
  cases hnew
  refine ⟨path, stat, hname, hstat, ?_⟩
  rw [hsession, hafter]
  exact (hsound.get_insert hinsert new).trans (if_pos rfl)

/-- The file that `pathOpen` has opened `Shows` nothing fetched and nothing read. -/
theorem shows_of_pathOpen (hsound : s.table.Sound) {dir new : Fd}
    {dirFlags textAddress textLength : UInt32} {openFlags : OpenFlags}
    {rightsBase rightsInheriting : Rights} {fdFlags : UInt32} {stat : FileStat}
    (hzero : ((Call.pathOpen dir dirFlags textAddress textLength openFlags rightsBase
      rightsInheriting fdFlags address).perform host s memory).answer = .ok 0)
    (hname : Call.namedPath? s memory dir textAddress textLength = some path)
    (hstat : host.fileSystem.stat path = .ok stat) (hfile : stat.isDirectory = false)
    (hnew : ((Call.pathOpen dir dirFlags textAddress textLength openFlags rightsBase
      rightsInheriting fdFlags address).perform host s memory).memory.readU32 address = .ok new) :
    ((Call.pathOpen dir dirFlags textAddress textLength openFlags rightsBase rightsInheriting
      fdFlags address).perform host s memory).session.Shows new path none 0 := by
  obtain ⟨path', stat', hname', hstat', hget⟩ := get_of_pathOpen hsound hzero hnew
  cases hname.symm.trans hname'
  cases hstat.symm.trans hstat'
  rw [Action.openedDescriptor, hfile] at hget
  exact ⟨0, _, hget, rfl, nofun⟩

/-- `fdSeek` stores the offset if there is room for it, and does nothing else. -/
theorem seek_of_shows (h : s.Shows fd path content o) {offset : Int64} {whence : UInt32} :
    ((Call.fdSeek fd offset whence address).perform host s memory).session = s ∧
      (((Call.fdSeek fd offset whence address).perform host s memory).answer = .ok 0 ↔
        memory.check address 8 = .ok ()) ∧
      (((Call.fdSeek fd offset whence address).perform host s memory).answer = .ok 0 →
        ∃ told : UInt64,
          ((Call.fdSeek fd offset whence address).perform host s memory).memory.readU64 address =
            .ok told ∧ told.toNat = o) := by
  obtain ⟨told, status, hfile, rfl, _⟩ := h
  have hseek : (Call.fdSeek fd offset whence address).run host s memory =
      Action.access (Access.writeU64 address told)
        { session := s, memory := memory, events := [] } :=
    Action.fdSeek_eq (w := { session := s, memory := memory, events := [] }) hfile address
  by_cases hcheck : memory.check address 8 = .ok ()
  · obtain ⟨memory', hwrite⟩ := (Access.writeU64_ok_iff told).mpr hcheck
    -- room for eight octets: the store succeeds
    have hrun := hseek.trans (Action.access_eq_ok_iff.mpr ⟨memory', hwrite, rfl⟩)
    obtain ⟨hanswer, hsession, hmemory⟩ := Call.perform_of_ok hrun
    rw [hsession, hmemory]
    exact ⟨rfl, ⟨fun _ => hcheck, fun _ => hanswer⟩,
      fun _ => ⟨told, Access.readU64_of_writeU64 hwrite, rfl⟩⟩
  · have hfails :
        ((Call.fdSeek fd offset whence address).perform host s memory).answer ≠ .ok 0 := by
      intro hzero
      obtain ⟨w, hrun⟩ := Call.run_of_answer_eq_zero rfl hzero
      -- a success would have stored the offset
      obtain ⟨memory', hwrite, _⟩ := Action.access_eq_ok_iff.mp (hseek.symm.trans hrun)
      exact hcheck ((Access.writeU64_ok_iff told).mp ⟨memory', hwrite⟩)
    refine ⟨?_, ⟨fun hzero => absurd hzero hfails, fun h => absurd h hcheck⟩,
      fun hzero => absurd hzero hfails⟩
    obtain ⟨e, w, hrun⟩ | ⟨clock, hclock⟩ := Call.run_of_answer_ne_zero hfails
    · obtain ⟨memory', _, rfl⟩ := Action.access_eq_error_iff.mp (hseek.symm.trans hrun)
      rw [(Call.perform_of_error hrun).1]
    · cases hclock

/-! ## Slices of one snapshot

The content of the snapshot is what the run fetches first, wherever in the run that is. Each read is
then looked at with the run up to it (`shows_of_prefix`). -/

/-- Along a run the successful reads of `fd` deliver successive slices of `c`, which was fetched
before any of them was served, and seeks tell how much was delivered. -/
structure ReadsSlices (s : Session) (fd : Fd) (path : String) (steps : List Step) (c : Bytes) :
    Prop where
  /-- The content is what the host had at the first read that fetched any. -/
  fetched : ∀ bytes, steps.findSome? (Step.fetched? fd path) = some bytes → bytes = c
  /-- A read that succeeds delivers what comes next and fits, and stores how much that is. -/
  slice : ∀ earlier step later host buffers count address memory reply,
    steps = earlier ++ step :: later →
      step.Reads (s.run earlier) fd host buffers count address memory reply →
        (earlier ++ [step]).findSome? (Step.fetched? fd path) = some c ∧
          ∃ (vectors : List IoVec) (moved : UInt32),
            memory.buffers? buffers count address = some vectors ∧
              moved.toNat = min (c.length - s.movedIn fd earlier) (IoVec.room vectors) ∧
              reply.memory.readU32 address = .ok moved ∧
              memory.Delivers vectors address ((c.drop (s.movedIn fd earlier)).take moved.toNat)
                reply.memory
  /-- A seek stores how much was delivered, wherever it is to go, and moves nothing. -/
  seek : ∀ earlier step later host offset whence address memory reply,
    steps = earlier ++ step :: later →
      step.performed? = some (host, .fdSeek fd offset whence address, memory) →
        step.reply? (s.run earlier) = some reply →
          reply.session = s.run earlier ∧
            (reply.answer = .ok 0 ↔ memory.check address 8 = .ok ()) ∧
            (reply.answer = .ok 0 → ∃ told : UInt64,
              reply.memory.readU64 address = .ok told ∧ told.toNat = s.movedIn fd earlier)
  /-- A read with room that delivers nothing comes after the whole content was delivered, and no
  later read delivers anything. -/
  exhausted : ∀ earlier step later host buffers count address memory reply vectors,
    steps = earlier ++ step :: later →
      step.Reads (s.run earlier) fd host buffers count address memory reply →
        memory.buffers? buffers count address = some vectors → 0 < IoVec.room vectors →
          reply.memory.readU32 address = .ok 0 →
            s.movedIn fd earlier = c.length ∧
              ∀ middle step' rest host' buffers' count' address' memory' reply',
                later = middle ++ step' :: rest →
                  step'.Reads (s.run (earlier ++ step :: middle)) fd host' buffers' count' address'
                    memory' reply' →
                    reply'.memory.readU32 address' = .ok 0

/-- `fdRead` of a file that succeeds delivers a slice of what was fetched first. -/
theorem slice_of_shows (hsound : s.table.Sound) (h : s.Shows fd path content o)
    (hreads : step.Reads s fd host buffers count address memory reply) :
    ∃ (c : Bytes) (vectors : List IoVec) (moved : UInt32),
      content.or (step.fetched? fd path) = some c ∧ o ≤ c.length ∧
        memory.buffers? buffers count address = some vectors ∧
        moved.toNat = min (c.length - o) (IoVec.room vectors) ∧
        reply.memory.readU32 address = .ok moved ∧
        memory.Delivers vectors address ((c.drop o).take moved.toNat) reply.memory := by
  obtain ⟨offset, status, hfile, rfl, _⟩ := h
  obtain ⟨hstep, hreply, hzero⟩ := hreads
  cases (step_of_performed hstep s).2.2.symm.trans hreply
  obtain ⟨c, vectors, moved, hbuffers, hc, hmoved, hstored, hdelivers, _⟩ :=
    slice_of_read hfile hzero
  have hsum := offset_add_le (hsound.opened_of_file hfile).2 hc hmoved
  refine ⟨c, vectors, moved, ?_, by omega, hbuffers, hmoved, hstored, hdelivers⟩
  rw [fetched?_of_read path content hstep, hbuffers, hc]
  rfl

/-- At every point of a run that does not close the file, it `Shows` what was fetched first and the
sum of the counts so far. -/
theorem shows_of_prefix (hsound : s.table.Sound) (h : s.Shows fd path none 0) {steps : List Step}
    (hclose : ∀ step ∈ steps, ∀ host memory, step.performed? ≠ some (host, .fdClose fd, memory))
    (hlength : ∀ step ∈ steps, ∀ bytes, step.fetched? fd path = some bytes →
      bytes.length < UInt64.size)
    {earlier later : List Step} (hsplit : steps = earlier ++ later) :
    (s.run earlier).Shows fd path (earlier.findSome? (Step.fetched? fd path))
      (s.movedIn fd earlier) := by
  subst hsplit
  have hrun := shows_run hsound h earlier
    (fun step hmem => hclose step (List.mem_append_left _ hmem))
    (fun step hmem => hlength step (List.mem_append_left _ hmem))
  rwa [Option.none_or, Nat.zero_add] at hrun

theorem findSome?_of_prefix {f : Step → Option Bytes} {earlier later : List Step} {bytes : Bytes}
    (h : earlier.findSome? f = some bytes) : (earlier ++ later).findSome? f = some bytes := by
  rw [List.findSome?_append, h]
  rfl

/-- Whatever content a run fetches first, each read of the file in it delivers the slice of that
content at `movedIn` of the steps before. -/
theorem slice_in_run (hsound : s.table.Sound) (h : s.Shows fd path none 0) {steps : List Step}
    (hclose : ∀ step ∈ steps, ∀ host memory, step.performed? ≠ some (host, .fdClose fd, memory))
    (hlength : ∀ step ∈ steps, ∀ bytes, step.fetched? fd path = some bytes →
      bytes.length < UInt64.size)
    {c : Bytes} (hc : ∀ bytes, steps.findSome? (Step.fetched? fd path) = some bytes → bytes = c)
    {earlier later : List Step} (hsplit : steps = earlier ++ step :: later)
    (hreads : step.Reads (s.run earlier) fd host buffers count address memory reply) :
    (earlier ++ [step]).findSome? (Step.fetched? fd path) = some c ∧
      s.movedIn fd earlier ≤ c.length ∧
      ∃ (vectors : List IoVec) (moved : UInt32),
        memory.buffers? buffers count address = some vectors ∧
          moved.toNat = min (c.length - s.movedIn fd earlier) (IoVec.room vectors) ∧
          reply.memory.readU32 address = .ok moved ∧
          memory.Delivers vectors address ((c.drop (s.movedIn fd earlier)).take moved.toNat)
            reply.memory := by
  have hshows := shows_of_prefix hsound h hclose hlength hsplit
  obtain ⟨c', vectors, moved, hfetched, hle, hrest⟩ :=
    slice_of_shows (sound_run hsound earlier) hshows hreads
  have hsofar : (earlier ++ [step]).findSome? (Step.fetched? fd path) = some c' := by
    rw [List.findSome?_append, List.findSome?_singleton]
    exact hfetched
  -- what was fetched so far is what the whole run fetches first
  have hall : steps.findSome? (Step.fetched? fd path) = some c' := by
    have hlater : steps = (earlier ++ [step]) ++ later := by simp [hsplit]
    rw [hlater]
    exact findSome?_of_prefix hsofar
  obtain rfl := hc c' hall
  exact ⟨hsofar, hle, vectors, moved, hrest⟩

/-- In a run that does not close the file, reads of it deliver successive slices of one content:
`ReadsSlices`. -/
theorem readsSlices_of_shows (hsound : s.table.Sound) (h : s.Shows fd path none 0)
    (steps : List Step)
    (hclose : ∀ step ∈ steps, ∀ host memory, step.performed? ≠ some (host, .fdClose fd, memory))
    (hlength : ∀ step ∈ steps, ∀ bytes, step.fetched? fd path = some bytes →
      bytes.length < UInt64.size) :
    ∃ c, s.ReadsSlices fd path steps c := by
  -- if no read ever comes to serve anything, any content does
  obtain ⟨c, hc⟩ : ∃ c, ∀ bytes,
      steps.findSome? (Step.fetched? fd path) = some bytes → bytes = c := by
    refine ⟨(steps.findSome? (Step.fetched? fd path)).getD [], fun bytes hbytes => ?_⟩
    rw [hbytes, Option.getD_some]
  refine ⟨c, hc, ?slice, ?seek, ?exhausted⟩
  case slice =>
    intro earlier step later host buffers count address memory reply hsplit hreads
    obtain ⟨hfetched, _, hrest⟩ := slice_in_run hsound h hclose hlength hc hsplit hreads
    exact ⟨hfetched, hrest⟩
  case seek =>
    intro earlier step later host offset whence address memory reply hsplit hstep hreply
    have hshows := shows_of_prefix hsound h hclose hlength hsplit
    cases (step_of_performed hstep (s.run earlier)).2.2.symm.trans hreply
    exact seek_of_shows hshows
  case exhausted =>
    intro earlier step later host buffers count address memory reply vectors hsplit hreads hbuffers
      hroom hzero
    obtain ⟨_, hle, vectors', moved, hbuffers', hmoved, hstored, _⟩ :=
      slice_in_run hsound h hclose hlength hc hsplit hreads
    cases hbuffers.symm.trans hbuffers'
    cases hzero.symm.trans hstored
    have hall : s.movedIn fd earlier = c.length := by
      have hnone : (0 : UInt32).toNat = 0 := rfl
      omega
    refine ⟨hall, ?_⟩
    intro middle step' rest host' buffers' count' address' memory' reply' hlater hreads'
    have hsplit' : steps = (earlier ++ step :: middle) ++ step' :: rest := by simp [hsplit, hlater]
    obtain ⟨_, _, vectors', moved', _, hmoved', hstored', _⟩ :=
      slice_in_run hsound h hclose hlength hc hsplit' hreads'
    -- the sum of the counts only grows, so there is nothing left
    have hgrown := movedIn_append s fd earlier (step :: middle)
    have hnone : moved' = 0 := by
      apply UInt32.toNat_inj.mp
      rw [hmoved', hgrown, hall]
      show min (c.length - (c.length + _)) _ = 0
      omega
    rw [hstored', hnone]

/-- In every run from the `pathOpen` of a file on that does not close it, reads of it deliver
successive slices of one content. What the host has at a path is never longer than the word that
counts offsets can say. -/
theorem readsSlices_of_pathOpen (hs : s.Reachable) {dir new : Fd}
    {dirFlags textAddress textLength : UInt32} {openFlags : OpenFlags}
    {rightsBase rightsInheriting : Rights} {fdFlags : UInt32} {stat : FileStat}
    (hzero : ((Call.pathOpen dir dirFlags textAddress textLength openFlags rightsBase
      rightsInheriting fdFlags address).perform host s memory).answer = .ok 0)
    (hname : Call.namedPath? s memory dir textAddress textLength = some path)
    (hstat : host.fileSystem.stat path = .ok stat) (hfile : stat.isDirectory = false)
    (hnew : ((Call.pathOpen dir dirFlags textAddress textLength openFlags rightsBase
      rightsInheriting fdFlags address).perform host s memory).memory.readU32 address = .ok new)
    (steps : List Step)
    (hclose : ∀ step ∈ steps, ∀ host memory, step.performed? ≠ some (host, .fdClose new, memory))
    (hlength : ∀ step ∈ steps, ∀ bytes, step.fetched? new path = some bytes →
      bytes.length < UInt64.size) :
    ∃ c, ((Call.pathOpen dir dirFlags textAddress textLength openFlags rightsBase rightsInheriting
      fdFlags address).perform host s memory).session.ReadsSlices new path steps c := by
  have hopened := shows_of_pathOpen hs.sound hzero hname hstat hfile hnew
  have hsound := (hs.perform host (.pathOpen dir dirFlags textAddress textLength openFlags
    rightsBase rightsInheriting fdFlags address) memory).sound
  exact readsSlices_of_shows hsound hopened steps hclose hlength

/-- A file that is replaced on the host after two of its three octets were read: what `fdRead` has
left to read is the third. -/
theorem readsSlices_of_replaced_file :
    let host := Host.ofTree (FlatTree.empty.insertFile "/f" [10, 20, 30])
    let later := Host.ofTree (FlatTree.empty.insertFile "/f" [77])
    let list := Memory.holding 64 [16, 0, 0, 0, 2]
    ((Call.pathOpen Fd.root 0 0 1 0 0 0 0 32).perform host initial
      (Memory.holding 64 (utf8 "f"))).session.ReadsSlices Fd.firstFree "/f"
        [.perform host (.fdRead Fd.firstFree 0 1 32) list,
          .perform later (.fdSeek Fd.firstFree 7 0 32) list,
          .perform later (.fdRead Fd.firstFree 0 1 32) list] [10, 20, 30] := by
  intro host later list
  let call : Call := .pathOpen Fd.root 0 0 1 0 0 0 0 32
  let text := Memory.holding 64 (utf8 "f")
  let first : Step := .perform host (.fdRead Fd.firstFree 0 1 32) list
  let seek : Step := .perform later (.fdSeek Fd.firstFree 7 0 32) list
  let second : Step := .perform later (.fdRead Fd.firstFree 0 1 32) list
  have hzero : (call.perform host initial text).answer = .ok 0 := by decide
  have hname : Call.namedPath? initial text Fd.root 0 1 = some "/f" := by decide
  have hstat : host.fileSystem.stat "/f" =
      .ok (FlatTree.attributes { inode := 3, node := .file [10, 20, 30] }) := rfl
  have hnew : (call.perform host initial text).memory.readU32 32 = .ok Fd.firstFree := by decide
  have hclose : ∀ step ∈ [first, seek, second], ∀ host memory,
      step.performed? ≠ some (host, .fdClose Fd.firstFree, memory) := by
    simp [first, seek, second, Step.performed?]
  have hlength : ∀ step ∈ [first, seek, second], ∀ bytes,
      step.fetched? Fd.firstFree "/f" = some bytes → bytes.length < UInt64.size := by
    -- the second read would fetch another content, if it fetched any
    have hfirst : first.fetched? Fd.firstFree "/f" = some [10, 20, 30] := by decide
    have hseek : seek.fetched? Fd.firstFree "/f" = none := by decide
    have hsecond : second.fetched? Fd.firstFree "/f" = some [77] := by decide
    simp [hfirst, hseek, hsecond, UInt64.size]
  obtain ⟨c, hslices⟩ := readsSlices_of_pathOpen reachable_initial hzero hname hstat (by decide)
    hnew [first, seek, second] hclose hlength
  -- the content of the theorem is the one fetched first
  cases hslices.fetched [10, 20, 30] (by decide)
  exact hslices

end Session

end WasiHost
