import WasiHost.Proofs.Session.Invariant

/-!
# What a call can tell about the host

A call comes to know the host only by what it asks it for: the attributes and the kind of what is at
a path, the content of a file, the time, and random octets. All paths asked for are canonical, those
just resolved as well as those kept with descriptors, and the time is asked for only if clocks are
served. Two hosts that agree on all that are the same to a call.

* **`Session.SeesAlike`** — two hosts agree on what a session can ask for.
* **`Call.body_congr`** — a body runs alike on both.
* **`Call.perform_congr`**, **`Call.dispatch_congr`** — and so the replies are equal.
* **`Session.Reachable.asks_plain_paths`** — what a filesystem answers about any other path than a
  plain one does not matter to a call. -/

namespace WasiHost

/-- Two hosts agree on what a session can ask for: canonical paths, as far as the session looks at
what is there, the time if clocks are served, and random octets. -/
structure Session.SeesAlike (s : Session) (host host' : Host) : Prop where
  shown : ∀ path, Path.Canonical path →
    s.fileStat host.fileSystem path = s.fileStat host'.fileSystem path
  /-- An open does not show the attributes, it only tells directories from other things. -/
  kind : ∀ path, Path.Canonical path →
    (host.fileSystem.stat path).map FileStat.isDirectory =
      (host'.fileSystem.stat path).map FileStat.isDirectory
  content : ∀ path, Path.Canonical path → host.fileSystem.read path = host'.fileSystem.read path
  clock : s.options.enableClock = true → host.clock = host'.clock
  random : host.random = host'.random

namespace Action

variable {host host' : Host} {w : Workspace} {fd : Fd} {path : String}

/-! ## Asking

The steps that ask the host. They agree on two hosts as far as these do, and all others are given no
host. -/

/-- `checkClock` passes only if `enableClock` is set. -/
theorem enableClock_of_checkClock {clock : UInt32} {w' : Workspace}
    (h : checkClock clock w = .ok () w') : w.session.options.enableClock = true := by
  obtain ⟨outcome, w₁, hlook, hlift⟩ := bind_eq_ok_iff.mp h
  obtain ⟨rfl, rfl⟩ := look_eq_ok_iff.mp hlook
  obtain ⟨hserved, _⟩ := lift_eq_ok_iff.mp hlift
  unfold Session.checkClock at hserved
  split at hserved
  · next henabled => exact henabled
  · cases hserved

theorem fileStat_congr (h : w.session.SeesAlike host host') (hpath : Path.Canonical path) :
    fileStat host path w = fileStat host' path w := by
  change lift (w.session.fileStat host.fileSystem path) w =
    lift (w.session.fileStat host'.fileSystem path) w
  rw [h.shown path hpath]

/-- `load` of a content that is there does not ask again; otherwise it asks at a canonical path. -/
theorem load_congr (h : w.session.SeesAlike host host') (hpath : Path.Canonical path)
    (offset : UInt64) (content : Option Bytes) (status : FdStat) :
    load host fd path offset content status w = load host' fd path offset content status w := by
  cases content with
  | some bytes => rfl
  | none =>
    refine bind_congr_of_ok ?_ fun _ _ _ => rfl
    rw [h.content path hpath]

/-! ## Bodies that ask

Each body is followed up to the question it asks (`bind_congr_of_ok`). What comes before has kept
the workspace or changed nothing that matters to the question. -/

/-- The time is asked for once `checkClock` has let the call pass, and then the hosts agree on
it. -/
theorem clockTimeGet_congr (h : w.session.SeesAlike host host') (clock : UInt32)
    (precision : UInt64) (address : UInt32) :
    clockTimeGet host clock precision address w = clockTimeGet host' clock precision address w := by
  refine bind_congr_of_ok rfl fun _ w' hcheck => ?_
  rw [h.clock (enableClock_of_checkClock hcheck)]

/-- `fdFdstatGet` asks for attributes at the path that was kept with the descriptor, which is
canonical in a `Sound` table. -/
theorem fdFdstatGet_congr (hsound : w.session.table.Sound) (h : w.session.SeesAlike host host')
    (fd : Fd) (address : UInt32) :
    fdFdstatGet host fd address w = fdFdstatGet host' fd address w := by
  refine bind_congr_of_ok rfl fun d w' hdescriptor => ?_
  obtain ⟨hget, rfl⟩ := descriptor_eq_ok_iff.mp hdescriptor
  -- the path was canonical when it was kept, and that may have been long ago
  cases d with
  | file path offset content status =>
    have hpath := Session.canonical_of_get hsound hget rfl
    exact bind_congr_of_ok (fileStat_congr h hpath) fun _ _ _ => rfl
  | directory path status =>
    have hpath := Session.canonical_of_get hsound hget rfl
    exact bind_congr_of_ok (fileStat_congr h hpath) fun _ _ _ => rfl
  | _ => rfl

/-- `readInto` asks for the content there, too. -/
theorem readInto_congr (hsound : w.session.table.Sound) (h : w.session.SeesAlike host host')
    (fd : Fd) (vectors : List IoVec) :
    readInto host fd vectors w = readInto host' fd vectors w := by
  refine bind_congr_of_ok rfl fun d w' hdescriptor => ?_
  obtain ⟨hget, rfl⟩ := descriptor_eq_ok_iff.mp hdescriptor
  cases d with
  | file path offset content status =>
    have hpath := Session.canonical_of_get hsound hget rfl
    exact bind_congr_of_ok (load_congr h hpath offset content status) fun _ _ _ => rfl
  | _ => rfl

/-- A read asks the host in `readInto` only. -/
theorem fdRead_congr (hsound : w.session.table.Sound) (h : w.session.SeesAlike host host')
    (fd : Fd) (buffers count address : UInt32) :
    fdRead host fd buffers count address w = fdRead host' fd buffers count address w := by
  refine bind_congr_of_ok rfl fun vectors w₁ hlist => ?_
  refine bind_congr_of_ok rfl fun _ w₂ hcheck => ?_
  obtain rfl : w₁ = w := (keeps_access (Access.keeps_readIoVecs buffers count)).ok hlist
  obtain rfl : w₂ = w₁ := (keeps_access (Access.keeps_check address 4)).ok hcheck
  exact bind_congr_of_ok (readInto_congr hsound h fd vectors) fun _ _ _ => rfl

/-- `pathFilestatGet` asks at the path that was just resolved. -/
theorem pathFilestatGet_congr (h : w.session.SeesAlike host host') (fd : Fd)
    (text length address : UInt32) :
    pathFilestatGet host fd text length address w =
      pathFilestatGet host' fd text length address w := by
  refine bind_congr_of_ok rfl fun path w' hresolve => ?_
  obtain ⟨hnamed, rfl⟩ := resolve_eq_ok_iff.mp hresolve
  exact bind_congr_of_ok (fileStat_congr h (Call.canonical_namedPath hnamed)) fun _ _ _ => rfl

/-- `openedDescriptor` does not depend on the attributes but for the kind. -/
theorem openedDescriptor_congr {stat stat' : FileStat} (h : stat.isDirectory = stat'.isDirectory)
    (path : String) (flags : UInt16) (rightsBase rightsInheriting : Rights) :
    openedDescriptor path stat flags rightsBase rightsInheriting =
      openedDescriptor path stat' flags rightsBase rightsInheriting := by
  unfold openedDescriptor
  rw [h]

/-- `pathOpen` asks what is at the path it has resolved. -/
theorem pathOpen_congr (h : w.session.SeesAlike host host') (fd : Fd) (text length : UInt32)
    (openFlags : OpenFlags) (rightsBase rightsInheriting : Rights) (fdFlags address : UInt32) :
    pathOpen host fd text length openFlags rightsBase rightsInheriting fdFlags address w =
      pathOpen host' fd text length openFlags rightsBase rightsInheriting fdFlags address w := by
  refine bind_congr_of_ok rfl fun _ w₁ hflags => ?_
  refine bind_congr_of_ok rfl fun flags w₂ hfdFlags => ?_
  refine bind_congr_of_ok rfl fun path w₃ hresolve => ?_
  obtain ⟨_, _, rfl⟩ := halfWord_eq_ok_iff.mp hflags
  obtain ⟨_, _, rfl⟩ := halfWord_eq_ok_iff.mp hfdFlags
  obtain ⟨hnamed, rfl⟩ := resolve_eq_ok_iff.mp hresolve
  -- the attributes may differ, but what is done with them does not
  rcases cases_of_map_eq_map (h.kind path (Call.canonical_namedPath hnamed)) with
    ⟨errno, hstat, hstat'⟩ | ⟨stat, stat', hstat, hstat', hsame⟩
  · rw [hstat, hstat']
  · rw [hstat, hstat', bind_of_ok (lift_eq_ok_iff.mpr ⟨rfl, rfl⟩),
      bind_of_ok (lift_eq_ok_iff.mpr ⟨rfl, rfl⟩), hsame, openedDescriptor_congr hsame]

end Action

namespace Call

variable {host host' : Host} {w : Workspace} {s : Session}

/-- `body` runs alike on two hosts that the session `SeesAlike`. -/
theorem body_congr (hsound : w.session.table.Sound) (h : w.session.SeesAlike host host')
    (call : Call) : call.body host w = call.body host' w := by
  cases call with
  | clockTimeGet clock precision address =>
    exact Action.clockTimeGet_congr h clock precision address
  | fdFdstatGet fd address => exact Action.fdFdstatGet_congr hsound h fd address
  | fdRead fd buffers count address => exact Action.fdRead_congr hsound h fd buffers count address
  | pathFilestatGet fd flags path pathLength address =>
    exact Action.pathFilestatGet_congr h fd path pathLength address
  | pathOpen fd dirFlags path pathLength openFlags rightsBase rightsInheriting fdFlags address =>
    exact Action.pathOpen_congr h fd path pathLength openFlags rightsBase rightsInheriting fdFlags
      address
  | randomGet address length =>
    change Action.access (Access.overwrite address length host.random) w =
      Action.access (Access.overwrite address length host'.random) w
    rw [h.random]
  | _ =>
    -- all other bodies are given no host
    rfl

/-- `perform` makes its reply of what the body has left, so it is alike, too. -/
theorem perform_congr (hsound : s.table.Sound) (h : s.SeesAlike host host') (call : Call)
    (memory : Memory) : call.perform host s memory = call.perform host' s memory := by
  unfold perform
  rw [body_congr hsound h]

/-- `dispatch` is `perform` of a call, or refuses without asking. -/
theorem dispatch_congr (hsound : s.table.Sound) (h : s.SeesAlike host host') (name : String)
    (words : List UInt64) (memory : Memory) :
    dispatch host name words s memory = dispatch host' name words s memory := by
  rcases dispatch_cases name words with ⟨call, hcall⟩ | ⟨error, hrefused⟩
  · rw [hcall, hcall]
    exact perform_congr hsound h call memory
  · -- a refused call does not get to the host
    rw [hrefused, hrefused]

end Call

/-! ## Plain paths

A canonical path is one that is spelled plainly, so it does not matter what a filesystem says about
any other spelling. -/

/-- Two filesystems give the same answers about plain paths. -/
structure FileSystem.AgreesOnPlain (fs fs' : FileSystem) : Prop where
  stat : ∀ path, Path.Plain path → fs.stat path = fs'.stat path
  read : ∀ path, Path.Plain path → fs.read path = fs'.read path

namespace Session

variable {s : Session} {host : Host} {fs : FileSystem}

/-- `Path.canonical_iff_plain` turns agreement on plain paths into agreement on all that a session
can ask for. -/
theorem seesAlike_of_agreesOnPlain (s : Session) (h : host.fileSystem.AgreesOnPlain fs) :
    s.SeesAlike host { host with fileSystem := fs } where
  shown path hpath := by
    unfold Session.fileStat
    rw [h.stat path (Path.canonical_iff_plain.mp hpath)]
  kind path hpath := by rw [h.stat path (Path.canonical_iff_plain.mp hpath)]
  content path hpath := h.read path (Path.canonical_iff_plain.mp hpath)
  clock _ := rfl
  random := rfl

/-- On filesystems that `AgreesOnPlain` every call of a `Reachable` session comes to the same reply,
whatever they answer about other paths. -/
theorem Reachable.asks_plain_paths (hs : s.Reachable) (h : host.fileSystem.AgreesOnPlain fs)
    (memory : Memory) :
    (∀ call : Call,
        call.perform host s memory = call.perform { host with fileSystem := fs } s memory) ∧
      ∀ name words,
        Call.dispatch host name words s memory =
          Call.dispatch { host with fileSystem := fs } name words s memory := by
  have halike := s.seesAlike_of_agreesOnPlain h
  constructor
  · intro call
    exact Call.perform_congr hs.sound halike call memory
  · intro name words
    exact Call.dispatch_congr hs.sound halike name words memory

/-- A path that goes up and down opens alike on a tree and on a filesystem that reports a fault for
every path that is not `Plain`. -/
theorem asks_plain_paths_of_detour :
    let host := Host.ofTree (FlatTree.empty.insertFile "/d/f" [10, 20, 30])
    let plain (path : String) : Bool := Path.normalize Path.root path = path
    let fs : FileSystem :=
      { stat := fun path => if plain path then host.fileSystem.stat path else .error .fault
        read := fun path => if plain path then host.fileSystem.read path else .error .fault }
    let call : Call := .pathOpen Fd.root 0 0 11 0 0 0 0 32
    let memory := Memory.holding 64 (utf8 "./d//../d/f")
    host.fileSystem.AgreesOnPlain fs ∧ fs.stat "./d//../d/f" = .error .fault ∧
      (call.perform host initial memory).answer = .ok 0 ∧
      call.perform host initial memory =
        call.perform { host with fileSystem := fs } initial memory := by
  intro host plain fs call memory
  have hplain : ∀ path, Path.Plain path → plain path = true := by
    intro path hpath
    exact decide_eq_true (Path.canonical_iff_plain.mpr hpath Path.root)
  have hagrees : host.fileSystem.AgreesOnPlain fs := by
    refine ⟨fun path hpath => ?_, fun path hpath => ?_⟩
    · exact (if_pos (hplain path hpath)).symm
    · exact (if_pos (hplain path hpath)).symm
  -- the path that is asked for in the end is `/d/f`
  refine ⟨hagrees, by decide, by decide, ?_⟩
  exact (reachable_initial.asks_plain_paths hagrees memory).1 call

end Session

end WasiHost
