import WasiHost.Proofs.Session.Run

/-!
# What holds of a session at every moment

Whatever the guest asks for, on whatever filesystem and memory, the reserved descriptors are what
they were in the beginning, any other one is an opened file or directory under its canonical path,
and no file is read beyond its content.

* **`Session.WellFormed`** — what holds of a session, and of the next read and the next question for
  a preopened directory.
* **`Session.Reachable.wellFormed`** — it holds of every session that a run leads to.
-/

namespace WasiHost

namespace Session

/-- What holds of a session at every moment. -/
structure WellFormed (s : Session) : Prop where
  stdin : s.table.get Fd.stdin = .ok .stdin
  stdout : s.table.get Fd.stdout = .ok .stdout
  stderr : s.table.get Fd.stderr = .ok .stderr
  root : s.table.get Fd.root = .ok (.preopened Path.root)
  /-- Any other descriptor is a file or a directory under a canonical path, nothing is read of a
  file before it is loaded, and then its offset stays inside. -/
  opened : ∀ fd d, Fd.firstFree ≤ fd → s.table.get fd = .ok d → d.Opened
  absolute : ∀ fd d path, s.table.get fd = .ok d → d.path? = some path →
    Path.isAbsolute path = true ∧ ∀ base, Path.normalize base path = path
  /-- The number of descriptors is four and the number of the others. -/
  size : ∃ others : Finset Fd,
    (∀ fd, fd ∈ others ↔ Fd.firstFree ≤ fd ∧ ∃ d, s.table.get fd = .ok d) ∧
      s.table.size = 4 + others.card
  /-- The sum of the offset and of what a read moves is in exact integers inside the content. -/
  advance : ∀ host fd buffers count address memory path offset content status,
    s.table.get fd = .ok (.file path offset content status) →
      ((Call.fdRead fd buffers count address).perform host s memory).answer = .ok 0 →
        ∃ (bytes : Bytes) (moved : UInt32), offset.toNat + moved.toNat ≤ bytes.length ∧
          ((Call.fdRead fd buffers count address).perform host s memory).session.table.get fd =
            .ok (.file path (offset + moved.toUInt64) (some bytes) status)
  /-- Nothing but the root directory has a description or a name to be asked for. -/
  prestat : ∀ host fd address memory, fd ≠ Fd.root →
    ∃ status, ((Call.fdPrestatGet fd address).perform host s memory).answer = .ok status ∧
      status ≠ 0
  prestatName : ∀ host fd address size memory, fd ≠ Fd.root →
    ∃ status, ((Call.fdPrestatDirName fd address size).perform host s memory).answer = .ok status ∧
      status ≠ 0

variable {s : Session}

/-- In a `Sound` table the paths behind descriptors are absolute, and canonical from any
directory. -/
theorem canonical_of_get (hsound : s.table.Sound) {fd : Fd} {d : Descriptor} {path : String}
    (hget : s.table.get fd = .ok d) (hpath : d.path? = some path) : Path.Canonical path := by
  rcases hsound.cases_of_get hget with ⟨_, hopened⟩ | ⟨_, rfl⟩ | ⟨_, rfl⟩ | ⟨_, rfl⟩ | ⟨_, rfl⟩
  · cases hopened with
    | file path' _ _ _ hcanonical _ _ =>
      cases hpath
      exact hcanonical
    | directory path' _ hcanonical =>
      cases hpath
      exact hcanonical
  · cases hpath
  · cases hpath
  · cases hpath
  · cases hpath
    exact Path.canonical_root

/-- `fdRead` of a file that succeeds leaves the offset inside the content. -/
theorem advance_of_read (hsound : s.table.Sound) {host : Host} {fd : Fd}
    {buffers count address : UInt32} {memory : Memory} {path : String} {offset : UInt64}
    {content : Option Bytes} {status : FdStat}
    (hget : s.table.get fd = .ok (.file path offset content status))
    (hzero : ((Call.fdRead fd buffers count address).perform host s memory).answer = .ok 0) :
    ∃ (bytes : Bytes) (moved : UInt32), offset.toNat + moved.toNat ≤ bytes.length ∧
      ((Call.fdRead fd buffers count address).perform host s memory).session.table.get fd =
        .ok (.file path (offset + moved.toUInt64) (some bytes) status) := by
  obtain ⟨w, hrun⟩ := Call.run_of_answer_eq_zero rfl hzero
  obtain ⟨_, vectors, data, _, hserves, _⟩ := Action.fdRead_eq_ok hrun
  rw [(Call.perform_of_ok hrun).2.1]
  have hopened := (hsound.opened_of_file hget).2
  -- what was served lies inside the content, and the offset moves by its length
  obtain ⟨bytes, moved, hbytes, hmoved, _, hafter⟩ := hserves.of_file hget
  refine ⟨bytes, moved, offset_add_le hopened hbytes hmoved, ?_⟩
  rw [hafter]
  exact DescriptorTable.get_set_self hget

/-- `preopenedName` finds a name for `Fd.root` only. -/
theorem preopenedName_of_ne_root (hsound : s.table.Sound) {fd : Fd} (hfd : fd ≠ Fd.root)
    (memory : Memory) :
    ∃ errno, Action.preopenedName fd { session := s, memory := memory, events := [] } =
      .error (.guest errno) { session := s, memory := memory, events := [] } :=
  Action.preopenedName_eq_error fun _ hget => hfd (hsound.eq_root hget)

/-- Every `Reachable` session is `WellFormed`. -/
theorem Reachable.wellFormed (h : s.Reachable) : s.WellFormed := by
  have hsound := h.sound
  refine ⟨hsound.stdin, hsound.stdout, hsound.stderr, hsound.root, hsound.opened, ?absolute,
    hsound.size_eq, ?advance, ?prestat, ?prestatName⟩
  case absolute =>
    intro fd d path hget hpath
    -- a canonical path is its own normal form, from wherever it is resolved
    have hcanonical := canonical_of_get hsound hget hpath
    exact ⟨hcanonical.isAbsolute, hcanonical⟩
  case advance =>
    intro host fd buffers count address memory path offset content status hget hzero
    exact advance_of_read hsound hget hzero
  case prestat =>
    intro host fd address memory hfd
    obtain ⟨errno, hname⟩ := preopenedName_of_ne_root hsound hfd memory
    have hrun : (Call.fdPrestatGet fd address).run host s memory = _ := bind_of_error hname
    -- whatever was wrong, the guest is told that the descriptor is bad
    refine ⟨_, Call.answer_of_error hrun, ?_⟩
    show ErrNo.badF.code.toUInt64 ≠ 0
    decide
  case prestatName =>
    intro host fd address size memory hfd
    obtain ⟨errno, hname⟩ := preopenedName_of_ne_root hsound hfd memory
    have hrun : (Call.fdPrestatDirName fd address size).run host s memory = _ := bind_of_error hname
    refine ⟨_, Call.answer_of_error hrun, ?_⟩
    show ErrNo.badF.code.toUInt64 ≠ 0
    decide

/-- A session in which `pathOpen` has opened a file and `fdRead` has read a part of it. -/
theorem wellFormed_of_partly_read :
    let host := Host.ofTree (FlatTree.empty.insertFile "/f" [10, 20, 30])
    (initial.run
      [.perform host (.pathOpen Fd.root 0 0 1 0 0 0 0 32) (Memory.holding 64 (utf8 "f")),
        .perform host (.fdRead Fd.firstFree 0 1 32)
          (Memory.holding 64 [16, 0, 0, 0, 2])]).WellFormed :=
  Reachable.wellFormed ⟨_, rfl⟩

end Session

end WasiHost
