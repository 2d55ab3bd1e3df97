import WasiHost.Proofs.Call.Answer
import WasiHost.Proofs.Call.Paths
import WasiHost.Proofs.Memory.Reach
import WasiHost.Proofs.Session.Run

/-!
# When a path is opened

An open has many ways to fail, and asks for a handful of things that are independent of each other.
Here they are put together: an open succeeds exactly if it gets all of them, and then one descriptor
is new, one cell of guest memory holds its number, and nothing else is different.

* **`Session.Admits`** — all that an open asks for.
* **`Session.Opens`** — all that it then does.
* **`Session.Reachable.pathOpen_iff_admits`** — the one leads to the other, and nothing less does.
-/

namespace WasiHost

namespace Session

/-- All that an open asks for: the text of a path below a directory that is open, attributes for
where it leads, and a cell for the number. -/
structure Admits (s : Session) (fs : FileSystem) (linear : LinearMemory) (fd : Fd)
    (path pathLength : UInt32) (openFlags : OpenFlags) (fdFlags address : UInt32)
    (base text : String) (stat : FileStat) : Prop where
  openWord : openFlags.toNat < UInt16.size
  fdWord : fdFlags.toNat < UInt16.size
  inRange : InRange path pathLength linear.bytes.size
  spelled : linear.bytes.slice path.toNat pathLength.toNat = utf8 text
  directory : ∃ d, s.table.get fd = .ok d ∧ d.base? = some base
  attributes : fs.stat (Path.normalize base text) = .ok stat
  kind : OpenFlags.asksDirectory openFlags = true → stat.isDirectory = true
  cell : InRange address 4 linear.bytes.size

/-- All that an open does if it succeeds: a descriptor is open under a number that was free, and the
cell holds the number, the lowest octet first. -/
structure Opens (s : Session) (linear : LinearMemory) (address : UInt32) (d : Descriptor) (new : Fd)
    (reply : Reply) : Prop where
  answer : reply.answer = .ok 0
  cell : reply.memory.slice address 4 = .ok (LittleEndian.encode 4 new.toNat)
  elsewhere : Memory.SameOutside (Spans address 4) (.attached linear) reply.memory
  free : Fd.firstFree ≤ new
  fresh : s.table.get new = .error .badF
  opened : reply.session.table.get new = .ok d
  others : ∀ fd, fd ≠ new → reply.session.table.get fd = s.table.get fd
  stdin : reply.session.stdin = s.stdin
  exitCode : reply.session.exitCode = s.exitCode
  options : reply.session.options = s.options
  stdout : Event.stdoutTexts reply.events = []
  stderr : Event.stderrTexts reply.events = []

variable {s : Session} {host : Host} {linear : LinearMemory} {fd : Fd}
  {dirFlags path pathLength address : UInt32} {openFlags : OpenFlags}
  {rightsBase rightsInheriting : Rights} {fdFlags : UInt32} {base text : String} {stat : FileStat}

/-- An open that succeeds was admitted: `Action.pathOpen_eq_ok_iff` has all the conditions. -/
theorem admits_of_run {w : Workspace}
    (h : (Call.pathOpen fd dirFlags path pathLength openFlags rightsBase rightsInheriting fdFlags
      address).run host s (.attached linear) = .ok () w) :
    ∃ base text stat, s.Admits host.fileSystem linear fd path pathLength openFlags fdFlags address
      base text stat := by
  obtain ⟨hopenFlags, hfdFlags, name, stat, new, table, memory, hnamed, hstat, hkind, _, hstore,
      _⟩ := Action.pathOpen_eq_ok_iff.mp h
  obtain ⟨text, htext, hname⟩ := Call.namedPath?_eq_some_iff.mp hnamed
  obtain ⟨_, ⟨⟩, hrange, hslice⟩ := Memory.slice_eq_ok_iff.mp htext
  obtain ⟨d, base, hget, hbase, rfl⟩ := resolve_eq_ok_iff.mp hname
  obtain ⟨hcell, _⟩ := Access.writeU32_eq_ok_iff.mp hstore
  exact ⟨base, text, stat, hopenFlags, hfdFlags, hrange, hslice.symm, ⟨d, hget, hbase⟩, hstat,
    hkind, hcell⟩

/-- As long as there are fewer slots than words, `insert` succeeds. -/
theorem exists_insert (hsound : s.table.Sound) (hslots : s.table.arena.slots.size < UInt32.size)
    (d : Descriptor) : ∃ new table, s.table.insert d = .ok (new, table) := by
  obtain ⟨order, horder⟩ := hsound.offers
  -- the number to come is at most the number of slots
  have hnext := horder.next_le_size
  exact ⟨_, _, DescriptorTable.insert_eq_ok_iff.mpr ⟨by omega, rfl, rfl⟩⟩

theorem Admits.opens (hsound : s.table.Sound) (hslots : s.table.arena.slots.size < UInt32.size)
    (h : s.Admits host.fileSystem linear fd path pathLength openFlags fdFlags address base
      text stat)
    (dirFlags : UInt32) (rightsBase rightsInheriting : Rights) :
    ∃ new, s.Opens linear address
      (Action.openedDescriptor (Path.normalize base text) stat fdFlags.toUInt16 rightsBase
        rightsInheriting) new
      ((Call.pathOpen fd dirFlags path pathLength openFlags rightsBase rightsInheriting fdFlags
        address).perform host s (.attached linear)) := by
  obtain ⟨new, table, hinsert⟩ := exists_insert hsound hslots
    (Action.openedDescriptor (Path.normalize base text) stat fdFlags.toUInt16 rightsBase
      rightsInheriting)
  -- the path: what is admitted is what the call names
  have htext : (Memory.attached linear).Spells path pathLength text :=
    Memory.slice_eq_ok_iff.mpr ⟨linear, rfl, h.inRange, h.spelled.symm⟩
  have hnamed : Call.namedPath? s (.attached linear) fd path pathLength =
      some (Path.normalize base text) := by
    obtain ⟨d, hget, hbase⟩ := h.directory
    exact Call.namedPath?_eq_some_iff.mpr
      ⟨text, htext, resolve_eq_ok_iff.mpr ⟨d, base, hget, hbase, rfl⟩⟩
  -- the body passes every check, so it can be run in one step
  have hstore : Access.writeU32 address new (.attached linear) = .ok () _ :=
    Access.writeU32_eq_ok_iff.mpr ⟨h.cell, rfl⟩
  have hwrite := Access.write_eq_ok_iff.mp hstore
  have hrun : (Call.pathOpen fd dirFlags path pathLength openFlags rightsBase rightsInheriting
      fdFlags address).run host s (.attached linear) = .ok () _ :=
    Action.pathOpen_eq_ok_iff.mpr ⟨h.openWord, h.fdWord, _, stat, new, table, _, hnamed,
      h.attributes, h.kind, hinsert, hstore, rfl⟩
  obtain ⟨hanswer, hsession, hmemory⟩ := Call.perform_of_ok hrun
  obtain ⟨hstdout, hstderr⟩ := Call.texts_perform host (.pathOpen fd dirFlags path pathLength
    openFlags rightsBase rightsInheriting fdFlags address) s (.attached linear)
  rw [hrun] at hstdout hstderr
  -- what the arena hands out was not in use
  have hfresh : s.table.get new = .error .badF := by
    rw [DescriptorTable.get, hsound.get_of_insert hinsert]
  refine ⟨new, hanswer, ?cell, ?elsewhere, hsound.firstFree_le_of_insert hinsert, hfresh, ?opened,
    ?others, ?_, ?_, ?_, hstdout, hstderr⟩
  case cell =>
    rw [hmemory]
    exact Memory.slice_of_write (LittleEndian.length_encode 4 new.toNat) hwrite
  case elsewhere =>
    have hsame := Memory.sameOutside_write hwrite
    rw [LittleEndian.length_encode] at hsame
    rwa [hmemory]
  case opened =>
    rw [hsession]
    exact (hsound.get_insert hinsert new).trans (if_pos rfl)
  case others =>
    intro other hother
    rw [hsession]
    exact (hsound.get_insert hinsert other).trans (if_neg hother)
  all_goals rw [hsession]

/-- `pathOpen` succeeds exactly if the session `Admits` it, and is answered 8 if not. If it
succeeds, what was found is open under a number that was free, which the guest is told, and
everything else is as it was. -/
theorem Reachable.pathOpen_iff_admits (hs : s.Reachable)
    (hslots : s.table.arena.slots.size < UInt32.size) (host : Host) (linear : LinearMemory)
    (fd : Fd) (dirFlags path pathLength : UInt32) (openFlags : OpenFlags)
    (rightsBase rightsInheriting : Rights) (fdFlags address : UInt32) :
    let reply := (Call.pathOpen fd dirFlags path pathLength openFlags rightsBase rightsInheriting
      fdFlags address).perform host s (.attached linear)
    let admits := s.Admits host.fileSystem linear fd path pathLength openFlags fdFlags address
    (reply.answer = .ok 0 ↔ ∃ base text stat, admits base text stat) ∧
      (reply.answer ≠ .ok 0 → reply.answer = .ok 8) ∧
      ∀ base text stat, admits base text stat →
        ∃ new, s.Opens linear address
          (Action.openedDescriptor (Path.normalize base text) stat fdFlags.toUInt16 rightsBase
            rightsInheriting) new reply := by
  intro reply admits
  have hopens (base text : String) (stat : FileStat) (h : admits base text stat) :=
    Admits.opens hs.sound hslots h dirFlags rightsBase rightsInheriting
  refine ⟨⟨fun hzero => ?_, ?_⟩, fun hfails => Call.answer_eq_eight rfl hfails, hopens⟩
  · -- an open that is answered zero has succeeded, and was admitted
    obtain ⟨w, hrun⟩ := Call.run_of_answer_eq_zero rfl hzero
    exact admits_of_run hrun
  · rintro ⟨base, text, stat, h⟩
    obtain ⟨new, hnew⟩ := hopens base text stat h
    exact hnew.answer

/-- `pathOpen` may store the number where the path has been read. -/
theorem opens_over_its_path :
    let host := Host.ofTree (FlatTree.empty.insertFile "/d/f" [10, 20, 30])
    let stat := FlatTree.attributes { inode := 4, node := .file [10, 20, 30] }
    let linear : LinearMemory := { bytes := (Octets.zeros 16).write 0 (utf8 "d/../d/f") }
    let status : FdStat :=
      { fileType := .regularFile, flags := 4, rightsBase := 2, rightsInheriting := 6 }
    initial.table.arena.slots.size < UInt32.size ∧
      initial.Admits host.fileSystem linear Fd.root 0 8 0 4 4 Path.root "d/../d/f" stat ∧
      ∃ new, initial.Opens linear 4 (.file "/d/f" 0 none status) new
        ((Call.pathOpen Fd.root 0 0 8 0 2 6 4 4).perform host initial (.attached linear)) := by
  intro host stat linear status
  have hslots : initial.table.arena.slots.size < UInt32.size := by decide
  have hadmits :
      initial.Admits host.fileSystem linear Fd.root 0 8 0 4 4 Path.root "d/../d/f" stat :=
    ⟨by decide, by decide, by decide, by decide, ⟨.preopened Path.root, rfl, rfl⟩, by decide, nofun,
      by decide⟩
  obtain ⟨_, _, hopens⟩ :=
    reachable_initial.pathOpen_iff_admits hslots host linear Fd.root 0 0 8 0 2 6 4 4
  exact ⟨hslots, hadmits, hopens _ _ _ hadmits⟩

end Session

end WasiHost
