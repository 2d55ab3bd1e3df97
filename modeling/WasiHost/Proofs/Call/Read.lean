import WasiHost.Call.Stream
import WasiHost.Proofs.Memory.Scatter
import WasiHost.Proofs.Session.Action

/-!
# What a read does

A read first decodes the list of buffers and checks the cell for its count; if either fails nothing
has happened. Then it moves octets off standard input, or out of an opened file whose content is
loaded first if need be, and at last it stores the count, which cannot fail any more.

* **`Memory.buffers?`** — the buffers of a read that comes to move anything.
* **`readInto_stdin`**, **`readInto_file`**, **`readInto_other`** — the three kinds of descriptors.
* **`fdRead_eq_ok`** — a read that succeeds has served octets and delivered them.
* **`fdRead_eq_error`** — a read that fails has done nothing but load the content, if it came to
  that. -/

namespace WasiHost

/-- The buffers that a list in memory names, if the list can be read and the cell at `address` can
hold the count. -/
def Memory.buffers? (memory : Memory) (buffers count address : UInt32) : Option (List IoVec) :=
  match Access.readIoVecs buffers count memory, memory.check address 4 with
  | .ok vectors _, .ok () => some vectors
  | _, _ => none

/-- The content of an opened file once it is loaded, if it can be. -/
def Host.loaded? (host : Host) (path : String) (content : Option Bytes) : Option Bytes :=
  content.or (host.fileSystem.read path).toOption

/-- The octets that a read moves into buffers, and the session afterwards. -/
inductive Session.Serves (host : Host) (s : Session) (fd : Fd) (vectors : List IoVec) :
    Bytes → Session → Prop where
  | stdin (k : Nat) (hget : s.table.get fd = .ok .stdin)
      (hk : k = min s.stdin.length (IoVec.room vectors)) :
      Serves host s fd vectors (s.stdin.take k) { s with stdin := s.stdin.drop k }
  | file (path : String) (offset : UInt64) (content : Option Bytes) (status : FdStat)
      (bytes : Bytes) (moved : UInt32)
      (hget : s.table.get fd = .ok (.file path offset content status))
      (hbytes : host.loaded? path content = some bytes)
      (hmoved : moved.toNat = min (bytes.length - offset.toNat) (IoVec.room vectors)) :
      Serves host s fd vectors ((bytes.drop offset.toNat).take moved.toNat)
        { s with
          table := s.table.set fd (.file path (offset + moved.toUInt64) (some bytes) status) }

/-- `Serves` of a file: the octets behind the offset, as many as there is room for, and the offset
goes forward by their number. -/
theorem Session.Serves.of_file {host : Host} {s s' : Session} {fd : Fd} {vectors : List IoVec}
    {data : Bytes} {path : String} {offset : UInt64} {content : Option Bytes} {status : FdStat}
    (h : s.Serves host fd vectors data s')
    (hget : s.table.get fd = .ok (.file path offset content status)) :
    ∃ (bytes : Bytes) (moved : UInt32), host.loaded? path content = some bytes ∧
      moved.toNat = min (bytes.length - offset.toNat) (IoVec.room vectors) ∧
      data = (bytes.drop offset.toNat).take moved.toNat ∧
      s' = { s with
        table := s.table.set fd (.file path (offset + moved.toUInt64) (some bytes) status) } := by
  cases h with
  | stdin k hget' _ =>
    rw [hget] at hget'
    cases hget'
  | file path' offset' content' status' bytes moved hget' hbytes hmoved =>
    cases hget.symm.trans hget'
    exact ⟨bytes, moved, hbytes, hmoved, rfl, rfl⟩

namespace Action

variable {host : Host} {w w' : Workspace} {fd : Fd} {buffers count address : UInt32}
  {vectors : List IoVec} {path : String} {offset : UInt64} {content : Option Bytes}
  {status : FdStat}

/-! ## Before anything is moved

`Memory.buffers?` puts the two steps before the move into one value. -/

/-- If the list cannot be read, or the cell is not there, `fdRead` does nothing. -/
theorem fdRead_of_buffers?_eq_none (host : Host) (fd : Fd)
    (h : w.memory.buffers? buffers count address = none) :
    ∃ e, fdRead host fd buffers count address w = .error e w := by
  have hkeep := Access.keeps_readIoVecs buffers count w.memory
  unfold Memory.buffers? at h
  cases hlist : Access.readIoVecs buffers count w.memory with
  | error e memory =>
    rw [hlist] at hkeep
    cases hkeep
    refine ⟨e, bind_of_error ?_⟩
    exact access_eq_error_iff.mpr ⟨_, hlist, rfl⟩
  | ok vectors memory =>
    rw [hlist] at hkeep h
    cases hkeep
    cases hcheck : w.memory.check address 4 with
    | ok _ =>
      rw [hcheck] at h
      cases h
    | error e =>
      refine ⟨e, ?_⟩
      unfold fdRead
      rw [bind_of_ok (access_eq_ok_iff.mpr ⟨_, hlist, rfl⟩)]
      -- the list was read, and the cell is refused
      refine bind_of_error (access_eq_error_iff.mpr ⟨w.memory, ?_, rfl⟩)
      simp only [Access.check, Access.reading, hcheck]

/-- `Memory.buffers?` reads the list by `Access.readIoVecs`. -/
theorem readIoVecs_of_buffers? {memory : Memory}
    (h : memory.buffers? buffers count address = some vectors) :
    ∃ memory', Access.readIoVecs buffers count memory = .ok vectors memory' := by
  unfold Memory.buffers? at h
  split at h
  · next hread _ =>
    cases h
    exact ⟨_, hread⟩
  · cases h

theorem check_of_buffers? (h : w.memory.buffers? buffers count address = some vectors) :
    w.memory.check address 4 = .ok () := by
  unfold Memory.buffers? at h
  split at h
  · next hcheck => exact hcheck
  · cases h

/-- Once both have passed, what is left of a read is `readInto` and the store of the count. -/
theorem fdRead_of_buffers? (h : w.memory.buffers? buffers count address = some vectors) :
    fdRead host fd buffers count address w =
      (readInto host fd vectors >>= fun moved => access (Access.writeU32 address moved)) w := by
  have hkeep := Access.keeps_readIoVecs buffers count w.memory
  have hcheck := check_of_buffers? h
  unfold Memory.buffers? at h
  cases hlist : Access.readIoVecs buffers count w.memory with
  | error e memory =>
    rw [hlist] at h
    cases h
  | ok vectors' memory =>
    rw [hlist] at hkeep h
    cases hkeep
    rw [hcheck] at h
    cases h
    -- the check passes and leaves the workspace as it is
    have hgate : access (Access.check address 4) w = .ok () w :=
      access_eq_ok_iff.mpr ⟨_, Access.check_eq_ok_iff.mpr ⟨hcheck, rfl⟩, rfl⟩
    unfold fdRead
    rw [bind_of_ok (access_eq_ok_iff.mpr ⟨_, hlist, rfl⟩)]
    exact bind_of_ok hgate

/-! ## Moving octets

Where octets come from is up to the descriptor: the queue, the content of a file, or nowhere.
Loading a file is a step of its own, because it is not undone if the octets cannot be moved. -/

/-- From `.stdin` the octets come off the queue, as many as `scatter` has moved. -/
theorem readInto_stdin (h : w.session.table.get fd = .ok .stdin) :
    readInto host fd vectors w =
      match Access.scatter vectors w.session.stdin w.memory with
      | .ok moved memory =>
        .ok moved { w with
          session := { w.session with stdin := w.session.stdin.drop moved.toNat }
          memory := memory }
      | .error e memory => .error e { w with memory := memory } := by
  unfold readInto
  rw [bind_of_ok (descriptor_eq_ok_iff.mpr ⟨h, rfl⟩)]
  simp only
  rw [bind_of_ok (look_eq_ok_iff.mpr ⟨rfl, rfl⟩)]
  -- the queue loses its octets only if all were moved
  cases hscatter : Access.scatter vectors w.session.stdin w.memory with
  | ok moved memory =>
    rw [bind_of_ok (access_eq_ok_iff.mpr ⟨_, hscatter, rfl⟩)]
    rfl
  | error e memory => exact bind_of_error (access_eq_error_iff.mpr ⟨_, hscatter, rfl⟩)

/-- `load` leaves the descriptor with its content, or fails and does nothing. -/
theorem load_eq (host : Host)
    (h : w.session.table.get fd = .ok (.file path offset content status)) :
    (∃ e, host.loaded? path content = none ∧
        load host fd path offset content status w = .error e w) ∨
      ∃ bytes, host.loaded? path content = some bytes ∧
        load host fd path offset content status w =
          .ok bytes { w with
            session := { w.session with
              table := w.session.table.set fd (.file path offset (some bytes) status) } } := by
  cases content with
  | some bytes =>
    refine .inr ⟨bytes, rfl, ?_⟩
    -- loaded already: to keep it again changes nothing
    rw [DescriptorTable.set_of_get h]
    rfl
  | none =>
    cases hread : host.fileSystem.read path with
    | error errno =>
      refine .inl ⟨.guest errno, by simp [Host.loaded?, hread, Except.toOption], ?_⟩
      unfold load
      refine bind_of_error ?_
      rw [hread]
      rfl
    | ok bytes =>
      refine .inr ⟨bytes, by simp [Host.loaded?, hread, Except.toOption], ?_⟩
      unfold load
      simp only
      rw [bind_of_ok (lift_eq_ok_iff.mpr ⟨hread, rfl⟩)]
      rfl

/-- Of a `.file` the octets behind the offset are moved, and the offset goes forward by their
number. -/
theorem readInto_file (h : w.session.table.get fd = .ok (.file path offset content status))
    {bytes : Bytes} (hbytes : host.loaded? path content = some bytes) :
    readInto host fd vectors w =
      match Access.scatter vectors (bytes.drop offset.toNat) w.memory with
      | .ok moved memory =>
        .ok moved { w with
          session := { w.session with
            table := w.session.table.set fd
              (.file path (offset + moved.toUInt64) (some bytes) status) }
          memory := memory }
      | .error e memory =>
        .error e { w with
          session := { w.session with
            table := w.session.table.set fd (.file path offset (some bytes) status) }
          memory := memory } := by
  rcases load_eq host h with ⟨e, hnone, _⟩ | ⟨bytes', hsome, hload⟩
  · rw [hnone] at hbytes
    cases hbytes
  · rw [hsome] at hbytes
    cases hbytes
    -- from here on the content is in place, whatever becomes of the octets
    let loaded : Workspace :=
      { w with
        session := { w.session with
          table := w.session.table.set fd (.file path offset (some bytes) status) } }
    unfold readInto
    rw [bind_of_ok (descriptor_eq_ok_iff.mpr ⟨h, rfl⟩)]
    simp only
    rw [bind_of_ok hload]
    cases hscatter : Access.scatter vectors (bytes.drop offset.toNat) w.memory with
    | ok moved memory =>
      have hmove : access (Access.scatter vectors (bytes.drop offset.toNat)) loaded =
          .ok moved { loaded with memory := memory } :=
        access_eq_ok_iff.mpr ⟨memory, hscatter, rfl⟩
      refine (bind_of_ok hmove).trans ?_
      change EStateM.Result.ok moved _ = _
      simp only [loaded, DescriptorTable.set_set]
    | error e memory =>
      have hmove : access (Access.scatter vectors (bytes.drop offset.toNat)) loaded =
          .error e { loaded with memory := memory } :=
        access_eq_error_iff.mpr ⟨memory, hscatter, rfl⟩
      exact bind_of_error hmove

/-- `readInto` moves nothing from any other descriptor, nor from a file that cannot be loaded. -/
theorem readInto_other (hstdin : w.session.table.get fd ≠ .ok .stdin)
    (hfile : ∀ path offset content status,
      w.session.table.get fd = .ok (.file path offset content status) →
        host.loaded? path content = none) :
    ∃ e, readInto host fd vectors w = .error e w := by
  unfold readInto
  cases hget : w.session.table.get fd with
  | error errno =>
    refine ⟨.guest errno, bind_of_error ?_⟩
    change lift (w.session.table.get fd) w = _
    rw [hget]
    rfl
  | ok d =>
    rw [bind_of_ok (descriptor_eq_ok_iff.mpr ⟨hget, rfl⟩)]
    cases d with
    | stdin => exact absurd hget hstdin
    | file path offset content status =>
      -- a file has nothing to read only if it cannot be loaded
      rcases load_eq host hget with ⟨e, _, hload⟩ | ⟨bytes, hsome, _⟩
      · exact ⟨e, bind_of_error hload⟩
      · rw [hfile _ _ _ _ hget] at hsome
        cases hsome
    | stdout => exact ⟨_, rfl⟩
    | stderr => exact ⟨_, rfl⟩
    | preopened name => exact ⟨_, rfl⟩
    | directory path status => exact ⟨_, rfl⟩

/-- The three cases of `readInto`, by what the descriptor is. -/
theorem readInto_cases (host : Host) (fd : Fd) (vectors : List IoVec) (w : Workspace) :
    w.session.table.get fd = .ok .stdin ∨
      (∃ path offset content status bytes,
        w.session.table.get fd = .ok (.file path offset content status) ∧
          host.loaded? path content = some bytes) ∨
      (∀ path offset content status,
        w.session.table.get fd = .ok (.file path offset content status) →
          host.loaded? path content = none) ∧
        ∃ e, readInto host fd vectors w = .error e w := by
  -- from standard input octets can always be moved, be it none
  by_cases hstdin : w.session.table.get fd = .ok .stdin
  · exact .inl hstdin
  · by_cases hfile : ∃ path offset content status bytes,
        w.session.table.get fd = .ok (.file path offset content status) ∧
          host.loaded? path content = some bytes
    · exact .inr (.inl hfile)
    · have hnone : ∀ path offset content status,
          w.session.table.get fd = .ok (.file path offset content status) →
            host.loaded? path content = none := by
        intro path offset content status hget
        by_contra hsome
        obtain ⟨bytes, hbytes⟩ := Option.ne_none_iff_exists'.mp hsome
        exact hfile ⟨path, offset, content, status, bytes, hget, hbytes⟩
      exact .inr (.inr ⟨hnone, readInto_other hstdin hnone⟩)

/-- `readInto` keeps the size of the memory, so a `check` before it holds after it. -/
theorem check_of_readInto {moved : UInt32} (hcheck : w.memory.check address 4 = .ok ())
    (h : readInto host fd vectors w = .ok moved w') : w'.memory.check address 4 = .ok () := by
  rcases readInto_cases host fd vectors w with
    hstdin | ⟨path, offset, content, status, bytes, hget, hbytes⟩ | ⟨_, e, herror⟩
  · rw [readInto_stdin hstdin] at h
    split at h
    · next hscatter =>
      cases h
      exact Access.check_of_scatter hcheck hscatter
    · cases h
  · rw [readInto_file hget hbytes] at h
    split at h
    · next hscatter =>
      cases h
      exact Access.check_of_scatter hcheck hscatter
    · cases h
  · rw [herror] at h
    cases h

/-! ## How a read ends

`fdRead_eq_ok` says what was served and where it was delivered, `fdRead_eq_error` what is left of a
read that has failed. Both go through `readInto_cases`. -/

/-- `fdRead` that succeeds `Serves` octets and `Delivers` them. -/
theorem fdRead_eq_ok (h : fdRead host fd buffers count address w = .ok () w') :
    w'.events = w.events ∧
      ∃ vectors data, w.memory.buffers? buffers count address = some vectors ∧
        w.session.Serves host fd vectors data w'.session ∧
        w.memory.Delivers vectors address data w'.memory := by
  cases hbuffers : w.memory.buffers? buffers count address with
  | none =>
    obtain ⟨e, herror⟩ := fdRead_of_buffers?_eq_none host fd hbuffers
    rw [herror] at h
    cases h
  | some vectors =>
    have hcheck := check_of_buffers? hbuffers
    rw [fdRead_of_buffers? hbuffers] at h
    obtain ⟨moved, w₁, hread, hstore⟩ := bind_eq_ok_iff.mp h
    obtain ⟨memory, hword, rfl⟩ := access_eq_ok_iff.mp hstore
    rcases readInto_cases host fd vectors w with
      hstdin | ⟨path, offset, content, status, bytes, hget, hbytes⟩ | ⟨_, e, herror⟩
    · rw [readInto_stdin hstdin] at hread
      split at hread
      · next hscatter =>
        cases hread
        -- how many octets were moved is what is stored in the cell
        obtain ⟨hmoved, hdelivers⟩ := Access.delivers_of_scatter hcheck hscatter hword
        exact ⟨rfl, vectors, _, rfl, .stdin _ hstdin hmoved, hdelivers⟩
      · cases hread
    · rw [readInto_file hget hbytes] at hread
      split at hread
      · next hscatter =>
        cases hread
        obtain ⟨hmoved, hdelivers⟩ := Access.delivers_of_scatter hcheck hscatter hword
        rw [List.length_drop] at hmoved
        exact ⟨rfl, vectors, _, rfl,
          .file path offset content status bytes _ hget hbytes hmoved, hdelivers⟩
      · cases hread
    · rw [herror] at hread
      cases hread

/-- `fdRead` that fails has done nothing but `load` the content, if it came to that. -/
theorem fdRead_eq_error {e : CallError}
    (h : fdRead host fd buffers count address w = .error e w') :
    w'.events = w.events ∧
      (w'.session = w.session ∧
          (∀ path offset content status,
            w.session.table.get fd = .ok (.file path offset content status) →
              w.memory.buffers? buffers count address = none ∨
                host.loaded? path content = none) ∨
        ∃ path offset content status bytes,
          w.session.table.get fd = .ok (.file path offset content status) ∧
            (w.memory.buffers? buffers count address).isSome ∧
            host.loaded? path content = some bytes ∧
            w'.session = { w.session with
              table := w.session.table.set fd (.file path offset (some bytes) status) }) := by
  cases hbuffers : w.memory.buffers? buffers count address with
  | none =>
    obtain ⟨e', herror⟩ := fdRead_of_buffers?_eq_none host fd hbuffers
    rw [herror] at h
    cases h
    exact ⟨rfl, .inl ⟨rfl, fun _ _ _ _ _ => .inl rfl⟩⟩
  | some vectors =>
    have hcheck := check_of_buffers? hbuffers
    rw [fdRead_of_buffers? hbuffers] at h
    rcases bind_eq_error_iff.mp h with hread | ⟨moved, w₁, hread, hstore⟩
    · rcases readInto_cases host fd vectors w with
        hstdin | ⟨path, offset, content, status, bytes, hget, hbytes⟩ | ⟨hnone, e', herror⟩
      · -- the scatter has failed half way and touched guest memory only
        rw [readInto_stdin hstdin] at hread
        split at hread
        · cases hread
        · cases hread
          refine ⟨rfl, .inl ⟨rfl, fun path offset content status hget => ?_⟩⟩
          rw [hstdin] at hget
          cases hget
      · -- the content is kept although its octets could not be moved
        rw [readInto_file hget hbytes] at hread
        split at hread
        · cases hread
        · cases hread
          exact ⟨rfl, .inr ⟨path, offset, content, status, bytes, hget, rfl, hbytes, rfl⟩⟩
      · rw [herror] at hread
        cases hread
        exact ⟨rfl, .inl ⟨rfl, fun _ _ _ _ hget => .inr (hnone _ _ _ _ hget)⟩⟩
    · -- the cell was checked for, so storing the count does not fail
      obtain ⟨_, hwrite⟩ := (Access.writeU32_ok_iff moved).mpr (check_of_readInto hcheck hread)
      obtain ⟨_, herror, _⟩ := access_eq_error_iff.mp hstore
      rw [hwrite] at herror
      cases herror

end Action

end WasiHost
