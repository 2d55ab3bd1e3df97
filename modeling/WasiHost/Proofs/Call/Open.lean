import WasiHost.Call.Open
import WasiHost.Proofs.Call.Paths
import WasiHost.Proofs.Descriptor.Alike

/-!
# What opening a path does

Everything that can refuse a path comes first and changes nothing. Then a descriptor is kept, and
its number is stored for the guest; if that fails the descriptor is closed again.

* **`openedDescriptor_opened`** — what is kept is an opened descriptor.
* **`pathOpen_eq_ok_iff`**, **`pathOpen_eq_ok`** — an open that succeeds has passed every check,
  kept a descriptor and told its number.
* **`pathOpen_eq_error`** — an open that fails leaves a table that answers as before.
* **`Respects.reveal`** — related workspaces stay related if they do when the number is stored and
  when the descriptor is closed again. -/

namespace WasiHost

/-- `namedPath?`, the path that a call names, is canonical. -/
theorem Call.canonical_namedPath {session : Session} {memory : Memory} {fd : Fd}
    {path pathLength : UInt32} {name : String}
    (h : Call.namedPath? session memory fd path pathLength = some name) : Path.Canonical name := by
  obtain ⟨text, _, hname⟩ := Call.namedPath?_eq_some_iff.mp h
  obtain ⟨_, base, _, _, rfl⟩ := Session.resolve_eq_ok_iff.mp hname
  exact Path.canonical_normalize base text

namespace Action

variable {host : Host} {w w' : Workspace} {fd : Fd} {path pathLength address : UInt32}
  {openFlags : OpenFlags} {rightsBase rightsInheriting : Rights} {fdFlags : UInt32}

/-- `openedDescriptor` has a canonical path, and nothing is read or loaded yet. -/
theorem openedDescriptor_opened {name : String} (h : Path.Canonical name) (stat : FileStat)
    (flags : UInt16) (rightsBase rightsInheriting : Rights) :
    (openedDescriptor name stat flags rightsBase rightsInheriting).Opened := by
  unfold openedDescriptor
  split
  · exact .directory name _ h
  · exact .file name 0 none _ h (fun _ => rfl) nofun

/-- An open is refused and nothing is done, or a descriptor is kept and its number given to
`reveal`. -/
theorem pathOpen_cases (host : Host) (fd : Fd) (path pathLength : UInt32) (openFlags : OpenFlags)
    (rightsBase rightsInheriting : Rights) (fdFlags address : UInt32) (w : Workspace) :
    (∃ e, pathOpen host fd path pathLength openFlags rightsBase rightsInheriting fdFlags address w =
        .error e w) ∨
      ∃ name stat new table,
        Call.namedPath? w.session w.memory fd path pathLength = some name ∧
          host.fileSystem.stat name = .ok stat ∧
          w.session.table.insert
            (openedDescriptor name stat fdFlags.toUInt16 rightsBase rightsInheriting) =
              .ok (new, table) ∧
          pathOpen host fd path pathLength openFlags rightsBase rightsInheriting fdFlags address w =
            reveal new address
              { w with
                session := { w.session with table := table }
                events := w.events ++ [.log (DescriptorTable.allocated new)] } := by
  -- every step before the insertion only looks, so where it fails nothing has been done
  have hrefused {α : Type} {x : Action α} {e : CallError} {w₁ : Workspace} (hx : Keeps id x)
      (h : x w = .error e w₁) : x w = .error e w := by
    obtain rfl : w₁ = w := hx.failsClean w e w₁ h
    exact h
  cases hflags : halfWord openFlags w with
  | error e w₁ => exact .inl ⟨e, bind_of_error (hrefused (keeps_halfWord _) hflags)⟩
  | ok _ w₁ =>
  obtain ⟨_, _, rfl⟩ := halfWord_eq_ok_iff.mp hflags
  unfold pathOpen
  rw [bind_of_ok hflags]
  cases hfdFlags : halfWord fdFlags w₁ with
  | error e w₂ => exact .inl ⟨e, bind_of_error (hrefused (keeps_halfWord _) hfdFlags)⟩
  | ok flags w₂ =>
  obtain ⟨_, rfl, rfl⟩ := halfWord_eq_ok_iff.mp hfdFlags
  rw [bind_of_ok hfdFlags]
  cases hname : resolve fd path pathLength w₂ with
  | error e w₃ => exact .inl ⟨e, bind_of_error (hrefused (keeps_resolve _ _ _) hname)⟩
  | ok name w₃ =>
  obtain ⟨hnamed, rfl⟩ := resolve_eq_ok_iff.mp hname
  rw [bind_of_ok hname]
  cases hstat : host.fileSystem.stat name with
  | error errno => exact .inl ⟨.guest errno, rfl⟩
  | ok stat =>
  rw [bind_of_ok (lift_eq_ok_iff.mpr ⟨rfl, rfl⟩)]
  -- what was asked for as a directory must be one
  split
  · exact .inl ⟨_, rfl⟩
  · cases hins : w₃.session.table.insert
        (openedDescriptor name stat fdFlags.toUInt16 rightsBase rightsInheriting) with
    | error errno =>
      refine .inl ⟨.guest errno, bind_of_error ?_⟩
      rw [openDescriptor_eq, hins]
    | ok opened =>
      obtain ⟨new, table⟩ := opened
      refine .inr ⟨name, stat, new, table, hnamed, hstat, hins, bind_of_ok ?_⟩
      rw [openDescriptor_eq, hins]

/-- `reveal` succeeds exactly if the number can be stored, and then the descriptor stays open. -/
theorem reveal_eq_ok_iff :
    reveal fd address w = .ok () w' ↔
      ∃ memory, Access.writeU32 address fd w.memory = .ok () memory ∧
        w' = { w with memory := memory } := by
  rw [← access_eq_ok_iff]
  cases hstore : access (Access.writeU32 address fd) w with
  | ok u w₁ => rw [reveal_of_ok hstore]
  | error e w₁ =>
    -- what is closed again fails with the error that there was
    rw [reveal_of_error hstore]
    simp

/-- `reveal` gives a number that cannot be stored back. -/
theorem reveal_eq_error {e : CallError} {table : DescriptorTable} {records : List LogRecord}
    (hclose : w.session.table.close fd = .ok (table, records))
    (h : reveal fd address w = .error e w') :
    w' = { w with
      session := { w.session with table := table }
      events := w.events ++ records.map .log } := by
  cases hstore : access (Access.writeU32 address fd) w with
  | ok u w₁ =>
    rw [reveal_of_ok hstore] at h
    cases h
  | error e' w₁ =>
    obtain rfl : w₁ = w := failsClean_writeU32 address fd w e' w₁ hstore
    rw [reveal_of_error hstore, closeDescriptor_eq, hclose] at h
    cases h
    rfl

/-! ## How an open ends

`pathOpen_cases` and the two ends of `reveal`, put together. -/

/-- `pathOpen` succeeds exactly if every check passes, a descriptor is kept and its number
stored. -/
theorem pathOpen_eq_ok_iff :
    pathOpen host fd path pathLength openFlags rightsBase rightsInheriting fdFlags address w =
        .ok () w' ↔
      openFlags.toNat < UInt16.size ∧ fdFlags.toNat < UInt16.size ∧
        ∃ name stat new table memory,
          Call.namedPath? w.session w.memory fd path pathLength = some name ∧
            host.fileSystem.stat name = .ok stat ∧
            (OpenFlags.asksDirectory openFlags = true → stat.isDirectory = true) ∧
            w.session.table.insert
                (openedDescriptor name stat fdFlags.toUInt16 rightsBase rightsInheriting) =
              .ok (new, table) ∧
            Access.writeU32 address new w.memory = .ok () memory ∧
            w' =
              { session := { w.session with table := table }
                memory := memory
                events := w.events ++ [.log (DescriptorTable.allocated new)] } := by
  constructor
  · intro h
    obtain ⟨_, _, hstep₁, h₁⟩ := bind_eq_ok_iff.mp h
    obtain ⟨hopenFlags, _, rfl⟩ := halfWord_eq_ok_iff.mp hstep₁
    obtain ⟨_, _, hstep₂, h₂⟩ := bind_eq_ok_iff.mp h₁
    obtain ⟨hfdFlags, rfl, rfl⟩ := halfWord_eq_ok_iff.mp hstep₂
    obtain ⟨name, _, hstep₃, h₃⟩ := bind_eq_ok_iff.mp h₂
    obtain ⟨hnamed, rfl⟩ := resolve_eq_ok_iff.mp hstep₃
    obtain ⟨stat, _, hstep₄, h₄⟩ := bind_eq_ok_iff.mp h₃
    obtain ⟨hstat, rfl⟩ := lift_eq_ok_iff.mp hstep₄
    split at h₄
    · cases h₄
    · next hkind =>
      obtain ⟨new, _, hstep₅, h₅⟩ := bind_eq_ok_iff.mp h₄
      obtain ⟨table, hinsert, rfl⟩ := openDescriptor_eq_ok_iff.mp hstep₅
      obtain ⟨memory, hstore, rfl⟩ := reveal_eq_ok_iff.mp h₅
      refine ⟨hopenFlags, hfdFlags, name, stat, new, table, memory, hnamed, hstat, ?_, hinsert,
        hstore, rfl⟩
      intro hasks
      -- a file that was asked for as a directory would have been refused
      by_contra hfile
      exact hkind ⟨hasks, hfile⟩
  · rintro ⟨hopenFlags, hfdFlags, name, stat, new, table, memory, hnamed, hstat, hkind, hinsert,
      hstore, rfl⟩
    refine bind_eq_ok_iff.mpr ⟨_, _, halfWord_eq_ok_iff.mpr ⟨hopenFlags, rfl, rfl⟩, ?_⟩
    refine bind_eq_ok_iff.mpr ⟨_, _, halfWord_eq_ok_iff.mpr ⟨hfdFlags, rfl, rfl⟩, ?_⟩
    refine bind_eq_ok_iff.mpr ⟨name, w, resolve_eq_ok_iff.mpr ⟨hnamed, rfl⟩, ?_⟩
    refine bind_eq_ok_iff.mpr ⟨stat, w, lift_eq_ok_iff.mpr ⟨hstat, rfl⟩, ?_⟩
    rw [if_neg fun hrefused => hrefused.2 (hkind hrefused.1)]
    refine bind_eq_ok_iff.mpr
      ⟨new, _, openDescriptor_eq_ok_iff.mpr ⟨table, hinsert, rfl⟩, ?_⟩
    exact reveal_eq_ok_iff.mpr ⟨memory, hstore, rfl⟩

/-- `pathOpen` that succeeds has kept a descriptor and told its number. -/
theorem pathOpen_eq_ok
    (h : pathOpen host fd path pathLength openFlags rightsBase rightsInheriting fdFlags address w =
      .ok () w') :
    ∃ name stat new table,
      Call.namedPath? w.session w.memory fd path pathLength = some name ∧
        host.fileSystem.stat name = .ok stat ∧
        w.session.table.insert
          (openedDescriptor name stat fdFlags.toUInt16 rightsBase rightsInheriting) =
            .ok (new, table) ∧
        w'.session = { w.session with table := table } ∧ w'.memory.readU32 address = .ok new := by
  obtain ⟨_, _, name, stat, new, table, memory, hnamed, hstat, _, hinsert, hstore, rfl⟩ :=
    pathOpen_eq_ok_iff.mp h
  exact ⟨name, stat, new, table, hnamed, hstat, hinsert, rfl, Access.readU32_of_writeU32 hstore⟩

/-- `pathOpen` that fails has done nothing, or closed what it had opened. -/
theorem pathOpen_eq_error (hsound : w.session.table.Sound) {e : CallError}
    (h : pathOpen host fd path pathLength openFlags rightsBase rightsInheriting fdFlags address w =
      .error e w') :
    w'.memory = w.memory ∧ w'.texts = w.texts ∧
      (w'.session = w.session ∨
        ∃ d new opened table, d.Opened ∧ w.session.table.insert d = .ok (new, opened) ∧
          opened.close new = .ok (table, [DescriptorTable.released new]) ∧
          w'.session = { w.session with table := table }) := by
  rcases pathOpen_cases host fd path pathLength openFlags rightsBase rightsInheriting fdFlags
    address w with ⟨e', herror⟩ | ⟨name, stat, new, opened, hnamed, hstat, hins, hreveal⟩
  · rw [herror] at h
    cases h
    exact ⟨rfl, rfl, .inl rfl⟩
  · rw [hreveal] at h
    -- what was just inserted can be closed
    obtain ⟨table, hclose, _⟩ := hsound.close_insert hins
    rw [reveal_eq_error hclose h]
    have hopened := openedDescriptor_opened (Call.canonical_namedPath hnamed) stat
      fdFlags.toUInt16 rightsBase rightsInheriting
    refine ⟨rfl, ?_, .inr ⟨_, new, opened, table, hopened, hins, hclose, rfl⟩⟩
    have hlog : [Event.log (DescriptorTable.allocated new)] =
        [DescriptorTable.allocated new].map .log := rfl
    simp only [Workspace.texts, hlog, Event.stdoutTexts_append_log, Event.stderrTexts_append_log]

end Action

/-! ## Related workspaces

`reveal` is no sequence of steps, because what it does after a failure is not in vain. So it has a
rule of its own beside those of `Sequential`. -/

section

variable {R : Workspace → Workspace → Prop} {fd : Fd} {address : UInt32}

/-- `reveal` respects what storing the number and closing the descriptor respect. -/
theorem Respects.reveal (hstore : Respects R (Action.access (Access.writeU32 address fd)))
    (hclose : Respects R (Action.closeDescriptor fd)) : Respects R (Action.reveal fd address) := by
  intro w w' h
  -- the number is stored in both or given back in both
  have hstored := hstore w w' h
  cases hw : Action.access (Access.writeU32 address fd) w with
  | ok u t =>
    cases hw' : Action.access (Access.writeU32 address fd) w' with
    | ok u' t' =>
      rw [Action.reveal_of_ok hw, Action.reveal_of_ok hw', ← hw, ← hw']
      exact hstored
    | error e t' =>
      rw [hw, hw'] at hstored
      cases hstored
  | error e t =>
    cases hw' : Action.access (Access.writeU32 address fd) w' with
    | ok u t' =>
      rw [hw, hw'] at hstored
      cases hstored
    | error e' t' =>
      rw [hw, hw'] at hstored
      rw [Action.reveal_of_error hw, Action.reveal_of_error hw']
      cases hstored with
      | error _ ht => exact .error e (hclose t t' ht).endState

end

end WasiHost
