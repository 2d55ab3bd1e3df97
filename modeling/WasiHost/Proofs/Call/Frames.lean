import WasiHost.Proofs.Call.Walk

/-!
# What bodies leave alone

Most bodies look at the session, store one record and are done. Such a body is *quiet*: it keeps the
session and the texts whatever happens, and when it fails it has done nothing at all. The others are
told one by one:

* **`Quiet`**, **`Quiet.leadsTo`** — the property, and that steps which only look may come before
  it.
* **`quiet_fdFdstatGet`** and its like — the bodies that have it, by `LeadsTo`.
* **`keeps_outer_startup`** — the start-up calls store piece by piece, so all that is certain is
  that they never reach beyond guest memory.
* **`failsClean_fdWrite`** — a write lets its text out after all that can fail.
* **`fdFdstatSetFlags_eq_ok`** — flags are set on what is open.
-/

namespace WasiHost

namespace Action

variable {α : Type} {host : Host} {w w' : Workspace} {fd : Fd}

/-- A computation that keeps the session and the texts, and that has done nothing if it fails. -/
structure Quiet (x : Action α) : Prop where
  outer : Keeps Workspace.outer x
  clean : FailsClean id x

theorem quiet_of_keeps {x : Action α} (h : Keeps id x) : Quiet x where
  outer := h.map Workspace.outer
  clean := h.failsClean

/-- `access` leaves session and texts alone, so it is `Quiet` if the access does nothing when it
fails. -/
theorem quiet_access {x : Access α} (h : FailsClean id x) : Quiet (access x) where
  outer := keeps_outer_access x
  clean := failsClean_access h

/-- Every place to store at is all of one `Access.write`, which does nothing when it is refused. -/
theorem quiet_write (address : UInt32) (data : Bytes) :
    Quiet (access (Access.write address data)) :=
  quiet_access (Access.failsClean_write address data)

/-- The walk of a body: `Keeps id` may come before `Quiet`. -/
theorem Quiet.leadsTo : LeadsTo (Keeps (id : Workspace → Workspace)) Quiet where
  sequential := Keeps.sequential id
  refuse _ := quiet_of_keeps (keeps_throw _)
  bind hx hf :=
    { outer := (hx.map Workspace.outer).bind fun a => (hf a).outer
      clean := hx.bind_failsClean fun a => (hf a).clean }

/-! ## Looking

Whatever is looked at, and whether it is let through or refused, the workspace is the one it was.
Each of these is the walk of `Sequential` with `Keeps id` for its property. -/

theorem keeps_word (n : Nat) : Keeps id (word n) :=
  (Keeps.sequential id).word n

theorem keeps_halfWord (n : UInt32) : Keeps id (halfWord n) :=
  (Keeps.sequential id).halfWord n

theorem keeps_checkClock (clock : UInt32) : Keeps id (checkClock clock) :=
  (Keeps.sequential id).checkClock (keeps_look _)

theorem keeps_fileStat (host : Host) (path : String) : Keeps id (fileStat host path) :=
  (Keeps.sequential id).fileStat (keeps_look _)

theorem keeps_resolve (fd : Fd) (path pathLength : UInt32) :
    Keeps id (resolve fd path pathLength) :=
  (Keeps.sequential id).resolve (keeps_access (Access.keeps_readText _ _)) fun _ => keeps_look _

/-- `preopenedName` fails on what is not `.preopened`, and does nothing. -/
theorem preopenedName_eq_error (h : ∀ name, w.session.table.get fd ≠ .ok (.preopened name)) :
    ∃ errno, preopenedName fd w = .error (.guest errno) w := by
  unfold preopenedName
  cases hget : w.session.table.get fd with
  | error errno =>
    refine ⟨errno, bind_of_error ?_⟩
    change lift (w.session.table.get fd) w = _
    rw [hget]
    rfl
  | ok d =>
    rw [bind_of_ok (descriptor_eq_ok_iff.mpr ⟨hget, rfl⟩)]
    cases d with
    | preopened name => exact absurd hget (h name)
    | _ => exact ⟨.badF, rfl⟩

/-! ## Quiet bodies

Each looks first and then makes one store, so `Quiet.leadsTo` is all there is to it. What is stored
makes no difference. -/

theorem quiet_clockResGet (clock address : UInt32) : Quiet (clockResGet clock address) :=
  Quiet.leadsTo.clockResGet (keeps_checkClock clock) fun _ => quiet_write _ _

theorem quiet_clockTimeGet (host : Host) (clock : UInt32) (precision : UInt64) (address : UInt32) :
    Quiet (clockTimeGet host clock precision address) :=
  Quiet.leadsTo.clockTimeGet (keeps_checkClock clock) (fun _ => quiet_write _ _) precision

theorem quiet_fdFdstatGet (host : Host) (fd : Fd) (address : UInt32) :
    Quiet (fdFdstatGet host fd address) :=
  Quiet.leadsTo.fdFdstatGet (keeps_descriptor fd) (keeps_fileStat host) fun _ => quiet_write _ _

theorem quiet_fdPrestatGet (fd : Fd) (address : UInt32) : Quiet (fdPrestatGet fd address) :=
  Quiet.leadsTo.fdPrestatGet (keeps_descriptor fd) fun _ => quiet_write _ _

theorem quiet_fdPrestatDirName (fd : Fd) (address size : UInt32) :
    Quiet (fdPrestatDirName fd address size) :=
  Quiet.leadsTo.fdPrestatDirName (keeps_descriptor fd) fun _ _ => quiet_write _ _

theorem quiet_fdSeek (fd : Fd) (address : UInt32) : Quiet (fdSeek fd address) :=
  Quiet.leadsTo.fdSeek (keeps_look _) fun _ => quiet_write _ _

/-- `fdSeek` stores the offset that the descriptor has, whatever was asked for. -/
theorem fdSeek_eq {d : Descriptor} (hget : w.session.table.get fd = .ok d) (address : UInt32) :
    fdSeek fd address w = access (Access.writeU64 address d.offset) w := by
  unfold fdSeek
  rw [bind_of_ok (look_eq_ok_iff.mpr ⟨rfl, rfl⟩), hget]

theorem quiet_pathFilestatGet (host : Host) (fd : Fd) (path pathLength address : UInt32) :
    Quiet (pathFilestatGet host fd path pathLength address) :=
  Quiet.leadsTo.pathFilestatGet (keeps_resolve fd path pathLength) (keeps_fileStat host) fun _ =>
    quiet_write _ _

theorem quiet_randomGet (host : Host) (address length : UInt32) :
    Quiet (randomGet host address length) :=
  quiet_access (Access.failsClean_overwrite _ _ _)

/-! ## Start-up calls

What they store is a list of strings or two sizes, and a refusal half way leaves the first part
there. So they are not `Quiet`; but none of their steps leaves guest memory. -/

theorem keeps_outer_storeSizes (count size : Nat) (countAddress sizeAddress : UInt32) :
    Keeps Workspace.outer (storeSizes count size countAddress sizeAddress) :=
  (Keeps.sequential _).storeSizes (fun _ => keeps_outer_access _) (fun _ => keeps_outer_access _)
    count size

/-- A startup call looks at the options, and then works on guest memory only. -/
theorem keeps_outer_startup {g : Options → Action Unit}
    (hg : ∀ options, Keeps Workspace.outer (g options)) :
    Keeps Workspace.outer (look Session.options >>= g) :=
  ((keeps_look _).map Workspace.outer).bind hg

theorem keeps_outer_argsGet (pointers strings : UInt32) :
    Keeps Workspace.outer (argsGet pointers strings) :=
  keeps_outer_startup fun _ => keeps_outer_access _

theorem keeps_outer_environGet (pointers strings : UInt32) :
    Keeps Workspace.outer (environGet pointers strings) :=
  keeps_outer_startup fun _ => keeps_outer_access _

theorem keeps_outer_argsSizesGet (count size : UInt32) :
    Keeps Workspace.outer (argsSizesGet count size) :=
  keeps_outer_startup fun _ => keeps_outer_storeSizes _ _ _ _

theorem keeps_outer_environSizesGet (count size : UInt32) :
    Keeps Workspace.outer (environSizesGet count size) :=
  keeps_outer_startup fun _ => keeps_outer_storeSizes _ _ _ _

/-! ## Writes

A write reads its list, checks the cell for its count, moves octets and stores the count. Moving
leaves session and memory alone (`keeps_writeFrom`), so the cell that was checked before is still
there afterwards, and storing the count does not fail any more. -/

theorem keeps_gathering (f : Memory → Except CallError α) :
    Keeps id (access (Access.reading f)) :=
  keeps_access (Access.keeps_reading f)

theorem keeps_emit (events : List Event) :
    Keeps (fun w => (w.session, w.memory)) (emit events) :=
  fun _ => rfl

/-- `writeFrom` keeps session and memory: octets are gathered, and only a text or a record of the
log comes of them. -/
theorem keeps_writeFrom (fd : Fd) (vectors : List IoVec) :
    Keeps (fun w => (w.session, w.memory)) (writeFrom fd vectors) := by
  have hkeep {β : Type} {x : Action β} (hx : Keeps id x) :
      Keeps (fun w : Workspace => (w.session, w.memory)) x :=
    hx.map fun w => (w.session, w.memory)
  exact (Keeps.sequential _).leadsTo.writeFrom (hkeep (keeps_descriptor fd))
    (hkeep (keeps_gathering _)) (hkeep (keeps_gathering _))
    (fun _ _ => (keeps_emit _).bind fun _ => keeps_pure _)
    (fun _ _ => (keeps_emit _).bind fun _ => keeps_pure _)
    fun _ _ => (keeps_emit _).bind fun _ => hkeep (keeps_word _)

/-- `writeFrom` lets a text out last; what goes out earlier is a record of the log. -/
theorem failsClean_writeFrom (fd : Fd) (vectors : List IoVec) :
    FailsClean Workspace.visible (writeFrom fd vectors) := by
  have hkeep {β : Type} {x : Action β} (hx : Keeps id x) : Keeps Workspace.visible x :=
    hx.map Workspace.visible
  have hlast (events : List Event) (n : UInt32) :
      FailsClean Workspace.visible (emit events >>= fun _ => pure n) := by
    intro w e w' h
    rcases bind_eq_error_iff.mp h with h | ⟨_, _, _, h⟩
    · cases h
    · cases h
  -- the count may still not fit in a word, but so far only a line of the log is out
  have hlog (path : String) (n : Nat) :
      Keeps Workspace.visible (emit [.log (dropped path n)]) := by
    intro w
    have hout := Event.stdoutTexts_append_log w.events [dropped path n]
    have herr := Event.stderrTexts_append_log w.events [dropped path n]
    simp only [List.map_cons, List.map_nil] at hout herr
    simp only [Workspace.visible, Workspace.texts, endState, emit, hout, herr]
  exact (FailsClean.leadsTo _).writeFrom (hkeep (keeps_descriptor fd))
    (hkeep (keeps_gathering _)) (hkeep (keeps_gathering _)) (fun _ n => hlast _ n)
    (fun _ n => hlast _ n)
    fun path n => (hlog path n).bind_failsClean fun _ => (hkeep (keeps_word n)).failsClean

/-- `fdWrite` leaves the session alone, whether it succeeds or not. -/
theorem keeps_session_fdWrite (fd : Fd) (buffers count address : UInt32) :
    Keeps Workspace.session (fdWrite fd buffers count address) :=
  (Keeps.sequential _).fdWrite (keeps_session_access _) (keeps_session_access _)
    (fun vectors => (keeps_writeFrom fd vectors).map Prod.fst) fun _ => keeps_session_access _

/-- `fdWrite` that fails has let out no text. -/
theorem failsClean_fdWrite (fd : Fd) (buffers count address : UInt32) :
    FailsClean Workspace.visible (fdWrite fd buffers count address) := by
  refine ((keeps_access (Access.keeps_readIoVecs _ _)).map Workspace.visible).bind_failsClean
    fun vectors => ?_
  intro w e w' h
  -- the cell is refused, or what comes after the check fails
  rcases bind_eq_error_iff.mp h with hcheck | ⟨_, w₁, hcheck, h⟩
  · exact ((keeps_access (Access.keeps_check _ _)).map Workspace.visible).failsClean w e w' hcheck
  · obtain ⟨_, hpassed, rfl⟩ := access_eq_ok_iff.mp hcheck
    obtain ⟨hin, rfl⟩ := Access.check_eq_ok_iff.mp hpassed
    rcases bind_eq_error_iff.mp h with hfrom | ⟨moved, w₂, hfrom, hstore⟩
    · exact failsClean_writeFrom fd vectors w e w' hfrom
    · -- the memory is still the one that was checked, so storing the count does not fail
      have hmemory : w₂.memory = w.memory :=
        ((keeps_writeFrom fd vectors).map Prod.snd).ok hfrom
      obtain ⟨_, hwrite⟩ := (Access.writeU32_ok_iff moved).mpr (hmemory ▸ hin)
      obtain ⟨_, herror, _⟩ := access_eq_error_iff.mp hstore
      rw [hwrite] at herror
      cases herror

/-! ## Flags and exit codes

The bodies that change the session by themselves. -/

/-- `fdFdstatSetFlags` refuses flags that are too wide before anything is done. -/
theorem failsClean_fdFdstatSetFlags (fd : Fd) (flags : UInt32) :
    FailsClean id (fdFdstatSetFlags fd flags) := by
  refine (FailsClean.leadsTo id).fdFdstatSetFlags (keeps_look _) (fun d => ?_)
    (keeps_pure _).failsClean flags
  -- a descriptor is put in place last, and that does not fail
  intro w e w' h
  rw [setDescriptor_eq] at h
  cases h

/-- `fdFdstatSetFlags` sets flags on what is open, and otherwise does nothing. -/
theorem fdFdstatSetFlags_eq_ok {flags : UInt32} (h : fdFdstatSetFlags fd flags w = .ok () w') :
    w' = w ∨ ∃ d, w.session.table.get fd = .ok d ∧
      w' = { w with
        session := { w.session with
          table := w.session.table.set fd (d.withFlags flags.toUInt16) } } := by
  obtain ⟨half, w₁, hhalf, hrest⟩ := bind_eq_ok_iff.mp h
  obtain ⟨_, rfl, rfl⟩ := halfWord_eq_ok_iff.mp hhalf
  obtain ⟨table, w₂, hlook, h⟩ := bind_eq_ok_iff.mp hrest
  obtain ⟨rfl, rfl⟩ := look_eq_ok_iff.mp hlook
  -- a number that is not in use is passed over
  cases hget : w₂.session.table.get fd with
  | ok d =>
    rw [hget] at h
    cases h
    exact .inr ⟨d, rfl, rfl⟩
  | error errno =>
    rw [hget] at h
    cases h
    exact .inl rfl

/-- `closeDescriptor` of a number that is not in use does nothing. -/
theorem failsClean_closeDescriptor (fd : Fd) : FailsClean id (closeDescriptor fd) := by
  intro w e w' h
  rw [closeDescriptor_eq] at h
  split at h
  · cases h
  · cases h
    rfl

/-- `procExit` always succeeds, and sets the exit code. -/
theorem procExit_eq (code : UInt32) (w : Workspace) :
    ∃ events, procExit code w =
      .ok () { w with session := { w.session with exitCode := some code }, events := events } :=
  ⟨_, rfl⟩

end Action

end WasiHost
