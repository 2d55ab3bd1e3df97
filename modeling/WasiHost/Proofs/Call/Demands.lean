import WasiHost.Proofs.Call.Answer

/-!
# Calls that need an open descriptor

Most calls that take a number of a descriptor look it up first of all, or at least before they let
anything out, and fail if nothing is open under it. Only a seek, which then stores zero, and a
change of flags, which then does nothing, put up with a number that is not in use.

* **`Demands`** — a body that succeeds only if something is open. It is enough that one step of it
  does: `Demands.bind`, `Demands.after`.
* **`Call.demands_body`** — the calls whose bodies are of this kind.
* **`Call.refused_of_closed`** — what they are answered if nothing is open.
-/

namespace WasiHost

/-- The number of a descriptor that a call takes. -/
def Call.fd? : Call → Option Fd
  | fdClose fd | fdFdstatGet fd _ | fdFdstatSetFlags fd _ | fdPrestatGet fd _
  | fdPrestatDirName fd _ _ | fdRead fd _ _ _ | fdSeek fd _ _ _ | fdWrite fd _ _ _
  | pathFilestatGet fd _ _ _ _ | pathOpen fd _ _ _ _ _ _ _ _ => some fd
  | _ => none

/-- The number of a descriptor that has to be open for a call to succeed. -/
def Call.demands? : Call → Option Fd
  | fdSeek .. | fdFdstatSetFlags .. => none
  | call => call.fd?

namespace Action

variable {α β : Type} {fd : Fd} {x : Action α}

/-- The computation succeeds only if something is open under the number. -/
def Demands (fd : Fd) (x : Action α) : Prop :=
  ∀ w a w', x w = .ok a w' → ∃ d, w.session.table.get fd = .ok d

/-- `Demands` of a first step is that of the sequence, whatever comes after. -/
theorem Demands.bind (hx : Demands fd x) (f : α → Action β) : Demands fd (x >>= f) := by
  intro w b w' h
  obtain ⟨a, t, ha, _⟩ := bind_eq_ok_iff.mp h
  exact hx w a t ha

/-- What comes before may do anything that keeps the `session`. -/
theorem Demands.after (hx : Keeps Workspace.session x) {f : α → Action β}
    (hf : ∀ a, Demands fd (f a)) : Demands fd (x >>= f) := by
  intro w b w' h
  obtain ⟨a, t, ha, hb⟩ := bind_eq_ok_iff.mp h
  have hopen := hf a t b w' hb
  rwa [hx.ok ha] at hopen

/-! ## Steps

The steps that look an entry up, and fail if there is none. -/

theorem demands_descriptor (fd : Fd) : Demands fd (descriptor fd) := by
  intro w d w' h
  exact ⟨d, (descriptor_eq_ok_iff.mp h).1⟩

theorem demands_closeDescriptor (fd : Fd) : Demands fd (closeDescriptor fd) := by
  intro w _ w' h
  rw [closeDescriptor_eq] at h
  split at h
  · next hclose =>
    obtain ⟨old, hold, _⟩ := DescriptorTable.close_eq_ok_iff.mp hclose
    exact ⟨old, hold⟩
  · cases h

/-- `preopenedName` is read off an entry that is there. -/
theorem demands_preopenedName (fd : Fd) : Demands fd (preopenedName fd) :=
  (demands_descriptor fd).bind _

/-- `resolve` finds a path below what is open. -/
theorem demands_resolve (fd : Fd) (path pathLength : UInt32) :
    Demands fd (resolve fd path pathLength) := by
  refine .after (keeps_session_access _) fun text => ?_
  intro w name w' h
  obtain ⟨outcome, w₁, hlook, hlift⟩ := bind_eq_ok_iff.mp h
  obtain ⟨rfl, rfl⟩ := look_eq_ok_iff.mp hlook
  -- a path was found, so there was something to find it from
  obtain ⟨hresolve, _⟩ := lift_eq_ok_iff.mp hlift
  unfold Session.resolve at hresolve
  cases hget : w₁.session.table.get fd with
  | ok d => exact ⟨d, rfl⟩
  | error errno =>
    rw [hget] at hresolve
    cases hresolve

/-! ## Bodies

Three bodies do something else before they look their descriptor up, and that keeps the session:
`Demands.after`. -/

/-- `fdRead` reads the list and checks the cell first. Both leave the session alone, so the
descriptor that is demanded after them was open before. -/
theorem demands_fdRead (host : Host) (fd : Fd) (buffers count address : UInt32) :
    Demands fd (fdRead host fd buffers count address) := by
  refine .after (keeps_session_access _) fun vectors => ?_
  refine .after (keeps_session_access _) fun _ => ?_
  exact ((demands_descriptor fd).bind _).bind _

theorem demands_fdWrite (fd : Fd) (buffers count address : UInt32) :
    Demands fd (fdWrite fd buffers count address) := by
  refine .after (keeps_session_access _) fun vectors => ?_
  refine .after (keeps_session_access _) fun _ => ?_
  exact ((demands_descriptor fd).bind _).bind _

/-- `pathOpen` checks the widths of two arguments before the path is resolved. -/
theorem demands_pathOpen (host : Host) (fd : Fd) (path pathLength : UInt32) (openFlags : OpenFlags)
    (rightsBase rightsInheriting : Rights) (fdFlags address : UInt32) :
    Demands fd
      (pathOpen host fd path pathLength openFlags rightsBase rightsInheriting fdFlags address) := by
  refine .after ((keeps_halfWord openFlags).map Workspace.session) fun _ => ?_
  refine .after ((keeps_halfWord fdFlags).map Workspace.session) fun flags => ?_
  exact (demands_resolve fd path pathLength).bind _

end Action

namespace Call

open WasiHost.Action

variable {host : Host} {call : Call} {s : Session} {fd : Fd}

/-- If `Call.demands?` names a descriptor, the body of the call demands it. -/
theorem demands_body (host : Host) (hfd : call.demands? = some fd) :
    Demands fd (call.body host) := by
  cases call with
  | fdClose fd' =>
    cases hfd
    exact demands_closeDescriptor fd
  | fdFdstatGet fd' address =>
    cases hfd
    exact (demands_descriptor fd).bind _
  | fdPrestatGet fd' address =>
    cases hfd
    exact (demands_preopenedName fd).bind _
  | fdPrestatDirName fd' address size =>
    cases hfd
    exact (demands_preopenedName fd).bind _
  | fdRead fd' buffers count address =>
    cases hfd
    exact demands_fdRead host fd buffers count address
  | fdWrite fd' buffers count address =>
    cases hfd
    exact demands_fdWrite fd buffers count address
  | pathFilestatGet fd' flags path pathLength address =>
    cases hfd
    exact (demands_resolve fd path pathLength).bind _
  | pathOpen fd' dirFlags path pathLength openFlags rightsBase rightsInheriting fdFlags address =>
    cases hfd
    exact demands_pathOpen host fd path pathLength openFlags rightsBase rightsInheriting fdFlags
      address
  -- the rest has no descriptor among its arguments, or needs none open
  | _ => cases hfd

/-- What `demands?` a descriptor is no clock call. -/
theorem asksClock_of_demands (hfd : call.demands? = some fd) : call.asksClock = false := by
  cases call with
  | clockResolution | clockResGet | clockTimeGet => cases hfd
  | _ => rfl

/-- A call that `demands?` a number that is not in use is answered 8 on any memory, and lets out no
text. -/
theorem refused_of_closed (hsound : s.table.Sound) (hfd : call.demands? = some fd)
    (hclosed : ∀ d, s.table.get fd ≠ .ok d) (host : Host) (linear : LinearMemory) :
    (call.perform host s (.attached linear)).answer = .ok 8 ∧
      Event.stdoutTexts (call.perform host s (.attached linear)).events = [] ∧
      Event.stderrTexts (call.perform host s (.attached linear)).events = [] := by
  have hclock := asksClock_of_demands hfd
  have hfails : (call.perform host s (.attached linear)).answer ≠ .ok 0 := by
    intro hzero
    obtain ⟨w, hrun⟩ := run_of_answer_eq_zero hclock hzero
    -- a call that is answered zero has found something open
    obtain ⟨d, hget⟩ := demands_body host hfd _ () w hrun
    exact hclosed d hget
  obtain ⟨_, hstdout, hstderr, _⟩ := perform_of_answer_ne_zero hsound hfails
  exact ⟨answer_eq_eight hclock hfails, hstdout, hstderr⟩

end Call

end WasiHost
