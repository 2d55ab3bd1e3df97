import WasiHost.Proofs.Session.Run

/-!
# Sessions that opens and closes cannot tell apart

Two sessions with the same options and alike tables reply alike to every sequence of opens and
closes: with the same answers, the same octets in guest memory, and the same texts and log lines. In
particular the same numbers are handed out.

* **`Session.Alike`**, **`Workspace.Alike`** — the relation.
* **`Action.respects_pathOpen`**, **`Action.respects_closeDescriptor`** — the two bodies respect it.
* **`Session.Alike.told`** — alike sessions tell the same to every sequence of opens and closes.
-/

namespace WasiHost

/-- Two sessions have the same options and hand out the same numbers. -/
structure Session.Alike (s s' : Session) : Prop where
  table : s.table.Alike s'.table
  options : s.options = s'.options

/-- Two workspaces differ in nothing that opens and closes look at. -/
structure Workspace.Alike (w w' : Workspace) : Prop where
  session : w.session.Alike w'.session
  memory : w.memory = w'.memory
  events : w.events = w'.events

/-- `resolve` leads to the same path in alike sessions. -/
theorem Session.Alike.resolve_eq {s s' : Session} (h : s.Alike s') (fd : Fd) (path : String) :
    s.resolve fd path = s'.resolve fd path := by
  unfold Session.resolve
  cases hget : s.table.get fd with
  | error errno => rw [h.table.get_error hget]
  | ok d =>
    obtain ⟨d', hget', hd⟩ := h.table.get_ok hget
    rw [hget']
    rcases Descriptor.eq_or_file_of_unloaded hd with rfl | ⟨_, _, _, _, _, rfl, rfl⟩
    · rfl
    · -- a file is no directory, whatever is loaded of it
      rfl

namespace Action

variable {α : Type} {w w' : Workspace}

/-! ## Steps that respect the relation

`Respects Workspace.Alike` is followed through the two bodies step by step. The steps that move
numbers around are where it matters: they rest on `DescriptorTable.Alike`. -/

/-- `access` finds the same: alike workspaces have the same memory. -/
theorem respects_access (x : Access α) : Respects Workspace.Alike (access x) := by
  intro w w' h
  unfold access
  rw [← h.memory]
  cases x w.memory with
  | ok a memory => exact .ok a ⟨h.session, rfl, h.events⟩
  | error e memory => exact .error e ⟨h.session, rfl, h.events⟩

/-- `look` may ask for what alike sessions agree on. -/
theorem respects_look {f : Session → α} (hf : ∀ s s' : Session, s.Alike s' → f s = f s') :
    Respects Workspace.Alike (look f) := by
  intro w w' h
  unfold look
  rw [hf _ _ h.session]
  exact .ok _ h

theorem respects_resolve (fd : Fd) (path pathLength : UInt32) :
    Respects Workspace.Alike (resolve fd path pathLength) :=
  (Respects.sequential _).resolve (respects_access _) fun text =>
    respects_look fun _ _ h => h.resolve_eq fd text

/-- `Workspace.Alike` stays if the tables are alike and the same events are let out. -/
theorem alike_of_tables (h : w.Alike w') {a b : DescriptorTable} (hab : a.Alike b)
    (events : List Event) :
    Workspace.Alike
      { w with session := { w.session with table := a }, events := w.events ++ events }
      { w' with session := { w'.session with table := b }, events := w'.events ++ events } where
  session := ⟨hab, h.session.options⟩
  memory := h.memory
  events := congrArg (· ++ events) h.events

/-- `openDescriptor` hands out the same number in both, or none. -/
theorem respects_openDescriptor (d : Descriptor) :
    Respects Workspace.Alike (openDescriptor d) := by
  intro w w' h
  rw [openDescriptor_eq, openDescriptor_eq]
  rcases h.session.table.insert d with ⟨errno, hw, hw'⟩ | ⟨fd, a, b, hw, hw', hab⟩
  · rw [hw, hw']
    exact .error _ h
  · rw [hw, hw']
    exact .ok fd (alike_of_tables h hab _)

theorem respects_closeDescriptor (fd : Fd) :
    Respects Workspace.Alike (closeDescriptor fd) := by
  intro w w' h
  rw [closeDescriptor_eq, closeDescriptor_eq]
  rcases h.session.table.close fd with ⟨errno, hw, hw'⟩ | ⟨records, a, b, hw, hw', hab⟩
  · rw [hw, hw']
    exact .error _ h
  · rw [hw, hw']
    exact .ok () (alike_of_tables h hab _)

/-- An open is made of steps that respect the relation, and of `reveal`, which does by
`Respects.reveal`. -/
theorem respects_pathOpen (host : Host) (fd : Fd) (path pathLength : UInt32)
    (openFlags : OpenFlags) (rightsBase rightsInheriting : Rights) (fdFlags address : UInt32) :
    Respects Workspace.Alike
      (pathOpen host fd path pathLength openFlags rightsBase rightsInheriting fdFlags address) :=
  (Respects.sequential _).pathOpen (respects_resolve fd path pathLength) respects_openDescriptor
    (fun new => .reveal (respects_access _) (respects_closeDescriptor new)) openFlags rightsBase
    rightsInheriting fdFlags

end Action

/-! ## Sequences of opens and closes

What such a sequence is told is `Session.told`. That alike sessions tell the same is an induction on
the steps. -/

/-- A step that opens a path or closes a descriptor. -/
def Step.OpensOrCloses (step : Step) : Prop :=
  ∃ host call memory, step.performed? = some (host, call, memory) ∧
    (call.name = .pathOpen ∨ call.name = .fdClose)

namespace Session

/-- What the guest and the host are told by the replies to steps, one after the other: the answer,
the memory, and what is let out. -/
def told (s : Session) : List Step → List (Option (Except FatalError UInt64 × Memory × List Event))
  | [] => []
  | step :: rest =>
    ((step.reply? s).map fun reply => (reply.answer, reply.memory, reply.events)) ::
      (s.step step).told rest

variable {s s' : Session} {host : Host} {call : Call} {memory : Memory}

/-- `pathOpen` and `fdClose`, the two calls that hand out and take back numbers. -/
theorem respects_body (host : Host)
    (h : call.name = .pathOpen ∨ call.name = .fdClose) :
    Respects Workspace.Alike (call.body host) := by
  cases call with
  | pathOpen fd dirFlags path pathLength openFlags rightsBase rightsInheriting fdFlags address =>
    exact Action.respects_pathOpen host fd path pathLength openFlags rightsBase rightsInheriting
      fdFlags address
  | fdClose fd => exact Action.respects_closeDescriptor fd
  | _ => rcases h with h | h <;> cases h

/-- `perform` of a `pathOpen` or an `fdClose` replies alike in alike sessions, which are alike
afterwards. -/
theorem Alike.perform (h : s.Alike s') (host : Host) (memory : Memory)
    (hcall : call.name = .pathOpen ∨ call.name = .fdClose) :
    (call.perform host s memory).answer = (call.perform host s' memory).answer ∧
      (call.perform host s memory).memory = (call.perform host s' memory).memory ∧
      (call.perform host s memory).events = (call.perform host s' memory).events ∧
      (call.perform host s memory).session.Alike (call.perform host s' memory).session := by
  have hbody := respects_body host hcall
    { session := s, memory := memory, events := [] }
    { session := s', memory := memory, events := [] }
    ⟨h, rfl, rfl⟩
  unfold Call.perform
  rw [← h.options]
  generalize call.body host { session := s, memory := memory, events := [] } = ended at hbody
  generalize call.body host { session := s', memory := memory, events := [] } = ended' at hbody
  cases hbody with
  | ok u hw =>
    refine ⟨rfl, hw.memory, ?_, hw.session⟩
    -- the trace looks at memory only
    simp only [Call.reply, hw.memory, hw.events]
  | error e hw =>
    refine ⟨rfl, hw.memory, ?_, hw.session⟩
    simp only [Call.reply, hw.memory, hw.events]

/-- `told` is the same of every sequence of steps that `OpensOrCloses`. By induction on `later`,
with `Alike.perform` as the step. -/
theorem Alike.told (h : s.Alike s') (later : List Step)
    (hlater : ∀ step ∈ later, step.OpensOrCloses) : s.told later = s'.told later := by
  induction later generalizing s s' with
  | nil => rfl
  | cons step rest ih =>
    obtain ⟨⟨host, call, memory, hstep, hcall⟩, hrest⟩ := List.forall_mem_cons.mp hlater
    -- the step performs one call, in both sessions
    obtain ⟨hs, _, hreply⟩ := step_of_performed hstep s
    obtain ⟨hs', _, hreply'⟩ := step_of_performed hstep s'
    obtain ⟨hanswer, hmemory, hevents, hafter⟩ := h.perform host memory hcall
    rw [Session.told, Session.told, hreply, hreply', hs, hs', ih hafter hrest]
    simp only [Option.map_some, hanswer, hmemory, hevents]

end Session

end WasiHost
